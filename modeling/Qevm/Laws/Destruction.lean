import Qevm.Core.Creations
import Qevm.Core.Destroyed
import Qevm.Core.Run
import Qevm.State.Dummy

/-!
# Self-destructions that are undone

A frame that fails takes back what it has written, but the set of self-destructed
accounts is one set for the whole transaction.  Next to a run we keep the accounts
whose self-destruction has not been undone.
-/

namespace Qevm

open WorldState Exec TxExecContext

section Law

variable {S : Type} [WorldState S] [Keccak256]

/-- The accounts whose self-destruction lasts, and those that it did for when each
of the frames was pushed, the executing frame first. -/
structure Marks where
  lasting : List Addr
  saved : List (List Addr)

namespace Marks

/-- Before the first instruction nothing is marked. -/
def start : Marks := ⟨[], [[]]⟩

/-- A frame is pushed. -/
def push (self : Marks) : Marks := ⟨self.lasting, self.lasting :: self.saved⟩

end Marks

/-- An iteration ends frames; the last one ends in `ending` with a result, and its end
is settled. -/
structure EndsFrames
    (before after : TxExecContext S) (inst : Inst) (ending : TxExecContext S)
    (data : Bytes) (err : Result) : Prop where
  fetches : Fetches before inst
  ends : Ends before ending data err
  settled : ∃ settled, finishCall data err ending = .ok () settled ∧
    after = advanced inst settled

/-- What an iteration does to the marks.  A failing frame may be asked for what holds
in the context in which it ends and of the marks that come back. -/
inductive Follows
    (asked : TxExecContext S → List Addr → Prop) (before after : TxExecContext S) :
    Marks → Marks → Prop
  | goesOn {marks : Marks}
      (level : after.callStack.length = before.callStack.length) :
      Follows asked before after marks marks
  | opens {marks : Marks}
      (deeper : after.callStack.length = before.callStack.length + 1) :
      Follows asked before after marks marks.push
  /-- A frame ends without an error: its marks last, and so does that of the
  contract that destroys itself. -/
  | succeeds {lasting saved : List Addr} {rest : List (List Addr)} {inst : Inst}
      {ending : TxExecContext S} {data : Bytes}
      (ends : EndsFrames before after inst ending data (.ok ())) :
      Follows asked before after ⟨lasting, saved :: rest⟩
        ⟨if inst.opcode = .selfDestruct then before.curCall.callee :: lasting
          else lasting, rest⟩
  /-- A frame fails: everything that has been marked since it was pushed is undone. -/
  | fails {lasting saved : List Addr} {all rest : List (List Addr)} {inst : Inst}
      {ending : TxExecContext S} {data : Bytes} {err : ExecError}
      (ends : EndsFrames before after inst ending data (.error err))
      (restored : all.drop (before.callStack.length - ending.callStack.length) =
        saved :: rest)
      (meets : asked ending saved) :
      Follows asked before after ⟨lasting, all⟩ ⟨saved, rest⟩

/-- A frame does not fail with the account marked unless its self-destruction lasted
already when the frame was pushed. -/
def NotUndone (account : Addr) (ending : TxExecContext S) (saved : List Addr) : Prop :=
  account ∈ ending.destroyed → account ∈ saved

instance (account : Addr) :
    DecidableRel (NotUndone account : TxExecContext S → List Addr → Prop) :=
  fun _ _ => inferInstanceAs (Decidable (_ → _))

/-- A run of a transaction with its marks. -/
inductive Transaction.Marked
    (asked : TxExecContext S → List Addr → Prop) (tx : Transaction S) :
    TxExecContext S → Marks → Prop
  | enters {entered : TxExecContext S} :
      tx.Enters entered → tx.Marked asked entered Marks.start
  | step {before after : TxExecContext S} {marks next : Marks} :
      tx.Marked asked before marks → Step before after →
      Follows asked before after marks next → tx.Marked asked after next

/-- A transaction ends in `final`, with the context `processed` whose touched and
destroyed accounts are deleted then. -/
inductive Transaction.Concludes
    (asked : TxExecContext S → List Addr → Prop) (tx : Transaction S)
    (processed final : TxExecContext S) : Marks → Prop
  /-- The iteration that ends the top-level frame. -/
  | run {before ending : TxExecContext S} {marks next : Marks} {args : TxArgs S}
      {data : Bytes} {err ret : Result} {addr : Option Addr} {bottom : CallFrame S} :
      tx.Marked asked before marks → Step before final →
      Follows asked before final marks next →
      Finishes before final args data err ending bottom →
      txResult args data err { ending with callStack := [], curCall := bottom } =
        .ok (ret, addr) processed →
        Concludes asked tx processed final next
  /-- A transaction that runs no code. -/
  | atOnce {initial working : TxExecContext S} {args : TxArgs S} {data : Bytes}
      {gas : Gas} {err ret : Result} {addr : Option Addr} :
      tx.context = some initial →
      tx.startEffect initial = .ok (.settle (.tx args) data gas err) working →
      txResult args data err working = .ok (ret, addr) processed →
      txEnd args data gas err working = .ok () final →
        Concludes asked tx processed final Marks.start

/-! ## The set of self-destructed accounts -/

/-- `SELFDESTRUCT` ends its frame. -/
theorem tail_of_selfDestruct
    {inst : Inst} {before working : TxExecContext S} {tail : Tail S}
    (destroys : inst.opcode = .selfDestruct)
    (run : effect inst before = .ok tail working) : tail = .finish [] (.ok ()) := by
  obtain ⟨opcode, data, pos⟩ := inst
  obtain rfl : opcode = .selfDestruct := destroys
  obtain ⟨_, _, -, returned⟩ := Procedure.bind_ok.mp run
  exact (Outcome.ok.inj returned).1.symm

/-- An instruction that does not end its frame marks nothing. -/
theorem destroyed_of_effect
    {inst : Inst} {before working : TxExecContext S} {tail : Tail S}
    (run : effect inst before = .ok tail working)
    (stays : tail ≠ .finish [] (.ok ())) : working.destroyed = before.destroyed := by
  obtain kept | ⟨destroys, -⟩ := effect_ok_destroyed run
  · exact kept
  · exact absurd (tail_of_selfDestruct destroys run) stays

/-- An iteration that ends no frame marks nothing. -/
theorem Step.destroyed_of_stays
    {before after : TxExecContext S} (step : Step before after)
    (stays : before.callStack.length ≤ after.callStack.length) :
    after.destroyed = before.destroyed := by
  obtain ⟨inst, -, continues | enters | settled | ended⟩ := step.cases
  · obtain ⟨working, effected, rfl⟩ := continues
    change working.destroyed = before.destroyed
    apply destroyed_of_effect effected
    simp
  · obtain ⟨_, _, _, _, _, _, _, _, working, effected, run⟩ := enters
    rw [callPush_ok run]
    change working.destroyed = before.destroyed
    apply destroyed_of_effect effected
    simp
  · obtain ⟨args, ret, gas, err, working, moved, effected, ended, rfl⟩ := settled
    have settles : working.Settles moved := Procedure.Moves.ok ended
    apply settles.destroyed.trans
    apply destroyed_of_effect effected
    simp
  · obtain ⟨ending, data, err, settled, ends, finished, rfl⟩ := ended
    have shorter := ends.shorter finished
    exact absurd stays (Nat.not_le.mpr shorter)

/-- What an instruction marks does not depend on the frames that it ends. -/
theorem Exec.Marked.unique
    {inst : Inst} {before left right : TxExecContext S}
    (first : Marked inst before left) (second : Marked inst before right) :
    left.destroyed = right.destroyed := by
  obtain ⟨_, leftSame, ⟨_, leftRun⟩ | ⟨_, leftRun⟩⟩ := first <;>
    obtain ⟨_, rightSame, ⟨_, rightRun⟩ | ⟨_, rightRun⟩⟩ := second <;>
    cases leftRun.symm.trans rightRun <;>
    exact leftSame.trans rightSame.symm

/-- A frame that ends without an error marks at most the contract that destroys
itself. -/
theorem EndsFrames.marks
    {before after ending : TxExecContext S} {inst : Inst} {data : Bytes} {err : Result}
    (ends : EndsFrames before after inst ending data err) {account : Addr}
    (member : account ∈ ending.destroyed) :
    account ∈ before.destroyed ∨
      inst.opcode = .selfDestruct ∧ account = before.curCall.callee := by
  obtain kept | ⟨destroys, -, added⟩ := ends.ends.destroyed ends.fetches
  · rw [show ending.destroyed = before.destroyed from kept] at member
    exact .inl member
  · rw [added, HashSet.mem_insert] at member
    rcases member with same | old
    · exact .inr ⟨destroys, same⟩
    · exact .inl old

/-- Only its own instruction ends a frame without an error. -/
theorem Exec.Ends.effect_ok
    {before ending : TxExecContext S} {data : Bytes}
    (ends : Ends before ending data (.ok ())) :
    ∃ inst, effect inst before = .ok (.finish data (.ok ())) ending := by
  cases ends with
  | instruction fetches runs => exact ⟨_, runs⟩

/-- When no frame takes back the self-destruction of an account, an iteration that
leaves it marked leaves its self-destruction lasting. -/
theorem Follows.lasting
    {account : Addr} {before after reached : TxExecContext S} {marks next : Marks}
    {inst : Inst} (step : Step before after) (suspended : before.callStack ≠ [])
    (follows : Follows (NotUndone account) before after marks next)
    (fetches : Fetches before inst) (marked : Exec.Marked inst before reached)
    (lasts : account ∈ before.destroyed → account ∈ marks.lasting) :
    account ∈ reached.destroyed → account ∈ next.lasting := by
  have kept (stays : before.callStack.length ≤ after.callStack.length) :
      reached.destroyed = before.destroyed := by
    have deep : after.callStack ≠ [] := by
      apply List.ne_nil_of_length_pos
      exact Nat.lt_of_lt_of_le (List.length_pos_of_ne_nil suspended) stays
    rw [marked.unique (step.marked fetches deep)]
    exact step.destroyed_of_stays stays
  have ended {found : Inst} {ending : TxExecContext S} {data : Bytes} {err : Result}
      (ends : EndsFrames before after found ending data err) :
      reached.destroyed = ending.destroyed := by
    obtain rfl := Option.some.inj (fetches.symm.trans ends.fetches)
    exact marked.unique (ends.ends.marked fetches)
  cases follows with
  | goesOn level =>
      rw [kept (Nat.le_of_eq level.symm)]
      exact lasts
  | opens deeper =>
      rw [kept (by omega)]
      exact lasts
  | succeeds ends =>
      rw [ended ends]
      intro member
      obtain old | ⟨destroys, rfl⟩ := ends.marks member
      · split
        · exact List.mem_cons_of_mem _ (lasts old)
        · exact lasts old
      · simp only [destroys, if_true]
        exact List.mem_cons_self
  | fails ends restored meets =>
      rw [ended ends]
      exact meets

/-- A run with marks is a run of the transaction. -/
theorem Transaction.Marked.reaches
    {asked : TxExecContext S → List Addr → Prop} {tx : Transaction S}
    {context : TxExecContext S} {marks : Marks} (marked : tx.Marked asked context marks) :
    tx.Reaches context := by
  induction marked with
  | enters enters => exact ⟨_, enters, .refl⟩
  | step _ step _ inductionHypothesis => exact inductionHypothesis.step step

/-- The start of a transaction marks nothing. -/
theorem Transaction.destroyed_of_start
    {tx : Transaction S} {initial working : TxExecContext S} {tail : Tail S}
    (context : tx.context = some initial)
    (run : tx.startEffect initial = .ok tail working) :
    working.destroyed = HashSet.empty := by
  have stays : initial.Stays working := Procedure.Moves.ok run
  obtain ⟨accessList, rfl⟩ := context_eq_some context
  exact stays.destroyed

/-- While a transaction runs in which the self-destruction of an account is not taken
back, it lasts when the account is marked. -/
theorem Transaction.Marked.lasting
    {account : Addr} {tx : Transaction S} {context : TxExecContext S} {marks : Marks}
    (marked : tx.Marked (NotUndone account) context marks)
    (suspended : context.callStack ≠ []) :
    account ∈ context.destroyed → account ∈ marks.lasting := by
  induction marked with
  | enters enters =>
      obtain ⟨initial, _, _, _, _, _, _, _, working, built, effected, -, -, rfl⟩ :=
        enters.pushed (enters.running suspended)
      intro member
      rw [show _ = HashSet.empty from destroyed_of_start built effected] at member
      exact absurd member List.not_mem_nil
  | step earlier step follows inductionHypothesis =>
      obtain ⟨inst, fetches, -⟩ := step.cases
      have inside := (earlier.reaches.inTransaction step).suspended
      exact follows.lasting step inside fetches (step.marked fetches suspended)
        (inductionHypothesis inside)

/-! ## Every run has marks -/

/-- Nothing is asked of a failing frame. -/
def Anything (_ : TxExecContext S) (_ : List Addr) : Prop := True

/-- An iteration does something to the marks. -/
theorem Step.exists_follows
    {before after : TxExecContext S} (step : Step before after) {marks : Marks}
    (depth : marks.saved.length = before.callStack.length) :
    ∃ next, Follows Anything before after marks next ∧
      next.saved.length = after.callStack.length := by
  obtain ⟨inst, fetches, continues | enters | settled | ended⟩ := step.cases
  · obtain ⟨working, effected, rfl⟩ := continues
    have works : before.Works working := Procedure.Moves.ok effected
    have level := congrArg List.length works.callStack
    exact ⟨marks, .goesOn level, depth.trans level.symm⟩
  · obtain ⟨_, _, _, _, _, _, _, _, working, effected, run⟩ := enters
    have works : before.Works working := Procedure.Moves.ok effected
    have deeper : after.callStack.length = before.callStack.length + 1 := by
      rw [callPush_ok run, ← works.callStack, List.length_cons]
    refine ⟨marks.push, .opens deeper, ?_⟩
    rw [Marks.push, List.length_cons, depth, deeper]
  · obtain ⟨args, ret, gas, err, working, moved, effected, ended, rfl⟩ := settled
    have works : before.Works working := Procedure.Moves.ok effected
    have settles : working.Settles moved := Procedure.Moves.ok ended
    have level := congrArg List.length (settles.callStack.trans works.callStack)
    exact ⟨marks, .goesOn level, depth.trans level.symm⟩
  · obtain ⟨ending, data, err, settled, ends, finished, rfl⟩ := ended
    obtain ⟨frame, callStack, suspended, leaves⟩ := finishCall_ok finished
    have below : (advanced inst settled).callStack = callStack := leaves.callStack
    have ended : EndsFrames before (advanced inst settled) inst ending data err :=
      ⟨fetches, ends, settled, finished, rfl⟩
    have shorter := ends.depth
    rw [suspended, List.length_cons] at shorter
    obtain ⟨lasting, saved⟩ := marks
    rw [below]
    cases err with
    | error err =>
        have remaining : (saved.drop
            (before.callStack.length - ending.callStack.length)).length =
              callStack.length + 1 := by
          rw [List.length_drop, depth, suspended, List.length_cons]
          omega
        obtain ⟨first, rest, restored⟩ := List.exists_cons_of_length_eq_add_one remaining
        refine ⟨⟨first, rest⟩, .fails ended restored trivial, ?_⟩
        rw [restored, List.length_cons] at remaining
        exact Nat.succ.inj remaining
    | ok _ =>
        obtain ⟨_, effected⟩ := ends.effect_ok
        have works : before.Works ending := Procedure.Moves.ok effected
        rw [← works.callStack, suspended] at depth
        obtain ⟨first, rest, rfl⟩ := List.exists_cons_of_length_eq_add_one depth
        exact ⟨_, .succeeds ended, Nat.succ.inj depth⟩

/-- A transaction that is reached has marks. -/
theorem Transaction.Reaches.exists_marks
    {tx : Transaction S} {context : TxExecContext S} (reaches : tx.Reaches context)
    (suspended : context.callStack ≠ []) :
    ∃ marks, tx.Marked Anything context marks ∧
      marks.saved.length = context.callStack.length := by
  obtain ⟨entered, enters, run⟩ := reaches
  induction run with
  | refl =>
      obtain ⟨_, _, _, _, _, _, _, _, _, -, -, -, -, rfl⟩ :=
        enters.pushed (enters.running suspended)
      exact ⟨Marks.start, .enters enters, rfl⟩
  | @tail middle last earlier step inductionHypothesis =>
      have middleReached : tx.Reaches middle := ⟨entered, enters, earlier⟩
      obtain ⟨marks, marked, depth⟩ :=
        inductionHypothesis (middleReached.inTransaction step).suspended
      obtain ⟨next, follows, nextDepth⟩ := step.exists_follows depth
      exact ⟨next, marked.step step follows, nextDepth⟩

/-- A transaction that succeeds concludes with marks. -/
theorem Transaction.Reaches.concludes
    {tx : Transaction S} {final : TxExecContext S} {data : Bytes} {gas : Gas}
    {contract : Option Addr} (reaches : tx.Reaches final)
    (succeeded : final.status = .finished (.succeeded data gas contract)) :
    ∃ processed marks, tx.Concludes Anything processed final marks := by
  obtain ⟨entered, enters, run⟩ := reaches
  cases run with
  | refl =>
      obtain ⟨initial, built, pushed | settled | failed⟩ := enters.cases
      · obtain ⟨_, _, _, _, _, _, _, working, effected, rfl⟩ := pushed
        have stays : initial.Stays working := Procedure.Moves.ok effected
        obtain ⟨accessList, rfl⟩ := context_eq_some built
        exact absurd (stays.status.symm.trans succeeded) (by simp)
      · obtain ⟨args, ret, err, working, effected, ended⟩ := settled
        obtain ⟨-, _, _, processed, result, -⟩ := txEnd_ok ended
        exact ⟨processed, Marks.start, .atOnce built effected result ended⟩
      · obtain ⟨err, working, raised, rfl⟩ := failed
        simp at succeeded
  | @tail before _ earlier step =>
      have reached : tx.Reaches before := ⟨entered, enters, earlier⟩
      have inside := reached.inTransaction step
      obtain ⟨marks, marked, depth⟩ := reached.exists_marks inside.suspended
      obtain ⟨next, follows, -⟩ := step.exists_follows depth
      obtain inside | ⟨args, bytes, err, ending, bottom, finishes⟩ :=
        step.inTransaction inside
      · have status := (step.lasts inside.suspended).status.trans step.1
        rw [succeeded] at status
        contradiction
      · obtain ⟨inst, settled, -, ended, -⟩ := finishes.settled
        obtain ⟨-, _, _, processed, result, -⟩ := txEnd_ok ended
        exact ⟨processed, next, .run marked step follows finishes result⟩

/-! ## The end of a transaction -/

/-- Processing a created contract settles the end of a frame. -/
instance settles_txResult (args : TxArgs S) (data : Bytes) (err : Result) :
    Procedure.Moves Settles (txResult args data err) := moves_txResult args data err

/-- When a transaction concludes in which the self-destruction of an account has not
been taken back, it lasts when the account is marked. -/
theorem Transaction.Concludes.lasting
    {account : Addr} {tx : Transaction S} {processed final : TxExecContext S}
    {marks : Marks} (concludes : tx.Concludes (NotUndone account) processed final marks) :
    account ∈ processed.destroyed → account ∈ marks.lasting := by
  cases concludes with
  | @run before ending _ _ _ _ _ _ _ _ marked step follows finishes result =>
      obtain ⟨inst, fetches, -⟩ := step.cases
      have inside := (marked.reaches.inTransaction step).suspended
      have settles : Settles _ processed := Procedure.Moves.ok result
      have kept : processed.destroyed = ending.destroyed := settles.destroyed
      rw [kept]
      exact follows.lasting step inside fetches (finishes.ends.marked fetches)
        (marked.lasting inside)
  | atOnce context effected result ended =>
      have settles : Settles _ processed := Procedure.Moves.ok result
      rw [settles.destroyed, destroyed_of_start context effected]
      intro member
      exact absurd member List.not_mem_nil

/-- A transaction that succeeds leaves what is left when the touched and destroyed
accounts have been deleted. -/
theorem Transaction.Concludes.state
    {asked : TxExecContext S → List Addr → Prop} {tx : Transaction S}
    {processed final : TxExecContext S} {marks : Marks} {data : Bytes} {gas : Gas}
    {contract : Option Addr} (concludes : tx.Concludes asked processed final marks)
    (succeeded : final.status = .finished (.succeeded data gas contract)) :
    final.state = (cleaned processed).state := by
  have ended {context settled : TxExecContext S} {args : TxArgs S} {bytes : Bytes}
      {left : Gas} {err ret : Result} {addr : Option Addr}
      (result : txResult args bytes err context = .ok (ret, addr) processed)
      (run : txEnd args bytes left err context = .ok () settled)
      (status : settled.status = .finished (.succeeded data gas contract)) :
      settled.state = (cleaned processed).state := by
    obtain ⟨-, found, reported, reached, again, -, rfl⟩ := txEnd_ok run
    obtain ⟨same, rfl⟩ := Outcome.ok.inj (again.symm.trans result)
    obtain ⟨rfl, rfl⟩ := Prod.mk.inj same
    cases found with
    | error err => simp [finalResult] at status
    | ok _ => rfl
  cases concludes with
  | run _ _ _ finishes result =>
      obtain ⟨inst, settled, -, run, rfl⟩ := finishes.settled
      exact (ended result run succeeded : settled.state = _)
  | atOnce _ _ result run => exact ended result run succeeded

section Spared

variable [LawfulWorldState S]

/-- An account is there as before. -/
structure Spared (account : Addr) (before after : S) : Prop where
  exist : exist after account = exist before account
  code : getCode after account = getCode before account
  agrees : (view after).Agrees account (view before)

namespace Spared

variable {account : Addr} {first second third : S}

theorem refl (account : Addr) (state : S) : Spared account state state :=
  ⟨rfl, rfl, View.Agrees.refl _ _⟩

theorem trans (left : Spared account first second) (right : Spared account second third) :
    Spared account first third :=
  ⟨right.exist.trans left.exist, right.code.trans left.code,
    right.agrees.trans left.agrees⟩

/-- A spared account is as empty as before. -/
theorem isEmpty (spared : Spared account first second) :
    isEmpty second account = isEmpty first account := by
  unfold WorldState.isEmpty
  rw [spared.code, ← LawfulWorldState.nonce_view, ← LawfulWorldState.nonce_view,
    ← LawfulWorldState.balance_view, ← LawfulWorldState.balance_view,
    spared.agrees.nonce, spared.agrees.balance]

/-- Deleting another account spares it. -/
theorem deleteAccount {other : Addr} (state : S) (different : account ≠ other) :
    Spared account state (WorldState.deleteAccount state other) := by
  have left : (view (WorldState.deleteAccount state other)).Agrees account (view state) ∧
      getCode (WorldState.deleteAccount state other) account = getCode state account ∧
      WorldState.exist (WorldState.deleteAccount state other) account =
        WorldState.exist state account :=
    LawfulWorldState.view_deleteAccount different
  exact ⟨left.2.2, left.2.1, left.1⟩

/-- Deleting empty accounts spares an account that is not empty. -/
theorem deleteEmpty
    {state : S} (accounts : List Addr) (present : WorldState.isEmpty state account = false) :
    Spared account state (Exec.deleteEmpty state accounts) := by
  induction accounts generalizing state with
  | nil => exact refl account state
  | cons other accounts inductionHypothesis =>
      rw [Exec.deleteEmpty, List.foldl_cons]
      split
      · rename_i empty
        have different : account ≠ other := by
          rintro rfl
          rw [present] at empty
          contradiction
        have deleted := deleteAccount state different
        exact deleted.trans (inductionHypothesis (deleted.isEmpty.trans present))
      · exact inductionHypothesis present

/-- Deleting accounts spares those that are not listed. -/
theorem deleteAll {accounts : List Addr} (state : S) (absent : account ∉ accounts) :
    Spared account state (Exec.deleteAll state accounts) := by
  induction accounts generalizing state with
  | nil => exact refl account state
  | cons other accounts inductionHypothesis =>
      rw [List.mem_cons, not_or] at absent
      exact (deleteAccount state absent.1).trans (inductionHypothesis _ absent.2)

/-- The end of a transaction spares an account that is not empty and not marked. -/
theorem cleaned
    {context : TxExecContext S} (present : WorldState.isEmpty context.state account = false)
    (absent : account ∉ context.destroyed) :
    Spared account context.state (Exec.cleaned context).state := by
  unfold Exec.cleaned
  split
  · exact (deleteEmpty _ present).trans (deleteAll _ absent)
  · exact deleteAll _ absent

end Spared
end Spared

/-- In a transaction that succeeds, and in which no frame fails with an account marked
whose self-destruction did not last when the frame was pushed: when every
`SELFDESTRUCT` of the account has been undone and it is not empty at the end, it still
exists with its code, storage, nonce and balance. -/
theorem undone_destruction_spares
    [LawfulWorldState S] {tx : Transaction S} {processed final : TxExecContext S}
    {marks : Marks} {data : Bytes} {gas : Gas} {contract : Option Addr} {account : Addr}
    (concludes : tx.Concludes (NotUndone account) processed final marks)
    (succeeded : final.status = .finished (.succeeded data gas contract))
    (undone : account ∉ marks.lasting)
    (present : isEmpty processed.state account = false) :
    Spared account processed.state final.state := by
  rw [concludes.state succeeded]
  apply Spared.cleaned present
  intro member
  exact undone (concludes.lasting member)

/-! ## Following a run -/

/-- The end of a frame by its own instruction. -/
structure FrameEnd (S : Type) where
  inst : Inst
  ending : TxExecContext S
  data : Bytes
  err : Result

/-- The frame that an iteration ends, if its instruction does. -/
def frameEnd (before : TxExecContext S) : Option (FrameEnd S) :=
  match decode before.curCall.code.asBytes before.curCall.pc with
  | none => none
  | some inst =>
      match effect inst before with
      | .ok (.finish data err) ending =>
          match finishCall data err ending with
          | .ok _ _ => some ⟨inst, ending, data, err⟩
          | _ => none
      | _ => none

theorem frameEnd_eq_some
    {before after : TxExecContext S} {last : FrameEnd S} (step : Step before after)
    (ends : frameEnd before = some last) :
    EndsFrames before after last.inst last.ending last.data last.err ∧
      last.ending.callStack = before.callStack := by
  unfold frameEnd at ends
  split at ends
  · contradiction
  rename_i inst fetches
  split at ends
  · rename_i data err ending effected
    split at ends
    · rename_i settled finished
      obtain rfl := Option.some.inj ends
      have ended : Ends before ending data err := .instruction fetches effected
      have works : before.Works ending := Procedure.Moves.ok effected
      obtain ⟨found, again, run⟩ := ended.iterate finished
      obtain rfl := Option.some.inj (again.symm.trans fetches)
      have same := (Outcome.ok.inj (step.2.symm.trans run)).2
      exact ⟨⟨fetches, ended, settled, finished, same⟩, works.callStack⟩
    · contradiction
  · contradiction

variable (allowed : TxExecContext S → List Addr → Bool)

/-- The marks after the end of a frame. -/
def Marks.afterEnd (callee : Addr) (last : FrameEnd S) : Marks → Option Marks
  | ⟨_, []⟩ => none
  | ⟨lasting, saved :: rest⟩ =>
      match last.err with
      | .ok _ =>
          some ⟨if last.inst.opcode = .selfDestruct then callee :: lasting else lasting,
            rest⟩
      | .error _ => if allowed last.ending saved then some ⟨saved, rest⟩ else none

/-- An iteration and what it does to the marks. -/
def trackOnce (before : TxExecContext S) (marks : Marks) :
    Option (TxExecContext S × Marks) :=
  (stepOnce before).bind fun after =>
    if after.callStack.length = before.callStack.length then
      some (after, marks)
    else if after.callStack.length = before.callStack.length + 1 then
      some (after, marks.push)
    else
      (frameEnd before).bind fun last =>
        (marks.afterEnd allowed before.curCall.callee last).map (after, ·)

/-- A number of iterations and what they do to the marks. -/
def trackFor : Nat → TxExecContext S → Marks → Option (TxExecContext S × Marks)
  | 0, context, marks => some (context, marks)
  | count + 1, context, marks =>
      (trackOnce allowed context marks).bind fun next =>
        trackFor count next.1 next.2

/-- How a transaction concludes. -/
structure Conclusion (S : Type) where
  processed : TxExecContext S
  final : TxExecContext S
  marks : Marks

/-- Follow a transaction that concludes with the iteration after a number of them. -/
def Transaction.conclude (tx : Transaction S) (count : Nat) : Option (Conclusion S) :=
  tx.entry.bind fun entered =>
    (trackFor allowed count entered Marks.start).bind fun before =>
      (trackOnce allowed before.1 before.2).bind fun final =>
        (frameEnd before.1).bind fun last =>
          match last.ending.curCall.callType, last.ending.callStack with
          | .tx args, [bottom] =>
              match txResult args last.data last.err
                { last.ending with callStack := [], curCall := bottom } with
              | .ok _ processed => some ⟨processed, final.1, final.2⟩
              | _ => none
          | _, _ => none

variable {allowed} {asked : TxExecContext S → List Addr → Prop}

theorem trackOnce_eq_some
    (permits : ∀ ending saved, allowed ending saved = true → asked ending saved)
    {before after : TxExecContext S} {marks next : Marks}
    (track : trackOnce allowed before marks = some (after, next)) :
    Step before after ∧ Follows asked before after marks next := by
  obtain ⟨found, once, track⟩ := Option.bind_eq_some_iff.mp track
  have step : Step before found := stepOnce_eq_some.mp once
  split at track
  · rename_i level
    obtain ⟨rfl, rfl⟩ := Prod.mk.inj (Option.some.inj track)
    exact ⟨step, .goesOn level⟩
  split at track
  · rename_i deeper
    obtain ⟨rfl, rfl⟩ := Prod.mk.inj (Option.some.inj track)
    exact ⟨step, .opens deeper⟩
  · obtain ⟨last, ends, track⟩ := Option.bind_eq_some_iff.mp track
    obtain ⟨left, ended, same⟩ := Option.map_eq_some_iff.mp track
    obtain ⟨rfl, rfl⟩ := Prod.mk.inj same
    obtain ⟨ends, stack⟩ := frameEnd_eq_some step ends
    refine ⟨step, ?_⟩
    obtain ⟨lasting, saved⟩ := marks
    obtain ⟨inst, ending, data, err⟩ := last
    cases saved with
    | nil => contradiction
    | cons saved rest =>
        cases err with
        | ok _ =>
            obtain rfl := Option.some.inj ended
            exact .succeeds ends
        | error err =>
            simp only [Marks.afterEnd] at ended
            split at ended
            · rename_i permitted
              obtain rfl := Option.some.inj ended
              refine .fails ends ?_ (permits _ _ permitted)
              rw [show ending.callStack = before.callStack from stack, Nat.sub_self]
              rfl
            · contradiction

theorem trackFor_eq_some
    (permits : ∀ ending saved, allowed ending saved = true → asked ending saved)
    {tx : Transaction S} {count : Nat} {before after : TxExecContext S}
    {marks next : Marks} (marked : tx.Marked asked before marks)
    (track : trackFor allowed count before marks = some (after, next)) :
    tx.Marked asked after next := by
  induction count generalizing before marks with
  | zero =>
      obtain ⟨rfl, rfl⟩ := Prod.mk.inj (Option.some.inj track)
      exact marked
  | succ count inductionHypothesis =>
      obtain ⟨⟨middle, between⟩, once, track⟩ := Option.bind_eq_some_iff.mp track
      obtain ⟨step, follows⟩ := trackOnce_eq_some permits once
      exact inductionHypothesis (marked.step step follows) track

/-- A conclusion that is followed is one. -/
theorem Transaction.conclude_eq_some
    (permits : ∀ ending saved, allowed ending saved = true → asked ending saved)
    {tx : Transaction S} {count : Nat} {conclusion : Conclusion S}
    (follows : tx.conclude allowed count = some conclusion) :
    tx.Concludes asked conclusion.processed conclusion.final conclusion.marks := by
  obtain ⟨entered, enters, follows⟩ := Option.bind_eq_some_iff.mp follows
  obtain ⟨⟨before, marks⟩, track, follows⟩ := Option.bind_eq_some_iff.mp follows
  obtain ⟨⟨final, next⟩, once, follows⟩ := Option.bind_eq_some_iff.mp follows
  obtain ⟨last, ends, follows⟩ := Option.bind_eq_some_iff.mp follows
  have marked := trackFor_eq_some permits (.enters (entry_eq_some.mp enters)) track
  obtain ⟨step, marksFollow⟩ := trackOnce_eq_some permits once
  obtain ⟨⟨fetches, ended, settled, finished, rfl⟩, -⟩ := frameEnd_eq_some step ends
  split at follows
  · rename_i args bottom callType callStack
    split at follows
    · rename_i result processed run
      obtain rfl := Option.some.inj follows
      rw [finishCall_cons last.data last.err callStack, callType] at finished
      have finishes : Finishes before (advanced last.inst settled) args last.data
          last.err last.ending bottom :=
        ⟨ended, callStack, callType, last.inst, settled, fetches, finished, rfl⟩
      exact .run marked step marksFollow finishes run
    · contradiction
  · contradiction

/-- A conclusion with a property can be found by following the transaction. -/
theorem Transaction.exists_conclusion
    (allowed : TxExecContext S → List Addr → Bool)
    (permits : ∀ ending saved, allowed ending saved = true → asked ending saved)
    (tx : Transaction S) (count : Nat) (property : Conclusion S → Prop)
    [DecidablePred property]
    (found : (tx.conclude allowed count).any
      (fun conclusion => decide (property conclusion)) = true) :
    ∃ conclusion : Conclusion S,
      tx.Concludes asked conclusion.processed conclusion.final conclusion.marks ∧
        property conclusion := by
  obtain ⟨conclusion, follows, holds⟩ := (Option.any_eq_true _ _).mp found
  exact ⟨conclusion, conclude_eq_some permits follows, of_decide_eq_true holds⟩

/-- Whether a transaction has succeeded. -/
def TxExecStatus.succeeds : TxExecStatus → Bool
  | .finished (.succeeded _ _ _) => true
  | _ => false

omit [WorldState S] [Keccak256] in
theorem TxExecStatus.exists_of_succeeds {status : TxExecStatus}
    (succeeds : status.succeeds = true) :
    ∃ data gas contract, status = .finished (.succeeded data gas contract) := by
  unfold TxExecStatus.succeeds at succeeds
  split at succeeds
  · exact ⟨_, _, _, rfl⟩
  · contradiction

end Law
namespace Sample

/-- Calls an account with all gas and without funds, and goes on. -/
def callWithAll (callee : UInt8) (rest : Bytes) : Bytes :=
  [0x60, 0, 0x60, 0, 0x60, 0, 0x60, 0, 0x60, 0, 0x60, callee, 0x5a, 0xf1] ++ rest

/-- The digests of the codes of the transaction below. -/
@[reducible] def destructionKeccak : Keccak256 := keccak
  [([], 0xc5d2460186f7233c927e7db2dcc703c0e500b653ca82273b7bfad8045d85a470),
    (callWithAll 0xcc [0],
      0xf7767f605f048f9ff5682545a7b5e4eb4c5585a6fe8a4e0f6b9b06fee232eba6),
    (callWithAll 0xbb [0x60, 0, 0x60, 0, 0xfd],
      0xca2139cb92e085e37455fce4d392a40a72aa6d2c316c37770e808990a0acd028),
    ([0x60, 1, 0xff],
      0x4332e7449d179f5dceba0d414291d661898a5770bf47f83cab418bc9c8d1e304)]

/-- The account `0xaa` calls `0xcc`, which calls `0xbb` and reverts; `0xbb` destroys
itself. -/
def revertedDestruction : Transaction DummyStateStore :=
  letI := destructionKeccak
  let state := ((DummyStateStore.new.setCode 0xaa (callWithAll 0xcc [0])).setCode 0xcc
    (callWithAll 0xbb [0x60, 0, 0x60, 0, 0xfd])).setCode 0xbb [0x60, 1, 0xff]
  { sender := 1
    recipient := some 0xaa
    value := 0
    gas := 1000000
    gasPrice := 0
    input := []
    accessList := none
    state := state
    committedState := state
    env := env .london }

end Sample

/-- The account that calls the destroyed one and reverts is spared. -/
theorem reverted_destruction_spares_caller :
    letI := Sample.destructionKeccak
    ∃ (processed final : TxExecContext DummyStateStore) (marks : Marks),
      Sample.revertedDestruction.Concludes (NotUndone 0xcc) processed final marks ∧
        Spared 0xcc processed.state final.state := by
  let := Sample.destructionKeccak
  obtain ⟨⟨processed, final, marks⟩, concludes, succeeds, undone, present⟩ :=
    Transaction.exists_conclusion (fun ending saved => NotUndone 0xcc ending saved)
      (fun _ _ => of_decide_eq_true) Sample.revertedDestruction 21
      (fun conclusion => conclusion.final.status.succeeds = true ∧
        0xcc ∉ conclusion.marks.lasting ∧
        isEmpty conclusion.processed.state 0xcc = false)
      (by decide +kernel)
  obtain ⟨data, gas, contract, succeeded⟩ := TxExecStatus.exists_of_succeeds succeeds
  exact ⟨processed, final, marks, concludes,
    undone_destruction_spares concludes succeeded undone present⟩

/-- An account whose only self-destruction is reverted is deleted. -/
theorem reverted_destruction_deletes :
    letI := Sample.destructionKeccak
    ∃ (processed final : TxExecContext DummyStateStore) (marks : Marks) (data : Bytes)
      (gas : Gas) (contract : Option Addr),
      Sample.revertedDestruction.Concludes Anything processed final marks ∧
        final.status = .finished (.succeeded data gas contract) ∧
        0xbb ∉ marks.lasting ∧ isEmpty processed.state 0xbb = false ∧
        ¬Spared 0xbb processed.state final.state := by
  let := Sample.destructionKeccak
  obtain ⟨⟨processed, final, marks⟩, concludes, succeeds, undone, present, was, is⟩ :=
    Transaction.exists_conclusion (fun _ _ => true) (fun _ _ _ => trivial)
      Sample.revertedDestruction 21
      (fun conclusion => conclusion.final.status.succeeds = true ∧
        0xbb ∉ conclusion.marks.lasting ∧
        isEmpty conclusion.processed.state 0xbb = false ∧
        exist conclusion.processed.state 0xbb = true ∧
        exist conclusion.final.state 0xbb = false)
      (by decide +kernel)
  obtain ⟨data, gas, contract, succeeded⟩ := TxExecStatus.exists_of_succeeds succeeds
  refine ⟨processed, final, marks, data, gas, contract, concludes, succeeded, undone,
    present, ?_⟩
  intro spared
  rw [spared.exist, was] at is
  contradiction

end Qevm
