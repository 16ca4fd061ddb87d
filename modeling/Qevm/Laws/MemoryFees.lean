import Qevm.Laws.Resume
import Qevm.Laws.Touches

/-!
# Memory that is paid for

What a frame has been charged for its memory should always be the price of the memory.
The instructions of the frame charge what they grow, but the data of a call that comes
back is written to a region that nobody has paid for.
-/

set_option synthInstance.maxSize 100000

namespace Qevm

open Params WorldState Exec TxExecContext Procedure

variable {S : Type}

/-! ### Runs of one frame -/

/-- A frame with a number of frames below it. -/
def TxExecContext.FrameAt
    (depth : Nat) (frame : CallFrame S) (context : TxExecContext S) : Prop :=
  ∃ above below, context.frames = above ++ frame :: below ∧ below.length = depth

/-- The executing frame is above the suspended ones. -/
theorem TxExecContext.frameAt_executing (context : TxExecContext S) :
    context.FrameAt context.callStack.length context.curCall :=
  ⟨[], context.callStack, rfl, rfl⟩

/-- There is only one frame at a depth. -/
theorem TxExecContext.FrameAt.unique
    {depth : Nat} {left right : CallFrame S} {context : TxExecContext S}
    (found : context.FrameAt depth left) (again : context.FrameAt depth right) :
    left = right := by
  obtain ⟨above, below, split, length⟩ := found
  obtain ⟨newer, older, parts, size⟩ := again
  have same := List.append_inj' (split.symm.trans parts) (by simp [length, size])
  exact (List.cons.inj same.2).1

section Law

variable [WorldState S] [Keccak256]

/-- A call comes back in the iteration that starts in `before`: the frame at a depth is
its caller, and gets what the call has kept for its end and its result. -/
inductive ComesBack (before : TxExecContext S) :
    Nat → CallFrame S → CallArgs S → Result → Prop
  /-- The frame of the call ends. -/
  | ended {ending : TxExecContext S} {data : Bytes} {err : Result}
      {caller : CallFrame S} {below : List (CallFrame S)} {args : CallArgs S} :
      Ends before ending data err → ending.callStack = caller :: below →
      ending.curCall.callType = .call args →
      ComesBack before below.length caller args err
  /-- The call has been settled without a frame. -/
  | settled {inst : Inst} {args : CallArgs S} {data : Bytes} {gas : Gas} {err : Result}
      {working : TxExecContext S} :
      Fetches before inst → effect inst before = .ok (.settle (.call args) data gas err)
        working →
      ComesBack before working.callStack.length working.curCall args err

/-- A call that comes back to the frame at a depth, and writes what it returns, writes it
to memory that the frame has. -/
def ReturnsFit (depth : Nat) (before : TxExecContext S) : Prop :=
  ∀ caller args err, ComesBack before depth caller args err →
    err = .ok () ∨ err = .error .reverted →
    args.retOff.toNat + args.retLen.toNat ≤ caller.memory.space.length

/-- A frame that has been pushed last has not executed yet. -/
inductive Begins : TxExecContext S → Prop
  | transaction {tx : Transaction S} {start : TxExecContext S} :
      tx.Enters start → start.status = .running → Begins start
  | call {calling start : TxExecContext S} : Opens calling start → Begins start

/-- A run from the push of a frame on, as long as the frame is there, whose iterations
start in contexts with a property.  The number is what the instructions of the frame have
charged for its memory. -/
inductive MemoryRun (allowed : TxExecContext S → Prop) (start : TxExecContext S) :
    TxExecContext S → Nat → Prop
  | start : MemoryRun allowed start start 0
  /-- The frame executes an instruction. -/
  | own {before after : TxExecContext S} {charged : Nat} {inst : Inst} :
      MemoryRun allowed start before charged → allowed before →
      before.callStack.length = start.callStack.length → Fetches before inst →
      Step before after → start.callStack.length ≤ after.callStack.length →
      MemoryRun allowed start after (charged + memoryCharge inst before)
  /-- A frame above it does. -/
  | nested {before after : TxExecContext S} {charged : Nat} :
      MemoryRun allowed start before charged → allowed before →
      start.callStack.length < before.callStack.length →
      Step before after → start.callStack.length ≤ after.callStack.length →
      MemoryRun allowed start after charged

/-! ### Ends of calls -/

namespace Exec

variable {before after : TxExecContext S}

omit [WorldState S] [Keccak256] in
/-- What a call that fits returns does not change the size of the memory. -/
theorem callReturn_memory
    {args : CallArgs S} {data : Bytes} {gas left : Gas} {ret : Result}
    (priced : before.frameMemory.Priced)
    (fits : ret = .ok () ∨ ret = .error .reverted →
      args.retOff.toNat + args.retLen.toNat ≤ before.frameMemory.space.length)
    (run : callReturn args data gas ret before = .ok left after) :
    after.frameMemory.Priced ∧ after.frameMemory.words = before.frameMemory.words := by
  have written {after : TxExecContext S} (inside : args.retOff.toNat + args.retLen.toNat ≤
        before.frameMemory.space.length)
      (run : (onCall (CallFrame.onMemory (Memory.set args.retOff args.retLen data)) >>=
        fun _ => pure gas : Exec S Gas) before = .ok left after) :
      after.frameMemory.Priced ∧
        after.frameMemory.words = before.frameMemory.words := by
    obtain ⟨fee, middle, sets, returns⟩ := bind_ok.mp run
    obtain ⟨-, rfl⟩ := Outcome.ok.inj returns
    obtain ⟨memory, set, rfl⟩ := onMemory_ok sets
    exact Memory.set_ok priced inside set
  cases ret with
  | ok _ => exact written (fits (.inl rfl)) run
  | error err =>
      by_cases reverts : err = .reverted
      · subst reverts
        exact written (fits (.inr rfl)) run
      · have nothing : callReturn args data gas (.error err) = (pure 0 : Exec S Gas) := by
          cases err <;> first | rfl | contradiction
        rw [nothing] at run
        obtain ⟨-, rfl⟩ := Outcome.ok.inj run
        exact ⟨priced, rfl⟩

omit [Keccak256] in
/-- The end of a call that fits does not change the size of the memory. -/
theorem callEnd_memory
    {args : CallArgs S} {data : Bytes} {gas : Gas} {ret : Result}
    (priced : before.frameMemory.Priced)
    (fits : ret = .ok () ∨ ret = .error .reverted →
      args.retOff.toNat + args.retLen.toNat ≤ before.frameMemory.space.length)
    (run : callEnd args data gas ret before = .ok () after) :
    after.frameMemory.Priced ∧ after.frameMemory.words = before.frameMemory.words := by
  obtain ⟨left, written, stack, writes, -, rfl⟩ := callEnd_ok run
  have same : frameMemory
      { before with state := returnedState args.snapshot ret before.state } =
        before.frameMemory := rfl
  rw [← same] at priced fits ⊢
  have returned := callReturn_memory priced fits writes
  exact returned

omit [Keccak256] in
/-- The end of a creation does not touch the memory. -/
theorem createEnd_memory
    {args : CreateArgs S} {data : Bytes} {gas : Gas} {ret : Result}
    (run : createEnd args data gas ret before = .ok () after) :
    after.frameMemory = before.frameMemory := by
  have saves : Moves (Saves frameGas frameMemory)
      (createPostProcessing args.contractAddr data ret : Exec S Unit) :=
    moves_createPostProcessing args.contractAddr data ret
  obtain ⟨outcome, final, stack, processes, -, rfl⟩ := createEnd_ok run
  have kept : Saves frameGas frameMemory _ final := Moves.ok processes
  exact kept.1

omit [WorldState S] [Keccak256] in
@[simp] theorem advanced_frameMemory (inst : Inst) (context : TxExecContext S) :
    (advanced inst context).frameMemory = context.frameMemory := by
  unfold frameMemory advanced
  split <;> rfl

end Exec

/-! ### Iterations -/

variable {before after : TxExecContext S} {depth : Nat}

/-- An instruction of the frame charges what it grows. -/
theorem Step.own_memory
    {inst : Inst} (step : Step before after) (fetches : Fetches before inst)
    (deep : before.callStack.length ≤ after.callStack.length)
    (priced : before.frameMemory.Priced)
    (fits : ReturnsFit before.callStack.length before) :
    ∃ frame, after.FrameAt before.callStack.length frame ∧ frame.memory.Priced ∧
      Memory.price before.frameMemory.words + memoryCharge inst before =
        Memory.price frame.memory.words := by
  obtain ⟨found, foundFetches, continues | enters | settled | ended⟩ := step.cases
  all_goals obtain rfl := Option.some.inj (fetches.symm.trans foundFetches)
  · obtain ⟨working, effected, rfl⟩ := continues
    have works : before.Works working := Moves.ok effected
    obtain ⟨grown, paid, -⟩ := effect_memory priced effected
    have executing := (advanced inst working).frameAt_executing
    have stack : (advanced inst working).callStack = before.callStack := works.callStack
    rw [stack] at executing
    refine ⟨_, executing, ?_⟩
    change (advanced inst working).frameMemory.Priced ∧
      _ = Memory.price (advanced inst working).frameMemory.words
    rw [advanced_frameMemory]
    exact ⟨grown, paid⟩
  · obtain ⟨code, input, value, callee, caller, callType, gas, readOnly, working,
      effected, pushed⟩ := enters
    have works : before.Works working := Moves.ok effected
    obtain ⟨grown, paid, -⟩ := effect_memory priced effected
    rw [callPush_ok pushed]
    refine ⟨working.curCall, ⟨[_], working.callStack, rfl, ?_⟩, grown, paid⟩
    rw [works.callStack]
  · obtain ⟨args, ret, gas, err, working, moved, effected, ended, rfl⟩ := settled
    have works : before.Works working := Moves.ok effected
    have settles : working.Settles moved := Moves.ok ended
    obtain ⟨grown, paid, -⟩ := effect_memory priced effected
    have back : ComesBack before before.callStack.length working.curCall args err := by
      rw [← works.callStack]
      exact .settled fetches effected
    obtain ⟨last, words⟩ := callEnd_memory grown (fits _ _ _ back) ended
    refine ⟨_, ⟨[], _, rfl, ?_⟩, last, ?_⟩
    · rw [settles.callStack, works.callStack]
    · change _ = Memory.price moved.frameMemory.words
      rw [words]
      exact paid
  · obtain ⟨ending, data, err, settled, ends, finished, rfl⟩ := ended
    have shorter := ends.shorter finished
    exact absurd deep (Nat.not_le_of_lt shorter)

/-- While a frame above it executes, the frame waits, or a call comes back to it. -/
theorem Step.nested_memory
    {frame : CallFrame S} (step : Step before after) (nonzero : 0 < depth)
    (found : before.FrameAt depth frame) (above : depth < before.callStack.length)
    (deep : depth ≤ after.callStack.length) (priced : frame.memory.Priced)
    (fits : ReturnsFit depth before) :
    ∃ resumed, after.FrameAt depth resumed ∧ resumed.memory.Priced ∧
      resumed.memory.words = frame.memory.words := by
  obtain ⟨upper, below, split, length⟩ := found
  have lengths := congrArg List.length split
  simp only [frames, List.length_cons, List.length_append] at lengths
  obtain rfl | ⟨higher, child, rfl⟩ := List.eq_nil_or_concat upper
  · rw [List.length_nil] at lengths
    omega
  have rooted : Rooted child (frame :: below) before :=
    ⟨higher, child, by simpa using split, CallFrame.Same.refl _⟩
  by_cases waits : depth < after.callStack.length
  · obtain ⟨newer, current, parts, -⟩ :=
      step.rooted rooted (by rw [List.length_cons, length]; exact waits)
    exact ⟨frame, ⟨newer ++ [current], below, by simpa using parts, length⟩, priced, rfl⟩
  obtain ⟨inst, ending, data, err, settled, fetches, ends, finished, rfl⟩ :=
    step.ends_of_shorter (by omega)
  obtain ⟨next, callStack, suspended, leaves⟩ := finishCall_ok finished
  have popped : callStack.length = depth := by
    have stack : (advanced inst settled).callStack = callStack := leaves.callStack
    rw [stack] at deep waits
    omega
  have height : ending.callStack.length = (frame :: below).length := by
    rw [suspended, List.length_cons, List.length_cons, popped, length]
  obtain ⟨same, -⟩ := (ends.rooted rooted (Nat.le_of_eq height.symm)).on_top height
  rw [finishCall_cons data err same] at finished
  have executing := (advanced inst settled).frameAt_executing
  have stack : (advanced inst settled).callStack.length = depth :=
    (congrArg List.length leaves.callStack).trans popped
  rw [stack] at executing
  refine ⟨_, executing, ?_⟩
  change (advanced inst settled).frameMemory.Priced ∧
    (advanced inst settled).frameMemory.words = frame.memory.words
  rw [advanced_frameMemory]
  cases callType : ending.curCall.callType with
  | tx args =>
      rw [callType] at finished
      have below_ne : below ≠ [] := List.ne_nil_of_length_pos (by omega)
      have panics : txEnd args data ending.curCall.unusedGas err
          { ending with callStack := below, curCall := frame } =
          .panic .callStackNotEmpty := txEnd_suspended args data _ err below_ne
      exact absurd (finished.symm.trans panics) (by simp)
  | create args =>
      rw [callType] at finished
      have kept := createEnd_memory finished
      rw [kept]
      exact ⟨priced, rfl⟩
  | call args =>
      rw [callType] at finished
      have back : ComesBack before depth frame args err := by
        rw [← length]
        exact .ended ends same callType
      have waiting : ({ ending with callStack := below, curCall := frame } :
          TxExecContext S).frameMemory.Priced := priced
      exact callEnd_memory waiting (fits _ _ _ back) finished

/-! ### The law -/

/-- A frame that has not executed has no memory, and there are frames below it. -/
theorem Begins.empty
    {start : TxExecContext S} (begins : Begins start) :
    0 < start.callStack.length ∧ start.curCall.memory = Memory.new := by
  cases begins with
  | transaction enters running =>
      obtain ⟨_, _, _, _, _, _, _, _, _, -, -, -, -, rfl⟩ := enters.pushed running
      exact ⟨Nat.succ_pos _, rfl⟩
  | call opens =>
      obtain ⟨_, _, _, _, _, _, _, _, _, working, -, -, -, -, rfl⟩ := opens.cases
      exact ⟨Nat.succ_pos _, rfl⟩

/-- In a run in which every call that comes back to a frame fits, the frame has been
charged the price of its memory. -/
theorem MemoryRun.paid
    {start context : TxExecContext S} {charged : Nat} (begins : Begins start)
    (run : MemoryRun (ReturnsFit start.callStack.length) start context charged) :
    ∃ frame, context.FrameAt start.callStack.length frame ∧ frame.memory.Priced ∧
      charged = Memory.price frame.memory.words := by
  obtain ⟨nonzero, empty⟩ := begins.empty
  induction run with
  | start =>
      refine ⟨_, start.frameAt_executing, ?_⟩
      rw [empty]
      exact ⟨Memory.priced_new, rfl⟩
  | @own before after charged inst _ fits executing fetches step deep
      inductionHypothesis =>
      obtain ⟨frame, found, priced, paid⟩ := inductionHypothesis
      rw [← executing] at found fits deep ⊢
      obtain rfl := found.unique before.frameAt_executing
      obtain ⟨next, there, grown, more⟩ := step.own_memory fetches deep priced fits
      exact ⟨next, there, grown, by rw [paid, ← more, frameMemory]⟩
  | @nested before after charged _ fits above step deep inductionHypothesis =>
      obtain ⟨frame, found, priced, paid⟩ := inductionHypothesis
      obtain ⟨next, there, same, words⟩ :=
        step.nested_memory nonzero found above deep priced fits
      exact ⟨next, there, same, by rw [paid, words]⟩

/-- In every run of a frame whose iterations start where every call that comes back to
the frame fits, the frame has been charged `3 * w + w * w / 512` for its `w` words of
memory, and what its next instruction charges is taken from its gas. -/
theorem memory_is_paid_for
    {start context : TxExecContext S} {charged : Nat} (begins : Begins start)
    (run : MemoryRun (ReturnsFit start.callStack.length) start context charged) :
    (∃ frame, context.FrameAt start.callStack.length frame ∧
      frame.memory.space.length = 32 * frame.memory.words ∧
      charged = 3 * frame.memory.words +
        frame.memory.words * frame.memory.words / 512) ∧
    (context.callStack.length = start.callStack.length →
      ∀ inst tail working, effect inst context = .ok tail working →
        working.frameGas + memoryCharge inst context ≤ context.frameGas) := by
  obtain ⟨frame, found, priced, paid⟩ := MemoryRun.paid begins run
  refine ⟨⟨frame, found, priced.whole, paid⟩, fun executing inst tail working run => ?_⟩
  rw [← executing] at found
  obtain rfl := found.unique context.frameAt_executing
  exact (effect_memory priced run).2.2

/-! ### Runs by evaluation -/

/-- The instruction that is fetched goes on to the next one. -/
def goesOn (context : TxExecContext S) : Bool :=
  (decode context.curCall.code.asBytes context.curCall.pc).any fun inst =>
    match effect inst context with
    | .ok .next _ => true
    | _ => false

/-- No call comes back from an instruction that goes on to the next one. -/
theorem returnsFit_of_goesOn {context : TxExecContext S} (found : goesOn context = true) :
    ReturnsFit depth context := by
  obtain ⟨inst, fetches, continues⟩ := (Option.any_eq_true _ _).mp found
  split at continues
  case h_2 => contradiction
  rename_i working run
  have dispatched : dispatch inst context = .ok () working := by
    rw [dispatch_eq]
    exact bind_ok.mpr ⟨_, _, run, rfl⟩
  have goes {ending : TxExecContext S} {data : Bytes} {err : Result}
      (ends : Ends context ending data err) : False := by
    induction ends with
    | instruction again finishes =>
        obtain rfl := Option.some.inj (fetches.symm.trans again)
        exact absurd (run.symm.trans finishes) (by simp)
    | raised again raises =>
        obtain rfl := Option.some.inj (fetches.symm.trans again)
        exact absurd (dispatched.symm.trans raises) (by simp)
    | unwound _ _ inductionHypothesis => exact inductionHypothesis
  intro caller args err back
  cases back with
  | ended ends _ _ => exact (goes ends).elim
  | settled again settles =>
      obtain rfl := Option.some.inj (fetches.symm.trans again)
      exact absurd (run.symm.trans settles) (by simp)

/-- The context after a number of instructions of one frame that start in contexts that
pass a check, and what they charge. -/
def ledger (check : TxExecContext S → Bool) (start : TxExecContext S) :
    Nat → Option (TxExecContext S × Nat)
  | 0 => some (start, 0)
  | count + 1 =>
      (ledger check start count).bind fun entry =>
        (stepOnce entry.1).bind fun after =>
          (decode entry.1.curCall.code.asBytes entry.1.curCall.pc).bind fun inst =>
            if check entry.1 ∧ entry.1.callStack.length = start.callStack.length ∧
                start.callStack.length ≤ after.callStack.length then
              some (after, entry.2 + memoryCharge inst entry.1)
            else
              none

/-- A run of a frame by evaluation. -/
theorem MemoryRun.of_ledger
    {allowed : TxExecContext S → Prop} {check : TxExecContext S → Bool}
    (permits : ∀ context, check context = true → allowed context)
    {start context : TxExecContext S} {charged count : Nat}
    (run : ledger check start count = some (context, charged)) :
    MemoryRun allowed start context charged := by
  induction count generalizing context charged with
  | zero =>
      obtain ⟨rfl, rfl⟩ := Prod.mk.inj (Option.some.inj run)
      exact .start
  | succ count inductionHypothesis =>
      obtain ⟨⟨before, earlier⟩, runs, rest⟩ := Option.bind_eq_some_iff.mp run
      obtain ⟨after, step, rest⟩ := Option.bind_eq_some_iff.mp rest
      obtain ⟨inst, fetches, rest⟩ := Option.bind_eq_some_iff.mp rest
      split at rest
      · rename_i passes
        obtain ⟨rfl, rfl⟩ := Prod.mk.inj (Option.some.inj rest)
        exact (inductionHypothesis runs).own (permits _ passes.1) passes.2.1 fetches
          (stepOnce_eq_some.mp step) passes.2.2
      · contradiction

/-- The frame of a transaction runs by evaluation. -/
theorem Transaction.exists_ledger
    (allowed : Nat → TxExecContext S → Prop) (check : TxExecContext S → Bool)
    (permits : ∀ depth context, check context = true → allowed depth context)
    (tx : Transaction S) (count charged : Nat) (property : TxExecContext S → Prop)
    [DecidablePred property]
    (found : tx.entry.any (fun start : TxExecContext S =>
      decide (start.status.leftGas = none) &&
        (ledger check start count).any fun entry : TxExecContext S × Nat =>
          decide (entry.2 = charged ∧
            entry.1.callStack.length = start.callStack.length ∧ property entry.1)) =
      true) :
    ∃ start context, tx.Enters start ∧ start.status = .running ∧
      MemoryRun (allowed start.callStack.length) start context charged ∧
      context.callStack.length = start.callStack.length ∧ property context := by
  obtain ⟨start, entry, found⟩ := (Option.any_eq_true _ _).mp found
  obtain ⟨running, found⟩ := (Bool.and_eq_true _ _).mp found
  obtain ⟨⟨context, paid⟩, run, holds⟩ := (Option.any_eq_true _ _).mp found
  obtain ⟨rfl, level, holds⟩ := of_decide_eq_true holds
  exact ⟨start, context, entry_eq_some.mp entry,
    TxExecStatus.leftGas_eq_none.mp (of_decide_eq_true running),
    MemoryRun.of_ledger (permits _) run, level, holds⟩

end Law

namespace Sample

/-- Reads a word of the memory, and calls the account `0xbb`, which does not exist, with
the second word as its return region. -/
def unpaidCode : Bytes :=
  [0x60, 0x00, 0x51, 0x50, 0x60, 0x20, 0x60, 0x20, 0x60, 0x00, 0x60, 0x00, 0x60, 0x00,
    0x60, 0xbb, 0x61, 0xff, 0xff, 0xf1, 0x00]

/-- The digests that the transaction of this module looks at. -/
@[reducible] def unpaidKeccak : Keccak256 := keccak
  [([], 0xc5d2460186f7233c927e7db2dcc703c0e500b653ca82273b7bfad8045d85a470),
    (unpaidCode,
      0xe6d652f1516851ab92b80bbe74526c69d54bf98c55b3707d6e6fff81933a7a45)]

/-- A transaction to an account that calls with a return region. -/
def unpaidTx : Transaction DummyStateStore :=
  letI := unpaidKeccak
  { callingTx [] with
    state := DummyStateStore.new.setCode 0xaa unpaidCode }

end Sample

/-- A word that is read is paid for. -/
theorem read_word_is_paid_for :
    letI := Sample.unpaidKeccak
    ∃ start context : TxExecContext DummyStateStore,
      Begins start ∧
        MemoryRun (ReturnsFit start.callStack.length) start context 3 ∧
        ∃ frame, context.FrameAt start.callStack.length frame ∧
          frame.memory.space.length = 32 * frame.memory.words ∧
          3 = 3 * frame.memory.words + frame.memory.words * frame.memory.words / 512 := by
  let := Sample.unpaidKeccak
  obtain ⟨start, context, enters, running, run, -⟩ :=
    Sample.unpaidTx.exists_ledger ReturnsFit goesOn (fun _ _ => returnsFit_of_goesOn) 2 3
      (fun _ => True) (by decide +kernel)
  have begins : Begins start := .transaction enters running
  exact ⟨start, context, begins, run, (memory_is_paid_for begins run).1⟩

/-- The word that a call returns to is not. -/
theorem return_region_is_not_paid_for :
    letI := Sample.unpaidKeccak
    ∃ start context : TxExecContext DummyStateStore,
      Begins start ∧ MemoryRun (fun _ => True) start context 3 ∧
        context.curCall.memory.words = 2 ∧
        ¬∃ frame, context.FrameAt start.callStack.length frame ∧
          3 = 3 * frame.memory.words +
            frame.memory.words * frame.memory.words / 512 := by
  let := Sample.unpaidKeccak
  obtain ⟨start, context, enters, running, run, level, words⟩ :=
    Sample.unpaidTx.exists_ledger (fun _ _ => True) (fun _ => true)
      (fun _ _ _ => trivial) 11 3 (fun context => context.curCall.memory.words = 2)
      (by decide +kernel)
  refine ⟨start, context, .transaction enters running, run, words, ?_⟩
  rintro ⟨frame, found, paid⟩
  rw [← level] at found
  obtain rfl := found.unique context.frameAt_executing
  rw [words] at paid
  contradiction

end Qevm
