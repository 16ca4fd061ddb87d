import Qevm.Core.Accessed
import Qevm.Core.Creations
import Qevm.Laws.Openers
import Qevm.Laws.Refund

/-!
# The executing contract has been accessed

From Berlin on, the address that a frame executes at is in the access list before the
frame is pushed: the transaction puts its recipient there, a call the account that it
pays for, and a creation the new contract.
-/

set_option synthInstance.maxSize 100000

namespace Qevm

open WorldState Exec TxExecContext Procedure

/-- The panics other than that of a contract that has not been accessed. -/
def OffAccess (reason : Panic) : Prop := reason ≠ .addrNotInAccessList

section Law

variable {S : Type}

/-- The executing frame and the suspended ones, without the dummy frame below them. -/
def TxExecContext.realFrames (context : TxExecContext S) : List (CallFrame S) :=
  context.frames.dropLast

/-- Every frame executes at an address that has been accessed. -/
def TxExecContext.Warm (context : TxExecContext S) : Prop :=
  ∀ frame ∈ context.realFrames, context.accessList.containsAddr frame.callee

instance (context : TxExecContext S) : Decidable context.Warm :=
  List.decidableBAll _ _

/-! ### The addresses of the frames -/

/-- The addresses that the frames execute at. -/
def TxExecContext.callees (context : TxExecContext S) : List Addr :=
  context.realFrames.map CallFrame.callee

/-- No frame executes at an address that was not executed at before. -/
def TxExecContext.KeepsCallees (before after : TxExecContext S) : Prop :=
  after.callees ⊆ before.callees

instance : IsPreorder (TxExecContext S) KeepsCallees where
  refl _ := List.Subset.refl _
  trans _ _ _ left right := List.Subset.trans right left

variable {before after : TxExecContext S}

theorem TxExecContext.warm_iff :
    before.Warm ↔ ∀ addr ∈ before.callees, before.accessList.containsAddr addr := by
  unfold Warm callees
  rw [List.forall_mem_map]

/-- Work of the executing frame changes no address. -/
theorem TxExecContext.Remains.keepsCallees (remains : before.Remains after) :
    before.KeepsCallees after := by
  unfold KeepsCallees callees realFrames frames
  rw [List.map_dropLast, List.map_dropLast, List.map_cons, List.map_cons,
    remains.callStack, remains.curCall.callee]
  exact List.Subset.refl _

/-- A frame that gives way takes nothing from the others. -/
theorem TxExecContext.keepsCallees_popped
    {next : CallFrame S} {callStack : List (CallFrame S)}
    (suspended : before.callStack = next :: callStack) :
    before.KeepsCallees { before with callStack := callStack, curCall := next } := by
  unfold KeepsCallees callees realFrames frames
  rw [suspended, List.dropLast_cons_of_ne_nil (List.cons_ne_nil _ _), List.map_cons]
  exact List.subset_cons_self _ _

/-- A pushed frame adds its address. -/
theorem TxExecContext.callees_pushed (top : CallFrame S) :
    callees { before with
      callStack := before.curCall :: before.callStack, curCall := top } =
        top.callee :: before.callees := by
  unfold callees realFrames frames
  rw [List.dropLast_cons_of_ne_nil (List.cons_ne_nil _ _), List.map_cons]

/-- What has been accessed is kept, and so are the addresses of the frames. -/
theorem TxExecContext.Warm.mono
    (warm : before.Warm) (keeps : before.KeepsCallees after)
    (accesses : before.Accesses after) : after.Warm := by
  rw [warm_iff] at warm ⊢
  intro addr member
  exact accesses.addr addr (warm addr (keeps member))

/-- A frame is pushed at an address that has been accessed. -/
theorem TxExecContext.Warm.pushed
    {top : CallFrame S} (warm : before.Warm)
    (accessed : before.accessList.containsAddr top.callee) :
    Warm { before with
      callStack := before.curCall :: before.callStack, curCall := top } := by
  rw [warm_iff] at warm ⊢
  rw [callees_pushed]
  intro addr member
  obtain rfl | below := List.mem_cons.mp member
  · exact accessed
  · exact warm addr below

/-- The executing frame is one of them as long as there is a frame below it. -/
theorem TxExecContext.Warm.executing
    (warm : before.Warm) (suspended : before.callStack ≠ []) :
    before.accessList.containsAddr before.curCall.callee := by
  apply warm
  unfold realFrames frames
  rw [List.dropLast_cons_of_ne_nil suspended]
  exact List.mem_cons_self

/-- Nothing is asked for when only the dummy frame is there. -/
theorem TxExecContext.warm_of_alone (alone : before.callStack = []) : before.Warm := by
  unfold Warm realFrames frames
  simp [alone]

/-! ### Opening a frame -/

namespace Exec

/-- A payment for an account makes it accessed. -/
theorem useGasCallCommonBerlin_accessed
    {addr : Addr} (forked : before.curCall.fork ≥ .berlin)
    (run : useGasCallCommonBerlin addr before = .ok () after) :
    after.accessList.containsAddr addr := by
  unfold useGasCallCommonBerlin at run
  replace run := reads_bind_ok.mp run
  obtain ⟨-, run⟩ | ⟨known, rfl⟩ := when_ok.mp run
  · obtain ⟨_, added, adds, pays⟩ := bind_ok.mp run
    obtain ⟨-, rfl⟩ := Outcome.ok.inj adds
    have paid : TxExecContext.Accesses _ after := Moves.ok pays
    exact paid.addr addr AccessList.containsAddr_addAddr
  · have listed := fun missing => known ⟨forked, missing⟩
    simpa using listed

variable [WorldState S] [Keccak256]

/-- `CALL` has paid for the account that it calls. -/
theorem chargeCall_accessed
    {request : CallRequest} (forked : before.curCall.fork ≥ .berlin)
    (run : chargeCall before = .ok request after) :
    after.accessList.containsAddr request.addr := by
  unfold chargeCall useGasCall at run
  obtain ⟨args, first, operands, run⟩ := bind_ok.mp run
  replace run := reads_bind_ok.mp run
  obtain ⟨_, permitted, checks, run⟩ := bind_ok.mp run
  obtain ⟨-, same⟩ := raiseIf_ok.mp checks
  obtain ⟨quota, last, pays, returns⟩ := bind_ok.mp run
  obtain ⟨rfl, rfl⟩ := Outcome.ok.inj returns
  obtain ⟨_, second, surcharge, rest⟩ := bind_ok.mp pays
  have quiet : before.Quiet first := Moves.ok operands
  have kept : permitted.curCall.fork = before.curCall.fork := by
    rw [same]
    exact quiet.curCall.toSame.fork
  have accessed := useGasCallCommonBerlin_accessed (kept ▸ forked) surcharge
  have paid : second.Accesses last := Moves.ok rest
  exact paid.addr _ accessed

omit [WorldState S] [Keccak256] in
/-- So has an instruction without value. -/
theorem addressedCharge_accessed
    {base : Fork → Gas} {request : CallRequest}
    (forked : before.curCall.fork ≥ .berlin)
    (run : CallKind.addressedCharge base before = .ok request after) :
    after.accessList.containsAddr request.addr := by
  unfold CallKind.addressedCharge at run
  replace run := reads_bind_ok.mp run
  obtain ⟨_, paid, gasRun, run⟩ := bind_ok.mp run
  obtain ⟨⟨gas, addr⟩, first, firstRun, run⟩ := bind_ok.mp run
  obtain ⟨⟨inOff, inLen⟩, second, secondRun, run⟩ := bind_ok.mp run
  obtain ⟨⟨retOff, retLen⟩, third, thirdRun, run⟩ := bind_ok.mp run
  obtain ⟨⟨input, memGas⟩, fourth, sliceRun, run⟩ := bind_ok.mp run
  obtain ⟨_, accessed, surcharge, run⟩ := bind_ok.mp run
  obtain ⟨quota, last, quotas, returns⟩ := bind_ok.mp run
  obtain ⟨rfl, rfl⟩ := Outcome.ok.inj returns
  have quiet : before.Quiet fourth :=
    trans_of Quiet (trans_of Quiet (trans_of Quiet (trans_of Quiet (Moves.ok gasRun)
      (Moves.ok firstRun)) (Moves.ok secondRun)) (Moves.ok thirdRun)) (Moves.ok sliceRun)
  have listed := useGasCallCommonBerlin_accessed
    (quiet.curCall.toSame.fork ▸ forked) surcharge
  have kept : accessed.Accesses last := Moves.ok quotas
  exact kept.addr _ listed

/-- A new contract has been accessed once it is set up. -/
theorem openCreate_accessed
    {contractAddr caller : Addr} {value : Wei} (forked : before.curCall.fork ≥ .berlin)
    (run : openCreate contractAddr caller value before = .ok () after) :
    after.accessList.containsAddr contractAddr := by
  unfold openCreate at run
  replace run := reads_bind_ok.mp run
  obtain ⟨-, run⟩ := raiseIf_bind_ok.mp run
  replace run := reads_bind_ok.mp run
  replace run := reads_bind_ok.mp run
  obtain ⟨next, -, run⟩ := okOr_bind_ok.mp run
  replace run := reads_bind_ok.mp run
  obtain ⟨_, written, writes, run⟩ := bind_ok.mp run
  have writing : before.KeepsFrame written := Moves.ok writes
  replace run := reads_bind_ok.mp run
  obtain ⟨_, added, adds, run⟩ := bind_ok.mp run
  have rest : added.Accesses after := Moves.ok run
  obtain ⟨-, adds⟩ | ⟨early, -⟩ := when_ok.mp adds
  · obtain ⟨-, rfl⟩ := Outcome.ok.inj adds
    exact rest.addr _ AccessList.containsAddr_addAddr
  · refine absurd ?_ early
    rw [writing.1]
    exact forked

omit [Keccak256] in
/-- A message call runs code at the address of its callee. -/
theorem callEffect_callee
    {callee caller found sender : Addr} {input data : Bytes} {gas quota : Gas}
    {value wei : Wei} {args callType : CallType S} {code : Code} {frozen : Bool}
    (run : callEffect callee caller input gas value args before =
      .ok (.enter code data wei found sender callType quota frozen) after) :
    found = callee := by
  unfold callEffect at run
  obtain ⟨_, admitted, -, run⟩ := bind_ok.mp run
  replace run := reads_bind_ok.mp run
  split at run
  · have settled := (Outcome.ok.inj run).1
    contradiction
  · obtain ⟨_, funded, -, run⟩ := bind_ok.mp run
    cases registered : admitted.env.precompiledContracts.lookup callee with
    | some contract =>
        rw [registered] at run
        have settled := (Outcome.ok.inj run).1
        contradiction
    | none =>
        rw [registered] at run
        obtain ⟨there, _, -, chooses⟩ := bind_ok.mp run
        have entered := (Outcome.ok.inj chooses).1
        split at entered
        · obtain ⟨⟩ := entered
          rfl
        · contradiction

variable
  {code : Code} {input : Bytes} {value : Wei} {callee caller : Addr}
  {callType : CallType S} {gas : Gas} {readOnly : Bool}

instance accesses_start (kind : CallKind) (request : CallRequest) :
    Moves Accesses (kind.start request : Exec S (Tail S)) := by
  cases kind <;> simp only [CallKind.start] <;> infer_instance

/-- An instruction that calls an account pushes a frame at an address that has been
accessed. -/
theorem called_accessed
    (kind : CallKind) (forked : before.curCall.fork ≥ .berlin)
    (executing : before.accessList.containsAddr before.curCall.callee)
    (run : effect kind.inst before =
      .ok (.enter code input value callee caller callType gas readOnly) after) :
    after.accessList.containsAddr callee := by
  have grows : before.Accesses after := Moves.ok run
  cases kind with
  | callCode | delegateCall =>
      rw [delegation_callee rfl run]
      exact grows.addr _ executing
  | call =>
      rw [CallKind.effect_eq] at run
      obtain ⟨request, paid, pays, starts⟩ := bind_ok.mp run
      have accessed := chargeCall_accessed forked pays
      have started : paid.Accesses after := Moves.ok starts
      replace starts := reads_bind_ok.mp starts
      obtain ⟨saved, snapped, -, enters⟩ := bind_ok.mp starts
      obtain rfl : callee = request.addr := callEffect_callee enters
      exact started.addr _ accessed
  | staticCall =>
      rw [CallKind.effect_eq] at run
      obtain ⟨request, paid, pays, starts⟩ := bind_ok.mp run
      unfold CallKind.charge at pays
      rw [CallKind.chargeStaticCall_eq] at pays
      obtain ⟨_, permitted, forks, pays⟩ := bind_ok.mp pays
      obtain ⟨_, shallow, depth, pays⟩ := bind_ok.mp pays
      obtain ⟨-, allowed⟩ := requireFork_ok forks
      obtain ⟨-, same⟩ := requireDepth_ok depth
      rw [same, allowed] at pays
      have accessed := addressedCharge_accessed forked pays
      have started : paid.Accesses after := Moves.ok starts
      have enters := reads_bind_ok.mp starts
      rw [enterEffect_callee enters]
      exact started.addr _ accessed

/-- A creation pushes a frame at the address of the new contract. -/
theorem created_accessed
    {contractAddr creator : Addr} {init : Bytes} {endowment : Wei} {quota : Gas}
    {args : CallType S} (forked : before.curCall.fork ≥ .berlin)
    (run : createEffect contractAddr creator init endowment quota args before =
      .ok (.enter code input value callee caller callType gas readOnly) after) :
    after.accessList.containsAddr callee := by
  obtain ⟨enters, opens⟩ := createEffect_ok run
  obtain ⟨⟩ := enters
  exact openCreate_accessed forked opens

/-- An instruction pushes a frame at an address that has been accessed. -/
theorem entered_accessed
    {inst : Inst} (forked : before.curCall.fork ≥ .berlin)
    (executing : before.accessList.containsAddr before.curCall.callee)
    (run : effect inst before =
      .ok (.enter code input value callee caller callType gas readOnly) after) :
    after.accessList.containsAddr callee := by
  have opens : inst.opcode.entersCall = true := by
    have nested := (nested_effect inst).holds run
    cases callType with
    | tx => exact nested.elim
    | call | create => exact nested
  obtain ⟨opcode, data, pos⟩ := inst
  cases opcode <;> simp only [Opcode.entersCall, Bool.false_eq_true] at opens
  case call => exact called_accessed .call forked executing run
  case callCode => exact called_accessed .callCode forked executing run
  case delegateCall => exact called_accessed .delegateCall forked executing run
  case staticCall => exact called_accessed .staticCall forked executing run
  case create | create2 =>
    obtain ⟨request, contract, paid, saved, snapped, charges, snaps, enters, opened⟩ :=
      creation_ok rfl run
    obtain ⟨-, -, -, rfl, -⟩ := Tail.enter.inj enters
    have snap : paid.KeepsFrame snapped := Moves.ok snaps
    refine openCreate_accessed ?_ opened
    rw [snap.1, charges.quiet.curCall.toSame.fork]
    exact forked

/-! ### The end of a frame -/

/-- Ending frames changes no address of those below. -/
theorem Ends.keepsCallees
    {data : Bytes} {err : Result} (ends : Ends before after data err) :
    before.KeepsCallees after := by
  induction ends with
  | instruction fetches runs =>
      have works : before.Works _ := Moves.ok runs
      exact works.remains.keepsCallees
  | raised fetches raises =>
      obtain remains | ⟨working, data, result, runs, raises⟩ :=
        dispatch_error_remains raises
      · exact remains.keepsCallees
      · have works : before.Works working := Moves.ok runs
        obtain ⟨next, callStack, suspended, leaves⟩ := finishCall_error raises
        exact trans_of KeepsCallees (trans_of KeepsCallees works.remains.keepsCallees
          (keepsCallees_popped suspended)) leaves.remains.keepsCallees
  | unwound ends raises inductionHypothesis =>
      obtain ⟨next, callStack, suspended, leaves⟩ := finishCall_error raises
      exact trans_of KeepsCallees (trans_of KeepsCallees inductionHypothesis
        (keepsCallees_popped suspended)) leaves.remains.keepsCallees

end Exec

variable [WorldState S] [Keccak256] {fork : Fork}

/-- An iteration keeps every frame at an address that has been accessed. -/
theorem Step.warm
    (step : Step before after) (forked : fork ≥ .berlin) (onFork : before.OnFork fork)
    (suspended : before.callStack ≠ []) (warm : before.Warm) : after.Warm := by
  have accesses : before.Accesses after := Moves.ok step.2
  obtain ⟨inst, -, continues | enters | settled | ended⟩ := step.cases
  · obtain ⟨working, effected, rfl⟩ := continues
    have works : before.Works working := Moves.ok effected
    exact warm.mono (works.remains.trans (remains_advanced working inst)).keepsCallees
      accesses
  · obtain ⟨_, _, _, _, _, _, _, _, working, effected, run⟩ := enters
    have works : before.Works working := Moves.ok effected
    have grows : before.Accesses working := Moves.ok effected
    have accessed := entered_accessed (onFork.curCall ▸ forked)
      (warm.executing suspended) effected
    rw [callPush_ok run]
    exact (warm.mono works.remains.keepsCallees grows).pushed accessed
  · obtain ⟨args, ret, gas, err, working, moved, effected, ends, rfl⟩ := settled
    have works : before.Works working := Moves.ok effected
    have settles : working.Settles moved := Moves.ok ends
    exact warm.mono (works.remains.trans (settles.toLeaves.remains.trans
      (remains_pc moved _))).keepsCallees accesses
  · obtain ⟨ending, data, err, settled, ends, finished, rfl⟩ := ended
    obtain ⟨next, callStack, stack, leaves⟩ := finishCall_ok finished
    have kept := trans_of KeepsCallees ends.keepsCallees (keepsCallees_popped stack)
    exact warm.mono (trans_of KeepsCallees kept
      (leaves.remains.trans (remains_advanced settled inst)).keepsCallees) accesses

/-! ### The start of a transaction -/

variable {tx : Transaction S} {context : TxExecContext S}

/-- The top-level frame of a transaction is pushed at an address that has been
accessed. -/
theorem Transaction.started_accessed
    {initial working : TxExecContext S} {code : Code} {input : Bytes} {value : Wei}
    {callee caller : Addr} {callType : CallType S} {gas : Gas} {readOnly : Bool}
    (built : tx.context = some initial) (forked : tx.env.block.fork ≥ .berlin)
    (run : tx.startEffect initial =
      .ok (.enter code input value callee caller callType gas readOnly) working) :
    working.accessList.containsAddr callee := by
  obtain ⟨list, lists, rfl⟩ := Option.map_eq_some_iff.mp built
  unfold startEffect at run
  cases recipient : tx.recipient with
  | some addr =>
      rw [recipient] at run lists
      dsimp only at run
      have moves : Moves Accesses (tx.startCallEffect addr : Exec S (Tail S)) := by
        unfold startCallEffect
        infer_instance
      have grows := moves.ok run
      replace run := reads_bind_ok.mp run
      obtain ⟨_, written, -, run⟩ := bind_ok.mp run
      obtain ⟨saved, snapped, -, enters⟩ := bind_ok.mp run
      obtain rfl : callee = addr := callEffect_callee enters
      exact grows.addr _ (AccessList.containsAddr_new lists)
  | none =>
      rw [recipient] at run
      obtain ⟨saved, snapped, snaps, run⟩ := bind_ok.mp run
      replace run := reads_bind_ok.mp run
      have snap : TxExecContext.KeepsFrame _ snapped := Moves.ok snaps
      refine created_accessed ?_ run
      rw [snap.1]
      exact forked

theorem Transaction.Enters.warm
    {entered : TxExecContext S} (enters : tx.Enters entered)
    (forked : tx.env.block.fork ≥ .berlin) : entered.Warm := by
  obtain ⟨initial, built, pushed | settled | failed⟩ := enters.cases
  · obtain ⟨_, _, _, _, _, _, _, working, effected, rfl⟩ := pushed
    have stays : initial.Stays working := Moves.ok effected
    have accessed := started_accessed built forked effected
    obtain ⟨list, rfl⟩ := context_eq_some built
    exact (warm_of_alone stays.callStack).pushed accessed
  · obtain ⟨args, ret, err, working, effected, run⟩ := settled
    have leaves : working.Leaves entered := Moves.ok run
    exact warm_of_alone (leaves.callStack.trans (txEnd_ok run).1)
  · obtain ⟨err, working, raised, rfl⟩ := failed
    have stays : initial.Stays working := Moves.error raised
    obtain ⟨list, rfl⟩ := context_eq_some built
    have alone : working.callStack = [] := stays.callStack
    exact warm_of_alone alone

/-- In a block from Berlin on, every frame of a transaction executes at an address that
has been accessed. -/
theorem Transaction.Reaches.warm
    (reaches : tx.Reaches context) (forked : tx.env.block.fork ≥ .berlin) :
    context.Warm := by
  obtain ⟨entered, enters, run⟩ := reaches
  induction run with
  | refl => exact enters.warm forked
  | tail earlier step inductionHypothesis =>
      have before : tx.Reaches _ := ⟨entered, enters, earlier⟩
      exact step.warm forked (before.onFork step.1)
        (before.inTransaction step).suspended inductionHypothesis

/-! ### The look at the access list -/

instance : PermitsBare OffAccess := by
  constructor <;> simp [OffAccess]

instance : Permits OffAccess .refundBelowZero := ⟨by simp [OffAccess]⟩
instance : Permits OffAccess .transferFailed := ⟨by simp [OffAccess]⟩
instance : Permits OffAccess .callStackEmpty := ⟨by simp [OffAccess]⟩
instance : Permits OffAccess .callStackNotEmpty := ⟨by simp [OffAccess]⟩
instance : Permits OffAccess .unreachable := ⟨by simp [OffAccess]⟩

namespace Exec

omit [WorldState S] [Keccak256] in
/-- A look at the slot of an accessed address finds the address. -/
theorem accessed_ok
    {addr : Addr} {slot : Hash} {addrExist slotExist : Bool}
    (listed : before.accessList.containsAddr addr)
    (run : accessed addr slot before = .ok (addrExist, slotExist) after) :
    addrExist = true := by
  unfold accessed at run
  replace run := reads_bind_ok.mp run
  have found := (unwrap_ok.mp run).1
  exact AccessList.contains_of_containsAddr listed found

omit [WorldState S] [Keccak256] in
/-- The rates of a write to a slot of an accessed address can be looked up. -/
theorem storeRates_offAccess
    {call : CallFrame S} {key : Hash} {reason : Panic}
    (listed : before.accessList.containsAddr call.callee)
    (run : storeRates call key before = .panic reason) : OffAccess reason := by
  unfold storeRates at run
  obtain run | ⟨_, checked, checks, run⟩ := bind_panic.mp run
  · exact Panics.holds run
  obtain ⟨-, same⟩ := raiseIf_ok.mp checks
  rw [same] at run
  split at run
  · obtain run | ⟨⟨addrExist, slotExist⟩, looked, looks, run⟩ := bind_panic.mp run
    · exact Panics.holds run
    obtain rfl := accessed_ok listed looks
    obtain run | ⟨_, added, -, run⟩ := bind_panic.mp run
    · obtain ⟨-, run⟩ := when_panic.mp run
      obtain run | ⟨_, _, -, run⟩ := bind_panic.mp run
      · exact Panics.holds run
      · contradiction
    · contradiction
  · contradiction

omit [Keccak256] in
/-- `SSTORE` does not panic when the executing contract has been accessed. -/
theorem sstore_offAccess
    {reason : Panic} (forked : before.curCall.fork ≥ .berlin)
    (listed : before.accessList.containsAddr before.curCall.callee)
    (run : sstore before = .panic reason) : OffAccess reason := by
  have metered (rates : StoreRates) (callee : Addr) (key : Hash) (val : U256) :
      Panics OffAccess (meterStore rates callee key val : Exec S Unit) := by
    unfold meterStore adjustRefund
    infer_instance
  unfold sstore at run
  obtain run | ⟨call, _, reads, run⟩ := bind_panic.mp run
  · contradiction
  obtain ⟨rfl, rfl⟩ := Outcome.ok.inj reads
  obtain run | ⟨_, checked, checks, run⟩ := bind_panic.mp run
  · exact Panics.holds run
  obtain ⟨-, rfl⟩ := raiseIf_ok.mp checks
  obtain run | ⟨⟨key, val⟩, _, operands, run⟩ := bind_panic.mp run
  · exact panics_consume2.holds run
  obtain ⟨rfl, rfl, rfl⟩ := consume2_ok operands
  obtain run | ⟨_, paid, -, run⟩ := bind_panic.mp run
  · have since : (popped checked 2).curCall.fork ≥ .istanbul :=
      le_trans (by decide) forked
    rw [sstoreGas_eq since] at run
    obtain run | ⟨rates, middle, -, run⟩ := bind_panic.mp run
    · have still : (popped checked 2).accessList.containsAddr checked.curCall.callee :=
        listed
      exact storeRates_offAccess still run
    · exact (metered _ _ _ _).holds run
  · exact Panics.holds run

end Exec

/-- Only `SSTORE` looks for the address of the executing contract. -/
theorem iterate_offAccess
    {reason : Panic} (run : iterate before = .panic reason) :
    OffAccess reason ∨
      ∃ inst, Fetches before inst ∧ inst.opcode = .sstore ∧
        sstore before = .panic reason :=
  iterate_panic_cases inferInstance inferInstance run

/-- In a transaction of a block from Berlin on, the address of every frame but the dummy
one is in the access list, so that the metering of `SSTORE` finds it there. -/
theorem executing_contract_is_warm
    (forked : tx.env.block.fork ≥ .berlin) (reaches : tx.Reaches context) :
    context.Warm ∧
      (context.status = .running → iterate context ≠ .panic .addrNotInAccessList) := by
  have warm := reaches.warm forked
  refine ⟨warm, fun running run => ?_⟩
  obtain off | ⟨inst, -, -, stores⟩ := iterate_offAccess run
  · exact off rfl
  · have fork := (reaches.onFork running).curCall
    have suspended := (reaches.inside running).suspended
    exact sstore_offAccess (fork ▸ forked) (warm.executing suspended) stores rfl

end Law
namespace Sample

/-- The transaction to an account that runs code that writes, in a block of Berlin. -/
def berlinTx : Transaction DummyStateStore :=
  { delegatingTx with env := env .berlin }

end Sample

/-- Delegated code comes to its `SSTORE` in a frame of the account `0xaa`, which has been
accessed. -/
theorem delegated_store_is_warm :
    letI := Sample.delegatingKeccak
    ∃ context : TxExecContext DummyStateStore,
      Sample.berlinTx.Reaches context ∧ Fetches context ⟨.sstore, none, 0⟩ ∧
        context.realFrames.map CallFrame.callee = [0xaa, 0xaa] ∧ context.Warm ∧
        iterate context ≠ .panic .addrNotInAccessList := by
  let := Sample.delegatingKeccak
  obtain ⟨context, reached, running, stores, frames⟩ :=
    Sample.berlinTx.exists_reached 9
      (fun context => context.status.leftGas = none ∧
        Fetches context ⟨.sstore, none, 0⟩ ∧
        context.realFrames.map CallFrame.callee = [0xaa, 0xaa])
      (by decide +kernel)
  have law := executing_contract_is_warm (by decide) reached
  exact ⟨context, reached, stores, frames, law.1,
    law.2 (TxExecStatus.leftGas_eq_none.mp running)⟩

end Qevm
