import Qevm.Core.Creations
import Qevm.Laws.Calls
import Qevm.Laws.ControlStack

/-!
# Calls that cannot start

The limit of the call depth, a value that the caller does not have, an address that is
taken and a nonce that cannot be counted up are found out by the instruction that opens
the frame.  The error that it returns is the error of the executing frame.
-/

namespace Qevm

open Params WorldState Exec TxExecContext Procedure

section Law

variable {S : Type} [WorldState S]

/-- The world state in which a frame is opened: a snapshot has been taken of the one
before the instruction, which may change how it is represented. -/
def TxExecContext.opening (context : TxExecContext S) : S :=
  (WorldState.snapshot context.state).1

/-- The initialization code among the operands of `CREATE` and `CREATE2`. -/
def initCode (context : TxExecContext S) : Bytes :=
  match Memory.getSlice (operand context 1) (operand context 2)
      context.curCall.memory with
  | .ok (slice, _) _ => slice
  | _ => []

/-- No contract can be created at an address. -/
def Taken [Keccak256] (state : S) (contract : Addr) : Prop :=
  getNonce state contract ≠ 0 ∨
    (getCode state contract).getHash ≠ 0 ∧
      (getCode state contract).getHash ≠ Hash.emptyBytesHash

variable [Keccak256]

/-- The address of the contract that `CREATE` or `CREATE2` creates. -/
def newContract (opcode : Opcode) (context : TxExecContext S) : Addr :=
  if opcode = .create2 then
    createAddr2 context.curCall.callee (U256.toBigEndian (operand context 3))
      (U256.toBigEndian (Hash.hash (initCode context)))
  else
    createAddr context.curCall.callee (getNonce context.state context.curCall.callee)

/-- A call or a creation cannot start. -/
inductive CannotStart (context : TxExecContext S) : Opcode → Prop
  /-- The limit of the call depth is reached. -/
  | depth {opcode : Opcode} :
      opcode.entersCall = true → context.callStack.length = maxCallDepth →
      CannotStart context opcode
  /-- The balance of the caller is below the value. -/
  | value (kind : CallKind) :
      getBalance context.opening context.curCall.callee < kind.value context →
      CannotStart context kind.inst.opcode
  /-- The balance of the creator is below the value. -/
  | endowment {opcode : Opcode} :
      opcode.isCreation = true →
      getBalance context.opening context.curCall.callee < operand context 0 →
      CannotStart context opcode
  /-- The address of the new contract is taken. -/
  | collision {opcode : Opcode} :
      opcode.isCreation = true → Taken context.opening (newContract opcode context) →
      CannotStart context opcode
  /-- The nonce of the creator would overflow. -/
  | nonce {opcode : Opcode} :
      opcode.isCreation = true →
      checkedAddU64 (getNonce context.opening context.curCall.callee) 1 = none →
      CannotStart context opcode

/-- The payment of an instruction that opens a frame. -/
def payment : Opcode → Exec S Unit
  | .create => chargeCreate >>= fun _ => pure ()
  | .create2 => chargeCreate2 >>= fun _ => pure ()
  | .call => chargeCall >>= fun _ => pure ()
  | .callCode => chargeCallCode >>= fun _ => pure ()
  | .delegateCall => chargeDelegateCall >>= fun _ => pure ()
  | .staticCall => chargeStaticCall >>= fun _ => pure ()
  | _ => pure ()

/-- There are enough gas and operands for an instruction that opens a frame, and some gas
is kept: the payment succeeds where the call depth does not stop it. -/
def Affords (context : TxExecContext S) (opcode : Opcode) (kept : Nat) : Prop :=
  ∃ paid, payment opcode { context with callStack := [] } = .ok () paid ∧
    paid.frameGas = kept

/-- A call has failed and its caller goes on: the executing frame is not popped, it finds
zero on its stack, has the gas that it did not forward, and continues with the next
instruction. -/
structure FailsTheCall (kept : Nat) (before after : TxExecContext S) : Prop where
  callStack : after.callStack = before.callStack
  answer : after.curCall.stack.peek = some 0
  gas : kept ≤ after.frameGas
  next : after.curCall.pc = before.curCall.pc + 1

/-! ### The checks of an opener -/

namespace Exec

variable {before after : TxExecContext S}

omit [Keccak256] in
/-- A message call that starts is paid for by its caller. -/
theorem callEffect_funded
    {callee caller : Addr} {input : Bytes} {gas : Gas} {value : Wei}
    {args : CallType S} {tail : Tail S}
    (run : callEffect callee caller input gas value args before = .ok tail after) :
    ¬getBalance before.state caller < value := by
  unfold callEffect admitCall at run
  obtain ⟨_, admitted, admits, -⟩ := bind_ok.mp run
  have checked := reads_bind_ok.mp admits
  obtain ⟨-, rest⟩ := raiseIf_bind_ok.mp checked
  replace rest := reads_bind_ok.mp rest
  obtain ⟨_, _, funds, -⟩ := bind_ok.mp rest
  exact (raiseIf_ok.mp funds).1

/-- A contract that is set up is paid for, counted, and has a free address. -/
theorem openCreate_permitted
    {contract caller : Addr} {value : Wei}
    (run : openCreate contract caller value before = .ok () after) :
    ¬getBalance before.state caller < value ∧
      checkedAddU64 (getNonce before.state caller) 1 ≠ none ∧
      ¬Taken before.state contract := by
  unfold openCreate at run
  replace run := reads_bind_ok.mp run
  obtain ⟨rich, run⟩ := raiseIf_bind_ok.mp run
  replace run := reads_bind_ok.mp run
  replace run := reads_bind_ok.mp run
  obtain ⟨next, counting, run⟩ := okOr_bind_ok.mp run
  replace run := reads_bind_ok.mp run
  obtain ⟨_, written, -, run⟩ := bind_ok.mp run
  obtain ⟨fork, forked, -, run⟩ := bind_ok.mp run
  obtain ⟨_, added, -, run⟩ := bind_ok.mp run
  obtain ⟨_, fresh, freshChecks, run⟩ := bind_ok.mp run
  obtain ⟨_, free, freeChecks, -⟩ := bind_ok.mp run
  have blankNonce := (raiseIf_ok.mp freshChecks).1
  have blankCode := (raiseIf_ok.mp freeChecks).1
  refine ⟨rich, ?_, ?_⟩
  · rw [counting]
    exact Option.some_ne_none next
  · rintro (used | coded)
    · exact blankNonce used
    · exact blankCode coded

omit [WorldState S] [Keccak256] in
/-- What `CREATE` asks for. -/
theorem chargeCreate_request
    {request : CreateRequest} (run : chargeCreate before = .ok request after) :
    request.value = operand before 0 ∧ request.code = initCode before := by
  unfold chargeCreate at run
  obtain ⟨_, paid, gasRun, run⟩ := bind_ok.mp run
  replace run := reads_bind_ok.mp run
  obtain ⟨-, run⟩ := raiseIf_bind_ok.mp run
  obtain ⟨-, run⟩ := requireDepth_bind_ok run
  obtain ⟨⟨value, off, len⟩, operands, pops, run⟩ := bind_ok.mp run
  obtain ⟨⟨code, memGas⟩, sliced, sliceRun, run⟩ := bind_ok.mp run
  obtain ⟨_, charged, -, run⟩ := bind_ok.mp run
  replace run := reads_bind_ok.mp run
  obtain ⟨_, quota, -, returns⟩ := bind_ok.mp run
  obtain ⟨rfl, -⟩ := Outcome.ok.inj returns
  obtain ⟨rfl, rfl, rfl, rfl⟩ := consume3_ok pops
  obtain ⟨-, -, -, stack, memory⟩ := frameGas_useGas gasRun
  obtain ⟨grown, slices, -⟩ := onMemory_ok sliceRun
  have sameSlice : Memory.getSlice (operand before 1) (operand before 2)
      before.curCall.memory = .ok (code, memGas) grown := by
    simpa only [popped, operand, stack, memory] using slices
  refine ⟨by simp only [operand, stack], ?_⟩
  simp only [initCode, sameSlice]

omit [WorldState S] [Keccak256] in
/-- What `CREATE2` asks for. -/
theorem chargeCreate2_request
    {request : CreateRequest} (run : chargeCreate2 before = .ok request after) :
    request.value = operand before 0 ∧ request.code = initCode before ∧
      request.salt = operand before 3 := by
  unfold chargeCreate2 at run
  obtain ⟨-, run⟩ := requireFork_bind_ok run
  replace run := reads_bind_ok.mp run
  obtain ⟨-, run⟩ := raiseIf_bind_ok.mp run
  obtain ⟨-, run⟩ := requireDepth_bind_ok run
  obtain ⟨_, paid, gasRun, run⟩ := bind_ok.mp run
  obtain ⟨⟨value, off, len, salt⟩, operands, pops, run⟩ := bind_ok.mp run
  obtain ⟨⟨code, memGas⟩, sliced, sliceRun, run⟩ := bind_ok.mp run
  obtain ⟨_, charged, -, run⟩ := bind_ok.mp run
  obtain ⟨words, priced, -, run⟩ := bind_ok.mp run
  obtain ⟨_, hashed, -, run⟩ := bind_ok.mp run
  replace run := reads_bind_ok.mp run
  obtain ⟨_, quota, -, returns⟩ := bind_ok.mp run
  obtain ⟨rfl, -⟩ := Outcome.ok.inj returns
  obtain ⟨rfl, rfl, rfl, rfl, rfl⟩ := consume4_ok pops
  obtain ⟨-, -, -, stack, memory⟩ := frameGas_useGas gasRun
  obtain ⟨grown, slices, -⟩ := onMemory_ok sliceRun
  have sameSlice : Memory.getSlice (operand before 1) (operand before 2)
      before.curCall.memory = .ok (code, memGas) grown := by
    simpa only [popped, operand, stack, memory] using slices
  refine ⟨by simp only [operand, stack], ?_, by simp only [operand, stack]⟩
  simp only [initCode, sameSlice]

/-- The address of the new contract and the value that is handed over to it. -/
theorem ChargesCreation.operands
    {opcode : Opcode} {request : CreateRequest} {contract : Addr}
    (charges : ChargesCreation before opcode request contract after) :
    contract = newContract opcode before ∧ request.value = operand before 0 := by
  cases charges with
  | create charges => exact ⟨rfl, (chargeCreate_request charges).1⟩
  | create2 charges =>
      obtain ⟨value, code, salt⟩ := chargeCreate2_request charges
      rw [code, salt]
      exact ⟨rfl, value⟩

/-- A creation sets its contract up in the state that a snapshot has been taken of. -/
theorem creation_opening
    {inst : Inst} {tail : Tail S} (creation : inst.opcode.isCreation = true)
    (run : effect inst before = .ok tail after) :
    ∃ start, start.state = before.opening ∧
      openCreate (newContract inst.opcode before) before.curCall.callee
        (operand before 0) start = .ok () after := by
  obtain ⟨request, contract, paid, saved, snapped, charges, snaps, -, opens⟩ :=
    creation_ok creation run
  have state : snapped.state = before.opening := by
    obtain ⟨-, rfl⟩ := Outcome.ok.inj snaps
    exact congrArg (fun state => (WorldState.snapshot state).1) charges.quiet.state
  obtain ⟨rfl, value⟩ := charges.operands
  rw [value] at opens
  exact ⟨snapped, state, opens⟩

/-- A call that hands a value over can pay it. -/
theorem called_funded
    (kind : CallKind) {tail : Tail S} (run : effect kind.inst before = .ok tail after) :
    ¬getBalance before.opening before.curCall.callee < kind.value before := by
  rw [kind.effect_eq] at run
  obtain ⟨request, paid, pays, starts⟩ := bind_ok.mp run
  have charges := kind.charged pays
  have callee : paid.curCall.callee = before.curCall.callee :=
    charges.quiet.curCall.toSame.callee
  have state : (WorldState.snapshot paid.state).1 = before.opening := by
    rw [opening, charges.quiet.state]
  cases kind with
  | delegateCall =>
      have none : CallKind.delegateCall.value before = 0 := if_neg id
      rw [none]
      exact Nat.not_lt_zero _
  | staticCall =>
      have none : CallKind.staticCall.value before = 0 := if_neg id
      rw [none]
      exact Nat.not_lt_zero _
  | call =>
      replace starts := reads_bind_ok.mp starts
      obtain ⟨saved, snapped, snaps, enters⟩ := bind_ok.mp starts
      obtain ⟨rfl, rfl⟩ := Outcome.ok.inj snaps
      have funded : ¬getBalance (WorldState.snapshot paid.state).1 paid.curCall.callee <
          request.value := callEffect_funded enters
      rw [callee, state, charges.value trivial] at funded
      exact funded
  | callCode =>
      replace starts := reads_bind_ok.mp starts
      obtain ⟨saved, snapped, snaps, starts⟩ := bind_ok.mp starts
      obtain ⟨rfl, rfl⟩ := Outcome.ok.inj snaps
      replace starts := reads_bind_ok.mp starts
      obtain ⟨_, _, checks, -⟩ := bind_ok.mp starts
      have funded : ¬getBalance (WorldState.snapshot paid.state).1 paid.curCall.callee <
          request.value := (raiseIf_ok.mp checks).1
      rw [callee, state, charges.value trivial] at funded
      exact funded

end Exec

variable {before after : TxExecContext S} {inst : Inst}

/-- An instruction that opens a frame does not succeed when it cannot start. -/
theorem CannotStart.not_ok
    {tail : Tail S} (cannot : CannotStart before inst.opcode)
    (run : effect inst before = .ok tail after) : False := by
  generalize same : inst.opcode = opcode at cannot
  cases cannot with
  | depth enters full =>
      subst same
      exact opener_depth enters run full
  | value kind poor =>
      obtain ⟨_, data, pos⟩ := inst
      subst same
      have called : effect kind.inst before = .ok tail after := by
        cases kind <;> exact run
      exact called_funded kind called poor
  | endowment creation poor =>
      subst same
      obtain ⟨start, state, opens⟩ := creation_opening creation run
      rw [← state] at poor
      exact (openCreate_permitted opens).1 poor
  | collision creation taken =>
      subst same
      obtain ⟨start, state, opens⟩ := creation_opening creation run
      rw [← state] at taken
      exact (openCreate_permitted opens).2.2 taken
  | nonce creation last =>
      subst same
      obtain ⟨start, state, opens⟩ := creation_opening creation run
      rw [← state] at last
      exact (openCreate_permitted opens).2.1 last

/-- The frame of a call that cannot start is popped. -/
theorem CannotStart.shorter
    (cannot : CannotStart before inst.opcode) (fetches : Fetches before inst)
    (step : Step before after) : after.callStack.length < before.callStack.length := by
  obtain ⟨found, foundFetches, continues | enters | settled | ended⟩ := step.cases
  all_goals obtain rfl := Option.some.inj (fetches.symm.trans foundFetches)
  · obtain ⟨_, effected, -⟩ := continues
    exact (cannot.not_ok effected).elim
  · obtain ⟨_, _, _, _, _, _, _, _, _, effected, -⟩ := enters
    exact (cannot.not_ok effected).elim
  · obtain ⟨_, _, _, _, _, _, effected, -⟩ := settled
    exact (cannot.not_ok effected).elim
  · obtain ⟨ending, data, err, settled, ends, finished, rfl⟩ := ended
    have shorter := ends.shorter finished
    exact shorter

/-- A call that cannot start never fails alone: its frame fails with it. -/
theorem unstartable_call_fails_its_frame
    (fetches : Fetches before inst) (cannot : CannotStart before inst.opcode)
    (kept : Nat) :
    ¬∃ after, Step before after ∧ FailsTheCall kept before after := by
  rintro ⟨after, step, fails⟩
  have shorter := cannot.shorter fetches step
  rw [fails.callStack] at shorter
  exact Nat.lt_irrefl _ shorter

end Law
namespace Sample

/-- Pays one to the account `0xbb`. -/
def poorCode : Bytes :=
  [0x60, 0x00, 0x60, 0x00, 0x60, 0x00, 0x60, 0x00, 0x60, 0x01, 0x60, 0xbb, 0x61, 0xff,
    0xff, 0xf1, 0x00]

/-- The digests that the transaction of this module looks at. -/
@[reducible] def poorKeccak : Keccak256 := keccak
  [([], 0xc5d2460186f7233c927e7db2dcc703c0e500b653ca82273b7bfad8045d85a470),
    (poorCode,
      0x582142ab71d4357301d3d9c755ce686c98e3dfef5525e92fc25ab037daff825e)]

/-- A transaction to an account that pays without having anything. -/
def poorTx : Transaction DummyStateStore :=
  letI := poorKeccak
  { callingTx [] with
    state := DummyStateStore.new.setCode 0xaa poorCode }

end Sample

/-- A frame comes to call with a value that it does not have. -/
theorem caller_gets_poor :
    letI := Sample.poorKeccak
    ∃ before : TxExecContext DummyStateStore,
      Sample.poorTx.Reaches before ∧ Fetches before CallKind.call.inst ∧
        (∃ kept, Affords before .call kept) ∧ CannotStart before .call ∧
        ∃ after, Step before after := by
  let := Sample.poorKeccak
  obtain ⟨before, after, reached, step, fetches, poor, pays⟩ :=
    Sample.poorTx.exists_step 7
      (fun context _ => Fetches context CallKind.call.inst ∧
        getBalance context.opening context.curCall.callee < operand context 2 ∧
        (payment .call { context with callStack := [] }).returned.isSome = true)
      (by decide +kernel)
  have cannot : CannotStart before .call := .value .call poor
  obtain ⟨⟨_, paid⟩, returns⟩ := Option.isSome_iff_exists.mp pays
  exact ⟨before, reached, fetches, ⟨_, paid, Outcome.returned_eq_some.mp returns, rfl⟩,
    cannot, after, step⟩

/-- A frame that calls with a value that it does not have fails. -/
theorem poor_caller_fails :
    letI := Sample.poorKeccak
    ∃ before : TxExecContext DummyStateStore,
      Sample.poorTx.Reaches before ∧ Fetches before CallKind.call.inst ∧
        (∃ kept, Affords before .call kept) ∧ CannotStart before .call ∧
        ∀ kept, ¬∃ after, Step before after ∧ FailsTheCall kept before after := by
  let := Sample.poorKeccak
  obtain ⟨before, reached, fetches, affords, cannot, -⟩ := caller_gets_poor
  exact ⟨before, reached, fetches, affords, cannot,
    unstartable_call_fails_its_frame fetches cannot⟩

/-- A call that its caller cannot pay for does not leave the caller running. -/
theorem poor_caller_is_popped :
    letI := Sample.poorKeccak
    ∃ (before after : TxExecContext DummyStateStore) (kept : Nat),
      Sample.poorTx.Reaches before ∧ Fetches before CallKind.call.inst ∧
        Affords before .call kept ∧ CannotStart before .call ∧ Step before after ∧
        ¬FailsTheCall kept before after := by
  let := Sample.poorKeccak
  obtain ⟨before, reached, fetches, ⟨kept, affords⟩, cannot, after, step⟩ :=
    caller_gets_poor
  have shorter := cannot.shorter fetches step
  refine ⟨before, after, kept, reached, fetches, affords, cannot, step, fun fails => ?_⟩
  rw [fails.callStack] at shorter
  exact Nat.lt_irrefl _ shorter

end Qevm
