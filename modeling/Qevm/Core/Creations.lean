import Qevm.Core.Snapshots
import Qevm.Logic.Accounting

/-!
# Contract creations

When the code that an initialization returns is accepted, what the processing of
a created contract does, and what `CREATE` and `CREATE2` keep for it.
-/

set_option synthInstance.maxSize 100000

namespace Qevm

open Params WorldState TxExecContext

variable {S : Type}

/-- The code that a contract creation returns passes the limit of its size, the
check of its first byte and the charge for storing it, which the resumed frame
pays. -/
def CallFrame.Accepts (frame : CallFrame S) (data : Bytes) : Prop :=
  ¬(frame.fork ≥ .spuriousDragon ∧ data.length > maxCodeSize) ∧
    ¬(frame.fork ≥ .london ∧ data.length ≥ 1 ∧ data[0]? = some 0xef) ∧
    (checkedMulU64 (UInt64.ofNat data.length) gasCreateData).any
      (fun gas => decide (gas ≤ frame.unusedGas)) = true

instance (frame : CallFrame S) (data : Bytes) :
    Decidable (frame.Accepts data) :=
  inferInstanceAs (Decidable (¬_ ∧ ¬_ ∧ _ = true))

/-- The number of words on the stack of the executing frame. -/
def TxExecContext.height (context : TxExecContext S) : Nat := context.curCall.stack.top

namespace Exec

variable [WorldState S]

/-- What the processing of a created contract may change. -/
structure Processed
    (contract : Addr) (data : Bytes) (ret : Result)
    (before : TxExecContext S) (outcome : Result)
    (after : TxExecContext S) : Prop where
  /-- Only code that is rejected makes it fail. -/
  isErr : outcome.isErr = true ↔ ret = .ok () ∧ ¬before.curCall.Accepts data
  /-- It never fails as if the code had reverted. -/
  reverts : outcome ≠ .error .reverted
  /-- Accepted code is installed. -/
  state : after.state =
    if ret = .ok () ∧ before.curCall.Accepts data then
      setCode before.state contract data
    else
      before.state
  stack : after.curCall.stack = before.curCall.stack
  settles : before.Settles after

omit [WorldState S] in
/-- Gas that is there can be charged. -/
theorem useGas_enough {gas : Gas} {before : TxExecContext S}
    (enough : gas ≤ before.curCall.unusedGas) :
    useGas gas before =
      .ok () { before with
        curCall := { before.curCall with
          unusedGas := before.curCall.unusedGas - gas } } := by
  simp [useGas, onCall, Procedure.zoom, CallFrame.useGas,
    UInt64.not_lt.mpr enough]

/-- A failed creation has nothing to process but the gas of its creator, which is
lost unless the initialization has reverted. -/
theorem createPostProcessing_failed
    (contract : Addr) (data : Bytes) (err : ExecError)
    (before : TxExecContext S) :
    createPostProcessing contract data (.error err) before =
      .ok () { before with
        curCall := { before.curCall with
          unusedGas := if err = .reverted then before.curCall.unusedGas else 0 } } := by
  have burns := useGas_enough (UInt64.le_refl before.curCall.unusedGas)
  rw [UInt64.sub_self] at burns
  cases err with
  | reverted => rfl
  | _ => exact burns

/-- Accepted code is paid for and installed. -/
theorem createPostProcessing_accepted
    (contract : Addr) {data : Bytes} {before : TxExecContext S}
    (accepts : before.curCall.Accepts data) :
    ∃ gas, checkedMulU64 (UInt64.ofNat data.length) gasCreateData = some gas ∧
      gas ≤ before.curCall.unusedGas ∧
      createPostProcessing contract data (.ok ()) before =
        .ok () { before with
          curCall := { before.curCall with
            unusedGas := before.curCall.unusedGas - gas }
          state := setCode before.state contract data
          dirty := before.dirty.insert contract } := by
  obtain ⟨small, legal, paid⟩ := accepts
  obtain ⟨gas, cost, enough⟩ := (Option.any_eq_true _ _).mp paid
  refine ⟨gas, cost, of_decide_eq_true enough, ?_⟩
  simp [createPostProcessing, call, bind, Procedure.bind, Procedure.reads,
    Procedure.raiseIf, small, legal, gasCheckedMul, cost, Procedure.okOr,
    Procedure.pure, Procedure.handle, useGas_enough (of_decide_eq_true enough),
    writeState, markDirty, Procedure.update]

/-- Rejected code changes nothing and is no revert. -/
theorem createPostProcessing_rejected
    (contract : Addr) {data : Bytes} {before : TxExecContext S}
    (rejects : ¬before.curCall.Accepts data) :
    ∃ err, err ≠ .reverted ∧
      createPostProcessing contract data (.ok ()) before = .error err before := by
  by_cases large : before.curCall.fork ≥ .spuriousDragon ∧ data.length > maxCodeSize
  · refine ⟨.maxCodeSizeExceeded, by decide, ?_⟩
    simp [createPostProcessing, call, bind, Procedure.bind, Procedure.reads,
      Procedure.raiseIf, large]
  by_cases illegal :
      before.curCall.fork ≥ .london ∧ data.length ≥ 1 ∧ data[0]? = some 0xef
  · refine ⟨.invalidCode, by decide, ?_⟩
    simp only [createPostProcessing, call, bind, Procedure.bind,
      Procedure.reads, Procedure.raiseIf, large, illegal, and_self, if_true,
      if_false]
  have unpaid : ¬(checkedMulU64 (UInt64.ofNat data.length) gasCreateData).any
      (fun gas => decide (gas ≤ before.curCall.unusedGas)) = true :=
    fun paid => rejects ⟨large, illegal, paid⟩
  cases cost : checkedMulU64 (UInt64.ofNat data.length) gasCreateData with
  | none =>
      refine ⟨.gasIntOverflow, by decide, ?_⟩
      simp only [createPostProcessing, call, bind, Procedure.bind,
        Procedure.reads, Procedure.raiseIf, large, illegal, if_false,
        gasCheckedMul, cost, Procedure.okOr, Procedure.raise]
  | some gas =>
      have short : before.curCall.unusedGas < gas := by
        rw [cost] at unpaid
        simpa using unpaid
      refine ⟨.codeStoreOutOfGas, by decide, ?_⟩
      simp only [createPostProcessing, call, bind, Procedure.bind,
        Procedure.reads, Procedure.raiseIf, large, illegal, if_false,
        gasCheckedMul, cost, Procedure.okOr, Procedure.pure,
        Procedure.handle, useGas, onCall, Procedure.zoom, CallFrame.useGas,
        short, if_true, Procedure.raise]

/-- The processing of a created contract always comes to an end. -/
theorem processed
    (contract : Addr) (data : Bytes) (ret : Result) (before : TxExecContext S) :
    ∃ outcome after,
      Procedure.attempt (createPostProcessing contract data ret) before =
        .ok outcome after ∧
      Processed contract data ret before outcome after := by
  cases ret with
  | error err =>
      have run := createPostProcessing_failed contract data err before
      have settles : before.Settles _ := Procedure.Moves.ok run
      refine ⟨.ok (), _, Procedure.attempt_ok run, ?_, ?_, ?_, rfl, settles⟩
      · simp [Result.isErr]
      · simp
      · simp
  | ok _ =>
      by_cases accepts : before.curCall.Accepts data
      · obtain ⟨gas, -, -, run⟩ :=
          createPostProcessing_accepted contract accepts
        have settles : before.Settles _ := Procedure.Moves.ok run
        refine ⟨.ok (), _, Procedure.attempt_ok run, ?_, ?_, ?_, rfl, settles⟩
        · simp [Result.isErr, accepts]
        · simp
        · simp [accepts]
      · obtain ⟨err, kind, run⟩ :=
          createPostProcessing_rejected contract accepts
        refine ⟨.error err, before, Procedure.attempt_error run, ?_, ?_, ?_, rfl,
          Settles.refl before⟩
        · simp [Result.isErr, accepts]
        · simpa using kind
        · simp [accepts]

/-- The world state after the end of a creation has been settled. -/
def createdState
    (args : CreateArgs S) (data : Bytes) (ret : Result)
    (creator : CallFrame S) (state : S) : S :=
  match ret with
  | .error _ => rollback state args.snapshot
  | .ok () =>
      if creator.Accepts data then setCode state args.contractAddr data
      else state

/-- The word that the creator finds on its stack: the address of the contract
unless its code has been rejected. -/
def createdWord
    (args : CreateArgs S) (data : Bytes) (ret : Result)
    (creator : CallFrame S) : U256 :=
  if ret = .ok () ∧ ¬creator.Accepts data then 0 else args.contractAddr.toU256

/-- The word that is pushed after the processing of a created contract. -/
theorem Processed.word
    {args : CreateArgs S} {data : Bytes} {ret outcome : Result}
    {before after : TxExecContext S}
    (done : Processed args.contractAddr data ret before outcome after) :
    (if outcome.isErr then 0 else args.contractAddr.toU256) =
      createdWord args data ret before.curCall := by
  unfold createdWord
  simp only [done.isErr]

/-- The end of a creation goes back, processes the contract, and leaves an answer. -/
theorem createEnd_ok
    {args : CreateArgs S} {data : Bytes} {gas : Gas} {ret : Result}
    {before after : TxExecContext S}
    (run : createEnd args data gas ret before = .ok () after) :
    ∃ (outcome : Result) (final : TxExecContext S) (stack : Stack),
      Procedure.attempt (createPostProcessing args.contractAddr data ret)
          { before with
            state :=
              if ret.isErr then rollback before.state args.snapshot else before.state } =
        .ok outcome final ∧
      stack.peek = some (if outcome.isErr then 0 else args.contractAddr.toU256) ∧
      after = { final with
        curCall := { final.curCall with
          unusedGas := final.curCall.unusedGas + gas
          stack := stack
          lastReturned := if outcome = .error .reverted then data else [] } } := by
  unfold createEnd at run
  obtain ⟨_, rolled, rolls, run⟩ := Procedure.bind_ok.mp run
  obtain ⟨outcome, final, processes, run⟩ := Procedure.bind_ok.mp run
  obtain ⟨_, credited, credits, run⟩ := Procedure.bind_ok.mp run
  obtain ⟨_, answered, pushes, returns⟩ := Procedure.bind_ok.mp run
  rw [rollBack_ok rolls] at processes
  obtain ⟨-, rfl⟩ := Outcome.ok.inj credits
  obtain ⟨stack, top, rfl⟩ := push_ok pushes
  obtain ⟨-, rfl⟩ := Outcome.ok.inj returns
  exact ⟨outcome, final, stack, processes, top, rfl⟩

/-- The end of a creation can be settled when its creator has room for a word on
its stack. -/
theorem createEnd_total
    (args : CreateArgs S) (data : Bytes) (gas : Gas) (ret : Result)
    (before : TxExecContext S)
    (room : before.curCall.stack.top < maxStackDepth) :
    ∃ after, createEnd args data gas ret before = .ok () after ∧
      after.curCall.stack.peek =
        some (createdWord args data ret before.curCall) ∧
      after.curCall.lastReturned = [] ∧
      after.state = createdState args data ret before.curCall before.state := by
  have rolls : ∃ rolled,
      Procedure.when ret.isErr (writeState (rollback · args.snapshot)) before =
        .ok () rolled ∧ rolled.curCall = before.curCall ∧
        rolled.state =
          if ret.isErr then rollback before.state args.snapshot
          else before.state := by
    cases ret with
    | error err => exact ⟨_, rfl, rfl, rfl⟩
    | ok _ => exact ⟨_, rfl, rfl, rfl⟩
  obtain ⟨rolled, rolling, frame, state⟩ := rolls
  obtain ⟨outcome, final, processing, done⟩ :=
    processed args.contractAddr data ret rolled
  have word := done.word
  rw [frame] at word
  have roomLeft : final.curCall.stack.top < maxStackDepth := by
    rw [done.stack, frame]
    exact room
  obtain ⟨stack, pushes⟩ :=
    Stack.push_room (createdWord args data ret before.curCall) roomLeft
  refine ⟨{ final with
    curCall := { final.curCall with
      unusedGas := final.curCall.unusedGas + gas
      stack := stack
      lastReturned := [] } }, ?_, (Stack.push_ok pushes).1, rfl, ?_⟩
  · simp only [createEnd, bind, Procedure.bind, rolling, processing, push,
      onCall, Procedure.zoom, Procedure.update, CallFrame.onStack, word,
      pushes, done.reverts, if_false]
  · change final.state = _
    rw [done.state, frame, state]
    cases ret with
    | error err => rfl
    | ok _ => simp [createdState, Result.isErr]

/-! ### What a creation keeps for its end -/

/-- The stack of the executing frame is kept. -/
def KeepsStack (before after : TxExecContext S) : Prop :=
  after.curCall.stack = before.curCall.stack

omit [WorldState S] in
instance : IsPreorder (TxExecContext S) KeepsStack where
  refl _ := rfl
  trans _ _ _ left right := Eq.trans right left

omit [WorldState S] in
instance keepsStack_onMemory {α : Type} (part : Run Memory α) :
    Procedure.Moves KeepsStack (onCall (CallFrame.onMemory part) : Exec S α) := by
  refine ⟨fun before => ?_⟩
  rw [onCall, Procedure.wp_zoom, CallFrame.onMemory, Procedure.wp_zoom]
  exact Procedure.wp_of_run (fun _ _ _ => rfl) (fun _ _ _ => rfl)

omit [WorldState S] in
instance keepsStack_getSlice (off len : U256) :
    Procedure.Moves KeepsStack (getSlice off len : Exec S _) :=
  keepsStack_onMemory _

omit [WorldState S] in
instance keepsStack_useGas (gas : Gas) :
    Procedure.Moves KeepsStack (useGas gas : Exec S Unit) := by
  refine ⟨fun before => ?_⟩
  rw [useGas, onCall, Procedure.wp_zoom, CallFrame.wp_useGas]
  exact ⟨fun _ => rfl, fun _ => rfl⟩

omit [WorldState S] in
instance keepsStack_requireFork (since : Fork) :
    Procedure.Moves KeepsStack (requireFork since : Exec S Unit) := by
  refine ⟨fun before => ?_⟩
  rw [requireFork, onCall, Procedure.wp_zoom, CallFrame.wp_requireFork]
  exact ⟨fun _ => rfl, fun _ => rfl⟩

omit [WorldState S] in
instance keepsStack_requireDepth :
    Procedure.Moves KeepsStack (requireDepth : Exec S Unit) := by
  unfold requireDepth
  infer_instance

omit [WorldState S] in
/-- A kept stack keeps its height. -/
instance (priority := low) height_of_keepsStack
    {α : Type} (program : Exec S α) [moves : Procedure.Moves KeepsStack program] :
    Procedure.Moves (Procedure.Falls height) program :=
  moves.mono fun _ _ same => Nat.le_of_eq (congrArg Stack.top same)

omit [WorldState S] in
/-- Popping words lowers the stack. -/
theorem height_popped {context : TxExecContext S} {count : Nat}
    (enough : count ≤ context.height) :
    (popped context count).height + count ≤ context.height :=
  Nat.le_of_eq (Nat.sub_add_cancel enough)

omit [WorldState S] in
/-- A word is popped when there is one. -/
theorem consume1_total
    {before : TxExecContext S} (enough : 1 ≤ before.height) :
    consume1 before = .ok (operand before 0) (popped before 1) := by
  have pops : ∃ first stack, Stack.consume1 before.curCall.stack = .ok first stack :=
    ⟨_, _, dif_pos enough⟩
  obtain ⟨first, stack, pops⟩ := pops
  obtain ⟨rfl, rfl, -⟩ := Stack.consume1_ok pops
  simp only [consume1, CallFrame.onStack, onCall, Procedure.zoom, pops]
  rfl

omit [WorldState S] in
/-- So are two words when there are two. -/
theorem consume2_total
    {before : TxExecContext S} (enough : 2 ≤ before.height) :
    consume2 before = .ok (operand before 0, operand before 1) (popped before 2) := by
  have pops : ∃ words stack, Stack.consume2 before.curCall.stack = .ok words stack :=
    ⟨_, _, dif_pos enough⟩
  obtain ⟨⟨first, second⟩, stack, pops⟩ := pops
  obtain ⟨rfl, rfl, rfl, -⟩ := Stack.consume2_ok pops
  simp only [consume2, CallFrame.onStack, onCall, Procedure.zoom, pops]
  rfl

omit [WorldState S] in
instance spends_consume1 : Procedure.Expends height 1 (consume1 : Exec S _) := by
  refine ⟨fun run => ⟨rfl, ?_⟩⟩
  obtain ⟨stack, pops, rfl⟩ := onStack_ok run
  obtain ⟨-, rfl, enough⟩ := Stack.consume1_ok pops
  exact height_popped enough

omit [WorldState S] in
instance spends_consume2 : Procedure.Expends height 2 (consume2 : Exec S _) := by
  refine ⟨fun run => ⟨rfl, ?_⟩⟩
  obtain ⟨stack, pops, rfl⟩ := onStack_ok run
  obtain ⟨-, -, rfl, enough⟩ := Stack.consume2_ok pops
  exact height_popped enough

omit [WorldState S] in
instance spends_consume3 : Procedure.Expends height 3 (consume3 : Exec S _) := by
  refine ⟨fun run => ⟨rfl, ?_⟩⟩
  obtain ⟨stack, pops, rfl⟩ := onStack_ok run
  obtain ⟨-, -, -, rfl, enough⟩ := Stack.consume3_ok pops
  exact height_popped enough

omit [WorldState S] in
instance spends_consume4 : Procedure.Expends height 4 (consume4 : Exec S _) := by
  refine ⟨fun run => ⟨rfl, ?_⟩⟩
  obtain ⟨stack, pops, rfl⟩ := onStack_ok run
  obtain ⟨-, -, -, -, rfl, enough⟩ := Stack.consume4_ok pops
  exact height_popped enough

instance keepsStack_writeState (change : S → S) :
    Procedure.Moves KeepsStack (writeState change) := ⟨fun _ => rfl⟩

instance keepsStack_markDirty (addr : Addr) :
    Procedure.Moves KeepsStack (markDirty addr : Exec S Unit) :=
  ⟨fun _ => rfl⟩

instance keepsStack_addAddr (addr : Addr) :
    Procedure.Moves KeepsStack (addAddr addr : Exec S Unit) := ⟨fun _ => rfl⟩

instance keepsStack_takeSnapshot :
    Procedure.Moves KeepsStack (takeSnapshot : Exec S S) := ⟨fun _ => rfl⟩

instance keepsStack_transfer (sender recipient : Addr) (value : Wei) :
    Procedure.Moves KeepsStack
      (transfer sender recipient value : Exec S Unit) :=
  ⟨fun _ => wp_transfer sender recipient value |>.mpr fun _ => rfl⟩

variable [Keccak256]

instance keepsStack_openCreate (contractAddr caller : Addr) (value : Wei) :
    Procedure.Moves KeepsStack
      (openCreate contractAddr caller value : Exec S Unit) := by
  unfold openCreate
  infer_instance

variable {before after : TxExecContext S}

omit [WorldState S] [Keccak256] in
/-- A creation pops at least three operands. -/
instance spends_chargeCreate :
    Procedure.Expends height 3 (chargeCreate : Exec S CreateRequest) := by
  unfold chargeCreate
  infer_instance

omit [WorldState S] [Keccak256] in
instance spends_chargeCreate2 :
    Procedure.Expends height 4 (chargeCreate2 : Exec S CreateRequest) := by
  unfold chargeCreate2
  infer_instance

omit [WorldState S] [Keccak256] in
/-- A stack from which words have been popped has room for a word. -/
theorem room_of_spends {count : Nat} (spent : after.height + (count + 1) ≤ before.height) :
    after.curCall.stack.top < maxStackDepth := by
  have bound : before.height ≤ maxStackDepth := before.curCall.stack.top_le
  unfold height at *
  omega

/-- A frame for the new contract is pushed once it has been set up. -/
theorem createEffect_ok
    {contractAddr caller : Addr} {code : Bytes} {value : Wei} {gas : Gas}
    {args : CallType S} {tail : Tail S}
    (run : createEffect contractAddr caller code value gas args before =
      .ok tail after) :
    tail = .enter (PlainCode.new code).toCode [] value contractAddr caller args
        gas false ∧
      openCreate contractAddr caller value before = .ok () after := by
  unfold createEffect at run
  obtain ⟨_, opened, opens, run⟩ := Procedure.bind_ok.mp run
  obtain ⟨rfl, rfl⟩ := Outcome.ok.inj run
  exact ⟨rfl, opens⟩

/-- `CREATE` and `CREATE2` differ in what they charge and in the address of the new
contract. -/
inductive ChargesCreation (before : TxExecContext S) :
    Opcode → CreateRequest → Addr → TxExecContext S → Prop
  | create {request : CreateRequest} {paid : TxExecContext S} :
      chargeCreate before = .ok request paid →
      ChargesCreation before .create request
        (createAddr before.curCall.callee (getNonce before.state before.curCall.callee))
        paid
  | create2 {request : CreateRequest} {paid : TxExecContext S} :
      chargeCreate2 before = .ok request paid →
      ChargesCreation before .create2 request
        (createAddr2 before.curCall.callee (U256.toBigEndian request.salt)
          (U256.toBigEndian (Hash.hash request.code))) paid

namespace ChargesCreation

variable {opcode : Opcode} {request : CreateRequest} {contract : Addr}
variable {paid : TxExecContext S}

theorem quiet (charges : ChargesCreation before opcode request contract paid) :
    before.Quiet paid := by
  cases charges with
  | create charges => exact Procedure.Moves.ok charges
  | create2 charges => exact Procedure.Moves.ok charges

theorem room (charges : ChargesCreation before opcode request contract paid) :
    paid.curCall.stack.top < maxStackDepth := by
  cases charges with
  | create charges => exact room_of_spends (spends_chargeCreate.holds charges).2
  | create2 charges => exact room_of_spends (spends_chargeCreate2.holds charges).2

end ChargesCreation

/-- A creation charges, takes a snapshot and sets the new contract up. -/
theorem creation_ok
    {inst : Inst} {tail : Tail S} (creation : inst.opcode.isCreation)
    (run : effect inst before = .ok tail after) :
    ∃ request contract paid saved snapped,
      ChargesCreation before inst.opcode request contract paid ∧
        takeSnapshot paid = .ok saved snapped ∧
        tail = .enter (PlainCode.new request.code).toCode [] request.value contract
          before.curCall.callee (.create ⟨saved, contract⟩) request.gasQuota false ∧
        openCreate contract before.curCall.callee request.value snapped = .ok () after := by
  obtain ⟨opcode, data, pos⟩ := inst
  cases opcode <;> simp only [Opcode.isCreation, Bool.false_eq_true] at creation <;>
    simp only [effect] at run
  case create =>
    unfold createBeginEffect at run
    obtain ⟨request, paid, charges, run⟩ := Procedure.bind_ok.mp run
    replace run := Procedure.reads_bind_ok.mp run
    replace run := Procedure.reads_bind_ok.mp run
    obtain ⟨saved, snapped, snaps, run⟩ := Procedure.bind_ok.mp run
    have quiet : before.Quiet paid := Procedure.Moves.ok charges
    rw [quiet.state, quiet.curCall.callee] at run
    obtain ⟨rfl, opens⟩ := createEffect_ok run
    exact ⟨request, _, paid, saved, snapped, .create charges, snaps, rfl, opens⟩
  case create2 =>
    unfold create2BeginEffect at run
    obtain ⟨request, paid, charges, run⟩ := Procedure.bind_ok.mp run
    replace run := Procedure.reads_bind_ok.mp run
    obtain ⟨saved, snapped, snaps, run⟩ := Procedure.bind_ok.mp run
    have quiet : before.Quiet paid := Procedure.Moves.ok charges
    rw [quiet.curCall.callee] at run
    obtain ⟨rfl, opens⟩ := createEffect_ok run
    exact ⟨request, _, paid, saved, snapped, .create2 charges, snaps, rfl, opens⟩

/-- `CREATE` and `CREATE2` keep what can be read before them and set up the new
contract; the popped operands leave room for its address. -/
theorem creation_opens [LawfulWorldState S]
    {inst : Inst} {tail : Tail S} (creation : inst.opcode.isCreation)
    (run : effect inst before = .ok tail after) :
    ∃ code value gas saved contract snapped,
      tail = .enter code [] value contract before.curCall.callee
        (.create ⟨saved, contract⟩) gas false ∧
      view saved = view before.state ∧
      view snapped.state = view before.state ∧
      snapped.curCall.stack.top < maxStackDepth ∧
      openCreate contract before.curCall.callee value snapped = .ok () after := by
  obtain ⟨request, contract, paid, saved, snapped, charges, snaps, rfl, opens⟩ :=
    creation_ok creation run
  obtain ⟨same, -, still⟩ := takeSnapshot_ok snaps
  rw [charges.quiet.state] at same still
  have stack : KeepsStack paid snapped := Procedure.Moves.ok snaps
  refine ⟨_, _, _, saved, _, snapped, rfl, same, still, ?_, opens⟩
  rw [show snapped.curCall.stack = _ from stack]
  exact charges.room

/-- `CREATE` and `CREATE2` keep what can be read before them, and leave room for
the address of the contract. -/
theorem creation_effect [LawfulWorldState S]
    {inst : Inst} {tail : Tail S} (creation : inst.opcode.isCreation)
    (run : effect inst before = .ok tail after) :
    ∃ code value gas saved contract,
      tail = .enter code [] value contract before.curCall.callee
        (.create ⟨saved, contract⟩) gas false ∧
      view saved = view before.state ∧
      after.curCall.stack.top < maxStackDepth := by
  obtain ⟨code, value, gas, saved, contract, snapped, rfl, same, -, room, opens⟩ :=
    creation_opens creation run
  have stack : KeepsStack snapped after := Procedure.Moves.ok opens
  refine ⟨code, value, gas, saved, contract, rfl, same, ?_⟩
  rw [show after.curCall.stack = _ from stack]
  exact room

end Exec
end Qevm
