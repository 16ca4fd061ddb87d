import Qevm.Core.Operands
import Qevm.Core.Run
import Qevm.Core.Transaction
import Qevm.Logic.Accounting
import Qevm.State.Dummy

/-!
# Gas conservation

The gas of all frames together never grows, as long as no call without value is
handed a stipend that its own cost does not cover.
-/

set_option synthInstance.maxSize 100000

namespace Qevm

open Params Exec TxExecContext Procedure

variable {S : Type}

/-! ### Gas of the executing frame -/

/-- The gas of the executing frame. -/
def TxExecContext.frameGas (context : TxExecContext S) : Nat :=
  context.curCall.unusedGas.toNat

/-- The gas that the last action of an instruction hands out. -/
def Tail.gas : Tail S → Nat
  | .enter _ _ _ _ _ _ gas _ => gas.toNat
  | .settle _ _ gas _ => gas.toNat
  | .next | .finish _ _ => 0

instance : Worth CreateRequest := ⟨fun request => request.gasQuota.toNat⟩

instance : Worth CallRequest := ⟨fun request => request.gasQuota.toNat⟩

instance : Worth (Tail S) := ⟨Tail.gas⟩

namespace Exec

/-- Work inside a frame only spends its gas. -/
instance (priority := low) falls_of_works
    (program : Exec S α) [works : Moves Works program] :
    Moves (Falls frameGas) program :=
  works.mono fun _ _ work => UInt64.le_iff_toNat_le.mp work.curCall.unusedGas

/-- Gas that is charged may be handed out. -/
theorem accounts_useGas
    [Worth α] {credit : Nat} {gas : Gas} {value : α}
    (enough : Worth.worth value ≤ credit + gas.toNat) :
    Accounts frameGas credit
      (do useGas gas; pure value : Exec S α) := by
  refine ⟨fun context => ?_⟩
  simp only [useGas, onCall, wp_bind, wp_zoom, CallFrame.wp_useGas, wp_pure,
    frameGas]
  refine ⟨fun _ => Nat.le_add_right _ _, fun paid => ?_⟩
  have := CallFrame.toNat_paid paid
  omega

/-- Gas that is added to a frame is taken from the credit. -/
instance accounts_addGas (gas : Gas) :
    Accounts frameGas gas.toNat (onCall (Procedure.update fun call =>
      { call with unusedGas := call.unusedGas + gas }) : Exec S Unit) := by
  refine ⟨fun context => ?_⟩
  simp only [onCall, wp_zoom, wp_update, frameGas, UInt64.toNat_add,
    Worth.worth, Nat.add_zero]
  exact Nat.mod_le _ _

instance falls_returned (data : CallFrame S → Bytes) :
    Moves (Falls frameGas) (onCall (Procedure.update fun call =>
      { call with lastReturned := data call }) : Exec S Unit) :=
  ⟨fun _ => Nat.le_refl _⟩

instance accounts_quota (quota : Gas) :
    Accounts frameGas 0 (do useGas quota; pure quota : Exec S Gas) :=
  accounts_useGas (Nat.le_of_eq (Nat.zero_add _).symm)

instance accounts_createRequest
    (value : U256) (code : Bytes) (salt : U256) (quota : Gas) :
    Accounts frameGas 0
      (do useGas quota; pure ⟨value, code, salt, quota⟩ :
        Exec S CreateRequest) :=
  accounts_useGas (Nat.le_of_eq (Nat.zero_add _).symm)

instance accounts_callRequest
    (addr : Addr) (value : U256) (input : Bytes) (retOff retLen : U256)
    (quota : Gas) :
    Accounts frameGas (Worth.worth quota)
      (pure ⟨addr, value, input, retOff, retLen, quota⟩ : Exec S CallRequest) :=
  Accounts.pure (Nat.le_refl _)

variable [WorldState S] [Keccak256]

instance accounts_useGasQuota (gas : U256) (memGas : Gas) :
    Accounts frameGas 0 (useGasQuota gas memGas : Exec S Gas) := by
  unfold useGasQuota
  infer_instance

instance accounts_chargeCreate :
    Accounts frameGas 0 (chargeCreate : Exec S CreateRequest) := by
  unfold chargeCreate
  infer_instance

instance accounts_chargeCreate2 :
    Accounts frameGas 0 (chargeCreate2 : Exec S CreateRequest) := by
  unfold chargeCreate2
  infer_instance

instance accounts_chargeCall :
    Accounts frameGas 0 (chargeCall : Exec S CallRequest) := by
  unfold chargeCall useGasCall
  infer_instance

instance accounts_chargeCallCode :
    Accounts frameGas 0 (chargeCallCode : Exec S CallRequest) := by
  unfold chargeCallCode useGasCallCode
  infer_instance

instance accounts_chargeDelegateCall :
    Accounts frameGas 0 (chargeDelegateCall : Exec S CallRequest) := by
  unfold chargeDelegateCall useGasDelegateCall
  infer_instance

instance accounts_chargeStaticCall :
    Accounts frameGas 0 (chargeStaticCall : Exec S CallRequest) := by
  unfold chargeStaticCall useGasStaticCall
  infer_instance

/-! ### Gas handed to a callee -/

instance accounts_createEffect
    (contractAddr caller : Addr) (code : Bytes) (value : Wei) (gas : Gas)
    (args : CallType S) :
    Accounts frameGas gas.toNat
      (createEffect contractAddr caller code value gas args) := by
  have enter : Accounts frameGas gas.toNat
      (pure (.enter (PlainCode.new code).toCode [] value contractAddr caller args
        gas false) : Exec S (Tail S)) :=
    Accounts.pure (Nat.le_refl _)
  unfold createEffect
  infer_instance

instance accounts_settle
    (args : CallType S) (ret : Bytes) (gas : Gas) (err : Result) :
    Accounts frameGas gas.toNat
      (pure (.settle args ret gas err) : Exec S (Tail S)) :=
  Accounts.pure (Nat.le_refl _)

instance accounts_runCodeEffect
    (callee caller : Addr) (input : Bytes) (gas : Gas) (value : Wei)
    (args : CallType S) :
    Accounts frameGas gas.toNat
      (runCodeEffect callee caller input gas value args) := by
  have choose (code : Code) : Accounts frameGas gas.toNat
      (pure (if code.asBytes ≠ [] then
          .enter code input value callee caller args gas false
        else
          .settle args [] gas (.ok ())) : Exec S (Tail S)) := by
    refine Accounts.pure ?_
    split <;> exact Nat.le_refl _
  unfold runCodeEffect
  infer_instance

instance accounts_callEffect
    (callee caller : Addr) (input : Bytes) (gas : Gas) (value : Wei)
    (args : CallType S) :
    Accounts frameGas gas.toNat
      (callEffect callee caller input gas value args) := by
  have choose (self : TxExecContext S) : Accounts frameGas gas.toNat
      (match self.env.precompiledContracts.lookup callee with
      | none => runCodeEffect callee caller input gas value args
      | some contract =>
          (pure (.settle args (contract input).1 gas (contract input).2) :
            Exec S (Tail S))) := by
    cases self.env.precompiledContracts.lookup callee <;> infer_instance
  unfold callEffect admitCall fundCall
  infer_instance

instance accounts_enterEffect
    (codeAddr : Addr) (input : Bytes) (value : Wei) (callee caller : Addr)
    (args : CallArgs S) (gas : Gas) (readOnly : Bool) :
    Accounts frameGas gas.toNat
      (enterEffect codeAddr input value callee caller args gas readOnly) := by
  have choose (self : TxExecContext S) : Accounts frameGas gas.toNat
      (pure (match self.env.precompiledContracts.lookup callee with
        | none =>
            .enter (WorldState.getCode self.state codeAddr) input value callee
              caller (.call args) gas readOnly
        | some contract =>
            .settle (.call args) (contract input).1 gas (contract input).2) :
          Exec S (Tail S)) := by
    refine Accounts.pure ?_
    cases self.env.precompiledContracts.lookup callee <;> exact Nat.le_refl _
  unfold enterEffect
  infer_instance

instance accounts_createRequested
    (request : CreateRequest) (contractAddr caller : Addr) (args : CallType S) :
    Accounts frameGas (Worth.worth request)
      (createEffect contractAddr caller request.code request.value
        request.gasQuota args) :=
  accounts_createEffect _ _ _ _ request.gasQuota _

instance accounts_enterRequested
    (request : CallRequest) (codeAddr : Addr) (input : Bytes) (value : Wei)
    (callee caller : Addr) (args : CallArgs S) (readOnly : Bool) :
    Accounts frameGas (Worth.worth request)
      (enterEffect codeAddr input value callee caller args request.gasQuota
        readOnly) :=
  accounts_enterEffect _ _ _ _ _ _ request.gasQuota _

/-- An instruction that opens no frame hands out nothing. -/
theorem accounts_of_closed
    {inst : Inst} (closed : inst.opcode.entersCall = false) :
    Accounts frameGas 0 (effect inst : Exec S (Tail S)) := by
  refine ⟨fun context => wp_of_run ?_ ?_⟩
  · intro tail final run
    have works : context.Works final := Moves.ok run
    have nested := (nested_effect inst).holds run
    have nothing : tail.gas = 0 := by
      rw [closed] at nested
      cases tail with
      | next | finish => rfl
      | enter _ _ _ _ _ callType =>
          cases callType <;> simp [Tail.Nested] at nested
      | settle args =>
          cases args <;> simp [Tail.Nested] at nested
    have spent := UInt64.le_iff_toNat_le.mp works.curCall.unusedGas
    simpa [Worth.worth, nothing, frameGas] using spent
  · intro err final run
    have works : context.Works final := Moves.error run
    simpa [frameGas] using UInt64.le_iff_toNat_le.mp works.curCall.unusedGas

/-- The instructions that open frames, apart from `CALL` and `CALLCODE`, hand out
no more gas than they take. -/
theorem accounts_effect
    {inst : Inst} (notCall : inst.opcode ≠ .call)
    (notCallCode : inst.opcode ≠ .callCode) :
    Accounts frameGas 0 (effect inst : Exec S (Tail S)) := by
  by_cases enters : inst.opcode.entersCall
  · obtain ⟨opcode, data, pos⟩ := inst
    cases opcode <;>
      simp only [Opcode.entersCall, Bool.false_eq_true, ne_eq, not_true_eq_false]
        at enters notCall notCallCode <;>
      simp only [effect, createBeginEffect, create2BeginEffect,
        delegateCallBeginEffect, staticCallBeginEffect] <;>
      infer_instance
  · exact accounts_of_closed (by simpa using enters)

/-! ### The cost of a call without value -/

/-- The surcharge of Berlin for the account that a call is about to access. -/
def coldAccessCost (context : TxExecContext S) (addr : Addr) : Nat :=
  if context.curCall.fork ≥ .berlin ∧ !context.accessList.containsAddr addr then
    (gasColdAccountAccessCostBerlin - gasWarmStorageReadCostBerlin).toNat
  else
    0

/-- The fee of growing the memory to contain the input of the `CALL` or
`CALLCODE` that is about to execute. -/
def inputFee (context : TxExecContext S) : Nat :=
  match Memory.getSlice (operand context 3) (operand context 4)
      context.curCall.memory with
  | .ok slice _ => slice.2.toNat
  | _ => 0

/-- What a `CALL` or `CALLCODE` without value costs, apart from the gas that it
hands to its callee. -/
def callCost (context : TxExecContext S) : Nat :=
  (callBaseGas context.curCall.fork).toNat +
    coldAccessCost context (U256.toAddr (operand context 1)) +
    inputFee context

/-- If the next instruction is a `CALL` or `CALLCODE` without value, its own cost
covers the stipend. -/
def StipendCovered (context : TxExecContext S) : Prop :=
  ∀ inst, Fetches context inst → inst.opcode = .call ∨ inst.opcode = .callCode →
    operand context 2 = 0 → gasCallStipend.toNat ≤ callCost context

variable {before after : TxExecContext S}

omit [WorldState S] [Keccak256] in
theorem frameGas_useGas {gas : Gas} (run : useGas gas before = .ok () after) :
    after.frameGas + gas.toNat = before.frameGas ∧
      after.accessList = before.accessList ∧
      after.curCall.fork = before.curCall.fork ∧
      after.curCall.stack = before.curCall.stack ∧
      after.curCall.memory = before.curCall.memory := by
  obtain ⟨paid, rfl⟩ := useGas_ok run
  exact ⟨CallFrame.toNat_paid paid, rfl, rfl, rfl, rfl⟩

/-- The operands of a `CALL` or `CALLCODE`, with its base cost paid. -/
structure CallOperands.Popped
    (args : CallOperands) (before after : TxExecContext S) : Prop where
  gas : args.gas = operand before 0
  addr : args.addr = U256.toAddr (operand before 1)
  value : args.value = operand before 2
  slice : ∃ grown, Memory.getSlice (operand before 3) (operand before 4)
    before.curCall.memory = .ok (args.input, args.memGas) grown
  accessList : after.accessList = before.accessList
  fork : after.curCall.fork = before.curCall.fork
  base : after.frameGas + (callBaseGas before.curCall.fork).toNat = before.frameGas

omit [WorldState S] [Keccak256] in
theorem callOperands_ok
    {args : CallOperands} (run : callOperands before = .ok args after) :
    args.Popped before after := by
  unfold callOperands at run
  replace run := reads_bind_ok.mp run
  obtain ⟨_, paid, gasRun, run⟩ := bind_ok.mp run
  obtain ⟨⟨gas, addr, val⟩, first, firstRun, run⟩ := bind_ok.mp run
  obtain ⟨⟨inOff, inLen⟩, second, secondRun, run⟩ := bind_ok.mp run
  obtain ⟨⟨retOff, retLen⟩, third, thirdRun, run⟩ := bind_ok.mp run
  obtain ⟨⟨input, memGas⟩, fourth, sliceRun, run⟩ := bind_ok.mp run
  obtain ⟨rfl, rfl⟩ := Outcome.ok.inj run
  obtain ⟨spent, list, forks, stack, memory⟩ := frameGas_useGas gasRun
  obtain ⟨rfl, rfl, rfl, rfl⟩ := consume3_ok firstRun
  obtain ⟨rfl, rfl, rfl⟩ := consume2_ok secondRun
  obtain ⟨rfl, rfl, rfl⟩ := consume2_ok thirdRun
  obtain ⟨grown, slices, rfl⟩ := onMemory_ok sliceRun
  refine ⟨?_, ?_, ?_, ⟨grown, ?_⟩, list, forks, spent⟩
  · simp only [operand, stack]
  · simp only [operand, stack]
  · simp only [operand, stack]
  · simpa only [popped, operand, Stack.word_drop, stack, memory] using slices

omit [WorldState S] [Keccak256] in
/-- The fee of the input is the one that the operands carry. -/
theorem CallOperands.Popped.fee
    {args : CallOperands} (popped : args.Popped before after) :
    inputFee before = args.memGas.toNat := by
  obtain ⟨grown, slices⟩ := popped.slice
  simp only [inputFee, slices]

omit [WorldState S] [Keccak256] in
theorem useGasCallCommonBerlin_ok
    {addr : Addr} (run : useGasCallCommonBerlin addr before = .ok () after) :
    after.frameGas + coldAccessCost before addr = before.frameGas := by
  unfold useGasCallCommonBerlin at run
  simp only [bind, Procedure.bind, Procedure.read, Procedure.when] at run
  unfold coldAccessCost
  split at run
  · rename_i cold
    rw [if_pos cold]
    exact (frameGas_useGas run).1
  · rename_i warm
    rw [if_neg warm]
    obtain ⟨-, rfl⟩ := Outcome.ok.inj run
    rfl

omit [WorldState S] [Keccak256] in
theorem useGasQuota_ok
    {gas : U256} {memGas quota : Gas}
    (run : useGasQuota gas memGas before = .ok quota after) :
    after.frameGas + quota.toNat + memGas.toNat ≤ before.frameGas := by
  unfold useGasQuota at run
  obtain ⟨_, first, paysMemory, run⟩ := bind_ok.mp run
  obtain ⟨found, second, common, run⟩ := bind_ok.mp run
  obtain ⟨_, third, paysQuota, run⟩ := bind_ok.mp run
  obtain ⟨rfl, rfl⟩ := Outcome.ok.inj run
  have memory := (frameGas_useGas paysMemory).1
  have handed := (frameGas_useGas paysQuota).1
  have kept : first.Quiet second := Moves.ok common
  have less := UInt64.le_iff_toNat_le.mp kept.curCall.unusedGas
  simp only [frameGas] at memory handed ⊢
  omega

omit [WorldState S] [Keccak256] in
/-- A surcharge and a quota for a call without value. -/
theorem callCost_of_pays
    {args : CallOperands} {quota : Gas} {first second : TxExecContext S}
    (operands : callOperands before = .ok args first)
    (surcharge : useGasCallCommonBerlin args.addr first = .ok () second)
    (pays : useGasQuota args.gas args.memGas second = .ok quota after) :
    after.frameGas + quota.toNat + callCost before ≤ before.frameGas := by
  have popped := callOperands_ok operands
  have base := popped.base
  have memory := popped.fee
  have cold := useGasCallCommonBerlin_ok surcharge
  have handed := useGasQuota_ok pays
  have same : coldAccessCost first args.addr =
      coldAccessCost before (U256.toAddr (operand before 1)) := by
    simp only [coldAccessCost, popped.accessList, popped.fork, popped.addr]
  unfold callCost
  omega

/-- What a `CALL` that hands a value over pays for it. -/
def useGasCallValue (addr : Addr) : Exec S Unit := do
  let self ← Procedure.read
  Procedure.when (self.curCall.fork ≥ .spuriousDragon ∧ WorldState.isEmpty self.state addr)
    (useGas gasCallNewAccount)
  useGas gasCallValueTrans

/-- A `CALL` pays for the access of the account, for the value, and for the gas that it
hands to its callee. -/
theorem chargeCall_ok
    {request : CallRequest} (run : chargeCall before = .ok request after) :
    ∃ args first second third quota,
      request = ⟨args.addr, args.value, args.input, args.retOff, args.retLen, quota⟩ ∧
        callOperands before = .ok args first ∧
        useGasCallCommonBerlin args.addr first = .ok () second ∧
        Procedure.when (args.value ≠ 0) (useGasCallValue args.addr) second =
          .ok () third ∧
        useGasQuota args.gas args.memGas third = .ok quota after := by
  unfold chargeCall useGasCall at run
  obtain ⟨args, first, operands, run⟩ := bind_ok.mp run
  replace run := reads_bind_ok.mp run
  obtain ⟨-, run⟩ := raiseIf_bind_ok.mp run
  obtain ⟨quota, last, pays, returns⟩ := bind_ok.mp run
  obtain ⟨rfl, rfl⟩ := Outcome.ok.inj returns
  obtain ⟨_, second, surcharge, transfers⟩ := bind_ok.mp pays
  obtain ⟨_, third, transfer, quotas⟩ := bind_ok.mp transfers
  exact ⟨args, first, second, third, quota, rfl, operands, surcharge, transfer, quotas⟩

omit [WorldState S] [Keccak256] in
/-- So does a `CALLCODE`, which never pays for a new account. -/
theorem chargeCallCode_ok
    {request : CallRequest} (run : chargeCallCode before = .ok request after) :
    ∃ args first second third quota,
      request = ⟨args.addr, args.value, args.input, args.retOff, args.retLen, quota⟩ ∧
        callOperands before = .ok args first ∧
        useGasCallCommonBerlin args.addr first = .ok () second ∧
        Procedure.when (args.value ≠ 0) (useGas gasCallValueTrans) second =
          .ok () third ∧
        useGasQuota args.gas args.memGas third = .ok quota after := by
  unfold chargeCallCode useGasCallCode at run
  obtain ⟨-, run⟩ := requireDepth_bind_ok run
  obtain ⟨args, first, operands, charges⟩ := bind_ok.mp run
  obtain ⟨quota, last, pays, returns⟩ := bind_ok.mp charges
  obtain ⟨rfl, rfl⟩ := Outcome.ok.inj returns
  obtain ⟨_, second, surcharge, transfers⟩ := bind_ok.mp pays
  obtain ⟨_, third, transfer, quotas⟩ := bind_ok.mp transfers
  exact ⟨args, first, second, third, quota, rfl, operands, surcharge, transfer, quotas⟩

omit [WorldState S] [Keccak256] in
/-- A conditional step for a value does nothing without one. -/
theorem callCost_of_free
    {args : CallOperands} {quota : Gas} {first second third : TxExecContext S}
    {transfer : Exec S Unit} (operands : callOperands before = .ok args first)
    (surcharge : useGasCallCommonBerlin args.addr first = .ok () second)
    (transfers : Procedure.when (args.value ≠ 0) transfer second = .ok () third)
    (quotas : useGasQuota args.gas args.memGas third = .ok quota after)
    (noValue : args.value = 0) :
    after.frameGas + quota.toNat + callCost before ≤ before.frameGas := by
  obtain ⟨value, -⟩ | ⟨-, still⟩ := when_ok.mp transfers
  · exact absurd noValue value
  · rw [still] at quotas
    exact callCost_of_pays operands surcharge quotas

/-- A paid `CALL` without value has spent its own cost besides the gas that it
hands to its callee. -/
theorem chargeCall_cost
    {request : CallRequest} (run : chargeCall before = .ok request after) :
    request.value = operand before 2 ∧
      (request.value = 0 →
        after.frameGas + request.gasQuota.toNat + callCost before ≤
          before.frameGas) := by
  obtain ⟨args, first, second, third, quota, rfl, operands, surcharge, transfers, quotas⟩ :=
    chargeCall_ok run
  exact ⟨(callOperands_ok operands).value,
    callCost_of_free operands surcharge transfers quotas⟩

omit [WorldState S] [Keccak256] in
/-- A paid `CALLCODE` without value has spent its own cost besides the gas that
it hands to its callee. -/
theorem chargeCallCode_cost
    {request : CallRequest} (run : chargeCallCode before = .ok request after) :
    request.value = operand before 2 ∧
      (request.value = 0 →
        after.frameGas + request.gasQuota.toNat + callCost before ≤
          before.frameGas) := by
  obtain ⟨args, first, second, third, quota, rfl, operands, surcharge, transfers, quotas⟩ :=
    chargeCallCode_ok run
  exact ⟨(callOperands_ok operands).value,
    callCost_of_free operands surcharge transfers quotas⟩

omit [WorldState S] [Keccak256] in
/-- With its stipend covered, a call takes at least the gas that its callee
gets. -/
theorem addStipend_covered
    {request : CallRequest} {charged : TxExecContext S}
    (quota : charged.frameGas + request.gasQuota.toNat ≤ before.frameGas)
    (cost : request.value = 0 →
      charged.frameGas + request.gasQuota.toNat + callCost before ≤
        before.frameGas)
    (covered : request.value = 0 → gasCallStipend.toNat ≤ callCost before) :
    charged.frameGas + (addStipend request).toNat ≤ before.frameGas := by
  unfold addStipend
  split
  · rename_i noValue
    have paid := cost noValue
    have enough := covered noValue
    have bound : (request.gasQuota + gasCallStipend).toNat ≤
        request.gasQuota.toNat + gasCallStipend.toNat := by
      rw [UInt64.toNat_add]
      exact Nat.mod_le _ _
    omega
  · exact quota

/-- With its stipend covered, an instruction takes at least the gas that it
hands out. -/
theorem effect_gas
    {inst : Inst} {tail : Tail S}
    (fetches : Fetches before inst) (covered : StipendCovered before)
    (run : effect inst before = .ok tail after) :
    after.frameGas + tail.gas ≤ before.frameGas := by
  have covers := covered inst fetches
  obtain ⟨opcode, data, pos⟩ := inst
  by_cases isCall : opcode = .call
  · subst isCall
    simp only [effect, callBeginEffect] at run
    obtain ⟨request, charged, charges, rest⟩ := bind_ok.mp run
    obtain ⟨value, cost⟩ := chargeCall_cost charges
    have quota : charged.frameGas + request.gasQuota.toNat ≤ before.frameGas + 0 :=
      Accounts.ok charges
    have handed := addStipend_covered quota cost fun noValue =>
      covers (.inl rfl) (value ▸ noValue)
    have spent : after.frameGas + tail.gas ≤
        charged.frameGas + (addStipend request).toNat := Accounts.ok rest
    omega
  by_cases isCallCode : opcode = .callCode
  · subst isCallCode
    simp only [effect, callCodeBeginEffect] at run
    obtain ⟨request, charged, charges, rest⟩ := bind_ok.mp run
    obtain ⟨value, cost⟩ := chargeCallCode_cost charges
    have quota : charged.frameGas + request.gasQuota.toNat ≤ before.frameGas + 0 :=
      Accounts.ok charges
    have handed := addStipend_covered quota cost fun noValue =>
      covers (.inr rfl) (value ▸ noValue)
    have spent : after.frameGas + tail.gas ≤
        charged.frameGas + (addStipend request).toNat := Accounts.ok rest
    omega
  · have accounts :
        Accounts frameGas 0 (effect ⟨opcode, data, pos⟩ : Exec S (Tail S)) :=
      accounts_effect isCall isCallCode
    exact accounts.ok run

/-! ### Gas that comes back -/

/-- Settling the end of a call hands back at most the gas of the callee. -/
instance accounts_callEnd
    (args : CallArgs S) (data : Bytes) (gas : Gas) (ret : Result) :
    Accounts frameGas gas.toNat (callEnd args data gas ret) := by
  have returned : Accounts frameGas gas.toNat (callReturn args data gas ret) := by
    have all : Accounts frameGas gas.toNat (pure gas : Exec S Gas) :=
      Accounts.pure (Nat.le_refl _)
    have none : Accounts frameGas gas.toNat (pure 0 : Exec S Gas) :=
      Accounts.pure (Nat.zero_le _)
    unfold callReturn
    obtain err | _ := ret
    · cases err <;> infer_instance
    · infer_instance
  have adds (gas : Gas) :
      Accounts frameGas (Worth.worth gas) (onCall (Procedure.update fun call =>
        { call with unusedGas := call.unusedGas + gas }) : Exec S Unit) :=
    accounts_addGas gas
  unfold callEnd
  infer_instance

/-- Settling the end of a creation hands back at most the gas of the
initialization code. -/
instance accounts_createEnd
    (args : CreateArgs S) (data : Bytes) (gas : Gas) (ret : Result) :
    Accounts frameGas gas.toNat (createEnd args data gas ret) := by
  have falls : Moves (Falls frameGas)
      (createPostProcessing args.contractAddr data ret : Exec S Unit) :=
    moves_createPostProcessing args.contractAddr data ret
  unfold createEnd
  infer_instance

end Exec

/-! ### Gas of all frames -/

/-- The gas of the frames above the last one, whose gas is not real. -/
def realGas (frames : List (CallFrame S)) : Nat :=
  (frames.dropLast.map fun frame => frame.unusedGas.toNat).sum

@[simp] theorem realGas_singleton (frame : CallFrame S) :
    realGas [frame] = 0 := rfl

@[simp] theorem realGas_cons_cons
    (top next : CallFrame S) (rest : List (CallFrame S)) :
    realGas (top :: next :: rest) =
      top.unusedGas.toNat + realGas (next :: rest) := rfl

/-- The gas of the executing frame and of all suspended frames but the one at the
bottom. -/
def TxExecContext.totalGas (context : TxExecContext S) : Nat :=
  realGas context.frames

/-- Spending gas of the executing frame spends gas of all frames. -/
theorem totalGas_le
    {before after : TxExecContext S}
    (callStack : after.callStack = before.callStack)
    (spent : after.frameGas ≤ before.frameGas) :
    after.totalGas ≤ before.totalGas := by
  unfold totalGas frames
  rw [callStack]
  cases before.callStack with
  | nil => exact Nat.le_refl _
  | cons next rest =>
      rw [realGas_cons_cons, realGas_cons_cons]
      exact Nat.add_le_add_right spent _

/-- Gas that a frame hands to the frame below it stays in the sum. -/
theorem totalGas_popped
    {before after : TxExecContext S} {frame : CallFrame S}
    (suspended : before.callStack = frame :: after.callStack)
    (gas : after.callStack ≠ [] →
      after.frameGas ≤ frame.unusedGas.toNat + before.frameGas) :
    after.totalGas ≤ before.totalGas := by
  unfold totalGas frames
  rw [suspended]
  cases stack : after.callStack with
  | nil => exact Nat.zero_le _
  | cons next rest =>
      have spent := gas (by simp [stack])
      simp only [realGas_cons_cons, frameGas] at spent ⊢
      omega

namespace Exec

variable [WorldState S] [Keccak256] {before after ending : TxExecContext S}

/-- Settling the end of a frame hands back at most its gas, if a frame is
suspended below the resumed one. -/
theorem settleEnd_gas
    (callType : CallType S) (data : Bytes) (gas : Gas) (err : Result)
    (context : TxExecContext S) :
    wp (settleEnd callType data gas err)
      (fun _ final => context.callStack ≠ [] →
        final.frameGas ≤ context.frameGas + gas.toNat)
      (fun _ final => context.callStack ≠ [] →
        final.frameGas ≤ context.frameGas + gas.toNat) context := by
  cases callType with
  | tx args =>
      by_cases suspended : context.callStack = []
      · exact wp_of_run (fun _ _ _ deeper => absurd suspended deeper)
          (fun _ _ _ deeper => absurd suspended deeper)
      · unfold wp
        rw [settleEnd, txEnd_suspended args data gas err suspended]
        trivial
  | create args =>
      exact wp_mono ((accounts_createEnd args data gas err).holds context)
        (fun _ _ less _ => less) (fun _ _ less _ => less)
  | call args =>
      exact wp_mono ((accounts_callEnd args data gas err).holds context)
        (fun _ _ less _ => less) (fun _ _ less _ => less)

/-- The end of a frame brings no gas. -/
instance falls_finishCall (data : Bytes) (err : Result) :
    Moves (Falls totalGas) (finishCall data err : Exec S Unit) := by
  refine ⟨fun context => wp_of_run ?_ ?_⟩
  · intro _ final run
    obtain ⟨frame, callStack, suspended, leaves⟩ := finishCall_ok run
    obtain rfl : final.callStack = callStack := leaves.callStack
    rw [finishCall_cons data err suspended] at run
    exact totalGas_popped suspended (wp_ok (settleEnd_gas _ _ _ _ _) run)
  · intro raised final run
    obtain ⟨frame, callStack, suspended, leaves⟩ := finishCall_error run
    obtain rfl : final.callStack = callStack := leaves.callStack
    rw [finishCall_cons data err suspended] at run
    exact totalGas_popped suspended (wp_error (settleEnd_gas _ _ _ _ _) run)

/-- A call that is settled without a frame hands back at most what it took. -/
theorem settled_gas
    {inst : Inst} {args : CallArgs S} {ret : Bytes} {gas : Gas} {err : Result}
    {working moved : TxExecContext S}
    (fetches : Fetches before inst) (covered : StipendCovered before)
    (effected : effect inst before = .ok (.settle (.call args) ret gas err)
      working)
    (callStack : moved.callStack = working.callStack)
    (ended : moved.frameGas ≤ working.frameGas + gas.toNat) :
    moved.totalGas ≤ before.totalGas := by
  have works : before.Works working := Moves.ok effected
  have taken : working.frameGas + gas.toNat ≤ before.frameGas :=
    effect_gas fetches covered effected
  exact totalGas_le (callStack.trans works.callStack)
    (Nat.le_trans ended taken)

/-- Up to the end of a frame an iteration brings no gas. -/
theorem Ends.gas
    {data : Bytes} {err : Result} (ends : Ends before ending data err)
    (covered : StipendCovered before) :
    ending.totalGas ≤ before.totalGas := by
  induction ends with
  | instruction fetches effected =>
      have works : before.Works _ := Moves.ok effected
      exact totalGas_le works.callStack
        (UInt64.le_iff_toNat_le.mp works.curCall.unusedGas)
  | raised fetches raises =>
      obtain raises | ⟨args, ret, gas, result, working, moved, effected, ended,
        rfl⟩ | ⟨working, data, result, effected, raises⟩ := dispatch_error raises
      · have works : before.Works _ := Moves.error raises
        exact totalGas_le works.callStack
          (UInt64.le_iff_toNat_le.mp works.curCall.unusedGas)
      · have settles : working.Settles moved := Moves.error ended
        have handed : moved.frameGas ≤ working.frameGas + gas.toNat :=
          Accounts.error ended
        exact settled_gas fetches covered effected settles.callStack handed
      · have works : before.Works working := Moves.ok effected
        have falls : Falls totalGas working _ := Moves.error raises
        exact Nat.le_trans falls (totalGas_le works.callStack
          (UInt64.le_iff_toNat_le.mp works.curCall.unusedGas))
  | unwound ends raises inductionHypothesis =>
      have falls : Falls totalGas _ _ := Moves.error raises
      exact Nat.le_trans falls inductionHypothesis

end Exec

section Runs

variable [WorldState S] [Keccak256] {before after : TxExecContext S}

omit [WorldState S] [Keccak256] in
@[simp] theorem frameGas_advanced (inst : Inst) (context : TxExecContext S) :
    (advanced inst context).frameGas = context.frameGas := by
  unfold frameGas advanced
  split <;> rfl

omit [WorldState S] [Keccak256] in
@[simp] theorem totalGas_advanced (inst : Inst) (context : TxExecContext S) :
    (advanced inst context).totalGas = context.totalGas := by
  unfold totalGas frames advanced
  cases context.callStack with
  | nil => rfl
  | cons next rest => split <;> rfl

/-- An iteration of a running transaction brings no gas. -/
theorem Step.gas
    (step : Step before after) (inside : before.InTransaction)
    (covered : StipendCovered before) :
    after.totalGas ≤ before.totalGas := by
  obtain ⟨inst, fetches, continues | enters | settled | ended⟩ := step.cases
  · obtain ⟨working, effected, rfl⟩ := continues
    have works : before.Works working := Moves.ok effected
    rw [totalGas_advanced]
    exact totalGas_le works.callStack
      (UInt64.le_iff_toNat_le.mp works.curCall.unusedGas)
  · obtain ⟨code, input, value, callee, caller, callType, gas, readOnly, working,
      effected, run⟩ := enters
    have works : before.Works working := Moves.ok effected
    have taken : working.frameGas + gas.toNat ≤ before.frameGas :=
      effect_gas fetches covered effected
    obtain ⟨next, rest, stack⟩ := List.exists_cons_of_ne_nil inside.suspended
    rw [callPush_ok run]
    simp only [totalGas, frames, works.callStack, stack, realGas_cons_cons,
      CallFrame.new]
    simp only [frameGas] at taken
    omega
  · obtain ⟨args, ret, gas, err, working, moved, effected, ended, rfl⟩ := settled
    have settles : working.Settles moved := Moves.ok ended
    have handed : moved.frameGas + 0 ≤ working.frameGas + gas.toNat :=
      Accounts.ok ended
    exact settled_gas fetches covered effected settles.callStack handed
  · obtain ⟨ending, data, err, settled, ends, finished, rfl⟩ := ended
    have falls : Falls totalGas ending settled := Moves.ok finished
    rw [totalGas_advanced]
    exact Nat.le_trans falls (ends.gas covered)

/-- The iteration that finishes a transaction leaves at most the gas of all
frames. -/
theorem Step.result_gas
    {result : TxExecResult} (step : Step before after)
    (inside : before.InTransaction) (covered : StipendCovered before)
    (finished : after.status = .finished result) :
    result.unusedGas.toNat ≤ before.totalGas := by
  obtain inside | ⟨args, data, err, ending, bottom, finishes⟩ :=
    step.inTransaction inside
  · rw [(step.lasts inside.suspended).status, step.1] at finished
    contradiction
  · obtain ⟨ret, addr, status⟩ := finishes.status
    rw [status] at finished
    obtain rfl := TxExecStatus.finished.inj finished
    rw [unusedGas_finalResult]
    have less := finishes.ends.gas covered
    simp only [totalGas, frames, finishes.callStack, realGas_cons_cons,
      realGas_singleton] at less
    simpa [totalGas, frames] using less

namespace Transaction

variable {tx : Transaction S} {entered reached : TxExecContext S}

/-- A transaction enters the loop with at most its execution gas, or finished
with it. -/
theorem Enters.gas (enters : tx.Enters entered) :
    entered.totalGas ≤ tx.executionGas.toNat ∧
      ∀ result, entered.status = .finished result →
        result.unusedGas = tx.executionGas := by
  obtain ⟨initial, context, pushed | settled | failed⟩ := enters.cases
  · obtain ⟨code, input, value, callee, caller, args, readOnly, working, effected,
      rfl⟩ := pushed
    obtain ⟨accessList, rfl⟩ := context_eq_some context
    have stays : Stays _ working := Moves.ok effected
    refine ⟨?_, fun result finished => ?_⟩
    · simp [totalGas, frames, stays.callStack, CallFrame.new]
    · rw [stays.status] at finished
      contradiction
  · obtain ⟨args, ret, err, working, effected, run⟩ := settled
    have leaves : working.Leaves entered := Moves.ok run
    obtain ⟨empty, final, addr, processed, -, -, rfl⟩ := txEnd_ok run
    refine ⟨?_, fun result finished => ?_⟩
    · rw [totalGas, frames, leaves.callStack, empty]
      exact Nat.zero_le _
    · obtain rfl := TxExecStatus.finished.inj finished
      exact unusedGas_finalResult _ _ _ _
  · obtain ⟨err, working, raised, rfl⟩ := failed
    obtain ⟨accessList, rfl⟩ := context_eq_some context
    have stays : Stays _ working := Moves.error raised
    refine ⟨?_, fun result finished => ?_⟩
    · simp [totalGas, frames, stays.callStack]
    · obtain rfl := TxExecStatus.finished.inj finished
      rfl

/-- A run in which every call without value covers its stipend. -/
def CoveredRun (entered reached : TxExecContext S) : Prop :=
  Relation.ReflTransGen
    (fun before after => StipendCovered before ∧ Step before after)
    entered reached

theorem CoveredRun.reaches
    (run : CoveredRun entered reached) (enters : tx.Enters entered) :
    tx.Reaches reached :=
  ⟨entered, enters, Relation.ReflTransGen.mono (fun _ _ step => step.2) _ _ run⟩

/-- A covered run never has more gas than the execution gas. -/
theorem CoveredRun.gas
    (run : CoveredRun entered reached) (enters : tx.Enters entered) :
    reached.totalGas ≤ tx.executionGas.toNat := by
  induction run with
  | refl => exact enters.gas.1
  | tail run step inductionHypothesis =>
      have reaches := CoveredRun.reaches run enters
      exact Nat.le_trans
        (step.2.gas (reaches.inTransaction step.2) step.1) inductionHypothesis

/-- A covered run leaves at most the execution gas. -/
theorem CoveredRun.result_gas
    {result : TxExecResult}
    (run : CoveredRun entered reached) (enters : tx.Enters entered)
    (finished : reached.status = .finished result) :
    result.unusedGas.toNat ≤ tx.executionGas.toNat := by
  obtain same | ⟨middle, run, covered, step⟩ := Relation.ReflTransGen.cases_tail run
  · subst same
    exact Nat.le_of_eq (congrArg UInt64.toNat (enters.gas.2 result finished))
  · have reaches := CoveredRun.reaches run enters
    exact Nat.le_trans
      (step.result_gas (reaches.inTransaction step) covered finished)
      (CoveredRun.gas run enters)

end Transaction

end Runs

namespace Sample

/-- Calls the account `0x11` without value and without gas, and stops. -/
def stipendCode : Bytes :=
  [0x60, 0x00, 0x60, 0x00, 0x60, 0x00, 0x60, 0x00, 0x60, 0x00, 0x60, 0x11,
    0x60, 0x00, 0xf1, 0x00]

/-- The digests that the transactions of this module look at. -/
@[reducible] def gasKeccak : Keccak256 := keccak
  [([], 0xc5d2460186f7233c927e7db2dcc703c0e500b653ca82273b7bfad8045d85a470),
    ([0x00],
      0xbc36789e7a1e281436464229828f817d6612f7b477d66591ff96a9e064bcc98a),
    (stipendCode,
      0x3daf88ec2092435c23ac4959f41a03d7f80bc1b839597696bee53156ffbf8400)]

/-- A transaction of the account `0x11` that calls an account with a code. -/
def gasTx (code : Bytes) : Transaction DummyStateStore :=
  letI := gasKeccak
  let state := DummyStateStore.new.setCode 0xaa code
  { sender := 0x11
    recipient := some 0xaa
    value := 0
    gas := 121000
    gasPrice := 0
    input := []
    accessList := none
    state := state
    committedState := state
    env := env .london }

end Sample

end Qevm
