import Qevm.Laws.GasConservation

/-!
# The instructions that call an account

`CALL`, `CALLCODE`, `DELEGATECALL` and `STATICCALL` are the same program with
different operands: they pay, and then they take the last action of the
instruction.  `Charged` says what has been paid for, in terms of the context before
the instruction.
-/

set_option synthInstance.maxSize 100000

namespace Qevm

open Params Exec TxExecContext Procedure WorldState

/-- The four instructions that call an account. -/
inductive CallKind
  | call
  | callCode
  | delegateCall
  | staticCall
  deriving DecidableEq, Repr

namespace CallKind

/-- The instruction. -/
def inst : CallKind → Inst
  | call => ⟨.call, none, 0⟩
  | callCode => ⟨.callCode, none, 0⟩
  | delegateCall => ⟨.delegateCall, none, 0⟩
  | staticCall => ⟨.staticCall, none, 0⟩

/-- Whether a value is among the operands. -/
def HasValue : CallKind → Prop
  | call | callCode => True
  | delegateCall | staticCall => False

instance : DecidablePred HasValue
  | call | callCode => isTrue trivial
  | delegateCall | staticCall => isFalse id

variable {S : Type}

/-- The called address. -/
def target (context : TxExecContext S) : Addr := U256.toAddr (operand context 1)

/-- The value among the operands, zero when there is none. -/
def value (self : CallKind) (context : TxExecContext S) : U256 :=
  if self.HasValue then operand context 2 else 0

/-- The position of the offset of the input among the operands. -/
def inputIndex (self : CallKind) : Nat := if self.HasValue then 3 else 2

/-- The input and the fee of growing the memory to contain it. -/
def slice (self : CallKind) (context : TxExecContext S) : Bytes × Gas :=
  match Memory.getSlice (operand context self.inputIndex)
      (operand context (self.inputIndex + 1)) context.curCall.memory with
  | .ok slice _ => slice
  | _ => ([], 0)

/-- The input of the called account. -/
def input (self : CallKind) (context : TxExecContext S) : Bytes :=
  (self.slice context).1

variable [WorldState S] [Keccak256]

/-- The cost of handing a value over, and of creating the account that gets it. -/
def valueCost (self : CallKind) (context : TxExecContext S) : Nat :=
  if self.value context = 0 then 0
  else
    gasCallValueTrans.toNat +
      if self = call ∧ context.curCall.fork ≥ .spuriousDragon ∧
          isEmpty context.state (target context) then
        gasCallNewAccount.toNat
      else
        0

/-- Everything that an instruction costs besides the gas for the called account. -/
def charges (self : CallKind) (context : TxExecContext S) : Nat :=
  (callBaseGas context.curCall.fork).toNat +
    coldAccessCost context (target context) + self.valueCost context +
      (self.slice context).2.toNat

/-- The gas that is left once these costs are paid. -/
def available (self : CallKind) (context : TxExecContext S) : Nat :=
  context.frameGas - self.charges context

/-- The gas that is taken for the called account: what is requested, up to all but
one 64th of what is left. -/
def forwarded (self : CallKind) (context : TxExecContext S) : Nat :=
  min (operand context 0).toNat
    (self.available context - self.available context / 64)

/-- A call that has been paid for. -/
structure Charged
    (kind : CallKind) (before : TxExecContext S) (request : CallRequest)
    (charged : TxExecContext S) : Prop where
  quiet : before.Quiet charged
  addr : request.addr = target before
  value : kind.HasValue → request.value = kind.value before
  input : request.input = kind.input before
  gas : charged.frameGas + request.gasQuota.toNat + kind.charges before =
    before.frameGas
  quota : before.curCall.fork ≥ .tangerineWhistle →
    request.gasQuota.toNat = kind.forwarded before

/-- The payment of an instruction. -/
def charge : CallKind → Exec S CallRequest
  | call => chargeCall
  | callCode => chargeCallCode
  | delegateCall => chargeDelegateCall
  | staticCall => chargeStaticCall

end CallKind

variable {S : Type} {before after : TxExecContext S}

namespace Exec

/-! ### The gas for the called account -/

/-- A requested amount is capped, and larger amounts than a machine word are more
than what is left. -/
theorem gasCallCommon_ok
    {cost : U256} {quota : Gas} (run : gasCallCommon cost before = .ok quota after) :
    after = before ∧ (before.curCall.fork ≥ .tangerineWhistle →
      quota.toNat = min cost.toNat (before.frameGas - before.frameGas / 64)) := by
  have cap : (before.curCall.unusedGas - before.curCall.unusedGas / 64).toNat =
      before.frameGas - before.frameGas / 64 := by
    have part : before.curCall.unusedGas / 64 ≤ before.curCall.unusedGas := by
      rw [UInt64.le_iff_toNat_le, UInt64.toNat_div]
      exact Nat.div_le_self _ _
    rw [UInt64.toNat_sub_of_le _ _ part, UInt64.toNat_div]
    rfl
  have small := before.curCall.unusedGas.toNat_lt
  unfold gasCallCommon call at run
  replace run := reads_bind_ok.mp run
  unfold checkedAsU64 U256.lowU64 at run
  by_cases fits : cost.toNat ≤ 2 ^ 64 - 1
  · rw [if_pos fits] at run
    obtain ⟨rfl, rfl⟩ := Outcome.ok.inj run
    have same : (UInt64.ofNat cost.toNat).toNat = cost.toNat := by
      rw [UInt64.toNat_ofNat']
      exact Nat.mod_eq_of_lt (by omega)
    refine ⟨rfl, fun since => ?_⟩
    simp only [since, true_and]
    split
    · rename_i less
      rw [UInt64.lt_iff_toNat_lt, same, cap] at less
      rw [cap]
      omega
    · rename_i enough
      rw [UInt64.lt_iff_toNat_lt, same, cap] at enough
      rw [same]
      omega
  · rw [if_neg fits] at run
    dsimp only at run
    split at run
    · obtain ⟨rfl, rfl⟩ := Outcome.ok.inj run
      refine ⟨rfl, fun _ => ?_⟩
      rw [cap]
      simp only [frameGas] at *
      omega
    · contradiction

/-- The memory fee is paid before the gas for the called account is taken. -/
theorem useGasQuota_exact
    {gas : U256} {memGas quota : Gas}
    (run : useGasQuota gas memGas before = .ok quota after) :
    after.frameGas + quota.toNat + memGas.toNat = before.frameGas ∧
      (before.curCall.fork ≥ .tangerineWhistle →
        quota.toNat = min gas.toNat ((before.frameGas - memGas.toNat) -
          (before.frameGas - memGas.toNat) / 64)) := by
  unfold useGasQuota at run
  obtain ⟨_, first, paysMemory, run⟩ := bind_ok.mp run
  obtain ⟨found, second, common, run⟩ := bind_ok.mp run
  obtain ⟨_, third, paysQuota, run⟩ := bind_ok.mp run
  obtain ⟨rfl, rfl⟩ := Outcome.ok.inj run
  obtain ⟨same, capped⟩ := gasCallCommon_ok common
  rw [same] at paysQuota
  obtain ⟨memory, -, forks, -⟩ := frameGas_useGas paysMemory
  have handed := (frameGas_useGas paysQuota).1
  refine ⟨by omega, fun since => ?_⟩
  rw [capped (forks ▸ since), ← memory, Nat.add_sub_cancel]

end Exec

namespace CallKind

variable [WorldState S] [Keccak256] {request : CallRequest}

/-- The operands of an instruction, with its base cost paid. -/
structure Operands
    (kind : CallKind) (before : TxExecContext S) (gas : U256) (addr : Addr)
    (input : Bytes) (memGas : Gas) (first : TxExecContext S) : Prop where
  quiet : before.Quiet first
  accessList : first.accessList = before.accessList
  base : first.frameGas + (callBaseGas before.curCall.fork).toNat = before.frameGas
  gas : gas = operand before 0
  addr : addr = target before
  slice : (input, memGas) = kind.slice before

/-- What is paid after the operands have been popped: the access of the account, the
value, and the gas for the called account. -/
theorem Operands.pays
    {self : CallKind} {gas : U256} {addr : Addr} {input : Bytes} {memGas quota : Gas}
    {first second third : TxExecContext S}
    (operands : self.Operands before gas addr input memGas first)
    (surcharge : useGasCallCommonBerlin addr first = .ok () second)
    (transfers : third.frameGas + self.valueCost before = second.frameGas)
    (forks : third.curCall.fork = before.curCall.fork)
    (quotas : useGasQuota gas memGas third = .ok quota after) :
    after.frameGas + quota.toNat + self.charges before = before.frameGas ∧
      (before.curCall.fork ≥ .tangerineWhistle →
        quota.toNat = self.forwarded before) := by
  have cold := useGasCallCommonBerlin_ok surcharge
  obtain ⟨handed, capped⟩ := useGasQuota_exact quotas
  have same : coldAccessCost first addr =
      coldAccessCost before (target before) := by
    simp only [coldAccessCost, operands.accessList,
      operands.quiet.curCall.toSame.fork, operands.addr]
  have fee : memGas = (self.slice before).2 := congrArg Prod.snd operands.slice
  have base := operands.base
  have rest : third.frameGas - memGas.toNat = self.available before := by
    unfold available charges
    rw [← fee]
    omega
  constructor
  · unfold charges
    rw [← fee]
    omega
  · intro since
    rw [capped (forks ▸ since), rest, operands.gas]
    rfl

omit [WorldState S] [Keccak256] in
/-- The operands of `CALL` and `CALLCODE`. -/
theorem operands_of_callOperands
    (self : CallKind) (carries : self.HasValue) {args : CallOperands}
    (run : callOperands before = .ok args after) :
    self.Operands before args.gas args.addr args.input args.memGas after ∧
      args.value = self.value before := by
  have popped := callOperands_ok run
  obtain ⟨grown, slices⟩ := popped.slice
  refine ⟨⟨Moves.ok run, popped.accessList, popped.base, popped.gas, popped.addr, ?_⟩, ?_⟩
  · simp only [slice, inputIndex, carries, if_true, slices]
  · rw [popped.value, CallKind.value, if_pos carries]

/-- `CALL` and `CALLCODE` differ in what they pay for the value. -/
theorem charged_of_transfer
    (self : CallKind) (carries : self.HasValue) {args : CallOperands}
    {transfer : Exec S Unit} [moves : Moves Quiet transfer] {quota : Gas}
    {first second third : TxExecContext S}
    (operandRun : callOperands before = .ok args first)
    (surcharge : useGasCallCommonBerlin args.addr first = .ok () second)
    (transfers : Procedure.when (args.value ≠ 0) transfer second = .ok () third)
    (quotas : useGasQuota args.gas args.memGas third = .ok quota after)
    (cost : self.value before ≠ 0 → args.addr = target before → before.Quiet second →
      transfer second = .ok () third →
      third.frameGas + self.valueCost before = second.frameGas) :
    self.Charged before
      ⟨args.addr, args.value, args.input, args.retOff, args.retLen, quota⟩ after := by
  obtain ⟨operands, valued⟩ := operands_of_callOperands self carries operandRun
  have toSecond : before.Quiet second :=
    trans_of Quiet operands.quiet (Moves.ok surcharge)
  have toThird : before.Quiet third := trans_of Quiet toSecond (Moves.ok transfers)
  have quiet : before.Quiet after := trans_of Quiet toThird (Moves.ok quotas)
  have paid : third.frameGas + self.valueCost before = second.frameGas := by
    obtain ⟨some, transfers⟩ | ⟨none, still⟩ := when_ok.mp transfers
    · exact cost (valued ▸ some) operands.addr toSecond transfers
    · rw [valueCost, if_pos (not_not.mp (valued ▸ none)), still]
      rfl
  obtain ⟨gas, quota⟩ := operands.pays surcharge paid toThird.curCall.toSame.fork quotas
  exact ⟨quiet, operands.addr, fun _ => valued, congrArg Prod.fst operands.slice, gas,
    quota⟩

instance quiet_useGasCallValue (addr : Addr) :
    Moves Quiet (useGasCallValue addr : Exec S Unit) := by
  unfold useGasCallValue
  infer_instance

theorem charged_call (run : chargeCall before = .ok request after) :
    call.Charged before request after := by
  obtain ⟨args, first, second, third, quota, rfl, operands, surcharge, transfers, quotas⟩ :=
    chargeCall_ok run
  refine charged_of_transfer call trivial operands surcharge transfers quotas ?_
  intro carries addr toSecond transfer
  unfold useGasCallValue at transfer
  obtain ⟨self, _, reads, transfer⟩ := bind_ok.mp transfer
  obtain ⟨rfl, rfl⟩ := Outcome.ok.inj reads
  obtain ⟨_, created, creates, transfer⟩ := bind_ok.mp transfer
  have value := (frameGas_useGas transfer).1
  rw [toSecond.curCall.toSame.fork, toSecond.state, addr] at creates
  unfold valueCost
  rw [if_neg carries]
  obtain ⟨missing, creates⟩ | ⟨present, still⟩ := when_ok.mp creates
  · rw [if_pos ⟨rfl, missing⟩]
    have creation := (frameGas_useGas creates).1
    omega
  · rw [if_neg fun missing => present missing.2]
    rw [still] at value
    omega

theorem charged_callCode (run : chargeCallCode before = .ok request after) :
    callCode.Charged before request after := by
  obtain ⟨args, first, second, third, quota, rfl, operands, surcharge, transfers, quotas⟩ :=
    chargeCallCode_ok run
  refine charged_of_transfer callCode trivial operands surcharge transfers quotas ?_
  intro carries _ _ transfer
  rw [valueCost, if_neg carries, if_neg fun missing => nomatch missing.1]
  exact (frameGas_useGas transfer).1

/-- The payment of an instruction without value. -/
def addressedCharge (base : Fork → Gas) : Exec S CallRequest := do
  let fork ← fork
  useGas (base fork)
  let (gas, addr) ← consume2
  let (inOff, inLen) ← consume2
  let (retOff, retLen) ← consume2
  let (input, memGas) ← getSlice inOff inLen
  let addr := U256.toAddr addr
  useGasCallCommonBerlin addr
  let gasQuota ← useGasQuota gas memGas
  pure ⟨addr, 0, input, retOff, retLen, gasQuota⟩

omit [WorldState S] [Keccak256] in
/-- `DELEGATECALL` keeps the value of its frame. -/
theorem chargeDelegateCall_eq :
    (chargeDelegateCall : Exec S CallRequest) = (do
      requireFork .homestead
      requireDepth
      let request ← addressedCharge callBaseGas
      let call ← Exec.call
      pure { request with value := call.value }) := by
  simp only [chargeDelegateCall, addressedCharge, useGasDelegateCall,
    Procedure.bind_assoc, Procedure.pure_bind]

omit [WorldState S] [Keccak256] in
/-- `STATICCALL` has no value. -/
theorem chargeStaticCall_eq :
    (chargeStaticCall : Exec S CallRequest) = (do
      requireFork .byzantium
      requireDepth
      addressedCharge (fun fork => if fork ≥ .berlin then gasWarmStorageReadCostBerlin
        else gasCallTangerine)) := by
  simp only [chargeStaticCall, addressedCharge, useGasStaticCall,
    Procedure.bind_assoc]

/-- An instruction without value pays its base cost, the access of the account and
the gas for it. -/
theorem charged_addressed
    (self : CallKind) (plain : ¬self.HasValue) {base : Fork → Gas}
    (agrees : base before.curCall.fork = callBaseGas before.curCall.fork)
    (run : addressedCharge base before = .ok request after) :
    self.Charged before request after := by
  unfold addressedCharge at run
  obtain ⟨fork, start, forkRun, run⟩ := bind_ok.mp run
  obtain ⟨rfl, rfl⟩ := Outcome.ok.inj forkRun
  obtain ⟨_, paid, gasRun, run⟩ := bind_ok.mp run
  obtain ⟨⟨gas, addr⟩, first, firstRun, run⟩ := bind_ok.mp run
  obtain ⟨⟨inOff, inLen⟩, second, secondRun, run⟩ := bind_ok.mp run
  obtain ⟨⟨retOff, retLen⟩, third, thirdRun, run⟩ := bind_ok.mp run
  obtain ⟨⟨input, memGas⟩, fourth, sliceRun, run⟩ := bind_ok.mp run
  obtain ⟨_, accessed, surcharge, run⟩ := bind_ok.mp run
  obtain ⟨quota, last, quotas, run⟩ := bind_ok.mp run
  obtain ⟨rfl, rfl⟩ := Outcome.ok.inj run
  obtain ⟨spent, list, -, stack, memory⟩ := frameGas_useGas gasRun
  have paying : before.Quiet paid := Moves.ok gasRun
  have quiet : before.Quiet fourth :=
    trans_of Quiet (trans_of Quiet (trans_of Quiet (trans_of Quiet paying
      (Moves.ok firstRun)) (Moves.ok secondRun)) (Moves.ok thirdRun)) (Moves.ok sliceRun)
  have toAccessed : before.Quiet accessed := trans_of Quiet quiet (Moves.ok surcharge)
  obtain ⟨rfl, rfl, popFirst⟩ := consume2_ok firstRun
  obtain ⟨rfl, rfl, popSecond⟩ := consume2_ok secondRun
  obtain ⟨rfl, rfl, popThird⟩ := consume2_ok thirdRun
  obtain ⟨grown, slices, grows⟩ := onMemory_ok sliceRun
  rw [popThird, popSecond, popFirst] at grows slices
  rw [agrees] at spent
  have sameSlice :
      Memory.getSlice (operand before 2) (operand before 3)
        before.curCall.memory = .ok (input, memGas) grown := by
    simpa only [popped, operand, Stack.word_drop, stack, memory] using slices
  have operands : self.Operands before (operand paid 0) (U256.toAddr (operand paid 1))
      input memGas fourth := by
    refine ⟨quiet, grows ▸ list, grows ▸ spent, ?_, ?_, ?_⟩
    · simp only [operand, stack]
    · simp only [target, operand, stack]
    · simp only [slice, inputIndex, plain, if_false, sameSlice]
  have none : self.value before = 0 := if_neg plain
  have free : self.valueCost before = 0 := if_pos none
  obtain ⟨gas, capped⟩ := operands.pays surcharge (by rw [free, Nat.add_zero])
    toAccessed.curCall.toSame.fork quotas
  exact ⟨trans_of Quiet toAccessed (Moves.ok quotas), operands.addr,
    fun carries => absurd carries plain, congrArg Prod.fst operands.slice, gas, capped⟩

theorem charged_delegateCall (run : chargeDelegateCall before = .ok request after) :
    delegateCall.Charged before request after := by
  rw [chargeDelegateCall_eq] at run
  obtain ⟨-, run⟩ := requireFork_bind_ok run
  obtain ⟨-, run⟩ := requireDepth_bind_ok run
  obtain ⟨asked, charged, charges, run⟩ := bind_ok.mp run
  replace run := reads_bind_ok.mp run
  obtain ⟨rfl, rfl⟩ := Outcome.ok.inj run
  obtain ⟨quiet, addr, -, input, gas, quota⟩ :=
    charged_addressed delegateCall id rfl charges
  exact ⟨quiet, addr, fun carries => carries.elim, input, gas, quota⟩

theorem charged_staticCall (run : chargeStaticCall before = .ok request after) :
    staticCall.Charged before request after := by
  rw [chargeStaticCall_eq] at run
  obtain ⟨byzantium, run⟩ := requireFork_bind_ok run
  obtain ⟨-, charges⟩ := requireDepth_bind_ok run
  refine charged_addressed staticCall id ?_ charges
  have since : before.curCall.fork ≥ .tangerineWhistle :=
    le_trans (by decide) byzantium
  simp only [callBaseGas, since, if_true]

/-- Every call of an account pays for itself. -/
theorem charged (self : CallKind) (run : self.charge before = .ok request after) :
    self.Charged before request after := by
  cases self with
  | call => exact charged_call run
  | callCode => exact charged_callCode run
  | delegateCall => exact charged_delegateCall run
  | staticCall => exact charged_staticCall run

/-- What an instruction does once it is paid for. -/
def start (self : CallKind) (request : CallRequest) : Exec S (Tail S) :=
  match self with
  | call => do
      let caller ← Procedure.reads fun self => self.curCall.callee
      let snapshot ← takeSnapshot
      callEffect request.addr caller request.input (addStipend request)
        request.value (.call ⟨some snapshot, request.retOff, request.retLen⟩)
  | callCode => do
      let callee ← Procedure.reads fun self => self.curCall.callee
      let snapshot ← takeSnapshot
      let balance ← readState (getBalance · callee)
      Procedure.raiseIf (balance < request.value) .insufficientBalance
      enterEffect request.addr request.input request.value callee callee
        ⟨some snapshot, request.retOff, request.retLen⟩ (addStipend request) false
  | delegateCall => do
      let call ← Exec.call
      let snapshot ← takeSnapshot
      enterEffect request.addr request.input request.value call.callee call.caller
        ⟨some snapshot, request.retOff, request.retLen⟩ request.gasQuota false
  | staticCall => do
      let caller ← Procedure.reads fun self => self.curCall.callee
      enterEffect request.addr request.input request.value request.addr caller
        ⟨none, request.retOff, request.retLen⟩ request.gasQuota true

/-- An instruction pays, and then starts the call. -/
theorem effect_eq (self : CallKind) :
    (effect self.inst : Exec S (Tail S)) = self.charge >>= self.start := by
  cases self <;> rfl

/-- The gas that the called account gets. -/
def given (self : CallKind) (request : CallRequest) : Gas :=
  if self.HasValue then addStipend request else request.gasQuota

end CallKind

/-! ### Starting the call -/

/-- The last action of a call: a precompiled contract runs without a frame, code runs
in a new frame, or the call is settled because there is nothing to run. -/
inductive Tail.Visits (mayBeEmpty : Prop) (args : CallType S) :
    Option PrecompiledContract → (input : Bytes) → (gas : Gas) → Tail S → Prop
  | precompiled {contract : PrecompiledContract} {input : Bytes} {gas : Gas} :
      Visits mayBeEmpty args (some contract) input gas
        (.settle args (contract input).1 gas (contract input).2)
  | code {code : Code} {input : Bytes} {gas : Gas} {value : Wei}
      {callee caller : Addr} {readOnly : Bool} :
      Visits mayBeEmpty args none input gas
        (.enter code input value callee caller args gas readOnly)
  | nothing {input : Bytes} {gas : Gas} (permitted : mayBeEmpty) :
      Visits mayBeEmpty args none input gas (.settle args [] gas (.ok ()))

/-- Whatever is run gets the gas. -/
theorem Tail.Visits.gas
    {mayBeEmpty : Prop} {args : CallType S} {contract : Option PrecompiledContract}
    {input : Bytes} {gas : Gas} {tail : Tail S}
    (visits : tail.Visits mayBeEmpty args contract input gas) :
    tail.gas = gas.toNat := by
  cases visits <;> rfl

/-- The executing frame and the environment are kept. -/
def TxExecContext.KeepsFrame (before after : TxExecContext S) : Prop :=
  after.curCall = before.curCall ∧ after.env = before.env

instance : IsPreorder (TxExecContext S) KeepsFrame where
  refl _ := ⟨rfl, rfl⟩
  trans _ _ _ left right := ⟨right.1.trans left.1, right.2.trans left.2⟩

namespace Exec

instance keepsFrame_writeState (change : S → S) :
    Moves KeepsFrame (writeState change) :=
  Moves.update fun _ => ⟨rfl, rfl⟩

instance keepsFrame_markDirty (addr : Addr) :
    Moves KeepsFrame (markDirty addr : Exec S Unit) :=
  Moves.update fun _ => ⟨rfl, rfl⟩

instance keepsFrame_addAddr (addr : Addr) :
    Moves KeepsFrame (addAddr addr : Exec S Unit) :=
  Moves.update fun _ => ⟨rfl, rfl⟩

variable [WorldState S]

instance keepsFrame_takeSnapshot : Moves KeepsFrame (takeSnapshot : Exec S S) :=
  ⟨fun _ => ⟨rfl, rfl⟩⟩

instance keepsFrame_transfer (sender recipient : Addr) (value : Wei) :
    Moves KeepsFrame (transfer sender recipient value : Exec S Unit) := by
  refine ⟨fun context => ?_⟩
  unfold wp transfer
  obtain ⟨state, result⟩ :=
    transferBalance context.state sender recipient value
  cases result with
  | none => trivial
  | some _ => exact ⟨rfl, rfl⟩

variable [Keccak256]

instance keepsFrame_fundCall (callee caller : Addr) (value : Wei) :
    Moves KeepsFrame (fundCall callee caller value : Exec S Unit) := by
  unfold fundCall
  infer_instance

instance keepsFrame_admitCall (callee caller : Addr) (value : Wei) :
    Moves KeepsFrame (admitCall callee caller value : Exec S Unit) := by
  unfold admitCall
  infer_instance

instance keepsFrame_openCreate (contractAddr caller : Addr) (value : Wei) :
    Moves KeepsFrame (openCreate contractAddr caller value : Exec S Unit) := by
  unfold openCreate
  infer_instance

omit [Keccak256] in
/-- A message call runs the precompiled contract of its callee, or the code of the
callee if it has any. -/
theorem callEffect_visits
    {callee caller : Addr} {input : Bytes} {gas : Gas} {value : Wei}
    {args : CallType S} {tail : Tail S}
    (run : callEffect callee caller input gas value args before = .ok tail after) :
    before.KeepsFrame after ∧
      tail.Visits True args (before.env.precompiledContracts.lookup callee) input
        gas := by
  unfold callEffect at run
  obtain ⟨_, admitted, admits, run⟩ := bind_ok.mp run
  replace run := reads_bind_ok.mp run
  have keeps : before.KeepsFrame admitted := Moves.ok admits
  rw [← keeps.2]
  split at run
  · rename_i nothing
    obtain ⟨rfl, rfl⟩ := Outcome.ok.inj run
    refine ⟨keeps, ?_⟩
    rw [Option.isNone_iff_eq_none.mp nothing.2.1]
    exact .nothing trivial
  · obtain ⟨_, funded, funds, run⟩ := bind_ok.mp run
    have paid : before.KeepsFrame funded := trans_of KeepsFrame keeps (Moves.ok funds)
    cases registered : admitted.env.precompiledContracts.lookup callee with
    | some contract =>
        rw [registered] at run
        obtain ⟨rfl, rfl⟩ := Outcome.ok.inj run
        exact ⟨paid, .precompiled⟩
    | none =>
        rw [registered] at run
        have chooses := reads_bind_ok.mp run
        obtain ⟨rfl, rfl⟩ := Outcome.ok.inj chooses
        refine ⟨paid, ?_⟩
        split
        · exact .code
        · exact .nothing trivial

omit [Keccak256] in
/-- The other calls run the precompiled contract of the account that they run for, or
the code they are given. -/
theorem enterEffect_visits
    {codeAddr : Addr} {input : Bytes} {value : Wei} {callee caller : Addr}
    {args : CallArgs S} {gas : Gas} {readOnly : Bool} {tail : Tail S}
    (run : enterEffect codeAddr input value callee caller args gas readOnly before =
      .ok tail after) :
    after = before ∧
      tail.Visits False (.call args) (before.env.precompiledContracts.lookup callee)
        input gas := by
  unfold enterEffect at run
  have enters := reads_bind_ok.mp run
  obtain ⟨rfl, rfl⟩ := Outcome.ok.inj enters
  refine ⟨rfl, ?_⟩
  cases before.env.precompiledContracts.lookup callee with
  | some contract => exact .precompiled
  | none => exact .code

end Exec

namespace CallKind

variable [WorldState S] [Keccak256] {request : CallRequest} {tail : Tail S}

/-- The account at which an instruction looks for a precompiled contract: `CALLCODE`
and `DELEGATECALL` look at the executing contract. -/
def precompileAt (self : CallKind) (context : TxExecContext S) : Addr :=
  match self with
  | call | staticCall => target context
  | callCode | delegateCall => context.curCall.callee

/-- Starting a paid call keeps the executing frame and hands the given gas to a
precompiled contract, to a new frame, or back when there is nothing to run. -/
theorem start_ok
    (self : CallKind) {paid : TxExecContext S}
    (charges : self.Charged before request paid)
    (run : self.start request paid = .ok tail after) :
    paid.KeepsFrame after ∧ ∃ args,
      tail.Visits (self = call) (.call args)
        (before.env.precompiledContracts.lookup (self.precompileAt before))
        (self.input before) (self.given request) := by
  have env : paid.env = before.env := charges.quiet.env
  have callee : paid.curCall.callee = before.curCall.callee :=
    charges.quiet.curCall.toSame.callee
  cases self with
  | call =>
      replace run := reads_bind_ok.mp run
      obtain ⟨saved, snapped, snaps, run⟩ := bind_ok.mp run
      have snap : paid.KeepsFrame snapped := Moves.ok snaps
      obtain ⟨keeps, visits⟩ := callEffect_visits run
      rw [snap.2, env, charges.addr, charges.input] at visits
      refine ⟨trans_of KeepsFrame snap keeps,
        ⟨some saved, request.retOff, request.retLen⟩, ?_⟩
      simpa [precompileAt, given, HasValue] using visits
  | callCode =>
      replace run := reads_bind_ok.mp run
      obtain ⟨saved, snapped, snaps, run⟩ := bind_ok.mp run
      have snap : paid.KeepsFrame snapped := Moves.ok snaps
      replace run := reads_bind_ok.mp run
      obtain ⟨_, _, checks, enters⟩ := bind_ok.mp run
      obtain ⟨-, rfl⟩ := raiseIf_ok.mp checks
      obtain ⟨rfl, visits⟩ := enterEffect_visits enters
      simp only [snap.2, env, charges.input] at visits
      rw [callee] at visits
      refine ⟨snap, ⟨some saved, request.retOff, request.retLen⟩, ?_⟩
      simpa [precompileAt, given, HasValue] using visits
  | delegateCall =>
      replace run := reads_bind_ok.mp run
      obtain ⟨saved, snapped, snaps, run⟩ := bind_ok.mp run
      have snap : paid.KeepsFrame snapped := Moves.ok snaps
      obtain ⟨rfl, visits⟩ := enterEffect_visits run
      simp only [snap.2, env, charges.input] at visits
      rw [callee] at visits
      refine ⟨snap, ⟨some saved, request.retOff, request.retLen⟩, ?_⟩
      simpa [precompileAt, given, HasValue] using visits
  | staticCall =>
      replace run := reads_bind_ok.mp run
      obtain ⟨rfl, visits⟩ := enterEffect_visits run
      rw [env, charges.addr, charges.input] at visits
      refine ⟨refl_of KeepsFrame _, ⟨none, request.retOff, request.retLen⟩, ?_⟩
      simpa [precompileAt, given, HasValue] using visits

/-- The effect of a call: a payment and a last action. -/
theorem effect_ok
    (self : CallKind) (run : effect self.inst before = .ok tail after) :
    ∃ request paid args, self.Charged before request paid ∧ paid.KeepsFrame after ∧
      tail.Visits (self = call) (.call args)
        (before.env.precompiledContracts.lookup (self.precompileAt before))
        (self.input before) (self.given request) := by
  rw [self.effect_eq] at run
  obtain ⟨request, paid, pays, starts⟩ := bind_ok.mp run
  have charges := self.charged pays
  obtain ⟨keeps, args, visits⟩ := self.start_ok charges starts
  exact ⟨request, paid, args, charges, keeps, visits⟩

end CallKind
end Qevm
