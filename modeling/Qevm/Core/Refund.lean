import Qevm.Core.Panics
import Qevm.Core.Seen
import Qevm.Logic.Coverage

/-!
# The refund counter

Only `SSTORE` and `SELFDESTRUCT` change the refund counter.  From Istanbul on, both
ways of metering `SSTORE` compare the value of a slot at the start of the block with
the one it has and the one it gets: a refund is given for clearing a slot and taken
back for setting it again.
-/

set_option synthInstance.maxSize 100000

namespace Qevm

open Params WorldState TxExecContext
open Procedure (Permits Panics)

variable {S : Type}

/-- The refund counter is kept. -/
def TxExecContext.KeepsRefund (before after : TxExecContext S) : Prop :=
  after.refund = before.refund

/-- The panics other than that of the refund counter. -/
def OffRefund (reason : Panic) : Prop := reason ≠ .refundBelowZero

/-- The largest refund that one instruction gives. -/
def maxRefund : Nat := gasSelfDestructRefund.toNat

/-- Another refund fits the counter. -/
def TxExecContext.HasRoom (context : TxExecContext S) : Prop :=
  context.refund.toNat + maxRefund < 2 ^ 64

instance (context : TxExecContext S) : Decidable context.HasRoom :=
  inferInstanceAs (Decidable (_ < _))

/-- The refund for clearing a slot. -/
def clearingRefund (fork : Fork) : UInt64 :=
  if fork ≥ .london then gasSstoreRefundLondon else gasSstoreRefundIstanbul

namespace Exec

instance : PermitsPlain OffRefund := by
  constructor <;> simp [OffRefund]

instance : Permits OffRefund .transferFailed := ⟨by simp [OffRefund]⟩
instance : Permits OffRefund .callStackEmpty := ⟨by simp [OffRefund]⟩
instance : Permits OffRefund .callStackNotEmpty := ⟨by simp [OffRefund]⟩
instance : Permits OffRefund .unreachable := ⟨by simp [OffRefund]⟩

/-! ### Work that keeps the counter -/

instance : IsPreorder (TxExecContext S) KeepsRefund where
  refl _ := rfl
  trans _ _ _ left right := Eq.trans right left

instance (priority := low) keepsRefund_of_continues
    (program : Exec S α) [continues : Procedure.Moves Continues program] :
    Procedure.Moves KeepsRefund program :=
  continues.mono fun _ _ work => work.refund

instance keepsRefund_writeState (change : S → S) :
    Procedure.Moves KeepsRefund (writeState change) :=
  Procedure.Moves.update fun _ => rfl

instance keepsRefund_markDirty (addr : Addr) :
    Procedure.Moves KeepsRefund (markDirty addr : Exec S Unit) :=
  Procedure.Moves.update fun _ => rfl

instance keepsRefund_markDestroyed (addr : Addr) :
    Procedure.Moves KeepsRefund (markDestroyed addr : Exec S Unit) :=
  Procedure.Moves.update fun _ => rfl

variable [WorldState S]

instance keepsRefund_takeSnapshot :
    Procedure.Moves KeepsRefund (takeSnapshot : Exec S S) := ⟨fun _ => rfl⟩

instance keepsRefund_transfer (sender recipient : Addr) (value : Wei) :
    Procedure.Moves KeepsRefund
      (transfer sender recipient value : Exec S Unit) :=
  ⟨fun _ => (wp_transfer sender recipient value).mpr fun _ => rfl⟩

instance keepsRefund_log (num : Nat) :
    Procedure.Moves KeepsRefund (log num : Exec S Unit) := by
  unfold log appendLog
  infer_instance

instance keepsRefund_sweep (callee beneficiary : Addr) :
    Procedure.Moves KeepsRefund (sweep callee beneficiary : Exec S Unit) :=
  keepsRefund_writeState _

variable [Keccak256]

instance keepsRefund_enterEffect
    (codeAddr : Addr) (input : Bytes) (value : Wei) (callee caller : Addr)
    (args : CallArgs S) (gas : Gas) (readOnly : Bool) :
    Procedure.Moves KeepsRefund
      (enterEffect codeAddr input value callee caller args gas readOnly) := by
  unfold enterEffect
  infer_instance

instance keepsRefund_createEffect
    (contractAddr caller : Addr) (code : Bytes) (value : Wei) (gas : Gas)
    (args : CallType S) :
    Procedure.Moves KeepsRefund
      (createEffect contractAddr caller code value gas args) := by
  unfold createEffect openCreate
  infer_instance

instance keepsRefund_callEffect
    (callee caller : Addr) (input : Bytes) (gas : Gas) (value : Wei)
    (args : CallType S) :
    Procedure.Moves KeepsRefund
      (callEffect callee caller input gas value args) := by
  refine moves_callEffect ?_ ?_ ?_
  · unfold admitCall
    infer_instance
  · unfold fundCall
    infer_instance
  · unfold runCodeEffect
    infer_instance

/-- Only `SSTORE` and `SELFDESTRUCT` change the refund counter. -/
theorem keepsRefund_effect {inst : Inst}
    (noStore : inst.opcode ≠ .sstore) (noDestruction : inst.opcode ≠ .selfDestruct) :
    Procedure.Moves KeepsRefund (effect inst : Exec S (Tail S)) := by
  by_cases plain : inst.opcode.isPlain
  · have quiet : Procedure.Moves Quiet (effect inst : Exec S (Tail S)) :=
      quiet_effect plain
    infer_instance
  · obtain ⟨opcode, data, pos⟩ := inst
    cases opcode <;> simp only [Opcode.isPlain, not_true_eq_false] at plain <;>
      simp only [ne_eq, not_true_eq_false] at noStore noDestruction <;>
      simp only [effect, dispatch, createBeginEffect, create2BeginEffect,
        callBeginEffect, callCodeBeginEffect, delegateCallBeginEffect,
        staticCallBeginEffect] <;>
      infer_instance

/-! ### The refund of `SELFDESTRUCT` -/

omit [WorldState S] [Keccak256] in
/-- A refund that fits the counter makes it larger. -/
theorem toNat_add_refund
    {refund gas : UInt64} (room : refund.toNat + maxRefund < 2 ^ 64)
    (small : gas.toNat ≤ maxRefund) :
    (refund + gas).toNat = refund.toNat + gas.toNat := by
  rw [UInt64.toNat_add]
  apply Nat.mod_eq_of_lt
  omega

variable {before after : TxExecContext S}

/-- `SELFDESTRUCT` does not take from the counter. -/
theorem useGasSelfDestruct_refund
    {call : CallFrame S} {beneficiary : Addr} (room : before.HasRoom)
    (run : useGasSelfDestruct call beneficiary before = .ok () after) :
    before.refund.toNat ≤ after.refund.toNat := by
  unfold useGasSelfDestruct at run
  obtain ⟨_, paid, pays, run⟩ := Procedure.bind_ok.mp run
  replace run := Procedure.reads_bind_ok.mp run
  have first : before.KeepsRefund paid := Procedure.Moves.ok pays
  split at run
  all_goals
    obtain ⟨_, charged, charges, run⟩ := Procedure.bind_ok.mp run
    have second : paid.KeepsRefund charged := Procedure.Moves.ok charges
    have kept : charged.refund = before.refund := second.trans first
    obtain ⟨-, run⟩ | ⟨-, rfl⟩ := Procedure.when_ok.mp run
    · obtain ⟨-, rfl⟩ := Outcome.ok.inj run
      change _ ≤ (charged.refund + gasSelfDestructRefund).toNat
      rw [kept, toNat_add_refund room (Nat.le_refl _)]
      exact Nat.le_add_right _ _
    · rw [kept]

theorem destroy_refund
    (room : before.HasRoom) (run : destroy before = .ok () after) :
    before.refund.toNat ≤ after.refund.toNat := by
  unfold destroy at run
  replace run := Procedure.reads_bind_ok.mp run
  obtain ⟨_, checked, checks, run⟩ := Procedure.bind_ok.mp run
  obtain ⟨_, popped, pops, run⟩ := Procedure.bind_ok.mp run
  replace run := Procedure.reads_bind_ok.mp run
  obtain ⟨_, warm, warms, run⟩ := Procedure.bind_ok.mp run
  obtain ⟨_, paid, pays, run⟩ := Procedure.bind_ok.mp run
  have first : KeepsRefund _ checked := Procedure.Moves.ok checks
  have second : checked.KeepsRefund popped := Procedure.Moves.ok pops
  have third : popped.KeepsRefund warm := Procedure.Moves.ok warms
  have last : paid.KeepsRefund after := Procedure.Moves.ok run
  have kept := (third.trans second).trans first
  rw [last, ← kept]
  obtain ⟨-, pays⟩ | ⟨-, rfl⟩ := Procedure.when_ok.mp pays
  · apply useGasSelfDestruct_refund _ pays
    unfold HasRoom
    rw [kept]
    exact room
  · exact Nat.le_refl _

/-- An instruction other than `SSTORE` does not take from the counter. -/
theorem effect_refund
    {inst : Inst} {tail : Tail S} (noStore : inst.opcode ≠ .sstore)
    (room : before.HasRoom) (run : effect inst before = .ok tail after) :
    before.refund.toNat ≤ after.refund.toNat := by
  by_cases destroys : inst.opcode = .selfDestruct
  · obtain ⟨opcode, data, pos⟩ := inst
    obtain rfl : opcode = .selfDestruct := destroys
    obtain ⟨_, _, destroyed, last⟩ := Procedure.bind_ok.mp run
    obtain ⟨-, rfl⟩ := Outcome.ok.inj last
    exact destroy_refund room destroyed
  · have keeps : Procedure.Moves KeepsRefund (effect inst : Exec S (Tail S)) :=
      keepsRefund_effect noStore destroys
    have kept : before.KeepsRefund after := keeps.ok run
    rw [kept]

/-! ### The refund of `SSTORE` -/

/-- What the metering of `SSTORE` gives and charges from Istanbul on. -/
structure StoreRates where
  /-- For clearing a slot. -/
  clearing : UInt64
  /-- For clearing a slot that was clear at the start of the block. -/
  clearAgain : UInt64
  /-- For giving a slot the word back that it had at the start of the block. -/
  setBack : UInt64
  keep : Gas
  create : Gas
  change : Gas
  changeAgain : Gas

/-- The refunds for one slot are no larger than the one for a self-destruction. -/
structure StoreRates.Small (rates : StoreRates) : Prop where
  clearing : rates.clearing.toNat ≤ maxRefund
  clearAgain : rates.clearAgain.toNat ≤ maxRefund
  setBack : rates.setBack.toNat ≤ maxRefund

/-- Give and take back the refunds for a slot that has been written before. -/
def adjustRefund (rates : StoreRates) (orig cur val : U256) : Exec S Unit := do
  Procedure.when (orig ≠ 0) do
    if cur = 0 then
      subRefund rates.clearing
    else
      Procedure.when (val = 0) (addRefund rates.clearing)
  Procedure.when (orig = val)
    (addRefund (if orig = 0 then rates.clearAgain else rates.setBack))

/-- The metering of `SSTORE` that is common to the forks from Istanbul on. -/
def meterStore
    (rates : StoreRates) (callee : Addr) (key : Hash) (val : U256) :
    Exec S Unit := do
  let cur ← readState (getState · callee key)
  if cur = val then
    useGas rates.keep
  else
    let orig ← Procedure.reads fun self => getState self.committedState callee key
    if orig = cur then
      if orig = 0 then
        useGas rates.create
      else
        Procedure.when (val = 0) (addRefund rates.clearing)
        useGas rates.change
    else
      adjustRefund rates orig cur val
      useGas rates.changeAgain

def ratesIstanbul : StoreRates where
  clearing := gasSstoreRefundIstanbul
  clearAgain := gasSstoreSetIstanbul - gasSloadIstanbul
  setBack := gasSstoreResetIstanbul - gasSloadIstanbul
  keep := gasSloadIstanbul
  create := gasSstoreSetIstanbul
  change := gasSstoreResetIstanbul
  changeAgain := gasSloadIstanbul

/-- The cost of the first access to a slot is added to every charge. -/
def ratesBerlin (clearing : UInt64) (cost : Gas) : StoreRates where
  clearing := clearing
  clearAgain := gasSstoreSetIstanbul - gasWarmStorageReadCostBerlin
  setBack :=
    gasSstoreResetIstanbul - gasColdSloadCostBerlin - gasWarmStorageReadCostBerlin
  keep := cost + gasWarmStorageReadCostBerlin
  create := cost + gasSstoreSetIstanbul
  change := cost + (gasSstoreResetIstanbul - gasColdSloadCostBerlin)
  changeAgain := cost + gasWarmStorageReadCostBerlin

omit [Keccak256] in
theorem sstoreIstanbulGas_eq (key : Hash) (val : U256) :
    (sstoreIstanbulGas key val : Exec S Unit) = (do
      let call ← call
      Procedure.raiseIf (call.unusedGas ≤ gasSstoreSentryIstanbul) .outOfGas
      meterStore ratesIstanbul call.callee key val) := by
  simp only [sstoreIstanbulGas, meterStore, adjustRefund, ratesIstanbul,
    Procedure.bind_assoc]

omit [Keccak256] in
theorem sstoreBerlinLondonGas_eq (key : Hash) (val : U256) (clearing : UInt64) :
    (sstoreBerlinLondonGas key val clearing : Exec S Unit) = (do
      let call ← call
      Procedure.raiseIf (call.unusedGas ≤ gasSstoreSentryIstanbul) .outOfGas
      let (addrExist, slotExist) ← accessed call.callee key
      Procedure.when (!slotExist) do
        addSlot call.callee key
        Procedure.abortIf (!addrExist) .addrNotInAccessList
      let cost : Gas := if slotExist then 0 else gasColdSloadCostBerlin
      meterStore (ratesBerlin clearing cost) call.callee key val) := by
  simp only [sstoreBerlinLondonGas, meterStore, adjustRefund, ratesBerlin,
    Procedure.bind_assoc]

/-- The counter pays for a slot that is cleared, and is paid at most for one that is
set again. -/
def Metered (clearing : Nat) (orig cur val : U256) (count next : Nat) : Prop :=
  count + (if orig ≠ 0 ∧ val = 0 then clearing else 0) ≤
    next + (if orig ≠ 0 ∧ cur = 0 then clearing else 0)

omit [Keccak256] in
theorem smallIstanbul : ratesIstanbul.Small := by
  constructor <;> decide

omit [Keccak256] in
theorem smallBerlin {clearing : UInt64} (cost : Gas)
    (small : clearing.toNat ≤ maxRefund) : (ratesBerlin clearing cost).Small := by
  refine ⟨small, ?_, ?_⟩ <;> simp only [ratesBerlin] <;> decide

omit [Keccak256] in
theorem clearingRefund_le (fork : Fork) : (clearingRefund fork).toNat ≤ maxRefund := by
  unfold clearingRefund
  split <;> decide

variable {rates : StoreRates} {orig cur val : U256}

omit [WorldState S] [Keccak256] in
/-- A refund that is given makes the counter larger. -/
theorem addRefund_ok
    {gas : UInt64} (room : before.HasRoom) (small : gas.toNat ≤ maxRefund)
    (run : addRefund gas before = .ok () after) :
    after.refund.toNat = before.refund.toNat + gas.toNat := by
  obtain ⟨-, rfl⟩ := Outcome.ok.inj run
  exact toNat_add_refund room small

omit [WorldState S] [Keccak256] in
/-- A refund that is taken back was there. -/
theorem subRefund_ok
    {gas : UInt64} (run : subRefund gas before = .ok () after) :
    after.refund.toNat + gas.toNat = before.refund.toNat := by
  unfold subRefund at run
  split at run
  · contradiction
  · rename_i enough
    obtain ⟨-, rfl⟩ := Outcome.ok.inj run
    have le : gas ≤ before.refund := UInt64.not_lt.mp enough
    change (before.refund - gas).toNat + gas.toNat = _
    rw [UInt64.toNat_sub_of_le _ _ le]
    exact Nat.sub_add_cancel (UInt64.le_iff_toNat_le.mp le)

omit [WorldState S] [Keccak256] in
/-- The refunds for a slot that has been written before pay for what becomes of it. -/
theorem adjustRefund_ok
    (small : rates.Small) (room : before.HasRoom) (changes : cur ≠ val)
    (run : adjustRefund rates orig cur val before = .ok () after) :
    Metered rates.clearing.toNat orig cur val before.refund.toNat
      after.refund.toNat := by
  obtain ⟨_, middle, first, second⟩ := Procedure.bind_ok.mp run
  have back : orig ≠ val ∧ after = middle ∨
      orig = val ∧ (middle.HasRoom → middle.refund.toNat ≤ after.refund.toNat) := by
    obtain ⟨same, gives⟩ | ⟨other, rfl⟩ := Procedure.when_ok.mp second
    · refine .inr ⟨same, fun room => ?_⟩
      rw [addRefund_ok room _ gives]
      · exact Nat.le_add_right _ _
      · split
        · exact small.clearAgain
        · exact small.setBack
    · exact .inl ⟨other, rfl⟩
  have grows (room : middle.HasRoom) : middle.refund.toNat ≤ after.refund.toNat := by
    obtain ⟨-, rfl⟩ | ⟨-, grows⟩ := back
    · exact Nat.le_refl _
    · exact grows room
  unfold Metered
  obtain ⟨was, first⟩ | ⟨was, rfl⟩ := Procedure.when_ok.mp first
  · split at first
    · rename_i clear
      have paid := subRefund_ok first
      have less : middle.refund.toNat ≤ after.refund.toNat := by
        apply grows
        unfold HasRoom at room ⊢
        omega
      have set : val ≠ 0 := fun clears => changes (clear.trans clears.symm)
      simp only [was, clear, set, ne_eq, not_false_eq_true, and_self, and_false,
        if_true, if_false]
      omega
    · rename_i set
      obtain ⟨clears, first⟩ | ⟨sets, rfl⟩ := Procedure.when_ok.mp first
      · have paid := addRefund_ok room small.clearing first
        obtain ⟨-, rfl⟩ | ⟨same, -⟩ := back
        · simp only [was, set, clears, ne_eq, not_false_eq_true, and_self, and_false,
            if_true, if_false]
          omega
        · exact absurd (same.trans clears) was
      · have less := grows room
        simp only [set, sets, and_false, if_false]
        exact less
  · have less := grows room
    simp only [was, false_and, if_false]
    exact less

omit [Keccak256] in
/-- The metering of `SSTORE` pays for what becomes of the slot. -/
theorem meterStore_ok
    {callee : Addr} {key : Hash} (small : rates.Small) (room : before.HasRoom)
    (run : meterStore rates callee key val before = .ok () after) :
    Metered rates.clearing.toNat (getState before.committedState callee key)
      (getState before.state callee key) val before.refund.toNat
      after.refund.toNat := by
  have charged {gas : Gas} {first last : TxExecContext S}
      (run : useGas gas first = .ok () last) : last.refund = first.refund := by
    have kept : first.KeepsRefund last := Procedure.Moves.ok run
    exact kept
  unfold meterStore at run
  replace run := Procedure.reads_bind_ok.mp run
  split at run
  · rename_i same
    change getState before.state callee key = val at same
    rw [Metered, charged run, same]
  rename_i changes
  replace run := Procedure.reads_bind_ok.mp run
  split at run
  · rename_i untouched
    change getState before.committedState callee key =
      getState before.state callee key at untouched
    split at run
    · rename_i clear
      rw [Metered, charged run]
      simp [clear]
    · rename_i set
      change getState before.committedState callee key ≠ 0 at set
      obtain ⟨_, paid, pays, run⟩ := Procedure.bind_ok.mp run
      rw [Metered, charged run, ← untouched]
      obtain ⟨clears, pays⟩ | ⟨sets, rfl⟩ := Procedure.when_ok.mp pays
      · rw [addRefund_ok room small.clearing pays]
        simp only [set, clears, ne_eq, not_false_eq_true, and_self, and_false,
          if_true, if_false]
        omega
      · simp only [set, sets, and_false, if_false]
        exact Nat.le_refl _
  · obtain ⟨_, adjusted, adjusts, run⟩ := Procedure.bind_ok.mp run
    rw [charged run]
    exact adjustRefund_ok small room changes adjusts

/-! ### When taking a refund back panics -/

omit [WorldState S] [Keccak256] in
/-- Only setting a cleared slot again may make the counter panic. -/
theorem adjustRefund_panic
    {reason : Panic} (enough : orig ≠ 0 → cur = 0 → rates.clearing ≤ before.refund)
    (run : adjustRefund rates orig cur val before = .panic reason) :
    OffRefund reason := by
  obtain first | ⟨_, middle, -, second⟩ := Procedure.bind_panic.mp run
  · obtain ⟨was, first⟩ := Procedure.when_panic.mp first
    split at first
    · rename_i clear
      have le := UInt64.not_lt.mpr (enough was clear)
      simp [subRefund, le] at first
    · exact (panics_addRefund _).holds (Procedure.when_panic.mp first).2
  · exact (panics_addRefund _).holds (Procedure.when_panic.mp second).2

omit [Keccak256] in
theorem meterStore_panic
    {callee : Addr} {key : Hash} {reason : Panic}
    (enough : getState before.committedState callee key ≠ 0 →
      getState before.state callee key = 0 → rates.clearing ≤ before.refund)
    (run : meterStore rates callee key val before = .panic reason) :
    OffRefund reason := by
  unfold meterStore at run
  obtain run | ⟨cur, _, reads, run⟩ := Procedure.bind_panic.mp run
  · contradiction
  obtain ⟨rfl, rfl⟩ := Outcome.ok.inj reads
  split at run
  · exact (panics_useGas _).holds run
  obtain run | ⟨orig, _, reads, run⟩ := Procedure.bind_panic.mp run
  · contradiction
  obtain ⟨rfl, rfl⟩ := Outcome.ok.inj reads
  split at run
  · split at run
    · exact (panics_useGas _).holds run
    · exact (inferInstance : Panics OffRefund (do
        Procedure.when (val = 0) (addRefund rates.clearing)
        useGas rates.change : Exec S Unit)).holds run
  · obtain run | ⟨_, adjusted, -, run⟩ := Procedure.bind_panic.mp run
    · exact adjustRefund_panic enough run
    · exact (panics_useGas _).holds run

/-! ### `SSTORE` from Istanbul on -/

/-- What the rates of a fork have in common. -/
structure StoreRates.OfFork (fork : Fork) (rates : StoreRates) : Prop
    extends rates.Small where
  ofFork : rates.clearing = clearingRefund fork

/-- The sentry for re-entrancy and, from Berlin on, the look at the access list, which
decide the rates of a write. -/
def storeRates (call : CallFrame S) (key : Hash) : Exec S StoreRates := do
  Procedure.raiseIf (call.unusedGas ≤ gasSstoreSentryIstanbul) .outOfGas
  if call.fork ≥ .berlin then do
    let (addrExist, slotExist) ← accessed call.callee key
    Procedure.when (!slotExist) do
      addSlot call.callee key
      Procedure.abortIf (!addrExist) .addrNotInAccessList
    pure (ratesBerlin (clearingRefund call.fork)
      (if slotExist then 0 else gasColdSloadCostBerlin))
  else
    pure ratesIstanbul

omit [WorldState S] [Keccak256] in
theorem storeRates_ofFork (call : CallFrame S) (key : Hash) :
    Procedure.Returns (StoreRates.OfFork call.fork)
      (storeRates call key : Exec S StoreRates) := by
  refine @Procedure.Returns.bind _ _ _ _ _ _ _ _ fun _ => ?_
  split
  · refine @Procedure.Returns.bind _ _ _ _ _ _ _ _ fun _ => ?_
    refine @Procedure.Returns.bind _ _ _ _ _ _ _ _ fun _ => ?_
    exact Procedure.Returns.pure ⟨smallBerlin _ (clearingRefund_le _), rfl⟩
  · rename_i early
    refine Procedure.Returns.pure ⟨smallIstanbul, ?_⟩
    have noLondon : ¬call.fork ≥ .london := fun late =>
      early (le_trans (by decide) late)
    rw [clearingRefund, if_neg noLondon]
    rfl

instance continues_storeRates (call : CallFrame S) (key : Hash) :
    Procedure.Moves Continues (storeRates call key : Exec S StoreRates) := by
  unfold storeRates
  infer_instance

instance panics_storeRates (call : CallFrame S) (key : Hash) :
    Panics OffRefund (storeRates call key : Exec S StoreRates) := by
  unfold storeRates
  infer_instance

omit [Keccak256] in
/-- From Istanbul on, a write is metered at the rates that have been found. -/
theorem sstoreGas_eq {key : Hash} (forked : before.curCall.fork ≥ .istanbul) :
    sstoreGas key val before =
      (storeRates before.curCall key >>= fun rates =>
        meterStore rates before.curCall.callee key val) before := by
  change (if before.curCall.fork ≥ .berlin then
      sstoreBerlinLondonGas key val (clearingRefund before.curCall.fork)
    else if before.curCall.fork ≥ .istanbul then sstoreIstanbulGas key val
    else _) before = _
  unfold storeRates
  by_cases berlin : before.curCall.fork ≥ .berlin
  · rw [if_pos berlin, sstoreBerlinLondonGas_eq]
    simp only [berlin, if_true, Procedure.bind_assoc, Procedure.pure_bind]
    rfl
  · rw [if_neg berlin, if_pos forked, sstoreIstanbulGas_eq]
    simp only [berlin, if_false, Procedure.bind_assoc, Procedure.pure_bind]
    rfl

omit [Keccak256] in
/-- `SSTORE` pays for what becomes of the slot that it writes. -/
theorem sstore_metered
    (forked : before.curCall.fork ≥ .istanbul) (room : before.HasRoom)
    (run : sstore before = .ok () after) :
    Metered (clearingRefund before.curCall.fork).toNat
      (getState before.committedState before.curCall.callee (operand before 0))
      (getState before.state before.curCall.callee (operand before 0))
      (operand before 1) before.refund.toNat after.refund.toNat := by
  unfold sstore at run
  replace run := Procedure.reads_bind_ok.mp run
  obtain ⟨_, checked, checks, run⟩ := Procedure.bind_ok.mp run
  obtain ⟨-, rfl⟩ := Procedure.raiseIf_ok.mp checks
  obtain ⟨⟨key, val⟩, _, operands, run⟩ := Procedure.bind_ok.mp run
  obtain ⟨rfl, rfl, rfl⟩ := consume2_ok operands
  obtain ⟨_, paid, charged, run⟩ := Procedure.bind_ok.mp run
  have kept : paid.KeepsRefund after := Procedure.Moves.ok run
  have poppedForked : (popped checked 2).curCall.fork ≥ .istanbul := forked
  rw [sstoreGas_eq poppedForked] at charged
  obtain ⟨rates, middle, finds, meters⟩ := Procedure.bind_ok.mp charged
  have ofFork := (storeRates_ofFork _ _).holds finds
  have continues : Continues _ middle := Procedure.Moves.ok finds
  have middleRoom : middle.HasRoom := by
    unfold HasRoom
    rw [continues.refund]
    exact room
  have metered := meterStore_ok ofFork.toSmall middleRoom meters
  rw [ofFork.ofFork, continues.committedState, continues.state, continues.refund]
    at metered
  rw [kept]
  exact metered

omit [Keccak256] in
/-- `SSTORE` does not make the counter panic when the refund for clearing the slot is
there. -/
theorem sstore_panic
    {reason : Panic} (forked : before.curCall.fork ≥ .istanbul)
    (enough : getState before.committedState before.curCall.callee
        (operand before 0) ≠ 0 →
      getState before.state before.curCall.callee (operand before 0) = 0 →
      clearingRefund before.curCall.fork ≤ before.refund)
    (run : sstore before = .panic reason) : OffRefund reason := by
  unfold sstore at run
  obtain run | ⟨call, _, reads, run⟩ := Procedure.bind_panic.mp run
  · contradiction
  obtain ⟨rfl, rfl⟩ := Outcome.ok.inj reads
  obtain run | ⟨_, checked, checks, run⟩ := Procedure.bind_panic.mp run
  · exact Panics.holds run
  obtain ⟨-, rfl⟩ := Procedure.raiseIf_ok.mp checks
  obtain run | ⟨⟨key, val⟩, _, operands, run⟩ := Procedure.bind_panic.mp run
  · exact panics_consume2.holds run
  obtain ⟨rfl, rfl, rfl⟩ := consume2_ok operands
  obtain run | ⟨_, paid, -, run⟩ := Procedure.bind_panic.mp run
  · have poppedForked : (popped checked 2).curCall.fork ≥ .istanbul := forked
    rw [sstoreGas_eq poppedForked] at run
    obtain run | ⟨rates, middle, finds, run⟩ := Procedure.bind_panic.mp run
    · exact (panics_storeRates _ _).holds run
    · have ofFork := (storeRates_ofFork _ _).holds finds
      have continues : Continues _ middle := Procedure.Moves.ok finds
      refine meterStore_panic ?_ run
      rw [ofFork.ofFork, continues.committedState, continues.state, continues.refund]
      exact enough
  · exact Panics.holds run

end Exec
end Qevm
