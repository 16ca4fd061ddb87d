import Qevm.Laws.GasConservation
import Qevm.Laws.Heights
import Qevm.Laws.Ownership
import Qevm.Laws.Touches

/-!
# What an instruction costs

Every instruction that leaves its frame running should cost gas.  `EXP` is free when its
exponent is zero, and `SSTORE` is free before Constantinople; both pop more words than they
push, so gas and words together fall with every instruction, and a run is not longer than
the gas it starts with.  Only the stipend of a call without value can keep the loop going.
-/

set_option synthInstance.maxSize 100000

namespace Qevm

open Params WorldState Exec TxExecContext Procedure

/-! ### Amounts of gas -/

/-- An amount of gas that is not smaller than a number. -/
class AtLeast (least : Nat) (gas : Gas) : Prop where
  le : least ≤ gas.toNat

instance {gas : Gas} [enough : AtLeast 2 gas] : AtLeast 1 gas :=
  ⟨Nat.le_trans (by decide) enough.le⟩

instance : AtLeast 1 gasJumpdest := ⟨by decide⟩
instance : AtLeast 2 gasQuick := ⟨by decide⟩
instance : AtLeast 2 gasFastest := ⟨by decide⟩
instance : AtLeast 2 gasFast := ⟨by decide⟩
instance : AtLeast 2 gasMid := ⟨by decide⟩
instance : AtLeast 2 gasSlow := ⟨by decide⟩
instance : AtLeast 2 gasExt := ⟨by decide⟩
instance : AtLeast 2 gasSha3 := ⟨by decide⟩
instance : AtLeast 2 gasLog := ⟨by decide⟩
instance : AtLeast 2 gasWarmStorageReadCostBerlin := ⟨by decide⟩
instance : AtLeast 2 gasColdSloadCostBerlin := ⟨by decide⟩

instance (fork : Fork) : AtLeast 2 (balanceGas fork) := ⟨by cases fork <;> decide⟩
instance (fork : Fork) : AtLeast 2 (extCodeSizeGas fork) := ⟨by cases fork <;> decide⟩
instance (fork : Fork) : AtLeast 2 (extCodeCopyGas fork) := ⟨by cases fork <;> decide⟩
instance (fork : Fork) : AtLeast 2 (extCodeHashGas fork) := ⟨by cases fork <;> decide⟩
instance (fork : Fork) : AtLeast 2 (sloadGas fork) := ⟨by cases fork <;> decide⟩

variable {S : Type} {rate : Fin 2}

/-! ### Gas and words -/

/-- The gas of a frame, together with the words on its stack at some rate. -/
def CallFrame.fuel (rate : Fin 2) (frame : CallFrame S) : Nat :=
  frame.unusedGas.toNat + rate.val * frame.stack.top

/-- The fuel of the executing frame. -/
def TxExecContext.fuel (rate : Fin 2) (context : TxExecContext S) : Nat :=
  context.curCall.fuel rate

/-- What is paid for covers a word that is pushed. -/
instance spends_covered
    {σ ε π α β : Type} {potential : σ → Nat}
    (first : Procedure σ ε π α) (next : α → Procedure σ ε π β)
    [spends : Expends potential 2 first] [gains : ∀ value, Gains potential 1 (next value)] :
    Expends potential 1 (first >>= next) := Gains.covered 1

/-- What is paid for afterwards covers a word that has been pushed. -/
instance spends_repaid
    {σ ε π α β : Type} {potential : σ → Nat}
    (first : Procedure σ ε π α) (next : α → Procedure σ ε π β)
    [gains : Gains potential 1 first] [spends : ∀ value, Expends potential 2 (next value)] :
    Expends potential 1 (first >>= next) := Gains.repaid 1

namespace Stack

instance falls_swap (pos : Nat) : Moves (Falls top) (swap pos) := by
  refine ⟨fun stack => ?_⟩
  by_cases short : pos + 1 > stack.top <;> simp [wp, swap, short, Falls]

instance gains_push (word : U256) : Gains top 1 (push word) :=
  ⟨fun run => Nat.le_of_eq (push_ok run).2⟩

instance gains_dup (pos : Nat) : Gains top 1 (dup pos) := by
  refine ⟨fun {stack _ _} run => ?_⟩
  unfold dup at run
  split at run
  · contradiction
  · split at run
    · exact (gains_push _).holds run
    · contradiction

end Stack

namespace CallFrame

instance falls_onStack
    (part : Run Stack α) [falls : Moves (Falls Stack.top) part] :
    Moves (Falls (fuel rate)) (onStack part : Run (CallFrame S) α) :=
  Moves.zoom (Falls Stack.top) part fun _ _ less =>
    Nat.add_le_add_left (Nat.mul_le_mul_left _ less) _

instance gains_onStack
    (part : Run Stack α) [gains : Gains Stack.top 1 part] :
    Gains (fuel rate) 1 (onStack part : Run (CallFrame S) α) := by
  refine ⟨fun {frame _ _} run => ?_⟩
  simp only [onStack, zoom] at run
  cases inner : part frame.stack with
  | ok found stack =>
      rw [inner] at run
      obtain ⟨-, rfl⟩ := Outcome.ok.inj run
      have more := gains.holds inner
      have small := rate.isLt
      unfold fuel
      obtain zero | one : rate.val = 0 ∨ rate.val = 1 := by omega
      · simp [zero]
      · simp only [one]
        omega
  | error | panic =>
      rw [inner] at run
      contradiction

instance falls_onMemory (part : Run Memory α) :
    Moves (Falls (fuel rate)) (onMemory part : Run (CallFrame S) α) :=
  Moves.zoom_any part fun _ _ => Nat.le_refl _

instance falls_useGas (gas : Gas) :
    Moves (Falls (fuel rate)) (useGas gas : Run (CallFrame S) Unit) := by
  refine ⟨fun frame => wp_useGas.mpr ⟨fun _ => Nat.le_refl _, fun paid => ?_⟩⟩
  have spent := toNat_paid paid
  simp only [Falls, fuel]
  omega

instance spends_useGas {least : Nat} (gas : Gas) [enough : AtLeast least gas] :
    Expends (fuel rate) least (useGas gas : Run (CallFrame S) Unit) := by
  refine ⟨fun {state _ final} run => ⟨rfl, ?_⟩⟩
  have charges := enough.le
  unfold useGas at run
  split at run
  · contradiction
  · rename_i paid
    obtain ⟨-, rfl⟩ := Outcome.ok.inj run
    have spent := toNat_paid (UInt64.not_lt.mp paid)
    simp only [fuel]
    omega

instance falls_requireFork (fork : Fork) :
    Moves (Falls (fuel rate)) (requireFork fork : Run (CallFrame S) Unit) :=
  ⟨fun _ => wp_requireFork.mpr ⟨fun _ => Nat.le_refl _, fun _ => Nat.le_refl _⟩⟩

instance spends_makeUnaryOp (op : U256 → U256) (gas : Gas) [AtLeast 2 gas] :
    Expends (fuel rate) 1 (makeUnaryOp op gas : Run (CallFrame S) Unit) := by
  unfold makeUnaryOp
  infer_instance

instance spends_makeBinaryOp (op : U256 → U256 → U256) (gas : Gas) [AtLeast 2 gas] :
    Expends (fuel rate) 1 (makeBinaryOp op gas : Run (CallFrame S) Unit) := by
  unfold makeBinaryOp
  infer_instance

instance spends_makeTernaryOp
    (op : U256 → U256 → U256 → U256) (gas : Gas) [AtLeast 2 gas] :
    Expends (fuel rate) 1 (makeTernaryOp op gas : Run (CallFrame S) Unit) := by
  unfold makeTernaryOp
  infer_instance

instance spends_makeBinaryOpSince
    (op : U256 → U256 → U256) (gas : Gas) (fork : Fork) [AtLeast 2 gas] :
    Expends (fuel rate) 1 (makeBinaryOpSince op gas fork : Run (CallFrame S) Unit) := by
  unfold makeBinaryOpSince
  infer_instance

instance spends_pushOf (gas : Gas) (word : CallFrame S → U256) [AtLeast 2 gas] :
    Expends (fuel rate) 1 (pushOf gas word) := by
  unfold pushOf
  infer_instance

end CallFrame

namespace Exec

instance falls_onCall
    (part : Run (CallFrame S) α) [falls : Moves (Falls (CallFrame.fuel rate)) part] :
    Moves (Falls (TxExecContext.fuel rate)) (onCall part : Exec S α) :=
  Moves.zoom (Falls (CallFrame.fuel rate)) part fun _ _ less => less

/-- Work on the executing frame in terms of the frame. -/
theorem onCall_ok
    {part : Run (CallFrame S) α} {value : α} {before after : TxExecContext S}
    (run : onCall part before = .ok value after) :
    part before.curCall = .ok value after.curCall := by
  simp only [onCall, zoom] at run
  cases inner : part before.curCall with
  | ok found frame =>
      rw [inner] at run
      obtain ⟨rfl, rfl⟩ := Outcome.ok.inj run
      rfl
  | error | panic =>
      rw [inner] at run
      contradiction

instance gains_onCall
    (part : Run (CallFrame S) α) [gains : Gains (CallFrame.fuel rate) 1 part] :
    Gains (TxExecContext.fuel rate) 1 (onCall part : Exec S α) :=
  ⟨fun run => gains.holds (onCall_ok run)⟩

instance spends_onCall
    {cost : Nat} (part : Run (CallFrame S) α)
    [spends : Expends (CallFrame.fuel rate) cost part] :
    Expends (TxExecContext.fuel rate) cost (onCall part : Exec S α) :=
  ⟨fun run => ⟨rfl, (spends.holds (onCall_ok run)).2⟩⟩

instance spends_useGas {least : Nat} (gas : Gas) [AtLeast least gas] :
    Expends (TxExecContext.fuel rate) least (useGas gas : Exec S Unit) := spends_onCall _

instance falls_useGas (gas : Gas) :
    Moves (Falls (TxExecContext.fuel rate)) (useGas gas : Exec S Unit) := falls_onCall _

instance falls_requireFork (fork : Fork) :
    Moves (Falls (TxExecContext.fuel rate)) (requireFork fork : Exec S Unit) :=
  falls_onCall _

instance fuel_consume1 :
    Moves (Falls (TxExecContext.fuel rate)) (consume1 : Exec S _) := falls_onCall _

instance fuel_consume2 :
    Moves (Falls (TxExecContext.fuel rate)) (consume2 : Exec S _) := falls_onCall _

instance fuel_consume4 :
    Moves (Falls (TxExecContext.fuel rate)) (consume4 : Exec S _) := falls_onCall _

instance gains_push (word : U256) :
    Gains (TxExecContext.fuel rate) 1 (push word : Exec S Unit) := gains_onCall _

instance falls_getSlice (off len : U256) :
    Moves (Falls (TxExecContext.fuel rate)) (getSlice off len : Exec S _) := falls_onCall _

/-- What keeps the executing frame keeps its fuel. -/
instance (priority := low) fuel_of_keepsFrame
    (program : Exec S α) [keeps : Moves KeepsFrame program] :
    Moves (Falls (TxExecContext.fuel rate)) program :=
  keeps.mono fun _ _ kept => by
    rw [Falls, TxExecContext.fuel, kept.1]
    exact Nat.le_refl _

instance spends_useGasAccountAccess
    {least : Nat} (addr : Addr) (gasBefore : Fork → Gas)
    [AtLeast least gasWarmStorageReadCostBerlin] [∀ fork, AtLeast least (gasBefore fork)] :
    Expends (TxExecContext.fuel rate) least
      (useGasAccountAccess addr gasBefore : Exec S Unit) := by
  unfold useGasAccountAccess
  infer_instance

instance spends_pushOf (gas : Gas) (word : TxExecContext S → U256) [AtLeast 2 gas] :
    Expends (TxExecContext.fuel rate) 1 (pushOf gas word) := by
  unfold pushOf
  infer_instance

instance falls_setPc (dest : U256) :
    Moves (Falls (TxExecContext.fuel rate)) (setPc dest : Exec S Unit) := by
  have jumps (pc : UInt64) :
      Moves (Falls (TxExecContext.fuel rate)) (onCall (Procedure.update fun call =>
        { call with pc := pc }) : Exec S Unit) :=
    ⟨fun _ => Nat.le_refl _⟩
  unfold setPc
  infer_instance

variable [WorldState S]

instance spends_useGasSload (call : CallFrame S) (key : Hash) :
    Expends (TxExecContext.fuel rate) 2 (useGasSload call key : Exec S Unit) := by
  unfold useGasSload
  infer_instance

instance spends_log (num : Nat) :
    Expends (TxExecContext.fuel rate) 1 (log num : Exec S Unit) := by
  unfold log
  infer_instance

variable [Keccak256]

/-- Every instruction takes some of the fuel when it leaves its frame running, except `EXP`
and `SSTORE` when words count for nothing. -/
theorem spends_dispatch
    {inst : Inst} (closed : inst.opcode.entersCall = false)
    (notExp : inst.opcode ≠ .exp) (notStore : inst.opcode ≠ .sstore)
    {before after : TxExecContext S} (run : effect inst before = .ok .next after) :
    after.fuel rate + 1 ≤ before.fuel rate := by
  have spends (program : Exec S Unit) [spends : Expends (TxExecContext.fuel rate) 1 program]
      (run : (program >>= fun _ => pure .next : Exec S (Tail S)) before = .ok .next after) :
      after.fuel rate + 1 ≤ before.fuel rate := by
    obtain ⟨_, middle, runs, returns⟩ := bind_ok.mp run
    obtain ⟨-, rfl⟩ := Outcome.ok.inj returns
    exact (spends.holds runs).2
  obtain ⟨opcode, data, pos⟩ := inst
  cases opcode
  case create | create2 | call | callCode | delegateCall | staticCall => contradiction
  case exp | sstore => contradiction
  case stop => exact nomatch (Outcome.ok.inj run).1
  case «return» | revert | selfDestruct =>
    obtain ⟨_, middle, -, returns⟩ := bind_ok.mp run
    exact nomatch (Outcome.ok.inj returns).1
  case pushN | dupN | swapN | invalid =>
    obtain ⟨_, middle, raises, -⟩ := bind_ok.mp run
    contradiction
  all_goals
    refine @spends _ ?_ run
    simp only [dispatch, CallFrame.add, CallFrame.mul, CallFrame.sub, CallFrame.div,
      CallFrame.sdiv, CallFrame.rem, CallFrame.smod, CallFrame.addMod, CallFrame.mulMod,
      CallFrame.signExtend, CallFrame.lt, CallFrame.gt, CallFrame.slt, CallFrame.sgt,
      CallFrame.eq, CallFrame.isZero, CallFrame.and, CallFrame.or, CallFrame.xor,
      CallFrame.not, CallFrame.byte, CallFrame.shl, CallFrame.shr, CallFrame.sar,
      CallFrame.sha3, CallFrame.addr, CallFrame.pushCaller, CallFrame.callValue,
      CallFrame.callDataLoad, CallFrame.callDataSize, CallFrame.callDataCopy,
      CallFrame.codeSize, CallFrame.codeCopy, CallFrame.returnDataSize,
      CallFrame.returnDataCopy, CallFrame.pop, CallFrame.mload, CallFrame.mstore,
      CallFrame.mstore8, CallFrame.pushPc, CallFrame.msize, CallFrame.gas, CallFrame.push,
      CallFrame.dup, CallFrame.swap, balance, origin, gasPrice, extCodeSize, extCodeCopy,
      extCodeHash, blockHash, coinbase, timestamp, number, difficulty, gasLimit, chainId,
      selfBalance, baseFee, sload, jump, jumpi]
    infer_instance

/-! ### The two free instructions -/

variable {before after : TxExecContext S}

omit [WorldState S] [Keccak256] in
/-- Gas and words when words count. -/
theorem fuel_one (context : TxExecContext S) :
    context.fuel 1 = context.frameGas + context.height := by
  simp [TxExecContext.fuel, CallFrame.fuel, frameGas, height]

omit [WorldState S] [Keccak256] in
/-- Gas alone when they do not. -/
theorem fuel_zero (context : TxExecContext S) : context.fuel 0 = context.frameGas := by
  simp [TxExecContext.fuel, CallFrame.fuel, frameGas]

/-- The price of `EXP`. -/
def expPrice (fork : Fork) (exponent : U256) : Nat :=
  (if fork ≥ .spuriousDragon then gasExpByteSpuriousDragon
    else gasExpByteFrontier).toNat * ((U256.bits exponent + 7) / 8)

omit [WorldState S] [Keccak256] in
/-- The bytes that the significant bits of a word take. -/
theorem toNat_expBytes (exponent : U256) :
    ((UInt64.ofNat (U256.bits exponent) + 7) >>> 3).toNat =
      (U256.bits exponent + 7) / 8 := by
  have small : U256.bits exponent ≤ 256 := by
    unfold U256.bits
    split
    · exact Nat.zero_le _
    · rename_i some
      have positive : exponent.toNat ≠ 0 := fun zero =>
        some (BitVec.eq_of_toNat_eq zero)
      exact (Nat.log2_lt positive).mpr exponent.isLt
  have bits : (UInt64.ofNat (U256.bits exponent)).toNat = U256.bits exponent :=
    UInt64.toNat_ofNat_of_lt' (by rw [UInt64.size]; omega)
  have seven : (7 : UInt64).toNat = 7 := rfl
  have three : (3 : UInt64).toNat = 3 := rfl
  rw [UInt64.toNat_shiftRight, UInt64.toNat_add, bits, seven, three,
    Nat.mod_eq_of_lt (by omega), Nat.shiftRight_eq_div_pow]

omit [WorldState S] [Keccak256] in
/-- It is free when the exponent is zero, and then only. -/
theorem expPrice_eq_zero (fork : Fork) (exponent : U256) :
    expPrice fork exponent = 0 ↔ exponent = 0 := by
  have rate : (if fork ≥ .spuriousDragon then gasExpByteSpuriousDragon
      else gasExpByteFrontier).toNat ≠ 0 := by
    cases fork <;> decide
  have bits : U256.bits exponent = 0 ↔ exponent = 0 := by
    unfold U256.bits
    split <;> simp_all
  rw [expPrice, Nat.mul_eq_zero, ← bits]
  omega

omit [WorldState S] [Keccak256] in
/-- `EXP` charges the price of its exponent and replaces two words by one. -/
theorem exp_ok (run : onCall CallFrame.exp before = .ok () after) :
    after.frameGas + expPrice before.curCall.fork (operand before 1) = before.frameGas ∧
      after.height + 1 = before.height := by
  unfold CallFrame.exp at run
  obtain ⟨⟨base, exponent⟩, lowered, pops, run⟩ := onCall_bind_ok.mp run
  obtain ⟨_, pushed, pushes, run⟩ := onCall_bind_ok.mp run
  obtain ⟨fork, read, reads, run⟩ := onCall_bind_ok.mp run
  obtain ⟨gas, priced, prices, pays⟩ := onCall_bind_ok.mp run
  obtain ⟨stack, words, rfl⟩ := onStack_ok pops
  obtain ⟨rfl, rfl, rfl, enough⟩ := Stack.consume2_ok words
  obtain ⟨grown, grows, rfl⟩ := onStack_ok pushes
  obtain ⟨rfl, rfl⟩ := Outcome.ok.inj reads
  obtain ⟨price, same⟩ := okOr_ok.mp (onCall_ok prices)
  obtain ⟨paid, -, -, kept, -⟩ := frameGas_useGas pays
  have gasKept : priced.frameGas = before.frameGas := by rw [frameGas, same, frameGas]
  have grown : grown.top = (before.curCall.stack.drop 2).top + 1 := (Stack.push_ok grows).2
  constructor
  · rw [expPrice, ← toNat_expBytes, ← gasKept, ← paid, toNat_checkedMulU64 price]
    rfl
  · rw [height, kept, same, height]
    dsimp only
    rw [grown, Stack.top_drop]
    omega

instance (slotExist : Bool) : AtLeast 2
    ((if slotExist then 0 else gasColdSloadCostBerlin) + gasWarmStorageReadCostBerlin) :=
  ⟨by cases slotExist <;> decide⟩

instance (slotExist : Bool) : AtLeast 2
    ((if slotExist then 0 else gasColdSloadCostBerlin) + gasSstoreSetIstanbul) :=
  ⟨by cases slotExist <;> decide⟩

instance (slotExist : Bool) : AtLeast 2
    ((if slotExist then 0 else gasColdSloadCostBerlin) +
      (gasSstoreResetIstanbul - gasColdSloadCostBerlin)) :=
  ⟨by cases slotExist <;> decide⟩

instance : AtLeast 2 gasSloadIstanbul := ⟨by decide⟩
instance : AtLeast 2 gasSstoreSetIstanbul := ⟨by decide⟩
instance : AtLeast 2 gasSstoreResetIstanbul := ⟨by decide⟩
instance : AtLeast 2 gasSstoreSet := ⟨by decide⟩
instance : AtLeast 2 gasSstoreClear := ⟨by decide⟩
instance : AtLeast 2 gasSstoreReset := ⟨by decide⟩

omit [WorldState S] [Keccak256] in
/-- What keeps the executing frame keeps its stack. -/
instance (priority := low) keepsStack_of_keepsFrame
    (program : Exec S α) [keeps : Moves KeepsFrame program] :
    Moves KeepsStack program :=
  keeps.mono fun _ _ kept => congrArg CallFrame.stack kept.1

omit [Keccak256] in
instance spends_sstoreConstantinopleGas (key : Hash) (val : U256) :
    Expends (TxExecContext.fuel 0) 1 (sstoreConstantinopleGas key val : Exec S Unit) := by
  unfold sstoreConstantinopleGas
  infer_instance

omit [Keccak256] in
instance spends_sstoreIstanbulGas (key : Hash) (val : U256) :
    Expends (TxExecContext.fuel 0) 1 (sstoreIstanbulGas key val : Exec S Unit) := by
  unfold sstoreIstanbulGas
  infer_instance

omit [Keccak256] in
instance spends_sstoreBerlinLondonGas (key : Hash) (val : U256) (clearing : UInt64) :
    Expends (TxExecContext.fuel 0) 1
      (sstoreBerlinLondonGas key val clearing : Exec S Unit) := by
  unfold sstoreBerlinLondonGas
  infer_instance

omit [Keccak256] in
/-- The metering of `SSTORE` takes gas from Constantinople on, and then only. -/
theorem sstoreGas_ok
    {key : Hash} {val : U256} (run : sstoreGas key val before = .ok () after) :
    KeepsStack before after ∧
      if before.curCall.fork ≥ .constantinople then after.frameGas < before.frameGas
      else after.frameGas = before.frameGas := by
  have stack : Moves KeepsStack (sstoreGas key val : Exec S Unit) := by
    unfold sstoreGas sstoreBerlinLondonGas sstoreIstanbulGas sstoreConstantinopleGas
    infer_instance
  refine ⟨stack.ok run, ?_⟩
  have spent (program : Exec S Unit) [spends : Expends (TxExecContext.fuel 0) 1 program]
      (run : program before = .ok () after) : after.frameGas < before.frameGas := by
    have paid := (spends.holds run).2
    rwa [fuel_zero, fuel_zero] at paid
  unfold sstoreGas fork at run
  replace run := reads_bind_ok.mp run
  split
  · split at run
    · exact spent _ run
    split at run
    · exact spent _ run
    · exact spent _ run
  · rename_i free
    have early (since : Fork) (later : Fork.constantinople ≤ since) :
        ¬before.curCall.fork ≥ since := fun forked => free (later.trans forked)
    rw [if_neg (early .berlin (by decide)), if_neg (early .istanbul (by decide)),
      if_neg free] at run
    obtain ⟨-, rfl⟩ := Outcome.ok.inj run
    rfl

omit [Keccak256] in
/-- `SSTORE` pops two words. -/
theorem sstore_ok (run : sstore before = .ok () after) :
    after.height + 2 = before.height ∧
      if before.curCall.fork ≥ .constantinople then after.frameGas < before.frameGas
      else after.frameGas = before.frameGas := by
  unfold sstore call at run
  replace run := reads_bind_ok.mp run
  obtain ⟨-, run⟩ := raiseIf_bind_ok.mp run
  obtain ⟨⟨key, val⟩, lowered, pops, run⟩ := bind_ok.mp run
  obtain ⟨_, charged, charges, writes⟩ := bind_ok.mp run
  obtain ⟨_, written, write, marks⟩ := bind_ok.mp writes
  obtain ⟨stack, words, rfl⟩ := onStack_ok pops
  obtain ⟨-, -, rfl, enough⟩ := Stack.consume2_ok words
  obtain ⟨kept, gas⟩ := sstoreGas_ok charges
  have wrote : KeepsFrame charged written := Moves.ok write
  have marked : KeepsFrame written after := Moves.ok marks
  have same : after.curCall = charged.curCall := marked.1.trans wrote.1
  constructor
  · rw [height, same, kept, height]
    simp only [Stack.top_drop]
    omega
  · simpa only [frameGas, same] using gas

variable {inst : Inst}

/-- `EXP` as an instruction. -/
theorem exp_effect
    (exponentiates : inst.opcode = .exp) (run : effect inst before = .ok .next after) :
    onCall CallFrame.exp before = .ok () after := by
  obtain ⟨opcode, data, pos⟩ := inst
  obtain rfl : opcode = .exp := exponentiates
  obtain ⟨_, raised, raises, last⟩ := bind_ok.mp run
  obtain ⟨-, rfl⟩ := Outcome.ok.inj last
  exact raises

/-- The instruction that is about to execute is neither an `EXP` with the exponent zero nor
an `SSTORE` before Constantinople. -/
def Pays (inst : Inst) (context : TxExecContext S) : Prop :=
  (inst.opcode = .exp → operand context 1 ≠ 0) ∧
    (inst.opcode = .sstore → context.curCall.fork ≥ .constantinople)

/-- An instruction that opens no frame and leaves its frame running takes gas exactly when
it is not one of the two free ones. -/
theorem gas_falls_iff
    (closed : inst.opcode.entersCall = false) (run : effect inst before = .ok .next after) :
    after.frameGas < before.frameGas ↔ Pays inst before := by
  by_cases exponentiates : inst.opcode = .exp
  · have paid := (exp_ok (exp_effect exponentiates run)).1
    have free := expPrice_eq_zero before.curCall.fork (operand before 1)
    simp only [Pays, exponentiates, forall_const, ne_eq, ← free, reduceCtorEq,
      false_implies, and_true]
    omega
  by_cases store : inst.opcode = .sstore
  · have gas := (sstore_ok (sstore_effect store run).2).2
    simp only [Pays, store, forall_const, reduceCtorEq, false_implies, true_and]
    split at gas <;> rename_i forked <;> simp only [forked, iff_true, iff_false]
    · exact gas
    · exact Nat.not_lt.mpr (Nat.le_of_eq gas.symm)
  · have paid : after.fuel 0 + 1 ≤ before.fuel 0 :=
      spends_dispatch closed exponentiates store run
    rw [fuel_zero, fuel_zero] at paid
    exact iff_of_true paid
      ⟨fun opcode => absurd opcode exponentiates, fun opcode => absurd opcode store⟩

/-- Every instruction that opens no frame and leaves its frame running takes gas or
words. -/
theorem fuel_falls
    (closed : inst.opcode.entersCall = false) (run : effect inst before = .ok .next after) :
    after.frameGas + after.height + 1 ≤ before.frameGas + before.height := by
  by_cases exponentiates : inst.opcode = .exp
  · obtain ⟨paid, popped⟩ := exp_ok (exp_effect exponentiates run)
    omega
  by_cases store : inst.opcode = .sstore
  · obtain ⟨popped, paid⟩ := sstore_ok (sstore_effect store run).2
    split at paid <;> omega
  · have paid : after.fuel 1 + 1 ≤ before.fuel 1 :=
      spends_dispatch closed exponentiates store run
    rwa [fuel_one, fuel_one] at paid

end Exec

end Qevm
