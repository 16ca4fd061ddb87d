import Qevm.Core.Creations
import Qevm.Core.Expansion
import Qevm.Laws.Openers

/-!
# The memory that an instruction touches

Every instruction that touches the memory grows it to contain one region and charges the
fee of growing it to the executing frame.
-/

set_option synthInstance.maxSize 100000

namespace Qevm

open Params WorldState Exec TxExecContext Procedure

/-! ### Regions -/

namespace Memory

/-- The fee of growing a memory to contain a region. -/
def growthFee (off len : U256) (memory : Memory) : Nat :=
  match getSliceMut off len memory with
  | .ok (_, fee) _ => fee.toNat
  | _ => 0

/-- A memory has grown to contain a region, whatever has been written to it. -/
def Grown (off len : U256) (before after : Memory) : Prop :=
  ∃ slice fee grown, getSliceMut off len before = .ok (slice, fee) grown ∧
    after.space.length = grown.space.length ∧ after.lastGas = grown.lastGas

variable {before after : Memory} {off len : U256}

theorem growthFee_eq {slice : Slice} {fee : Gas}
    (run : getSliceMut off len before = .ok (slice, fee) after) :
    growthFee off len before = fee.toNat := by
  simp only [growthFee, run]

/-- The fee is the difference of the prices. -/
theorem Grown.priced (grown : Grown off len before after) (priced : before.Priced) :
    after.Priced ∧ price before.words + growthFee off len before = price after.words := by
  obtain ⟨slice, fee, larger, slices, length, lastGas⟩ := grown
  obtain ⟨stop, -, -, resizes⟩ := getSliceMut_ok slices
  obtain ⟨same, -, paid⟩ := resize_ok priced resizes
  obtain ⟨after, words⟩ := same.congr length lastGas
  rw [growthFee_eq slices, words]
  exact ⟨after, paid⟩

end Memory

variable {S : Type}

/-- The region of the memory that an instruction touches. -/
def region (opcode : Opcode) (context : TxExecContext S) : Option (U256 × U256) :=
  match opcode with
  | .sha3 | .log0 | .log1 | .log2 | .log3 | .log4 | .return | .revert =>
      some (operand context 0, operand context 1)
  | .callDataCopy | .codeCopy | .returnDataCopy =>
      some (operand context 0, operand context 2)
  | .extCodeCopy => some (operand context 1, operand context 3)
  | .mload | .mstore => some (operand context 0, 32)
  | .mstore8 => some (operand context 0, 1)
  | .create | .create2 => some (operand context 1, operand context 2)
  | .call | .callCode => some (operand context 3, operand context 4)
  | .delegateCall | .staticCall => some (operand context 2, operand context 3)
  | _ => none

/-- The gas that an instruction charges for growing the memory. -/
def memoryCharge (inst : Inst) (context : TxExecContext S) : Nat :=
  match region inst.opcode context with
  | some (off, len) => Memory.growthFee off len context.curCall.memory
  | none => 0

/-! ### Work that keeps the memory -/

/-- The gas of a frame. -/
def CallFrame.gasLeft (frame : CallFrame S) : Nat := frame.unusedGas.toNat

/-- The memory of the executing frame. -/
def TxExecContext.frameMemory (context : TxExecContext S) : Memory :=
  context.curCall.memory

namespace CallFrame

instance saves_onStack (part : Run Stack α) :
    Moves (Saves gasLeft memory) (onStack part : Run (CallFrame S) α) :=
  Moves.zoom_any part fun _ _ => ⟨rfl, Nat.le_refl _⟩

instance costs_useGas (gas : Gas) :
    Costs gasLeft memory gas.toNat (useGas gas : Run (CallFrame S) Unit) := by
  refine ⟨fun {state _ final} run => ?_⟩
  unfold useGas at run
  split at run
  · contradiction
  · rename_i enough
    obtain ⟨-, rfl⟩ := Outcome.ok.inj run
    exact ⟨rfl, Nat.le_of_eq (toNat_paid (UInt64.not_lt.mp enough))⟩

instance saves_useGas (gas : Gas) :
    Moves (Saves gasLeft memory) (useGas gas : Run (CallFrame S) Unit) := by
  refine ⟨fun frame => wp_useGas.mpr ⟨fun _ => ⟨rfl, Nat.le_refl _⟩, fun paid => ?_⟩⟩
  refine ⟨rfl, ?_⟩
  have spent := toNat_paid paid
  unfold gasLeft
  dsimp only
  omega

instance saves_requireFork (fork : Fork) :
    Moves (Saves gasLeft memory) (requireFork fork : Run (CallFrame S) Unit) :=
  ⟨fun _ => wp_requireFork.mpr
    ⟨fun _ => ⟨rfl, Nat.le_refl _⟩, fun _ => ⟨rfl, Nat.le_refl _⟩⟩⟩

instance saves_makeUnaryOp (op : U256 → U256) (gas : Gas) :
    Moves (Saves gasLeft memory) (makeUnaryOp op gas : Run (CallFrame S) Unit) := by
  unfold makeUnaryOp
  infer_instance

instance saves_makeBinaryOp (op : U256 → U256 → U256) (gas : Gas) :
    Moves (Saves gasLeft memory) (makeBinaryOp op gas : Run (CallFrame S) Unit) := by
  unfold makeBinaryOp
  infer_instance

instance saves_makeTernaryOp (op : U256 → U256 → U256 → U256) (gas : Gas) :
    Moves (Saves gasLeft memory) (makeTernaryOp op gas : Run (CallFrame S) Unit) := by
  unfold makeTernaryOp
  infer_instance

instance saves_makeBinaryOpSince
    (op : U256 → U256 → U256) (gas : Gas) (fork : Fork) :
    Moves (Saves gasLeft memory)
      (makeBinaryOpSince op gas fork : Run (CallFrame S) Unit) := by
  unfold makeBinaryOpSince
  infer_instance

instance saves_pushOf (gas : Gas) (word : CallFrame S → U256) :
    Moves (Saves gasLeft memory) (pushOf gas word) := by
  unfold pushOf
  infer_instance

end CallFrame

namespace Exec

instance saves_onCall
    (part : Run (CallFrame S) α)
    [saves : Moves (Saves CallFrame.gasLeft CallFrame.memory) part] :
    Moves (Saves frameGas frameMemory) (onCall part : Exec S α) :=
  Moves.zoom (Saves CallFrame.gasLeft CallFrame.memory) part fun _ _ kept => kept

instance costs_useGas (gas : Gas) :
    Costs frameGas frameMemory gas.toNat (useGas gas : Exec S Unit) := by
  refine ⟨fun run => ?_⟩
  obtain ⟨paid, -, -, -, memory⟩ := frameGas_useGas run
  exact ⟨memory, Nat.le_of_eq paid⟩

instance saves_useGas (gas : Gas) :
    Moves (Saves frameGas frameMemory) (useGas gas : Exec S Unit) := saves_onCall _

instance saves_requireFork (fork : Fork) :
    Moves (Saves frameGas frameMemory) (requireFork fork : Exec S Unit) :=
  saves_onCall _

instance saves_consume1 : Moves (Saves frameGas frameMemory) (consume1 : Exec S _) :=
  saves_onCall _

instance saves_consume2 : Moves (Saves frameGas frameMemory) (consume2 : Exec S _) :=
  saves_onCall _

instance saves_consume3 : Moves (Saves frameGas frameMemory) (consume3 : Exec S _) :=
  saves_onCall _

instance saves_consume4 : Moves (Saves frameGas frameMemory) (consume4 : Exec S _) :=
  saves_onCall _

instance saves_push (word : U256) :
    Moves (Saves frameGas frameMemory) (push word : Exec S Unit) := saves_onCall _

/-- What keeps the executing frame keeps its memory and its gas. -/
instance (priority := low) saves_of_keepsFrame
    (program : Exec S α) [keeps : Moves KeepsFrame program] :
    Moves (Saves frameGas frameMemory) program :=
  keeps.mono fun _ _ kept => by
    rw [Saves, frameMemory, frameGas, kept.1]
    exact ⟨rfl, Nat.le_refl _⟩

instance keepsFrame_addSlot (addr : Addr) (slot : Hash) :
    Moves KeepsFrame (addSlot addr slot : Exec S Unit) := by
  have changes (list : AccessList) :
      Moves KeepsFrame (Procedure.update fun self =>
        { self with accessList := list } : Exec S Unit) :=
    Moves.update fun _ => ⟨rfl, rfl⟩
  unfold addSlot
  infer_instance

instance keepsFrame_addRefund (gas : UInt64) :
    Moves KeepsFrame (addRefund gas : Exec S Unit) :=
  Moves.update fun _ => ⟨rfl, rfl⟩

instance keepsFrame_subRefund (gas : UInt64) :
    Moves KeepsFrame (subRefund gas : Exec S Unit) := by
  refine ⟨fun context => ?_⟩
  unfold wp subRefund
  by_cases less : gas > context.refund <;> simp only [less, if_true, if_false]
  exact ⟨rfl, rfl⟩

instance keepsFrame_markDestroyed (addr : Addr) :
    Moves KeepsFrame (markDestroyed addr : Exec S Unit) :=
  Moves.update fun _ => ⟨rfl, rfl⟩

instance saves_useGasAccountAccess (addr : Addr) (gasBefore : Fork → Gas) :
    Moves (Saves frameGas frameMemory)
      (useGasAccountAccess addr gasBefore : Exec S Unit) := by
  unfold useGasAccountAccess
  infer_instance

instance saves_pushOf (gas : Gas) (word : TxExecContext S → U256) :
    Moves (Saves frameGas frameMemory) (pushOf gas word) := by
  unfold pushOf
  infer_instance

instance saves_setPc (dest : U256) :
    Moves (Saves frameGas frameMemory) (setPc dest : Exec S Unit) := by
  have jumps (pc : UInt64) :
      Moves (Saves frameGas frameMemory) (onCall (Procedure.update fun call =>
        { call with pc := pc }) : Exec S Unit) :=
    ⟨fun _ => ⟨rfl, Nat.le_refl _⟩⟩
  unfold setPc
  infer_instance

variable [WorldState S]

instance keepsFrame_appendLog (topics : List Hash) (data : Bytes) :
    Moves KeepsFrame (appendLog topics data : Exec S Unit) := by
  unfold appendLog
  infer_instance

instance saves_sstoreGas (key : Hash) (val : U256) :
    Moves (Saves frameGas frameMemory) (sstoreGas key val : Exec S Unit) := by
  unfold sstoreGas sstoreBerlinLondonGas sstoreIstanbulGas sstoreConstantinopleGas
  infer_instance

instance keepsFrame_sweep (callee beneficiary : Addr) :
    Moves KeepsFrame (sweep callee beneficiary : Exec S Unit) :=
  keepsFrame_writeState _

variable [Keccak256]

instance saves_destroy : Moves (Saves frameGas frameMemory) (destroy : Exec S Unit) := by
  unfold destroy useGasSelfDestruct
  infer_instance

/-- An instruction that touches no memory keeps it. -/
theorem saves_effect
    {inst : Inst} {context : TxExecContext S}
    (untouched : region inst.opcode context = none) :
    Moves (Saves frameGas frameMemory) (effect inst : Exec S (Tail S)) := by
  obtain ⟨opcode, data, pos⟩ := inst
  cases opcode
  case sha3 | log0 | log1 | log2 | log3 | log4 | «return» | revert | callDataCopy |
      codeCopy | returnDataCopy | extCodeCopy | mload | mstore | mstore8 | create |
      create2 | call | callCode | delegateCall | staticCall =>
    contradiction
  all_goals
    simp only [effect, dispatch, CallFrame.add, CallFrame.mul, CallFrame.sub,
      CallFrame.div, CallFrame.sdiv, CallFrame.rem, CallFrame.smod,
      CallFrame.addMod, CallFrame.mulMod, CallFrame.exp, CallFrame.signExtend,
      CallFrame.lt, CallFrame.gt, CallFrame.slt, CallFrame.sgt, CallFrame.eq,
      CallFrame.isZero, CallFrame.and, CallFrame.or, CallFrame.xor,
      CallFrame.not, CallFrame.byte, CallFrame.shl, CallFrame.shr,
      CallFrame.sar, CallFrame.addr, CallFrame.pushCaller,
      CallFrame.callValue, CallFrame.callDataLoad, CallFrame.callDataSize,
      CallFrame.codeSize, CallFrame.returnDataSize, CallFrame.pop,
      CallFrame.pushPc, CallFrame.msize, CallFrame.gas, CallFrame.push, CallFrame.dup,
      CallFrame.swap, balance, origin, gasPrice, extCodeSize, extCodeHash, blockHash,
      coinbase, timestamp, number, difficulty, gasLimit, chainId, selfBalance, baseFee,
      sload, useGasSload, sstore, jump, jumpi]
    infer_instance

end Exec

/-! ### Instructions that touch the memory -/

/-- The executing frame has grown its memory to contain a region and has paid the fee. -/
structure Touches (off len : U256) (before after : TxExecContext S) : Prop where
  memory : Memory.Grown off len before.frameMemory after.frameMemory
  gas : after.frameGas + Memory.growthFee off len before.frameMemory ≤ before.frameGas

/-- The executing frame has borrowed a region of its memory, has written data to it, and
has paid the fee of the growth. -/
def Writes (off len : U256) (data : Bytes) (before after : TxExecContext S) : Prop :=
  ∃ slice fee grown,
    Memory.getSliceMut off len before.frameMemory = .ok (slice, fee) grown ∧
      Memory.write slice data grown = .ok () after.frameMemory ∧
      after.frameGas + fee.toNat ≤ before.frameGas

/-- Data that fits its region leaves the length of the memory alone. -/
theorem Writes.touches
    {before after : TxExecContext S} {off len : U256} {data : Bytes}
    (writes : Writes off len data before after) (priced : before.frameMemory.Priced)
    (fits : data.length ≤ len.toNat) : Touches off len before after := by
  obtain ⟨slice, fee, grown, slices, write, paid⟩ := writes
  have covers := Memory.getSliceMut_covers priced slices
  obtain ⟨-, -, starts, -⟩ := Memory.getSliceMut_ok slices
  obtain ⟨length, lastGas⟩ := Memory.write_ok write (by rw [starts]; dsimp only; omega)
  refine ⟨⟨slice, fee, grown, slices, length, lastGas⟩, ?_⟩
  rw [Memory.growthFee_eq slices]
  exact paid

namespace Exec

variable {before first second third after : TxExecContext S} {off len : U256}
variable {slice : Slice} {fee : Gas} {value : α}

/-- Work on the executing frame that has two parts. -/
theorem onCall_bind_ok
    {begins : Run (CallFrame S) β} {next : β → Run (CallFrame S) α} :
    onCall (begins >>= next) before = .ok value after ↔
      ∃ found middle, onCall begins before = .ok found middle ∧
        onCall (next found) middle = .ok value after := by
  have split : (onCall (begins >>= next) : Exec S α) =
      onCall begins >>= fun found => onCall (next found) := by
    funext context
    simp only [onCall, zoom, bind, Procedure.bind]
    cases begins context.curCall <;> rfl
  rw [split, bind_ok]

instance costs_onCall
    {cost : Nat} (part : Run (CallFrame S) α)
    [costs : Costs CallFrame.gasLeft CallFrame.memory cost part] :
    Costs frameGas frameMemory cost (onCall part : Exec S α) := by
  refine ⟨fun {state _ _} run => ?_⟩
  simp only [onCall, zoom] at run
  cases inner : part state.curCall with
  | ok found frame =>
      rw [inner] at run
      obtain ⟨-, rfl⟩ := Outcome.ok.inj run
      exact costs.holds inner
  | error | panic =>
      rw [inner] at run
      contradiction

/-- An instruction that reads a region. -/
theorem touches_of_getSlice
    {data : Bytes} {program : Exec S α} (begins : Saves frameGas frameMemory before first)
    (access : onCall (CallFrame.onMemory (Memory.getSlice off len)) first =
      .ok (data, fee) second)
    [costs : Costs frameGas frameMemory fee.toNat program]
    (rest : program second = .ok value after) : Touches off len before after := by
  obtain ⟨grown, reads, rfl⟩ := onMemory_ok access
  obtain ⟨slices, -⟩ := Memory.getSlice_ok reads
  obtain ⟨kept, paid⟩ := costs.holds rest
  have memory : after.frameMemory = grown := kept
  have same : first.curCall.memory = before.frameMemory := begins.1
  rw [same] at slices
  refine ⟨⟨_, fee, grown, slices, by rw [memory], by rw [memory]⟩, ?_⟩
  rw [Memory.growthFee_eq slices]
  exact Nat.le_trans paid begins.2

/-- The parts of an instruction that writes to the memory: it gets its operands, borrows
the region, writes to it, and pays the fee. -/
theorem writes_of_parts
    {data : Bytes} {program : Exec S α} (begins : Saves frameGas frameMemory before first)
    (access : onCall (CallFrame.onMemory (Memory.getSliceMut off len)) first =
      .ok (slice, fee) second)
    (writes : onCall (CallFrame.onMemory (Memory.write slice data)) second =
      .ok () third)
    [costs : Costs frameGas frameMemory fee.toNat program]
    (rest : program third = .ok value after) : Writes off len data before after := by
  obtain ⟨grown, slices, rfl⟩ := onMemory_ok access
  obtain ⟨written, write, rfl⟩ := onMemory_ok writes
  obtain ⟨kept, paid⟩ := costs.holds rest
  have memory : after.frameMemory = written := kept
  have same : first.curCall.memory = before.frameMemory := begins.1
  rw [same] at slices
  rw [← memory] at write
  exact ⟨slice, fee, grown, slices, write, Nat.le_trans paid begins.2⟩

/-- What is copied from a byte string, at an offset that need not be a machine word. -/
def windowOf (source : Bytes) (off len : U256) : Bytes :=
  getData source ((checkedAsU64 off).getD 0xffffffffffffffff) (U256.lowU64 len)

theorem length_windowOf (source : Bytes) (off len : U256) :
    (windowOf source off len).length ≤ len.toNat := by
  rw [windowOf, length_getData]
  exact Nat.mod_le _ _

/-- A sum of words that has wrapped around is below its first part, and then there is no
slice. -/
theorem returned_slice
    {data source : Bytes} {off len : U256} {start stop : UInt64}
    (stopping : checkedAsU64 (off + len) = some stop)
    (starting : checkedAsU64 off = some start) (within : ¬stop.toNat > data.length)
    (sourcing : (if start ≤ stop then some ((data.take stop.toNat).drop start.toNat)
      else none) = some source) :
    off.toNat + len.toNat ≤ data.length ∧
      source = (data.take (off.toNat + len.toNat)).drop off.toNat := by
  have first := toNat_checkedAsU64 starting
  have last := toNat_checkedAsU64 stopping
  split at sourcing
  · next ordered =>
      rw [UInt64.le_iff_toNat_le] at ordered
      have whole : stop.toNat = off.toNat + len.toNat := by
        rw [BitVec.toNat_add] at last
        omega
      rw [← Option.some.inj sourcing, whole, first]
      exact ⟨by omega, rfl⟩
  · contradiction

variable [WorldState S] [Keccak256]

omit [WorldState S] [Keccak256] in
/-- Paying keeps the operands. -/
theorem operand_useGas
    {gas : Gas} (pays : useGas gas before = .ok () after) (index : Nat) :
    operand after index = operand before index := by
  rw [operand, (frameGas_useGas pays).2.2.2.1, operand]

omit [WorldState S] [Keccak256] in
/-- The two operands of an instruction whose base cost has been paid. -/
theorem begins_consume2
    {gas : Gas} {left right : U256}
    (pays : onCall (CallFrame.useGas gas) before = .ok () first)
    (pops : onCall (CallFrame.onStack Stack.consume2) first = .ok (left, right) second) :
    left = operand before 0 ∧ right = operand before 1 ∧
      Saves frameGas frameMemory before second := by
  have keeps : Saves frameGas frameMemory before first := Moves.ok pays
  have pop : Saves frameGas frameMemory first second := Moves.ok pops
  obtain ⟨rfl, rfl, -⟩ := consume2_ok pops
  exact ⟨operand_useGas pays 0, operand_useGas pays 1, trans_of _ keeps pop⟩

omit [WorldState S] [Keccak256] in
/-- The three operands of an instruction whose base cost has been paid. -/
theorem begins_consume3
    {gas : Gas} {left middle right : U256}
    (pays : onCall (CallFrame.useGas gas) before = .ok () first)
    (pops : onCall (CallFrame.onStack Stack.consume3) first =
      .ok (left, middle, right) second) :
    left = operand before 0 ∧ middle = operand before 1 ∧ right = operand before 2 ∧
      Saves frameGas frameMemory before second := by
  have keeps : Saves frameGas frameMemory before first := Moves.ok pays
  have pop : Saves frameGas frameMemory first second := Moves.ok pops
  obtain ⟨rfl, rfl, rfl, -⟩ := consume3_ok pops
  exact ⟨operand_useGas pays 0, operand_useGas pays 1, operand_useGas pays 2,
    trans_of _ keeps pop⟩

omit [WorldState S] in
theorem touches_sha3
    (run : onCall CallFrame.sha3 before = .ok () after) :
    Touches (operand before 0) (operand before 1) before after := by
  unfold CallFrame.sha3 at run
  obtain ⟨_, paid, pays, run⟩ := onCall_bind_ok.mp run
  obtain ⟨⟨off, len⟩, popped, pops, run⟩ := onCall_bind_ok.mp run
  obtain ⟨⟨data, fee⟩, accessed, accesses, rest⟩ := onCall_bind_ok.mp run
  obtain ⟨rfl, rfl, begins⟩ := begins_consume2 pays pops
  exact touches_of_getSlice begins accesses rest

omit [WorldState S] [Keccak256] in
theorem touches_mload
    (run : onCall CallFrame.mload before = .ok () after) :
    Touches (operand before 0) 32 before after := by
  unfold CallFrame.mload at run
  obtain ⟨_, paid, pays, run⟩ := onCall_bind_ok.mp run
  obtain ⟨off, popped, pops, run⟩ := onCall_bind_ok.mp run
  obtain ⟨⟨data, fee⟩, accessed, accesses, rest⟩ := onCall_bind_ok.mp run
  have keeps : Saves frameGas frameMemory before paid := Moves.ok pays
  have pop : Saves frameGas frameMemory paid popped := Moves.ok pops
  obtain ⟨rfl, rfl⟩ := consume1_ok pops
  rw [← operand_useGas pays 0]
  exact touches_of_getSlice (trans_of _ keeps pop) accesses rest

omit [WorldState S] [Keccak256] in
theorem writes_mstore (run : onCall CallFrame.mstore before = .ok () after) :
    Writes (operand before 0) 32 (U256.toBigEndian (operand before 1)) before after := by
  unfold CallFrame.mstore at run
  obtain ⟨_, paid, pays, run⟩ := onCall_bind_ok.mp run
  obtain ⟨⟨off, val⟩, popped, pops, run⟩ := onCall_bind_ok.mp run
  obtain ⟨⟨slice, fee⟩, accessed, accesses, run⟩ := onCall_bind_ok.mp run
  obtain ⟨_, written, writes, rest⟩ := onCall_bind_ok.mp run
  obtain ⟨rfl, rfl, begins⟩ := begins_consume2 pays pops
  exact writes_of_parts begins accesses writes rest

omit [WorldState S] [Keccak256] in
theorem writes_mstore8 (run : onCall CallFrame.mstore8 before = .ok () after) :
    Writes (operand before 0) 1 [UInt8.ofNat (U256.lowU64 (operand before 1)).toNat]
      before after := by
  unfold CallFrame.mstore8 at run
  obtain ⟨_, paid, pays, run⟩ := onCall_bind_ok.mp run
  obtain ⟨⟨off, val⟩, popped, pops, run⟩ := onCall_bind_ok.mp run
  obtain ⟨⟨slice, fee⟩, accessed, accesses, run⟩ := onCall_bind_ok.mp run
  obtain ⟨_, written, writes, rest⟩ := onCall_bind_ok.mp run
  obtain ⟨rfl, rfl, begins⟩ := begins_consume2 pays pops
  exact writes_of_parts begins accesses writes rest

omit [WorldState S] [Keccak256] in
/-- What `CALLDATACOPY` and `CODECOPY` share: both copy from a byte string of the frame,
which nothing before the copy changes, and then charge for it. -/
theorem writes_of_frame
    (source : CallFrame S → Bytes) (charge : U256 → Gas → Run (CallFrame S) Unit)
    (fixed : ∀ {middle : TxExecContext S}, before.Quiet middle →
      source middle.curCall = source before.curCall)
    [charges : ∀ len fee, Costs frameGas frameMemory fee.toNat
      (onCall (charge len fee) : Exec S Unit)]
    (run : onCall (do
      CallFrame.useGas gasFastest
      let (memOff, off, len) ← CallFrame.onStack Stack.consume3
      let (mem, fee) ← CallFrame.onMemory (Memory.getSliceMut memOff len)
      let bytes ← Procedure.reads source
      CallFrame.onMemory (Memory.write mem (windowOf bytes off len))
      charge len fee) before = .ok () after) :
    Writes (operand before 0) (operand before 2)
      (windowOf (source before.curCall) (operand before 1) (operand before 2))
      before after := by
  obtain ⟨_, paid, pays, run⟩ := onCall_bind_ok.mp run
  obtain ⟨⟨memOff, off, len⟩, popped, pops, run⟩ := onCall_bind_ok.mp run
  obtain ⟨⟨slice, fee⟩, accessed, accesses, run⟩ := onCall_bind_ok.mp run
  obtain ⟨bytes, _, reads, run⟩ := onCall_bind_ok.mp run
  obtain ⟨rfl, rfl⟩ := Outcome.ok.inj reads
  obtain ⟨_, written, writes, rest⟩ := onCall_bind_ok.mp run
  obtain ⟨rfl, rfl, rfl, begins⟩ := begins_consume3 pays pops
  have pay : before.Quiet paid := Moves.ok pays
  have pop : paid.Quiet popped := Moves.ok pops
  have access : popped.Quiet accessed := Moves.ok accesses
  rw [fixed (trans_of _ (trans_of _ pay pop) access)] at writes
  exact writes_of_parts begins accesses writes rest

omit [WorldState S] [Keccak256] in
theorem writes_callDataCopy (run : onCall CallFrame.callDataCopy before = .ok () after) :
    Writes (operand before 0) (operand before 2)
      (windowOf before.curCall.input (operand before 1) (operand before 2))
      before after :=
  writes_of_frame CallFrame.input (fun len fee => do
      CallFrame.useGas fee
      CallFrame.useGas
        (← gasCheckedMul (Memory.toWordSize (U256.lowU64 len)) gasCopyWord))
    (fun quiet => quiet.curCall.input) run

omit [WorldState S] [Keccak256] in
theorem writes_codeCopy (run : onCall CallFrame.codeCopy before = .ok () after) :
    Writes (operand before 0) (operand before 2)
      (windowOf before.curCall.code.asBytes (operand before 1) (operand before 2))
      before after :=
  writes_of_frame (fun frame => frame.code.asBytes) (fun len fee => do
      CallFrame.useGas
        (← gasCheckedMul (Memory.toWordSize (U256.lowU64 len)) gasCopyWord)
      CallFrame.useGas fee)
    (fun quiet => congrArg Code.asBytes quiet.curCall.code) run

omit [WorldState S] [Keccak256] in
theorem onCall_okOr_ok {err : ExecError} {option : Option α} :
    (onCall (okOr err option) : Exec S α) before = .ok value after ↔
      option = some value ∧ after = before := by
  cases option with
  | none => simp [onCall, zoom, okOr, raise]
  | some found =>
      change Outcome.ok found before = Outcome.ok value after ↔ _
      simp [eq_comm]

omit [WorldState S] [Keccak256] in
theorem onCall_unwrap_ok {reason : Panic} {option : Option α} :
    (onCall (unwrap reason option) : Exec S α) before = .ok value after ↔
      option = some value ∧ after = before := by
  cases option with
  | none => simp [onCall, zoom, unwrap, abort]
  | some found =>
      change Outcome.ok found before = Outcome.ok value after ↔ _
      simp [eq_comm]

omit [WorldState S] [Keccak256] in
/-- `RETURNDATACOPY` compares a sum that may wrap around with the length, and then the
offset with the sum. -/
theorem writes_returnDataCopy
    (run : onCall CallFrame.returnDataCopy before = .ok () after) :
    (operand before 1).toNat + (operand before 2).toNat ≤
        before.curCall.lastReturned.length ∧
      Writes (operand before 0) (operand before 2)
        ((before.curCall.lastReturned.take
          ((operand before 1).toNat + (operand before 2).toNat)).drop
            (operand before 1).toNat) before after := by
  unfold CallFrame.returnDataCopy at run
  obtain ⟨_, forked, forks, run⟩ := onCall_bind_ok.mp run
  obtain ⟨-, allowed⟩ := requireFork_ok forks
  rw [allowed] at run
  obtain ⟨_, paid, pays, run⟩ := onCall_bind_ok.mp run
  obtain ⟨⟨memOff, dataOff, len⟩, popped, pops, run⟩ := onCall_bind_ok.mp run
  obtain ⟨stop, stopped, stops, run⟩ := onCall_bind_ok.mp run
  obtain ⟨stopping, same⟩ := onCall_okOr_ok.mp stops
  rw [same] at run
  obtain ⟨data, _, reads, run⟩ := onCall_bind_ok.mp run
  obtain ⟨rfl, rfl⟩ := Outcome.ok.inj reads
  split at run
  · contradiction
  next within =>
    obtain ⟨start, started, starts, run⟩ := onCall_bind_ok.mp run
    obtain ⟨starting, still⟩ := onCall_okOr_ok.mp starts
    rw [still] at run
    obtain ⟨⟨slice, fee⟩, accessed, accesses, run⟩ := onCall_bind_ok.mp run
    obtain ⟨source, sourced, sources, run⟩ := onCall_bind_ok.mp run
    obtain ⟨sourcing, unchanged⟩ := onCall_unwrap_ok.mp sources
    rw [unchanged] at run
    obtain ⟨_, written, writes, rest⟩ := onCall_bind_ok.mp run
    obtain ⟨rfl, rfl, rfl, begins⟩ := begins_consume3 pays pops
    have pay : before.Quiet paid := Moves.ok pays
    have pop : paid.Quiet popped := Moves.ok pops
    rw [(trans_of _ pay pop).curCall.lastReturned] at within sourcing
    obtain ⟨inside, rfl⟩ := returned_slice stopping starting within sourcing
    exact ⟨inside, writes_of_parts begins accesses writes rest⟩

omit [WorldState S] [Keccak256] in
theorem touches_returnDataCopy
    (priced : before.frameMemory.Priced)
    (run : onCall CallFrame.returnDataCopy before = .ok () after) :
    Touches (operand before 0) (operand before 2) before after := by
  obtain ⟨inside, writes⟩ := writes_returnDataCopy run
  apply writes.touches priced
  rw [List.length_drop, List.length_take]
  omega

omit [Keccak256] in
theorem writes_extCodeCopy (run : extCodeCopy before = .ok () after) :
    Writes (operand before 1) (operand before 3)
      (windowOf (getCode before.state (operand before 0).toAddr).asBytes
        (operand before 2) (operand before 3)) before after := by
  unfold extCodeCopy at run
  obtain ⟨⟨addr, memOff, codeOff, len⟩, popped, pops, run⟩ := bind_ok.mp run
  obtain ⟨_, paid, pays, run⟩ := bind_ok.mp run
  replace run := reads_bind_ok.mp run
  obtain ⟨⟨slice, fee⟩, accessed, accesses, run⟩ := bind_ok.mp run
  obtain ⟨_, written, writes, rest⟩ := bind_ok.mp run
  have pop : Saves frameGas frameMemory before popped := Moves.ok pops
  have pay : Saves frameGas frameMemory popped paid := Moves.ok pays
  have popQuiet : before.Quiet popped := Moves.ok pops
  have payQuiet : popped.Quiet paid := Moves.ok pays
  obtain ⟨rfl, rfl, rfl, rfl, -⟩ := consume4_ok pops
  rw [payQuiet.state, popQuiet.state] at writes
  exact writes_of_parts (trans_of _ pop pay) accesses writes rest

omit [WorldState S] [Keccak256] in
theorem touches_returnRegion
    {data : Bytes} (run : returnRegion before = .ok data after) :
    Touches (operand before 0) (operand before 1) before after := by
  unfold returnRegion at run
  obtain ⟨⟨off, len⟩, popped, pops, run⟩ := bind_ok.mp run
  obtain ⟨⟨slice, fee⟩, sliced, slices, rest⟩ := bind_ok.mp run
  have pop : Saves frameGas frameMemory before popped := Moves.ok pops
  obtain ⟨rfl, rfl, -⟩ := consume2_ok pops
  exact touches_of_getSlice pop slices rest

omit [Keccak256] in
theorem touches_log
    {num : Nat} (run : log num before = .ok () after) :
    Touches (operand before 0) (operand before 1) before after := by
  unfold log at run
  replace run := reads_bind_ok.mp run
  obtain ⟨-, run⟩ := raiseIf_bind_ok.mp run
  obtain ⟨_, logged, logs, run⟩ := bind_ok.mp run
  obtain ⟨price, -, run⟩ := okOr_bind_ok.mp run
  obtain ⟨_, paid, pays, run⟩ := bind_ok.mp run
  obtain ⟨⟨off, length⟩, popped, pops, run⟩ := bind_ok.mp run
  obtain ⟨length64, lengthened, lengths, run⟩ := bind_ok.mp run
  obtain ⟨rate, rated, rates, run⟩ := bind_ok.mp run
  obtain ⟨_, charged, charges, run⟩ := bind_ok.mp run
  obtain ⟨words, consumed, consumes, run⟩ := bind_ok.mp run
  obtain ⟨⟨data, fee⟩, sliced, slices, rest⟩ := bind_ok.mp run
  have begins : Saves frameGas frameMemory before logged := Moves.ok logs
  have payment : Saves frameGas frameMemory logged paid := Moves.ok pays
  have pop : Saves frameGas frameMemory paid popped := Moves.ok pops
  have measure : Saves frameGas frameMemory popped lengthened := Moves.ok lengths
  have rating : Saves frameGas frameMemory lengthened rated := Moves.ok rates
  have charge : Saves frameGas frameMemory rated charged := Moves.ok charges
  have consume : Saves frameGas frameMemory charged consumed := Moves.ok consumes
  obtain ⟨rfl, rfl, -⟩ := consume2_ok pops
  rw [← operand_useGas logs 0, ← operand_useGas logs 1, ← operand_useGas pays 0,
    ← operand_useGas pays 1]
  have operands := trans_of _ (trans_of _ begins payment) pop
  have charged := trans_of _ (trans_of _ operands measure) (trans_of _ rating charge)
  exact touches_of_getSlice (trans_of _ charged consume) slices rest

omit [WorldState S] [Keccak256] in
theorem touches_chargeCreate
    {request : CreateRequest} (run : chargeCreate before = .ok request after) :
    Touches (operand before 1) (operand before 2) before after := by
  unfold chargeCreate at run
  obtain ⟨_, paid, pays, run⟩ := bind_ok.mp run
  replace run := reads_bind_ok.mp run
  obtain ⟨-, run⟩ := raiseIf_bind_ok.mp run
  obtain ⟨-, run⟩ := requireDepth_bind_ok run
  obtain ⟨⟨value, off, len⟩, popped, pops, run⟩ := bind_ok.mp run
  obtain ⟨⟨code, memGas⟩, sliced, slices, rest⟩ := bind_ok.mp run
  obtain ⟨-, rfl, rfl, begins⟩ := begins_consume3 pays pops
  exact touches_of_getSlice begins slices rest

omit [WorldState S] [Keccak256] in
theorem touches_chargeCreate2
    {request : CreateRequest} (run : chargeCreate2 before = .ok request after) :
    Touches (operand before 1) (operand before 2) before after := by
  unfold chargeCreate2 at run
  obtain ⟨-, run⟩ := requireFork_bind_ok run
  replace run := reads_bind_ok.mp run
  obtain ⟨-, run⟩ := raiseIf_bind_ok.mp run
  obtain ⟨-, run⟩ := requireDepth_bind_ok run
  obtain ⟨_, paid, pays, run⟩ := bind_ok.mp run
  obtain ⟨⟨value, off, len, salt⟩, popped, pops, run⟩ := bind_ok.mp run
  obtain ⟨⟨code, memGas⟩, sliced, slices, rest⟩ := bind_ok.mp run
  have payment : Saves frameGas frameMemory before paid := Moves.ok pays
  have pop : Saves frameGas frameMemory paid popped := Moves.ok pops
  obtain ⟨rfl, rfl, rfl, rfl, -⟩ := consume4_ok pops
  rw [← operand_useGas pays 1, ← operand_useGas pays 2]
  exact touches_of_getSlice (trans_of _ payment pop) slices rest

omit [WorldState S] [Keccak256] in
/-- The input of `CALL` and `CALLCODE` is the last of their operands. -/
theorem callOperands_slice
    {args : CallOperands} (run : callOperands before = .ok args after) :
    ∃ middle, Saves frameGas frameMemory before middle ∧
      getSlice (operand before 3) (operand before 4) middle =
        .ok (args.input, args.memGas) after := by
  unfold callOperands at run
  replace run := reads_bind_ok.mp run
  obtain ⟨_, paid, pays, run⟩ := bind_ok.mp run
  obtain ⟨⟨gas, addr, val⟩, first, pops, run⟩ := bind_ok.mp run
  obtain ⟨⟨inOff, inLen⟩, second, inputs, run⟩ := bind_ok.mp run
  obtain ⟨⟨retOff, retLen⟩, third, outputs, run⟩ := bind_ok.mp run
  obtain ⟨⟨input, memGas⟩, fourth, slices, returns⟩ := bind_ok.mp run
  obtain ⟨rfl, rfl⟩ := Outcome.ok.inj returns
  have pop : Saves frameGas frameMemory first second := Moves.ok inputs
  have last : Saves frameGas frameMemory second third := Moves.ok outputs
  obtain ⟨rfl, rfl, rfl⟩ := consume2_ok inputs
  obtain ⟨-, -, -, begins⟩ := begins_consume3 pays pops
  obtain ⟨-, -, -, rfl⟩ := consume3_ok pops
  refine ⟨third, trans_of _ (trans_of _ begins pop) last, ?_⟩
  rw [← operand_useGas pays 3, ← operand_useGas pays 4]
  simpa only [operand_popped] using slices

omit [WorldState S] [Keccak256] in
/-- The operands of `DELEGATECALL` and `STATICCALL` are popped in pairs. -/
theorem begins_pairs
    {gas : Gas} {word addr retOff retLen : U256} {fourth : TxExecContext S}
    (pays : useGas gas before = .ok () first)
    (pops : consume2 first = .ok (word, addr) second)
    (inputs : consume2 second = .ok (off, len) third)
    (outputs : consume2 third = .ok (retOff, retLen) fourth) :
    off = operand before 2 ∧ len = operand before 3 ∧
      Saves frameGas frameMemory before fourth := by
  have pop : Saves frameGas frameMemory second third := Moves.ok inputs
  have last : Saves frameGas frameMemory third fourth := Moves.ok outputs
  obtain ⟨-, -, begins⟩ := begins_consume2 pays pops
  obtain ⟨rfl, rfl, -⟩ := consume2_ok inputs
  obtain ⟨-, -, rfl⟩ := consume2_ok pops
  refine ⟨?_, ?_, trans_of _ (trans_of _ begins pop) last⟩
  · rw [operand_popped, operand_useGas pays]
  · rw [operand_popped, operand_useGas pays]

instance saves_useGasCallCommonBerlin (addr : Addr) :
    Moves (Saves frameGas frameMemory) (useGasCallCommonBerlin addr : Exec S Unit) := by
  unfold useGasCallCommonBerlin
  infer_instance

instance saves_gasCallCommon (callCost : U256) :
    Moves (Saves frameGas frameMemory) (gasCallCommon callCost : Exec S Gas) := by
  unfold gasCallCommon
  cases checkedAsU64 callCost <;> infer_instance

/-- The fee is paid before the gas for the called account is taken. -/
instance costs_useGasQuota (gas : U256) (memGas : Gas) :
    Costs frameGas frameMemory memGas.toNat
      (useGasQuota gas memGas : Exec S Gas) := by
  unfold useGasQuota
  infer_instance

end Exec

namespace CallKind

variable [WorldState S] [Keccak256] {before paid : TxExecContext S}

omit [WorldState S] [Keccak256] in
/-- The input of `DELEGATECALL` and `STATICCALL` is the second pair of their operands. -/
theorem touches_addressedCharge
    {base : Fork → Gas} {request : CallRequest}
    (run : addressedCharge base before = .ok request paid) :
    Touches (operand before 2) (operand before 3) before paid := by
  unfold addressedCharge at run
  replace run := reads_bind_ok.mp run
  obtain ⟨_, based, pays, run⟩ := bind_ok.mp run
  obtain ⟨⟨gas, addr⟩, first, pops, run⟩ := bind_ok.mp run
  obtain ⟨⟨inOff, inLen⟩, second, inputs, run⟩ := bind_ok.mp run
  obtain ⟨⟨retOff, retLen⟩, third, outputs, run⟩ := bind_ok.mp run
  obtain ⟨⟨input, memGas⟩, sliced, slices, rest⟩ := bind_ok.mp run
  obtain ⟨rfl, rfl, begins⟩ := begins_pairs pays pops inputs outputs
  exact touches_of_getSlice begins slices rest

/-- A call touches the region of its input. -/
theorem touches_charge
    (kind : CallKind) {request : CallRequest}
    (run : kind.charge before = .ok request paid) :
    Touches (operand before kind.inputIndex) (operand before (kind.inputIndex + 1))
      before paid := by
  cases kind with
  | call =>
      simp only [charge, chargeCall, useGasCall] at run
      obtain ⟨args, sliced, operands, rest⟩ := bind_ok.mp run
      obtain ⟨middle, begins, slices⟩ := callOperands_slice operands
      exact touches_of_getSlice begins slices rest
  | callCode =>
      simp only [charge, chargeCallCode, useGasCallCode] at run
      obtain ⟨-, run⟩ := requireDepth_bind_ok run
      obtain ⟨args, sliced, operands, rest⟩ := bind_ok.mp run
      obtain ⟨middle, begins, slices⟩ := callOperands_slice operands
      exact touches_of_getSlice begins slices rest
  | delegateCall =>
      rw [charge, chargeDelegateCall_eq] at run
      obtain ⟨-, run⟩ := requireFork_bind_ok run
      obtain ⟨-, run⟩ := requireDepth_bind_ok run
      obtain ⟨asked, charged, charges, run⟩ := bind_ok.mp run
      replace run := reads_bind_ok.mp run
      obtain ⟨-, rfl⟩ := Outcome.ok.inj run
      exact touches_addressedCharge charges
  | staticCall =>
      rw [charge, chargeStaticCall_eq] at run
      obtain ⟨-, run⟩ := requireFork_bind_ok run
      obtain ⟨-, run⟩ := requireDepth_bind_ok run
      exact touches_addressedCharge run

end CallKind

variable {before first after : TxExecContext S} {off len : U256}

/-- What follows may spend gas. -/
theorem Touches.trans
    (touches : Touches off len before first)
    (kept : Saves frameGas frameMemory first after) : Touches off len before after := by
  refine ⟨?_, Nat.le_trans (Nat.add_le_add_right kept.2 _) touches.gas⟩
  rw [kept.1]
  exact touches.memory

namespace Exec

variable [WorldState S] [Keccak256] {inst : Inst} {tail : Tail S}

/-- A creation touches the region of the initialization code. -/
theorem creation_touches
    (creation : inst.opcode.isCreation = true) (run : effect inst before = .ok tail after) :
    Touches (operand before 1) (operand before 2) before after := by
  obtain ⟨request, contract, paid, saved, snapped, charges, snaps, -, opens⟩ :=
    creation_ok creation run
  obtain ⟨opcode, data, pos⟩ := inst
  have touches : Touches (operand before 1) (operand before 2) before paid := by
    cases charges with
    | create charges => exact touches_chargeCreate charges
    | create2 charges => exact touches_chargeCreate2 charges
  exact (touches.trans (Moves.ok snaps)).trans (Moves.ok opens)

/-- A call touches the region of its input. -/
theorem call_touches
    (kind : CallKind) (run : effect kind.inst before = .ok tail after) :
    Touches (operand before kind.inputIndex) (operand before (kind.inputIndex + 1))
      before after := by
  rw [kind.effect_eq] at run
  obtain ⟨request, paid, pays, starts⟩ := bind_ok.mp run
  have keeps := (kind.start_ok (kind.charged pays) starts).1
  refine (kind.touches_charge pays).trans ?_
  rw [Saves, frameMemory, frameGas, keeps.1]
  exact ⟨rfl, Nat.le_refl _⟩

/-- An instruction that touches a region of the memory pays for it. -/
theorem effect_touches
    (priced : before.frameMemory.Priced)
    (touched : region inst.opcode before = some (off, len))
    (run : effect inst before = .ok tail after) : Touches off len before after := by
  have dispatched (next : (dispatch inst >>= fun _ => pure .next : Exec S (Tail S)) before =
      .ok tail after) : dispatch inst before = .ok () after := by
    obtain ⟨_, middle, runs, returns⟩ := bind_ok.mp next
    obtain ⟨-, rfl⟩ := Outcome.ok.inj returns
    exact runs
  obtain ⟨opcode, data, pos⟩ := inst
  cases opcode <;> obtain ⟨⟩ := touched
  case sha3 => exact touches_sha3 (dispatched run)
  case callDataCopy =>
    exact (writes_callDataCopy (dispatched run)).touches priced (length_windowOf _ _ _)
  case codeCopy =>
    exact (writes_codeCopy (dispatched run)).touches priced (length_windowOf _ _ _)
  case extCodeCopy =>
    exact (writes_extCodeCopy (dispatched run)).touches priced (length_windowOf _ _ _)
  case returnDataCopy => exact touches_returnDataCopy priced (dispatched run)
  case mload => exact touches_mload (dispatched run)
  case mstore =>
    exact (writes_mstore (dispatched run)).touches priced
      (Nat.le_of_eq (Rlp.length_bigEndian _ _))
  case mstore8 => exact (writes_mstore8 (dispatched run)).touches priced (Nat.le_refl 1)
  case log0 | log1 | log2 | log3 | log4 => exact touches_log (dispatched run)
  case create | create2 => exact creation_touches rfl run
  case call => exact call_touches .call run
  case callCode => exact call_touches .callCode run
  case delegateCall => exact call_touches .delegateCall run
  case staticCall => exact call_touches .staticCall run
  case «return» =>
    obtain ⟨retval, middle, reads, returns⟩ := bind_ok.mp run
    obtain ⟨-, rfl⟩ := Outcome.ok.inj returns
    exact touches_returnRegion reads
  case revert =>
    obtain ⟨retval, middle, reads, returns⟩ := bind_ok.mp run
    obtain ⟨-, rfl⟩ := Outcome.ok.inj returns
    unfold revertRegion at reads
    obtain ⟨-, reads⟩ := requireFork_bind_ok reads
    exact touches_returnRegion reads

/-- Every instruction pays for the memory that it grows. -/
theorem effect_memory
    (priced : before.frameMemory.Priced) (run : effect inst before = .ok tail after) :
    after.frameMemory.Priced ∧
      Memory.price before.frameMemory.words + memoryCharge inst before =
        Memory.price after.frameMemory.words ∧
      after.frameGas + memoryCharge inst before ≤ before.frameGas := by
  cases touched : region inst.opcode before with
  | none =>
      have kept : Saves frameGas frameMemory before after :=
        (saves_effect touched).ok run
      rw [memoryCharge, touched, kept.1]
      exact ⟨priced, rfl, kept.2⟩
  | some region =>
      obtain ⟨off, len⟩ := region
      have touches := effect_touches priced touched run
      obtain ⟨grown, paid⟩ := touches.memory.priced priced
      rw [memoryCharge, touched]
      exact ⟨grown, paid, touches.gas⟩

end Exec

end Qevm
