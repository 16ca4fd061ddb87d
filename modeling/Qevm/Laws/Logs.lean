import Qevm.Core.Creations
import Qevm.Core.Run
import Qevm.Laws.MemoryAccess
import Qevm.State.Unmarked

/-!
# Log records

A `LOG` instruction appends a record of the topics and of a region of the memory to the log
of the world state.  The data of a record is made a hash, so there are only records of
regions of 32 bytes.
-/

namespace Qevm

open Params WorldState Exec TxExecContext Procedure

/-- The number of topics of an instruction that logs. -/
def Opcode.topicCount : Opcode → Option Nat
  | .log0 => some 0
  | .log1 => some 1
  | .log2 => some 2
  | .log3 => some 3
  | .log4 => some 4
  | _ => none

/-- The log records that a state has. -/
def MemStateAuto.logs (self : MemStateAuto) : List LogItem := self.convertRef.chainLogs

section Law

variable {S : Type}

/-- The words that are popped as the topics of a record. -/
def topics (num : Nat) (context : TxExecContext S) : List Hash :=
  (List.range num).map fun index => operand context (2 + index)

/-- The bytes of the memory in the region that is logged; they are zero where the memory
has not been written. -/
def loggedBytes (context : TxExecContext S) : Bytes :=
  (Tape.ofList 0 context.curCall.memory.space).load
    (operand context 0).toNat (operand context 1).toNat

/-- The price of the memory that contains the region that is logged. -/
def loggedPrice (context : TxExecContext S) : Nat :=
  Memory.price (max context.curCall.memory.words
    (Memory.wordsOf ((operand context 0).toNat + (operand context 1).toNat)))

/-- The executing frame can log a region with a number of topics: it is not read-only, it has
the operands, the region is within the limit, and there is enough gas. -/
structure Loggable (num : Nat) (context : TxExecContext S) : Prop where
  memory : context.curCall.memory.Reachable
  writable : context.curCall.readOnly = false
  operands : num + 2 ≤ context.height
  limit : (operand context 0).toNat + (operand context 1).toNat ≤ maxMemSize
  gas : gasLog.toNat + num * gasLogTopic.toNat +
      (operand context 1).toNat * gasLogData.toNat + loggedPrice context ≤
    context.curCall.unusedGas.toNat + Memory.price context.curCall.memory.words

/-- The record of what an instruction logs. -/
structure Records (num : Nat) (context : TxExecContext S) (record : LogItem) : Prop where
  contract : record.contract = context.curCall.callee
  topics : record.topics = topics num context
  data : U256.toBigEndian record.data = loggedBytes context
  blockNumber : record.blockNumber = context.env.block.number

/-- An instruction appends the record of what it logs to the log, and nothing else. -/
def LogsRecord [Keccak256]
    (inst : Inst) (num : Nat) (before : TxExecContext MemStateAuto) : Prop :=
  ∃ after record, effect inst before = .ok .next after ∧
    after.state.logs = before.state.logs ++ [record] ∧ Records num before record

/-! ### What a `LOG` does before it appends the record -/

namespace Memory

variable {memory : Memory} {off len : U256}

/-- Within the limit the bytes of a region are read. -/
theorem getSlice_returns
    (priced : memory.Priced) (small : off.toNat + len.toNat ≤ maxMemSize) :
    ∃ fee after, getSlice off len memory =
        .ok ((Tape.ofList 0 memory.space).load off.toNat len.toNat, fee) after ∧
      price memory.words + fee.toNat =
        price (max memory.words (wordsOf (off.toNat + len.toNat))) := by
  obtain ⟨fee, after, slices, -, words, paid⟩ := getSliceMut_returns priced small
  obtain ⟨-, -, same, -, covers⟩ := MemoryOp.getSliceMut_stores priced slices
  refine ⟨fee, after, ?_, words ▸ paid⟩
  rw [← same, ← Tape.slice_eq_load covers]
  exact bind_ok.mpr ⟨_, after, slices, rfl⟩

end Memory

namespace TxExecContext

/-- A context in which the executing frame has an amount of gas. -/
def withGas (context : TxExecContext S) (gas : Gas) : TxExecContext S :=
  { context with curCall := { context.curCall with unusedGas := gas } }

end TxExecContext

namespace Exec

variable {before : TxExecContext S} {num : Nat}

/-- Gas can be charged when there is enough of it, also for what comes after. -/
theorem useGas_left
    {gas : Gas} {left : Nat} (enough : gas.toNat + left ≤ before.curCall.unusedGas.toNat) :
    ∃ rest, useGas gas before = .ok () (before.withGas rest) ∧
      left ≤ (before.withGas rest).curCall.unusedGas.toNat := by
  have paid : gas ≤ before.curCall.unusedGas :=
    UInt64.le_iff_toNat_le.mpr (Nat.le_trans (Nat.le_add_right _ _) enough)
  refine ⟨_, useGas_enough paid, ?_⟩
  rw [withGas, UInt64.toNat_sub_of_le _ _ paid]
  exact Nat.le_sub_of_add_le' enough

/-- An amount of gas for each of a number of things can be charged when there is enough. -/
theorem useGas_each
    {count rate : Gas} {left : Nat}
    (enough : count.toNat * rate.toNat + left ≤ before.curCall.unusedGas.toNat) :
    ∃ rest, (∀ {α : Type} (next : Unit → Exec S α),
        (gasCheckedMul count rate >>= fun gas => useGas gas >>= next) before =
          next () (before.withGas rest)) ∧
      left ≤ (before.withGas rest).curCall.unusedGas.toNat := by
  have few := before.curCall.unusedGas.toNat_lt
  have fits : checkedMulU64 count rate = some (count * rate) := if_pos (by omega)
  rw [← toNat_checkedMulU64 fits] at enough
  obtain ⟨rest, pays, enough⟩ := useGas_left enough
  have product : gasCheckedMul count rate before = .ok (count * rate) before :=
    okOr_ok.mpr ⟨fits, rfl⟩
  exact ⟨rest, fun next => (bind_of_ok product).trans (bind_of_ok pays), enough⟩

/-- The topics are popped when they are there. -/
theorem consumeTopics_total (enough : num ≤ before.height) :
    consumeTopics num before =
      .ok ((List.range num).map fun index => operand before index) (popped before num) := by
  induction num generalizing before with
  | zero => rfl
  | succ num inductionHypothesis =>
      have first := consume1_total (Nat.le_of_add_left_le enough)
      have fewer : num ≤ (popped before 1).height := Nat.le_sub_of_add_le enough
      have rest := inductionHypothesis fewer
      rw [popped_popped] at rest
      refine (bind_of_ok first).trans ((bind_of_ok rest).trans ?_)
      rw [List.range_succ_eq_map, List.map_cons, List.map_map]
      simp only [operand_popped, Function.comp_def, Nat.succ_eq_add_one, Nat.add_comm 1]
      rfl

/-- What is read from a memory is read from the memory of the executing frame. -/
theorem getSlice_onMemory
    {off len : U256} {data : Bytes} {fee : Gas} {grown : Memory}
    (slices : Memory.getSlice off len before.curCall.memory = .ok (data, fee) grown) :
    getSlice off len before = .ok (data, fee)
      { before with curCall := { before.curCall with memory := grown } } := by
  simp only [getSlice, onCall, CallFrame.onMemory, zoom, slices]

variable [WorldState S]

/-- A `LOG` comes to its record with the gas for the memory left. -/
theorem log_comes (loggable : Loggable num before) :
    ∃ ready fee, ready.state = before.state ∧ ready.env = before.env ∧
      ready.curCall.callee = before.curCall.callee ∧ fee ≤ ready.curCall.unusedGas ∧
      log num before =
        (appendLog (topics num before) (loggedBytes before) >>= fun _ => useGas fee)
          ready := by
  obtain ⟨reachable, writable, operands, limit, gas⟩ := loggable
  obtain ⟨fee, grown, slices, priced⟩ := Memory.getSlice_returns reachable.priced limit
  have largest : maxMemSize = 0x1fffffffe0 := rfl
  have topicRate : gasLogTopic.toNat = 375 := rfl
  unfold loggedPrice at gas
  have few := before.curCall.unusedGas.toNat_lt
  have count : (UInt64.ofNat num).toNat = num := UInt64.toNat_ofNat_of_lt' (by
    rw [UInt64.size]
    rw [topicRate] at gas
    omega)
  have short : (operand before 1).toNat ≤ 2 ^ 64 - 1 := by omega
  have length : checkedAsU64 (operand before 1) = some (U256.lowU64 (operand before 1)) :=
    if_pos short
  -- what is charged, in the order in which the instruction charges it
  have total : gasLog.toNat + ((UInt64.ofNat num).toNat * gasLogTopic.toNat +
      ((U256.lowU64 (operand before 1)).toNat * gasLogData.toNat + fee.toNat)) ≤
      before.curCall.unusedGas.toNat := by
    rw [count, toNat_checkedAsU64 length]
    omega
  have writes : (raiseIf before.curCall.readOnly .writeProtection : Exec S Unit) before =
      .ok () before := raiseIf_ok.mpr ⟨by simp [writable], rfl⟩
  obtain ⟨first, charges, enough⟩ := useGas_left total
  obtain ⟨second, topicCharges, enough⟩ := useGas_each enough
  have pops : consume2 (before.withGas second) = .ok (operand before 0, operand before 1)
      ((popped before 2).withGas second) :=
    consume2_total (Nat.le_of_add_left_le operands)
  -- the data is paid for after its region has been popped
  have enough : _ + _ ≤ ((popped before 2).withGas second).curCall.unusedGas.toNat := enough
  obtain ⟨third, dataCharges, enough⟩ := useGas_each enough
  have converts {context : TxExecContext S} : (okOr .outOfMemory
      (checkedAsU64 (operand before 1)) : Exec S UInt64) context =
      .ok (U256.lowU64 (operand before 1)) context := okOr_ok.mpr ⟨length, rfl⟩
  have words : consumeTopics num ((popped before 2).withGas third) =
      .ok (topics num before) ((popped before (2 + num)).withGas third) := by
    rw [← popped_popped]
    simp only [topics, ← operand_popped]
    exact consumeTopics_total (Nat.le_sub_of_add_le operands)
  have reads : getSlice (operand before 0) (operand before 1)
      ((popped before (2 + num)).withGas third) = .ok (loggedBytes before, fee) _ :=
    getSlice_onMemory slices
  refine ⟨_, fee, ?_, ?_, ?_, ?left, (bind_of_ok writes).trans <|
    (bind_of_ok charges).trans <| (topicCharges _).trans <| (bind_of_ok pops).trans <|
    (bind_of_ok converts).trans <| (dataCharges _).trans <|
    (bind_of_ok words).trans (bind_of_ok reads)⟩
  case left => exact UInt64.le_iff_toNat_le.mpr enough
  all_goals rfl

/-- A record that can be added is appended. -/
theorem appendLog_ok
    {topics : List Hash} {data : Bytes} {added : S}
    (adds : addLog before.state before.curCall.callee topics data before.env.block.number =
      some added) :
    appendLog topics data before = .ok () { before with state := added } := by
  have unwraps : (unwrap .hashLength (addLog before.state before.curCall.callee topics data
      before.env.block.number) : Exec S S) before = .ok added before :=
    unwrap_ok.mpr ⟨adds, rfl⟩
  exact bind_ok.mpr ⟨before, before, rfl, bind_ok.mpr ⟨added, before, unwraps, rfl⟩⟩

end Exec

/-! ### The record -/

namespace MemStateAuto

variable [Keccak256] {state after : MemStateAuto} {contract : Addr} {topics : List Hash}
  {data : Bytes} {blockNumber : U256}

/-- A record is added when its data has the length of a hash. -/
theorem addLog_isSome :
    (∃ after, WorldState.addLog state contract topics data blockNumber = some after) ↔
      data.length = 32 := by
  simp only [WorldState.addLog, Option.map_eq_some_iff, MemStateRev.addLog_eq_some]
  constructor
  · rintro ⟨_, _, ⟨long, -⟩, -⟩
    exact long
  · exact fun long => ⟨_, _, ⟨long, rfl⟩, rfl⟩

/-- It is the newest one. -/
theorem logs_addLog
    (added : WorldState.addLog state contract topics data blockNumber = some after) :
    after.logs = state.logs ++
      [⟨contract, topics, U256.fromBigEndian data, blockNumber⟩] := by
  obtain ⟨rev, adds, rfl⟩ := Option.map_eq_some_iff.mp added
  refine (MemStateRev.chainLogs_addLog adds).trans ?_
  rw [MemStateRev.chainLogs_convertMut]
  rfl

end MemStateAuto

variable [Keccak256] {inst : Inst} {num : Nat}

/-- A `LOG` goes on with the next instruction. -/
theorem effect_log
    {S : Type} [WorldState S] (logs : inst.opcode.topicCount = some num) :
    (effect inst : Exec S (Tail S)) = log num >>= fun _ => pure .next := by
  obtain ⟨opcode, data, pos⟩ := inst
  cases opcode <;> cases logs <;> rfl

/-- The record of a region of another length than 32 panics. -/
theorem log_panics
    {before : TxExecContext MemStateAuto} (logs : inst.opcode.topicCount = some num)
    (loggable : Loggable num before) (other : (operand before 1).toNat ≠ 32) :
    effect inst before = .panic .hashLength := by
  obtain ⟨ready, fee, -, -, -, -, comes⟩ := log_comes loggable
  rw [effect_log logs]
  refine bind_panic.mpr (.inl ?_)
  rw [comes]
  refine bind_panic.mpr (.inl ?_)
  have none : addLog ready.state ready.curCall.callee (topics num before)
      (loggedBytes before) ready.env.block.number = none := by
    rw [Option.eq_none_iff_forall_ne_some]
    intro after added
    have long := MemStateAuto.addLog_isSome.mp ⟨after, added⟩
    exact other (by rwa [loggedBytes, Tape.length_load] at long)
  simp only [appendLog, bind, Procedure.bind, Procedure.read, none, unwrap, abort]

/-- A `LOG` appends the record of what it logs exactly when it logs 32 bytes. -/
theorem log_records_iff
    {before : TxExecContext MemStateAuto} (logs : inst.opcode.topicCount = some num)
    (loggable : Loggable num before) :
    LogsRecord inst num before ↔ (operand before 1).toNat = 32 := by
  constructor
  · rintro ⟨after, record, run, -, -⟩
    by_contra other
    rw [log_panics logs loggable other] at run
    contradiction
  · intro size
    have long : (loggedBytes before).length = 32 := by
      rw [loggedBytes, Tape.length_load, size]
    obtain ⟨ready, fee, state, env, callee, enough, comes⟩ := log_comes loggable
    obtain ⟨added, adds⟩ : ∃ added, addLog before.state before.curCall.callee
        (topics num before) (loggedBytes before) before.env.block.number = some added :=
      MemStateAuto.addLog_isSome.mpr long
    have appends : appendLog (topics num before) (loggedBytes before) ready =
        .ok () { ready with state := added } :=
      appendLog_ok (by rwa [state, env, callee])
    obtain ⟨paid, pays, rfl⟩ : ∃ paid, useGas fee { ready with state := added } =
        .ok () paid ∧ paid.state = added := ⟨_, useGas_enough enough, rfl⟩
    have run : effect inst before = .ok .next paid := by
      rw [effect_log logs]
      exact bind_of_ok (comes.trans ((bind_of_ok appends).trans pays))
    exact ⟨paid, _, run, MemStateAuto.logs_addLog adds, rfl, rfl,
      toBigEndian_fromBigEndian long, rfl⟩

end Law

namespace Sample

/-- Logs a number of bytes of an empty memory with a topic. -/
def loggingCode (size : UInt8) : Bytes := [0x60, 0x07, 0x60, size, 0x60, 0x00, 0xa1, 0x00]

/-- The digests that the transactions of this module look at. -/
@[reducible] def loggingKeccak : Keccak256 := keccak
  [([], 0xc5d2460186f7233c927e7db2dcc703c0e500b653ca82273b7bfad8045d85a470),
    (loggingCode 0, 0x22c49d3a1f19e6d6d53cc6c02ba6c9cbd753b9bf2c03f583c1bac98413d11892),
    (loggingCode 32, 0x9c50bd9962e2e83070da32cf95167db67982b99030e2bf9ec2bcba97afc97f47)]

/-- A transaction to an account with that code. -/
def loggingTx (size : UInt8) : Transaction MemStateAuto :=
  letI := loggingKeccak
  let state := WorldState.setCode (MemStateAuto.new emptyState) 0xaa (loggingCode size)
  { sender := 1
    recipient := some 0xaa
    value := 0
    gas := 1000000
    gasPrice := 0
    input := []
    accessList := none
    state := state
    committedState := state
    env := env .london }

/-- Such a transaction comes to its `LOG`. -/
theorem loggingTx_reaches
    (size : UInt8) (found : letI := loggingKeccak
      ((loggingTx size).after 3).any (fun before => decide
        (before.curCall.memory.space = [] ∧ before.curCall.memory.lastGas = 0 ∧
          before.curCall.readOnly = false ∧ 3 ≤ before.height ∧
          operand before 0 = 0 ∧ (operand before 1).toNat = size.toNat ∧
          10000 ≤ before.curCall.unusedGas.toNat)) = true) :
    letI := loggingKeccak
    ∃ before, (loggingTx size).Reaches before ∧ Loggable 1 before ∧
      (operand before 1).toNat = size.toNat := by
  let := loggingKeccak
  obtain ⟨before, run, holds⟩ := (Option.any_eq_true _ _).mp found
  obtain ⟨space, lastGas, writable, operands, start, length, enough⟩ :=
    of_decide_eq_true holds
  have blank : before.curCall.memory = Memory.new := by
    rw [Memory.new, ← space, ← lastGas]
  have small := size.toNat_lt
  refine ⟨before, Transaction.reaches_of_after run, ⟨?_, writable, operands, ?_, ?_⟩, length⟩
  · rw [blank]
    exact ⟨_, _, .new⟩
  · have zero : (0 : U256).toNat = 0 := rfl
    have largest : maxMemSize = 0x1fffffffe0 := rfl
    rw [start, length, zero, largest]
    omega
  · have zero : (0 : U256).toNat = 0 := rfl
    have few : Memory.wordsOf (0 + size.toNat) ≤ 8 := by
      unfold Memory.wordsOf
      omega
    have cheap := Memory.price_mono few
    have rates : gasLog.toNat = 375 ∧ gasLogTopic.toNat = 375 ∧ gasLogData.toNat = 8 :=
      ⟨rfl, rfl, rfl⟩
    have upTo : Memory.price 8 = 24 := rfl
    rw [loggedPrice, blank, start, length, zero, Memory.words, Memory.new, List.length_nil,
      Nat.zero_div, Nat.zero_max, rates.1, rates.2.1, rates.2.2]
    omega

end Sample

/-- A `LOG1` of 32 bytes appends its record. -/
theorem word_is_recorded :
    letI := Sample.loggingKeccak
    ∃ before, (Sample.loggingTx 32).Reaches before ∧
      LogsRecord ⟨.log1, none, 0⟩ 1 before := by
  let := Sample.loggingKeccak
  obtain ⟨before, reached, loggable, size⟩ := Sample.loggingTx_reaches 32 (by decide +kernel)
  exact ⟨before, reached, (log_records_iff rfl loggable).mpr size⟩

/-- A `LOG1` of nothing panics. -/
theorem empty_record_panics :
    letI := Sample.loggingKeccak
    ∃ before, (Sample.loggingTx 0).Reaches before ∧ Loggable 1 before ∧
      effect ⟨.log1, none, 0⟩ before = .panic .hashLength ∧
      ¬LogsRecord ⟨.log1, none, 0⟩ 1 before := by
  let := Sample.loggingKeccak
  obtain ⟨before, reached, loggable, size⟩ := Sample.loggingTx_reaches 0 (by decide +kernel)
  have empty : (operand before 1).toNat ≠ 32 := by
    rw [size]
    decide
  have panics : effect ⟨.log1, none, 0⟩ before = .panic .hashLength :=
    log_panics rfl loggable empty
  refine ⟨before, reached, loggable, panics, ?_⟩
  rintro ⟨after, record, run, -, -⟩
  rw [panics] at run
  contradiction

end Qevm
