import Qevm.Collections.Tape
import Qevm.Core.Grid
import Qevm.Core.Operands
import Qevm.Core.Run
import Qevm.State.Dummy

/-!
# Instruction fetch

The decoder takes the data of a `PUSH` as a slice of the code.  It pushes what
the code says, and leaves the bounds of the code exactly when the data of the
`PUSH` ends beyond the code.
-/

namespace Qevm

open Params Exec Procedure

section Law

variable {S : Type} {code : Bytes} {pc : UInt64}

/-- The word of a number of bytes of a code from an offset on, where the bytes
past the end of the code are zero. -/
def paddedWord (code : Bytes) (offset width : Nat) : U256 :=
  U256.fromBigEndian
    ((List.range width).map fun index => code[offset + index]?.getD 0)

/-- Number of data bytes of the instruction at a counter. -/
def dataWidth (code : Bytes) (pc : UInt64) : Nat :=
  pushWidth (code[pc.toNat]?.getD 0)

/-- The data of the instruction at a counter ends beyond the code. -/
def Truncated (code : Bytes) (pc : UInt64) : Prop :=
  pc.toNat < code.length ∧ code.length ≤ pc.toNat + dataWidth code pc

instance (code : Bytes) (pc : UInt64) : Decidable (Truncated code pc) :=
  inferInstanceAs (Decidable (_ ∧ _))

/-- The decoder leaves the bounds of the code exactly at truncated data. -/
theorem decode_eq_none : decode code pc = none ↔ Truncated code pc := by
  have below := (code[pc.toNat]?.getD 0).toNat_lt
  unfold decode Truncated dataWidth pushWidth
  dsimp only
  split
  · rename_i range
    have inside : pc.toNat < code.length := by
      by_contra beyond
      rw [List.getElem?_eq_none (Nat.not_lt.mp beyond)] at range
      exact absurd range (by decide)
    split
    · simp only [reduceCtorEq, false_iff]
      omega
    · simp only [true_iff]
      omega
  · have present : ∀ inst : Inst, some inst ≠ none := fun _ => Option.some_ne_none _
    constructor
    · split
      · exact fun absent => absurd absent (present _)
      · split
        · exact fun absent => absurd absent (present _)
        · split <;> exact fun absent => absurd absent (present _)
    · intro short
      omega

/-- An instruction with data is a `PUSH` of the padded word. -/
theorem decode_push
    {inst : Inst} (decoded : decode code pc = some inst)
    (wide : 0 < dataWidth code pc) :
    ∃ data, inst = ⟨.push, some data, 0⟩ ∧
      U256.fromBigEndian data =
        paddedWord code (pc.toNat + 1) (dataWidth code pc) := by
  have range : 0x60 ≤ code[pc.toNat]?.getD 0 ∧ code[pc.toNat]?.getD 0 ≤ 0x7f := by
    by_contra outside
    rw [dataWidth, pushWidth, if_neg outside] at wide
    exact absurd wide (Nat.lt_irrefl 0)
  have width : dataWidth code pc = (code[pc.toNat]?.getD 0).toNat - 0x60 + 1 :=
    if_pos range
  unfold decode at decoded
  dsimp only at decoded
  rw [if_pos range, ← width] at decoded
  split at decoded
  · rename_i inside
    refine ⟨_, (Option.some.inj decoded).symm, ?_⟩
    exact congrArg U256.fromBigEndian (Tape.slice_eq_load inside)
  · contradiction

/-- The next instruction of a frame is decoded inside the code and pushes the data
that the code has for it, padded with zeros; beyond the code there is `STOP`. -/
structure FetchesPadded [WorldState S] [Keccak256] (context : TxExecContext S) :
    Prop where
  inBounds : ∀ reason, fetch context ≠ .panic reason
  pushes : ∀ inst, Fetches context inst →
    0 < dataWidth context.curCall.code.asBytes context.curCall.pc →
    inst.opcode = .push ∧ ∀ after, dispatch inst context = .ok () after →
      after.curCall.stack.peek = some (paddedWord context.curCall.code.asBytes
        (context.curCall.pc.toNat + 1)
        (dataWidth context.curCall.code.asBytes context.curCall.pc))
  stops : context.curCall.code.asBytes.length ≤ context.curCall.pc.toNat →
    Fetches context ⟨.stop, none, 0⟩

/-- The data of the next instruction of a frame ends beyond the code. -/
def CallFrame.TruncatedNext (frame : CallFrame S) : Prop :=
  Truncated frame.code.asBytes frame.pc

variable [WorldState S] [Keccak256] {context after : TxExecContext S}

omit [WorldState S] [Keccak256] in
/-- Fetching panics exactly at truncated data. -/
theorem fetch_panic {reason : Panic} :
    fetch context = .panic reason ↔
      reason = .indexOutOfBounds ∧ context.curCall.TruncatedNext := by
  unfold CallFrame.TruncatedNext
  rw [← decode_eq_none]
  unfold fetch call
  simp only [bind, Procedure.bind, Procedure.reads]
  cases decode context.curCall.code.asBytes context.curCall.pc with
  | none => simp [Procedure.unwrap, Procedure.abort, eq_comm]
  | some inst => simp [Procedure.unwrap, Procedure.pure]

/-- A `PUSH` leaves the word of its data on top of the stack. -/
theorem dispatch_push
    {data : Bytes} (run : dispatch ⟨.push, some data, 0⟩ context = .ok () after) :
    after.curCall.stack.peek = some (U256.fromBigEndian data) := by
  have pushes : onCall (CallFrame.push data) context = .ok () after := run
  simp only [onCall, CallFrame.push, zoom] at pushes
  cases part : (do
      CallFrame.useGas gasFastest
      CallFrame.onStack (Stack.push (U256.fromBigEndian data)) :
        Run (CallFrame S) Unit) context.curCall with
  | error err frame => simp [part] at pushes
  | panic reason => simp [part] at pushes
  | ok value frame =>
      simp only [part, Outcome.ok.injEq, true_and] at pushes
      obtain ⟨_, paid, pays, rest⟩ := bind_ok.mp part
      simp only [CallFrame.onStack, zoom] at rest
      cases stacked : Stack.push (U256.fromBigEndian data) paid.stack with
      | error err stack => simp [stacked] at rest
      | panic reason => simp [stacked] at rest
      | ok value stack =>
          simp only [stacked, Outcome.ok.injEq, true_and] at rest
          rw [← pushes, ← rest]
          exact (Stack.push_ok stacked).1

/-- An iteration at truncated data panics. -/
theorem iterate_truncated (truncated : context.curCall.TruncatedNext) :
    iterate context = .panic .indexOutOfBounds :=
  bind_panic.mpr (.inl (fetch_panic.mpr ⟨rfl, truncated⟩))

/-- A frame fetches what its code says unless the data is truncated. -/
theorem fetchesPadded_iff (context : TxExecContext S) :
    FetchesPadded context ↔ ¬context.curCall.TruncatedNext := by
  constructor
  · intro fetches truncated
    exact fetches.inBounds _ (fetch_panic.mpr ⟨rfl, truncated⟩)
  · intro complete
    refine ⟨?_, ?_, decode_beyond⟩
    · intro reason panics
      exact complete (fetch_panic.mp panics).2
    · intro inst fetches wide
      obtain ⟨data, rfl, word⟩ := decode_push fetches wide
      refine ⟨rfl, fun after run => ?_⟩
      rw [dispatch_push run, word]

/-- In every run of a transaction, the frames fetch what their code says, except
where the data of the next instruction is truncated. -/
theorem fetch_is_padded_iff (tx : Transaction S) (reached : TxExecContext S) :
    tx.Reaches reached →
      (FetchesPadded reached ↔ ¬reached.curCall.TruncatedNext) :=
  fun _ => fetchesPadded_iff reached

end Law

namespace Sample

/-- The digests of the codes of this module. -/
@[reducible] def fetchKeccak : Keccak256 := keccak
  [([], 0xc5d2460186f7233c927e7db2dcc703c0e500b653ca82273b7bfad8045d85a470),
    ([0x60], 0x15a5de5d00dfc39d199ee772e89858c204d1d545de092db54a345c7303942607),
    ([0x60, 0x05],
      0x833657cddc570dd91a5715fcdb759e6dc72e3670b7506790c97b974b3276926d)]

/-- A transaction to an account with a code. -/
def fetchTx (code : Bytes) : Transaction DummyStateStore :=
  letI := fetchKeccak
  let state := DummyStateStore.new.setCode 0xaa code
  { sender := 1
    recipient := some 0xaa
    value := 0
    gas := 1000000
    gasPrice := 0
    input := []
    accessList := none
    state := state
    committedState := state
    env := env .london }

end Sample

/-- A `PUSH1` whose byte is the last of the code is fetched with its data. -/
theorem complete_push_is_fetched :
    letI := Sample.fetchKeccak
    ∃ reached : TxExecContext DummyStateStore,
      (Sample.fetchTx [0x60, 0x05]).Reaches reached ∧
        reached.curCall.code.asBytes = [0x60, 0x05] ∧
        reached.curCall.pc = 0 ∧ FetchesPadded reached := by
  let := Sample.fetchKeccak
  obtain ⟨reached, reaches, code, pc⟩ :=
    (Sample.fetchTx [0x60, 0x05]).exists_reached 0
      (fun reached => reached.curCall.code.asBytes = [0x60, 0x05] ∧
        reached.curCall.pc = 0) (by decide +kernel)
  refine ⟨reached, reaches, code, pc, ?_⟩
  rw [fetch_is_padded_iff _ _ reaches, CallFrame.TruncatedNext, code, pc]
  decide

/-- A `PUSH1` at the end of the code panics. -/
theorem truncated_push_panics :
    letI := Sample.fetchKeccak
    ∃ reached : TxExecContext DummyStateStore,
      (Sample.fetchTx [0x60]).Reaches reached ∧
        reached.curCall.code.asBytes = [0x60] ∧ reached.curCall.pc = 0 ∧
        ¬FetchesPadded reached ∧ iterate reached = .panic .indexOutOfBounds := by
  let := Sample.fetchKeccak
  obtain ⟨reached, reaches, code, pc⟩ :=
    (Sample.fetchTx [0x60]).exists_reached 0
      (fun reached => reached.curCall.code.asBytes = [0x60] ∧
        reached.curCall.pc = 0) (by decide +kernel)
  have truncated : reached.curCall.TruncatedNext := by
    rw [CallFrame.TruncatedNext, code, pc]
    decide
  exact ⟨reached, reaches, code, pc,
    fun fetches => (fetchesPadded_iff reached).mp fetches truncated,
    iterate_truncated truncated⟩

end Qevm
