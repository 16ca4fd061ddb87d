import Qevm.Core.Creations
import Qevm.Laws.Immediate

/-!
# Jumps

A jump stores one less than its destination, because the loop is about to add one.  For the
first byte of a code the subtraction wraps around, and so does the addition.
-/

namespace Qevm

open Params WorldState Exec TxExecContext Procedure

section Law

variable {S : Type}

/-- The executing instruction jumps to a destination, with enough operands and gas. -/
inductive JumpsTo (inst : Inst) (before : TxExecContext S) (dest : U256) : Prop
  | jump :
      inst.opcode = .jump → 1 ≤ before.height → operand before 0 = dest →
      gasMid ≤ before.curCall.unusedGas → JumpsTo inst before dest
  | jumpi :
      inst.opcode = .jumpi → 2 ≤ before.height → operand before 0 = dest →
      operand before 1 ≠ 0 → gasSlow ≤ before.curCall.unusedGas → JumpsTo inst before dest

variable {before after : TxExecContext S} {dest : U256}

instance (inst : Inst) (before : TxExecContext S) (dest : U256) :
    Decidable (JumpsTo inst before dest) :=
  decidable_of_iff
    ((inst.opcode = .jump ∧ 1 ≤ before.height ∧ operand before 0 = dest ∧
        gasMid ≤ before.curCall.unusedGas) ∨
      (inst.opcode = .jumpi ∧ 2 ≤ before.height ∧ operand before 0 = dest ∧
        operand before 1 ≠ 0 ∧ gasSlow ≤ before.curCall.unusedGas))
    ⟨fun jumps => jumps.elim (fun ⟨kind, operands, dests, paid⟩ =>
        .jump kind operands dests paid)
      fun ⟨kind, operands, dests, taken, paid⟩ => .jumpi kind operands dests taken paid,
    fun jumps => by
      cases jumps with
      | jump kind operands dests paid => exact .inl ⟨kind, operands, dests, paid⟩
      | jumpi kind operands dests taken paid =>
          exact .inr ⟨kind, operands, dests, taken, paid⟩⟩

/-- A jump is exact: the instruction stores one less than its destination, the loop adds the
width of the instruction, and neither number wraps. -/
def JumpsExactly [WorldState S] [Keccak256]
    (inst : Inst) (before : TxExecContext S) (dest : U256) : Prop :=
  ∃ working after, effect inst before = .ok .next working ∧ Step before after ∧
    working.curCall.pc.toNat + 1 = dest.toNat ∧
    after.curCall.pc.toNat = working.curCall.pc.toNat + (inst.skip.toNat + 1) ∧
    after.curCall.pc.toNat = dest.toNat

namespace Exec

/-- A valid destination is stored less one. -/
theorem setPc_valid
    {target : UInt64} (valid : before.curCall.code.isValidJumpdest dest = true)
    (converted : checkedAsU64 dest = some target) :
    setPc dest before = .ok () { before with
      curCall := { before.curCall with pc := target - 1 } } := by
  simp only [setPc, bind, Procedure.bind, call, reads, raiseIf, valid, Bool.not_true,
    Bool.false_eq_true, if_false, converted, unwrap]
  rfl

/-- Gas that is there can be charged, and operands and code are as before. -/
theorem useGas_total {gas : Gas} (enough : gas ≤ before.curCall.unusedGas) :
    ∃ paid, useGas gas before = .ok () paid ∧
      paid.curCall.stack = before.curCall.stack ∧ paid.curCall.code = before.curCall.code :=
  ⟨_, useGas_enough enough, rfl, rfl⟩

/-- `JUMP` to a valid destination stores one less than it. -/
theorem jump_valid
    {target : UInt64} (enough : gasMid ≤ before.curCall.unusedGas)
    (operands : 1 ≤ before.height) (dests : operand before 0 = dest)
    (valid : before.curCall.code.isValidJumpdest dest = true)
    (converted : checkedAsU64 dest = some target) :
    ∃ working, jump before = .ok () working ∧ working.curCall.pc = target - 1 := by
  obtain ⟨paid, pays, stack, code⟩ := useGas_total enough
  have pops : consume1 paid = .ok dest (popped paid 1) := by
    rw [consume1_total (by rwa [height, stack]), operand, stack, ← operand, dests]
  rw [← code] at valid
  exact ⟨_, bind_ok.mpr ⟨(), paid, pays,
    bind_ok.mpr ⟨dest, popped paid 1, pops, setPc_valid valid converted⟩⟩, rfl⟩

/-- So does `JUMPI` when its condition is not zero. -/
theorem jumpi_valid
    {target : UInt64} (enough : gasSlow ≤ before.curCall.unusedGas)
    (operands : 2 ≤ before.height) (dests : operand before 0 = dest)
    (taken : operand before 1 ≠ 0)
    (valid : before.curCall.code.isValidJumpdest dest = true)
    (converted : checkedAsU64 dest = some target) :
    ∃ working, jumpi before = .ok () working ∧ working.curCall.pc = target - 1 := by
  obtain ⟨paid, pays, stack, code⟩ := useGas_total enough
  have pops : consume2 paid = .ok (dest, operand before 1) (popped paid 2) := by
    rw [consume2_total (by rwa [height, stack]), operand, operand, stack, ← operand,
      ← operand, dests]
  rw [← code] at valid
  exact ⟨_, bind_ok.mpr ⟨(), paid, pays, bind_ok.mpr ⟨(dest, operand before 1),
    popped paid 2, pops, when_ok.mpr (.inl ⟨taken, setPc_valid valid converted⟩)⟩⟩, rfl⟩

variable [WorldState S] [Keccak256] {inst : Inst}

/-- A jump to a valid destination stores one less than it. -/
theorem effect_jumps
    {target : UInt64} (jumps : JumpsTo inst before dest)
    (valid : before.curCall.code.isValidJumpdest dest = true)
    (converted : checkedAsU64 dest = some target) :
    ∃ working, effect inst before = .ok .next working ∧
      working.curCall.pc = target - 1 := by
  obtain ⟨opcode, data, pos⟩ := inst
  cases jumps with
  | jump kind operands dests paid =>
      obtain rfl : opcode = .jump := kind
      obtain ⟨working, runs, stored⟩ := jump_valid paid operands dests valid converted
      exact ⟨working, bind_ok.mpr ⟨(), working, runs, rfl⟩, stored⟩
  | jumpi kind operands dests taken paid =>
      obtain rfl : opcode = .jumpi := kind
      obtain ⟨working, runs, stored⟩ :=
        jumpi_valid paid operands dests taken valid converted
      exact ⟨working, bind_ok.mpr ⟨(), working, runs, rfl⟩, stored⟩

/-- An instruction that asks for the next one is an iteration. -/
theorem step_of_next
    {working : TxExecContext S} (running : before.status = .running)
    (fetches : Fetches before inst) (effected : effect inst before = .ok .next working) :
    Step before (advanced inst working) := by
  refine ⟨running, iterate_ok.mpr ⟨inst, fetches, working, ?_, rfl⟩⟩
  have dispatched : dispatch inst before = .ok () working := by
    rw [dispatch_eq]
    exact bind_ok.mpr ⟨.next, working, effected, rfl⟩
  simp only [handle, dispatched]

end Exec

variable [WorldState S] [Keccak256] {inst : Inst}

omit [WorldState S] [Keccak256] in
/-- A jump is an instruction of one byte that opens no frame. -/
theorem JumpsTo.narrow (jumps : JumpsTo inst before dest) (fetches : Fetches before inst) :
    inst.skip = 0 ∧ inst.opcode.entersCall = false := by
  cases jumps with
  | jump kind => exact ⟨fetches.skip (by simp [kind]), by simp [kind, Opcode.entersCall]⟩
  | jumpi kind => exact ⟨fetches.skip (by simp [kind]), by simp [kind, Opcode.entersCall]⟩

/-- The next instruction after a jump is fetched at its destination. -/
theorem JumpsTo.lands
    {code : Bytes} (isCode : before.curCall.code = (PlainCode.new code).toCode)
    (running : before.status = .running) (fetches : Fetches before inst)
    (jumps : JumpsTo inst before dest)
    (valid : before.curCall.code.isValidJumpdest dest = true) :
    ∃ target working after, target.toNat = dest.toNat ∧
      effect inst before = .ok .next working ∧ working.curCall.pc = target - 1 ∧
      Step before after ∧ after.curCall.pc = target := by
  obtain ⟨target, converted⟩ : ∃ target, checkedAsU64 dest = some target := by
    rw [isCode] at valid
    cases converted : checkedAsU64 dest with
    | none => simp [PlainCode.toCode, PlainCode.isValidJumpdest, converted] at valid
    | some target => exact ⟨target, rfl⟩
  obtain ⟨working, effected, stored⟩ := effect_jumps jumps valid converted
  obtain ⟨narrow, closed⟩ := jumps.narrow fetches
  refine ⟨target, working, advanced inst working, toNat_checkedAsU64 converted, effected,
    stored, step_of_next running fetches effected, ?_⟩
  simp only [advanced, closed, Bool.false_eq_true, if_false, stored, narrow,
    UInt64.zero_add, UInt64.sub_add_cancel]

/-- No jump to the first byte is exact: one less than zero is no number. -/
theorem not_jumpsExactly_zero : ¬JumpsExactly inst before 0 :=
  fun ⟨_, _, _, _, exact, _⟩ => absurd exact (Nat.succ_ne_zero _)

/-- A jump to a valid destination is exact when it does not lead to the first byte of the
code, and only then. -/
theorem jump_exact_iff
    {code : Bytes} (isCode : before.curCall.code = (PlainCode.new code).toCode)
    (running : before.status = .running) (fetches : Fetches before inst)
    (jumps : JumpsTo inst before dest)
    (valid : before.curCall.code.isValidJumpdest dest = true) :
    JumpsExactly inst before dest ↔ dest ≠ 0 := by
  obtain ⟨target, working, after, same, effected, stored, step, next⟩ :=
    jumps.lands isCode running fetches valid
  have narrow := (jumps.narrow fetches).1
  constructor
  · rintro exact rfl
    exact not_jumpsExactly_zero exact
  · intro positive
    have isPositive : dest.toNat ≠ 0 := fun zero => positive (BitVec.eq_of_toNat_eq zero)
    have one : (1 : UInt64).toNat = 1 := rfl
    have below : (target - 1).toNat + 1 = target.toNat := by
      have small := target.toNat_lt
      rw [UInt64.toNat_sub, one]
      omega
    have skip : inst.skip.toNat = 0 := by rw [narrow]; rfl
    refine ⟨working, after, effected, step, ?_, ?_, ?_⟩
    · rw [stored, below, same]
    · rw [next, stored, skip, ← below]
    · rw [next, same]

end Law

namespace Sample

/-- Begins with two destinations, pushes a number and one of them, and jumps there. -/
def loopingCode (dest jump : UInt8) : Bytes := [0x5b, 0x5b, 0x60, 0x01, 0x60, dest, jump]

/-- The digests that the transactions of this module look at. -/
@[reducible] def loopingKeccak : Keccak256 := keccak
  [([], 0xc5d2460186f7233c927e7db2dcc703c0e500b653ca82273b7bfad8045d85a470),
    (loopingCode 0 0x56,
      0x95d33f87e2d2e307738410f1921dcc30fa412b42b04f2c9e5c33570e611b0560),
    (loopingCode 0 0x57,
      0x1b14f266ef701477508aa46ba211b9b4b077c51dba2d5ad1842cbaf66ff95d62),
    (loopingCode 1 0x56,
      0x765215a6c904926dd97d9b64028f8b9627c3299d72e01c70068b4a0c7f92bd1a),
    (loopingCode 1 0x57,
      0xcfacc0f190ffd749c9ad187410112be79371125fed41524005424a7c6992ebde)]

/-- A transaction to an account with that code. -/
def loopingTx (dest jump : UInt8) : Transaction DummyStateStore :=
  letI := loopingKeccak
  { callingTx [] with state := DummyStateStore.new.setCode 0xaa (loopingCode dest jump) }

/-- Such a transaction comes to its jump. -/
theorem loopingTx_reaches
    (dest jump : UInt8) (opcode : Opcode) (target : U256)
    (code : letI := loopingKeccak
      ((loopingTx dest jump).after 4).map (fun before => before.curCall.code) =
        some (PlainCode.new (loopingCode dest jump)).toCode)
    (found : letI := loopingKeccak
      ((loopingTx dest jump).after 4).any (fun before => decide
        (Fetches before ⟨opcode, none, 0⟩ ∧ JumpsTo ⟨opcode, none, 0⟩ before target ∧
          before.curCall.code.isValidJumpdest target = true ∧
          before.status.leftGas = none)) = true) :
    letI := loopingKeccak
    ∃ before, (loopingTx dest jump).Reaches before ∧
      before.curCall.code = (PlainCode.new (loopingCode dest jump)).toCode ∧
      before.status = .running ∧ Fetches before ⟨opcode, none, 0⟩ ∧
      JumpsTo ⟨opcode, none, 0⟩ before target ∧
      before.curCall.code.isValidJumpdest target = true := by
  let := loopingKeccak
  obtain ⟨before, run, holds⟩ := (Option.any_eq_true _ _).mp found
  obtain ⟨fetches, jumps, valid, left⟩ := of_decide_eq_true holds
  rw [run] at code
  exact ⟨before, Transaction.reaches_of_after run, Option.some.inj code,
    TxExecStatus.leftGas_eq_none.mp left, fetches, jumps, valid⟩

end Sample

/-- Jumps to the second byte of a code are exact. -/
theorem second_byte_is_reached :
    letI := Sample.loopingKeccak
    (∃ before, (Sample.loopingTx 1 0x56).Reaches before ∧
      JumpsExactly ⟨.jump, none, 0⟩ before 1) ∧
      ∃ before, (Sample.loopingTx 1 0x57).Reaches before ∧
        JumpsExactly ⟨.jumpi, none, 0⟩ before 1 := by
  let := Sample.loopingKeccak
  constructor
  · obtain ⟨before, reached, code, running, fetches, jumps, valid⟩ :=
      Sample.loopingTx_reaches 1 0x56 .jump 1 rfl (by decide +kernel)
    exact ⟨before, reached,
      (jump_exact_iff code running fetches jumps valid).mpr (by decide)⟩
  · obtain ⟨before, reached, code, running, fetches, jumps, valid⟩ :=
      Sample.loopingTx_reaches 1 0x57 .jumpi 1 rfl (by decide +kernel)
    exact ⟨before, reached,
      (jump_exact_iff code running fetches jumps valid).mpr (by decide)⟩

/-- Jumps to the first byte of a code store the largest counter. -/
theorem first_byte_wraps :
    letI := Sample.loopingKeccak
    (∃ before working, (Sample.loopingTx 0 0x56).Reaches before ∧
      JumpsTo ⟨.jump, none, 0⟩ before 0 ∧
      before.curCall.code.isValidJumpdest 0 = true ∧
      effect ⟨.jump, none, 0⟩ before = .ok .next working ∧
      working.curCall.pc = 18446744073709551615 ∧
      ¬JumpsExactly ⟨.jump, none, 0⟩ before 0) ∧
      ∃ before working, (Sample.loopingTx 0 0x57).Reaches before ∧
        JumpsTo ⟨.jumpi, none, 0⟩ before 0 ∧
        before.curCall.code.isValidJumpdest 0 = true ∧
        effect ⟨.jumpi, none, 0⟩ before = .ok .next working ∧
        working.curCall.pc = 18446744073709551615 ∧
        ¬JumpsExactly ⟨.jumpi, none, 0⟩ before 0 := by
  let := Sample.loopingKeccak
  have first : checkedAsU64 0 = some 0 := rfl
  constructor
  · obtain ⟨before, reached, -, -, -, jumps, valid⟩ :=
      Sample.loopingTx_reaches 0 0x56 .jump 0 rfl (by decide +kernel)
    obtain ⟨working, effected, stored⟩ := effect_jumps jumps valid first
    exact ⟨before, working, reached, jumps, valid, effected, stored, not_jumpsExactly_zero⟩
  · obtain ⟨before, reached, -, -, -, jumps, valid⟩ :=
      Sample.loopingTx_reaches 0 0x57 .jumpi 0 rfl (by decide +kernel)
    obtain ⟨working, effected, stored⟩ := effect_jumps jumps valid first
    exact ⟨before, working, reached, jumps, valid, effected, stored, not_jumpsExactly_zero⟩

end Qevm
