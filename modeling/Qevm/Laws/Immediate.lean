import Qevm.Core.Grid
import Qevm.Core.Operands
import Qevm.Laws.Resume

/-!
# Immediate data is never executed

The program counter moves by the width of the instruction, or by a jump, which
stores one less than a valid destination.  Both stay on the instruction grid of the
code, so a frame never executes the data of a `PUSH`.
-/

set_option synthInstance.maxSize 100000

namespace Qevm

open Params WorldState Exec TxExecContext

variable {S : Type} {before after : TxExecContext S}

/-- The counter has been set one below a valid destination. -/
def Code.Aims (code : Code) (pc : UInt64) : Prop :=
  ∃ dest target, code.isValidJumpdest dest = true ∧
    checkedAsU64 dest = some target ∧ pc = target - 1

namespace Exec

/-- A jump aims at a valid destination. -/
theorem setPc_ok {dest : U256} (run : setPc dest before = .ok () after) :
    before.curCall.code.Aims after.curCall.pc := by
  unfold setPc at run
  have checks := Procedure.reads_bind_ok.mp run
  obtain ⟨_, _, valid, converts⟩ := Procedure.bind_ok.mp checks
  obtain ⟨valid, rfl⟩ := Procedure.raiseIf_ok.mp valid
  obtain ⟨target, _, unwraps, moves⟩ := Procedure.bind_ok.mp converts
  cases converted : checkedAsU64 dest with
  | none =>
      rw [converted] at unwraps
      contradiction
  | some found =>
      rw [converted] at unwraps
      obtain ⟨rfl, rfl⟩ := Outcome.ok.inj unwraps
      obtain ⟨-, rfl⟩ := Outcome.ok.inj moves
      exact ⟨dest, found, by simpa using valid, converted, rfl⟩

/-- Jumps leave the counter alone or aim at a valid destination. -/
theorem jump_ok (run : jump before = .ok () after) :
    before.curCall.code.Aims after.curCall.pc := by
  unfold jump at run
  obtain ⟨_, paid, pays, pops⟩ := Procedure.bind_ok.mp run
  obtain ⟨dest, _, operand, jumps⟩ := Procedure.bind_ok.mp pops
  obtain ⟨-, rfl⟩ := consume1_ok operand
  have quiet : before.Quiet paid := Procedure.Moves.ok pays
  have aims := setPc_ok jumps
  rw [← quiet.curCall.code]
  exact aims

theorem jumpi_ok (run : jumpi before = .ok () after) :
    after.curCall.pc = before.curCall.pc ∨
      before.curCall.code.Aims after.curCall.pc := by
  unfold jumpi at run
  obtain ⟨_, paid, pays, pops⟩ := Procedure.bind_ok.mp run
  obtain ⟨⟨dest, cond⟩, _, operands, jumps⟩ := Procedure.bind_ok.mp pops
  obtain ⟨-, -, rfl⟩ := consume2_ok operands
  have quiet : before.Quiet paid := Procedure.Moves.ok pays
  obtain ⟨-, jumps⟩ | ⟨-, rfl⟩ := Procedure.when_ok.mp jumps
  · have aims := setPc_ok jumps
    rw [← quiet.curCall.code]
    exact .inr aims
  · exact .inl quiet.pc

variable [WorldState S] [Keccak256] {inst : Inst}

/-- An instruction that goes on leaves the counter alone, or is a jump that aims at
a valid destination. -/
theorem effect_pc (run : effect inst before = .ok .next after) :
    after.curCall.pc = before.curCall.pc ∨
      inst.opcode ≠ .push ∧ before.curCall.code.Aims after.curCall.pc := by
  have nested : inst.opcode.entersCall = false := (nested_effect inst).holds run
  by_cases plain : inst.opcode.isPlain
  · exact .inl ((quiet_effect plain).ok run).pc
  · obtain ⟨opcode, data, pos⟩ := inst
    cases opcode <;> simp only [Opcode.isPlain, not_true_eq_false] at plain <;>
      simp only [Opcode.entersCall, Bool.true_eq_false] at nested <;>
      simp only [effect, dispatch] at run
    case stop =>
      have kind := (Outcome.ok.inj run).1
      contradiction
    case «return» | revert | selfDestruct =>
      obtain ⟨_, _, -, last⟩ := Procedure.bind_ok.mp run
      have kind := (Outcome.ok.inj last).1
      contradiction
    case jump =>
      obtain ⟨_, _, jumps, last⟩ := Procedure.bind_ok.mp run
      obtain ⟨-, rfl⟩ := Outcome.ok.inj last
      exact .inr ⟨by simp, jump_ok jumps⟩
    case jumpi =>
      obtain ⟨_, _, jumps, last⟩ := Procedure.bind_ok.mp run
      obtain ⟨-, rfl⟩ := Outcome.ok.inj last
      exact (jumpi_ok jumps).imp_right fun aims => ⟨by simp, aims⟩
    all_goals
      obtain ⟨_, working, writes, last⟩ := Procedure.bind_ok.mp run
      obtain ⟨-, rfl⟩ := Outcome.ok.inj last
      have stays : before.Stays working := Procedure.Moves.ok writes
      exact .inl stays.pc

end Exec

section Law

variable [WorldState S] [Keccak256]

omit [WorldState S] [Keccak256] in
/-- Instructions other than `PUSH` are one byte wide. -/
theorem Exec.Fetches.skip
    {inst : Inst} (fetches : Fetches before inst) (other : inst.opcode ≠ .push) :
    inst.skip = 0 := by
  obtain ⟨push, -⟩ | ⟨skip, -⟩ := decode_width fetches
  · exact absurd push other
  · exact skip

/-- An iteration that neither pushes nor ends a frame keeps the code of the frame
and moves its counter over an instruction, after a jump if there was one. -/
theorem Step.counter
    {inst : Inst} (step : Step before after) (fetches : Fetches before inst)
    (depth : after.callStack.length = before.callStack.length) :
    after.curCall.code = before.curCall.code ∧ inst.opcode ≠ .stop ∧
      ∃ pc, after.curCall.pc = pc + (inst.skip + 1) ∧
        (pc = before.curCall.pc ∨
          inst.opcode ≠ .push ∧ before.curCall.code.Aims pc) := by
  obtain ⟨found, foundFetches, continues | enters | settled | ended⟩ := step.cases
  all_goals obtain rfl := Option.some.inj (fetches.symm.trans foundFetches)
  · obtain ⟨working, effected, rfl⟩ := continues
    have nested : inst.opcode.entersCall = false :=
      (nested_effect inst).holds effected
    have works : before.Works working := Procedure.Moves.ok effected
    have moved : advanced inst working =
        { working with curCall := { working.curCall with
          pc := working.curCall.pc + (inst.skip + 1) } } := by
      simp only [advanced, nested, Bool.false_eq_true, if_false]
    rw [moved]
    refine ⟨works.curCall.code, fun stops => ?_, working.curCall.pc, rfl,
      effect_pc effected⟩
    obtain ⟨opcode, data, pos⟩ := inst
    obtain rfl : opcode = .stop := stops
    have kind := (Outcome.ok.inj effected).1
    contradiction
  · obtain ⟨code, input, value, callee, caller, callType, gas, readOnly, working,
      effected, run⟩ := enters
    have works : before.Works working := Procedure.Moves.ok effected
    rw [callPush_ok run, List.length_cons, works.callStack] at depth
    omega
  · obtain ⟨args, ret, gas, err, working, moved, effected, ends, rfl⟩ := settled
    have opener : inst.opcode.entersCall = true := (nested_effect inst).holds effected
    have stays : before.Stays working := (stays_opener opener).ok effected
    have settles : working.Settles moved := Procedure.Moves.ok ends
    have noPush : inst.opcode ≠ .push := fun push => by
      rw [push] at opener
      contradiction
    have noStop : inst.opcode ≠ .stop := fun stop => by
      rw [stop] at opener
      contradiction
    refine ⟨settles.curCall.code.trans stays.curCall.code, noStop,
      before.curCall.pc, ?_, .inl rfl⟩
    rw [fetches.skip noPush]
    change moved.curCall.pc + 1 = _
    rw [settles.curCall.pc, stays.pc, UInt64.zero_add]
  · obtain ⟨ending, data, err, settled, ends, finished, rfl⟩ := ended
    have shorter := ends.shorter finished
    change settled.callStack.length = _ at depth
    omega

/-- A frame whose code is built from bytes, with its counter on the instruction
grid. -/
def CallFrame.InStep (code : Bytes) (frame : CallFrame S) : Prop :=
  frame.code = (PlainCode.new code).toCode ∧ OnGrid code frame.pc

omit [WorldState S] in
/-- A jump leads to the start of an instruction. -/
theorem onGrid_of_aims {code : Bytes} {pc : UInt64}
    (aims : (PlainCode.new code).toCode.Aims pc) : OnGrid code (pc + 1) := by
  obtain ⟨dest, target, valid, converted, rfl⟩ := aims
  rw [UInt64.sub_add_cancel]
  have isOpcode : (PlainCode.new code).isOpcode target.toNat = true := by
    by_contra data
    have refused : (PlainCode.new code).isValidJumpdest dest = true := valid
    simp only [PlainCode.isValidJumpdest, converted, data, Bool.false_eq_true,
      if_false] at refused
  refine .inr ?_
  cases marked : (genCodeBitmap code)[target.toNat]? with
  | none => simp [PlainCode.isOpcode, PlainCode.new, marked] at isOpcode
  | some start =>
      simp only [PlainCode.isOpcode, PlainCode.new, marked, Option.getD_some]
        at isOpcode
      rw [isOpcode]

/-- An iteration that neither pushes nor ends a frame keeps the counter on the
instruction grid. -/
theorem Step.inStep
    {code : Bytes} (fits : code.length < 2 ^ 64) (step : Step before after)
    (depth : after.callStack.length = before.callStack.length)
    (inStep : before.curCall.InStep code) : after.curCall.InStep code := by
  obtain ⟨inst, fetches, -⟩ := step.cases
  obtain ⟨same, noStop, pc, moved, jumps⟩ := step.counter fetches depth
  obtain ⟨isCode, onGrid⟩ := inStep
  refine ⟨same.trans isCode, ?_⟩
  rw [moved]
  have decoded : decode code before.curCall.pc = some inst := by
    rw [Fetches, isCode] at fetches
    exact fetches
  obtain rfl | ⟨noPush, aims⟩ := jumps
  · refine onGrid.next fits decoded (Nat.lt_of_not_le fun beyond => noStop ?_)
    rw [decode_beyond beyond] at decoded
    rw [← Option.some.inj decoded]
  · rw [fetches.skip noPush, UInt64.zero_add]
    rw [isCode] at aims
    exact onGrid_of_aims aims

/-- A frame that starts at the start of its code never comes to the data of a
`PUSH`, as long as its instructions succeed and no frame is pushed: it is beyond
the end of the code or at an offset that the jump table marks.  The length of a
code is a 64-bit number. -/
theorem immediate_data_is_never_executed
    {code : Bytes} (fits : code.length < 2 ^ 64) {entry reached : TxExecContext S}
    (isCode : entry.curCall.code = (PlainCode.new code).toCode)
    (starts : entry.curCall.pc = 0)
    (run : Relation.ReflTransGen
      (fun before after => Step before after ∧
        after.callStack.length = before.callStack.length) entry reached) :
    reached.curCall.pc.toNat ≥ code.length ∨
      (genCodeBitmap code)[reached.curCall.pc.toNat]? = some true := by
  have inStep : reached.curCall.InStep code := by
    induction run with
    | refl =>
        refine ⟨isCode, ?_⟩
        rw [starts]
        exact OnGrid.start code
    | tail _ step inductionHypothesis =>
        exact step.1.inStep fits step.2 inductionHypothesis
  exact inStep.2

end Law

namespace Sample

/-- Jumps over nothing and pushes two bytes, the second of which looks like a
`JUMPDEST`. -/
def jumpingCode : Bytes := [0x60, 0x03, 0x56, 0x5b, 0x61, 0x00, 0x5b, 0x00]

/-- The digests that the transaction of this module looks at. -/
@[reducible] def jumpingKeccak : Keccak256 := keccak
  [([], 0xc5d2460186f7233c927e7db2dcc703c0e500b653ca82273b7bfad8045d85a470),
    (jumpingCode,
      0x2e205ee3517441d526f38a204d394265948da5473e0ee34ebc80a801c3b93233)]

/-- A transaction to an account with that code. -/
def jumpingTx : Transaction DummyStateStore :=
  letI := jumpingKeccak
  { callingTx [] with state := DummyStateStore.new.setCode 0xaa jumpingCode }

end Sample

/-- After the jump and the push the frame is at the marked `STOP`. -/
theorem jump_stays_on_the_grid :
    letI := Sample.jumpingKeccak
    ∃ entry reached : TxExecContext DummyStateStore,
      Sample.jumpingTx.Enters entry ∧ reached.curCall.pc = 7 ∧
        (genCodeBitmap Sample.jumpingCode)[7]? = some true := by
  let := Sample.jumpingKeccak
  obtain ⟨entry, entered, found⟩ := (Option.any_eq_true
    (fun entry : TxExecContext DummyStateStore =>
      decide (entry.curCall.pc = 0 ∧ entry.callStack.length = 1) &&
        (runFor (fun context => decide (context.callStack.length = 1)) 4 entry).any
          fun reached : TxExecContext DummyStateStore =>
            decide (reached.curCall.pc = 7))
    Sample.jumpingTx.entry).mp (by decide +kernel)
  simp only [Bool.and_eq_true, Option.any_eq_true, decide_eq_true_eq] at found
  obtain ⟨⟨starts, level⟩, reached, run, counter⟩ := found
  have isCode : entry.curCall.code = (PlainCode.new Sample.jumpingCode).toCode := by
    have codes : Sample.jumpingTx.entry.map (fun entry => entry.curCall.code) =
        some (PlainCode.new Sample.jumpingCode).toCode := rfl
    rw [entered] at codes
    exact Option.some.inj codes
  have onGrid := immediate_data_is_never_executed (by decide) isCode starts
    (runFor_level level run)
  rw [counter] at onGrid
  refine ⟨entry, reached, Transaction.entry_eq_some.mp entered, counter,
    onGrid.resolve_left (by decide)⟩

end Qevm
