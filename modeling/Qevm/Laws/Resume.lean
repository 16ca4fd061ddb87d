import Qevm.Core.Run
import Qevm.State.Dummy

/-!
# Where a caller is resumed

The program counter of a resumed caller is advanced by the data of the
instruction that ended the callee, and not at all when that instruction may
itself push a frame.  So the caller goes on with the instruction after its call
exactly when the callee ended at an instruction of neither kind.
-/

namespace Qevm

open Exec TxExecContext

/-- The immediate data of a `PUSH` is not empty and fits a word. -/
theorem decode_data
    {code : Bytes} {pc : UInt64} {inst : Inst} {data : Bytes}
    (decoded : decode code pc = some inst) (immediate : inst.data = some data) :
    1 ≤ data.length ∧ data.length ≤ 32 := by
  unfold decode at decoded
  generalize code[pc.toNat]?.getD 0 = rawOpcode at decoded
  by_cases isPush : 0x60 ≤ rawOpcode ∧ rawOpcode ≤ 0x7f
  · have least : 0x60 ≤ rawOpcode.toNat := UInt8.le_iff_toNat_le.mp isPush.1
    have most : rawOpcode.toNat ≤ 0x7f := UInt8.le_iff_toNat_le.mp isPush.2
    simp only [isPush, and_self, if_true] at decoded
    split at decoded
    · obtain rfl := Option.some.inj decoded
      obtain rfl := Option.some.inj immediate
      rw [List.length_drop, List.length_take]
      omega
    · contradiction
  · have absent : inst.data = none := by
      simp only [isPush, if_false] at decoded
      split at decoded
      · rw [← Option.some.inj decoded]
      · split at decoded
        · rw [← Option.some.inj decoded]
        · split at decoded <;> rw [← Option.some.inj decoded]
    rw [absent] at immediate
    contradiction

/-- An instruction has no immediate data exactly when no bytes follow its
opcode. -/
theorem skip_eq_zero
    {code : Bytes} {pc : UInt64} {inst : Inst}
    (decoded : decode code pc = some inst) :
    inst.skip = 0 ↔ inst.data = none := by
  cases immediate : inst.data with
  | none => simp [Inst.skip, immediate]
  | some data =>
      obtain ⟨least, most⟩ := decode_data decoded immediate
      have skip : inst.skip.toNat = data.length := by
        simp only [Inst.skip, immediate, UInt64.toNat_ofNat']
        omega
      simp only [reduceCtorEq, iff_false]
      intro zero
      rw [zero] at skip
      simp at skip
      omega

section Law

variable {S : Type} [WorldState S] [Keccak256]

/-- The distance from the call to the next instruction of the caller is what the
ending instruction of the callee makes of it. -/
theorem Resumption.pc_eq
    {calling pushed ending resumed : TxExecContext S}
    (resumption : Resumption calling pushed ending resumed)
    {inst : Inst} (fetches : Fetches ending inst) :
    resumed.curCall.pc =
      if inst.opcode.entersCall then calling.curCall.pc
      else calling.curCall.pc + (inst.skip + 1) := by
  obtain ⟨caller, waiting, resumes⟩ := resumption.opens.waits
  obtain ⟨found, final, data, err, settled, foundFetches, -, finished, rfl,
    stack, -⟩ := resumption.ends
  obtain rfl : found = inst := Option.some.inj (foundFetches.symm.trans fetches)
  obtain ⟨next, callStack, suspended, leaves⟩ := finishCall_ok finished
  rw [stack, waiting] at suspended
  obtain ⟨rfl, rfl⟩ := List.cons.inj suspended
  have pc : settled.curCall.pc = calling.curCall.pc :=
    leaves.curCall.pc.trans resumes.pc
  unfold advanced
  split
  · exact pc
  · simp only [pc]

/-- A resumed caller is the frame that called, with the frames below it. -/
theorem Resumption.same_caller
    {calling pushed ending resumed : TxExecContext S}
    (resumption : Resumption calling pushed ending resumed) :
    calling.curCall.Same resumed.curCall ∧
      resumed.callStack = calling.callStack := by
  obtain ⟨caller, waiting, resumes⟩ := resumption.opens.waits
  obtain ⟨inst, final, data, err, settled, -, -, finished, rfl, stack, -⟩ :=
    resumption.ends
  obtain ⟨next, callStack, suspended, leaves⟩ := finishCall_ok finished
  rw [stack, waiting] at suspended
  obtain ⟨rfl, rfl⟩ := List.cons.inj suspended
  exact ⟨(resumes.toSame.trans leaves.curCall.toSame).trans
    (remains_advanced settled inst).curCall, leaves.callStack⟩

/-- A caller is resumed at the instruction after its call exactly when its
callee ended at an instruction that neither has immediate data nor may push a
frame. -/
theorem Resumption.resumes_after_call_iff
    {calling pushed ending resumed : TxExecContext S}
    (resumption : Resumption calling pushed ending resumed)
    {inst : Inst} (fetches : Fetches ending inst) :
    (calling.curCall.Same resumed.curCall ∧
        resumed.callStack = calling.callStack ∧
        resumed.curCall.pc = calling.curCall.pc + 1) ↔
      inst.data = none ∧ inst.opcode.entersCall = false := by
  obtain ⟨same, stack⟩ := resumption.same_caller
  rw [resumption.pc_eq fetches]
  simp only [same, stack, true_and]
  by_cases enters : inst.opcode.entersCall
  · simp only [enters, if_true, Bool.true_eq_false, and_false, iff_false]
    intro moved
    have stuck : calling.curCall.pc + 0 = calling.curCall.pc + 1 := by
      rw [UInt64.add_zero]
      exact moved
    exact absurd ((UInt64.add_right_inj _).mp stuck) (by decide)
  · simp only [enters, Bool.false_eq_true, if_false, and_true]
    rw [← skip_eq_zero fetches, UInt64.add_right_inj]
    conv => lhs; rhs; rw [← UInt64.zero_add 1]
    exact UInt64.add_left_inj 1

end Law

namespace Sample

/-- Calls the account `0xbb` with one wei and two units of gas. -/
def callingCode : Bytes :=
  [0x60, 0x00, 0x60, 0x00, 0x60, 0x00, 0x60, 0x00, 0x60, 0x01, 0x60, 0xbb,
    0x60, 0x02, 0xf1, 0x5b, 0x5b, 0x5b, 0x00]

/-- Pushes a word. -/
def pushingCode : Bytes := [0x60, 0x01, 0x00]

/-- Stops at once. -/
def stoppingCode : Bytes := [0x00]

/-- The digests that the transactions of this module look at. -/
@[reducible] def resumeKeccak : Keccak256 := keccak
  [([], 0xc5d2460186f7233c927e7db2dcc703c0e500b653ca82273b7bfad8045d85a470),
    (callingCode,
      0x150a0286aebd9fd868db9741ef25a0bad563486854dce1e41c8096b8ba7fe8a0),
    (pushingCode,
      0xc5ec096756386ce74881e5291930aa6f550b697d105fb209046df03e42443d7d),
    (stoppingCode,
      0xbc36789e7a1e281436464229828f817d6612f7b477d66591ff96a9e064bcc98a)]

/-- A transaction to an account with ten wei that calls the account `0xbb`. -/
def callingTx (calleeCode : Bytes) : Transaction DummyStateStore :=
  letI := resumeKeccak
  let state := ((DummyStateStore.new.setCode 0xaa callingCode).setCode 0xbb
    calleeCode).setBalance 0xaa 10
  { sender := 1
    recipient := some 0xaa
    value := 0
    gas := 1000000
    gasPrice := 0
    input := []
    accessList := none
    state := state
    committedState := state
    env := env .london }

end Sample

/-- A callee that stops resumes its caller at the instruction after the call. -/
theorem caller_goes_on_after_stop :
    letI := Sample.resumeKeccak
    ∃ calling pushed ending resumed : TxExecContext DummyStateStore,
      (Sample.callingTx Sample.stoppingCode).Reaches calling ∧
        Resumption calling pushed ending resumed ∧
        resumed.curCall.pc = calling.curCall.pc + 1 := by
  let := Sample.resumeKeccak
  obtain ⟨run, reached, resumption, fetches⟩ :=
    (Sample.callingTx Sample.stoppingCode).exists_resumption 7 0
      (fun run => Fetches run.ending ⟨.stop, none, 0⟩)
      (by decide +kernel)
  exact ⟨_, _, _, _, reached, resumption,
    ((resumption.resumes_after_call_iff fetches).mpr ⟨rfl, rfl⟩).2.2⟩

/-- A callee that runs out of gas at a `PUSH1` makes its caller skip the
instruction after the call. -/
theorem caller_skips_an_instruction :
    letI := Sample.resumeKeccak
    ∃ calling pushed ending resumed : TxExecContext DummyStateStore,
      (Sample.callingTx Sample.pushingCode).Reaches calling ∧
        Resumption calling pushed ending resumed ∧
        resumed.curCall.pc ≠ calling.curCall.pc + 1 := by
  let := Sample.resumeKeccak
  obtain ⟨run, reached, resumption, skips⟩ :=
    (Sample.callingTx Sample.pushingCode).exists_resumption 7 0
      (fun run => run.resumed.curCall.pc ≠ run.calling.curCall.pc + 1)
      (by decide +kernel)
  exact ⟨_, _, _, _, reached, resumption, skips⟩

end Qevm
