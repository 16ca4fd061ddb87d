import Qevm.Laws.ControlStack

/-!
# Unassigned opcodes

The decoder has variants of its own for the numbered instructions, and these variants
have numbers as well.  A byte that is no instruction fails its frame, unless it is one
of these numbers.
-/

namespace Qevm

open Params WorldState Exec TxExecContext Procedure

/-! ### The instruction set -/

/-- The variants that the decoder uses itself. -/
def Opcode.isInternal : Opcode → Bool
  | push | dup | swap | invalid => true
  | _ => false

/-- A byte is the number of an instruction of the instruction set. -/
def Assigned (byte : UInt8) : Prop :=
  (Opcode.fromU8 byte).any (!·.isInternal) = true

instance (byte : UInt8) : Decidable (Assigned byte) :=
  inferInstanceAs (Decidable (_ = true))

/-- The numbers of the variants that the loop executes. -/
def decoderBytes : List UInt8 := [0xb0, 0xb1, 0xb2]

/-- Unassigned bytes are outside the ranges of the numbered instructions, and most of
them have no variant. -/
theorem unassigned_variant (byte : UInt8) : ¬Assigned byte →
    ¬(0x60 ≤ byte ∧ byte ≤ 0x7f) ∧ ¬(0x80 ≤ byte ∧ byte ≤ 0x8f) ∧
      ¬(0x90 ≤ byte ∧ byte ≤ 0x9f) ∧
      (Opcode.fromU8 byte).getD .invalid =
        if byte = 0xb0 then .push
        else if byte = 0xb1 then .dup
        else if byte = 0xb2 then .swap
        else .invalid := by
  revert byte
  exact each_byte (by decide +kernel)

variable {S : Type}

/-- The byte at the counter of a frame. -/
def CallFrame.nextByte (frame : CallFrame S) : UInt8 :=
  frame.code.asBytes[frame.pc.toNat]?.getD 0

/-- An unassigned byte is fetched as a variant without data and position. -/
theorem fetches_unassigned
    {context : TxExecContext S} (unassigned : ¬Assigned context.curCall.nextByte) :
    Fetches context
      ⟨(Opcode.fromU8 context.curCall.nextByte).getD .invalid, none, 0⟩ := by
  obtain ⟨noPush, noDup, noSwap, -⟩ := unassigned_variant _ unassigned
  unfold CallFrame.nextByte at *
  simp only [Fetches, decode, noPush, noDup, noSwap, if_false]
  cases Opcode.fromU8 (context.curCall.code.asBytes[context.curCall.pc.toNat]?.getD 0) <;>
    rfl

/-! ### Exceptional failures -/

section Law

variable [WorldState S] [Keccak256] {before after : TxExecContext S}

omit [Keccak256] in
/-- The end of a failed call that hands nothing back does not panic. -/
theorem panics_callEnd_failed
    {allowed : Panic → Prop} {err : ExecError} (exceptional : err ≠ .reverted)
    (args : CallArgs S) (data : Bytes) (gas : Gas) :
    Panics allowed (callEnd args data gas (.error err)) := by
  have nothing : Panics allowed (callReturn args data gas (.error err)) := by
    unfold callReturn
    cases err <;> first | contradiction | infer_instance
  unfold callEnd
  infer_instance

omit [WorldState S] [Keccak256] in
/-- Nothing but the room on the stack can be missing for a word. -/
theorem push_raises {word : U256} {raised : ExecError}
    (run : push word before = .error raised after) : raised = .stackOverflow := by
  simp only [push, onCall, CallFrame.onStack, zoom, Stack.push] at run
  by_cases full : before.curCall.stack.top = maxStackDepth
  · simp only [full, dite_true, Outcome.error.injEq] at run
    exact run.1.symm
  · simp [full] at run

omit [Keccak256] in
/-- Settling the end of a creation fails for want of room on the stack only. -/
theorem createEnd_raises
    {args : CreateArgs S} {data : Bytes} {gas : Gas} {ret : Result} {raised : ExecError}
    (run : createEnd args data gas ret before = .error raised after) :
    raised = .stackOverflow := by
  have last (ret : Result) (context : TxExecContext S) :
      wp (push (if ret.isErr then 0 else args.contractAddr.toU256))
        (fun _ _ => True) (fun raised _ => raised = .stackOverflow) context :=
    wp_of_run (fun _ _ _ => trivial) (fun _ _ fails => push_raises fails)
  have holds : wp (createEnd args data gas ret) (fun _ _ => True)
      (fun raised _ => raised = .stackOverflow) before := by
    unfold createEnd
    simp only [wp_bind, onCall, wp_zoom, wp_update, wp_attempt]
    refine wp_of_run (fun _ rolled _ => ?_) (fun err failed fails => ?_)
    · exact wp_mono (wp_true _ |>.mpr trivial) (fun _ _ _ => last _ _)
        (fun _ _ _ => last _ _)
    · by_cases isErr : ret.isErr <;>
        simp [Procedure.when, isErr, writeState, update] at fails
  simpa only [wp, run] using holds

omit [Keccak256] in
/-- So does settling the end of a failed call that hands nothing back. -/
theorem callEnd_raises
    {args : CallArgs S} {data : Bytes} {gas : Gas} {err raised : ExecError}
    (exceptional : err ≠ .reverted)
    (run : callEnd args data gas (.error err) before = .error raised after) :
    raised = .stackOverflow := by
  have nothing : callReturn args data gas (.error err) =
      (pure 0 : Exec S Gas) := by
    cases err <;> first | contradiction | rfl
  have holds : wp (callEnd args data gas (.error err)) (fun _ _ => True)
      (fun raised _ => raised = .stackOverflow) before := by
    unfold callEnd
    rw [nothing]
    simp only [wp_bind, onCall, wp_zoom, wp_update, wp_pure, wp_when, writeState]
    have last (word : U256) (context : TxExecContext S) :
        wp (push word) (fun _ _ => True) (fun raised _ => raised = .stackOverflow)
          context :=
      wp_of_run (fun _ _ _ => trivial) (fun _ _ fails => push_raises fails)
    exact ⟨fun _ => last _ _, fun _ => last _ _⟩
  simpa only [wp, run] using holds

/-- A frame whose failure cannot be settled gives way to a stack overflow. -/
theorem finishCall_raises
    {err raised : ExecError} (exceptional : err ≠ .reverted)
    (run : finishCall [] (.error err) before = .error raised after) :
    raised = .stackOverflow := by
  obtain ⟨frame, callStack, suspended, -⟩ := finishCall_error run
  rw [finishCall_cons [] (.error err) suspended] at run
  cases callType : before.curCall.callType with
  | tx args =>
      rw [callType] at run
      exact absurd run txEnd_error
  | create args =>
      rw [callType] at run
      exact createEnd_raises run
  | call args =>
      rw [callType] at run
      exact callEnd_raises exceptional run

/-- Handing an exceptional failure down the frames of a transaction does not panic. -/
theorem fail_exceptional
    {bottom : CallFrame S} {err : ExecError} {reason : Panic}
    (exceptional : err ≠ .reverted) (stacked : before.Stacked bottom)
    (running : before.status = .running) : Exec.fail err before ≠ .panic reason := by
  intro run
  refine fail_panic (fun _ => False) (· ≠ .reverted) (fun args gas err exceptional => ?_)
    ?_ exceptional stacked running run
  · exact panics_callEnd_failed exceptional args [] gas
  · intro err raised first last exceptional settles
    rw [finishCall_raises exceptional settles]
    exact ExecError.noConfusion

/-! ### The law -/

/-- The next instruction fails its frame as an invalid opcode: nothing else is done, the
frame is gone after the iteration, and nothing panics in a transaction. -/
structure FailsInvalid (context : TxExecContext S) : Prop where
  raises : ∃ inst, Fetches context inst ∧
    dispatch inst context = .error .invalidOpcode context
  ends : ∀ next, Step context next →
    next.callStack.length < context.callStack.length
  settles : ∀ tx : Transaction S, tx.Reaches context → context.status = .running →
    ∀ reason, iterate context ≠ .panic reason

/-- An invalid opcode fails its frame as such. -/
theorem failsInvalid_of_fetches
    {context : TxExecContext S} {data : Option Bytes} {pos : Nat}
    (fetches : Fetches context ⟨.invalid, data, pos⟩) : FailsInvalid context := by
  have raises : dispatch ⟨.invalid, data, pos⟩ context =
      .error .invalidOpcode context := rfl
  refine ⟨⟨_, fetches, raises⟩, ?_, ?_⟩
  · intro next step
    obtain ⟨inst, found, handled⟩ := step.cases
    obtain rfl := Option.some.inj (fetches.symm.trans found)
    obtain continues | enters | settled | ended := handled
    · obtain ⟨working, effected, -⟩ := continues
      contradiction
    · obtain ⟨_, _, _, _, _, _, _, _, _, effected, -⟩ := enters
      contradiction
    · obtain ⟨_, _, _, _, _, _, effected, -⟩ := settled
      contradiction
    · obtain ⟨ending, data, err, settled, ends, finished, rfl⟩ := ended
      have shorter := ends.shorter finished
      exact shorter
  · intro tx reaches running reason run
    obtain ⟨bottom, -, stacked, -⟩ := reaches.stacked running
    have handled : iterate context = (do
        Exec.fail .invalidOpcode
        advancePc (Inst.skip ⟨.invalid, data, pos⟩) false) context := by
      have fetched := fetch_ok.mpr ⟨rfl, fetches⟩
      simp only [iterate, bind, Procedure.bind, fetched, handle, raises]
      rfl
    rw [handled] at run
    obtain fails | ⟨_, _, -, moves⟩ := bind_panic.mp run
    · exact fail_exceptional ExecError.noConfusion stacked running fails
    · contradiction

omit [WorldState S] [Keccak256] in
/-- The instructions that copy and exchange words fail for other reasons. -/
theorem wp_numbered
    {part : Run Stack Unit} {context : TxExecContext S}
    (raises : wp part (fun _ _ => True) (fun err _ => err ≠ .invalidOpcode)
      context.curCall.stack) :
    wp (onCall (do CallFrame.useGas gasFastest; CallFrame.onStack part) : Exec S Unit)
      (fun _ _ => True) (fun err _ => err ≠ .invalidOpcode) context := by
  simp only [onCall, CallFrame.onStack, wp_zoom, wp_bind, CallFrame.wp_useGas]
  exact ⟨fun _ => ExecError.noConfusion, fun _ => raises⟩

/-- The variants of the decoder do not fail as invalid opcodes. -/
theorem decoder_raises
    {opcode : Opcode} {context : TxExecContext S}
    (internal : opcode = .push ∨ opcode = .dup ∨ opcode = .swap) :
    dispatch ⟨opcode, none, 0⟩ context ≠ .error .invalidOpcode context := by
  intro run
  obtain rfl | rfl | rfl := internal
  · contradiction
  · have holds : wp (onCall (CallFrame.dup 0) : Exec S Unit) (fun _ _ => True)
        (fun err _ => err ≠ .invalidOpcode) context := by
      refine wp_numbered (wp_of_run (fun _ _ _ => trivial) (fun err _ fails => ?_))
      unfold Stack.dup Stack.push at fails
      split at fails
      · simp only [Outcome.error.injEq] at fails
        simp [← fails.1]
      · split at fails
        · split at fails
          · simp only [Outcome.error.injEq] at fails
            simp [← fails.1]
          · contradiction
        · contradiction
    exact wp_error holds run rfl
  · have holds : wp (onCall (CallFrame.swap 0) : Exec S Unit) (fun _ _ => True)
        (fun err _ => err ≠ .invalidOpcode) context := by
      refine wp_numbered (wp_of_run (fun _ _ _ => trivial) (fun err _ fails => ?_))
      unfold Stack.swap at fails
      split at fails
      · simp only [Outcome.error.injEq] at fails
        simp [← fails.1]
      · contradiction
    exact wp_error holds run rfl

/-- A byte that is no instruction fails its frame as an invalid opcode, unless it is the
number of a variant that the decoder uses itself. -/
theorem unassigned_fails_iff
    {context : TxExecContext S} (unassigned : ¬Assigned context.curCall.nextByte) :
    FailsInvalid context ↔ context.curCall.nextByte ∉ decoderBytes := by
  have fetches := fetches_unassigned unassigned
  obtain ⟨-, -, -, variant⟩ := unassigned_variant _ unassigned
  constructor
  · rintro ⟨⟨inst, found, raises⟩, -, -⟩ decoder
    obtain rfl := Option.some.inj (fetches.symm.trans found)
    refine decoder_raises ?_ raises
    simp only [decoderBytes, List.mem_cons, List.not_mem_nil, or_false] at decoder
    obtain byte | byte | byte := decoder <;> rw [variant, byte] <;> simp
  · intro other
    simp only [decoderBytes, List.mem_cons, List.not_mem_nil, or_false, not_or] at other
    simp only [other, if_false] at variant
    rw [variant] at fetches
    exact failsInvalid_of_fetches fetches

end Law

namespace Sample

/-- Pushes and pops a seven, and then has the number of the `DUP` variant. -/
def staleCode : Bytes := [0x60, 0x07, 0x50, 0xb1, 0x00]

/-- The digests of the codes of this module. -/
@[reducible] def unassignedKeccak : Keccak256 := keccak
  [([], 0xc5d2460186f7233c927e7db2dcc703c0e500b653ca82273b7bfad8045d85a470),
    (staleCode, 0x87ffeb9b3883137dcfda262739fd038adceb36fd9700d08e7567d0224f4712a8),
    ([0x0c], 0x4de0e96b0a8886e42a2c35b57df8a9d58a93b5bff655bc37a30e2ab8e29dc066),
    ([0xb0], 0x7309e659d3b54b90dd276da6f341ea74b95ec755e381715e7140b0cef2f8d99f)]

/-- A transaction to an account with a code. -/
def unassignedTx (code : Bytes) : Transaction DummyStateStore :=
  letI := unassignedKeccak
  { callingTx [] with state := DummyStateStore.new.setCode 0xaa code }

end Sample

/-- The byte `0x0c` fails its frame as an invalid opcode. -/
theorem gap_fails :
    letI := Sample.unassignedKeccak
    ∃ reached : TxExecContext DummyStateStore,
      (Sample.unassignedTx [0x0c]).Reaches reached ∧ reached.curCall.nextByte = 0x0c ∧
        FailsInvalid reached := by
  let := Sample.unassignedKeccak
  obtain ⟨reached, reaches, byte⟩ :=
    (Sample.unassignedTx [0x0c]).exists_reached 0
      (fun reached => reached.curCall.nextByte = 0x0c) (by decide +kernel)
  refine ⟨reached, reaches, byte, (unassigned_fails_iff ?_).mpr ?_⟩
  · rw [byte]
    decide
  · rw [byte]
    decide

/-- The byte `0xb1` pushes a word that has been popped, and the frame goes on; the byte
`0xb0` panics. -/
theorem decoder_byte_pushes_a_stale_word :
    letI := Sample.unassignedKeccak
    (∃ before after : TxExecContext DummyStateStore,
      (Sample.unassignedTx Sample.staleCode).Reaches before ∧
        ¬Assigned before.curCall.nextByte ∧ ¬FailsInvalid before ∧
        before.curCall.stack.top = 0 ∧ Step before after ∧
        after.callStack.length = before.callStack.length ∧
        after.curCall.stack.peek = some 7) ∧
      ∃ reached : TxExecContext DummyStateStore,
        (Sample.unassignedTx [0xb0]).Reaches reached ∧
          ¬Assigned reached.curCall.nextByte ∧
          iterate reached = .panic .noInstructionData := by
  let := Sample.unassignedKeccak
  constructor
  · obtain ⟨before, after, reaches, step, byte, empty, level, stale⟩ :=
      (Sample.unassignedTx Sample.staleCode).exists_step 2
        (fun before after => before.curCall.nextByte = 0xb1 ∧
          before.curCall.stack.top = 0 ∧
          after.callStack.length = before.callStack.length ∧
          after.curCall.stack.peek = some 7) (by decide +kernel)
    have unassigned : ¬Assigned before.curCall.nextByte := by
      rw [byte]
      decide
    refine ⟨before, after, reaches, unassigned, fun fails => ?_, empty, step, level, stale⟩
    have shorter := fails.ends after step
    omega
  · obtain ⟨reached, reaches, byte, fetches⟩ :=
      (Sample.unassignedTx [0xb0]).exists_reached 0
        (fun reached => reached.curCall.nextByte = 0xb0 ∧
          Fetches reached ⟨.push, none, 0⟩) (by decide +kernel)
    refine ⟨reached, reaches, ?_, bind_panic.mpr (.inr ⟨_, _, fetch_ok.mpr
      ⟨rfl, fetches⟩, bind_panic.mpr (.inl rfl)⟩)⟩
    rw [byte]
    decide

end Qevm
