import Qevm.Laws.Deposit
import Qevm.Laws.Heights
import Qevm.Laws.MemoryAccess

/-!
# The gas of a frame that ends

A frame that stops or reverts should hand its gas on, less the price of the code that it
creates, and the gas of a frame that fails should be lost.  The end of a call does so, the
end of a creation hands the gas on whatever has happened, and the end of a transaction
reports it.
-/

set_option synthInstance.maxSize 100000

namespace Qevm

open Params Exec TxExecContext Procedure WorldState

variable {S : Type}

/-! ### What is to survive -/

/-- A frame that creates a contract. -/
def CallType.creates : CallType S → Bool
  | .create _ => true
  | .tx _ | .call _ => false

/-- What is to survive of the gas of a frame that ends in `data` and an outcome with
`left`: the price of its code is paid, and everything is lost with an error that is no
revert, as with code that is rejected. -/
def surviving (creates : Bool) (fork : Fork) (data : Bytes) (left : Nat) : Result → Nat
  | .ok () =>
      if creates then
        if Legal fork data ∧ storePrice data ≤ left then left - storePrice data else 0
      else left
  | .error .reverted => left
  | .error _ => 0

/-- An outcome with which a frame hands something back. -/
def HandsBack (err : Result) : Prop := err = .ok () ∨ err = .error .reverted

section Outcomes

variable {fork : Fork} {data : Bytes} {kept left : Nat} {creates : Bool}

/-- The gas that survives an error. -/
theorem surviving_error (raised : ExecError) :
    surviving creates fork data left (.error raised) =
      if raised = .reverted then left else 0 := by
  cases raised <;> rfl

/-- The gas of a frame that creates nothing survives with what it hands back. -/
theorem surviving_handsBack {err : Result} (back : HandsBack err) :
    surviving false fork data left err = left := by
  obtain rfl | rfl := back <;> rfl

/-- All gas is lost where nothing is handed back. -/
theorem surviving_lost {err : Result} (lost : ¬HandsBack err) :
    surviving creates fork data left err = 0 := by
  cases err with
  | ok _ => exact absurd (.inl rfl) lost
  | error raised =>
      rw [surviving_error, if_neg]
      rintro rfl
      exact lost (.inr rfl)

end Outcomes

namespace Exec

variable {before after : TxExecContext S} {data : Bytes} {ret : Result}
variable {args : CallArgs S} {gas left : Gas}

/-! ### The end of a call -/

/-- What a call hands back is written to the memory of its caller. -/
theorem callReturn_handsBack (back : HandsBack ret) :
    (callReturn args data gas ret : Exec S Gas) = (do
      let _ ← onCall (CallFrame.onMemory (Memory.set args.retOff args.retLen data))
      pure gas) := by
  obtain rfl | rfl := back <;> rfl

/-- Otherwise nothing is written. -/
theorem callReturn_lost (lost : ¬HandsBack ret) :
    (callReturn args data gas ret : Exec S Gas) = pure 0 := by
  cases ret with
  | ok _ => exact absurd (.inl rfl) lost
  | error raised =>
      cases raised
      case reverted => exact absurd (.inr rfl) lost
      all_goals rfl

/-- A call hands the gas back that is to survive, to a caller whose memory may contain the
region that it returns to. -/
theorem callReturn_gas
    (fork : Fork) (run : callReturn args data gas ret before = .ok left after) :
    left.toNat = surviving false fork data gas.toNat ret ∧
      after.frameGas = before.frameGas ∧
      (HandsBack ret → args.retOff.toNat + args.retLen.toNat ≤ maxMemSize) := by
  by_cases back : HandsBack ret
  · rw [callReturn_handsBack back] at run
    obtain ⟨fee, middle, sets, returns⟩ := bind_ok.mp run
    obtain ⟨rfl, rfl⟩ := Outcome.ok.inj returns
    obtain ⟨memory, set, rfl⟩ := onMemory_ok sets
    exact ⟨(surviving_handsBack back).symm, rfl,
      fun _ => Memory.set_returns_iff.mp ⟨fee, memory, set⟩⟩
  · rw [callReturn_lost back] at run
    obtain ⟨rfl, rfl⟩ := Outcome.ok.inj run
    exact ⟨(surviving_lost back).symm, rfl, fun handed => absurd handed back⟩

/-- Nothing else can fail. -/
theorem callReturn_total
    (fits : HandsBack ret → args.retOff.toNat + args.retLen.toNat ≤ maxMemSize) :
    ∃ left after, callReturn args data gas ret before = .ok left after ∧
      after.curCall.stack = before.curCall.stack := by
  by_cases back : HandsBack ret
  · have writes : ∃ fee memory,
        Memory.set args.retOff args.retLen data before.curCall.memory = .ok fee memory :=
      Memory.set_returns_iff.mpr (fits back)
    obtain ⟨fee, memory, set⟩ := writes
    rw [callReturn_handsBack back]
    refine ⟨gas, { before with curCall := { before.curCall with memory := memory } }, ?_,
      rfl⟩
    simp only [bind, Procedure.bind, onCall, CallFrame.onMemory, zoom, set]
    rfl
  · rw [callReturn_lost back]
    exact ⟨0, before, rfl, rfl⟩

variable [WorldState S]

/-- The end of a call adds the gas that is to survive. -/
theorem callEnd_gas (fork : Fork) (run : callEnd args data gas ret before = .ok () after) :
    after.frameGas =
        (before.frameGas + surviving false fork data gas.toNat ret) % 2 ^ 64 ∧
      (HandsBack ret → args.retOff.toNat + args.retLen.toNat ≤ maxMemSize) := by
  obtain ⟨left, written, stack, returned, -, rfl⟩ := callEnd_ok run
  obtain ⟨handed, kept, fits⟩ := callReturn_gas fork returned
  refine ⟨?_, fits⟩
  rw [frameGas] at kept
  rw [frameGas, UInt64.toNat_add, handed, kept]
  rfl

/-- The end of a call can be settled in a frame with room for the answer whose memory may
contain the region that is returned to. -/
theorem callEnd_total
    (data : Bytes) (gas : Gas) (room : before.height < maxStackDepth)
    (fits : HandsBack ret → args.retOff.toNat + args.retLen.toNat ≤ maxMemSize) :
    ∃ after, callEnd args data gas ret before = .ok () after := by
  have rolls : Procedure.when ret.isErr
      (writeState fun state => args.snapshot.elim state (rollback state)) before =
        .ok () { before with state := returnedState args.snapshot ret before.state } := by
    cases ret <;> rfl
  have returns : ∃ left written,
      callReturn args data gas ret
          { before with state := returnedState args.snapshot ret before.state } =
        .ok left written ∧ written.curCall.stack = before.curCall.stack :=
    callReturn_total fits
  obtain ⟨left, written, returned, stack⟩ := returns
  have roomLeft : written.curCall.stack.top < maxStackDepth := by
    rw [stack]
    exact room
  obtain ⟨answered, pushes⟩ := Stack.push_room (if ret.isErr then 0 else 1) roomLeft
  refine ⟨{ written with
    curCall := { written.curCall with
      unusedGas := written.curCall.unusedGas + left
      stack := answered
      lastReturned := data } }, ?_⟩
  simp only [callEnd, bind, Procedure.bind, rolls, returned, push, onCall, zoom,
    Procedure.update, CallFrame.onStack, pushes]

end Exec

/-! ### The law -/

/-- When a caller gets the gas that is to survive the end of its callee: it has kept `kept`
and the callee ends with `left`. -/
inductive CallerSettles (fork : Fork) (data : Bytes) (kept left : Nat) :
    CallType S → Result → Prop
  | returned {args : CallArgs S} {err : Result} : HandsBack err →
      args.retOff.toNat + args.retLen.toNat ≤ maxMemSize → kept + left < 2 ^ 64 →
      CallerSettles fork data kept left (.call args) err
  | lost {args : CallArgs S} {err : Result} : ¬HandsBack err →
      CallerSettles fork data kept left (.call args) err
  | created {args : CreateArgs S} {err : Result} :
      CreatorSettles fork data kept left err →
      CallerSettles fork data kept left (.create args) err

/-- When the gas that a transaction reports is the gas that is to survive the end of its
frame. -/
inductive SenderReports (creates : Bool) (data : Bytes) (left : Nat) : Result → Prop
  | called : creates = false → SenderReports creates data left (.ok ())
  | free : data = [] → SenderReports creates data left (.ok ())
  | reverted : SenderReports creates data left (.error .reverted)
  | used {err : Result} : left = 0 → SenderReports creates data left err

section Outcomes

variable {fork : Fork} {data : Bytes} {kept left held : Nat} {err : Result}

/-- A creation settles its gas when what is to survive is added to what has been kept. -/
theorem depositPaid_iff_surviving :
    DepositPaid fork data err kept left held True True ↔
      held = kept + surviving true fork data left err := by
  cases err with
  | ok _ =>
      by_cases legal : Legal fork data
      · rw [depositPaid_legal legal]
        simp only [true_and, surviving, if_true, legal]
        split <;> omega
      · rw [depositPaid_illegal legal]
        simp only [true_and, surviving, if_true, legal, false_and, if_false, Nat.add_zero]
  | error raised =>
      rw [depositPaid_error, surviving_error]
      split <;> rfl

/-- All the gas of a frame is to survive in these cases only. -/
theorem surviving_eq_iff (fork : Fork) {creates : Bool} :
    left = surviving creates fork data left err ↔
      SenderReports creates data left err := by
  have empty : storePrice data = 0 ↔ data = [] := by
    simp [storePrice]
  constructor
  · intro same
    cases err with
    | ok _ =>
        cases creates with
        | false => exact .called rfl
        | true =>
            simp only [surviving, if_true] at same
            split at same
            · by_cases used : left = 0
              · exact .used used
              · exact .free (empty.mp (by omega))
            · exact .used same
    | error raised =>
        rw [surviving_error] at same
        split at same
        · subst raised
          exact .reverted
        · exact .used same
  · intro reports
    cases reports with
    | called calls =>
        subst calls
        rfl
    | free none =>
        subst none
        cases creates
        · rfl
        · simp [surviving, legal_nil, storePrice]
    | reverted => rfl
    | used nothing =>
        subst nothing
        cases err with
        | ok _ => simp [surviving]
        | error raised => simp [surviving_error]

end Outcomes

section Law

variable [WorldState S] [Keccak256]

/-- A caller is resumed with the gas that the settling of the end leaves it. -/
theorem completes_with_iff
    {calling pushed ending final : TxExecContext S} {caller : CallFrame S}
    {data : Bytes} {err : Result} {held : Nat}
    (opens : Opens calling pushed)
    (waiting : pushed.callStack = caller :: calling.callStack)
    (inside : Inside calling.callStack.length pushed ending)
    (ends : Ends ending final data err)
    (depth : final.callStack.length = pushed.callStack.length) :
    (∃ resumed, Completion calling pushed ending resumed final data err ∧
        resumed.frameGas = held) ↔
      ∃ settled, settleEnd pushed.curCall.callType data final.curCall.unusedGas err
          { final with callStack := calling.callStack, curCall := caller } =
            .ok () settled ∧ settled.frameGas = held := by
  constructor
  · rintro ⟨resumed, completion, gas⟩
    obtain ⟨last, found, settled, -, frames, settles, rfl⟩ := completion.settled
    obtain ⟨rfl, -⟩ := List.cons.inj (waiting.symm.trans frames)
    rw [frameGas_advanced] at gas
    exact ⟨settled, settles, gas⟩
  · rintro ⟨settled, settles, gas⟩
    obtain ⟨last, completion⟩ := opens.completes inside ends depth waiting settles
    refine ⟨_, completion, ?_⟩
    rw [frameGas_advanced]
    exact gas

omit [Keccak256] in
/-- The end of a call settles the gas as it is to be in these cases only. -/
theorem callEnd_settles_iff
    {args : CallArgs S} {data : Bytes} {gas : Gas} {err : Result} (fork : Fork)
    {before : TxExecContext S} (room : before.height < maxStackDepth) :
    (∃ settled, callEnd args data gas err before = .ok () settled ∧
        settled.frameGas =
          before.frameGas + surviving false fork data gas.toNat err) ↔
      CallerSettles fork data before.frameGas gas.toNat (.call args) err := by
  have kept : before.frameGas < 2 ^ 64 := before.curCall.unusedGas.toNat_lt
  constructor
  · rintro ⟨settled, settles, held⟩
    obtain ⟨added, fits⟩ := callEnd_gas fork settles
    by_cases back : HandsBack err
    · rw [surviving_handsBack back] at added held
      exact .returned back (fits back) (by omega)
    · exact .lost back
  · intro conditions
    have fits : HandsBack err → args.retOff.toNat + args.retLen.toNat ≤ maxMemSize := by
      intro back
      cases conditions with
      | returned _ fits => exact fits
      | lost lost => exact absurd back lost
    obtain ⟨settled, settles⟩ := callEnd_total data gas room fits
    refine ⟨settled, settles, ?_⟩
    rw [(callEnd_gas fork settles).1]
    cases conditions with
    | returned back _ small =>
        rw [surviving_handsBack back]
        exact Nat.mod_eq_of_lt small
    | lost lost =>
        rw [surviving_lost lost]
        exact Nat.mod_eq_of_lt kept

omit [Keccak256] in
/-- The end of a creation settles the gas as it is to be in these cases only. -/
theorem createEnd_settles_iff
    {args : CreateArgs S} {data : Bytes} {gas : Gas} {err : Result}
    {before : TxExecContext S} (room : before.height < maxStackDepth)
    (bounded : data.length ≤ maxMemSize) :
    (∃ settled, createEnd args data gas err before = .ok () settled ∧
        settled.frameGas = before.frameGas +
          surviving true before.curCall.fork data gas.toNat err) ↔
      CallerSettles before.curCall.fork data before.frameGas gas.toNat (.create args)
        err := by
  have unique : (∃ settled, createEnd args data gas err before = .ok () settled ∧
      settled.frameGas = before.frameGas +
        surviving true before.curCall.fork data gas.toNat err) ↔
      CreatorSettles before.curCall.fork data before.frameGas gas.toNat err := by
    obtain ⟨settled, settles, -⟩ := createEnd_total args data gas err before room
    have kept : before.frameGas < 2 ^ 64 := before.curCall.unusedGas.toNat_lt
    rw [← depositPaid_creator_iff kept gas.toNat_lt
      (createEnd_gas bounded settles) (fun _ _ => trivial) (fun _ _ => trivial),
      depositPaid_iff_surviving]
    constructor
    · rintro ⟨found, again, held⟩
      obtain ⟨-, rfl⟩ := Outcome.ok.inj (again.symm.trans settles)
      exact held
    · exact fun held => ⟨settled, settles, held⟩
  rw [unique]
  constructor
  · exact .created
  · rintro ⟨⟩
    assumption

/-- A caller gets the gas that is to survive the end of its callee in these cases only. -/
theorem caller_settles_iff
    {calling pushed ending final : TxExecContext S} {caller : CallFrame S}
    {data : Bytes} {err : Result}
    (opens : Opens calling pushed)
    (waiting : pushed.callStack = caller :: calling.callStack)
    (inside : Inside calling.callStack.length pushed ending)
    (ends : Ends ending final data err)
    (depth : final.callStack.length = pushed.callStack.length) :
    (∃ resumed, Completion calling pushed ending resumed final data err ∧
        resumed.frameGas = caller.unusedGas.toNat +
          surviving pushed.curCall.callType.creates caller.fork data final.frameGas err) ↔
      CallerSettles caller.fork data caller.unusedGas.toNat final.frameGas
        pushed.curCall.callType err := by
  rw [completes_with_iff opens waiting inside ends depth]
  obtain ⟨inst, code, input, value, callee, caller', callType, gas, readOnly, working,
    fetches, -, effected, stays, rfl⟩ := opens.cases
  obtain ⟨rfl, -⟩ := List.cons.inj waiting
  have room : working.height < maxStackDepth :=
    room_of_spends (opener_pops effected rfl)
  have nested := (nested_effect inst).holds effected
  cases callType with
  | tx args => exact nested.elim
  | call args => exact callEnd_settles_iff _ room
  | create args => exact createEnd_settles_iff room ends.data_length

variable [LawfulWorldState S]

/-- A transaction reports the gas that its frame has left. -/
theorem transaction_reports
    {tx : Transaction S} {before ending : TxExecContext S} {data : Bytes} {err : Result}
    (reaches : tx.Reaches before) (running : before.status = .running)
    (ends : Ends before ending data err) (depth : ending.callStack.length = 1) :
    ∃ after, Step before after ∧
      after.status.leftGas = some ending.curCall.unusedGas := by
  obtain ⟨args, bottom, ret, addr, processed, after, -, -, step, -, -, status⟩ :=
    tx.settles reaches running ends depth
  refine ⟨after, step, ?_⟩
  rw [status, TxExecStatus.leftGas, unusedGas_finalResult]

/-- A transaction reports the gas that is to survive the end of its frame in these cases
only. -/
theorem sender_reports_iff
    {tx : Transaction S} {before ending : TxExecContext S} {data : Bytes} {err : Result}
    (reaches : tx.Reaches before) (running : before.status = .running)
    (ends : Ends before ending data err) (depth : ending.callStack.length = 1) :
    (∃ after reported, Step before after ∧ after.status.leftGas = some reported ∧
        reported.toNat = surviving tx.recipient.isNone tx.env.block.fork data
          ending.frameGas err) ↔
      SenderReports tx.recipient.isNone data ending.frameGas err := by
  obtain ⟨after, step, reports⟩ := transaction_reports reaches running ends depth
  rw [← surviving_eq_iff tx.env.block.fork]
  constructor
  · rintro ⟨other, reported, again, leaves, survives⟩
    obtain ⟨-, rfl⟩ := Outcome.ok.inj (again.2.symm.trans step.2)
    obtain rfl := Option.some.inj (leaves.symm.trans reports)
    exact survives
  · exact fun survives => ⟨after, _, step, reports, survives⟩

/-- The gas that is to survive the end of a frame survives it in these cases only. -/
theorem gas_survives_iff :
    (∀ {calling pushed ending final : TxExecContext S} {caller : CallFrame S}
        {data : Bytes} {err : Result},
      Opens calling pushed → pushed.callStack = caller :: calling.callStack →
      Inside calling.callStack.length pushed ending → Ends ending final data err →
      final.callStack.length = pushed.callStack.length →
      ((∃ resumed, Completion calling pushed ending resumed final data err ∧
          resumed.frameGas = caller.unusedGas.toNat +
            surviving pushed.curCall.callType.creates caller.fork data final.frameGas
              err) ↔
        CallerSettles caller.fork data caller.unusedGas.toNat final.frameGas
          pushed.curCall.callType err)) ∧
    (∀ {tx : Transaction S} {before ending : TxExecContext S} {data : Bytes}
        {err : Result},
      tx.Reaches before → before.status = .running → Ends before ending data err →
      ending.callStack.length = 1 →
      ((∃ after reported, Step before after ∧ after.status.leftGas = some reported ∧
          reported.toNat = surviving tx.recipient.isNone tx.env.block.fork data
            ending.frameGas err) ↔
        SenderReports tx.recipient.isNone data ending.frameGas err)) :=
  ⟨caller_settles_iff, sender_reports_iff⟩

end Law

namespace Sample

/-- A transaction to an account whose code fails at once. -/
def haltingTx : Transaction DummyStateStore :=
  letI := creationKeccak
  let state := DummyStateStore.new.setCode 0xaa [0xfe]
  { creatingTx 0xfe with
    state := state
    committedState := state }

end Sample

/-- The gas of an initialization that stops goes to its creator, and the gas that the
creator has when it stops is reported. -/
theorem stopped_frames_hand_their_gas_on :
    letI := Sample.creationKeccak
    (∃ (calling pushed ending resumed : TxExecContext DummyStateStore)
      (creator : CallFrame DummyStateStore),
      (Sample.creatingTx 0x00).Reaches calling ∧
        pushed.callStack = creator :: calling.callStack ∧
        Completion calling pushed ending resumed ending [] (.ok ()) ∧
        resumed.frameGas = creator.unusedGas.toNat +
          surviving pushed.curCall.callType.creates creator.fork [] ending.frameGas
            (.ok ())) ∧
      ∃ (before after : TxExecContext DummyStateStore) (reported : Gas),
        (Sample.creatingTx 0x00).Reaches before ∧ Step before after ∧
          after.status.leftGas = some reported ∧
          reported.toNat = surviving (Sample.creatingTx 0x00).recipient.isNone
            (Sample.creatingTx 0x00).env.block.fork [] before.frameGas (.ok ()) := by
  let := Sample.creationKeccak
  constructor
  · obtain ⟨run, creator, reached, resumption, fetches, stops, depth, waiting, small⟩ :=
      creatingTx_initializes 0x00 ⟨.stop, none, 0⟩
        (fun creator ending => creator.unusedGas.toNat + ending.frameGas < 2 ^ 64)
        (by decide +kernel)
    obtain ⟨saved, -, -, callType, -⟩ := creation_completes fetches rfl resumption.opens
      waiting resumption.inside (.instruction stops rfl) depth
    have settles : CallerSettles creator.fork [] creator.unusedGas.toNat
        run.ending.frameGas run.pushed.curCall.callType (.ok ()) := by
      rw [callType]
      exact .created (.stored (legal_nil _) (Nat.zero_le _) (Nat.zero_le _) small)
    obtain ⟨resumed, completion, gas⟩ := (gas_survives_iff.1 resumption.opens waiting
      resumption.inside (.instruction stops rfl) depth).mpr settles
    exact ⟨run.calling, run.pushed, run.ending, resumed, creator, reached, waiting,
      completion, gas⟩
  · obtain ⟨before, reached, stops, depth, running⟩ :=
      (Sample.creatingTx 0x00).exists_reached 8
        (fun before => Fetches before ⟨.stop, none, 0⟩ ∧
          before.callStack.length = 1 ∧ before.status.leftGas = none)
        (by decide +kernel)
    obtain ⟨after, reported, step, leaves, gas⟩ := (gas_survives_iff.2 reached
      (TxExecStatus.leftGas_eq_none.mp running) (.instruction stops rfl) depth).mpr
        (.called rfl)
    exact ⟨before, after, reported, reached, step, leaves, gas⟩

/-- The gas of an initialization that fails goes to its creator, and the gas of a call
that fails at the top level is reported. -/
theorem failed_frames_keep_their_gas :
    letI := Sample.creationKeccak
    (∃ (calling pushed ending : TxExecContext DummyStateStore)
      (creator : CallFrame DummyStateStore),
      (Sample.creatingTx 0xfe).Reaches calling ∧ Opens calling pushed ∧
        pushed.callStack = creator :: calling.callStack ∧
        Inside calling.callStack.length pushed ending ∧
        Ends ending ending [] (.error .invalidOpcode) ∧
        ending.callStack.length = pushed.callStack.length ∧
        ¬∃ resumed, Completion calling pushed ending resumed ending []
            (.error .invalidOpcode) ∧
          resumed.frameGas = creator.unusedGas.toNat +
            surviving pushed.curCall.callType.creates creator.fork [] ending.frameGas
              (.error .invalidOpcode)) ∧
      ∃ before : TxExecContext DummyStateStore,
        Sample.haltingTx.Reaches before ∧ Fetches before ⟨.invalid, none, 0⟩ ∧
          before.callStack.length = 1 ∧ before.frameGas ≠ 0 ∧
          ¬∃ after reported, Step before after ∧
            after.status.leftGas = some reported ∧
            reported.toNat = surviving Sample.haltingTx.recipient.isNone
              Sample.haltingTx.env.block.fork [] before.frameGas
                (.error .invalidOpcode) := by
  let := Sample.creationKeccak
  constructor
  · obtain ⟨run, creator, reached, resumption, fetches, fails, depth, waiting, different⟩ :=
      creatingTx_initializes 0xfe ⟨.invalid, none, 0⟩
        (fun creator ending => ending.frameGas ≠ creator.unusedGas.toNat)
        (by decide +kernel)
    obtain ⟨saved, -, -, callType, -⟩ := creation_completes fetches rfl resumption.opens
      waiting resumption.inside (.raised fails rfl) depth
    refine ⟨run.calling, run.pushed, run.ending, creator, reached, resumption.opens,
      waiting, resumption.inside, .raised fails rfl, depth, fun survives => ?_⟩
    have settles := (caller_settles_iff resumption.opens waiting resumption.inside
      (.raised fails rfl) depth).mp survives
    rw [callType] at settles
    cases settles with
    | created settles =>
        cases settles with
        | failed _ same => exact different same
  · obtain ⟨before, reached, fails, depth, running, gas⟩ :=
      Sample.haltingTx.exists_reached 0
        (fun before => Fetches before ⟨.invalid, none, 0⟩ ∧
          before.callStack.length = 1 ∧ before.status.leftGas = none ∧
          before.frameGas ≠ 0)
        (by decide +kernel)
    refine ⟨before, reached, fails, depth, gas, fun survives => ?_⟩
    have reports := (sender_reports_iff reached
      (TxExecStatus.leftGas_eq_none.mp running) (.raised fails rfl) depth).mp survives
    cases reports with
    | used nothing => exact gas nothing

end Qevm
