import Qevm.Core.Snapshots
import Qevm.Laws.Openers
import Qevm.Laws.Ownership

/-!
# What a called account gets

The gas that the four call instructions take from the caller and give to the called
account, and the precompiled contract that they run for it.
-/

namespace Qevm

open Params Exec TxExecContext Procedure WorldState

section Law

variable {S : Type} [WorldState S] [Keccak256] {before after : TxExecContext S}

namespace CallKind

/-! ### Gas -/

/-- The gas that a called account gets on top when it is paid. -/
def stipend (self : CallKind) (context : TxExecContext S) : Nat :=
  if self.value context = 0 then 0 else gasCallStipend.toNat

/-- The caller is charged for the call and the gas it forwards, and the called
account gets that gas and the stipend: `paid` is the context in which the last action
of the instruction hands the gas on. -/
def ForwardsGas (self : CallKind) (before after : TxExecContext S) : Prop :=
  ∃ tail paid, effect self.inst before = .ok tail paid ∧
    runTail tail paid = .ok () after ∧
    paid.frameGas + self.forwarded before + self.charges before = before.frameGas ∧
    tail.gas = self.forwarded before + self.stipend before

/-- The caller is always charged what it should be. -/
theorem debits
    (self : CallKind) {tail : Tail S} {paid : TxExecContext S}
    (since : before.curCall.fork ≥ .tangerineWhistle)
    (run : effect self.inst before = .ok tail paid) :
    ∃ request, paid.frameGas + self.forwarded before + self.charges before =
        before.frameGas ∧
      (self.HasValue → request.value = self.value before) ∧
      request.gasQuota.toNat = self.forwarded before ∧
      tail.gas = (self.given request).toNat := by
  obtain ⟨request, charged, args, charges, keeps, visits⟩ := self.effect_ok run
  have gas : charged.frameGas = paid.frameGas := by
    rw [frameGas, frameGas, keeps.1]
  have quota := charges.quota since
  refine ⟨request, ?_, charges.value, quota, visits.gas⟩
  rw [← gas, ← quota]
  exact charges.gas

omit [WorldState S] [Keccak256] in
/-- An instruction without value owes no stipend. -/
theorem stipend_of_plain {self : CallKind} (plain : ¬self.HasValue) :
    self.stipend before = 0 := by
  have none : self.value before = 0 := if_neg plain
  exact if_pos none

/-- `CALL` and `CALLCODE` give the stipend exactly when no value is handed over. -/
theorem given_of_value
    {self : CallKind} {request : CallRequest} (carries : self.HasValue)
    (value : request.value = self.value before)
    (quota : request.gasQuota.toNat = self.forwarded before) :
    (self.given request).toNat ≠ self.forwarded before + self.stipend before := by
  have small := request.gasQuota.toNat_lt
  have amount : gasCallStipend.toNat = 2300 := rfl
  simp only [given, carries, if_true, addStipend, stipend, ← value]
  by_cases free : request.value = 0
  · rw [if_pos free, if_pos free, UInt64.toNat_add, amount, quota]
    omega
  · rw [if_neg free, if_neg free, quota, amount]
    omega

/-- `CALL` and `CALLCODE` never give what they should. -/
theorem not_forwardsGas
    {self : CallKind} (carries : self.HasValue)
    (since : before.curCall.fork ≥ .tangerineWhistle) :
    ¬self.ForwardsGas before after := by
  rintro ⟨tail, paid, run, -, -, gives⟩
  obtain ⟨request, -, value, quota, given⟩ := self.debits since run
  exact given_of_value carries (value carries) quota (given.symm.trans gives)

/-- From EIP-150 on, a call that is made takes from the caller what it should, and
gives the called account what it should if it is a `DELEGATECALL` or a `STATICCALL`. -/
theorem forwards_gas_iff
    (self : CallKind) (since : before.curCall.fork ≥ .tangerineWhistle)
    (run : dispatch self.inst before = .ok () after) :
    self.ForwardsGas before after ↔ self = delegateCall ∨ self = staticCall := by
  constructor
  · intro forwards
    cases self with
    | call => exact absurd forwards (not_forwardsGas trivial since)
    | callCode => exact absurd forwards (not_forwardsGas trivial since)
    | delegateCall => exact .inl rfl
    | staticCall => exact .inr rfl
  · intro kind
    have plain : ¬self.HasValue := by
      obtain rfl | rfl := kind <;> exact id
    rw [dispatch_eq] at run
    obtain ⟨tail, paid, effected, acts⟩ := bind_ok.mp run
    obtain ⟨request, debit, -, quota, gives⟩ := self.debits since effected
    refine ⟨tail, paid, effected, acts, debit, ?_⟩
    rw [gives, given, if_neg plain, quota, stipend_of_plain plain, Nat.add_zero]

/-! ### Precompiled contracts -/

/-- The called account is reached: if a precompiled contract is registered for it, the
contract answers without a frame, and otherwise none is run. -/
def ReachesPrecompile (self : CallKind) (before after : TxExecContext S) : Prop :=
  ∃ tail paid args gas, effect self.inst before = .ok tail paid ∧
    runTail tail paid = .ok () after ∧
    tail.Visits (self = call) (.call args)
      (before.env.precompiledContracts.lookup (target before)) (self.input before) gas ∧
    ∀ contract, before.env.precompiledContracts.lookup (target before) = some contract →
      after.callStack = before.callStack ∧
        after.curCall.lastReturned = (contract (self.input before)).1 ∧
        after.curCall.stack.peek =
          some (if (contract (self.input before)).2.isErr then 0 else 1)

/-- A contract that is run without a frame answers in the frame of its caller. -/
theorem settled_answer
    {args : CallArgs S} {ret : Bytes} {gas : Gas} {err : Result}
    {paid : TxExecContext S}
    (run : runTail (.settle (.call args) ret gas err) paid = .ok () after) :
    after.callStack = paid.callStack ∧ after.curCall.lastReturned = ret ∧
      after.curCall.stack.peek = some (if err.isErr then 0 else 1) := by
  rw [runTail, returnWithoutCallstack_call] at run
  cases ends : callEnd args ret gas err paid with
  | error err settled => simp [ends] at run
  | panic reason => simp [ends] at run
  | ok value settled =>
      have settles : Settles paid settled := Moves.ok ends
      simp only [ends, Outcome.ok.injEq, true_and] at run
      subst run
      have peek := callEnd_peek ends
      refine ⟨settles.callStack, ?_, peek⟩
      obtain ⟨left, written, stack, -, -, rfl⟩ := callEnd_ok ends
      rfl

omit [WorldState S] [Keccak256] in
/-- What an instruction visits is what is registered for the called account when both
addresses it may look at have the same answer. -/
theorem visits_of_agree
    {mayBeEmpty : Prop} {args : CallType S} {found registered : Option PrecompiledContract}
    {input : Bytes} {gas : Gas} {tail : Tail S}
    (agree : found.map (fun contract => contract input) =
      registered.map fun contract => contract input)
    (visits : tail.Visits mayBeEmpty args found input gas) :
    tail.Visits mayBeEmpty args registered input gas := by
  cases visits with
  | precompiled =>
      obtain ⟨contract, rfl, same⟩ := Option.map_eq_some_iff.mp agree.symm
      dsimp only at same
      rw [← same]
      exact .precompiled
  | code =>
      obtain rfl := Option.map_eq_none_iff.mp agree.symm
      exact .code
  | nothing permitted =>
      obtain rfl := Option.map_eq_none_iff.mp agree.symm
      exact .nothing permitted

omit [WorldState S] [Keccak256] in
/-- An instruction that always runs code or a contract shows which of them it ran. -/
theorem agree_of_visits
    {mayBeEmpty : Prop} {args other : CallType S}
    {found registered : Option PrecompiledContract} {input : Bytes} {gas given : Gas}
    {tail : Tail S} (always : ¬mayBeEmpty)
    (visits : tail.Visits mayBeEmpty args found input gas)
    (expected : tail.Visits mayBeEmpty other registered input given) :
    found.map (fun contract => contract input) =
      registered.map fun contract => contract input := by
  cases visits with
  | nothing permitted => exact absurd permitted always
  | code =>
      cases expected
      rfl
  | @precompiled contract =>
      generalize data : (contract input).1 = ret at expected
      generalize result : (contract input).2 = err at expected
      cases expected with
      | nothing permitted => exact absurd permitted always
      | @precompiled contract' =>
          exact congrArg some (Prod.ext data result)

/-- A call reaches the precompiled contract of its target if it is a `CALL` or a
`STATICCALL`, or if the executing contract has the same one. -/
theorem reaches_precompile_iff
    (self : CallKind) (run : dispatch self.inst before = .ok () after) :
    self.ReachesPrecompile before after ↔
      self = call ∨ self = staticCall ∨
        (before.env.precompiledContracts.lookup before.curCall.callee).map
            (fun contract => contract (self.input before)) =
          (before.env.precompiledContracts.lookup (target before)).map
            fun contract => contract (self.input before) := by
  rw [dispatch_eq] at run
  obtain ⟨tail, paid, effected, acts⟩ := bind_ok.mp run
  obtain ⟨request, charged, args, charges, keeps, visits⟩ := self.effect_ok effected
  have stays : before.Works paid := Moves.ok effected
  constructor
  · rintro ⟨_, _, _, _, again, -, expected, -⟩
    obtain ⟨rfl, rfl⟩ := Outcome.ok.inj (again.symm.trans effected)
    cases self with
    | call => exact .inl rfl
    | staticCall => exact .inr (.inl rfl)
    | callCode => exact .inr (.inr (agree_of_visits nofun visits expected))
    | delegateCall => exact .inr (.inr (agree_of_visits nofun visits expected))
  · intro kind
    have expected : tail.Visits (self = call) (.call args)
        (before.env.precompiledContracts.lookup (target before)) (self.input before)
        (self.given request) := by
      cases self with
      | call => exact visits
      | staticCall => exact visits
      | callCode =>
          have agree := (kind.resolve_left nofun).resolve_left nofun
          exact visits_of_agree agree visits
      | delegateCall =>
          have agree := (kind.resolve_left nofun).resolve_left nofun
          exact visits_of_agree agree visits
    refine ⟨tail, paid, args, _, effected, acts, expected, fun contract registered => ?_⟩
    rw [registered] at expected
    cases expected
    rw [← stays.callStack]
    exact settled_answer acts

end CallKind

end Law

namespace Sample

/-- Calls the account `4` with one byte of input. -/
def precompileCode (opcode : UInt8) : Bytes :=
  [0x60, 0x00, 0x60, 0x00, 0x60, 0x01, 0x60, 0x00, 0x60, 0x04, 0x61, 0xff, 0xff,
    opcode, 0x00]

/-- The digests that the transactions of this module look at. -/
@[reducible] def precompileKeccak : Keccak256 := keccak
  [([], 0xc5d2460186f7233c927e7db2dcc703c0e500b653ca82273b7bfad8045d85a470),
    (precompileCode 0xf4,
      0x06fb8d87534680949b060f6236f1c8314779136d7dfc49510f08fd3e64e39604),
    (precompileCode 0xfa,
      0xca068f25dd9563d6c0a4d1386988afac086ace6f72ba841d5655d4f767c4f2c7)]

/-- A transaction to an account that calls the account `4`, which is registered for the
precompiled contract that returns its input. -/
def precompileTx (opcode : UInt8) : Transaction DummyStateStore :=
  letI := precompileKeccak
  { callingTx [] with
    state := DummyStateStore.new.setCode 0xaa (precompileCode opcode)
    env :=
      { env .london with
        precompiledContracts :=
          (∅ : HashMap Addr PrecompiledContract).insert 4 fun input =>
            (input, .ok ()) } }

end Sample

/-- Delegated code gets the gas that is asked for it. -/
theorem delegated_gas :
    letI := Sample.delegatingKeccak
    ∃ before after : TxExecContext DummyStateStore,
      Sample.delegatingTx.Reaches before ∧
        CallKind.delegateCall.ForwardsGas before after := by
  let := Sample.delegatingKeccak
  obtain ⟨before, reached, since, runs⟩ := Sample.delegatingTx.exists_reached 6
    (fun before => before.curCall.fork ≥ .tangerineWhistle ∧
      (dispatch CallKind.delegateCall.inst before).returned.isSome) (by decide +kernel)
  obtain ⟨⟨⟨⟩, after⟩, run⟩ := Option.isSome_iff_exists.mp runs
  have dispatched := Outcome.returned_eq_some.mp run
  exact ⟨before, after, reached,
    (CallKind.forwards_gas_iff .delegateCall since dispatched).mpr (.inl rfl)⟩

/-- A call without value and without gas gives the called account the stipend. -/
theorem unpaid_call_gets_the_stipend :
    letI := Sample.gasKeccak
    ∃ before after : TxExecContext DummyStateStore,
      (Sample.gasTx Sample.stipendCode).Reaches before ∧
        before.curCall.fork ≥ .tangerineWhistle ∧
        operand before 0 = 0 ∧ operand before 2 = 0 ∧
        dispatch CallKind.call.inst before = .ok () after ∧
        ¬CallKind.call.ForwardsGas before after := by
  let := Sample.gasKeccak
  obtain ⟨before, reached, since, gas, value, runs⟩ :=
    (Sample.gasTx Sample.stipendCode).exists_reached 7
      (fun before => before.curCall.fork ≥ .tangerineWhistle ∧
        operand before 0 = 0 ∧ operand before 2 = 0 ∧
        (dispatch CallKind.call.inst before).returned.isSome) (by decide +kernel)
  obtain ⟨⟨⟨⟩, after⟩, run⟩ := Option.isSome_iff_exists.mp runs
  exact ⟨before, after, reached, since, gas, value, Outcome.returned_eq_some.mp run,
    CallKind.not_forwardsGas trivial since⟩

/-- A `STATICCALL` reaches a precompiled contract. -/
theorem static_call_reaches_the_precompile :
    letI := Sample.precompileKeccak
    ∃ before after : TxExecContext DummyStateStore,
      (Sample.precompileTx 0xfa).Reaches before ∧
        (before.env.precompiledContracts.lookup (CallKind.target before)).isSome ∧
        CallKind.staticCall.ReachesPrecompile before after := by
  let := Sample.precompileKeccak
  obtain ⟨before, reached, registered, runs⟩ :=
    (Sample.precompileTx 0xfa).exists_reached 6
      (fun before =>
        (before.env.precompiledContracts.lookup (CallKind.target before)).isSome ∧
          (dispatch CallKind.staticCall.inst before).returned.isSome)
      (by decide +kernel)
  obtain ⟨⟨⟨⟩, after⟩, run⟩ := Option.isSome_iff_exists.mp runs
  have dispatched := Outcome.returned_eq_some.mp run
  exact ⟨before, after, reached, registered,
    (CallKind.reaches_precompile_iff .staticCall dispatched).mpr (.inr (.inl rfl))⟩

/-- A `DELEGATECALL` of a precompiled contract pushes a frame instead. -/
theorem delegate_call_misses_the_precompile :
    letI := Sample.precompileKeccak
    ∃ before after : TxExecContext DummyStateStore,
      (Sample.precompileTx 0xf4).Reaches before ∧
        (before.env.precompiledContracts.lookup (CallKind.target before)).isSome ∧
        dispatch CallKind.delegateCall.inst before = .ok () after ∧
        after.callStack.length = before.callStack.length + 1 ∧
        ¬CallKind.delegateCall.ReachesPrecompile before after := by
  let := Sample.precompileKeccak
  obtain ⟨before, reached, registered, runs⟩ :=
    (Sample.precompileTx 0xf4).exists_reached 6
      (fun before =>
        (before.env.precompiledContracts.lookup (CallKind.target before)).isSome ∧
          (dispatch CallKind.delegateCall.inst before).returned.any fun final =>
            final.2.callStack.length = before.callStack.length + 1)
      (by decide +kernel)
  obtain ⟨⟨⟨⟩, after⟩, run, pushes⟩ := (Option.any_eq_true _ _).mp runs
  have deeper : after.callStack.length = before.callStack.length + 1 :=
    of_decide_eq_true pushes
  refine ⟨before, after, reached, registered, Outcome.returned_eq_some.mp run, deeper, ?_⟩
  rintro ⟨_, _, _, _, -, -, -, answers⟩
  obtain ⟨contract, found⟩ := Option.isSome_iff_exists.mp registered
  rw [(answers contract found).1] at deeper
  omega

end Qevm
