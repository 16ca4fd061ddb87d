import Qevm.Core.Expansion
import Qevm.Laws.Atomicity
import Qevm.Laws.Creation
import Qevm.Laws.Openers

/-!
# The gas of a contract creation

What the initialization leaves of its gas should pay for the storage of the code and then
go back to the creator, and be lost with a failure.  The interpreter hands all of it back
and charges the frame below instead: the creator, or the dummy frame of a transaction.
-/

set_option synthInstance.maxSize 100000

namespace Qevm

open Params WorldState Exec TxExecContext Procedure

variable {S : Type}

/-! ### The price of code -/

/-- Code that passes the limit of its size and the check of its first byte. -/
def Legal (fork : Fork) (data : Bytes) : Prop :=
  ¬(fork ≥ .spuriousDragon ∧ data.length > maxCodeSize) ∧
    ¬(fork ≥ .london ∧ data.length ≥ 1 ∧ data[0]? = some 0xef)

instance (fork : Fork) (data : Bytes) : Decidable (Legal fork data) :=
  inferInstanceAs (Decidable (¬_ ∧ ¬_))

/-- The price of storing code. -/
def storePrice (data : Bytes) : Nat := 200 * data.length

/-- No code is legal. -/
theorem legal_nil (fork : Fork) : Legal fork [] :=
  ⟨fun large => absurd large.2 (Nat.not_lt_zero _),
    fun first => absurd first.2.1 (Nat.not_succ_le_zero 0)⟩

/-- The price of code that has been in a memory can be computed. -/
theorem checkedMulU64_price {data : Bytes} (bounded : data.length ≤ maxMemSize) :
    checkedMulU64 (UInt64.ofNat data.length) gasCreateData =
      some (UInt64.ofNat (storePrice data)) := by
  have limit : maxMemSize = 0x1fffffffe0 := rfl
  have length : (UInt64.ofNat data.length).toNat = data.length :=
    UInt64.toNat_ofNat_of_lt' (by rw [UInt64.size]; omega)
  have rate : gasCreateData.toNat = 200 := rfl
  have small : (UInt64.ofNat data.length).toNat * gasCreateData.toNat < 2 ^ 64 := by
    rw [length, rate]
    omega
  rw [checkedMulU64, if_pos small]
  congr 1
  apply UInt64.toNat_inj.mp
  rw [UInt64.toNat_mul, Nat.mod_eq_of_lt small, length, rate, storePrice, Nat.mul_comm]
  exact (UInt64.toNat_ofNat_of_lt' (by rw [UInt64.size]; omega)).symm

/-- The price of code that has been in a memory fits in 64 bits. -/
theorem toNat_storePrice {data : Bytes} (bounded : data.length ≤ maxMemSize) :
    (UInt64.ofNat (storePrice data)).toNat = storePrice data := by
  have limit : maxMemSize = 0x1fffffffe0 := rfl
  exact UInt64.toNat_ofNat_of_lt' (by rw [UInt64.size, storePrice]; omega)

/-- Code is accepted when it is legal and the frame that is resumed can pay for it. -/
theorem accepts_iff {frame : CallFrame S} {data : Bytes}
    (bounded : data.length ≤ maxMemSize) :
    frame.Accepts data ↔
      Legal frame.fork data ∧ storePrice data ≤ frame.unusedGas.toNat := by
  unfold CallFrame.Accepts Legal
  rw [checkedMulU64_price bounded, and_assoc]
  simp only [Option.any_some, decide_eq_true_eq, UInt64.le_iff_toNat_le,
    toNat_storePrice bounded]

/-- What is left of the gas that a frame has kept when a contract that it has created has
been processed. -/
def processedGas (fork : Fork) (data : Bytes) (ret : Result) (kept : Nat) : Nat :=
  match ret with
  | .error .reverted => kept
  | .error _ => 0
  | .ok () =>
      if Legal fork data ∧ storePrice data ≤ kept then kept - storePrice data else kept

namespace Exec

variable [WorldState S] {before after : TxExecContext S} {data : Bytes} {ret : Result}

/-- The processing of a created contract charges the frame that is resumed. -/
theorem createPostProcessing_gas
    {contract : Addr} {outcome : Result} (bounded : data.length ≤ maxMemSize)
    (run : attempt (createPostProcessing contract data ret) before =
      .ok outcome after) :
    after.frameGas = processedGas before.curCall.fork data ret before.frameGas := by
  cases ret with
  | error err =>
      have fails := attempt_ok (createPostProcessing_failed contract data err before)
      obtain ⟨-, rfl⟩ := Outcome.ok.inj (run.symm.trans fails)
      cases err <;> rfl
  | ok _ =>
      by_cases accepts : before.curCall.Accepts data
      · obtain ⟨gas, cost, enough, installs⟩ :=
          createPostProcessing_accepted contract accepts
        obtain ⟨-, rfl⟩ := Outcome.ok.inj (run.symm.trans (attempt_ok installs))
        rw [checkedMulU64_price bounded] at cost
        obtain rfl := Option.some.inj cost
        have affords : Legal before.curCall.fork data ∧
            storePrice data ≤ before.frameGas := (accepts_iff bounded).mp accepts
        rw [processedGas, if_pos affords, frameGas, UInt64.toNat_sub_of_le _ _ enough,
          toNat_storePrice bounded, frameGas]
      · obtain ⟨err, -, rejects⟩ := createPostProcessing_rejected contract accepts
        obtain ⟨-, rfl⟩ := Outcome.ok.inj (run.symm.trans (attempt_error rejects))
        have refuses : ¬(Legal after.curCall.fork data ∧
            storePrice data ≤ after.frameGas) := mt (accepts_iff bounded).mpr accepts
        rw [processedGas, if_neg refuses]

/-- The end of a creation hands the remaining gas back, whatever has been charged. -/
theorem createEnd_gas
    {args : CreateArgs S} {gas : Gas} (bounded : data.length ≤ maxMemSize)
    (run : createEnd args data gas ret before = .ok () after) :
    after.frameGas =
      (processedGas before.curCall.fork data ret before.frameGas + gas.toNat) %
        2 ^ 64 := by
  obtain ⟨outcome, final, stack, processes, -, rfl⟩ := createEnd_ok run
  have charged := createPostProcessing_gas bounded processes
  rw [frameGas] at charged
  rw [frameGas, UInt64.toNat_add, charged]
  rfl

variable [Keccak256]

omit [WorldState S] [Keccak256] in
/-- A region that is returned has been in the memory of its frame. -/
theorem returnRegion_length (run : returnRegion before = .ok data after) :
    data.length ≤ maxMemSize := by
  unfold returnRegion at run
  obtain ⟨⟨off, len⟩, popped, -, run⟩ := bind_ok.mp run
  obtain ⟨⟨slice, fee⟩, sliced, slices, run⟩ := bind_ok.mp run
  obtain ⟨_, charged, -, returns⟩ := bind_ok.mp run
  obtain ⟨rfl, -⟩ := Outcome.ok.inj returns
  obtain ⟨grown, reads, -⟩ := onMemory_ok slices
  exact Memory.getSlice_length reads

/-- What an instruction returns has been in the memory of its frame. -/
theorem effect_data_length
    {inst : Inst} {err : Result}
    (run : effect inst before = .ok (.finish data err) after) :
    data.length ≤ maxMemSize := by
  have nested := (nested_effect inst).holds run
  obtain ⟨opcode, immediate, pos⟩ := inst
  cases opcode
  case stop =>
    obtain ⟨same, -⟩ := Outcome.ok.inj run
    obtain ⟨rfl, -⟩ := Tail.finish.inj same
    exact Nat.zero_le _
  case «return» =>
    obtain ⟨retval, middle, reads, returns⟩ := bind_ok.mp run
    obtain ⟨same, -⟩ := Outcome.ok.inj returns
    obtain ⟨rfl, -⟩ := Tail.finish.inj same
    exact returnRegion_length reads
  case revert =>
    obtain ⟨retval, middle, reads, returns⟩ := bind_ok.mp run
    obtain ⟨same, -⟩ := Outcome.ok.inj returns
    obtain ⟨rfl, -⟩ := Tail.finish.inj same
    unfold revertRegion at reads
    obtain ⟨_, forked, forks, reads⟩ := bind_ok.mp reads
    exact returnRegion_length reads
  case selfDestruct =>
    obtain ⟨_, destroyed, -, returns⟩ := bind_ok.mp run
    obtain ⟨same, -⟩ := Outcome.ok.inj returns
    obtain ⟨rfl, -⟩ := Tail.finish.inj same
    exact Nat.zero_le _
  case create | create2 | call | callCode | delegateCall | staticCall =>
    contradiction
  all_goals
    obtain ⟨_, dispatched, -, returns⟩ := bind_ok.mp run
    obtain ⟨same, -⟩ := Outcome.ok.inj returns
    contradiction

/-- What a frame returns has been in its memory. -/
theorem Ends.data_length
    {ending : TxExecContext S} {err : Result} (ends : Ends before ending data err) :
    data.length ≤ maxMemSize := by
  cases ends with
  | instruction fetches effected => exact effect_data_length effected
  | raised | unwound => exact Nat.zero_le _

end Exec

/-! ### The frame below a transaction -/

namespace Transaction

variable [WorldState S] [Keccak256] [LawfulWorldState S] {tx : Transaction S}

omit [LawfulWorldState S] in
/-- The start of a transaction keeps its dummy frame. -/
theorem startEffect_keepsFrame
    {initial working : TxExecContext S} {tail : Tail S}
    (run : tx.startEffect initial = .ok tail working) : initial.KeepsFrame working := by
  unfold startEffect at run
  cases recipient : tx.recipient with
  | some recipient =>
      simp only [recipient, startCallEffect] at run
      replace run := reads_bind_ok.mp run
      obtain ⟨_, counted, counts, run⟩ := bind_ok.mp run
      obtain ⟨saved, snapped, snaps, run⟩ := bind_ok.mp run
      have before : initial.KeepsFrame counted := Moves.ok counts
      have snap : counted.KeepsFrame snapped := Moves.ok snaps
      exact trans_of KeepsFrame (trans_of KeepsFrame before snap)
        (callEffect_visits run).1
  | none =>
      simp only [recipient, startCreateEffect] at run
      obtain ⟨saved, snapped, snaps, run⟩ := bind_ok.mp run
      replace run := reads_bind_ok.mp run
      have snap : initial.KeepsFrame snapped := Moves.ok snaps
      exact trans_of KeepsFrame snap (Moves.ok (createEffect_ok run).2)

/-- A running transaction has its dummy frame, with all its gas, at the bottom. -/
theorem Reaches.bottom
    {reached : TxExecContext S} (reaches : tx.Reaches reached)
    (running : reached.status = .running) :
    ∃ top, Rooted top [tx.dummyFrame] reached := by
  refine reaches.while_running ?_ ?_ running
  · intro entered enters running
    obtain ⟨initial, code, input, value, callee, caller, args, readOnly, working, context,
      effected, -, -, rfl⟩ := enters.pushed running
    obtain ⟨accessList, rfl⟩ := context_eq_some context
    refine ⟨CallFrame.new code input value callee caller (.tx args) tx.executionGas
      (working.curCall.readOnly || readOnly) working.env.block.fork, ?_⟩
    rw [(startEffect_keepsFrame effected).1]
    exact Rooted.executing _
  · intro before after reaches bottom step running
    obtain ⟨top, rooted⟩ := bottom
    obtain ⟨args, -, inside⟩ := reaches.carries step.1
    obtain ⟨_, _, -, deeper⟩ | ⟨data, err, ending, bottom, finishes⟩ :=
      step.carries inside
    · exact ⟨top, step.rooted rooted deeper.depth⟩
    · exact absurd running finishes.not_running

end Transaction

/-! ### The law -/

/-- What is to become of the gas of an initialization that ends in `data` and `err` with
`left`: its creator has kept `kept` and is to hold `held` afterwards. -/
structure DepositPaid
    (fork : Fork) (data : Bytes) (err : Result) (kept left held : Nat)
    (created rejected : Prop) : Prop where
  /-- The initialization pays for its code. -/
  stored : err = .ok () → Legal fork data → storePrice data ≤ left →
    created ∧ held = kept + left - storePrice data
  /-- Code that it cannot pay for is rejected, and its gas is lost. -/
  short : err = .ok () → Legal fork data → left < storePrice data →
    rejected ∧ held = kept
  /-- Code that is not legal is rejected, and its gas is lost. -/
  illegal : err = .ok () → ¬Legal fork data → rejected ∧ held = kept
  /-- A revert hands the gas back. -/
  reverted : err = .error .reverted → held = kept + left
  /-- The gas is lost with every other error. -/
  failed : ∀ raised, err = .error raised → raised ≠ .reverted → held = kept

/-- When the gas of `CREATE` and `CREATE2` becomes what it is to become. -/
inductive CreatorSettles (fork : Fork) (data : Bytes) (kept left : Nat) : Result → Prop
  | stored : Legal fork data → storePrice data ≤ left → storePrice data ≤ kept →
      kept + left - storePrice data < 2 ^ 64 → CreatorSettles fork data kept left (.ok ())
  | short : Legal fork data → left = 0 → kept < storePrice data →
      CreatorSettles fork data kept left (.ok ())
  | illegal : ¬Legal fork data → left = 0 → CreatorSettles fork data kept left (.ok ())
  | reverted : kept + left < 2 ^ 64 →
      CreatorSettles fork data kept left (.error .reverted)
  | failed {raised : ExecError} : raised ≠ .reverted → left = kept →
      CreatorSettles fork data kept left (.error raised)

/-- When the gas of a creation transaction becomes what it is to become, given its gas
limit. -/
inductive SenderSettles (fork : Fork) (data : Bytes) (limit left : Nat) : Result → Prop
  | stored : data = [] → SenderSettles fork data limit left (.ok ())
  | short : Legal fork data → left = 0 → limit < storePrice data →
      SenderSettles fork data limit left (.ok ())
  | illegal : ¬Legal fork data → left = 0 → SenderSettles fork data limit left (.ok ())
  | reverted : SenderSettles fork data limit left (.error .reverted)
  | failed {raised : ExecError} : raised ≠ .reverted → left = 0 →
      SenderSettles fork data limit left (.error raised)

section Outcomes

variable {fork : Fork} {data : Bytes} {kept left held limit : Nat}
variable {created rejected : Prop}

/-- What is to become of the gas when legal code is returned. -/
theorem depositPaid_legal (legal : Legal fork data) :
    DepositPaid fork data (.ok ()) kept left held created rejected ↔
      if storePrice data ≤ left then created ∧ held = kept + left - storePrice data
      else rejected ∧ held = kept := by
  constructor
  · intro paid
    split
    · exact paid.stored rfl legal ‹_›
    · exact paid.short rfl legal (Nat.lt_of_not_le ‹_›)
  · intro due
    refine ⟨fun _ _ enough => ?_, fun _ _ less => ?_,
      fun _ illegal => absurd legal illegal, fun ends => ?_, fun _ ends => ?_⟩
    · rwa [if_pos enough] at due
    · rwa [if_neg (Nat.not_le_of_lt less)] at due
    · contradiction
    · contradiction

/-- What is to become of the gas when code is returned that is not legal. -/
theorem depositPaid_illegal (illegal : ¬Legal fork data) :
    DepositPaid fork data (.ok ()) kept left held created rejected ↔
      rejected ∧ held = kept := by
  constructor
  · exact fun paid => paid.illegal rfl illegal
  · intro due
    refine ⟨fun _ legal => absurd legal illegal, fun _ legal => absurd legal illegal,
      fun _ _ => due, fun ends => ?_, fun _ ends => ?_⟩
    · contradiction
    · contradiction

/-- What is to become of the gas when the initialization fails. -/
theorem depositPaid_error (raised : ExecError) :
    DepositPaid fork data (.error raised) kept left held created rejected ↔
      held = if raised = .reverted then kept + left else kept := by
  constructor
  · intro paid
    split
    · subst raised
      exact paid.reverted rfl
    · exact paid.failed raised rfl ‹_›
  · intro due
    refine ⟨fun ends => ?_, fun ends => ?_, fun ends => ?_, fun ends => ?_,
      fun found ends other => ?_⟩
    · contradiction
    · contradiction
    · contradiction
    · rwa [if_pos (Except.error.inj ends)] at due
    · obtain rfl := Except.error.inj ends
      rwa [if_neg other] at due

/-- The gas that a failure leaves to the frame that is resumed. -/
theorem processedGas_error (raised : ExecError) :
    processedGas fork data (.error raised) kept =
      if raised = .reverted then kept else 0 := by
  cases raised <;> rfl

/-- The gas that is handed back is the right one in these cases only. -/
theorem depositPaid_creator_iff
    {err : Result} (keptFits : kept < 2 ^ 64) (leftFits : left < 2 ^ 64)
    (handed : held = (processedGas fork data err kept + left) % 2 ^ 64)
    (accepts : err = .ok () → Legal fork data ∧ storePrice data ≤ kept → created)
    (refuses : err = .ok () → ¬(Legal fork data ∧ storePrice data ≤ kept) → rejected) :
    DepositPaid fork data err kept left held created rejected ↔
      CreatorSettles fork data kept left err := by
  cases err with
  | ok _ =>
      rw [processedGas] at handed
      by_cases legal : Legal fork data
      · rw [depositPaid_legal legal]
        constructor
        · intro due
          by_cases affords : storePrice data ≤ kept
          · rw [if_pos ⟨legal, affords⟩] at handed
            split at due
            · exact .stored legal ‹_› affords (by omega)
            · omega
          · rw [if_neg fun both => affords both.2] at handed
            split at due
            · omega
            · exact .short legal (by omega) (Nat.lt_of_not_le affords)
        · intro settles
          cases settles with
          | stored _ enough affords fits =>
              rw [if_pos ⟨legal, affords⟩] at handed
              rw [if_pos enough]
              exact ⟨accepts rfl ⟨legal, affords⟩, by omega⟩
          | short _ nothing unaffordable =>
              have rejects : ¬(Legal fork data ∧ storePrice data ≤ kept) := by omega
              rw [if_neg rejects] at handed
              rw [if_neg (by omega)]
              exact ⟨refuses rfl rejects, by omega⟩
          | illegal illegal => contradiction
      · have rejects : ¬(Legal fork data ∧ storePrice data ≤ kept) :=
          fun both => legal both.1
        rw [if_neg rejects] at handed
        rw [depositPaid_illegal legal]
        constructor
        · exact fun due => .illegal legal (by omega)
        · intro settles
          cases settles with
          | stored | short => contradiction
          | illegal _ nothing => exact ⟨refuses rfl rejects, by omega⟩
  | error raised =>
      rw [processedGas_error] at handed
      rw [depositPaid_error]
      by_cases reverts : raised = .reverted
      · subst reverts
        simp only [if_true] at handed ⊢
        constructor
        · exact fun due => .reverted (by omega)
        · intro settles
          cases settles with
          | reverted fits => omega
          | failed other => contradiction
      · simp only [reverts, if_false] at handed ⊢
        constructor
        · exact fun due => .failed reverts (by omega)
        · intro settles
          cases settles with
          | reverted => contradiction
          | failed _ same => omega

/-- The gas that is reported is the right one in these cases only. -/
theorem depositPaid_sender_iff
    {err : Result} (different : created → ¬rejected)
    (accepts : err = .ok () → Legal fork data ∧ storePrice data ≤ limit → created)
    (refuses : err = .ok () → ¬(Legal fork data ∧ storePrice data ≤ limit) → rejected) :
    DepositPaid fork data err 0 left left created rejected ↔
      SenderSettles fork data limit left err := by
  cases err with
  | ok _ =>
      by_cases legal : Legal fork data
      · rw [depositPaid_legal legal]
        constructor
        · intro due
          split at due
          · have free : data.length = 0 := by
              unfold storePrice at *
              omega
            exact .stored (List.eq_nil_of_length_eq_zero free)
          · refine .short legal due.2 ?_
            by_contra affords
            exact different (accepts rfl ⟨legal, Nat.le_of_not_lt affords⟩) due.1
        · intro settles
          cases settles with
          | stored empty =>
              subst empty
              have free : storePrice [] = 0 := rfl
              rw [free, if_pos (Nat.zero_le _)]
              exact ⟨accepts rfl ⟨legal, Nat.zero_le _⟩, by omega⟩
          | short _ nothing unaffordable =>
              rw [if_neg (by omega)]
              exact ⟨refuses rfl (by omega), nothing⟩
          | illegal illegal => contradiction
      · rw [depositPaid_illegal legal]
        constructor
        · exact fun due => .illegal legal due.2
        · intro settles
          cases settles with
          | stored empty =>
              subst empty
              exact absurd (legal_nil fork) legal
          | short => contradiction
          | illegal _ nothing => exact ⟨refuses rfl fun both => legal both.1, nothing⟩
  | error raised =>
      rw [depositPaid_error]
      by_cases reverts : raised = .reverted
      · subst reverts
        simp only [if_true, Nat.zero_add, true_iff]
        exact .reverted
      · simp only [reverts, if_false]
        constructor
        · exact fun due => .failed reverts due
        · intro settles
          cases settles with
          | reverted => contradiction
          | failed _ nothing => exact nothing

end Outcomes

section Law

variable [WorldState S] [Keccak256] [LawfulWorldState S]

/-- The creator goes on with the address of a contract that has the code. -/
def Installs (resumed : TxExecContext S) (contract : Addr) (data : Bytes) : Prop :=
  resumed.curCall.stack.peek = some contract.toU256 ∧
    (view resumed.state).code contract = data

/-- The gas of `CREATE` and `CREATE2` is settled as it is to be in these cases only. -/
theorem instruction_settles
    {calling pushed ending final : TxExecContext S} {inst : Inst}
    {creator : CallFrame S} {data : Bytes} {err : Result}
    (fetches : Fetches calling inst) (creation : inst.opcode.isCreation)
    (opens : Opens calling pushed)
    (waiting : pushed.callStack = creator :: calling.callStack)
    (inside : Inside calling.callStack.length pushed ending)
    (ends : Ends ending final data err)
    (depth : final.callStack.length = pushed.callStack.length) :
    ∃ resumed, Completion calling pushed ending resumed final data err ∧
      (DepositPaid creator.fork data err creator.unusedGas.toNat final.frameGas
          resumed.frameGas (Installs resumed pushed.curCall.callee data)
          (resumed.curCall.stack.peek = some 0) ↔
        CreatorSettles creator.fork data creator.unusedGas.toNat final.frameGas err) := by
  obtain ⟨saved, resumed, -, callType, completion, word, -, state⟩ :=
    creation_completes fetches creation opens waiting inside ends depth
  refine ⟨resumed, completion, ?_⟩
  have bounded := ends.data_length
  obtain ⟨last, caller, settled, -, frames, settles, rfl⟩ := completion.settled
  obtain ⟨rfl, -⟩ := List.cons.inj (waiting.symm.trans frames)
  rw [callType] at settles
  have gas := createEnd_gas bounded settles
  apply depositPaid_creator_iff creator.unusedGas.toNat_lt final.curCall.unusedGas.toNat_lt
  · rw [frameGas_advanced]
    exact gas
  · rintro rfl affords
    have accepts : creator.Accepts data := (accepts_iff bounded).mpr affords
    simp only [createdWord, createdState, accepts, not_true_eq_false, and_false, if_false,
      if_true] at word state
    refine ⟨word, ?_⟩
    rw [state, LawfulWorldState.view_setCode]
    exact Function.update_self _ _ _
  · rintro rfl refuses
    have rejects : ¬creator.Accepts data := mt (accepts_iff bounded).mp refuses
    simpa only [createdWord, rejects, not_false_eq_true, and_self, if_true] using word

/-- The transaction has ended in a contract. -/
def TxExecStatus.Creates (status : TxExecStatus) : Prop :=
  ∃ data gas contract, status = .finished (.succeeded data gas (some contract))

/-- The transaction has ended without a contract. -/
def TxExecStatus.Reverts (status : TxExecStatus) : Prop :=
  ∃ data gas raised, status = .finished (.reverted data gas raised)

/-- The gas of a creation transaction is settled as it is to be in these cases only. -/
theorem transaction_settles
    {tx : Transaction S} {before ending : TxExecContext S} {data : Bytes} {err : Result}
    (creates : tx.recipient = none) (reaches : tx.Reaches before)
    (running : before.status = .running) (ends : Ends before ending data err)
    (depth : ending.callStack.length = 1) :
    ∃ after reported, Step before after ∧ after.status.leftGas = some reported ∧
      (DepositPaid tx.env.block.fork data err 0 ending.frameGas reported.toNat
          after.status.Creates after.status.Reverts ↔
        SenderSettles tx.env.block.fork data tx.gas.toNat ending.frameGas err) := by
  obtain ⟨args, bottom, ret, addr, processed, after, keeps, below, step, result, -,
    status⟩ := tx.settles reaches running ends depth
  obtain ⟨found, reported, reached, again, -, kind⟩ := txResult_ok args data err
    { ending with callStack := [], curCall := bottom }
  obtain ⟨same, rfl⟩ := Outcome.ok.inj (result.symm.trans again)
  obtain ⟨rfl, rfl⟩ := Prod.mk.inj same
  obtain ⟨top, rooted⟩ := reaches.bottom running
  obtain ⟨dummy, -⟩ := (ends.rooted rooted (Nat.le_of_eq depth.symm)).on_top depth
  obtain ⟨rfl, -⟩ := List.cons.inj (below.symm.trans dummy)
  unfold Transaction.Keeps at keeps
  simp only [creates] at keeps
  obtain ⟨⟨contract, aux⟩, -⟩ := keeps
  simp only [aux] at kind
  obtain ⟨rfl, done⟩ := kind
  have bounded := ends.data_length
  have isErr := done.isErr
  refine ⟨after, ending.curCall.unusedGas, step, ?_, ?_⟩
  · rw [status, TxExecStatus.leftGas, unusedGas_finalResult]
  apply depositPaid_sender_iff
  · rintro ⟨_, _, _, succeeded⟩ ⟨_, _, _, failed⟩
    have same := TxExecStatus.finished.inj (succeeded.symm.trans failed)
    contradiction
  · rintro rfl affords
    have accepts : tx.dummyFrame.Accepts data := (accepts_iff bounded).mpr affords
    cases ret with
    | ok _ => exact ⟨_, _, _, status⟩
    | error raised => exact absurd accepts (isErr.mp rfl).2
  · rintro rfl refuses
    have rejects : ¬tx.dummyFrame.Accepts data := mt (accepts_iff bounded).mp refuses
    cases ret with
    | ok _ =>
        have failed := isErr.mpr ⟨rfl, rejects⟩
        contradiction
    | error raised => exact ⟨_, _, _, status⟩

/-- The gas of a contract creation is settled as it is to be in these cases only. -/
theorem creation_gas_settles_iff :
    (∀ {calling pushed ending final : TxExecContext S} {inst : Inst}
        {creator : CallFrame S} {data : Bytes} {err : Result},
      Fetches calling inst → inst.opcode.isCreation → Opens calling pushed →
      pushed.callStack = creator :: calling.callStack →
      Inside calling.callStack.length pushed ending → Ends ending final data err →
      final.callStack.length = pushed.callStack.length →
      ∃ resumed, Completion calling pushed ending resumed final data err ∧
        (DepositPaid creator.fork data err creator.unusedGas.toNat final.frameGas
            resumed.frameGas (Installs resumed pushed.curCall.callee data)
            (resumed.curCall.stack.peek = some 0) ↔
          CreatorSettles creator.fork data creator.unusedGas.toNat final.frameGas err)) ∧
    (∀ {tx : Transaction S} {before ending : TxExecContext S} {data : Bytes}
        {err : Result},
      tx.recipient = none → tx.Reaches before → before.status = .running →
      Ends before ending data err → ending.callStack.length = 1 →
      ∃ after reported, Step before after ∧ after.status.leftGas = some reported ∧
        (DepositPaid tx.env.block.fork data err 0 ending.frameGas reported.toNat
            after.status.Creates after.status.Reverts ↔
          SenderSettles tx.env.block.fork data tx.gas.toNat ending.frameGas err)) :=
  ⟨instruction_settles, transaction_settles⟩

end Law

namespace Sample

/-- A transaction that creates a contract and fails in its initialization. -/
def failingInitTx : Transaction DummyStateStore :=
  letI := creationKeccak
  { creatingTx 0x00 with
    recipient := none
    input := [0xfe] }

end Sample

/-- The gas is settled as it is to be when the initialization stops, and not when it
fails in a creation transaction. -/
theorem stopped_creation_pays :
    letI := Sample.creationKeccak
    (∃ (calling pushed ending resumed final : TxExecContext DummyStateStore)
      (creator : CallFrame DummyStateStore),
      (Sample.creatingTx 0x00).Reaches calling ∧
        Completion calling pushed ending resumed final [] (.ok ()) ∧
        DepositPaid creator.fork [] (.ok ()) creator.unusedGas.toNat final.frameGas
          resumed.frameGas (Installs resumed pushed.curCall.callee [])
          (resumed.curCall.stack.peek = some 0)) ∧
      ∃ (before after : TxExecContext DummyStateStore) (reported : Gas),
        Sample.failingInitTx.Reaches before ∧ Step before after ∧
          after.status.leftGas = some reported ∧
          ¬DepositPaid .london [] (.error .invalidOpcode) 0 before.frameGas
            reported.toNat after.status.Creates after.status.Reverts := by
  let := Sample.creationKeccak
  constructor
  · obtain ⟨run, creator, reached, resumption, fetches, stops, depth, waiting, small⟩ :=
      creatingTx_initializes 0x00 ⟨.stop, none, 0⟩
        (fun creator ending => creator.unusedGas.toNat + ending.frameGas < 2 ^ 64)
        (by decide +kernel)
    obtain ⟨resumed, completion, paid⟩ := creation_gas_settles_iff.1 fetches rfl
      resumption.opens waiting resumption.inside (.instruction stops rfl) depth
    exact ⟨run.calling, run.pushed, run.ending, resumed, run.ending, creator, reached,
      completion, paid.mpr (.stored (legal_nil _) (Nat.zero_le _) (Nat.zero_le _) small)⟩
  · obtain ⟨before, reached, fails, depth, running, gas⟩ :=
      Sample.failingInitTx.exists_reached 0
        (fun before => Fetches before ⟨.invalid, none, 0⟩ ∧
          before.callStack.length = 1 ∧ before.status.leftGas = none ∧
          before.frameGas ≠ 0)
        (by decide +kernel)
    obtain ⟨after, reported, step, leaves, paid⟩ := creation_gas_settles_iff.2 rfl reached
      (TxExecStatus.leftGas_eq_none.mp running) (.raised fails rfl) depth
    refine ⟨before, after, reported, reached, step, leaves, fun due => ?_⟩
    cases paid.mp due with
    | failed _ nothing => exact gas nothing

/-- The gas of an initialization that fails is handed to its creator, whose own gas is
lost. -/
theorem failed_creation_swaps_the_gas :
    letI := Sample.creationKeccak
    ∃ (calling pushed ending resumed final : TxExecContext DummyStateStore)
      (creator : CallFrame DummyStateStore),
      (Sample.creatingTx 0xfe).Reaches calling ∧
        Fetches calling ⟨.create, none, 0⟩ ∧
        pushed.callStack = creator :: calling.callStack ∧
        creator.fork ≥ .homestead ∧
        Completion calling pushed ending resumed final [] (.error .invalidOpcode) ∧
        ¬DepositPaid creator.fork [] (.error .invalidOpcode) creator.unusedGas.toNat
          final.frameGas resumed.frameGas (Installs resumed pushed.curCall.callee [])
          (resumed.curCall.stack.peek = some 0) := by
  let := Sample.creationKeccak
  obtain ⟨run, creator, reached, resumption, fetches, fails, depth, waiting, settled⟩ :=
    creatingTx_initializes 0xfe ⟨.invalid, none, 0⟩
      (fun creator ending => creator.fork ≥ .homestead ∧
        ending.frameGas ≠ creator.unusedGas.toNat) (by decide +kernel)
  obtain ⟨resumed, completion, paid⟩ := instruction_settles fetches rfl
    resumption.opens waiting resumption.inside (.raised fails rfl) depth
  refine ⟨run.calling, run.pushed, run.ending, resumed, run.ending, creator, reached,
    fetches, waiting, settled.1, completion, fun due => ?_⟩
  cases paid.mp due with
  | failed _ same => exact settled.2 same

end Qevm
