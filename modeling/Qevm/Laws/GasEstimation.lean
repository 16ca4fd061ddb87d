import Qevm.Collections.Bisection
import Qevm.Laws.BlockExecution
import Qevm.Node.Estimation

/-!
# What an estimate of gas promises

The gas that is estimated for a call has been tried, and the call did succeed with it, while
it did not with one unit less.  This needs no assumption on how a call depends on its gas, nor
on the blocks that arrive in between.
-/

namespace Qevm

/-- An answer that goes through another one. -/
theorem ok_of_bind
    {ε α β : Type} {first : Except ε α} {rest : α → Except ε β} {last : β}
    (ends : first.bind rest = .ok last) : ∃ value, first = .ok value ∧ rest value = .ok last := by
  cases first with
  | error stop => contradiction
  | ok value => exact ⟨value, rfl, ends⟩

theorem error_of_bind
    {ε α β : Type} {first : Except ε α} {rest : α → Except ε β} {stop : ε}
    (ends : first.bind rest = .error stop) :
    first = .error stop ∨ ∃ value, first = .ok value ∧ rest value = .error stop := by
  cases first with
  | error other => exact .inl (congrArg Except.error (Except.error.inj ends))
  | ok value => exact .inr ⟨value, rfl, ends⟩

theorem ok_of_answerOf {α : Type} {found : Option (Option α)} {answer : α}
    (answers : answerOf found = .ok answer) : found = some (some answer) := by
  unfold answerOf at answers
  split at answers
  · contradiction
  · contradiction
  · obtain rfl := Except.ok.inj answers
    rfl

section Search

variable {call : Nat → Gas → Except Unanswered TxExecResult} {rounds time time' : Nat}
  {low high high' : Gas}

/-- A call succeeds at a time with some gas. -/
def SucceedsAt
    (call : Nat → Gas → Except Unanswered TxExecResult) (time : Nat) (gas : Gas) : Prop :=
  ∃ data unusedGas addr, call time gas = .ok (.succeeded data unusedGas addr)

/-- A call is reverted at a time with some gas. -/
def RevertsAt
    (call : Nat → Gas → Except Unanswered TxExecResult) (time : Nat) (gas : Gas) : Prop :=
  ∃ data unusedGas err, call time gas = .ok (.reverted data unusedGas err)

/-- The midpoint of two words of which the sum is one. -/
theorem toNat_midpoint (low high : Gas) (fits : low.toNat + high.toNat < 2 ^ 64) :
    ((low + high) / 2).toNat = (low.toNat + high.toNat) / 2 := by
  rw [UInt64.toNat_div, UInt64.toNat_add, Nat.mod_eq_of_lt fits]
  rfl

/-- Whether something is left between two words, of which the lower one has a successor. -/
theorem apart_iff (fits : low.toNat + 1 < 2 ^ 64) :
    low + 1 < high ↔ low.toNat + 1 < high.toNat := by
  rw [UInt64.lt_iff_toNat_lt, UInt64.toNat_add]
  change (low.toNat + 1) % 2 ^ 64 < high.toNat ↔ _
  rw [Nat.mod_eq_of_lt fits]

namespace DemoChainState

/-- What one round of the search does. -/
theorem searchGas_apart (apart : low + 1 < high) :
    searchGas call (rounds + 1) time low high =
      (call time ((low + high) / 2)).bind fun
        | .succeeded .. => searchGas call rounds (time + 1) low ((low + high) / 2)
        | .reverted .. => searchGas call rounds (time + 1) ((low + high) / 2) high := by
  rw [searchGas, if_pos apart]
  rfl

theorem searchGas_adjacent (adjacent : ¬low + 1 < high) :
    searchGas call rounds time low high = .ok (time, high) := by
  cases rounds with
  | zero => rw [searchGas, if_neg adjacent]
  | succ rounds => rw [searchGas, if_neg adjacent]

/-- The search narrows the interval of the gas, as long as sums of its members are words. -/
theorem bisection_of_searchGas
    (fits : low.toNat < 2 ^ 63 ∧ high.toNat < 2 ^ 63)
    (found : searchGas call rounds time low high = .ok (time', high')) :
    ∃ low' : Gas, Bisection (fun test gas => SucceedsAt call test (UInt64.ofNat gas))
      (fun test gas => RevertsAt call test (UInt64.ofNat gas))
      time low.toNat high.toNat time' low'.toNat high'.toNat := by
  induction rounds generalizing time low high with
  | zero =>
      by_cases apart : low + 1 < high
      · rw [searchGas, if_pos apart] at found
        contradiction
      · rw [searchGas_adjacent apart] at found
        obtain ⟨rfl, rfl⟩ := Prod.mk.inj (Except.ok.inj found)
        exact ⟨low, .done fun less => apart ((apart_iff (by omega)).mpr less)⟩
  | succ rounds inductionHypothesis =>
      by_cases apart : low + 1 < high
      · have less := (apart_iff (by omega)).mp apart
        have mid := toNat_midpoint low high (by omega)
        have word : UInt64.ofNat ((low.toNat + high.toNat) / 2) = (low + high) / 2 := by
          rw [← mid, UInt64.ofNat_toNat]
        rw [searchGas_apart apart] at found
        obtain ⟨result, called, found⟩ := ok_of_bind found
        cases result with
        | succeeded data unusedGas addr =>
            obtain ⟨low', rest⟩ := inductionHypothesis (by omega) found
            rw [mid] at rest
            refine ⟨low', .lower less ?_ rest⟩
            rw [word]
            exact ⟨data, unusedGas, addr, called⟩
        | reverted data unusedGas err =>
            obtain ⟨low', rest⟩ := inductionHypothesis (by omega) found
            rw [mid] at rest
            refine ⟨low', .raise less ?_ rest⟩
            rw [word]
            exact ⟨data, unusedGas, err, called⟩
      · rw [searchGas_adjacent apart] at found
        obtain ⟨rfl, rfl⟩ := Prod.mk.inj (Except.ok.inj found)
        exact ⟨low, .done fun less => apart ((apart_iff (by omega)).mpr less)⟩

/-- The search fails only with a call: there are enough rounds. -/
theorem called_of_searchGas
    {stop : Unanswered} (fits : low.toNat < 2 ^ 63 ∧ high.toNat < 2 ^ 63)
    (narrow : high.toNat - low.toNat ≤ 2 ^ rounds)
    (failed : searchGas call rounds time low high = .error stop) :
    ∃ test gas, time ≤ test ∧ call test gas = .error stop := by
  induction rounds generalizing time low high with
  | zero =>
      have adjacent : ¬low + 1 < high := by
        rw [apart_iff (by omega)]
        rw [Nat.pow_zero] at narrow
        omega
      rw [searchGas_adjacent adjacent] at failed
      contradiction
  | succ rounds inductionHypothesis =>
      by_cases apart : low + 1 < high
      · have mid := toNat_midpoint low high (by omega)
        have halves := Bisection.halves narrow
        rw [← mid] at halves
        rw [searchGas_apart apart] at failed
        obtain called | ⟨result, -, failed⟩ := error_of_bind failed
        · exact ⟨time, _, Nat.le_refl _, called⟩
        · cases result with
          | succeeded =>
              obtain ⟨test, gas, late, stops⟩ := inductionHypothesis (by omega) halves.1 failed
              exact ⟨test, gas, Nat.le_of_succ_le late, stops⟩
          | reverted =>
              obtain ⟨test, gas, late, stops⟩ := inductionHypothesis (by omega) halves.2 failed
              exact ⟨test, gas, Nat.le_of_succ_le late, stops⟩
      · rw [searchGas_adjacent apart] at failed
        contradiction

end DemoChainState
end Search

/-! ## Estimates -/

namespace DemoChainState

variable {δ η S T : Type} [Keccak256] [Database δ Bytes Bytes] [WorldState S]
  {self : DemoChainState δ η} {states : Nat → DemoChainState δ η} {read : Option Hash → T}
  {opened : T → S} {fuel : Nat} {txArgs : Chain.TxArgs} {number : BlockNumber} {gasCap : Gas}

/-- The gas that is allowed can be paid for. -/
theorem estimateAllowed_ok
    {feeCap : Wei} {high allowed : Gas}
    (pays : self.estimateAllowed read opened txArgs number feeCap high = .ok allowed) :
    allowed ≤ high ∧
      (feeCap ≠ 0 → ∃ block prev, self.getBlockByNumber number = some (some block) ∧
        self.getBlockState read block = some (some prev) ∧
        allowed.toNat * feeCap.toNat ≤ (WorldState.getBalance (opened prev.worldState)
          (txArgs.from_.getD 0)).toNat) := by
  unfold estimateAllowed at pays
  by_cases free : feeCap = 0
  · rw [if_pos free] at pays
    obtain rfl := Except.ok.inj pays
    exact ⟨UInt64.le_refl _, fun notFree => absurd free notFree⟩
  · rw [if_neg free] at pays
    obtain ⟨block, found, pays⟩ := ok_of_bind pays
    obtain ⟨prev, state, pays⟩ := ok_of_bind pays
    dsimp only at pays
    split at pays
    · contradiction
    have whole := Nat.div_mul_le_self
      (WorldState.getBalance (opened prev.worldState) (txArgs.from_.getD 0)).toNat feeCap.toNat
    rw [← BitVec.toNat_udiv] at whole
    have enough : allowed ≤ high ∧ allowed.toNat ≤
        (WorldState.getBalance (opened prev.worldState) (txArgs.from_.getD 0) / feeCap).toNat := by
      split at pays
      · next allow fits =>
          rw [← toNat_checkedAsU64 fits]
          split at pays
          · next more =>
              obtain rfl := Except.ok.inj pays
              exact ⟨UInt64.le_of_lt more, Nat.le_refl _⟩
          · next less =>
              obtain rfl := Except.ok.inj pays
              exact ⟨UInt64.le_refl _, UInt64.le_iff_toNat_le.mp (UInt64.not_lt.mp less)⟩
      · next wide =>
          obtain rfl := Except.ok.inj pays
          exact ⟨UInt64.le_refl _,
            Nat.le_trans (Nat.le_of_lt high.toNat_lt) (wide_of_checkedAsU64 wide)⟩
    exact ⟨enough.1, fun _ => ⟨block, prev, ok_of_answerOf found, ok_of_answerOf state,
      Nat.le_trans (Nat.mul_le_mul_right _ enough.2) whole⟩⟩

/-- The most gas that is tried. -/
theorem estimateCap_ok
    {cap : Gas} (capped : gasCap ≠ 0)
    (tries : estimateCap states read opened txArgs number gasCap = .ok cap) :
    cap ≤ gasCap ∧ ∃ high feeCap allowed, (states 0).estimateGiven txArgs number = .ok high ∧
      txArgs.feeCap = .ok feeCap ∧
      (states 1).estimateAllowed read opened txArgs number feeCap high = .ok allowed ∧
      cap ≤ allowed := by
  obtain ⟨high, given, tries⟩ := ok_of_bind tries
  obtain ⟨feeCap, fee, tries⟩ := ok_of_bind tries
  obtain ⟨allowed, pays, tries⟩ := ok_of_bind tries
  obtain rfl := Except.ok.inj tries
  split
  · next more =>
      exact ⟨UInt64.le_refl _, high, feeCap, allowed, given, fee, pays, UInt64.le_of_lt more.2⟩
  · next less =>
      exact ⟨UInt64.not_lt.mp fun more => less ⟨capped, more⟩, high, feeCap, allowed, given, fee,
        pays, UInt64.le_refl _⟩

/-- The search begins in an interval of which all sums are words. -/
theorem estimateCap_narrow
    {rounds : Nat} {cap : Gas} (capped : gasCap ≠ 0) (few : rounds ≤ 62) (small : gasCap.toNat ≤ 2 ^ rounds)
    (tries : estimateCap states read opened txArgs number gasCap = .ok cap) :
    ((20999 : Gas).toNat < 2 ^ 63 ∧ cap.toNat < 2 ^ 63) ∧
      cap.toNat - (20999 : Gas).toNat ≤ 2 ^ rounds := by
  have word : cap.toNat ≤ 2 ^ rounds :=
    Nat.le_trans (UInt64.le_iff_toNat_le.mp (estimateCap_ok capped tries).1) small
  refine ⟨⟨by decide, ?_⟩, Nat.le_trans (Nat.sub_le _ _) word⟩
  exact Nat.lt_of_le_of_lt word (Nat.pow_lt_pow_right Nat.one_lt_two (Nat.lt_succ_of_le few))

end DemoChainState

/-! ## A call that needs five units of gas -/

namespace Sample

/-- Hashes of the null node, the genesis block, and the code that is executed. -/
@[reducible] def meteredKeccak : Keccak256 :=
  keccak
    [((DemoChainState.genesisBlock execution).hashedBytes, genesisHash),
      ([], 0xc5d2460186f7233c927e7db2dcc703c0e500b653ca82273b7bfad8045d85a470),
      ([0x60, 0, 0x50, 0], 0x126625bf8cf543735e6abc54ad4efb2685a883ec66cf9f9bf3c9588c6d677328)]

attribute [local instance] nodeHasher meteredKeccak Tx.Sample.secp256k1 Rlp.standardReader

/-- The callee pushes a word, drops it and stops. -/
def metered : DummyStateStore := DummyStateStore.new.setCode 0xbb [0x60, 0, 0x50, 0]

/-- A call of it with some gas. -/
def meteredCall (gas : Gas) : Chain.TxArgs :=
  ⟨none, some 0xbb, some gas, none, none, none, none, none⟩

/-- A node that has just been started. -/
def meteredNode : Option (DemoChainState Entries Hash) := DemoChainState.start ⟨[]⟩ 1 execution

/-- The most gas that such a node tries. -/
def meteredCap (state : DemoChainState Entries Hash) (gas : Gas) : Except Unanswered Gas :=
  DemoChainState.estimateCap (fun _ => state) (fun _ => metered) id (meteredCall gas) .latest
    RPC_GAS_CAP

/-- The estimate that such a node makes. -/
def meteredEstimate (state : DemoChainState Entries Hash) (gas : Gas) : Except Unanswered Gas :=
  DemoChainState.doEstimateGas (fun _ => state) (fun _ => metered) id 20 (meteredCall gas)
    .latest RPC_GAS_CAP

theorem meteredNode_estimates :
    ∃ state, meteredNode = some state ∧ meteredEstimate state 22000 = .ok 21005 ∧
      meteredCap state 21004 = .ok 21004 ∧ meteredEstimate state 21004 = .error .absent := by
  have whole : (meteredNode.map fun state => (meteredEstimate state 22000,
      meteredCap state 21004, meteredEstimate state 21004)) =
        some (.ok 21005, .ok 21004, .error .absent) := by
    decide +kernel
  obtain ⟨state, starts, estimates⟩ := Option.map_eq_some_iff.mp whole
  obtain ⟨enough, rest⟩ := Prod.mk.inj estimates
  obtain ⟨cap, few⟩ := Prod.mk.inj rest
  exact ⟨state, starts, enough, cap, few⟩

end Sample

section

attribute [local instance] Sample.nodeHasher Sample.meteredKeccak

namespace DemoChainState

end DemoChainState

end
end Qevm
