import Qevm.Core.Accessed
import Qevm.Laws.GasConservation
import Qevm.Laws.Refund

/-!
# Net metering of storage writes

From Istanbul on, what a write to a slot costs, less what it adds to the refund counter,
is the price of a warm access and the difference of a potential of the word in the slot.
So what a sequence of writes costs depends only on their number and on the first and the
last word, and not on the words in between.
-/

namespace Qevm

open Params WorldState Exec TxExecContext Procedure

/-! ### The potential of a word -/

/-- The prices of a write. -/
structure StoreCosts where
  /-- Of the access to a slot that has been accessed before. -/
  access : Int
  /-- Of setting a slot that was clear at the start of the block. -/
  set : Int
  /-- Of changing a slot that was set at the start of the block. -/
  update : Int
  /-- What is paid back for clearing such a slot. -/
  refund : Int

/-- The prices from Istanbul on. -/
def storeCosts (fork : Fork) : StoreCosts :=
  if fork ≥ .london then ⟨100, 19900, 2800, 4800⟩
  else if fork ≥ .berlin then ⟨100, 19900, 2800, 15000⟩
  else ⟨800, 19200, 4200, 15000⟩

/-- What it costs to have a word in a slot instead of the word that it had at the start
of the block. -/
def StoreCosts.potential (costs : StoreCosts) (orig val : U256) : Int :=
  if val = orig then 0
  else if orig = 0 then costs.set
  else if val = 0 then costs.update - costs.refund
  else costs.update

namespace Exec.StoreRates

/-- The gas for a write. -/
def gas (rates : StoreRates) (orig cur val : U256) : Gas :=
  if cur = val then rates.keep
  else if orig = cur then
    if orig = 0 then rates.create else rates.change
  else rates.changeAgain

/-- What a write to a slot that has been written before adds to the refund counter. -/
def adjustment (rates : StoreRates) (orig cur val : U256) : Int :=
  (if orig ≠ 0 then
    if cur = 0 then -(rates.clearing.toNat : Int)
    else if val = 0 then rates.clearing.toNat else 0
  else 0) +
    if orig = val then
      if orig = 0 then (rates.clearAgain.toNat : Int) else rates.setBack.toNat
    else 0

/-- What a write adds to the refund counter. -/
def refunds (rates : StoreRates) (orig cur val : U256) : Int :=
  if cur = val then 0
  else if orig = cur then
    if orig ≠ 0 ∧ val = 0 then rates.clearing.toNat else 0
  else rates.adjustment orig cur val

/-- The rates agree with the prices, with a surcharge on every write. -/
structure Charges (rates : StoreRates) (costs : StoreCosts) (surcharge : Int) : Prop where
  keep : (rates.keep.toNat : Int) = costs.access + surcharge
  create : (rates.create.toNat : Int) = costs.access + costs.set + surcharge
  change : (rates.change.toNat : Int) = costs.access + costs.update + surcharge
  changeAgain : (rates.changeAgain.toNat : Int) = costs.access + surcharge
  clearing : (rates.clearing.toNat : Int) = costs.refund
  clearAgain : (rates.clearAgain.toNat : Int) = costs.set
  setBack : (rates.setBack.toNat : Int) = costs.update

variable {rates : StoreRates} {costs : StoreCosts} {surcharge : Int}

/-- The net cost of a write is a difference of potentials. -/
theorem Charges.net
    (charges : rates.Charges costs surcharge) (orig cur val : U256) :
    ((rates.gas orig cur val).toNat : Int) - rates.refunds orig cur val =
      costs.access + surcharge +
        (costs.potential orig val - costs.potential orig cur) := by
  obtain ⟨keep, create, change, changeAgain, clearing, clearAgain, setBack⟩ := charges
  unfold gas refunds adjustment StoreCosts.potential
  -- only equalities of the three words and of the clear word are looked at
  generalize (0 : U256) = clear
  by_cases same : cur = val
  · subst same
    simp only [if_true]
    omega
  · by_cases untouched : orig = cur <;> grind

/-- The refunds for one write are far from wrapping. -/
theorem Charges.small
    (small : rates.Small) (orig cur val : U256) :
    -(2 ^ 63) ≤ rates.refunds orig cur val ∧ rates.refunds orig cur val < 2 ^ 63 := by
  obtain ⟨clearing, clearAgain, setBack⟩ := small
  have bound : maxRefund = 24000 := rfl
  unfold refunds adjustment
  split_ifs <;> constructor <;> omega

end Exec.StoreRates

section Law

variable {S : Type}

/-! ### The change of the counter -/

/-- The change of the refund counter, as an integer: the counter is a 64-bit word, and a
change by less than half of its range can be told although the word wraps. -/
def TxExecContext.refundChange (before after : TxExecContext S) : Int :=
  Int.bmod (after.refund.toNat - before.refund.toNat) (2 ^ 64)

/-- The difference of the two words when the counter has not wrapped. -/
theorem TxExecContext.refundChange_eq_sub
    {before after : TxExecContext S}
    (more : (after.refund.toNat : Int) - before.refund.toNat < 2 ^ 63)
    (less : -(2 ^ 63) ≤ (after.refund.toNat : Int) - before.refund.toNat) :
    before.refundChange after = after.refund.toNat - before.refund.toNat := by
  unfold refundChange
  rw [Int.bmod_eq_of_le] <;> omega

/-- The counter has moved by a number of units, up to wrapping. -/
def TxExecContext.Counts (change : Int) (before after : TxExecContext S) : Prop :=
  (after.refund.toNat : Int) % 2 ^ 64 = (before.refund.toNat + change) % 2 ^ 64

variable {before middle after : TxExecContext S} {change more : Int}

namespace TxExecContext.Counts

theorem refundChange
    (counts : Counts change before after) (low : -(2 ^ 63) ≤ change)
    (high : change < 2 ^ 63) : before.refundChange after = change := by
  unfold Counts at counts
  unfold TxExecContext.refundChange
  rw [Int.bmod_def]
  split <;> omega

theorem trans
    (first : Counts change before middle) (second : Counts more middle after) :
    Counts (change + more) before after := by
  unfold Counts at *
  omega

theorem kept (same : after.refund = before.refund) : Counts 0 before after := by
  unfold Counts
  rw [same, Int.add_zero]

end TxExecContext.Counts

namespace Exec

/-- A refund that is given moves the counter and takes no gas. -/
theorem addRefund_counts
    {gas : UInt64} (run : addRefund gas before = .ok () after) :
    Counts gas.toNat before after ∧ after.frameGas = before.frameGas := by
  obtain ⟨-, rfl⟩ := Outcome.ok.inj run
  refine ⟨?_, rfl⟩
  unfold Counts
  simp only [UInt64.toNat_add]
  omega

/-- So does a refund that is taken back. -/
theorem subRefund_counts
    {gas : UInt64} (run : subRefund gas before = .ok () after) :
    Counts (-(gas.toNat : Int)) before after ∧ after.frameGas = before.frameGas := by
  have taken := subRefund_ok run
  refine ⟨?_, ?_⟩
  · unfold Counts
    omega
  · unfold subRefund at run
    split at run
    · contradiction
    · obtain ⟨-, rfl⟩ := Outcome.ok.inj run
      rfl

variable {rates : StoreRates} {orig cur val : U256}

theorem adjustRefund_counts
    (run : adjustRefund rates orig cur val before = .ok () after) :
    Counts (rates.adjustment orig cur val) before after ∧
      after.frameGas = before.frameGas := by
  obtain ⟨_, middle, first, second⟩ := bind_ok.mp run
  have taken : Counts (if orig ≠ 0 then
      if cur = 0 then -(rates.clearing.toNat : Int)
      else if val = 0 then rates.clearing.toNat else 0
    else 0) before middle ∧ middle.frameGas = before.frameGas := by
    obtain ⟨was, first⟩ | ⟨was, rfl⟩ := when_ok.mp first
    · rw [if_pos was]
      split at first
      · rename_i cleared
        rw [if_pos cleared]
        exact subRefund_counts first
      · rename_i set
        rw [if_neg set]
        obtain ⟨clears, first⟩ | ⟨sets, rfl⟩ := when_ok.mp first
        · rw [if_pos clears]
          exact addRefund_counts first
        · rw [if_neg sets]
          exact ⟨.kept rfl, rfl⟩
    · rw [if_neg was]
      exact ⟨.kept rfl, rfl⟩
  have given : Counts (if orig = val then
      if orig = 0 then (rates.clearAgain.toNat : Int) else rates.setBack.toNat
    else 0) middle after ∧ after.frameGas = middle.frameGas := by
    obtain ⟨back, second⟩ | ⟨other, rfl⟩ := when_ok.mp second
    · rw [if_pos back]
      split at second
      · rename_i unset
        rw [if_pos unset]
        exact addRefund_counts second
      · rename_i set
        rw [if_neg set]
        exact addRefund_counts second
    · rw [if_neg other]
      exact ⟨.kept rfl, rfl⟩
  exact ⟨taken.1.trans given.1, given.2.trans taken.2⟩

variable [WorldState S]

/-- The metering of a write takes the gas and moves the counter. -/
theorem meterStore_counts
    {callee : Addr} {key : Hash}
    (run : meterStore rates callee key val before = .ok () after) :
    Counts (rates.refunds (getState before.committedState callee key)
        (getState before.state callee key) val) before after ∧
      after.frameGas + (rates.gas (getState before.committedState callee key)
        (getState before.state callee key) val).toNat = before.frameGas := by
  have paid {gas : Gas} {first last : TxExecContext S}
      (run : useGas gas first = .ok () last) :
      Counts 0 first last ∧ last.frameGas + gas.toNat = first.frameGas := by
    have kept : first.KeepsRefund last := Moves.ok run
    exact ⟨.kept kept, (frameGas_useGas run).1⟩
  unfold meterStore at run
  replace run := reads_bind_ok.mp run
  unfold StoreRates.refunds StoreRates.gas
  split at run
  · rename_i same
    change getState before.state callee key = val at same
    rw [if_pos same, if_pos same]
    exact paid run
  rename_i changes
  change getState before.state callee key ≠ val at changes
  rw [if_neg changes, if_neg changes]
  replace run := reads_bind_ok.mp run
  split at run
  · rename_i untouched
    change getState before.committedState callee key =
      getState before.state callee key at untouched
    rw [if_pos untouched, if_pos untouched]
    split at run
    · rename_i unset
      change getState before.committedState callee key = 0 at unset
      rw [if_neg fun both => both.1 unset, if_pos unset]
      exact paid run
    · rename_i set
      change getState before.committedState callee key ≠ 0 at set
      rw [if_neg set]
      obtain ⟨_, middle, gives, pays⟩ := bind_ok.mp run
      obtain ⟨counts, gas⟩ := paid pays
      obtain ⟨clears, gives⟩ | ⟨sets, rfl⟩ := when_ok.mp gives
      · obtain ⟨given, same⟩ := addRefund_counts gives
        rw [if_pos ⟨set, clears⟩, ← same]
        refine ⟨?_, gas⟩
        simpa only [Int.add_zero] using given.trans counts
      · rw [if_neg fun both => sets both.2]
        exact ⟨counts, gas⟩
  · rename_i touched
    change getState before.committedState callee key ≠
      getState before.state callee key at touched
    rw [if_neg touched, if_neg touched]
    obtain ⟨_, middle, adjusts, pays⟩ := bind_ok.mp run
    obtain ⟨counts, gas⟩ := paid pays
    obtain ⟨adjusted, same⟩ := adjustRefund_counts adjusts
    rw [← same]
    refine ⟨?_, gas⟩
    simpa only [Int.add_zero] using adjusted.trans counts

end Exec

/-- A slot has been accessed. -/
def TxExecContext.SlotWarm (context : TxExecContext S) (account : Addr) (key : Hash) :
    Prop :=
  context.accessList.contains account key = some (true, true)

instance (context : TxExecContext S) (account : Addr) (key : Hash) :
    Decidable (context.SlotWarm account key) :=
  inferInstanceAs (Decidable (_ = _))

/-- What the first access to a slot costs more. -/
def TxExecContext.surcharge (context : TxExecContext S) (fork : Fork) (account : Addr)
    (key : Hash) : Int :=
  if fork ≥ .berlin ∧ ¬context.SlotWarm account key then 2100 else 0

variable [WorldState S]

/-- The potential of a word in a slot. -/
def TxExecContext.potential (context : TxExecContext S) (fork : Fork) (account : Addr)
    (key : Hash) (val : U256) : Int :=
  (storeCosts fork).potential (getState context.committedState account key) val

namespace Exec

theorem charges_istanbul {fork : Fork} (early : ¬fork ≥ .berlin) :
    ratesIstanbul.Charges (storeCosts fork) 0 := by
  have before : ¬fork ≥ .london := fun late => early (le_trans (by decide) late)
  simp only [storeCosts, early, before, if_false]
  constructor <;> decide

theorem charges_berlin
    {fork : Fork} (forked : fork ≥ .berlin) (slotExist : Bool) :
    (ratesBerlin (clearingRefund fork)
      (if slotExist then 0 else gasColdSloadCostBerlin)).Charges (storeCosts fork)
        (if slotExist then 0 else 2100) := by
  unfold storeCosts clearingRefund
  by_cases late : fork ≥ .london
  · simp only [late, if_true]
    cases slotExist <;> constructor <;> decide
  · simp only [late, forked, if_true, if_false]
    cases slotExist <;> constructor <;> decide

omit [WorldState S] in
/-- The rates that are found for a slot agree with the prices, and the slot has been
accessed afterwards. -/
theorem storeRates_charges
    {call : CallFrame S} {key : Hash} {rates : StoreRates}
    (run : storeRates call key before = .ok rates after) :
    rates.Charges (storeCosts call.fork) (before.surcharge call.fork call.callee key) ∧
      (call.fork ≥ .berlin → after.SlotWarm call.callee key) ∧
      after.frameGas = before.frameGas := by
  unfold storeRates at run
  obtain ⟨-, run⟩ := raiseIf_bind_ok.mp run
  split at run
  · rename_i forked
    obtain ⟨⟨addrExist, slotExist⟩, looked, looks, run⟩ := bind_ok.mp run
    unfold accessed at looks
    have found := reads_bind_ok.mp looks
    obtain ⟨here, still⟩ := unwrap_ok.mp found
    rw [still] at run
    obtain ⟨_, added, adds, returns⟩ := bind_ok.mp run
    obtain ⟨rfl, rfl⟩ := Outcome.ok.inj returns
    have charges := charges_berlin forked slotExist
    cases slotExist with
    | true =>
        obtain rfl := AccessList.contains_slot here
        obtain ⟨missing, -⟩ | ⟨-, rfl⟩ := when_ok.mp adds
        · contradiction
        · have free : added.surcharge call.fork call.callee key = 0 :=
            if_neg fun cold => cold.2 here
          rw [free]
          exact ⟨charges, fun _ => here, rfl⟩
    | false =>
        have cold : ¬before.SlotWarm call.callee key := by
          intro warm
          unfold SlotWarm at warm
          rw [here] at warm
          simp at warm
        have first : before.surcharge call.fork call.callee key = 2100 :=
          if_pos ⟨forked, cold⟩
        rw [first]
        obtain ⟨-, adds⟩ | ⟨known, -⟩ := when_ok.mp adds
        · obtain ⟨_, listed, lists, aborts⟩ := bind_ok.mp adds
          obtain ⟨-, rfl⟩ := abortIf_ok.mp aborts
          replace lists := reads_bind_ok.mp lists
          obtain ⟨⟨list, flags⟩, _, finds, updates⟩ := bind_ok.mp lists
          obtain ⟨stored, rfl⟩ := unwrap_ok.mp finds
          obtain ⟨-, rfl⟩ := Outcome.ok.inj updates
          exact ⟨charges, fun _ => AccessList.contains_addSlot stored, rfl⟩
        · exact absurd rfl known
  · rename_i early
    obtain ⟨rfl, rfl⟩ := Outcome.ok.inj run
    have free : before.surcharge call.fork call.callee key = 0 :=
      if_neg fun cold => early cold.1
    rw [free]
    exact ⟨charges_istanbul early, fun forked => absurd forked early, rfl⟩

/-- The gas of a write less what it adds to the refund counter. -/
theorem sstoreGas_net
    {key : Hash} {val : U256} (forked : before.curCall.fork ≥ .istanbul)
    (run : sstoreGas key val before = .ok () after) :
    (before.frameGas : Int) - after.frameGas - before.refundChange after =
      (storeCosts before.curCall.fork).access +
        before.surcharge before.curCall.fork before.curCall.callee key +
        (before.potential before.curCall.fork before.curCall.callee key val -
          before.potential before.curCall.fork before.curCall.callee key
            (getState before.state before.curCall.callee key)) ∧
      (before.curCall.fork ≥ .berlin → after.SlotWarm before.curCall.callee key) := by
  rw [sstoreGas_eq forked] at run
  obtain ⟨rates, found, finds, meters⟩ := bind_ok.mp run
  have ofFork := (storeRates_ofFork _ _).holds finds
  have continues : before.Continues found := Moves.ok finds
  have accesses : found.Accesses after := by
    unfold meterStore adjustRefund at meters
    exact Moves.ok meters
  obtain ⟨charges, warm, sameGas⟩ := storeRates_charges finds
  obtain ⟨counts, gas⟩ := meterStore_counts meters
  refine ⟨?_, fun since => accesses.slot _ _ (warm since)⟩
  rw [continues.committedState, continues.state] at counts gas
  obtain ⟨low, high⟩ := StoreRates.Charges.small ofFork.toSmall
    (getState before.committedState before.curCall.callee key)
    (getState before.state before.curCall.callee key) val
  have counted := counts.refundChange low high
  have same : before.refundChange after = found.refundChange after := by
    unfold refundChange
    rw [continues.refund]
  have net := charges.net (getState before.committedState before.curCall.callee key)
    (getState before.state before.curCall.callee key) val
  rw [same, counted]
  unfold TxExecContext.potential
  omega

/-- What `SSTORE` costs less what it adds to the refund counter. -/
theorem sstore_net
    (forked : before.curCall.fork ≥ .istanbul) (run : sstore before = .ok () after) :
    (before.frameGas : Int) - after.frameGas - before.refundChange after =
      (storeCosts before.curCall.fork).access +
        before.surcharge before.curCall.fork before.curCall.callee (operand before 0) +
        (before.potential before.curCall.fork before.curCall.callee (operand before 0)
            (operand before 1) -
          before.potential before.curCall.fork before.curCall.callee (operand before 0)
            (getState before.state before.curCall.callee (operand before 0))) ∧
      (before.curCall.fork ≥ .berlin →
        after.SlotWarm before.curCall.callee (operand before 0)) := by
  unfold sstore at run
  replace run := reads_bind_ok.mp run
  obtain ⟨_, checked, checks, run⟩ := bind_ok.mp run
  obtain ⟨-, rfl⟩ := raiseIf_ok.mp checks
  obtain ⟨⟨key, val⟩, _, operands, run⟩ := bind_ok.mp run
  obtain ⟨rfl, rfl, rfl⟩ := consume2_ok operands
  obtain ⟨_, paid, charged, run⟩ := bind_ok.mp run
  obtain ⟨_, written, writes, marks⟩ := bind_ok.mp run
  obtain ⟨-, rfl⟩ := Outcome.ok.inj writes
  obtain ⟨-, rfl⟩ := Outcome.ok.inj marks
  have since : (popped checked 2).curCall.fork ≥ .istanbul := forked
  have net := sstoreGas_net since charged
  exact net

end Exec

/-! ### Sequences of writes -/

variable [Keccak256]

/-- An iteration in which an `SSTORE` writes a word to a slot and its frame goes on. -/
structure TxExecContext.Writes
    (account : Addr) (key : Hash) (val : U256) (before after : TxExecContext S) :
    Prop where
  step : Step before after
  fetches : ∃ inst, Fetches before inst ∧ inst.opcode = .sstore
  callee : before.curCall.callee = account
  key : operand before 0 = key
  val : operand before 1 = val
  goesOn : before.callStack.length ≤ after.callStack.length

/-- An iteration after which there is the same word in a slot. -/
def TxExecContext.KeepsSlot
    (account : Addr) (key : Hash) (before after : TxExecContext S) : Prop :=
  Step before after ∧
    getState after.state account key = getState before.state account key

/-- One or more writes to a slot: the words that are written, the gas that is charged for
them and the change of the refund counter by them.  Between two writes there may be any
iterations after which there is the same word in the slot. -/
inductive StoreRun (account : Addr) (key : Hash) (start : TxExecContext S) :
    List U256 → (gas change : Int) → TxExecContext S → Prop
  | first {val : U256} {after : TxExecContext S} :
      start.Writes account key val after →
      StoreRun account key start [val] (start.frameGas - after.frameGas)
        (start.refundChange after) after
  | next {vals : List U256} {gas change : Int} {middle before after : TxExecContext S}
      {val : U256} :
      StoreRun account key start vals gas change middle →
      Relation.ReflTransGen (KeepsSlot account key) middle before →
      before.Writes account key val after →
      StoreRun account key start (vals ++ [val])
        (gas + (before.frameGas - after.frameGas))
        (change + before.refundChange after) after

variable {account : Addr} {key : Hash} {val : U256}

/-- The write of an iteration. -/
theorem TxExecContext.Writes.stores (writes : before.Writes account key val after) :
    ∃ inst stored, sstore before = .ok () stored ∧ after = advanced inst stored := by
  obtain ⟨inst, fetches, store⟩ := writes.fetches
  obtain ⟨found, foundFetches, continues | enters | settled | ended⟩ := writes.step.cases
  all_goals obtain rfl := Option.some.inj (fetches.symm.trans foundFetches)
  · obtain ⟨working, effected, rfl⟩ := continues
    exact ⟨inst, working, (sstore_effect store effected).2, rfl⟩
  · obtain ⟨_, _, _, _, _, _, _, _, _, effected, -⟩ := enters
    have next := (sstore_effect store effected).1
    contradiction
  · obtain ⟨_, _, _, _, _, _, effected, -⟩ := settled
    have next := (sstore_effect store effected).1
    contradiction
  · obtain ⟨ending, data, err, settled, ends, finished, rfl⟩ := ended
    have shorter := ends.shorter finished
    exact absurd writes.goesOn (Nat.not_le.mpr shorter)

variable [LawfulWorldState S]

/-- The net cost of one write, and what is there after it. -/
theorem TxExecContext.Writes.net
    (writes : before.Writes account key val after) {fork : Fork}
    (onFork : before.OnFork fork) (forked : fork ≥ .istanbul) :
    (before.frameGas : Int) - after.frameGas - before.refundChange after =
        (storeCosts fork).access + before.surcharge fork account key +
          (before.potential fork account key val -
            before.potential fork account key (getState before.state account key)) ∧
      (fork ≥ .berlin → after.SlotWarm account key) ∧
      getState after.state account key = val ∧
      after.committedState = before.committedState := by
  obtain ⟨inst, stored, run, rfl⟩ := writes.stores
  have works : before.Works stored := Moves.ok run
  obtain ⟨net, warm⟩ := sstore_net (onFork.curCall ▸ forked) run
  have seen := sstore_view run
  rw [onFork.curCall, writes.callee, writes.key, writes.val] at net
  rw [onFork.curCall, writes.callee, writes.key] at warm
  rw [writes.callee, writes.key, writes.val] at seen
  have gas : (advanced inst stored).frameGas = stored.frameGas := by
    unfold frameGas advanced
    split <;> rfl
  have change : before.refundChange (advanced inst stored) = before.refundChange stored := rfl
  rw [gas, change]
  refine ⟨net, warm, ?_, works.committedState⟩
  change getState stored.state account key = val
  rw [← LawfulWorldState.storage_view, seen]
  simp only [View.setState, Function.update_self]

variable {tx : Transaction S} {start last : TxExecContext S} {vals : List U256}
  {gas change : Int}

omit [LawfulWorldState S] in
/-- Iterations that keep the word in a slot keep the state of the start of the block, as
long as the transaction runs. -/
theorem Transaction.Reaches.keepsSlot
    (reaches : tx.Reaches before)
    (run : Relation.ReflTransGen (KeepsSlot account key) before after) :
    tx.Reaches after ∧ before.Accesses after ∧
      getState after.state account key = getState before.state account key ∧
      (after.status = .running → after.committedState = before.committedState) := by
  induction run with
  | refl => exact ⟨reaches, refl_of Accesses before, rfl, fun _ => rfl⟩
  | @tail middle after _ keeps inductionHypothesis =>
      obtain ⟨reached, accesses, same, committed⟩ := inductionHypothesis
      obtain ⟨step, kept⟩ := keeps
      have moved : middle.Accesses after := Moves.ok step.2
      have next := reached.step step
      refine ⟨next, trans_of Accesses accesses moved, kept.trans same, fun running => ?_⟩
      have inside := next.inside running
      exact (step.lasts inside.suspended).committedState.trans (committed step.1)

/-- What holds after a sequence of writes. -/
structure StoreRun.Balanced
    (tx : Transaction S) (account : Addr) (key : Hash) (start : TxExecContext S)
    (vals : List U256) (gas change : Int) (last : TxExecContext S) : Prop where
  reaches : tx.Reaches last
  committed : last.committedState = start.committedState
  warm : tx.env.block.fork ≥ .berlin → last.SlotWarm account key
  word : vals.getLast? = some (getState last.state account key)
  net : gas - change = vals.length * (storeCosts tx.env.block.fork).access +
    start.surcharge tx.env.block.fork account key +
      (start.potential tx.env.block.fork account key
          (getState last.state account key) -
        start.potential tx.env.block.fork account key
          (getState start.state account key))

theorem StoreRun.balanced
    (forked : tx.env.block.fork ≥ .istanbul) (reaches : tx.Reaches start)
    (run : StoreRun account key start vals gas change last) :
    Balanced tx account key start vals gas change last := by
  induction run with
  | first writes =>
      have onFork := reaches.onFork writes.step.1
      obtain ⟨net, warm, word, committed⟩ := writes.net onFork forked
      refine ⟨reaches.step writes.step, committed, warm, ?_, ?_⟩
      · rw [word]
        rfl
      · rw [word, net, List.length_singleton]
        omega
  | @next vals gas change middle before after val _ keeps writes inductionHypothesis =>
      obtain ⟨reached, earlier, warm, word, balance⟩ := inductionHypothesis
      obtain ⟨reaching, accesses, same, committed⟩ := reached.keepsSlot keeps
      have onFork := reaching.onFork writes.step.1
      obtain ⟨net, nextWarm, nextWord, nextCommitted⟩ := writes.net onFork forked
      have committed := (committed writes.step.1).trans earlier
      have free : before.surcharge tx.env.block.fork account key = 0 :=
        if_neg fun cold => cold.2 (accesses.slot _ _ (warm cold.1))
      refine ⟨reaching.step writes.step, nextCommitted.trans committed, nextWarm, ?_, ?_⟩
      · rw [nextWord, List.getLast?_concat]
      · rw [same, free] at net
        unfold TxExecContext.potential at net balance ⊢
        rw [committed] at net
        rw [nextWord, List.length_append, List.length_singleton, Nat.cast_add,
          Int.add_mul]
        omega

/-- The gas charged for a sequence of writes to a slot, less the change of the refund
counter by them, is the price of as many accesses, the surcharge when the slot had not
been accessed, and the difference of the potentials of the last word and of the one that
was there before. -/
theorem net_metering_is_path_independent
    (forked : tx.env.block.fork ≥ .istanbul) (reaches : tx.Reaches start)
    (run : StoreRun account key start vals gas change last) :
    ∃ word, vals.getLast? = some word ∧
      gas - change = vals.length * (storeCosts tx.env.block.fork).access +
        start.surcharge tx.env.block.fork account key +
          (start.potential tx.env.block.fork account key word -
            start.potential tx.env.block.fork account key
              (getState start.state account key)) := by
  have balanced := StoreRun.balanced forked reaches run
  exact ⟨_, balanced.word, balanced.net⟩

end Law
namespace Sample

/-- The transaction that clears the slot `0` of the account `0xaa` and sets it again, in a
block of London. -/
def londonTx : Transaction DummyStateStore :=
  { refundTx resettingCode with env := env .london }

end Sample

/-- A slot that is cleared and set back costs two accesses and the surcharge for the
first of them, although `5100` is charged and `2800` refunded. -/
theorem cleared_slot_is_set_back :
    letI := Sample.refundKeccak
    ∃ start last : TxExecContext DummyStateStore,
      Sample.londonTx.Reaches start ∧
        StoreRun 0xaa 0 start [0, 1] 5100 2800 last ∧
        (5100 - 2800 : Int) = [(0 : U256), 1].length * 100 + 2100 + (0 - 0) := by
  let := Sample.refundKeccak
  obtain ⟨start, reached, found⟩ := (Option.any_eq_true
    (fun start : TxExecContext DummyStateStore =>
      decide (Fetches start ⟨.sstore, none, 0⟩ ∧ start.curCall.callee = 0xaa ∧
        operand start 0 = 0 ∧ operand start 1 = 0 ∧ ¬start.SlotWarm 0xaa 0 ∧
        getState start.committedState 0xaa 0 = 1 ∧ getState start.state 0xaa 0 = 1) &&
      (stepOnce start).any fun middle : TxExecContext DummyStateStore =>
        decide (start.callStack.length ≤ middle.callStack.length ∧
          (start.frameGas : Int) - middle.frameGas = 5000 ∧
          start.refundChange middle = 4800 ∧ getState middle.state 0xaa 0 = 0) &&
        (runFor (fun context => decide (getState context.state 0xaa 0 = 0)) 2 middle).any
          fun before : TxExecContext DummyStateStore =>
            decide (Fetches before ⟨.sstore, none, 0⟩ ∧ before.curCall.callee = 0xaa ∧
              operand before 0 = 0 ∧ operand before 1 = 1) &&
            (stepOnce before).any fun last : TxExecContext DummyStateStore =>
              decide (before.callStack.length ≤ last.callStack.length ∧
                (before.frameGas : Int) - last.frameGas = 100 ∧
                before.refundChange last = -2000))
    (Sample.londonTx.after 2)).mp (by decide +kernel)
  simp only [Bool.and_eq_true, Option.any_eq_true, decide_eq_true_eq] at found
  obtain ⟨⟨fetches, callee, slot, word, cold, orig, cur⟩, middle, clears,
    ⟨goesOn, gas, refunds, cleared⟩, before, between, ⟨nextFetches, nextCallee, nextSlot,
    nextWord⟩, last, sets, nextGoesOn, nextGas, nextRefunds⟩ := found
  have reaches := Transaction.reaches_of_after reached
  have first : start.Writes 0xaa 0 0 middle :=
    ⟨stepOnce_eq_some.mp clears, ⟨_, fetches, rfl⟩, callee, slot, word, goesOn⟩
  have second : before.Writes 0xaa 0 1 last :=
    ⟨stepOnce_eq_some.mp sets, ⟨_, nextFetches, rfl⟩, nextCallee, nextSlot, nextWord,
      nextGoesOn⟩
  have keeps : Relation.ReflTransGen (KeepsSlot 0xaa 0) middle before := by
    refine Relation.ReflTransGen.mono ?_ _ _ (runFor_keeps cleared between)
    rintro first last ⟨step, was, is⟩
    exact ⟨step, is.trans was.symm⟩
  have run := (StoreRun.first first).next keeps second
  rw [gas, refunds, nextGas, nextRefunds] at run
  refine ⟨start, last, reaches, run, ?_⟩
  obtain ⟨final, written, net⟩ := net_metering_is_path_independent (by decide) reaches run
  have last : final = 1 := (Option.some.inj written).symm
  have access : (storeCosts Sample.londonTx.env.block.fork).access = 100 := by decide
  have surcharge : start.surcharge Sample.londonTx.env.block.fork 0xaa 0 = 2100 :=
    if_pos ⟨by decide, cold⟩
  have potential (val : U256) (same : val = 1) :
      start.potential Sample.londonTx.env.block.fork 0xaa 0 val = 0 := by
    unfold TxExecContext.potential StoreCosts.potential
    rw [orig, if_pos same]
  rw [access, surcharge, potential _ last, potential _ cur] at net
  exact net

end Qevm
