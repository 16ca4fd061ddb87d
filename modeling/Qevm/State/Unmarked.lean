import Qevm.State.Auto
import Qevm.State.Layers

/-!
# Chains without deletion marks

A chain whose revisions mark no account as deleted answers through all its
revisions.  A write is seen where it was made, and consolidation changes nothing
that is read and keeps the log.
-/

namespace Qevm

open Overlay
open AccountField (Value)

/-- What is read after a field of an account has been written. -/
def written
    (reads : Addr → Reads Value) (contract : Addr) (field : AccountField)
    (val : Value field) : Addr → Reads Value :=
  Function.update reads contract
    ⟨Function.update (reads contract).value field val, true⟩

/-! ## Writes to a revision -/

theorem StateDelta.layer_modifyAccount
    (self : StateDelta) (contract account : Addr)
    (change : AccountStateDelta → AccountStateDelta) :
    (self.modifyAccount contract change).layer account =
      if account = contract then
        ⟨some (change ((self.accounts.lookup contract).getD
          AccountStateDelta.default)).recorded, contract ∈ self.deletedAccounts⟩
      else self.layer account := by
  unfold modifyAccount layer
  by_cases same : account = contract
  · subst same
    rw [if_pos rfl, HashMap.lookup_modify]
    rfl
  · rw [if_neg same, HashMap.lookup_modify_ne same]

theorem recorded_default (field : AccountField) :
    AccountStateDelta.default.recorded field = none := by
  cases field <;> rfl

namespace MemStateRev

/-- No revision of the chain marks an account as deleted. -/
def Unmarked (self : MemStateRev) : Prop :=
  ∀ delta ∈ self.deltas, ∀ account, account ∉ delta.deletedAccounts

/-- The log records along the chain, the oldest one first. -/
def chainLogs : MemStateRev → List LogItem
  | external _ delta => delta.logs
  | internal parent delta => parent.chainLogs ++ delta.logs

end MemStateRev

/-- The log records below a revision. -/
def StateSource.logs : StateSource → List LogItem
  | .external _ => []
  | .internal rev => rev.chainLogs

namespace MemStateRev

variable {parent : StateSource} {delta : StateDelta}

theorem ofParent_parent_delta (self : MemStateRev) :
    ofParent self.parent self.delta = self := by
  cases self <;> rfl

/-- What holds of the newest delta and of the ones below holds of the chain. -/
theorem unmarked_ofParent_iff :
    (ofParent parent delta).Unmarked ↔
      (∀ account, account ∉ delta.deletedAccounts) ∧
        ∀ rev, parent = .internal rev → rev.Unmarked := by
  unfold Unmarked
  rw [deltas_ofParent]
  cases parent with
  | external source => simp
  | internal rev => simp

theorem Unmarked.own {self : MemStateRev} (unmarked : self.Unmarked) :
    ∀ account, account ∉ self.delta.deletedAccounts := by
  rw [← ofParent_parent_delta self] at unmarked
  exact (unmarked_ofParent_iff.mp unmarked).1

theorem chainLogs_ofParent :
    (ofParent parent delta).chainLogs = parent.logs ++ delta.logs := by
  cases parent <;> rfl

/-- A write of a field keeps the marks and the log. -/
theorem modifyAccount_keeps
    {self : MemStateRev} (unmarked : self.Unmarked) (contract : Addr)
    (change : AccountStateDelta → AccountStateDelta) :
    let changed := self.update fun delta => delta.modifyAccount contract change
    changed.Unmarked ∧ changed.chainLogs = self.chainLogs := by
  have same := ofParent_parent_delta self
  constructor
  · rw [← same, unmarked_ofParent_iff] at unmarked
    exact unmarked_ofParent_iff.mpr unmarked
  · conv_rhs => rw [← same, chainLogs_ofParent]
    exact chainLogs_ofParent

theorem unmarked_fromShared
    {shared : MemStateRev} (unmarked : shared.Unmarked) :
    (fromShared shared).Unmarked := by
  show (ofParent (.internal shared) StateDelta.empty).Unmarked
  rw [unmarked_ofParent_iff]
  refine ⟨HashSet.not_mem_empty, ?_⟩
  intro rev same
  cases same
  exact unmarked

theorem chainLogs_fromShared (shared : MemStateRev) :
    (fromShared shared).chainLogs = shared.chainLogs :=
  List.append_nil _

/-- The log does not depend on whether the revision is read or written. -/
theorem chainLogs_convertMut (state : MemStateAuto) :
    state.convertMut.chainLogs = state.convertRef.chainLogs := by
  cases state with
  | const state => exact chainLogs_fromShared state.rev
  | mutable state => rfl

/-- A log record is added when its data has the length of a hash. -/
theorem addLog_eq_some
    {self rev : MemStateRev} {contract : Addr} {topics : List Hash} {data : Bytes}
    {blockNumber : U256} :
    self.addLog contract topics data blockNumber = some rev ↔
      data.length = 32 ∧ rev = self.update fun delta =>
        { delta with
          logs := delta.logs ++
            [⟨contract, topics, U256.fromBigEndian data, blockNumber⟩] } := by
  unfold addLog
  split
  · rename_i long
    rw [Option.some.injEq, and_iff_right long, eq_comm]
  · rename_i other
    exact iff_of_false nofun fun ⟨long, _⟩ => other long

/-- It is added at the end. -/
theorem chainLogs_addLog
    {self rev : MemStateRev} {contract : Addr} {topics : List Hash} {data : Bytes}
    {blockNumber : U256}
    (added : self.addLog contract topics data blockNumber = some rev) :
    rev.chainLogs = self.chainLogs ++
      [⟨contract, topics, U256.fromBigEndian data, blockNumber⟩] := by
  obtain ⟨-, rfl⟩ := addLog_eq_some.mp added
  conv_rhs =>
    rw [← ofParent_parent_delta self, chainLogs_ofParent, List.append_assoc]
  exact chainLogs_ofParent

section Reading

variable [Keccak256]

/-- The reads of an unmarked revision see everything below its own layer. -/
theorem reads_ofParent_unmarked
    {account : Addr} (unmarked : account ∉ delta.deletedAccounts) :
    (ofParent parent delta).reads account =
      below [delta.layer account] (parent.reads account) := by
  rw [reads_ofParent]
  exact top_unmarked _ _ (decide_eq_false unmarked)

/-- Writing a field of the newest delta is seen. -/
theorem reads_modifyAccount
    (parent : StateSource) {contract : Addr} (unmarked : contract ∉ delta.deletedAccounts)
    {change : AccountStateDelta → AccountStateDelta} {field : AccountField}
    {val : Value field}
    (sets : ∀ acc, (change acc).recorded = Function.update acc.recorded field (some val)) :
    (ofParent parent (delta.modifyAccount contract change)).reads =
      written (ofParent parent delta).reads contract field val := by
  funext account
  unfold written
  by_cases same : account = contract
  · subst same
    have kept : account ∉ (delta.modifyAccount account change).deletedAccounts := unmarked
    rw [reads_ofParent_unmarked kept, StateDelta.layer_modifyAccount, if_pos rfl,
      Function.update_self, reads_ofParent_unmarked unmarked]
    ext1
    · funext other
      simp only [below, recorded_cons, recorded_nil, Option.or_none,
        StateDelta.layer_recorded]
      rw [Layer.recorded, Option.bind_some, sets]
      by_cases here : other = field
      · subst here
        rw [Function.update_self, Function.update_self]
        rfl
      · rw [Function.update_of_ne here, Function.update_of_ne here]
        cases delta.accounts.lookup account with
        | none => rw [Option.getD_none, recorded_default]; rfl
        | some acc => rfl
    · rfl
  · rw [Function.update_of_ne same, reads_ofParent, reads_ofParent,
      StateDelta.layer_modifyAccount, if_neg same]

/-- An empty revision upon an unmarked one answers as it does. -/
theorem reads_fromShared_unmarked
    {shared : MemStateRev} (unmarked : shared.Unmarked) :
    (fromShared shared).reads = shared.reads := by
  funext account
  rw [reads_fromShared, top_empty, reads_eq, top_unmarked]
  rw [marked_layers]
  exact decide_eq_false (unmarked.own account)

/-- A log record keeps what is read. -/
theorem addLog_keeps
    {self rev : MemStateRev} (unmarked : self.Unmarked) {contract : Addr}
    {topics : List Hash} {data : Bytes} {blockNumber : U256}
    (added : self.addLog contract topics data blockNumber = some rev) :
    rev.Unmarked ∧ rev.reads = self.reads ∧ rev.chainLogs = self.chainLogs ++
      [⟨contract, topics, U256.fromBigEndian data, blockNumber⟩] := by
  refine ⟨?_, ?_, chainLogs_addLog added⟩
  all_goals
    obtain ⟨-, rfl⟩ := addLog_eq_some.mp added
    have same := ofParent_parent_delta self
  · rw [← same, unmarked_ofParent_iff] at unmarked
    exact unmarked_ofParent_iff.mpr unmarked
  · conv_rhs => rw [← same]
    funext account
    rw [update, reads_ofParent, reads_ofParent]
    rfl

end Reading

end MemStateRev

/-! ## Consolidation -/

namespace MemStateRev

/-- The records of some revisions, the newest revision first. -/
def logsOf (revs : List MemStateRev) : List LogItem :=
  revs.reverse.flatMap fun rev => rev.delta.logs

theorem logs_foldl_applyRev (revs : List MemStateRev) (merged : StateDelta) :
    (revs.foldl applyRev merged).logs =
      merged.logs ++ revs.flatMap fun rev => rev.delta.logs := by
  induction revs generalizing merged with
  | nil => exact (List.append_nil _).symm
  | cons rev revs inductionHypothesis =>
      rw [List.foldl_cons, inductionHypothesis, List.flatMap_cons, ← List.append_assoc]
      rfl

/-- The collected revisions and what they are built upon hold the records of the
chain. -/
theorem chainLogs_backSteps
    (maxBackSteps inc count : Nat) (self : MemStateRev) :
    let older := self.backSteps maxBackSteps inc count
    self.chainLogs = (older.getLastD self).parent.logs ++ logsOf (self :: older) := by
  induction self generalizing count with
  | external source delta =>
      exact (List.append_nil _).symm
  | internal parent delta inductionHypothesis =>
      simp only [backSteps]
      split_ifs with more
      · have rest := inductionHypothesis (count + inc)
        simp only at rest
        rw [chainLogs, rest, List.getLastD_cons, List.append_assoc]
        simp [logsOf, MemStateRev.delta]
      · simp [logsOf, chainLogs, StateSource.logs, MemStateRev.delta, MemStateRev.parent]

theorem chainLogs_consolidate (self : MemStateRev) (maxBackSteps : Option Nat) :
    (self.consolidate maxBackSteps).chainLogs = self.chainLogs := by
  obtain ⟨limit, inc, collected⟩ : ∃ limit inc,
      self.consolidatedRevs maxBackSteps = self :: self.backSteps limit inc 0 :=
    ⟨_, _, rfl⟩
  unfold consolidate
  rw [chainLogs_ofParent, logs_foldl_applyRev, lastParent, collected,
    List.getLastD_cons, chainLogs_backSteps limit inc 0 self]
  rfl

/-- The collected revisions of an unmarked chain are unmarked. -/
theorem unmarked_backSteps
    {self : MemStateRev} (unmarked : self.Unmarked) (maxBackSteps inc count : Nat) :
    ∀ rev ∈ self.backSteps maxBackSteps inc count, rev.Unmarked := by
  induction self generalizing count with
  | external source delta => exact fun rev member => nomatch member
  | internal parent delta inductionHypothesis =>
      have below : parent.Unmarked := fun delta member =>
        unmarked delta (List.mem_cons_of_mem _ member)
      intro rev member
      rw [backSteps] at member
      split_ifs at member
      · rcases List.mem_cons.mp member with rfl | older
        · exact below
        · exact inductionHypothesis below _ rev older
      · cases member

theorem unmarked_consolidatedRevs
    {self : MemStateRev} (unmarked : self.Unmarked) (maxBackSteps : Option Nat) :
    ∀ rev ∈ self.consolidatedRevs maxBackSteps, rev.Unmarked := by
  intro rev member
  rcases List.mem_cons.mp member with rfl | older
  · exact unmarked
  · exact unmarked_backSteps unmarked _ _ _ rev older

theorem squashed_clean
    {self : MemStateRev} (unmarked : self.Unmarked) (maxBackSteps : Option Nat)
    (account : Addr) : ∀ layer ∈ self.squashed maxBackSteps account,
      layer.deleted = false := by
  intro layer member
  obtain ⟨rev, collected, rfl⟩ := List.mem_map.mp member
  have clean := (unmarked_consolidatedRevs unmarked maxBackSteps rev collected).own
  exact decide_eq_false (clean account)

/-- A consolidated chain is unmarked when the chain is. -/
theorem unmarked_consolidate
    {self : MemStateRev} (unmarked : self.Unmarked) (maxBackSteps : Option Nat) :
    (self.consolidate maxBackSteps).Unmarked := by
  have revs := unmarked_consolidatedRevs unmarked maxBackSteps
  unfold consolidate
  rw [unmarked_ofParent_iff]
  constructor
  · intro account
    have layer := layer_foldl_applyRev (self.consolidatedRevs maxBackSteps) account
    have clean : (squash (self.squashed maxBackSteps account)).deleted = false := by
      rw [squash_unmarked (squashed_clean unmarked maxBackSteps account)]
      split <;> rfl
    exact of_decide_eq_false ((congrArg Layer.deleted layer).trans clean)
  · intro rev upon
    have last : (self.consolidatedRevs maxBackSteps).getLastD self ∈
        self :: self.consolidatedRevs maxBackSteps := List.getLastD_mem_cons
    have clean : ((self.consolidatedRevs maxBackSteps).getLastD self).Unmarked := by
      rcases List.mem_cons.mp last with same | member
      · rw [same]
        exact unmarked
      · exact revs _ member
    rw [← ofParent_parent_delta ((self.consolidatedRevs maxBackSteps).getLastD self),
      unmarked_ofParent_iff] at clean
    exact clean.2 rev upon

/-- Consolidating an unmarked chain changes no read. -/
theorem reads_consolidate_unmarked [Keccak256]
    {self : MemStateRev} (unmarked : self.Unmarked) (maxBackSteps : Option Nat) :
    (self.consolidate maxBackSteps).reads = self.reads := by
  funext account
  rw [reads_consolidate, reads_squashed self maxBackSteps]
  refine (top_squash_iff rfl (List.cons_ne_nil _ _) _).mpr ?_
  intro newer layer older split _ mark _
  have layers : self.squashed maxBackSteps account = newer ++ layer :: older := split
  have member : layer ∈ self.squashed maxBackSteps account := by
    rw [layers]
    exact List.mem_append_right _ List.mem_cons_self
  have clean := squashed_clean unmarked maxBackSteps account layer member
  rw [mark] at clean
  contradiction

/-- Without a limit everything down to the external source is collected. -/
theorem foundation_none (self : MemStateRev) :
    self.foundation none = .external self.source := by
  have all (self : MemStateRev) :
      ((self.backSteps 1 0 0).getLastD self).parent = .external self.source := by
    induction self with
    | external source delta => rfl
    | internal parent delta inductionHypothesis =>
        rw [backSteps, if_pos Nat.zero_lt_one, List.getLastD_cons]
        exact inductionHypothesis
  change ((self :: self.backSteps 1 0 0).getLastD self).parent = _
  rw [List.getLastD_cons]
  exact all self

/-- A chain that is consolidated without a limit is a delta upon the external
source. -/
theorem consolidate_none_eq (self : MemStateRev) :
    ∃ delta, self.consolidate none = .external self.source delta := by
  refine ⟨(self.consolidatedRevs none).reverse.foldl applyRev StateDelta.empty, ?_⟩
  change ofParent (self.foundation none) _ = _
  rw [foundation_none]
  rfl

end MemStateRev

namespace MemStateShared

/-- Consolidating a shared revision of an unmarked chain changes nothing that is
read, and keeps the log. -/
theorem consolidate_keeps [Keccak256]
    {self : MemStateShared} (unmarked : self.rev.Unmarked) (maxBackSteps : Option Nat) :
    (self.consolidate maxBackSteps).rev.Unmarked ∧
      (self.consolidate maxBackSteps).rev.reads = self.rev.reads ∧
      (self.consolidate maxBackSteps).rev.chainLogs = self.rev.chainLogs := by
  unfold consolidate
  cases self.rev.parent with
  | external source => exact ⟨unmarked, rfl, rfl⟩
  | internal parent =>
      exact ⟨MemStateRev.unmarked_consolidate unmarked maxBackSteps,
        MemStateRev.reads_consolidate_unmarked unmarked maxBackSteps,
        MemStateRev.chainLogs_consolidate self.rev maxBackSteps⟩

/-- The delta of a shared revision that is consolidated without a limit holds the
records of the chain. -/
theorem consolidatedDelta_logs (self : MemStateShared) :
    ∃ delta, (self.consolidate none).rev.consolidatedDelta = some delta ∧
      delta.logs = self.rev.chainLogs := by
  obtain ⟨rev⟩ := self
  cases rev with
  | external source delta => exact ⟨delta, rfl, rfl⟩
  | internal parent delta =>
      obtain ⟨own, squashed⟩ :=
        MemStateRev.consolidate_none_eq (.internal parent delta)
      have logs := MemStateRev.chainLogs_consolidate (.internal parent delta) none
      rw [squashed] at logs
      exact ⟨own, congrArg MemStateRev.consolidatedDelta squashed, logs⟩

end MemStateShared

end Qevm
