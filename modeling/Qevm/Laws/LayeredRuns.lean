import Qevm.Laws.ReadBack
import Qevm.Laws.Representation
import Qevm.Core.Run
import Qevm.Core.Transaction

/-!
# Transactions over layered states

A transaction over layered revisions does what it does over the flat store that the
revisions are built upon.  The layers and the flat store part where the layers are not
transparent: an account whose storage has been written is created again, a state is written
or shared after accounts have been deleted, or a record is logged that does not have the
length of a hash.  An audited flat store watches for these events; as long as it sees none,
the two runs agree in status, reads and logs.
-/

namespace Qevm

open WorldState Overlay
open AccountField (Value)

/-! ## Slots that hold nothing -/

/-- A delta records no word but zero in a slot. -/
def StateDelta.ClearSlot (self : StateDelta) (account : Addr) (key : Hash) : Prop :=
  ((self.layer account).recorded (.slot key)).getD (0 : U256) = (0 : U256)

/-- Neither the revisions of a chain nor the source below hold a word in a slot. -/
def MemStateRev.ClearSlot (account : Addr) (key : Hash) : MemStateRev → Prop
  | .external source delta =>
      delta.ClearSlot account key ∧ source.getState account key = 0
  | .internal parent delta => delta.ClearSlot account key ∧ parent.ClearSlot account key

/-- The same below a revision. -/
def StateSource.ClearSlot (account : Addr) (key : Hash) : StateSource → Prop
  | .external source => source.getState account key = 0
  | .internal parent => parent.ClearSlot account key

namespace MemStateRev

variable {account : Addr} {key : Hash}

theorem clearSlot_ofParent {parent : StateSource} {delta : StateDelta} :
    (ofParent parent delta).ClearSlot account key ↔
      delta.ClearSlot account key ∧ parent.ClearSlot account key := by
  cases parent <;> rfl

theorem clearSlot_iff {self : MemStateRev} :
    self.ClearSlot account key ↔
      self.delta.ClearSlot account key ∧ self.parent.ClearSlot account key := by
  cases self <;> rfl

/-- Nothing is found in a clear slot below a revision. -/
theorem slotBelow_eq_zero {self : MemStateRev} (clear : self.ClearSlot account key) :
    self.slotBelow account key = 0 := by
  have walk {rev : MemStateRev} (clear : rev.ClearSlot account key) :
      rev.revWalk
        (fun delta => (delta.accounts.lookup account).bind fun acc => acc.state.lookup key)
        (fun source => source.getState account key) = 0 := by
    induction rev with
    | external source delta =>
        obtain ⟨own, below⟩ := clear
        rw [StateDelta.ClearSlot, StateDelta.layer_recorded] at own
        rw [revWalk, below]
        exact own
    | internal parent delta inductionHypothesis =>
        obtain ⟨own, below⟩ := clear
        rw [StateDelta.ClearSlot, StateDelta.layer_recorded] at own
        rw [revWalk, inductionHypothesis below]
        exact own
  cases self with
  | external source delta => exact clear.2
  | internal parent delta => exact walk clear.2

theorem clearSlot_fromShared {shared : MemStateRev} (clear : shared.ClearSlot account key) :
    (fromShared shared).ClearSlot account key :=
  ⟨rfl, clear⟩

/-- A slot that is not written stays clear. -/
theorem clearSlot_modifyAccount
    {self : MemStateRev} {contract : Addr} {change : AccountStateDelta → AccountStateDelta}
    {field : AccountField} {val : Value field}
    (sets : ∀ acc, (change acc).recorded = Function.update acc.recorded field (some val))
    (other : account = contract → AccountField.slot key ≠ field)
    (clear : self.ClearSlot account key) :
    (self.update fun delta => delta.modifyAccount contract change).ClearSlot account key := by
  obtain ⟨own, below⟩ := clearSlot_iff.mp clear
  refine clearSlot_ofParent.mpr ⟨?_, below⟩
  unfold StateDelta.ClearSlot at own ⊢
  rw [StateDelta.layer_modifyAccount]
  by_cases same : account = contract
  · rw [if_pos same, Layer.recorded, Option.bind_some, sets,
      Function.update_of_ne (other same)]
    rw [StateDelta.layer_recorded, same] at own
    cases found : self.delta.accounts.lookup contract with
    | none => rw [Option.getD_none, recorded_default]; rfl
    | some acc =>
        rw [found] at own
        exact own
  · rw [if_neg same]
    exact own

theorem clearSlot_createAccount [Keccak256] {self : MemStateRev} (addr : Addr)
    (clear : self.ClearSlot account key) :
    (self.createAccount addr).ClearSlot account key := by
  have parent : (self.createAccount addr).parent = self.parent := by cases self <;> rfl
  obtain ⟨own, below⟩ := clearSlot_iff.mp clear
  refine clearSlot_iff.mpr ⟨?_, by rw [parent]; exact below⟩
  unfold StateDelta.ClearSlot at own ⊢
  rw [layer_createAccount]
  by_cases same : account = addr
  · rw [if_pos same]
    rfl
  · rw [if_neg same]
    exact own

/-- A created account leaves the chain unmarked, with the same log. -/
theorem createAccount_keeps [Keccak256] {self : MemStateRev} (unmarked : self.Unmarked)
    (addr : Addr) :
    (self.createAccount addr).Unmarked ∧
      (self.createAccount addr).chainLogs = self.chainLogs := by
  have same := ofParent_parent_delta self
  constructor
  · rw [← same, unmarked_ofParent_iff] at unmarked
    refine unmarked_ofParent_iff.mpr ⟨fun account marked => ?_, unmarked.2⟩
    exact unmarked.1 account (HashSet.mem_remove.mp marked).2
  · conv_rhs => rw [← same, chainLogs_ofParent]
    exact chainLogs_ofParent

/-- A deleted account is gone, and no other one changes. -/
theorem reads_deleteAccount [Keccak256] (self : MemStateRev) (addr : Addr) :
    (self.deleteAccount addr).reads = Function.update self.reads addr deletedReads := by
  have parent : (self.deleteAccount addr).parent = self.parent := by cases self <;> rfl
  have delta : (self.deleteAccount addr).delta = { self.delta with
      deletedAccounts := self.delta.deletedAccounts.insert addr
      accounts := self.delta.accounts.erase addr } := by cases self <;> rfl
  funext account
  rw [← ofParent_parent_delta (self.deleteAccount addr), reads_ofParent, parent, delta]
  by_cases same : account = addr
  · subst same
    rw [Function.update_self]
    exact if_pos (by simp [marked, StateDelta.layer])
  · rw [Function.update_of_ne same]
    conv_rhs => rw [← ofParent_parent_delta self, reads_ofParent]
    congr 1
    unfold StateDelta.layer
    simp [same]

/-- What is read of an account that has just been created. -/
def createdReads [Keccak256] (balance : Wei) : Reads Value where
  value
    | .slot _ => 0
    | .balance => balance
    | .nonce => 0
    | .code => emptyCode
  exist := true

/-- An account all of whose slots are clear starts blank. -/
theorem reads_createAccount_clear [Keccak256] {self : MemStateRev} {addr : Addr}
    (clear : ∀ key, self.ClearSlot addr key) :
    (self.createAccount addr).reads =
      Function.update self.reads addr (createdReads (self.getBalance addr)) := by
  funext account
  rw [reads_createAccount]
  by_cases same : account = addr
  · subst same
    rw [if_pos rfl, Function.update_self]
    refine congrArg (Reads.mk · true) ?_
    funext field
    cases field with
    | slot key =>
        exact (self.slotBelow_eq account key).symm.trans (slotBelow_eq_zero (clear key))
    | balance => rfl
    | nonce => rfl
    | code => rfl
  · rw [if_neg same, Function.update_of_ne same]

end MemStateRev

namespace DummyStateStore

variable [Keccak256]

theorem reads_deleteAccount (self : DummyStateStore) (addr : Addr) :
    (self.deleteAccount addr).reader.reads =
      Function.update self.reader.reads addr deletedReads := by
  funext account
  rw [reads_eq, deleteAccount, HashMap.lookup_erase_eq_ite]
  by_cases same : account = addr
  · subst same
    rw [if_pos rfl, Function.update_self]
    rfl
  · rw [if_neg same, Function.update_of_ne same, reads_eq]

theorem lookup_createAccount (self : DummyStateStore) (addr account : Addr) :
    (self.createAccount addr).accounts.lookup account =
      if account = addr then
        some { DummyAccountState.default with balance := self.reader.getBalance addr }
      else self.accounts.lookup account := by
  unfold createAccount
  by_cases poor : self.reader.getBalance addr = 0
  · simp only [poor, ne_eq, not_true_eq_false, if_false, HashMap.lookup_insert_eq_ite]
    rfl
  · simp only [poor, ne_eq, not_false_eq_true, if_true]
    by_cases same : account = addr
    · subst same
      rw [if_pos rfl, HashMap.lookup_modify, AList.lookup_insert, Option.getD_some]
    · rw [if_neg same, HashMap.lookup_modify_ne same, AList.lookup_insert_ne same]

theorem reads_createAccount (self : DummyStateStore) (addr : Addr) :
    (self.createAccount addr).reader.reads =
      Function.update self.reader.reads addr
        (MemStateRev.createdReads (self.reader.getBalance addr)) := by
  funext account
  rw [reads_eq, lookup_createAccount]
  by_cases same : account = addr
  · subst same
    rw [if_pos rfl, Function.update_self, Option.elim_some]
    refine congrArg (Reads.mk · true) ?_
    funext field
    cases field <;> rfl
  · rw [if_neg same, Function.update_of_ne same, reads_eq]

/-- A slot of an account has an entry. -/
def Holds (self : DummyStateStore) (account : Addr) (key : Hash) : Prop :=
  (self.account account).state.lookup key ≠ none

end DummyStateStore

/-! ## The audited store -/

/-- What an audit has seen. -/
inductive Audit
  /-- No account has been deleted yet. -/
  | live
  /-- Accounts have been deleted, and nothing has been written since. -/
  | cleaned
  /-- The layers and the flat store may have parted. -/
  | faulty
  deriving DecidableEq

/-- A state is written or shared. -/
def Audit.write : Audit → Audit
  | live => live
  | cleaned | faulty => faulty

/-- A flat store with its log and an audit of what is done to it. -/
structure AuditedStore where
  store : DummyStateStore
  /-- The log records, the oldest one first. -/
  logs : List LogItem
  audit : Audit

namespace AuditedStore

variable [Keccak256]

instance : WorldState AuditedStore where
  reader self := self.store.reader
  setState self contract key val :=
    { self with store := self.store.setState contract key val, audit := self.audit.write }
  setBalance self contract balance :=
    { self with store := self.store.setBalance contract balance, audit := self.audit.write }
  setCode self contract code :=
    { self with store := self.store.setCode contract code, audit := self.audit.write }
  setNonce self contract nonce :=
    { self with store := self.store.setNonce contract nonce, audit := self.audit.write }
  createAccount self addr :=
    { self with
      store := self.store.createAccount addr
      audit := if (self.store.account addr).state.entries = [] then self.audit.write
        else .faulty }
  deleteAccount self addr :=
    { self with
      store := self.store.deleteAccount addr
      audit := if self.audit = .faulty then .faulty else .cleaned }
  addLog self contract topics data blockNumber :=
    some { self with
      logs := self.logs ++ [⟨contract, topics, U256.fromBigEndian data, blockNumber⟩]
      audit := if data.length = 32 then self.audit.write else .faulty }
  snapshot self :=
    let shared := { self with audit := self.audit.write }
    (shared, shared)
  rollback self state :=
    { state with audit := if self.audit = .faulty then .faulty else state.audit }

/-- The audit has seen nothing that makes the layers differ. -/
def Clean (self : AuditedStore) : Prop := self.audit ≠ .faulty

/-- A revision answers as a store, holds its log, and its slots without an entry in the
store are clear. -/
structure Live (audited : AuditedStore) (rev : MemStateRev) : Prop where
  unmarked : rev.Unmarked
  reads : rev.reads = audited.store.reader.reads
  logs : rev.chainLogs = audited.logs
  clear : ∀ account key, ¬audited.store.Holds account key → rev.ClearSlot account key

/-- A state that is being written answers as a store and holds its log. -/
def Cleaned (self : AuditedStore) (auto : MemStateAuto) : Prop :=
  ∃ state, auto = .mutable state ∧ state.rev.reads = self.store.reader.reads ∧
    state.rev.chainLogs = self.logs

/-- How a state stands to an audited store. -/
def Agrees (self : AuditedStore) (auto : MemStateAuto) : Prop :=
  match self.audit with
  | .live => self.Live auto.convertRef
  | .cleaned => self.Cleaned auto
  | .faulty => True

namespace Live

variable {self : AuditedStore} {auto : MemStateAuto} {rev : MemStateRev}

/-- The revision that is written answers as the one that is read. -/
theorem convertMut (live : self.Live auto.convertRef) : self.Live auto.convertMut := by
  obtain ⟨unmarked, reads, logs⟩ := MemStateAuto.converts live.unmarked
  refine ⟨unmarked, reads.trans live.reads, logs.trans live.logs, fun account key free => ?_⟩
  have clear := live.clear account key free
  cases auto with
  | const state => exact MemStateRev.clearSlot_fromShared clear
  | mutable state => exact clear

/-- A field is written to both. -/
theorem modifyAccount (live : self.Live rev) (contract : Addr) (field : AccountField)
    (val : Value field) {change : AccountStateDelta → AccountStateDelta}
    {changeStore : DummyAccountState → DummyAccountState} {audit : Audit}
    (sets : ∀ acc, (change acc).recorded = Function.update acc.recorded field (some val))
    (setsStore : ∀ acc, (changeStore acc).value = Function.update acc.value field val)
    (free : ∀ acc key, (changeStore acc).state.lookup key = none →
      acc.state.lookup key = none ∧ AccountField.slot key ≠ field) :
    Live { self with store := self.store.modifyAccount contract changeStore, audit := audit }
      (rev.update fun delta => delta.modifyAccount contract change) := by
  obtain ⟨unmarked, logs⟩ := MemStateRev.modifyAccount_keeps live.unmarked contract change
  refine ⟨unmarked, ?_, logs.trans live.logs, fun account key absent => ?_⟩
  · have reads := MemStateRev.reads_modifyAccount rev.parent (live.unmarked.own contract) sets
    rw [MemStateRev.ofParent_parent_delta, live.reads] at reads
    exact reads.trans (self.store.reads_modifyAccount contract field val setsStore).symm
  · rw [DummyStateStore.Holds, not_not, DummyStateStore.account_modifyAccount] at absent
    by_cases same : account = contract
    · subst same
      rw [Function.update_self] at absent
      obtain ⟨before, other⟩ := free _ _ absent
      exact MemStateRev.clearSlot_modifyAccount sets (fun _ => other)
        (live.clear account key (not_not.mpr before))
    · rw [Function.update_of_ne same] at absent
      exact MemStateRev.clearSlot_modifyAccount sets (fun here => absurd here same)
        (live.clear account key (not_not.mpr absent))

/-- An account without entries in its storage is created in both. -/
theorem createAccount (live : self.Live rev) {addr : Addr} {audit : Audit}
    (empty : (self.store.account addr).state.entries = []) :
    Live { self with store := self.store.createAccount addr, audit := audit }
      (rev.createAccount addr) := by
  have free (key : Hash) : ¬self.store.Holds addr key := by
    have blank : (self.store.account addr).state = ∅ := AList.ext empty
    rw [DummyStateStore.Holds, not_not, blank]
    exact AList.lookup_empty key
  obtain ⟨unmarked, logs⟩ := MemStateRev.createAccount_keeps live.unmarked addr
  refine ⟨unmarked, ?_, logs.trans live.logs, fun account key absent => ?_⟩
  · rw [MemStateRev.reads_createAccount_clear fun key => live.clear addr key (free key),
      DummyStateStore.reads_createAccount, live.reads]
    have balance : rev.getBalance addr = self.store.reader.getBalance addr :=
      congrArg (fun reads => reads.value .balance) (congrFun live.reads addr)
    rw [balance]
  · refine MemStateRev.clearSlot_createAccount addr (live.clear account key ?_)
    rw [DummyStateStore.Holds, not_not, DummyStateStore.account_createAccount] at absent
    by_cases same : account = addr
    · subst same
      exact free key
    · rw [Function.update_of_ne same] at absent
      exact not_not.mpr absent

/-- A record is logged by both. -/
theorem addLog (live : self.Live rev) {contract : Addr} {topics : List Hash}
    {data : Bytes} {blockNumber : U256} {audit : Audit} {after : MemStateRev}
    (added : rev.addLog contract topics data blockNumber = some after) :
    Live { self with
      logs := self.logs ++ [⟨contract, topics, U256.fromBigEndian data, blockNumber⟩]
      audit := audit } after := by
  obtain ⟨unmarked, reads, logs⟩ := MemStateRev.addLog_keeps live.unmarked added
  refine ⟨unmarked, reads.trans live.reads, ?_, fun account key absent => ?_⟩
  · rw [logs, live.logs]
  · obtain ⟨own, below⟩ := MemStateRev.clearSlot_iff.mp (live.clear account key absent)
    obtain ⟨-, rfl⟩ := MemStateRev.addLog_eq_some.mp added
    exact MemStateRev.clearSlot_ofParent.mpr ⟨own, below⟩

end Live

/-- Accounts are deleted from both. -/
theorem cleaned_deleteAccount {self : AuditedStore} {rev : MemStateRev} (addr : Addr)
    {audit : Audit} (reads : rev.reads = self.store.reader.reads)
    (logs : rev.chainLogs = self.logs) :
    Cleaned { self with store := self.store.deleteAccount addr, audit := audit }
      (.mutable ⟨rev.deleteAccount addr⟩) := by
  refine ⟨⟨rev.deleteAccount addr⟩, rfl, ?_, ?_⟩
  · rw [MemStateRev.reads_deleteAccount, DummyStateStore.reads_deleteAccount, reads]
  · have kept : (rev.deleteAccount addr).chainLogs = rev.chainLogs := by
      conv_rhs => rw [← MemStateRev.ofParent_parent_delta rev,
        MemStateRev.chainLogs_ofParent]
      exact MemStateRev.chainLogs_ofParent
    exact kept.trans logs

/-! ## The simulation -/

variable {self : AuditedStore} {auto : MemStateAuto}

/-- A write that agrees on live states and leaves all others faulty. -/
theorem write_agrees {changed : AuditedStore} {auto after : MemStateAuto}
    (audit : changed.audit = self.audit.write) (agrees : self.Agrees auto)
    (live : self.Live auto.convertMut → changed.Live after.convertRef) :
    (changed.Clean → self.Clean) ∧ changed.Agrees after := by
  unfold Clean
  unfold Agrees at agrees ⊢
  rw [audit]
  cases seen : self.audit with
  | live =>
      rw [seen] at agrees
      exact ⟨fun _ => by simp, live agrees.convertMut⟩
  | cleaned => exact ⟨fun _ => by simp, trivial⟩
  | faulty => exact ⟨fun clean => clean, trivial⟩

/-- The reads of a revision are those of a source that answers alike. -/
theorem reader_eq {source : WorldStateR}
    (reads : auto.convertRef.reads = source.reads) : WorldState.reader auto = source := by
  have value (account : Addr) (field : AccountField) :=
    congrArg (fun reads => reads.value field) (congrFun reads account)
  have same : WorldState.reader auto = (⟨auto.convertRef.getState, auto.convertRef.getBalance,
    auto.convertRef.getCode, auto.convertRef.getNonce, auto.convertRef.exist⟩ : WorldStateR) :=
    rfl
  rw [same]
  obtain ⟨getState, getBalance, getCode, getNonce, exist⟩ := source
  congr 1
  · funext account key
    exact value account (.slot key)
  · funext account
    exact value account .balance
  · funext account
    exact value account .code
  · funext account
    exact value account .nonce
  · funext account
    exact congrArg Reads.exist (congrFun reads account)

theorem invalid_agrees {self : AuditedStore} (faulty : ¬self.Clean) (auto : MemStateAuto) :
    self.Agrees auto := by
  unfold Agrees
  rw [not_not.mp faulty]
  trivial

theorem reader_agrees (agrees : self.Agrees auto) (clean : self.Clean) :
    WorldState.reader self = WorldState.reader auto := by
  refine (reader_eq ?_).symm
  unfold Agrees at agrees
  cases seen : self.audit with
  | live =>
      rw [seen] at agrees
      exact agrees.reads
  | cleaned =>
      rw [seen] at agrees
      obtain ⟨state, rfl, reads, -⟩ := agrees
      exact reads
  | faulty => exact absurd seen clean

theorem createAccount_agrees (agrees : self.Agrees auto) (addr : Addr) :
    ((WorldState.createAccount self addr).Clean → self.Clean) ∧
      (WorldState.createAccount self addr).Agrees (WorldState.createAccount auto addr) := by
  by_cases empty : (self.store.account addr).state.entries = []
  · refine write_agrees ?_ agrees fun live => live.createAccount empty
    exact if_pos empty
  · have faulty : ¬(WorldState.createAccount self addr).Clean :=
      not_not.mpr (if_neg empty)
    exact ⟨fun clean => absurd clean faulty, invalid_agrees faulty _⟩

theorem deleteAccount_agrees (agrees : self.Agrees auto) (addr : Addr) :
    ((WorldState.deleteAccount self addr).Clean → self.Clean) ∧
      (WorldState.deleteAccount self addr).Agrees (WorldState.deleteAccount auto addr) := by
  by_cases seen : self.audit = .faulty
  · have faulty : ¬(WorldState.deleteAccount self addr).Clean :=
      not_not.mpr (if_pos seen)
    exact ⟨fun clean => absurd clean faulty, invalid_agrees faulty _⟩
  · refine ⟨fun _ => seen, ?_⟩
    have audit : (WorldState.deleteAccount self addr).audit = .cleaned := if_neg seen
    have before : auto.convertMut.reads = self.store.reader.reads ∧
        auto.convertMut.chainLogs = self.logs := by
      unfold Agrees at agrees
      cases audited : self.audit with
      | live =>
          rw [audited] at agrees
          exact ⟨agrees.convertMut.reads, agrees.convertMut.logs⟩
      | cleaned =>
          rw [audited] at agrees
          obtain ⟨state, rfl, reads, logs⟩ := agrees
          exact ⟨reads, logs⟩
      | faulty => exact absurd audited seen
    unfold Agrees
    rw [audit]
    exact cleaned_deleteAccount addr before.1 before.2

theorem addLog_agrees (agrees : self.Agrees auto) {contract : Addr} {topics : List Hash}
    {data : Bytes} {blockNumber : U256} {after : AuditedStore}
    (added : WorldState.addLog self contract topics data blockNumber = some after)
    (clean : after.Clean) :
    self.Clean ∧ ∃ matched,
      WorldState.addLog auto contract topics data blockNumber = some matched ∧
        after.Agrees matched := by
  obtain rfl := Option.some.inj added
  have long : data.length = 32 := by
    by_contra short
    exact clean (if_neg short)
  have audit : (if data.length = 32 then self.audit.write else .faulty) = self.audit.write :=
    if_pos long
  obtain ⟨rev, logged⟩ : ∃ rev,
      auto.convertMut.addLog contract topics data blockNumber = some rev :=
    ⟨_, MemStateRev.addLog_eq_some.mpr ⟨long, rfl⟩⟩
  obtain ⟨keeps, both⟩ : (_ → self.Clean) ∧ Agrees _ (.mutable ⟨rev⟩) :=
    write_agrees audit agrees fun live => live.addLog logged
  exact ⟨keeps clean, .mutable ⟨rev⟩, congrArg (Option.map _) logged, both⟩

theorem snapshot_agrees (agrees : self.Agrees auto) :
    ((WorldState.snapshot self).1.Clean → self.Clean) ∧
      (WorldState.snapshot self).1.Agrees (WorldState.snapshot auto).1 ∧
      (WorldState.snapshot self).2.Agrees (WorldState.snapshot auto).2 := by
  have shared : (WorldState.snapshot auto).1 = (WorldState.snapshot auto).2 ∧
      (WorldState.snapshot auto).1.convertRef = auto.convertRef := by
    cases auto <;> exact ⟨rfl, rfl⟩
  have left : ((WorldState.snapshot self).1.Clean → self.Clean) ∧
      (WorldState.snapshot self).1.Agrees (WorldState.snapshot auto).1 := by
    have shares : (WorldState.snapshot self).1 = { self with audit := self.audit.write } :=
      rfl
    rw [shares]
    unfold Clean
    unfold Agrees at agrees ⊢
    cases seen : self.audit with
    | live =>
        rw [seen] at agrees
        refine ⟨fun _ => by simp, ?_⟩
        have kept : self.Live (WorldState.snapshot auto).1.convertRef := by
          rw [shared.2]
          exact agrees
        exact ⟨kept.unmarked, kept.reads, kept.logs, kept.clear⟩
    | cleaned => exact ⟨fun _ => by simp, trivial⟩
    | faulty => exact ⟨fun clean => clean, trivial⟩
  refine ⟨left.1, left.2, ?_⟩
  rw [← shared.1]
  exact left.2

theorem rollback_agrees (self : AuditedStore) (auto : MemStateAuto) {saved : AuditedStore}
    {savedAuto : MemStateAuto} (savedAgrees : saved.Agrees savedAuto) :
    ((WorldState.rollback self saved).Clean → self.Clean) ∧
      (WorldState.rollback self saved).Agrees (WorldState.rollback auto savedAuto) := by
  by_cases seen : self.audit = .faulty
  · have faulty : ¬(WorldState.rollback self saved).Clean := not_not.mpr (if_pos seen)
    exact ⟨fun clean => absurd clean faulty, invalid_agrees faulty _⟩
  · refine ⟨fun _ => seen, ?_⟩
    have same : WorldState.rollback self saved = saved := by
      change ({ saved with audit := _ } : AuditedStore) = saved
      rw [if_neg seen]
    rw [same]
    exact savedAgrees

/-- The layered state simulates the audited store as long as the audit is clean. -/
theorem simulation : Simulation Clean Agrees where
  invalid := invalid_agrees
  reader := reader_agrees
  setState agrees contract key val :=
    write_agrees rfl agrees fun live => live.modifyAccount contract (.slot key) val
      (fun acc => MemStateAuto.recorded_setState acc key val)
      (fun acc => DummyStateStore.value_setState acc key val) fun acc slot absent => by
        rw [HashMap.lookup_insert_eq_ite] at absent
        by_cases same : slot = key
        · simp [same] at absent
        · exact ⟨by simpa [same] using absent, by simpa using same⟩
  setBalance agrees contract balance :=
    write_agrees rfl agrees fun live => live.modifyAccount contract .balance balance
      (fun _ => by funext field; cases field <;> rfl)
      (fun _ => by funext field; cases field <;> rfl)
      fun _ _ absent => ⟨absent, by simp⟩
  setCode agrees contract code :=
    write_agrees rfl agrees fun live => live.modifyAccount contract .code
      (PlainCode.new code).toCode
      (fun _ => by funext field; cases field <;> rfl)
      (fun _ => by funext field; cases field <;> rfl)
      fun _ _ absent => ⟨absent, by simp⟩
  setNonce agrees contract nonce :=
    write_agrees rfl agrees fun live => live.modifyAccount contract .nonce nonce
      (fun _ => by funext field; cases field <;> rfl)
      (fun _ => by funext field; cases field <;> rfl)
      fun _ _ absent => ⟨absent, by simp⟩
  createAccount := createAccount_agrees
  deleteAccount := deleteAccount_agrees
  addLog_some agrees _ _ _ _ _ := addLog_agrees agrees
  addLog_none _ _ _ _ _ missing := nomatch missing
  snapshot := snapshot_agrees
  rollback _ _ _ savedAgrees := rollback_agrees _ _ savedAgrees

/-- The audited store is the flat store with something to look at. -/
instance store_homomorphism : Homomorphism (fun _ => True) AuditedStore.store where
  reader_image _ _ := rfl
  setState _ _ _ := .total fun _ => rfl
  setBalance _ _ := .total fun _ => rfl
  setCode _ _ := .total fun _ => rfl
  setNonce _ _ := .total fun _ => rfl
  createAccount _ := .total fun _ => rfl
  deleteAccount _ := .total fun _ => rfl
  addLog_some added _ := ⟨trivial, by cases added; rfl⟩
  addLog_none missing := nomatch missing
  snapshot_left _ _ := trivial
  snapshot_image _ := rfl
  rollback _ := .total fun _ => rfl

/-- A revision without changes upon a flat store agrees with it. -/
theorem agrees_new (store : DummyStateStore) :
    (⟨store, [], .live⟩ : AuditedStore).Agrees (MemStateAuto.new store.reader) := by
  refine ⟨?_, ?_, rfl, fun account key free => ⟨rfl, ?_⟩⟩
  · intro delta member account
    rw [List.mem_singleton.mp member]
    exact HashSet.not_mem_empty account
  · funext account
    change (MemStateRev.new store.reader).reads account = _
    rw [MemStateRev.reads_eq]
    ext1
    · funext field
      cases field <;> rfl
    · rfl
  · rw [DummyStateStore.Holds, not_not] at free
    have word := store.getState_eq account key
    rw [free] at word
    exact word

end AuditedStore

/-! ## Transactions -/

/-- A transaction leaves the state of the start of the block alone. -/
theorem Transaction.Reaches.committedState {S : Type} [WorldState S] [Keccak256]
    {tx : Transaction S} {reached : TxExecContext S} (reaches : tx.Reaches reached) :
    reached.committedState = tx.committedState := by
  obtain ⟨entered, enters, steps⟩ := reaches
  have start : entered.committedState = tx.committedState := by
    obtain ⟨initial, context, pushed | settled | failed⟩ := enters.cases
    all_goals obtain ⟨accessList, rfl⟩ := context_eq_some context
    · obtain ⟨_, _, _, _, _, _, _, working, effected, rfl⟩ := pushed
      have stays : TxExecContext.Stays _ working := Procedure.Moves.ok effected
      exact stays.committedState
    · obtain ⟨args, ret, err, working, effected, run⟩ := settled
      have stays : TxExecContext.Stays _ working := Procedure.Moves.ok effected
      have leaves : working.Leaves entered := Procedure.Moves.ok run
      exact leaves.committedState.trans stays.committedState
    · obtain ⟨err, working, raised, rfl⟩ := failed
      have stays : TxExecContext.Stays _ working := Procedure.Moves.error raised
      exact stays.committedState
  induction steps with
  | refl => exact start
  | @tail before after earlier step inductionHypothesis =>
      have reached : tx.Reaches before := ⟨entered, enters, earlier⟩
      refine Eq.trans ?_ inductionHypothesis
      obtain inside | ⟨args, data, err, ending, bottom, finishes⟩ :=
        step.inTransaction (reached.inTransaction step)
      · exact (step.lasts inside.suspended).committedState
      · obtain ⟨inst, settled, -, run, rfl⟩ := finishes.settled
        have leaves : TxExecContext.Leaves _ settled := Procedure.Moves.ok run
        exact (TxExecContext.remains_advanced settled inst).committedState.trans
          (leaves.committedState.trans finishes.ends.lasts.committedState)

namespace Transaction

/-- A transaction over the flat store, with an audit of its states. -/
def audited (tx : Transaction DummyStateStore) : Transaction AuditedStore :=
  tx.over ⟨tx.state, [], .live⟩ ⟨tx.committedState, [], .live⟩

/-- The same transaction over revisions upon its states. -/
def layered [Keccak256] (tx : Transaction DummyStateStore) : Transaction MemStateAuto :=
  tx.over (MemStateAuto.new tx.state.reader) (MemStateAuto.new tx.committedState.reader)

end Transaction

/-- The runs of a transaction over the flat store are those over the audited store.  As long
as the audit is clean, the transaction over revisions upon the flat store runs along: it
has the same status and refund, every read is answered alike, and its chain of revisions
holds the log. -/
theorem layered_transaction_runs_along [Keccak256] (tx : Transaction DummyStateStore) :
    (∀ flat, tx.Reaches flat ↔
      ∃ reached, tx.audited.Reaches reached ∧ reached.map AuditedStore.store = flat) ∧
    ∀ reached, tx.audited.Reaches reached → reached.state.Clean →
      ∃ matched, tx.layered.Reaches matched ∧
        matched.status = reached.status ∧ matched.refund = reached.refund ∧
        WorldState.reader matched.state = reached.state.store.reader ∧
        matched.state.convertRef.chainLogs = reached.state.logs := by
  have original : tx = tx.audited.map AuditedStore.store := rfl
  refine ⟨fun flat => ⟨fun reaches => ?_, ?_⟩, fun reached reaches clean => ?_⟩
  · rw [original] at reaches
    exact reaches.of_map
  · rintro ⟨reached, reaches, rfl⟩
    have all : reached.Valid fun _ => True := ⟨trivial, trivial⟩
    have repeated : (tx.audited.map AuditedStore.store).Reaches
        (reached.map AuditedStore.store) := reaches.map all
    exact repeated
  · have committed : reached.committedState.Clean := by
      rw [reaches.committedState]
      exact Audit.noConfusion
    obtain ⟨matched, run, alike⟩ := reaches.over AuditedStore.simulation
      (AuditedStore.agrees_new tx.state) (AuditedStore.agrees_new tx.committedState)
      ⟨clean, committed⟩
    have agrees := alike.state
    refine ⟨matched, run, alike.status, ?_, (AuditedStore.reader_agrees agrees clean).symm, ?_⟩
    · obtain ⟨pair, rfl, rfl⟩ := alike
      rfl
    · unfold AuditedStore.Agrees at agrees
      cases seen : reached.state.audit with
      | live =>
          rw [seen] at agrees
          exact agrees.logs
      | cleaned =>
          rw [seen] at agrees
          obtain ⟨state, same, -, logs⟩ := agrees
          rw [same]
          exact logs
      | faulty => exact absurd seen clean

/-- A transaction that writes and logs finishes over the layers, with its word and its
record. -/
theorem note_is_kept_in_layers :
    letI := Sample.noteKeccak
    ∃ matched, Sample.noteTx.layered.Reaches matched ∧ matched.status.leftGas.isSome ∧
      getState matched.state 0xaa 0 = 1 ∧
      matched.state.convertRef.chainLogs = [⟨0xaa, [], 0, 1⟩] := by
  let := Sample.noteKeccak
  obtain ⟨reached, run, finished, clean, word, log⟩ := Sample.noteTx.audited.exists_reached 7
    (fun reached => reached.status.leftGas.isSome ∧ reached.state.audit ≠ .faulty ∧
      getState reached.state 0xaa 0 = 1 ∧ reached.state.logs = [⟨0xaa, [], 0, 1⟩])
    (by decide +kernel)
  obtain ⟨matched, runs, status, -, reads, logs⟩ :=
    (layered_transaction_runs_along Sample.noteTx).2 reached run clean
  refine ⟨matched, runs, by rw [status]; exact finished, ?_, logs.trans log⟩
  have same := congrArg (fun reader => reader.getState 0xaa 0) reads
  exact same.trans word

end Qevm
