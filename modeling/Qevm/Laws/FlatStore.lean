import Qevm.State.Dummy
import Qevm.State.Unmarked

/-!
# Revisions answer as the flat store

A tree of states grows by snapshots, rollbacks, consolidations and writes.  Every
state of the tree answers as a flat store that is driven by the same operations,
and its revisions hold the log records of its path.
-/

namespace Qevm

open Overlay (Reads)
open AccountField (Value)

/-! ## Writes -/

/-- The writes of a world state that delete and create no account. -/
inductive StateWrite
  | setState (contract : Addr) (key : Hash) (val : U256)
  | setBalance (contract : Addr) (balance : Wei)
  | setNonce (contract : Addr) (nonce : UInt64)
  | setCode (contract : Addr) (code : Bytes)
  | addLog (contract : Addr) (topics : List Hash) (data : Bytes) (blockNumber : U256)

namespace StateWrite

/-- Write to a state. -/
def apply {S : Type} [WorldState S] (self : StateWrite) (state : S) : Option S :=
  match self with
  | setState contract key val => some (WorldState.setState state contract key val)
  | setBalance contract balance => some (WorldState.setBalance state contract balance)
  | setNonce contract nonce => some (WorldState.setNonce state contract nonce)
  | setCode contract code => some (WorldState.setCode state contract code)
  | addLog contract topics data blockNumber =>
      WorldState.addLog state contract topics data blockNumber

/-- The log records of a write. -/
def records : StateWrite → List LogItem
  | addLog contract topics data blockNumber =>
      [⟨contract, topics, U256.fromBigEndian data, blockNumber⟩]
  | _ => []

variable [Keccak256]

/-- What a write does to what is read. -/
def on (reads : Addr → Reads Value) : StateWrite → Addr → Reads Value
  | setState contract key val => written reads contract (.slot key) val
  | setBalance contract balance => written reads contract .balance balance
  | setNonce contract nonce => written reads contract .nonce nonce
  | setCode contract code => written reads contract .code (PlainCode.new code).toCode
  | addLog _ _ _ _ => reads

end StateWrite

namespace MemStateAuto

variable [Keccak256]

/-- The revision that a write changes answers as the one that is read. -/
structure Converts (state : MemStateAuto) : Prop where
  unmarked : state.convertMut.Unmarked
  reads : state.convertMut.reads = state.convertRef.reads
  logs : state.convertMut.chainLogs = state.convertRef.chainLogs

theorem converts {state : MemStateAuto} (unmarked : state.convertRef.Unmarked) :
    state.Converts := by
  have logs := MemStateRev.chainLogs_convertMut state
  cases state with
  | const state =>
      exact ⟨MemStateRev.unmarked_fromShared unmarked,
        MemStateRev.reads_fromShared_unmarked unmarked, logs⟩
  | mutable state => exact ⟨unmarked, rfl, logs⟩

/-- A state after a write. -/
structure Wrote (op : StateWrite) (before after : MemStateAuto) : Prop where
  unmarked : after.convertRef.Unmarked
  reads : after.convertRef.reads = op.on before.convertRef.reads
  logs : after.convertRef.chainLogs = before.convertRef.chainLogs ++ op.records

/-- A write of a field. -/
theorem wrote_modifyAccount
    {state : MemStateAuto} (unmarked : state.convertRef.Unmarked) (op : StateWrite)
    (contract : Addr) (field : AccountField) (val : Value field)
    {change : AccountStateDelta → AccountStateDelta}
    (sets : ∀ acc, (change acc).recorded = Function.update acc.recorded field (some val))
    (does : op.on state.convertRef.reads =
      written state.convertRef.reads contract field val)
    (silent : op.records = []) :
    Wrote op state
      (state.write fun rev => rev.update fun delta => delta.modifyAccount contract change) := by
  have mutable := converts unmarked
  obtain ⟨kept, logs⟩ :=
    MemStateRev.modifyAccount_keeps mutable.unmarked contract change
  refine ⟨kept, ?_, ?_⟩
  · have reads := MemStateRev.reads_modifyAccount state.convertMut.parent
      (mutable.unmarked.own contract) sets
    rw [MemStateRev.ofParent_parent_delta, mutable.reads] at reads
    exact reads.trans does.symm
  · rw [silent, List.append_nil]
    exact logs.trans mutable.logs

omit [Keccak256] in
theorem recorded_setState (acc : AccountStateDelta) (key : Hash) (val : U256) :
    ({ acc with state := acc.state.insert key val } : AccountStateDelta).recorded =
      Function.update acc.recorded (.slot key) (some val) := by
  funext field
  by_cases same : field = .slot key
  · subst same
    rw [Function.update_self]
    exact AList.lookup_insert acc.state
  · rw [Function.update_of_ne same]
    cases field with
    | slot other =>
        refine AList.lookup_insert_ne fun equal => same ?_
        rw [equal]
    | balance => rfl
    | nonce => rfl
    | code => rfl

/-- A write to the automatic state does what the write does. -/
theorem wrote_of_apply
    {state after : MemStateAuto} {op : StateWrite} (run : op.apply state = some after)
    (unmarked : state.convertRef.Unmarked) : Wrote op state after := by
  cases op with
  | setState contract key val =>
      cases run
      exact wrote_modifyAccount unmarked _ contract (.slot key) val
        (fun acc => recorded_setState acc key val) rfl rfl
  | setBalance contract balance =>
      cases run
      refine wrote_modifyAccount unmarked _ contract .balance balance (fun acc => ?_) rfl rfl
      funext field
      cases field <;> rfl
  | setNonce contract nonce =>
      cases run
      refine wrote_modifyAccount unmarked _ contract .nonce nonce (fun acc => ?_) rfl rfl
      funext field
      cases field <;> rfl
  | setCode contract code =>
      cases run
      refine wrote_modifyAccount unmarked _ contract .code (PlainCode.new code).toCode
        (fun acc => ?_) rfl rfl
      funext field
      cases field <;> rfl
  | addLog contract topics data blockNumber =>
      have mutable := converts unmarked
      obtain ⟨rev, added, rfl⟩ := Option.map_eq_some_iff.mp run
      obtain ⟨kept, reads, logs⟩ := MemStateRev.addLog_keeps mutable.unmarked added
      exact ⟨kept, reads.trans mutable.reads, logs.trans (congrArg (· ++ _) mutable.logs)⟩

end MemStateAuto

/-! ## The flat store -/

/-- What is read of an account of the flat store. -/
def DummyAccountState.value (self : DummyAccountState) : ∀ field, Value field
  | .slot key => (self.state.lookup key).getD 0
  | .balance => self.balance
  | .nonce => self.nonce
  | .code => self.code

namespace DummyStateStore

variable [Keccak256]

theorem reads_eq (self : DummyStateStore) (account : Addr) :
    self.reader.reads account =
      (self.accounts.lookup account).elim deletedReads fun acc => ⟨acc.value, true⟩ := by
  ext1
  · funext field
    cases field <;>
      simp only [WorldStateR.reads, reader] <;>
      cases self.accounts.lookup account <;> rfl
  · simp only [WorldStateR.reads, reader]
    cases self.accounts.lookup account <;> rfl

theorem value_default : DummyAccountState.default.value = deletedReads.value := by
  funext field
  cases field <;> rfl

/-- Writing a field of the flat store is seen. -/
theorem reads_modifyAccount
    (self : DummyStateStore) (contract : Addr) (field : AccountField) (val : Value field)
    {change : DummyAccountState → DummyAccountState}
    (sets : ∀ acc, (change acc).value = Function.update acc.value field val) :
    (self.modifyAccount contract change).reader.reads =
      written self.reader.reads contract field val := by
  funext account
  rw [reads_eq]
  unfold written modifyAccount
  by_cases same : account = contract
  · subst same
    rw [Function.update_self, HashMap.lookup_modify, Option.elim_some, sets, reads_eq]
    cases self.accounts.lookup account with
    | none => rw [Option.getD_none, value_default]; rfl
    | some acc => rfl
  · rw [Function.update_of_ne same, HashMap.lookup_modify_ne same, reads_eq]

omit [Keccak256] in
theorem value_setState (acc : DummyAccountState) (key : Hash) (val : U256) :
    ({ acc with state := acc.state.insert key val } : DummyAccountState).value =
      Function.update acc.value (.slot key) val := by
  funext field
  by_cases same : field = .slot key
  · subst same
    rw [Function.update_self]
    exact congrArg (Option.getD · 0) (AList.lookup_insert acc.state)
  · rw [Function.update_of_ne same]
    cases field with
    | slot other =>
        refine congrArg (Option.getD · 0) (AList.lookup_insert_ne fun equal => same ?_)
        rw [equal]
    | balance => rfl
    | nonce => rfl
    | code => rfl

/-- A write to the flat store does what the write does. -/
theorem reads_of_apply
    {self after : DummyStateStore} {op : StateWrite} (run : op.apply self = some after) :
    after.reader.reads = op.on self.reader.reads := by
  cases op with
  | setState contract key val =>
      cases run
      exact reads_modifyAccount self contract (.slot key) val
        fun acc => value_setState acc key val
  | setBalance contract balance =>
      cases run
      refine reads_modifyAccount self contract .balance balance fun acc => ?_
      funext field
      cases field <;> rfl
  | setNonce contract nonce =>
      cases run
      refine reads_modifyAccount self contract .nonce nonce fun acc => ?_
      funext field
      cases field <;> rfl
  | setCode contract code =>
      cases run
      refine reads_modifyAccount self contract .code (PlainCode.new code).toCode fun acc => ?_
      funext field
      cases field <;> rfl
  | addLog contract topics data blockNumber =>
      cases run
      rfl

end DummyStateStore

/-! ## The tree of states -/

/-- A state of the tree, the flat store that is driven by the same operations, and
the log records that have been added on the path. -/
structure Node where
  auto : MemStateAuto
  store : DummyStateStore
  logs : List LogItem

/-- The operations that grow the tree. -/
inductive TreeAction
  /-- Add a snapshot of a state. -/
  | snapshot (node : Nat)
  /-- Replace a state by another one, which is used up. -/
  | rollback (node state : Nat)
  /-- Add the consolidated shared revision of a state. -/
  | consolidate (node : Nat) (maxBackSteps : Option Nat)
  /-- Write to a state. -/
  | write (node : Nat) (op : StateWrite)

section Tree

variable [Keccak256]

namespace Node

/-- The tree grows from here. -/
def root : Node := ⟨MemStateAuto.new emptyState, DummyStateStore.new, []⟩

/-- The node left behind by a snapshot, and the snapshot. -/
def snapshot (self : Node) : Node × Node :=
  let autos := WorldState.snapshot self.auto
  let stores := WorldState.snapshot self.store
  (⟨autos.1, stores.1, self.logs⟩, ⟨autos.2, stores.2, self.logs⟩)

/-- The node after going back to another state. -/
def rollback (self state : Node) : Node :=
  ⟨WorldState.rollback self.auto state.auto, WorldState.rollback self.store state.store,
    state.logs⟩

/-- The node left behind by sharing it, and the consolidated one. -/
def consolidate (self : Node) (maxBackSteps : Option Nat) : Node × Node :=
  let shared := self.auto.toShared
  (⟨shared.1, self.store, self.logs⟩,
    ⟨.const (shared.2.consolidate maxBackSteps), self.store, self.logs⟩)

/-- The node after a write. -/
def write (self : Node) (op : StateWrite) : Option Node := do
  let auto ← op.apply self.auto
  let store ← op.apply self.store
  some ⟨auto, store, self.logs ++ op.records⟩

/-- The state answers as the flat store, and its revisions hold the log. -/
structure Agrees (node : Node) : Prop where
  unmarked : node.auto.convertRef.Unmarked
  reads : node.auto.convertRef.reads = node.store.reader.reads
  logs : node.auto.convertRef.chainLogs = node.logs

end Node

/-- One operation on the states of the tree. -/
def TreeAction.on (nodes : List Node) : TreeAction → Option (List Node)
  | snapshot node => do
      let found ← nodes[node]?
      some (nodes.set node found.snapshot.1 ++ [found.snapshot.2])
  | rollback node state => do
      let found ← nodes[node]?
      let other ← nodes[state]?
      if node = state then none
      else some ((nodes.set node (found.rollback other)).eraseIdx state)
  | consolidate node maxBackSteps => do
      let found ← nodes[node]?
      let shared := found.consolidate maxBackSteps
      some (nodes.set node shared.1 ++ [shared.2])
  | write node op => do
      let found ← nodes[node]?
      let after ← found.write op
      some (nodes.set node after)

namespace Node.Agrees

variable {node other : Node}

theorem root : Node.root.Agrees where
  unmarked delta member account := by
    rw [List.mem_singleton.mp member]
    exact HashSet.not_mem_empty account
  reads := by
    funext account
    change (MemStateRev.new emptyState).reads account = _
    rw [DummyStateStore.reads_eq, MemStateRev.reads_eq]
    ext1
    · funext field
      cases field <;> rfl
    · rfl
  logs := rfl

/-- Sharing a state changes nothing that is read. -/
theorem shared (agrees : node.Agrees) :
    (Node.mk node.auto.toShared.1 node.store node.logs).Agrees ∧
      (Node.mk (.const node.auto.toShared.2) node.store node.logs).Agrees := by
  obtain ⟨auto, store, logs⟩ := node
  cases auto with
  | const state => exact ⟨agrees, agrees⟩
  | mutable state =>
      have kept : (Node.mk (.const state.toShared) store logs).Agrees :=
        ⟨agrees.unmarked, agrees.reads, agrees.logs⟩
      exact ⟨kept, kept⟩

theorem consolidate (agrees : node.Agrees) (maxBackSteps : Option Nat) :
    (node.consolidate maxBackSteps).1.Agrees ∧ (node.consolidate maxBackSteps).2.Agrees := by
  obtain ⟨left, taken⟩ := agrees.shared
  obtain ⟨unmarked, reads, logs⟩ :=
    MemStateShared.consolidate_keeps taken.unmarked maxBackSteps
  exact ⟨left, unmarked, reads.trans taken.reads, logs.trans taken.logs⟩

theorem write {op : StateWrite} (agrees : node.Agrees) (run : node.write op = some other) :
    other.Agrees := by
  unfold Node.write at run
  simp only [Option.bind_eq_bind, Option.bind_eq_some_iff] at run
  obtain ⟨auto, autoRun, store, storeRun, same⟩ := run
  cases same
  have wrote := MemStateAuto.wrote_of_apply autoRun agrees.unmarked
  refine ⟨wrote.unmarked, ?_, ?_⟩
  · rw [wrote.reads, agrees.reads]
    exact (DummyStateStore.reads_of_apply storeRun).symm
  · rw [wrote.logs, agrees.logs]

end Node.Agrees

/-- One operation keeps the agreement of every state. -/
theorem TreeAction.agrees
    {nodes nodes' : List Node} {action : TreeAction} (run : action.on nodes = some nodes')
    (agree : ∀ node ∈ nodes, node.Agrees) : ∀ node ∈ nodes', node.Agrees := by
  have replaced {index : Nat} {left : Node} (kept : left.Agrees) :
      ∀ node ∈ nodes.set index left, node.Agrees := by
    intro node member
    rcases List.mem_or_eq_of_mem_set member with old | rfl
    · exact agree node old
    · exact kept
  have added {index : Nat} {left new : Node} (kept : left.Agrees) (taken : new.Agrees) :
      ∀ node ∈ nodes.set index left ++ [new], node.Agrees := by
    intro node member
    rcases List.mem_append.mp member with old | last
    · exact replaced kept node old
    · rw [List.mem_singleton.mp last]
      exact taken
  cases action with
  | snapshot index =>
      obtain ⟨found, there, same⟩ := Option.bind_eq_some_iff.mp run
      cases same
      have both := (agree found (List.mem_of_getElem? there)).shared
      exact added both.1 both.2
  | rollback index state =>
      obtain ⟨found, there, run⟩ := Option.bind_eq_some_iff.mp run
      obtain ⟨other, taken, run⟩ := Option.bind_eq_some_iff.mp run
      split at run
      · cases run
      · cases run
        intro node member
        exact replaced (agree other (List.mem_of_getElem? taken)) node
          (List.mem_of_mem_eraseIdx member)
  | consolidate index maxBackSteps =>
      obtain ⟨found, there, same⟩ := Option.bind_eq_some_iff.mp run
      cases same
      have both := (agree found (List.mem_of_getElem? there)).consolidate maxBackSteps
      exact added both.1 both.2
  | write index op =>
      obtain ⟨found, there, run⟩ := Option.bind_eq_some_iff.mp run
      obtain ⟨after, wrote, same⟩ := Option.bind_eq_some_iff.mp run
      cases same
      exact replaced ((agree found (List.mem_of_getElem? there)).write wrote)

/-- The operations one after the other. -/
def TreeAction.onAll (nodes : List Node) (actions : List TreeAction) :
    Option (List Node) :=
  actions.foldlM TreeAction.on nodes

/-- The trees that grow from the empty state. -/
inductive Grown : List Node → Prop
  | root : Grown [Node.root]
  | step {nodes nodes' : List Node} {action : TreeAction} :
      Grown nodes → action.on nodes = some nodes' → Grown nodes'

theorem Grown.agree {nodes : List Node} (grown : Grown nodes) :
    ∀ node ∈ nodes, node.Agrees := by
  induction grown with
  | root =>
      intro node member
      rw [List.mem_singleton.mp member]
      exact Node.Agrees.root
  | step _ run inductionHypothesis => exact TreeAction.agrees run inductionHypothesis

/-- A state answers as the flat store, and its consolidated delta holds the log
records of its path. -/
structure Node.SameAnswers (node : Node) : Prop where
  state : ∀ contract key, WorldState.getState node.auto contract key =
    WorldState.getState node.store contract key
  balance : ∀ account, WorldState.getBalance node.auto account =
    WorldState.getBalance node.store account
  nonce : ∀ contract, WorldState.getNonce node.auto contract =
    WorldState.getNonce node.store contract
  code : ∀ contract, (WorldState.getCode node.auto contract).asBytes =
    (WorldState.getCode node.store contract).asBytes
  exist : ∀ contract, WorldState.exist node.auto contract =
    WorldState.exist node.store contract
  logs : ∃ delta,
    (node.auto.toShared.2.consolidate none).rev.consolidatedDelta = some delta ∧
      delta.logs = node.logs

/-- Every state of every tree answers as the flat store. -/
theorem every_state_answers_as_the_flat_store
    {nodes : List Node} (grown : Grown nodes) {node : Node} (member : node ∈ nodes) :
    node.SameAnswers := by
  have agrees := grown.agree node member
  have value (account : Addr) (field : AccountField) :
      (node.auto.convertRef.reads account).value field =
        (node.store.reader.reads account).value field := by
    rw [agrees.reads]
  constructor
  · exact fun contract key => value contract (.slot key)
  · exact fun account => value account .balance
  · exact fun contract => value contract .nonce
  · exact fun contract => congrArg Code.asBytes (value contract .code)
  · intro contract
    exact congrArg Overlay.Reads.exist (congrFun agrees.reads contract)
  · have taken := agrees.shared.2
    obtain ⟨delta, found, logs⟩ := node.auto.toShared.2.consolidatedDelta_logs
    exact ⟨delta, found, logs.trans taken.logs⟩

theorem grown_of_run
    {actions : List TreeAction} {nodes nodes' : List Node} (grown : Grown nodes)
    (run : TreeAction.onAll nodes actions = some nodes') :
    Grown nodes' := by
  induction actions generalizing nodes with
  | nil =>
      cases run
      exact grown
  | cons action actions inductionHypothesis =>
      rw [TreeAction.onAll, List.foldlM_cons] at run
      obtain ⟨between, first, rest⟩ := Option.bind_eq_some_iff.mp run
      exact inductionHypothesis (.step grown first) rest

end Tree

namespace Sample

/-- The digests of the codes in the tree. -/
@[reducible] def treeKeccak : Keccak256 where
  digest _ := 0xc5d2460186f7233c927e7db2dcc703c0e500b653ca82273b7bfad8045d85a470

/-- A record, a snapshot that is written and rolled back to, and a squashed chain. -/
def treeActions : List TreeAction :=
  [.write 0 (.setBalance 1 5), .write 0 (.addLog 1 [] (List.replicate 32 7) 3),
    .snapshot 0, .write 1 (.setState 1 2 9), .snapshot 1, .write 2 (.setNonce 2 1),
    .write 2 (.addLog 2 [4] (List.replicate 32 0) 5), .rollback 1 2,
    .write 1 (.setState 1 2 0), .consolidate 1 (some 1), .consolidate 2 none]

end Sample

/-- The states of a tree of four answer as their flat stores. -/
theorem sample_tree_answers :
    letI := Sample.treeKeccak
    ∃ nodes, TreeAction.onAll [Node.root] Sample.treeActions = some nodes ∧
      nodes.length = 4 ∧ ∀ node ∈ nodes, node.SameAnswers := by
  let := Sample.treeKeccak
  have ends : (TreeAction.onAll [Node.root] Sample.treeActions).map List.length =
      some 4 := by
    decide +kernel
  obtain ⟨nodes, run, length⟩ := Option.map_eq_some_iff.mp ends
  have grown := grown_of_run Grown.root run
  exact ⟨nodes, run, length, fun node member =>
    every_state_answers_as_the_flat_store grown member⟩

end Qevm
