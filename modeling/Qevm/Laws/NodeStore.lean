import Qevm.Laws.AccountCodec
import Qevm.State.ReadWriteDB

/-!
# What the store of trie nodes is for

A table of nodes: a node that can be read keeps its data for ever, a new one can be read
after the next commit, and nothing else changes what is read.  The store refines that table
in every run, whether or not the process ends before it has committed.
-/

namespace Qevm

/-- The nodes that can be read, by their keys, and the other records. -/
structure NodeView where
  nodes : Bytes → Option Bytes
  records : Bytes → Option Bytes

namespace NodeView

def setNode (self : NodeView) (base value : Bytes) : NodeView :=
  ⟨Function.update self.nodes base (some value), self.records⟩

def setRecord (self : NodeView) (key value : Bytes) : NodeView :=
  ⟨self.nodes, Function.update self.records key (some value)⟩

@[simp] theorem nodes_setNode (self : NodeView) (base value other : Bytes) :
    (self.setNode base value).nodes other =
      if other = base then some value else self.nodes other :=
  Function.update_apply _ _ _ _

@[simp] theorem records_setNode (self : NodeView) (base value key : Bytes) :
    (self.setNode base value).records key = self.records key := rfl

@[simp] theorem nodes_setRecord (self : NodeView) (key value base : Bytes) :
    (self.setRecord key value).nodes base = self.nodes base := rfl

@[simp] theorem records_setRecord (self : NodeView) (key value other : Bytes) :
    (self.setRecord key value).records other =
      if other = key then some value else self.records other :=
  Function.update_apply _ _ _ _

end NodeView

/-- What can be read now, and what can be read after the next commit. -/
structure NodeTable where
  current : NodeView
  next : NodeView

namespace NodeTable

variable {η : Type} [NodeHasher η]

def empty : NodeTable := ⟨⟨fun _ => none, fun _ => none⟩, ⟨fun _ => none, fun _ => none⟩⟩

/-- Keep a node; one that is there already is not replaced. -/
def keep (self : NodeTable) (base value : Bytes) : NodeTable :=
  if (self.current.nodes base).isSome then self
  else ⟨self.current, self.next.setNode base value⟩

/-- Keep a node below a path.  The null node is never kept. -/
def emplace (self : NodeTable) (key : η) (path : NodePrefix) (value : Bytes) : NodeTable :=
  if value = [0] then self else self.keep (NodeHasher.key key path) value

def step (self : NodeTable) : ReadWriteDB.Op η → NodeTable
  | .emplace key path value => self.emplace key path value
  | .insert path value => self.emplace (NodeHasher.hash value) path value
  | .remove _ _ => self
  | .put key value => ⟨self.current, self.next.setRecord key value⟩
  | .commit => ⟨self.next, self.next⟩
  | .reopen => ⟨self.current, self.current⟩

def run (self : NodeTable) (ops : List (ReadWriteDB.Op η)) : NodeTable := ops.foldl step self

/-- The data of a node.  The null node is always there. -/
def get [DecidableEq η] (self : NodeTable) (key : η) (path : NodePrefix) : Option Bytes :=
  if key = NodeHasher.hash [0] then some [0] else self.current.nodes (NodeHasher.key key path)

end NodeTable

/-! ## Counts -/

namespace Counter

theorem decode_encode (self : Counter) : decode self.encode = some self := by
  have width : self.encode.length = 8 := AccountState.length_u64ToLeBytes _
  rw [decode, if_pos width.ge, List.take_of_length_le width.le, encode,
    AccountState.u64FromLeBytes_toLeBytes, Int64.toInt64_toUInt64]

/-- The counter at a number. -/
def ofNat (count : Nat) : Counter := ⟨Int64.ofNat count⟩

theorem ofNat_pos {count : Nat} (positive : 0 < count) (small : count < 2 ^ 63) :
    0 < (ofNat count).count := by
  rw [ofNat, Int64.lt_iff_toInt_lt, Int64.toInt_ofNat_of_lt small, Int64.toInt_zero]
  exact_mod_cast positive

theorem ofNat_succ (count : Nat) :
    Counter.mk ((ofNat count).count + 1) = ofNat (count + 1) := by
  rw [ofNat, ofNat, Int64.ofNat_add]
  rfl

end Counter

/-! ## Entries -/

namespace ReadWriteDB

variable (dbPrefix : Bytes)

/-- The key of the count of a node. -/
def countKey (base : Bytes) : Bytes := dbPrefix ++ base ++ cntSuffix

/-- The key of the data of a node. -/
def nodeKey (base : Bytes) : Bytes := dbPrefix ++ base ++ dataSuffix

variable {dbPrefix}

@[simp] theorem countKey_inj {base other : Bytes} :
    countKey dbPrefix base = countKey dbPrefix other ↔ base = other := by
  unfold countKey
  rw [List.append_left_inj, List.append_right_inj]

@[simp] theorem nodeKey_inj {base other : Bytes} :
    nodeKey dbPrefix base = nodeKey dbPrefix other ↔ base = other := by
  unfold nodeKey
  rw [List.append_left_inj, List.append_right_inj]

/-- The last byte tells counts and data apart. -/
@[simp] theorem countKey_ne_nodeKey (base other : Bytes) :
    countKey dbPrefix base ≠ nodeKey dbPrefix other := by
  intro same
  have last := (List.append_inj' same rfl).2
  exact absurd last (by decide)

theorem prefix_countKey (base : Bytes) : dbPrefix <+: countKey dbPrefix base := by
  unfold countKey
  rw [List.append_assoc]
  exact List.prefix_append _ _

theorem prefix_nodeKey (base : Bytes) : dbPrefix <+: nodeKey dbPrefix base := by
  unfold nodeKey
  rw [List.append_assoc]
  exact List.prefix_append _ _

/-- The entries of a database hold a view, with counts up to a bound. -/
structure Holds
    (dbPrefix : Bytes) (contents : Bytes → Option Bytes) (view : NodeView) (bound : Nat) :
    Prop where
  absent : ∀ {base}, view.nodes base = none → contents (countKey dbPrefix base) = none
  present : ∀ {base value}, view.nodes base = some value →
    contents (nodeKey dbPrefix base) = some value ∧
      ∃ count, 0 < count ∧ count ≤ bound ∧
        contents (countKey dbPrefix base) = some (Counter.ofNat count).encode
  record : ∀ {key}, ¬dbPrefix <+: key → contents key = view.records key

namespace Holds

variable {contents : Bytes → Option Bytes} {view : NodeView} {bound count : Nat}
  {base value : Bytes}

theorem mono
    (holds : Holds dbPrefix contents view bound) {larger : Nat} (more : bound ≤ larger) :
    Holds dbPrefix contents view larger where
  absent := holds.absent
  present found := by
    obtain ⟨data, count, positive, below, entry⟩ := holds.present found
    exact ⟨data, count, positive, Nat.le_trans below more, entry⟩
  record := holds.record

/-- The count of a node that is there is replaced. -/
theorem recount
    (holds : Holds dbPrefix contents view bound) (found : view.nodes base = some value)
    (positive : 0 < count) (below : count ≤ bound) :
    Holds dbPrefix
      (Function.update contents (countKey dbPrefix base)
        (some (Counter.ofNat count).encode)) view bound where
  absent {other} missing := by
    have different : other ≠ base := by
      rintro rfl
      rw [found] at missing
      contradiction
    rw [Function.update_of_ne (by simpa using different)]
    exact holds.absent missing
  present {other data} here := by
    obtain ⟨kept, old, oldPositive, oldBelow, entry⟩ := holds.present here
    rw [Function.update_of_ne (countKey_ne_nodeKey base other).symm]
    refine ⟨kept, ?_⟩
    by_cases same : other = base
    · subst same
      exact ⟨count, positive, below, Function.update_self _ _ _⟩
    · rw [Function.update_of_ne (by simpa using same)]
      exact ⟨old, oldPositive, oldBelow, entry⟩
  record {key} foreign := by
    rw [Function.update_of_ne, holds.record foreign]
    rintro rfl
    exact foreign (prefix_countKey base)

/-- The data of a node is written and its count replaced. -/
theorem write
    (holds : Holds dbPrefix contents view bound) (positive : 0 < count)
    (below : count ≤ bound) :
    Holds dbPrefix
      (Function.update
        (Function.update contents (countKey dbPrefix base)
          (some (Counter.ofNat count).encode))
        (nodeKey dbPrefix base) (some value))
      (view.setNode base value) bound where
  absent {other} missing := by
    have different : other ≠ base := by
      rintro rfl
      simp at missing
    rw [NodeView.nodes_setNode, if_neg different] at missing
    rw [Function.update_of_ne (countKey_ne_nodeKey other base),
      Function.update_of_ne (by simpa using different)]
    exact holds.absent missing
  present {other data} here := by
    rw [NodeView.nodes_setNode] at here
    rw [Function.update_of_ne (countKey_ne_nodeKey other base)]
    by_cases same : other = base
    · subst same
      rw [if_pos rfl] at here
      rw [Function.update_self, Function.update_self]
      exact ⟨here, count, positive, below, rfl⟩
    · rw [if_neg same] at here
      rw [Function.update_of_ne (by simpa using same),
        Function.update_of_ne (countKey_ne_nodeKey base other).symm,
        Function.update_of_ne (by simpa using same)]
      exact holds.present here
  record {key} foreign := by
    have notData : key ≠ nodeKey dbPrefix base := by
      rintro rfl
      exact foreign (prefix_nodeKey base)
    have notCount : key ≠ countKey dbPrefix base := by
      rintro rfl
      exact foreign (prefix_countKey base)
    rw [Function.update_of_ne notData, Function.update_of_ne notCount, holds.record foreign,
      NodeView.records_setNode]

/-- Another record is written. -/
theorem put
    (holds : Holds dbPrefix contents view bound) {key : Bytes} (foreign : ¬dbPrefix <+: key) :
    Holds dbPrefix (Function.update contents key (some value)) (view.setRecord key value)
      bound where
  absent {base} missing := by
    rw [Function.update_of_ne]
    · exact holds.absent missing
    · rintro rfl
      exact foreign (prefix_countKey base)
  present {base data} here := by
    have notData : nodeKey dbPrefix base ≠ key := by
      rintro rfl
      exact foreign (prefix_nodeKey base)
    have notCount : countKey dbPrefix base ≠ key := by
      rintro rfl
      exact foreign (prefix_countKey base)
    rw [Function.update_of_ne notData, Function.update_of_ne notCount]
    exact holds.present here
  record {other} apart := by
    rw [Function.update_apply, NodeView.records_setRecord, holds.record apart]

end Holds

/-! ## Stores and tables -/

section Stores

open TrieStore

variable {δ η : Type} [NodeHasher η] [Database δ Bytes Bytes]

/-- The database holds what can be read, and with the pending batch what can be read after
the next commit. -/
structure Refines
    (store : ReadWriteDB δ η) (table : NodeTable) (dbPrefix : Bytes) (bound : Nat) : Prop where
  space : store.dbPrefix = dbPrefix
  nullHash : store.nullNodeHash = NodeHasher.hash [0]
  nullData : store.nullNodeData = [0]
  current : Holds dbPrefix (Database.contents store.db) table.current bound
  next : Holds dbPrefix (inserted (Database.contents store.db) (store.wb.getD [])) table.next
    bound
  kept : ∀ {base value}, table.current.nodes base = some value →
    table.next.nodes base = some value

namespace Refines

variable {self after : ReadWriteDB δ η} {table : NodeTable} {bound : Nat} {key : η}
  {path : NodePrefix} {value : Bytes}

theorem countKey_eq (refines : Refines self table dbPrefix bound) :
    self.finalizeKey key path cntSuffix = countKey dbPrefix (NodeHasher.key key path) := by
  rw [finalizeKey, refines.space, countKey]

theorem nodeKey_eq (refines : Refines self table dbPrefix bound) :
    self.finalizeKey key path dataSuffix = nodeKey dbPrefix (NodeHasher.key key path) := by
  rw [finalizeKey, refines.space, nodeKey]

/-- More writes wait for the next commit. -/
theorem putAll
    (refines : Refines self table dbPrefix bound) {next : NodeView} {larger : Nat}
    {writes : List (Bytes × Bytes)} (more : bound ≤ larger)
    (holds : Holds dbPrefix
      (inserted (inserted (Database.contents self.db) (self.wb.getD [])) writes) next larger)
    (kept : ∀ {base value}, table.current.nodes base = some value →
      next.nodes base = some value) :
    Refines (self.putAll writes) ⟨table.current, next⟩ dbPrefix larger where
  space := refines.space
  nullHash := refines.nullHash
  nullData := refines.nullData
  current := refines.current.mono more
  next := by
    change Holds dbPrefix (inserted _ (self.wb.getD [] ++ writes)) next larger
    rw [inserted_append]
    exact holds
  kept := kept

/-- The count of a node that can be read is positive, and its data is there. -/
theorem counted
    (refines : Refines self table dbPrefix bound) {base : Bytes}
    (found : table.current.nodes base = some value) (small : bound < 2 ^ 63) :
    ∃ count, 0 < count ∧ count ≤ bound ∧
      Database.contents self.db (countKey dbPrefix base) =
        some (Counter.ofNat count).encode ∧
      0 < (Counter.ofNat count).count := by
  obtain ⟨-, count, positive, below, entry⟩ := refines.current.present found
  exact ⟨count, positive, below, entry,
    Counter.ofNat_pos positive (Nat.lt_of_le_of_lt below small)⟩

variable [LawfulDatabase δ]

/-- A read does not panic.  It finds what the table has, unless the database fails. -/
theorem get
    [DecidableEq η] (refines : Refines self table dbPrefix bound) (small : bound < 2 ^ 63) (key : η)
    (path : NodePrefix) :
    ∃ found, self.get key path = some found ∧
      (found = none ∨ found = table.get key path) ∧
      (Database.Answers self.db → found = table.get key path) := by
  unfold ReadWriteDB.get NodeTable.get
  rw [refines.nullHash, refines.nullData, refines.countKey_eq, refines.nodeKey_eq]
  by_cases null : key = NodeHasher.hash [0]
  · rw [if_pos null, if_pos null]
    exact ⟨some [0], rfl, .inr rfl, fun _ => rfl⟩
  · rw [if_neg null, if_neg null]
    cases read : Database.get self.db (countKey dbPrefix (NodeHasher.key key path)) with
    | none => exact ⟨none, rfl, .inl rfl, fun answers => absurd read (answers _)⟩
    | some entry =>
        have stored := LawfulDatabase.get_eq read
        cases found : table.current.nodes (NodeHasher.key key path) with
        | none =>
            rw [refines.current.absent found] at stored
            subst stored
            exact ⟨none, rfl, .inl rfl, fun _ => rfl⟩
        | some value =>
            obtain ⟨count, -, -, entryEq, positive⟩ := refines.counted found small
            have data := (refines.current.present found).1
            rw [entryEq] at stored
            subst stored
            simp only [Counter.decode_encode, Option.bind_eq_bind, Option.bind_some,
              if_pos positive]
            refine ⟨_, rfl, ?_, fun answers => ?_⟩
            · cases second :
                  Database.get self.db (nodeKey dbPrefix (NodeHasher.key key path)) with
              | none => exact .inl rfl
              | some node =>
                  rw [LawfulDatabase.get_eq second, data]
                  exact .inr rfl
            · rw [answers.get_eq, data]
              rfl

/-- Whether there is a node is what reading it says, unless the database fails. -/
theorem contains
    [DecidableEq η] (refines : Refines self table dbPrefix bound) (small : bound < 2 ^ 63) (key : η)
    (path : NodePrefix) :
    ∃ found, self.contains key path = some found ∧
      (found = true → (table.get key path).isSome) ∧
      (Database.Answers self.db → found = (table.get key path).isSome) := by
  unfold ReadWriteDB.contains NodeTable.get
  rw [refines.nullHash, refines.countKey_eq]
  by_cases null : key = NodeHasher.hash [0]
  · rw [if_pos null, if_pos null]
    exact ⟨true, rfl, fun _ => rfl, fun _ => rfl⟩
  · rw [if_neg null, if_neg null]
    cases read : Database.get self.db (countKey dbPrefix (NodeHasher.key key path)) with
    | none => exact ⟨false, rfl, nofun, fun answers => absurd read (answers _)⟩
    | some entry =>
        have stored := LawfulDatabase.get_eq read
        cases found : table.current.nodes (NodeHasher.key key path) with
        | none =>
            rw [refines.current.absent found] at stored
            subst stored
            exact ⟨false, rfl, nofun, fun _ => rfl⟩
        | some value =>
            obtain ⟨count, -, -, entryEq, positive⟩ := refines.counted found small
            rw [entryEq] at stored
            subst stored
            simp only [Counter.decode_encode, Option.map_some]
            exact ⟨true, by rw [decide_eq_true positive], fun _ => rfl, fun _ => rfl⟩

/-- Writing a node keeps it in the table. -/
theorem emplace
    (refines : Refines self table dbPrefix bound) (small : bound < 2 ^ 63)
    (run : self.emplace key path value = some after) :
    Refines after (table.emplace key path value) dbPrefix (bound + 1) := by
  have more : bound ≤ bound + 1 := Nat.le_succ bound
  unfold ReadWriteDB.emplace at run
  unfold NodeTable.emplace
  rw [refines.nullData] at run
  split at run
  · next null =>
      rw [if_pos null]
      obtain rfl := Option.some.inj run
      exact
        { refines with
          current := refines.current.mono more
          next := refines.next.mono more }
  · next real =>
      rw [if_neg real]
      simp only [refines.countKey_eq, refines.nodeKey_eq] at run
      cases read : Database.get self.db (countKey dbPrefix (NodeHasher.key key path)) with
      | none =>
          rw [read] at run
          contradiction
      | some entry =>
          have stored := LawfulDatabase.get_eq read
          rw [read] at run
          cases found : table.current.nodes (NodeHasher.key key path) with
          | none =>
              -- The first write of the node: both entries are new.
              rw [refines.current.absent found] at stored
              subst stored
              obtain rfl := Option.some.inj run
              rw [NodeTable.keep, found, if_neg (by simp)]
              apply refines.putAll more
              · exact (refines.next.mono more).write Nat.one_pos (Nat.le_add_left 1 bound)
              · intro base data here
                have different : base ≠ NodeHasher.key key path := by
                  rintro rfl
                  rw [found] at here
                  contradiction
                rw [NodeView.nodes_setNode, if_neg different]
                exact refines.kept here
          | some data =>
              -- The node is in the database: only its count is written.
              obtain ⟨count, -, below, entryEq, positive⟩ := refines.counted found small
              rw [entryEq] at stored
              subst stored
              simp only [Counter.decode_encode, Option.bind_eq_bind, Option.bind_some,
                if_neg (Int64.not_le.mpr positive), Counter.ofNat_succ, Option.some.injEq]
                at run
              subst run
              rw [NodeTable.keep, found, if_pos Option.isSome_some]
              exact refines.putAll more
                ((refines.next.mono more).recount (refines.kept found) (Nat.succ_pos count)
                  (Nat.succ_le_succ below)) refines.kept

end Refines

/-- A write of another record is outside the space of the nodes. -/
def Op.Outside (dbPrefix : Bytes) : Op η → Prop
  | .put key _ => ¬dbPrefix <+: key
  | _ => True

/-- A node is written under its hash. -/
def Op.Addressed : Op η → Prop
  | .emplace key _ value => NodeHasher.hash value = key
  | _ => True

variable {self after : ReadWriteDB δ η} {table : NodeTable} {bound : Nat}

theorem Refines.mono
    (refines : Refines self table dbPrefix bound) {larger : Nat} (more : bound ≤ larger) :
    Refines self table dbPrefix larger :=
  { refines with
    current := refines.current.mono more
    next := refines.next.mono more }

/-- Another record waits for the next commit. -/
theorem Refines.put
    (refines : Refines self table dbPrefix bound) {key value : Bytes}
    (foreign : ¬dbPrefix <+: key) :
    Refines (self.putAll [(key, value)]) ⟨table.current, table.next.setRecord key value⟩
      dbPrefix bound :=
  refines.putAll (Nat.le_refl bound) (refines.next.put foreign) refines.kept

/-- Opening the database again loses what is pending. -/
theorem Refines.reopen (refines : Refines self table dbPrefix bound) :
    Refines self.reopen ⟨table.current, table.current⟩ dbPrefix bound :=
  ⟨refines.space, rfl, rfl, refines.current, refines.current, fun found => found⟩

variable [LawfulDatabase δ]

/-- A commit makes everything that was pending current. -/
theorem Refines.commit
    (refines : Refines self table dbPrefix bound) (run : self.commit = some after) :
    Refines after ⟨table.next, table.next⟩ dbPrefix bound := by
  have next := refines.next
  unfold ReadWriteDB.commit at run
  cases pending : self.wb with
  | none =>
      rw [pending] at run next
      obtain rfl := Option.some.inj run
      exact { refines with
        current := next
        next := by rwa [pending]
        kept := fun found => found }
  | some batch =>
      rw [pending] at run next
      obtain ⟨db, written, rfl⟩ := Option.map_eq_some_iff.mp run
      have contents := LawfulDatabase.write_eq written
      exact { refines with
        current := by
          change Holds dbPrefix (Database.contents db) _ _
          rwa [contents]
        next := by
          change Holds dbPrefix (Database.contents db) _ _
          rwa [contents]
        kept := fun found => found }

/-- One operation on a store and on its table. -/
theorem Refines.step
    (refines : Refines self table dbPrefix bound) (small : bound < 2 ^ 63) {op : Op η}
    (outside : op.Outside dbPrefix) (run : self.step op = some after) :
    Refines after (table.step op) dbPrefix (bound + 1) := by
  have more : bound ≤ bound + 1 := Nat.le_succ bound
  cases op with
  | emplace key path value => exact refines.emplace small run
  | insert path value =>
      by_cases null : value = self.nullNodeData
      · have same : self.insert path value = some (self, self.nullNodeHash) := if_pos null
        rw [ReadWriteDB.step, same] at run
        obtain rfl := Option.some.inj run
        rw [refines.nullData] at null
        rw [NodeTable.step, NodeTable.emplace, if_pos null]
        exact refines.mono more
      · have same : self.insert path value =
            (self.emplace (NodeHasher.hash value) path value).map
              fun self => (self, NodeHasher.hash value) := if_neg null
        rw [ReadWriteDB.step, same, Option.map_map] at run
        obtain ⟨written, emplaced, rfl⟩ := Option.map_eq_some_iff.mp run
        exact refines.emplace small emplaced
  | remove key path =>
      obtain rfl := Option.some.inj run
      exact refines.mono more
  | put key value =>
      obtain rfl := Option.some.inj run
      exact (refines.put outside).mono more
  | commit => exact (refines.commit run).mono more
  | reopen =>
      obtain rfl := Option.some.inj run
      exact refines.reopen.mono more

/-- A run of a store and of its table. -/
theorem Refines.run
    (refines : Refines self table dbPrefix bound) {ops : List (Op η)}
    (few : bound + ops.length ≤ 2 ^ 63) (outside : ∀ op ∈ ops, op.Outside dbPrefix)
    (run : self.run ops = some after) :
    Refines after (table.run ops) dbPrefix (bound + ops.length) := by
  induction ops generalizing self table bound with
  | nil =>
      obtain rfl := Option.some.inj run
      exact refines
  | cons op ops inductionHypothesis =>
      obtain ⟨middle, first, rest⟩ := Option.bind_eq_some_iff.mp run
      rw [List.length_cons] at few ⊢
      have small : bound < 2 ^ 63 := by omega
      have total : bound + 1 + ops.length = bound + (ops.length + 1) := by omega
      rw [← total] at few ⊢
      exact inductionHypothesis
        (refines.step small (outside op List.mem_cons_self) first) few
        (fun other member => outside other (List.mem_cons_of_mem op member)) rest

omit [LawfulDatabase δ] in
/-- A new store on an empty database is an empty table. -/
theorem refines_new {db : δ} (fresh : Database.contents db = fun _ => none) :
    Refines (new dbPrefix db : ReadWriteDB δ η) NodeTable.empty dbPrefix 0 := by
  have holds : Holds dbPrefix (Database.contents db) NodeTable.empty.current 0 :=
    ⟨fun _ => by rw [fresh], nofun, fun _ => by rw [fresh]; rfl⟩
  exact ⟨rfl, rfl, rfl, holds, holds, fun found => found⟩

/-- Operations do not panic as long as the database does not fail. -/
theorem Refines.step_isSome
    (refines : Refines self table dbPrefix bound) (small : bound < 2 ^ 63)
    (answers : Database.Answers self.db)
    (accepts : ∀ batch, Database.write self.db batch ≠ none) (op : Op η) :
    self.step op ≠ none := by
  have emplaces : ∀ key path value, self.emplace key path value ≠ none := by
    intro key path value
    unfold ReadWriteDB.emplace
    split
    · simp
    · simp only [refines.countKey_eq, answers.get_eq]
      cases found : table.current.nodes (NodeHasher.key key path) with
      | none => simp [refines.current.absent found]
      | some data =>
          obtain ⟨count, -, -, entry, -⟩ := refines.counted found small
          simp [entry, Counter.decode_encode]
  cases op with
  | emplace key path value => exact emplaces key path value
  | insert path value =>
      rw [ReadWriteDB.step, ReadWriteDB.insert]
      split
      · simp
      · simpa using emplaces (NodeHasher.hash value) path value
  | remove key path => simp [ReadWriteDB.step]
  | put key value => simp [ReadWriteDB.step]
  | commit =>
      rw [ReadWriteDB.step, ReadWriteDB.commit]
      split
      · simp
      · simpa using accepts _
  | reopen => simp [ReadWriteDB.step]

/-- A run does not panic on a database that does not fail. -/
theorem Refines.run_isSome
    (refines : Refines self table dbPrefix bound) {ops : List (Op η)}
    (few : bound + ops.length ≤ 2 ^ 63) (outside : ∀ op ∈ ops, op.Outside dbPrefix)
    (answers : ∀ db : δ, Database.Answers db)
    (accepts : ∀ (db : δ) batch, Database.write db batch ≠ none) : self.run ops ≠ none := by
  induction ops generalizing self table bound with
  | nil => simp [ReadWriteDB.run]
  | cons op ops inductionHypothesis =>
      rw [List.length_cons] at few
      have small : bound < 2 ^ 63 := by omega
      cases first : self.step op with
      | none =>
          exact absurd first
            (refines.step_isSome small (answers self.db) (accepts self.db) op)
      | some middle =>
          rw [ReadWriteDB.run, first, Option.bind_some]
          apply inductionHypothesis
            (refines.step small (outside op List.mem_cons_self) first)
          · omega
          · exact fun other member => outside other (List.mem_cons_of_mem op member)

end Stores
end ReadWriteDB

/-! ## What a table keeps -/

namespace NodeTable

variable {η : Type} [NodeHasher η] {table : NodeTable}

/-- What can be read stays when the table is committed. -/
def Grows (table : NodeTable) : Prop :=
  ∀ {base value}, table.current.nodes base = some value → table.next.nodes base = some value

/-- A node that is kept does not replace one that can be read. -/
theorem Grows.keep (grows : Grows table) (base value : Bytes) :
    Grows (table.keep base value) := by
  intro other data found
  unfold NodeTable.keep at found ⊢
  split at found
  · next here =>
      rw [if_pos here]
      exact grows found
  · next new =>
      rw [if_neg new]
      have different : other ≠ base := by
        rintro rfl
        exact new (Option.isSome_of_eq_some found)
      rw [NodeView.nodes_setNode, if_neg different]
      exact grows found

theorem current_keep (table : NodeTable) (base value : Bytes) :
    (table.keep base value).current = table.current := by
  unfold NodeTable.keep
  split <;> rfl

/-- One operation keeps what can be read. -/
theorem Grows.step (grows : Grows table) (op : ReadWriteDB.Op η) :
    Grows (table.step op) ∧ ∀ {base value}, table.current.nodes base = some value →
      (table.step op).current.nodes base = some value := by
  have emplaces : ∀ key path value, Grows (table.emplace key path value) ∧
      (table.emplace key path value).current = table.current := by
    intro key path value
    unfold NodeTable.emplace
    split
    · exact ⟨grows, rfl⟩
    · exact ⟨grows.keep _ _, current_keep _ _ _⟩
  cases op with
  | emplace key path value =>
      obtain ⟨still, same⟩ := emplaces key path value
      exact ⟨still, fun found => by rwa [NodeTable.step, same]⟩
  | insert path value =>
      obtain ⟨still, same⟩ := emplaces (NodeHasher.hash value) path value
      exact ⟨still, fun found => by rwa [NodeTable.step, same]⟩
  | remove key path => exact ⟨grows, fun found => found⟩
  | put key value => exact ⟨grows, fun found => found⟩
  | commit => exact ⟨fun found => found, fun found => grows found⟩
  | reopen => exact ⟨fun found => found, fun found => found⟩

/-- A run keeps what can be read. -/
theorem Grows.run (grows : Grows table) (ops : List (ReadWriteDB.Op η)) {base value : Bytes}
    (found : table.current.nodes base = some value) :
    (table.run ops).current.nodes base = some value := by
  induction ops generalizing table with
  | nil => exact found
  | cons op ops inductionHypothesis =>
      obtain ⟨still, keeps⟩ := grows.step op
      exact inductionHypothesis still (keeps found)

/-- Writing nodes leaves the other records as they are. -/
theorem records_inserts (table : NodeTable) (nodes : List (NodePrefix × Bytes)) :
    (table.run (nodes.map fun node => (.insert node.1 node.2 : ReadWriteDB.Op η))).next.records
      = table.next.records := by
  induction nodes generalizing table with
  | nil => rfl
  | cons node nodes inductionHypothesis =>
      refine (inductionHypothesis (table.step (.insert node.1 node.2 : ReadWriteDB.Op η))).trans
        ?_
      change (table.emplace (NodeHasher.hash node.2) node.1 node.2).next.records = _
      unfold NodeTable.emplace NodeTable.keep
      split
      · rfl
      · split <;> rfl

/-- Writing and committing nodes makes the pending records current. -/
theorem run_inserts_commit (table : NodeTable) (nodes : List (NodePrefix × Bytes)) :
    let after := table.run
      ((nodes.map fun node => (.insert node.1 node.2 : ReadWriteDB.Op η)) ++ [.commit])
    after.current.records = table.next.records ∧ after.next.records = table.next.records := by
  have inserted := records_inserts table nodes
  unfold NodeTable.run at inserted ⊢
  rw [List.foldl_append]
  exact ⟨inserted, inserted⟩

/-- Every node is under a key of its hash. -/
def Addressed (view : NodeView) : Prop :=
  ∀ {base value}, view.nodes base = some value →
    ∃ path, base = NodeHasher.key (NodeHasher.hash value) path

/-- Nodes that are written under their hashes are addressed by them. -/
theorem addressed_step
    {op : ReadWriteDB.Op η} (named : op.Addressed) (current : Addressed table.current)
    (next : Addressed table.next) :
    Addressed (table.step op).current ∧ Addressed (table.step op).next := by
  have emplaces : ∀ path value,
      Addressed (table.emplace (NodeHasher.hash value) path value).current ∧
        Addressed (table.emplace (NodeHasher.hash value) path value).next := by
    intro path value
    unfold NodeTable.emplace NodeTable.keep
    split
    · exact ⟨current, next⟩
    · split
      · exact ⟨current, next⟩
      · refine ⟨current, fun {base data} found => ?_⟩
        rw [NodeView.nodes_setNode] at found
        split at found
        · next same =>
            obtain rfl := Option.some.inj found
            exact ⟨path, same⟩
        · exact next found
  cases op with
  | emplace key path value =>
      obtain rfl : NodeHasher.hash value = key := named
      exact emplaces path value
  | insert path value => exact emplaces path value
  | remove key path => exact ⟨current, next⟩
  | put key value => exact ⟨current, next⟩
  | commit => exact ⟨next, next⟩
  | reopen => exact ⟨current, current⟩

/-- After a run every node is under a key of its hash. -/
theorem addressed_run
    {ops : List (ReadWriteDB.Op η)} (named : ∀ op ∈ ops, op.Addressed)
    (current : Addressed table.current) (next : Addressed table.next) :
    Addressed (table.run ops).current := by
  induction ops generalizing table with
  | nil => exact current
  | cons op ops inductionHypothesis =>
      obtain ⟨nowCurrent, nowNext⟩ :=
        addressed_step (named op List.mem_cons_self) current next
      exact inductionHypothesis
        (fun other member => named other (List.mem_cons_of_mem op member)) nowCurrent nowNext

end NodeTable

/-! ## Runs of the store -/

namespace ReadWriteDB

variable {δ η : Type} [NodeHasher η] [DecidableEq η] [Database δ Bytes Bytes]
  [LawfulDatabase δ]

/-- In every run of a store that starts on an empty database, what is read is what the table
has: a node that can be read keeps its data, a new one appears with the commit, and one that
is pending when the process ends is lost.  The other records are kept beside the nodes.  No
read panics, and nothing does on a database that does not fail. -/
theorem nodes_are_read_as_in_the_table
    {dbPrefix : Bytes} {db : δ} (fresh : Database.contents db = fun _ => none)
    {ops : List (Op η)} (few : ops.length < 2 ^ 63)
    (outside : ∀ op ∈ ops, op.Outside dbPrefix) :
    ((∀ db : δ, Database.Answers db) →
      (∀ (db : δ) batch, Database.write db batch ≠ none) →
      (new dbPrefix db : ReadWriteDB δ η).run ops ≠ none) ∧
    ∀ self, (new dbPrefix db : ReadWriteDB δ η).run ops = some self →
      (∀ key path, ∃ found, self.get key path = some found ∧
        (found = none ∨ found = (NodeTable.empty.run ops).get key path) ∧
        (Database.Answers self.db → found = (NodeTable.empty.run ops).get key path)) ∧
      (∀ key path, ∃ found, self.contains key path = some found ∧
        (found = true → ((NodeTable.empty.run ops).get key path).isSome) ∧
        (Database.Answers self.db →
          found = ((NodeTable.empty.run ops).get key path).isSome)) ∧
      ∀ key, ¬dbPrefix <+: key →
        Database.contents self.db key = (NodeTable.empty.run ops).current.records key := by
  have start : Refines (new dbPrefix db : ReadWriteDB δ η) NodeTable.empty dbPrefix 0 :=
    refines_new fresh
  rw [← Nat.zero_add ops.length] at few
  refine ⟨start.run_isSome few.le outside, fun self run => ?_⟩
  have refines := start.run few.le outside run
  exact ⟨refines.get few, refines.contains few, fun key => refines.current.record⟩

/-- A node that has been read once is read with the same data after anything that happens
later, unless the database fails to answer.  If nodes are written under their hashes only,
what is read under a hash has that hash. -/
theorem nodes_stay
    {dbPrefix : Bytes} {db : δ} (fresh : Database.contents db = fun _ => none)
    {ops later : List (Op η)} (few : ops.length + later.length < 2 ^ 63)
    (outside : ∀ op ∈ ops ++ later, op.Outside dbPrefix)
    (separates : ∀ {key other : η} {path otherPath : NodePrefix},
      NodeHasher.key key path = NodeHasher.key other otherPath → key = other)
    {self after : ReadWriteDB δ η} (run : (new dbPrefix db).run ops = some self)
    (runs : self.run later = some after) {key : η} {path : NodePrefix} {value : Bytes}
    (read : self.get key path = some (some value)) :
    (∃ found, after.get key path = some found ∧ (found = none ∨ found = some value) ∧
      (Database.Answers after.db → found = some value)) ∧
    ((∀ op ∈ ops, op.Addressed) → NodeHasher.hash value = key) := by
  have start : Refines (new dbPrefix db : ReadWriteDB δ η) NodeTable.empty dbPrefix 0 :=
    refines_new fresh
  have refines := start.run (by omega)
    (fun op member => outside op (List.mem_append_left later member)) run
  have refinesLater := refines.run (by omega)
    (fun op member => outside op (List.mem_append_right ops member)) runs
  obtain ⟨found, readFound, fromTable, -⟩ := refines.get (by omega) key path
  obtain rfl : some value = found := Option.some.inj (read.symm.trans readFound)
  have tabled : (NodeTable.empty.run ops).get key path = some value :=
    (fromTable.resolve_left nofun).symm
  constructor
  · obtain ⟨seen, readSeen, seenTable, answered⟩ := refinesLater.get (by omega) key path
    have same : ((NodeTable.empty.run ops).run later).get key path = some value := by
      unfold NodeTable.get at tabled ⊢
      split at tabled
      · next null => rwa [if_pos null]
      · next real =>
          rw [if_neg real]
          exact NodeTable.Grows.run refines.kept later tabled
    rw [same] at seenTable answered
    exact ⟨seen, readSeen, seenTable, answered⟩
  · intro named
    unfold NodeTable.get at tabled
    split at tabled
    · next null =>
        obtain rfl := Option.some.inj tabled
        exact null.symm
    · have unused : NodeTable.Addressed NodeTable.empty.current := by
        intro base data found
        contradiction
      obtain ⟨other, same⟩ := NodeTable.addressed_run named unused unused tabled
      exact (separates same).symm

end ReadWriteDB

/-! ## A store on a list of entries -/

namespace Sample

/-- The entries of a database in the order in which they were written. -/
structure Entries where
  entries : List (Bytes × Bytes)

instance : Database Entries Bytes Bytes where
  contents db := TrieStore.inserted (fun _ => none) db.entries
  get db key := some (TrieStore.inserted (fun _ => none) db.entries key)
  write db batch := some ⟨db.entries ++ batch⟩

instance : LawfulDatabase Entries where
  get_eq found := (Option.some.inj found).symm
  write_eq {_ _ batch} written := by
    obtain rfl := Option.some.inj written
    exact TrieStore.inserted_append _ _ batch

/-- Hashes of the null node and of a node, and keys that are a path and a hash. -/
@[reducible] def nodeHasher : NodeHasher Hash where
  hash := (keccak
    [([0], 0xbc36789e7a1e281436464229828f817d6612f7b477d66591ff96a9e064bcc98a),
      ([1, 2], 0x22ae6da6b482f9b1b19b0b897c3fd43884180a1c5ee361e1107a1bc635649dda)]).digest
  key hash path := path.1 ++ path.2.toList ++ hash.asBytes

attribute [local instance] nodeHasher

theorem key_separates
    {key other : Hash} {path otherPath : NodePrefix}
    (same : NodeHasher.key key path = NodeHasher.key other otherPath) : key = other := by
  have width : key.asBytes.length = other.asBytes.length := by
    rw [AccountState.length_asBytes, AccountState.length_asBytes]
  have bytes := (List.append_inj' same width).2
  have numbers := congrArg Rlp.ofBigEndian bytes
  rw [ofBigEndian_asBytes, ofBigEndian_asBytes] at numbers
  exact BitVec.eq_of_toNat_eq numbers

/-- A node that is committed, and written again and lost with the process. -/
def nodeOps : List (ReadWriteDB.Op Hash) :=
  [.insert ([], none) [1, 2], .put [7] [8], .commit, .insert ([], none) [1, 2], .reopen]

theorem nodeOps_outside : ∀ op ∈ nodeOps, op.Outside [109] := by
  simp [nodeOps, ReadWriteDB.Op.Outside]

end Sample

section

attribute [local instance] Sample.nodeHasher

namespace ReadWriteDB

theorem node_is_read_as_in_the_table :
    ∃ self : ReadWriteDB Sample.Entries Hash,
      (new [109] ⟨[]⟩).run Sample.nodeOps = some self ∧
        self.get (NodeHasher.hash [1, 2]) ([], none) = some (some [1, 2]) := by
  have fresh : Database.contents (⟨[]⟩ : Sample.Entries) = fun _ => none := rfl
  have table := nodes_are_read_as_in_the_table fresh (by decide) Sample.nodeOps_outside
  obtain ⟨self, run⟩ := Option.ne_none_iff_exists'.mp
    (table.1 (fun _ _ => nofun) fun _ _ => nofun)
  obtain ⟨found, read, -, same⟩ :=
    (table.2 self run).1 (NodeHasher.hash [1, 2]) ([], none)
  refine ⟨self, run, ?_⟩
  rw [read, same fun _ => nofun]
  decide +kernel

theorem node_stays :
    ∃ self after : ReadWriteDB Sample.Entries Hash,
      (new [109] ⟨[]⟩).run Sample.nodeOps = some self ∧
        self.run [.remove (NodeHasher.hash [1, 2]) ([], none), .reopen] = some after ∧
        after.get (NodeHasher.hash [1, 2]) ([], none) = some (some [1, 2]) := by
  have fresh : Database.contents (⟨[]⟩ : Sample.Entries) = fun _ => none := rfl
  obtain ⟨self, after, run, runs, read⟩ : ∃ self after : ReadWriteDB Sample.Entries Hash,
      (new [109] ⟨[]⟩).run Sample.nodeOps = some self ∧
        self.run [.remove (NodeHasher.hash [1, 2]) ([], none), .reopen] = some after ∧
        self.get (NodeHasher.hash [1, 2]) ([], none) = some (some [1, 2]) :=
    ⟨_, _, rfl, rfl, by decide +kernel⟩
  obtain ⟨⟨found, seen, -, same⟩, -⟩ := nodes_stay fresh (by decide)
    (by simp [Sample.nodeOps, Op.Outside]) Sample.key_separates run runs read
  exact ⟨self, after, run, runs, by rw [seen, same fun _ => nofun]⟩

end ReadWriteDB

end
end Qevm
