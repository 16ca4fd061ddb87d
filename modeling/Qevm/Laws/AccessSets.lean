import Qevm.Collections.KeyedSets
import Qevm.Core.Accessed
import Qevm.Logic.Refinement

/-!
# The access list is a set of addresses and a set of slots

Each address has its slots, in the order in which addresses got their first one.  The
position of an address is the sentinel until then; afterwards it is that of no other
address, so adding a slot changes the slots of one address.
-/

namespace Qevm
namespace AccessList

variable {list after : AccessList} {addr other : Addr} {slot : Hash}

/-- The slots of an address, when it has some. -/
def slotsOf (list : AccessList) (addr : Addr) : Option (HashSet Hash) :=
  (list.addrs.lookup addr).bind list.slotsAt

/-- The addresses and slots that are found in the list. -/
def sets (list : AccessList) : KeyedSets Addr Hash where
  keys := {addr | list.containsAddr addr = true}
  pairs := {pair | list.contains pair.1 pair.2 = some (true, true)}
  covered pair accessed := by
    obtain ⟨_, _, position, _⟩ := contains_eq_true.mp accessed
    exact Option.isSome_iff_exists.mpr ⟨_, position⟩

/-- A stored index is the sentinel or a position of slots that no other address has. -/
structure WellFormed (list : AccessList) : Prop where
  valid : ∀ {addr idx}, list.addrs.lookup addr = some idx →
    idx = -1 ∨ ∃ slots, list.slotsAt idx = some slots
  unshared : ∀ {addr other idx}, list.addrs.lookup addr = some idx →
    list.addrs.lookup other = some idx → idx ≠ -1 → other = addr

theorem mem_keys : addr ∈ list.sets.keys ↔ (list.addrs.lookup addr).isSome :=
  Iff.rfl

/-- A slot is accessed when the slots of its address have it. -/
theorem mem_pairs :
    (addr, slot) ∈ list.sets.pairs ↔
      ∃ slots, list.slotsOf addr = some slots ∧ slot ∈ slots := by
  refine contains_eq_true.trans ⟨?_, ?_⟩
  · rintro ⟨idx, slots, position, -, stored, member⟩
    exact ⟨slots, Option.bind_eq_some_iff.mpr ⟨idx, position, stored⟩, member⟩
  · rintro ⟨slots, found, member⟩
    obtain ⟨idx, position, stored⟩ := Option.bind_eq_some_iff.mp found
    refine ⟨idx, slots, position, ?_, stored, member⟩
    rintro rfl
    contradiction

/-- Stored slots have a position. -/
theorem slotsAt_lt
    {idx : Int} {slots : HashSet Hash} (stored : list.slotsAt idx = some slots) :
    0 ≤ idx ∧ idx.toNat < list.slots.length := by
  unfold slotsAt at stored
  split at stored
  · next positive => exact ⟨positive, (List.getElem?_eq_some_iff.mp stored).1⟩
  · contradiction

theorem not_mem_pairs (bare : list.slotsOf addr = none) :
    (addr, slot) ∉ list.sets.pairs := by
  rw [mem_pairs, bare]
  exact nofun

/-! ## One address changes -/

/-- An address gets an index of its own, or keeps the one it has, and only the slots at that
index change. -/
structure Changes (list after : AccessList) (addr : Addr) (idx : Int) : Prop where
  position : ∀ other, after.addrs.lookup other =
    if other = addr then some idx else list.addrs.lookup other
  own : ∀ other, list.addrs.lookup other = some idx → idx ≠ -1 → other = addr
  kept : ∀ position, position ≠ idx → after.slotsAt position = list.slotsAt position
  valid : idx = -1 ∨ ∃ slots, after.slotsAt idx = some slots

namespace Changes

variable {idx : Int}

theorem position_ne (changes : list.Changes after addr idx) (different : other ≠ addr) :
    after.addrs.lookup other = list.addrs.lookup other :=
  (changes.position other).trans (if_neg different)

theorem position_self (changes : list.Changes after addr idx) :
    after.addrs.lookup addr = some idx :=
  (changes.position addr).trans (if_pos rfl)

theorem index_eq
    (changes : list.Changes after addr idx) {position : Int}
    (stored : after.addrs.lookup addr = some position) : idx = position :=
  Option.some.inj (changes.position_self.symm.trans stored)

theorem slotsOf_self (changes : list.Changes after addr idx) :
    after.slotsOf addr = after.slotsAt idx := by
  rw [slotsOf, changes.position_self, Option.bind_some]

/-- No other address has the index. -/
theorem elsewhere
    (changes : list.Changes after addr idx) (different : other ≠ addr) {position : Int}
    (stored : list.addrs.lookup other = some position) (real : position ≠ -1) :
    position ≠ idx := by
  rintro rfl
  exact different (changes.own other stored real)

theorem slotsOf_ne (changes : list.Changes after addr idx) (different : other ≠ addr) :
    after.slotsOf other = list.slotsOf other := by
  unfold slotsOf
  rw [changes.position_ne different]
  cases stored : list.addrs.lookup other with
  | none => rfl
  | some position =>
      by_cases real : position = -1
      · subst real
        rfl
      · exact changes.kept position (changes.elsewhere different stored real)

theorem wellFormed (changes : list.Changes after addr idx) (wellFormed : list.WellFormed) :
    after.WellFormed where
  valid {other position} stored := by
    by_cases same : other = addr
    · subst same
      obtain rfl : idx = position := changes.index_eq stored
      exact changes.valid
    · rw [changes.position_ne same] at stored
      obtain real | ⟨slots, found⟩ := wellFormed.valid stored
      · exact .inl real
      · refine .inr ⟨slots, (changes.kept position ?_).trans found⟩
        apply changes.elsewhere same stored
        rintro rfl
        contradiction
  unshared {first second position} stored shared real := by
    by_cases left : first = addr
    · subst left
      obtain rfl : idx = position := changes.index_eq stored
      by_contra different
      rw [changes.position_ne different] at shared
      exact different (changes.own second shared real)
    · rw [changes.position_ne left] at stored
      by_cases right : second = addr
      · subst right
        obtain rfl : idx = position := changes.index_eq shared
        exact absurd (changes.own first stored real) left
      · rw [changes.position_ne right] at shared
        exact wellFormed.unshared stored shared real

/-- What is found is what was found before, the address, and new slots of it. -/
theorem sets_eq
    (changes : list.Changes after addr idx) {values : Set Hash}
    (here : ∀ slot, (addr, slot) ∈ after.sets.pairs ↔
      (addr, slot) ∈ list.sets.pairs ∨ slot ∈ values) :
    after.sets = list.sets.union (.single addr values) := by
  apply KeyedSets.ext
  · ext other
    by_cases same : other = addr
    · subst same
      exact iff_of_true (by rw [mem_keys, changes.position_self]; rfl) (.inr rfl)
    · refine Iff.trans ?_ (or_iff_left same).symm
      rw [mem_keys, mem_keys, changes.position_ne same]
  · ext ⟨other, slot⟩
    by_cases same : other = addr
    · subst same
      exact (here slot).trans (or_congr Iff.rfl ⟨fun member => ⟨rfl, member⟩, And.right⟩)
    · have elsewhere : (other, slot) ∉ (KeyedSets.single addr values).pairs :=
        fun member => same member.1
      refine Iff.trans ?_ (or_iff_left elsewhere).symm
      rw [mem_pairs, mem_pairs, changes.slotsOf_ne same]

end Changes

/-! ## Each operation -/

theorem addAddr_represents (wellFormed : list.WellFormed) (addr : Addr) :
    ((list.addAddr addr).2 = true ↔ addr ∉ list.sets.keys) ∧
      (list.addAddr addr).1.WellFormed ∧
      (list.addAddr addr).1.sets = list.sets.union (.single addr ∅) := by
  unfold addAddr
  cases position : list.addrs.lookup addr with
  | some idx =>
      have known : addr ∈ list.sets.keys := by rw [mem_keys, position]; rfl
      have changes : list.Changes list addr idx := {
        position := fun other => by
          by_cases same : other = addr
          · rw [if_pos same, same, position]
          · rw [if_neg same]
        own := fun other stored real => wellFormed.unshared position stored real
        kept := fun _ _ => rfl
        valid := wellFormed.valid position }
      exact ⟨iff_of_false nofun (not_not_intro known), wellFormed,
        changes.sets_eq fun slot => (or_iff_left nofun).symm⟩
  | none =>
      have unknown : addr ∉ list.sets.keys := by rw [mem_keys, position]; exact nofun
      have bare : list.slotsOf addr = none := by rw [slotsOf, position]; rfl
      have changes : list.Changes ⟨list.addrs.insert addr (-1), list.slots⟩ addr (-1) := {
        position := fun other => HashMap.lookup_insert_eq_ite _ _ other _
        own := fun _ _ real => absurd rfl real
        kept := fun _ _ => rfl
        valid := .inl rfl }
      refine ⟨iff_of_true rfl unknown, changes.wellFormed wellFormed,
        changes.sets_eq fun slot => ?_⟩
      have still : slotsOf ⟨list.addrs.insert addr (-1), list.slots⟩ addr = none :=
        changes.slotsOf_self
      exact iff_of_false (not_mem_pairs still) (not_or_intro (not_mem_pairs bare) nofun)

theorem slotsAt_set_self
    {idx : Int} {slots : HashSet Hash} (stored : list.slotsAt idx = some slots)
    (more : HashSet Hash) :
    slotsAt ⟨list.addrs, list.slots.set idx.toNat more⟩ idx = some more := by
  obtain ⟨positive, inside⟩ := slotsAt_lt stored
  rw [slotsAt, if_pos positive]
  exact List.getElem?_set_self inside

theorem slotsAt_append_self (addrs : HashMap Addr Int) (slots : HashSet Hash) :
    slotsAt ⟨addrs, list.slots ++ [slots]⟩ list.slots.length = some slots := by
  rw [slotsAt, if_pos (Int.natCast_nonneg _), Int.toNat_natCast]
  exact List.getElem?_concat_length

/-- The slots at the index of an address are replaced. -/
theorem WellFormed.changes_set
    (wellFormed : list.WellFormed) {idx : Int} {slots : HashSet Hash}
    (position : list.addrs.lookup addr = some idx)
    (stored : list.slotsAt idx = some slots) (more : HashSet Hash) :
    list.Changes ⟨list.addrs, list.slots.set idx.toNat more⟩ addr idx := by
  have positive := (slotsAt_lt stored).1
  constructor
  case position =>
    intro other
    by_cases same : other = addr
    · rw [if_pos same, same, position]
    · rw [if_neg same]
  case own => exact fun other found real => wellFormed.unshared position found real
  case kept =>
    intro place different
    unfold slotsAt
    split
    · rw [List.getElem?_set_ne (by omega)]
    · rfl
  case valid => exact .inr ⟨_, slotsAt_set_self stored _⟩

/-- An address without slots gets the next index. -/
theorem WellFormed.changes_append
    (wellFormed : list.WellFormed) (addr : Addr) (slots : HashSet Hash) :
    list.Changes ⟨list.addrs.insert addr list.slots.length, list.slots ++ [slots]⟩ addr
      list.slots.length := by
  constructor
  case position => exact fun other => HashMap.lookup_insert_eq_ite _ _ other _
  case own =>
    intro other found real
    obtain sentinel | ⟨slots, stored⟩ := wellFormed.valid found
    · exact absurd sentinel real
    · have := (slotsAt_lt stored).2
      omega
  case kept =>
    intro place different
    unfold slotsAt
    split
    · next positive =>
        by_cases inside : place.toNat < list.slots.length
        · exact List.getElem?_append_left inside
        · rw [List.getElem?_eq_none (by simp; omega), List.getElem?_eq_none (by omega)]
    · rfl
  case valid => exact .inr ⟨slots, slotsAt_append_self _ slots⟩

open Classical in
theorem addSlot_represents (wellFormed : list.WellFormed) (addr : Addr) (slot : Hash) :
    ∃ after, list.addSlot addr slot =
        some (after, decide (addr ∉ list.sets.keys),
          decide ((addr, slot) ∉ list.sets.pairs)) ∧
      after.WellFormed ∧ after.sets = list.sets.union (.single addr {slot}) := by
  unfold addSlot
  cases found : list.slotsOf addr with
  | some slots =>
      obtain ⟨idx, position, stored⟩ := Option.bind_eq_some_iff.mp found
      have real : idx ≠ -1 := by
        rintro rfl
        contradiction
      have known : addr ∈ list.sets.keys := by rw [mem_keys, position]; rfl
      have member (key : Hash) : (addr, key) ∈ list.sets.pairs ↔ key ∈ slots := by
        rw [mem_pairs, found]
        simp
      have changes := wellFormed.changes_set position stored (slots.insert slot)
      refine ⟨_, ?_, changes.wellFormed wellFormed, changes.sets_eq fun key => ?_⟩
      · simp only [position, Option.bind_some, if_neg real, stored, Option.map_some, known,
          not_true_eq_false, decide_false, member]
      · rw [member, mem_pairs, changes.slotsOf_self, slotsAt_set_self stored]
        simp [or_comm]
  | none =>
      have bare : (list.addrs.lookup addr).bind (fun idx =>
          if idx = -1 then none else some idx) = none := by
        refine Option.bind_eq_none_iff.mpr fun idx position => ?_
        obtain rfl | ⟨slots, stored⟩ := wellFormed.valid position
        · rfl
        · rw [slotsOf, position, Option.bind_some, stored] at found
          contradiction
      have new : decide (addr ∉ list.sets.keys) = (list.addrs.lookup addr).isNone := by
        rw [Bool.eq_iff_iff, decide_eq_true_iff, mem_keys, Option.isNone_iff_eq_none,
          Option.not_isSome_iff_eq_none]
      have changes := wellFormed.changes_append addr (HashSet.empty.insert slot)
      refine ⟨_, ?_, changes.wellFormed wellFormed, changes.sets_eq fun key => ?_⟩
      · rw [bare, new, decide_eq_true (not_mem_pairs found)]
      · rw [mem_pairs, changes.slotsOf_self, slotsAt_append_self,
          or_iff_right (not_mem_pairs found)]
        simp

open Classical in
/-- The list is asked for what it has found. -/
theorem contains_eq (wellFormed : list.WellFormed) (addr : Addr) (slot : Hash) :
    list.contains addr slot =
      some (decide (addr ∈ list.sets.keys), decide ((addr, slot) ∈ list.sets.pairs)) := by
  unfold contains
  cases position : list.addrs.lookup addr with
  | none =>
      have bare : list.slotsOf addr = none := by rw [slotsOf, position]; rfl
      have unknown : addr ∉ list.sets.keys := by rw [mem_keys, position]; exact nofun
      rw [decide_eq_false unknown, decide_eq_false (not_mem_pairs bare)]
  | some idx =>
      have known : addr ∈ list.sets.keys := by rw [mem_keys, position]; rfl
      have found : list.slotsOf addr = list.slotsAt idx := by
        rw [slotsOf, position, Option.bind_some]
      rw [decide_eq_true known]
      dsimp only
      split
      · next sentinel =>
          subst sentinel
          rw [decide_eq_false (not_mem_pairs found)]
      · next real =>
          obtain ⟨slots, stored⟩ := (wellFormed.valid position).resolve_left real
          have member : (addr, slot) ∈ list.sets.pairs ↔ slot ∈ slots := by
            rw [mem_pairs, found, stored]
            simp
          rw [stored, Option.map_some, decide_eq_decide.mpr member]

/-! ## The list of a new transaction -/

/-- A well formed list that stands for some sets. -/
def Represents (list : AccessList) (recorded : KeyedSets Addr Hash) : Prop :=
  list.WellFormed ∧ list.sets = recorded

/-- The addresses and slots that are listed in tuples. -/
def ofTuples (tuples : List TxAccessTuple) : KeyedSets Addr Hash where
  keys := {addr | ∃ tuple ∈ tuples, addr = tuple.addr}
  pairs := {pair | ∃ tuple ∈ tuples, pair.1 = tuple.addr ∧ pair.2 ∈ tuple.storageKeys}
  covered _ listed := listed.imp fun _ member => ⟨member.1, member.2.1⟩

/-- The sender, the recipient, the precompiled contracts and what the tuples list. -/
def declared
    (sender : Addr) (recipient : Option Addr) (precompiled : List Addr)
    (accessList : Option (List TxAccessTuple)) : KeyedSets Addr Hash :=
  (KeyedSets.ofKeys
    {addr | addr = sender ∨ recipient = some addr ∨ addr ∈ precompiled}).union
      (ofTuples (accessList.getD []))

namespace Represents

variable {recorded : KeyedSets Addr Hash}

theorem addAddr (represents : list.Represents recorded) (addr : Addr) :
    (list.addAddr addr).1.Represents (recorded.union (.single addr ∅)) := by
  obtain ⟨wellFormed, rfl⟩ := represents
  exact (addAddr_represents wellFormed addr).2

theorem addAddrs (represents : list.Represents recorded) (addrs : List Addr) :
    (addrs.foldl (fun list addr => (list.addAddr addr).1) list).Represents
      (recorded.union (.ofKeys {addr | addr ∈ addrs})) := by
  induction addrs generalizing list recorded with
  | nil =>
      have nothing :
          .ofKeys {addr | addr ∈ ([] : List Addr)} = KeyedSets.empty Addr Hash := by
        ext <;> simp [KeyedSets.ofKeys, KeyedSets.empty]
      rwa [nothing, KeyedSets.union_empty]
  | cons addr addrs inductionHypothesis =>
      have both : (KeyedSets.single addr ∅).union (.ofKeys {other | other ∈ addrs}) =
          (.ofKeys {other | other ∈ addr :: addrs} : KeyedSets Addr Hash) := by
        ext <;> simp [KeyedSets.union, KeyedSets.ofKeys, KeyedSets.single]
      rw [← both, ← KeyedSets.union_assoc]
      exact inductionHypothesis (represents.addAddr addr)

theorem addSlot (represents : list.Represents recorded) (addr : Addr) (slot : Hash) :
    ∃ after flags, list.addSlot addr slot = some (after, flags) ∧
      after.Represents (recorded.union (.single addr {slot})) := by
  obtain ⟨wellFormed, rfl⟩ := represents
  obtain ⟨after, adds, still⟩ := addSlot_represents wellFormed addr slot
  exact ⟨after, _, adds, still⟩

/-- The slots of a tuple join those that its address has. -/
theorem addKeys
    {values : Set Hash}
    (represents : list.Represents (recorded.union (.single addr values)))
    (keys : List Hash) :
    ∃ after, keys.foldlM (fun list key => (list.addSlot addr key).map Prod.fst) list =
        some after ∧
      after.Represents (recorded.union (.single addr (values ∪ {key | key ∈ keys}))) := by
  induction keys generalizing list values with
  | nil => exact ⟨list, rfl, by simpa using represents⟩
  | cons key keys inductionHypothesis =>
      obtain ⟨middle, flags, adds, still⟩ := represents.addSlot addr key
      rw [KeyedSets.union_assoc, KeyedSets.single_union_single] at still
      obtain ⟨after, rest, last⟩ := inductionHypothesis still
      refine ⟨after, ?_, ?_⟩
      · rw [List.foldlM_cons, adds]
        exact rest
      · have both : {key} ∪ {other | other ∈ keys} = {other | other ∈ key :: keys} := by
          ext
          simp
        rwa [← both, ← Set.union_assoc]

theorem addTuple (represents : list.Represents recorded) (tuple : TxAccessTuple) :
    ∃ after, list.addTuple tuple = some after ∧
      after.Represents
        (recorded.union (.single tuple.addr {key | key ∈ tuple.storageKeys})) := by
  obtain ⟨after, adds, still⟩ := (represents.addAddr tuple.addr).addKeys tuple.storageKeys
  rw [Set.empty_union] at still
  exact ⟨after, adds, still⟩

theorem addTuples (represents : list.Represents recorded) (tuples : List TxAccessTuple) :
    ∃ after, tuples.foldlM AccessList.addTuple list = some after ∧
      after.Represents (recorded.union (ofTuples tuples)) := by
  induction tuples generalizing list recorded with
  | nil =>
      have nothing : ofTuples [] = .empty Addr Hash := by
        ext <;> simp [KeyedSets.empty, ofTuples]
      refine ⟨list, rfl, ?_⟩
      rwa [nothing, KeyedSets.union_empty]
  | cons tuple tuples inductionHypothesis =>
      obtain ⟨middle, adds, still⟩ := represents.addTuple tuple
      obtain ⟨after, rest, last⟩ := inductionHypothesis still
      refine ⟨after, ?_, ?_⟩
      · rw [List.foldlM_cons, adds]
        exact rest
      · have both : (KeyedSets.single tuple.addr {key | key ∈ tuple.storageKeys}).union
            (ofTuples tuples) = ofTuples (tuple :: tuples) := by
          ext <;> simp [KeyedSets.union, KeyedSets.single, ofTuples]
        rwa [← both, ← KeyedSets.union_assoc]

end Represents

theorem represents_empty : Represents ⟨∅, []⟩ (.empty Addr Hash) := by
  refine ⟨⟨nofun, nofun⟩, ?_⟩
  ext <;> simp [sets, containsAddr, contains, KeyedSets.empty]

/-- The parameters of a transaction are the start of its list. -/
theorem new_represents
    (sender : Addr) (recipient : Option Addr) (precompiled : List Addr)
    (accessList : Option (List TxAccessTuple)) :
    ∃ list, new sender recipient precompiled accessList = some list ∧
      list.Represents (declared sender recipient precompiled accessList) := by
  have addrs := represents_empty.addAddrs (sender :: (recipient.toList ++ precompiled))
  obtain ⟨list, adds, represents⟩ := addrs.addTuples (accessList.getD [])
  refine ⟨list, ?_, ?_⟩
  · rw [List.foldl_cons, List.foldl_append] at adds
    rw [← adds]
    cases recipient <;> rfl
  · have all : (KeyedSets.empty Addr Hash).union
        (.ofKeys {addr | addr ∈ sender :: (recipient.toList ++ precompiled)}) =
          .ofKeys {addr | addr = sender ∨ recipient = some addr ∨ addr ∈ precompiled} := by
      ext <;> simp [KeyedSets.union, KeyedSets.empty, KeyedSets.ofKeys]
    rwa [all] at represents

end AccessList

/-! ## Runs of operations -/

/-- An operation of the access list, with what it is given. -/
inductive AccessOp
  | containsAddr (addr : Addr)
  | contains (addr : Addr) (slot : Hash)
  | addAddr (addr : Addr)
  | addSlot (addr : Addr) (slot : Hash)

namespace AccessOp

/-- The flags that the operation returns; an index out of bounds is a panic. -/
def run : AccessOp → Procedure AccessList Empty Panic (List Bool)
  | containsAddr addr => fun list => .ok [list.containsAddr addr] list
  | contains addr slot => fun list =>
      match list.contains addr slot with
      | some (addrExist, slotExist) => .ok [addrExist, slotExist] list
      | none => .panic .indexOutOfBounds
  | addAddr addr => fun list => .ok [(list.addAddr addr).2] (list.addAddr addr).1
  | addSlot addr slot => fun list =>
      match list.addSlot addr slot with
      | some (after, addrChanged, slotChanged) => .ok [addrChanged, slotChanged] after
      | none => .panic .indexOutOfBounds

/-- The operation on a set of addresses and a set of slots. -/
noncomputable def model : AccessOp → KeyedSets.Operation Addr Hash (List Bool)
  | containsAddr addr => do
      let addrExist ← KeyedSets.hasKey addr
      pure [addrExist]
  | contains addr slot => do
      let (addrExist, slotExist) ← KeyedSets.hasPair addr slot
      pure [addrExist, slotExist]
  | addAddr addr => do
      let changed ← KeyedSets.addKey addr
      pure [changed]
  | addSlot addr slot => do
      let (addrChanged, slotChanged) ← KeyedSets.addPair addr slot
      pure [addrChanged, slotChanged]

open Classical in
theorem run_follows (op : AccessOp) :
    Procedure.Refines AccessList.Represents id op.run op.model := by
  rintro list _ ⟨wellFormed, rfl⟩
  cases op with
  | containsAddr addr =>
      have answer : list.containsAddr addr = decide (addr ∈ list.sets.keys) := by
        rw [Bool.eq_iff_iff, decide_eq_true_iff]
        rfl
      simp only [run, answer]
      exact .ok _ ⟨wellFormed, rfl⟩
  | contains addr slot =>
      simp only [run, AccessList.contains_eq wellFormed addr slot]
      exact .ok _ ⟨wellFormed, rfl⟩
  | addAddr addr =>
      obtain ⟨grows, represents⟩ := AccessList.addAddr_represents wellFormed addr
      have answer : (list.addAddr addr).2 = decide (addr ∉ list.sets.keys) := by
        rw [Bool.eq_iff_iff, grows, decide_eq_true_iff]
      simp only [run, answer]
      exact .ok _ represents
  | addSlot addr slot =>
      obtain ⟨after, adds, represents⟩ := AccessList.addSlot_represents wellFormed addr slot
      simp only [run, adds]
      exact .ok _ represents

end AccessOp

/-- Whatever a transaction declares, its access list starts as the set of the declared
addresses and slots.  Every run of operations answers what the sets answer and leaves a
list that represents them, whose indices are the sentinel or positions of their own. -/
theorem access_list_refines_sets
    (sender : Addr) (recipient : Option Addr) (precompiled : List Addr)
    (accessList : Option (List TxAccessTuple)) (ops : List AccessOp) :
    ∃ start results list recorded,
      AccessList.new sender recipient precompiled accessList = some start ∧
        Procedure.trace AccessOp.run ops start = .ok results list ∧
        Procedure.trace AccessOp.model ops
          (AccessList.declared sender recipient precompiled accessList) =
            .ok results recorded ∧
        list.WellFormed ∧
        ∀ addr slot,
          (list.containsAddr addr = true ↔ addr ∈ recorded.keys) ∧
            ∃ addrExist slotExist, list.contains addr slot = some (addrExist, slotExist) ∧
              (addrExist = true ↔ addr ∈ recorded.keys) ∧
              (slotExist = true ↔ (addr, slot) ∈ recorded.pairs) := by
  classical
  obtain ⟨start, built, represents⟩ :=
    AccessList.new_represents sender recipient precompiled accessList
  obtain ⟨results, list, recorded, runs, follows, wellFormed, rfl⟩ :=
    Procedure.Refines.trace_same AccessOp.run_follows ops represents
  refine ⟨start, results, list, list.sets, built, runs, follows, wellFormed,
    fun addr slot => ⟨Iff.rfl, _, _, AccessList.contains_eq wellFormed addr slot, ?_, ?_⟩⟩
  · exact decide_eq_true_iff
  · exact decide_eq_true_iff

end Qevm
