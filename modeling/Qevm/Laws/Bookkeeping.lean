import Qevm.Laws.Attachment

/-!
# The books of a chain

Blocks are added and orphans are dropped in any order.  The attached blocks, the orphans
and their waiting lists stay consistent, and so what the chain takes for granted about its
own maps holds: whatever waits is an orphan.
-/

namespace Qevm
namespace Chain

open Block (parent hash)

/-- A call that changes a chain. -/
inductive Call (B : Type)
  | addBlock (block : B)
  | removeOrphans

section Law

variable {B : Type} [Block B]

/-- Serve a call, unless it panics. -/
def serve (self : Chain B) : Call B → Option (Chain B)
  | .addBlock block => (self.addBlock block).map Prod.snd
  | .removeOrphans => some self.removeOrphans

/-- What remains of the blocks that were added when a call is served: those that are
orphans are dropped by `remove_orphans`. -/
def keep (self : Chain B) (kept : List B) : Call B → List B
  | .addBlock block => kept ++ [block]
  | .removeOrphans => kept.filter fun block => !self.isOrphan (hash block)

/-- Serve calls one after the other, and account for the blocks that were added and not
dropped. -/
def serveAll (self : Chain B) (kept : List B) : List (Call B) → Option (List B × Chain B)
  | [] => some (kept, self)
  | call :: calls => do
      let next ← self.serve call
      next.serveAll (self.keep kept call) calls

/-- The maps of a chain are consistent. -/
structure Consistent (base : B) (chain : Chain B) : Prop where
  apart : ∀ {h}, h ∈ chain.attached → h ∉ chain.orphans
  /-- Blocks are stored under their hashes. -/
  hashes : ∀ {h b}, chain.attached.lookup h = some b ∨ chain.orphans.lookup h = some b →
    hash b = h
  /-- The base is attached, and the parents of the other attached blocks are. -/
  rooted : chain.attached.lookup (hash base) = some base
  parents : ∀ {h b}, chain.attached.lookup h = some b → h ≠ hash base →
    parent b ∈ chain.attached
  strays : ∀ {h b}, chain.orphans.lookup h = some b → parent b ∉ chain.attached
  /-- A waiting list holds exactly the orphans with its parent, and every such list is
  there. -/
  waits : ∀ {h p}, (∃ waiting, chain.orphanOn.lookup p = some waiting ∧ h ∈ waiting) ↔
    ∃ b, chain.orphans.lookup h = some b ∧ parent b = p
  nodup : ∀ {p waiting}, chain.orphanOn.lookup p = some waiting → waiting.Nodup
  noEmpty : ∀ {p waiting}, chain.orphanOn.lookup p = some waiting → waiting ≠ []

variable {base block b : B} {kept firsts blocks : List B} {h p : Hash}
variable {chain next : Chain B} {queue waiting : List Hash}

/-! ### Waiting lists are not empty -/

/-- No waiting list is empty. -/
def NoEmpty (chain : Chain B) : Prop :=
  ∀ p waiting, chain.orphanOn.lookup p = some waiting → waiting ≠ []

omit [Block B] in
/-- Clearing the queue leaves some of the waiting lists, as they are. -/
theorem orphanOn_clear
    (run : chain.clear queue = some next) (found : next.orphanOn.lookup p = some waiting) :
    chain.orphanOn.lookup p = some waiting := by
  induction chain, queue using clear.induct with
  | case1 chain =>
      rw [clear] at run
      rwa [Option.some.inj run]
  | case2 chain u queue missing inductionHypothesis =>
      rw [clear] at run
      split at run
      · exact inductionHypothesis run
      · next there =>
          rw [missing] at there
          contradiction
  | case3 chain u queue cleared there stuck =>
      rw [clear] at run
      split at run
      · next missing =>
          rw [there] at missing
          contradiction
      · next other same =>
          rw [there] at same
          cases same
          rw [stuck] at run
          contradiction
  | case4 chain u queue cleared there attached attaches inductionHypothesis =>
      rw [clear] at run
      split at run
      · next missing =>
          rw [there] at missing
          contradiction
      · next other same =>
          rw [there] at same
          cases same
          rw [attaches] at run
          have remains := inductionHypothesis run
          rw [orphanOn_attachAll attaches, HashMap.lookup_erase_eq_ite] at remains
          split at remains
          · contradiction
          · exact remains

/-- A waiting list is made with the orphan that waits. -/
theorem NoEmpty.addBlock
    (noEmpty : chain.NoEmpty) (run : chain.addBlock block = some (b, next)) :
    next.NoEmpty := by
  unfold Chain.addBlock at run
  split at run
  · obtain ⟨-, rfl⟩ := Prod.mk.inj (Option.some.inj run)
    exact noEmpty
  · split at run
    · obtain ⟨-, rfl⟩ := Prod.mk.inj (Option.some.inj run)
      exact noEmpty
    · split at run
      · obtain ⟨-, rfl⟩ := Prod.mk.inj (Option.some.inj run)
        intro p waiting found
        by_cases same : p = parent block
        · subst same
          rw [HashMap.lookup_modify] at found
          rw [← Option.some.inj found]
          exact List.append_ne_nil_of_right_ne_nil _ (List.cons_ne_nil _ _)
        · rw [HashMap.lookup_modify_ne same] at found
          exact noEmpty p waiting found
      · obtain ⟨last, clears, pair⟩ := Option.map_eq_some_iff.mp run
        obtain ⟨-, rfl⟩ := Prod.mk.inj pair
        intro p waiting found
        have there := orphanOn_clear clears found
        exact noEmpty p waiting there

/-! ### The blocks that are kept -/

/-- What is selected by hashes is looked up as before. -/
theorem firstAdded_filter
    (selected : Hash → Bool) (rooted : selected (hash base) = true) :
    firstAdded base (blocks.filter fun block => selected (hash block)) h =
      if selected h then firstAdded base blocks h else none := by
  have whole : base :: blocks.filter (fun block => selected (hash block)) =
      (base :: blocks).filter fun block => selected (hash block) := by
    rw [List.filter_cons, if_pos rooted]
  unfold firstAdded
  rw [whole, List.find?_filter]
  split
  · next chosen =>
      congr 1
      funext block
      by_cases same : hash block = h
      · simp [same, chosen]
      · simp [same]
  · next refused =>
      apply List.find?_eq_none.mpr
      intro block _
      by_cases same : hash block = h
      · simp [same, refused]
      · simp [same]

/-- A chain stands for the blocks that were added and not dropped; without repeated
hashes they are the first ones. -/
structure Tracked (base : B) (kept firsts : List B) (chain : Chain B) : Prop where
  placed : Placed base firsts [] chain
  distinct : ∀ block ∈ firsts, ∀ b ∈ firsts, hash block = hash b → block = b
  same : ∀ h, firstAdded base kept h = firstAdded base firsts h
  noEmpty : chain.NoEmpty

namespace Tracked

/-- Blocks without repeated hashes are identified by them. -/
theorem identified (tracked : Tracked base kept firsts chain) :
    ∀ block ∈ firsts, ∀ b ∈ firsts, hash block = hash b → parent block = parent b :=
  fun block member b other sameHash =>
    congrArg parent (tracked.distinct block member b other sameHash)

theorem attached_iff (tracked : Tracked base kept firsts chain) :
    h ∈ chain.attached ↔ Linked base firsts h :=
  ⟨tracked.placed.linked, tracked.placed.attached_of_linked tracked.identified⟩

/-- A known block changes nothing. -/
theorem addBlock_known
    (tracked : Tracked base kept firsts chain)
    (known : firstAdded base firsts (hash block) = some b) :
    chain.addBlock block = some (b, chain) ∧
      Tracked base (kept ++ [block]) firsts chain := by
  constructor
  · unfold addBlock
    split
    · next found =>
        have first := tracked.placed.attachedFirst found
        rw [Option.some.inj (first.symm.trans known)]
    · next unattached =>
        have orphaned := (tracked.placed.known known).resolve_left
          (AList.lookup_eq_none.mp unattached)
        obtain ⟨o, found⟩ := Option.isSome_iff_exists.mp
          (AList.lookup_isSome.mpr orphaned)
        have first := tracked.placed.orphansFirst found
        rw [found, Option.some.inj (first.symm.trans known)]
  · have sameKnown := (tracked.same (hash block)).trans known
    exact { tracked with
      same := fun h => (firstAdded_again sameKnown).trans (tracked.same h) }

/-- A block that is not known is one more. -/
theorem addBlock_fresh
    (tracked : Tracked base kept firsts chain)
    (fresh : firstAdded base firsts (hash block) = none) :
    ∃ b next, chain.addBlock block = some (b, next) ∧
      Tracked base (kept ++ [block]) (firsts ++ [block]) next := by
  obtain ⟨b, next, run, -, placed⟩ := addBlock_placed tracked.placed block
  refine ⟨b, next, run, placed, ?_, ?_, tracked.noEmpty.addBlock run⟩
  · have unlike : ∀ other ∈ firsts, hash other ≠ hash block := by
      intro other member sameHash
      have known := firstAdded_isSome base member
      rw [sameHash, fresh] at known
      contradiction
    intro left leftMember right rightMember sameHash
    obtain leftMember | leftNew := List.mem_append.mp leftMember <;>
      obtain rightMember | rightNew := List.mem_append.mp rightMember
    · exact tracked.distinct left leftMember right rightMember sameHash
    · rw [List.mem_singleton.mp rightNew] at sameHash
      exact absurd sameHash (unlike left leftMember)
    · rw [List.mem_singleton.mp leftNew] at sameHash
      exact absurd sameHash.symm (unlike right rightMember)
    · rw [List.mem_singleton.mp leftNew, List.mem_singleton.mp rightNew]
  · intro h
    have sameFresh := (tracked.same (hash block)).trans fresh
    rw [firstAdded_new fresh, firstAdded_new sameFresh, tracked.same]

/-- What is linked is linked by blocks that are no orphans. -/
theorem linked_filter
    (tracked : Tracked base kept firsts chain) (linked : Linked base firsts h) :
    Linked base (firsts.filter fun block => !chain.isOrphan (hash block)) h := by
  induction linked with
  | base => exact .base
  | @child block member parentLinked inductionHypothesis =>
      have attached := tracked.attached_iff.mpr (.child member parentLinked)
      have noOrphan : chain.isOrphan (hash block) = false := by
        rw [isOrphan, Bool.eq_false_iff, ne_eq, AList.lookup_isSome]
        exact tracked.placed.apart attached
      exact .child (List.mem_filter.mpr ⟨member, by rw [noOrphan]; rfl⟩) inductionHypothesis

/-- Dropping the orphans drops the blocks that are orphans. -/
theorem removeOrphans (tracked : Tracked base kept firsts chain) :
    Tracked base (kept.filter fun block => !chain.isOrphan (hash block))
      (firsts.filter fun block => !chain.isOrphan (hash block)) chain.removeOrphans := by
  have orphan : ∀ h, chain.isOrphan h = true ↔ h ∈ chain.orphans := fun h => by
    rw [isOrphan, AList.lookup_isSome]
  have attachedKept : ∀ {h}, h ∈ chain.attached → (!chain.isOrphan h) = true := by
    intro h attached
    rw [Bool.not_eq_true', Bool.eq_false_iff, ne_eq, orphan]
    exact tracked.placed.apart attached
  have rooted := attachedKept tracked.placed.rooted
  have filtered {blocks : List B} {h : Hash} :
      firstAdded base (blocks.filter fun block => !chain.isOrphan (hash block)) h =
        if !chain.isOrphan h then firstAdded base blocks h else none :=
    firstAdded_filter (fun h => !chain.isOrphan h) rooted
  refine ⟨?_, ?_, ?_, ?_⟩
  · refine ⟨?_, ?_, ?_, ?_, ?_, ?_, ?_, ?_, ?_, ?_⟩
    · intro h b found
      have attached : h ∈ chain.attached := AList.lookup_isSome.mp (found ▸ rfl)
      rw [filtered, if_pos (attachedKept attached)]
      exact tracked.placed.attachedFirst found
    · intro h b found
      contradiction
    · intro h b first
      rw [filtered] at first
      split at first
      · next noOrphan =>
          obtain attached | orphaned := tracked.placed.known first
          · exact .inl attached
          · rw [(orphan h).mpr orphaned] at noOrphan
            contradiction
      · contradiction
    · exact fun _ => AList.notMem_empty _
    · exact tracked.placed.rooted
    · exact fun attached => tracked.linked_filter (tracked.placed.linked attached)
    · intro h member
      contradiction
    · simp [Chain.removeOrphans]
    · exact fun _ => List.nodup_nil
    · intro h b found
      contradiction
  · intro block member b other sameHash
    exact tracked.distinct block (List.mem_filter.mp member).1 b
      (List.mem_filter.mp other).1 sameHash
  · intro h
    rw [filtered, filtered, tracked.same]
  · intro p waiting found
    contradiction

/-- Every call is served, and the chain stands for what is kept. -/
theorem serve (tracked : Tracked base kept firsts chain) (call : Call B) :
    ∃ more next, chain.serve call = some next ∧
      Tracked base (chain.keep kept call) more next := by
  cases call with
  | addBlock block =>
      cases first : firstAdded base firsts (hash block) with
      | some b =>
          obtain ⟨run, next⟩ := tracked.addBlock_known first
          exact ⟨firsts, chain, by rw [Chain.serve, run]; rfl, next⟩
      | none =>
          obtain ⟨b, next, run, tracked⟩ := tracked.addBlock_fresh first
          exact ⟨firsts ++ [block], next, by rw [Chain.serve, run]; rfl, tracked⟩
  | removeOrphans => exact ⟨_, chain.removeOrphans, rfl, tracked.removeOrphans⟩

theorem serveAll (tracked : Tracked base kept firsts chain) (calls : List (Call B)) :
    ∃ last more next, chain.serveAll kept calls = some (last, next) ∧
      Tracked base last more next := by
  induction calls generalizing kept firsts chain with
  | nil => exact ⟨kept, firsts, chain, rfl, tracked⟩
  | cons call calls inductionHypothesis =>
      obtain ⟨more, next, run, following⟩ := tracked.serve call
      obtain ⟨last, others, final, rest, done⟩ := inductionHypothesis following
      exact ⟨last, others, final, by rw [Chain.serveAll, run]; exact rest, done⟩

/-- A chain that stands for blocks is consistent. -/
theorem consistent (tracked : Tracked base kept firsts chain) : Consistent base chain where
  apart := tracked.placed.apart
  hashes := by
    rintro h b (found | found)
    · exact firstAdded_hash (tracked.placed.attachedFirst found)
    · exact firstAdded_hash (tracked.placed.orphansFirst found)
  rooted := by
    obtain ⟨b, found⟩ := Option.isSome_iff_exists.mp
      (AList.lookup_isSome.mpr tracked.placed.rooted)
    have first := tracked.placed.attachedFirst found
    have isBase : firstAdded base firsts (hash base) = some base := by simp [firstAdded]
    rw [found, ← first, isBase]
  parents := by
    intro h b found other
    have first := tracked.placed.attachedFirst found
    have sameHash := firstAdded_hash first
    have attached : h ∈ chain.attached := AList.lookup_isSome.mp (found ▸ rfl)
    have member : b ∈ firsts := (firstAdded_mem first).resolve_left fun isBase =>
      other (by rw [← sameHash, isBase])
    cases tracked.placed.linked attached with
    | base => contradiction
    | @child block added parentLinked =>
        rw [tracked.distinct b member block added sameHash]
        exact tracked.attached_iff.mpr parentLinked
  strays := fun found attached =>
    absurd (tracked.placed.queued found attached) List.not_mem_nil
  waits := by
    intro h p
    rw [← tracked.placed.waits]
    cases found : chain.orphanOn.lookup p with
    | none => simp
    | some waiting => simp
  nodup := by
    intro p waiting found
    have nodup := tracked.placed.nodup p
    rwa [found] at nodup
  noEmpty := tracked.noEmpty _ _

end Tracked

/-- Whatever the calls, none of them panics, the maps of the chain are consistent, and
exactly the base and the blocks that were added and not dropped are found. -/
theorem books_are_kept (base : B) (calls : List (Call B)) :
    ∃ kept chain, (new base).serveAll [] calls = some (kept, chain) ∧
      Consistent base chain ∧ ∀ h, chain.getBlock h = firstAdded base kept h := by
  have start : Tracked base [] [] (new base) :=
    { placed := placed_new base
      distinct := fun _ member => absurd member List.not_mem_nil
      same := fun _ => rfl
      noEmpty := fun _ _ found => nomatch found }
  obtain ⟨kept, firsts, chain, run, tracked⟩ := start.serveAll calls
  refine ⟨kept, chain, run, tracked.consistent, fun h => ?_⟩
  rw [tracked.same, tracked.placed.getBlock_eq]

end Law

end Chain
end Qevm
