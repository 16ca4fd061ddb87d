import Qevm.Chain

/-!
# The order in which blocks arrive

Whatever the order in which blocks are added, the attached ones are those that
are linked to the base through their parents, and the others are orphans.
-/

namespace Qevm
namespace Chain

open Block (parent hash)

variable {B : Type} [Block B]

/-- The hashes that are linked to the base: that of the base, and that of every
added block whose parent is linked. -/
inductive Linked (base : B) (blocks : List B) : Hash → Prop
  | base : Linked base blocks (hash base)
  | child {block : B} :
      block ∈ blocks → Linked base blocks (parent block) →
        Linked base blocks (hash block)

/-- The first object with a hash, among the base and the added blocks. -/
def firstAdded (base : B) (blocks : List B) (h : Hash) : Option B :=
  (base :: blocks).find? fun block => hash block = h

variable {base block b : B} {blocks more : List B} {h : Hash}

/-- More blocks link more hashes. -/
theorem Linked.mono
    (linked : Linked base blocks h)
    (included : ∀ block ∈ blocks, ∃ b ∈ more, hash b = hash block ∧
      parent b = parent block) :
    Linked base more h := by
  induction linked with
  | base => exact .base
  | child member _ inductionHypothesis =>
      obtain ⟨b, found, sameHash, sameParent⟩ := included _ member
      rw [← sameHash]
      apply Linked.child found
      rw [sameParent]
      exact inductionHypothesis

theorem Linked.append
    (linked : Linked base blocks h) : Linked base (blocks ++ more) h :=
  linked.mono fun block member =>
    ⟨block, List.mem_append_left more member, rfl, rfl⟩

theorem firstAdded_hash (found : firstAdded base blocks h = some b) : hash b = h := by
  simpa using List.find?_some found

theorem firstAdded_mem
    (found : firstAdded base blocks h = some b) : b = base ∨ b ∈ blocks :=
  List.mem_cons.mp (List.mem_of_find?_eq_some found)

theorem firstAdded_isSome (base : B) (member : block ∈ blocks) :
    (firstAdded base blocks (hash block)).isSome := by
  apply List.find?_isSome.mpr
  exact ⟨block, List.mem_cons_of_mem base member, by simp⟩

theorem firstAdded_append :
    firstAdded base (blocks ++ [block]) h =
      (firstAdded base blocks h).or (if hash block = h then some block else none) := by
  unfold firstAdded
  rw [← List.cons_append, List.find?_append, List.find?_singleton]
  simp only [decide_eq_true_eq]

/-- A block whose hash is known is not the first with any hash. -/
theorem firstAdded_again
    (known : firstAdded base blocks (hash block) = some b) :
    firstAdded base (blocks ++ [block]) h = firstAdded base blocks h := by
  rw [firstAdded_append]
  by_cases same : hash block = h
  · subst same
    rw [known]
    rfl
  · simp [same]

/-- A block whose hash is not known is the first with its hash. -/
theorem firstAdded_new
    (fresh : firstAdded base blocks (hash block) = none) :
    firstAdded base (blocks ++ [block]) h =
      if h = hash block then some block else firstAdded base blocks h := by
  rw [firstAdded_append]
  by_cases same : h = hash block
  · subst same
    simp [fresh]
  · simp [same, Ne.symm same]

/-- The first object stays the first. -/
theorem firstAdded_stays
    (found : firstAdded base blocks h = some b) (more : List B) :
    firstAdded base (blocks ++ more) h = some b := by
  unfold firstAdded at found ⊢
  rw [← List.cons_append, List.find?_append, found]
  rfl

/-- A chain to which blocks were added, while the waiting lists of the blocks of
a queue are still to be cleared. -/
structure Placed
    (base : B) (blocks : List B) (queue : List Hash) (chain : Chain B) : Prop where
  attachedFirst : ∀ {h b}, chain.attached.lookup h = some b →
    firstAdded base blocks h = some b
  orphansFirst : ∀ {h b}, chain.orphans.lookup h = some b →
    firstAdded base blocks h = some b
  known : ∀ {h b}, firstAdded base blocks h = some b →
    h ∈ chain.attached ∨ h ∈ chain.orphans
  apart : ∀ {h}, h ∈ chain.attached → h ∉ chain.orphans
  rooted : hash base ∈ chain.attached
  linked : ∀ {h}, h ∈ chain.attached → Linked base blocks h
  queueAttached : ∀ {h}, h ∈ queue → h ∈ chain.attached
  /-- A waiting list holds the orphans with its parent. -/
  waits : ∀ {h p}, h ∈ (chain.orphanOn.lookup p).getD [] ↔
    ∃ b, chain.orphans.lookup h = some b ∧ parent b = p
  nodup : ∀ p, ((chain.orphanOn.lookup p).getD []).Nodup
  /-- An orphan with an attached parent waits for the queue. -/
  queued : ∀ {h b}, chain.orphans.lookup h = some b →
    parent b ∈ chain.attached → parent b ∈ queue

variable {chain : Chain B} {queue : List Hash} {u : Hash}

theorem placed_new (base : B) : Placed base [] [] (new base) where
  attachedFirst := by
    intro h b found
    rw [new, HashMap.lookup_insert_eq_ite] at found
    split at found
    · next same =>
        rw [← Option.some.inj found, same]
        simp [firstAdded]
    · contradiction
  orphansFirst := by
    intro h b found
    contradiction
  known := by
    intro h b found
    obtain same | member := firstAdded_mem found
    · apply Or.inl
      rw [← firstAdded_hash found, same]
      exact (AList.mem_insert _).mpr (.inl rfl)
    · contradiction
  apart := fun _ => AList.notMem_empty _
  rooted := (AList.mem_insert _).mpr (.inl rfl)
  linked := by
    intro h member
    obtain same | missing := (AList.mem_insert _).mp member
    · rw [same]
      exact .base
    · exact absurd missing (AList.notMem_empty _)
  queueAttached := by
    intro h member
    contradiction
  waits := by simp [new]
  nodup := fun _ => List.nodup_nil
  queued := by
    intro h b found
    contradiction

omit [Block B] in
/-- The orphans of a list without repetition are attached, and nothing else
changes. -/
theorem attachAll_spec
    (self : Chain B) {waiting : List Hash} (nodup : waiting.Nodup)
    (orphaned : ∀ h ∈ waiting, h ∈ self.orphans) :
    ∃ next, self.attachAll waiting = some next ∧
      (∀ h, next.orphans.lookup h =
        if h ∈ waiting then none else self.orphans.lookup h) ∧
      ∀ h, next.attached.lookup h =
        if h ∈ waiting then self.orphans.lookup h else self.attached.lookup h := by
  induction waiting generalizing self with
  | nil => exact ⟨self, rfl, fun _ => rfl, fun _ => rfl⟩
  | cons orphan waiting inductionHypothesis =>
      obtain ⟨fresh, restNodup⟩ := List.nodup_cons.mp nodup
      obtain ⟨o, found⟩ := Option.isSome_iff_exists.mp
        (AList.lookup_isSome.mpr (orphaned orphan List.mem_cons_self))
      have stillOrphaned : ∀ h ∈ waiting, h ∈ self.orphans.erase orphan := by
        intro h member
        apply AList.mem_erase.mpr
        constructor
        · intro same
          exact fresh (same ▸ member)
        · exact orphaned h (List.mem_cons_of_mem orphan member)
      obtain ⟨next, run, orphans, attached⟩ :=
        inductionHypothesis { self with
          orphans := self.orphans.erase orphan
          attached := self.attached.insert orphan o } restNodup stillOrphaned
      refine ⟨next, ?_, ?_, ?_⟩
      · rw [attachAll, found]
        exact run
      · intro h
        rw [orphans, HashMap.lookup_erase_eq_ite]
        by_cases same : h = orphan
        · simp [same]
        · simp [same]
      · intro h
        rw [attached, HashMap.lookup_erase_eq_ite, HashMap.lookup_insert_eq_ite]
        by_cases same : h = orphan
        · subst same
          simp [fresh, found]
        · simp [same]

/-- The first block of the queue is dropped when nothing waits for it. -/
theorem Placed.drop
    (placed : Placed base blocks (u :: queue) chain)
    (missing : chain.orphanOn.lookup u = none) :
    Placed base blocks queue chain :=
  { placed with
    queueAttached := fun member => placed.queueAttached (List.mem_cons_of_mem u member)
    queued := by
      intro h o found attached
      obtain same | queued := List.mem_cons.mp (placed.queued found attached)
      · have waits := placed.waits.mpr ⟨o, found, same⟩
        rw [missing] at waits
        contradiction
      · exact queued }

/-- Clearing the waiting list of the first block of the queue queues the blocks
of that list. -/
theorem Placed.attach
    {waiting : List Hash} {next : Chain B}
    (placed : Placed base blocks (u :: queue) chain)
    (found : chain.orphanOn.lookup u = some waiting)
    (orphanOn : next.orphanOn = chain.orphanOn.erase u)
    (orphans : ∀ h, next.orphans.lookup h =
      if h ∈ waiting then none else chain.orphans.lookup h)
    (attached : ∀ h, next.attached.lookup h =
      if h ∈ waiting then chain.orphans.lookup h else chain.attached.lookup h) :
    Placed base blocks (queue ++ waiting) next := by
  have inWaiting : ∀ {h}, h ∈ waiting ↔
      ∃ o, chain.orphans.lookup h = some o ∧ parent o = u := by
    intro h
    have waits := placed.waits (h := h) (p := u)
    rw [found] at waits
    exact waits
  have stillOrphaned : ∀ {h o}, next.orphans.lookup h = some o →
      h ∉ waiting ∧ chain.orphans.lookup h = some o := by
    intro h o lookup
    rw [orphans] at lookup
    split at lookup
    · contradiction
    · next fresh => exact ⟨fresh, lookup⟩
  have nowAttached : ∀ {h}, h ∈ next.attached ↔ h ∈ waiting ∨ h ∈ chain.attached := by
    intro h
    rw [← AList.lookup_isSome, ← AList.lookup_isSome, attached]
    by_cases member : h ∈ waiting
    · obtain ⟨o, lookup, _⟩ := inWaiting.mp member
      simp [member, lookup]
    · simp [member]
  have waitingLists : ∀ p, (next.orphanOn.lookup p).getD [] =
      if p = u then [] else (chain.orphanOn.lookup p).getD [] := by
    intro p
    rw [orphanOn, HashMap.lookup_erase_eq_ite]
    by_cases same : p = u
    · simp [same]
    · simp [same]
  refine ⟨?_, ?_, ?_, ?_, ?_, ?_, ?_, ?_, ?_, ?_⟩
  · intro h o lookup
    rw [attached] at lookup
    split at lookup
    · exact placed.orphansFirst lookup
    · exact placed.attachedFirst lookup
  · intro h o lookup
    exact placed.orphansFirst (stillOrphaned lookup).2
  · intro h o lookup
    by_cases member : h ∈ waiting
    · exact .inl (nowAttached.mpr (.inl member))
    · obtain old | old := placed.known lookup
      · exact .inl (nowAttached.mpr (.inr old))
      · apply Or.inr
        rw [← AList.lookup_isSome, orphans, if_neg member, AList.lookup_isSome]
        exact old
  · intro h member orphaned
    obtain ⟨o, lookup⟩ := Option.isSome_iff_exists.mp (AList.lookup_isSome.mpr orphaned)
    obtain ⟨fresh, old⟩ := stillOrphaned lookup
    have was := (nowAttached.mp member).resolve_left fresh
    exact placed.apart was (AList.lookup_isSome.mp (old ▸ rfl))
  · exact nowAttached.mpr (.inr placed.rooted)
  · intro h member
    obtain member | old := nowAttached.mp member
    · obtain ⟨o, lookup, childOf⟩ := inWaiting.mp member
      have first := placed.orphansFirst lookup
      rw [← firstAdded_hash first]
      obtain same | added := firstAdded_mem first
      · rw [same]
        exact .base
      · apply Linked.child added
        rw [childOf]
        exact placed.linked (placed.queueAttached List.mem_cons_self)
    · exact placed.linked old
  · intro h member
    apply nowAttached.mpr
    obtain member | member := List.mem_append.mp member
    · exact .inr (placed.queueAttached (List.mem_cons_of_mem u member))
    · exact .inl member
  · intro h p
    rw [waitingLists]
    split
    · next same =>
        constructor
        · intro member
          contradiction
        · rintro ⟨o, lookup, childOf⟩
          obtain ⟨fresh, old⟩ := stillOrphaned lookup
          exact absurd (inWaiting.mpr ⟨o, old, childOf.trans same⟩) fresh
    · next different =>
        rw [placed.waits]
        constructor
        · rintro ⟨o, lookup, childOf⟩
          have fresh : h ∉ waiting := by
            intro member
            obtain ⟨other, sameLookup, otherParent⟩ := inWaiting.mp member
            rw [lookup] at sameLookup
            rw [← Option.some.inj sameLookup, childOf] at otherParent
            exact different otherParent
          exact ⟨o, by rw [orphans, if_neg fresh, lookup], childOf⟩
        · rintro ⟨o, lookup, childOf⟩
          exact ⟨o, (stillOrphaned lookup).2, childOf⟩
  · intro p
    rw [waitingLists]
    split
    · exact List.nodup_nil
    · exact placed.nodup p
  · intro h o lookup member
    obtain ⟨fresh, old⟩ := stillOrphaned lookup
    apply List.mem_append.mpr
    obtain member | member := nowAttached.mp member
    · exact .inr member
    · obtain same | queued := List.mem_cons.mp (placed.queued old member)
      · exact absurd (inWaiting.mpr ⟨o, old, same⟩) fresh
      · exact .inl queued

/-- Attaching the orphans that wait for the first block of the queue does not
panic. -/
theorem Placed.attachAll
    {waiting : List Hash}
    (placed : Placed base blocks (u :: queue) chain)
    (found : chain.orphanOn.lookup u = some waiting) :
    ∃ next,
      Chain.attachAll { chain with orphanOn := chain.orphanOn.erase u } waiting =
        some next ∧
      Placed base blocks (queue ++ waiting) next := by
  have nodup := placed.nodup u
  have waits := fun h => placed.waits (h := h) (p := u)
  rw [found] at nodup waits
  have orphaned : ∀ h ∈ waiting, h ∈ chain.orphans := by
    intro h member
    obtain ⟨o, lookup, _⟩ := (waits h).mp member
    exact AList.lookup_isSome.mp (lookup ▸ rfl)
  obtain ⟨next, run, orphans, attached⟩ :=
    attachAll_spec { chain with orphanOn := chain.orphanOn.erase u } nodup orphaned
  exact ⟨next, run, placed.attach found (orphanOn_attachAll run) orphans attached⟩

/-- The waiting lists of a queue are cleared. -/
theorem clear_placed
    (placed : Placed base blocks queue chain) :
    ∃ next, chain.clear queue = some next ∧ Placed base blocks [] next := by
  induction chain, queue using clear.induct with
  | case1 chain => exact ⟨chain, by rw [clear], placed⟩
  | case2 chain u queue missing inductionHypothesis =>
      obtain ⟨next, run, done⟩ := inductionHypothesis (placed.drop missing)
      refine ⟨next, ?_, done⟩
      rw [clear]
      split
      · exact run
      · next found =>
          rw [missing] at found
          contradiction
  | case3 chain u queue waiting found stuck =>
      obtain ⟨next, run, _⟩ := placed.attachAll found
      rw [stuck] at run
      contradiction
  | case4 chain u queue waiting found attached run inductionHypothesis =>
      obtain ⟨next, sameRun, attachedPlaced⟩ := placed.attachAll found
      rw [run] at sameRun
      obtain ⟨last, rest, done⟩ :=
        inductionHypothesis (Option.some.inj sameRun ▸ attachedPlaced)
      refine ⟨last, ?_, done⟩
      rw [clear]
      split
      · next missing =>
          rw [found] at missing
          contradiction
      · next other sameFound =>
          rw [found] at sameFound
          cases sameFound
          rw [run]
          exact rest

theorem Placed.again
    (placed : Placed base blocks [] chain)
    (known : firstAdded base blocks (hash block) = some b) :
    Placed base (blocks ++ [block]) [] chain :=
  { placed with
    attachedFirst := fun lookup => firstAdded_stays (placed.attachedFirst lookup) _
    orphansFirst := fun lookup => firstAdded_stays (placed.orphansFirst lookup) _
    known := by
      intro h o first
      rw [firstAdded_again known] at first
      exact placed.known first
    linked := fun member => (placed.linked member).append }

/-- A block whose hash is not known and whose parent is not attached waits. -/
theorem Placed.wait
    (placed : Placed base blocks [] chain)
    (fresh : firstAdded base blocks (hash block) = none)
    (detached : parent block ∉ chain.attached) :
    Placed base (blocks ++ [block]) [] { chain with
      orphanOn := HashMap.modify chain.orphanOn (parent block) []
        fun waiting => waiting ++ [hash block]
      orphans := chain.orphans.insert (hash block) block } := by
  have unattached : hash block ∉ chain.attached := by
    intro member
    obtain ⟨o, lookup⟩ := Option.isSome_iff_exists.mp (AList.lookup_isSome.mpr member)
    rw [placed.attachedFirst lookup] at fresh
    contradiction
  have unorphaned : chain.orphans.lookup (hash block) = none := by
    by_contra known
    obtain ⟨o, lookup⟩ := Option.ne_none_iff_exists'.mp known
    rw [placed.orphansFirst lookup] at fresh
    contradiction
  have waitingLists : ∀ p, ((HashMap.modify chain.orphanOn (parent block) []
      fun waiting => waiting ++ [hash block]).lookup p).getD [] =
      (chain.orphanOn.lookup p).getD [] ++
        if p = parent block then [hash block] else [] := by
    intro p
    by_cases same : p = parent block
    · subst same
      simp
    · rw [HashMap.lookup_modify_ne same]
      simp [same]
  refine ⟨?_, ?_, ?_, ?_, ?_, ?_, ?_, ?_, ?_, ?_⟩
  · intro h o lookup
    exact firstAdded_stays (placed.attachedFirst lookup) _
  · intro h o lookup
    rw [HashMap.lookup_insert_eq_ite] at lookup
    rw [firstAdded_new fresh]
    split at lookup
    · next same => rw [if_pos same, lookup]
    · next different => rw [if_neg different, placed.orphansFirst lookup]
  · intro h o first
    rw [firstAdded_new fresh] at first
    split at first
    · next same => exact .inr ((AList.mem_insert _).mpr (.inl same))
    · exact (placed.known first).imp_right fun member =>
        (AList.mem_insert _).mpr (.inr member)
  · intro h member orphaned
    obtain same | orphaned := (AList.mem_insert _).mp orphaned
    · exact unattached (same ▸ member)
    · exact placed.apart member orphaned
  · exact placed.rooted
  · exact fun member => (placed.linked member).append
  · exact placed.queueAttached
  · intro h p
    rw [waitingLists, List.mem_append, placed.waits, HashMap.lookup_insert_eq_ite]
    by_cases same : h = hash block
    · subst same
      simp [unorphaned, eq_comm]
    · by_cases sameParent : p = parent block
      · simp [same, sameParent]
      · simp [same, sameParent]
  · intro p
    rw [waitingLists]
    apply List.Nodup.append (placed.nodup p)
    · split
      · exact List.nodup_singleton _
      · exact List.nodup_nil
    · intro h member new
      obtain ⟨o, lookup, _⟩ := placed.waits.mp member
      split at new
      · rw [List.mem_singleton.mp new, unorphaned] at lookup
        contradiction
      · contradiction
  · intro h o lookup attached
    rw [HashMap.lookup_insert_eq_ite] at lookup
    split at lookup
    · rw [← Option.some.inj lookup] at attached
      exact absurd attached detached
    · exact placed.queued lookup attached

/-- A block whose hash is not known and whose parent is attached is attached, and
queued. -/
theorem Placed.join
    (placed : Placed base blocks [] chain)
    (fresh : firstAdded base blocks (hash block) = none)
    (attached : parent block ∈ chain.attached) :
    Placed base (blocks ++ [block]) [hash block] { chain with
      attached := chain.attached.insert (hash block) block } := by
  have unorphaned : hash block ∉ chain.orphans := by
    intro member
    obtain ⟨o, lookup⟩ := Option.isSome_iff_exists.mp (AList.lookup_isSome.mpr member)
    rw [placed.orphansFirst lookup] at fresh
    contradiction
  refine ⟨?_, ?_, ?_, ?_, ?_, ?_, ?_, ?_, ?_, ?_⟩
  · intro h o lookup
    rw [HashMap.lookup_insert_eq_ite] at lookup
    rw [firstAdded_new fresh]
    split at lookup
    · next same => rw [if_pos same, lookup]
    · next different => rw [if_neg different, placed.attachedFirst lookup]
  · intro h o lookup
    exact firstAdded_stays (placed.orphansFirst lookup) _
  · intro h o first
    rw [firstAdded_new fresh] at first
    split at first
    · next same => exact .inl ((AList.mem_insert _).mpr (.inl same))
    · exact (placed.known first).imp_left fun member =>
        (AList.mem_insert _).mpr (.inr member)
  · intro h member orphaned
    obtain same | member := (AList.mem_insert _).mp member
    · exact unorphaned (same ▸ orphaned)
    · exact placed.apart member orphaned
  · exact (AList.mem_insert _).mpr (.inr placed.rooted)
  · intro h member
    obtain same | member := (AList.mem_insert _).mp member
    · rw [same]
      exact .child (List.mem_append_right _ (List.mem_singleton_self _))
        (placed.linked attached).append
    · exact (placed.linked member).append
  · intro h member
    exact (AList.mem_insert _).mpr (.inl (List.mem_singleton.mp member))
  · exact placed.waits
  · exact placed.nodup
  · intro h o lookup member
    obtain same | member := (AList.mem_insert _).mp member
    · exact List.mem_singleton.mpr same
    · exact absurd (placed.queued lookup member) List.not_mem_nil

/-- Adding a block returns the first object with its hash. -/
theorem addBlock_placed
    (placed : Placed base blocks [] chain) (block : B) :
    ∃ b next, chain.addBlock block = some (b, next) ∧
      firstAdded base (blocks ++ [block]) (hash block) = some b ∧
      Placed base (blocks ++ [block]) [] next := by
  rw [addBlock]
  split
  · next b found =>
      have first := placed.attachedFirst found
      exact ⟨b, chain, rfl, firstAdded_stays first _, placed.again first⟩
  · next unattached =>
      split
      · next b found =>
          have first := placed.orphansFirst found
          exact ⟨b, chain, rfl, firstAdded_stays first _, placed.again first⟩
      · next unorphaned =>
          have fresh : firstAdded base blocks (hash block) = none := by
            by_contra known
            obtain ⟨o, first⟩ := Option.ne_none_iff_exists'.mp known
            obtain member | member := placed.known first
            · exact AList.lookup_eq_none.mp unattached member
            · exact AList.lookup_eq_none.mp unorphaned member
          have first : firstAdded base (blocks ++ [block]) (hash block) = some block := by
            rw [firstAdded_new fresh, if_pos rfl]
          split
          · next missing =>
              exact ⟨block, _, rfl, first,
                placed.wait fresh (AList.lookup_eq_none.mp missing)⟩
          · next p found =>
              have attached : parent block ∈ chain.attached :=
                AList.lookup_isSome.mp (found ▸ rfl)
              obtain ⟨next, run, done⟩ := clear_placed (placed.join fresh attached)
              exact ⟨block, next, by rw [run]; rfl, first, done⟩

/-- Adding blocks returns the first object with the hash of each of them. -/
theorem addBlocks_placed
    (placed : Placed base blocks [] chain) (more : List B) :
    ∃ returned next, chain.addBlocks more = some (returned, next) ∧
      returned.map some =
        more.map (fun block => firstAdded base (blocks ++ more) (hash block)) ∧
      Placed base (blocks ++ more) [] next := by
  induction more generalizing blocks chain with
  | nil => exact ⟨[], chain, rfl, rfl, by rwa [List.append_nil]⟩
  | cons block more inductionHypothesis =>
      obtain ⟨b, next, run, first, added⟩ := addBlock_placed placed block
      obtain ⟨returned, last, rest, objects, done⟩ := inductionHypothesis added
      rw [List.append_assoc] at objects done
      have stays := firstAdded_stays first more
      rw [List.append_assoc] at stays
      refine ⟨b :: returned, last, ?_, ?_, done⟩
      · simp [addBlocks, run, rest]
      · rw [List.map_cons, List.map_cons, objects]
        exact congrArg (· :: _) stays.symm

/-- When nothing is queued, the linked hashes are attached. -/
theorem Placed.attached_of_linked
    (placed : Placed base blocks [] chain)
    (identified : ∀ block ∈ blocks, ∀ b ∈ blocks,
      hash block = hash b → parent block = parent b)
    (linked : Linked base blocks h) : h ∈ chain.attached := by
  induction linked with
  | base => exact placed.rooted
  | @child block member _ parentAttached =>
      obtain ⟨o, first⟩ := Option.isSome_iff_exists.mp
        (firstAdded_isSome base member)
      have sameHash := firstAdded_hash first
      obtain attached | orphaned := placed.known first
      · exact attached
      · obtain ⟨kept, lookup⟩ := Option.isSome_iff_exists.mp
          (AList.lookup_isSome.mpr orphaned)
        have same : kept = o :=
          Option.some.inj ((placed.orphansFirst lookup).symm.trans first)
        obtain isBase | added := firstAdded_mem first
        · rw [← sameHash, isBase]
          exact placed.rooted
        · -- an orphan whose parent is attached would be queued
          have sameParent := identified o added block member sameHash
          rw [← sameParent, ← same] at parentAttached
          exact absurd (placed.queued lookup parentAttached) List.not_mem_nil

theorem Placed.isAttached_iff
    (placed : Placed base blocks [] chain)
    (identified : ∀ block ∈ blocks, ∀ b ∈ blocks,
      hash block = hash b → parent block = parent b) :
    chain.isAttached h ↔ Linked base blocks h := by
  rw [isAttached, AList.lookup_isSome]
  exact ⟨placed.linked, placed.attached_of_linked identified⟩

theorem Placed.isOrphan_iff
    (placed : Placed base blocks [] chain)
    (identified : ∀ block ∈ blocks, ∀ b ∈ blocks,
      hash block = hash b → parent block = parent b) :
    chain.isOrphan h ↔
      (∃ block ∈ blocks, hash block = h) ∧ ¬Linked base blocks h := by
  rw [isOrphan, AList.lookup_isSome]
  constructor
  · intro orphaned
    have unlinked : ¬Linked base blocks h := fun linked =>
      placed.apart (placed.attached_of_linked identified linked) orphaned
    obtain ⟨o, lookup⟩ := Option.isSome_iff_exists.mp (AList.lookup_isSome.mpr orphaned)
    have first := placed.orphansFirst lookup
    obtain isBase | added := firstAdded_mem first
    · rw [← firstAdded_hash first, isBase] at unlinked
      exact absurd .base unlinked
    · exact ⟨⟨o, added, firstAdded_hash first⟩, unlinked⟩
  · rintro ⟨⟨block, member, sameHash⟩, unlinked⟩
    obtain ⟨o, first⟩ := Option.isSome_iff_exists.mp
      (firstAdded_isSome base member)
    rw [sameHash] at first
    apply (placed.known first).resolve_left
    intro attached
    exact unlinked (placed.linked attached)

theorem Placed.getBlock_eq
    (placed : Placed base blocks [] chain) :
    chain.getBlock h = firstAdded base blocks h := by
  unfold getBlock
  cases attached : chain.attached.lookup h with
  | some b => exact (placed.attachedFirst attached).symm
  | none =>
      cases orphaned : chain.orphans.lookup h with
      | some b => exact (placed.orphansFirst orphaned).symm
      | none =>
          cases first : firstAdded base blocks h with
          | none => rfl
          | some b =>
              obtain member | member := placed.known first
              · exact absurd member (AList.lookup_eq_none.mp attached)
              · exact absurd member (AList.lookup_eq_none.mp orphaned)

/-- Two sequences have the same blocks, whatever their order and repetitions. -/
def SameBlocks (blocks order : List B) : Prop :=
  (∀ block ∈ blocks, ∃ b ∈ order, hash b = hash block ∧ parent b = parent block) ∧
    ∀ block ∈ order, ∃ b ∈ blocks, hash b = hash block ∧ parent b = parent block

theorem SameBlocks.linked_iff
    {order : List B} (same : SameBlocks blocks order) :
    Linked base order h ↔ Linked base blocks h :=
  ⟨fun linked => linked.mono same.2, fun linked => linked.mono same.1⟩

theorem SameBlocks.identified
    {order : List B} (same : SameBlocks blocks order)
    (identified : ∀ block ∈ blocks, ∀ b ∈ blocks,
      hash block = hash b → parent block = parent b) :
    ∀ block ∈ order, ∀ b ∈ order, hash block = hash b → parent block = parent b := by
  intro block member b otherMember sameHash
  obtain ⟨c, found, cHash, cParent⟩ := same.2 block member
  obtain ⟨d, otherFound, dHash, dParent⟩ := same.2 b otherMember
  rw [← cParent, ← dParent]
  apply identified c found d otherFound
  rw [cHash, dHash, sameHash]

theorem SameBlocks.hash_iff
    {order : List B} (same : SameBlocks blocks order) :
    (∃ block ∈ order, hash block = h) ↔ ∃ block ∈ blocks, hash block = h := by
  constructor
  · rintro ⟨block, member, sameHash⟩
    obtain ⟨b, found, bHash, _⟩ := same.2 block member
    exact ⟨b, found, bHash.trans sameHash⟩
  · rintro ⟨block, member, sameHash⟩
    obtain ⟨b, found, bHash, _⟩ := same.1 block member
    exact ⟨b, found, bHash.trans sameHash⟩

/-- Blocks that are identified by their hashes can be added in any order and with
any repetitions.  The attached ones are those that are linked to the base, the
others are orphans, and the object of a hash is the first that was added. -/
theorem arrival_order_is_irrelevant
    (base : B) (blocks : List B)
    (identified : ∀ block ∈ blocks, ∀ b ∈ blocks,
      hash block = hash b → parent block = parent b) :
    ∃ returned chain, (new base).addBlocks blocks = some (returned, chain) ∧
      (∀ h, chain.isAttached h ↔ Linked base blocks h) ∧
      (∀ h, chain.isOrphan h ↔
        (∃ block ∈ blocks, hash block = h) ∧ ¬Linked base blocks h) ∧
      (∀ h, chain.getBlock h = firstAdded base blocks h) ∧
      returned.map some =
        blocks.map (fun block => firstAdded base blocks (hash block)) ∧
      ∀ order, SameBlocks blocks order →
        ∃ others other, (new base).addBlocks order = some (others, other) ∧
          ∀ h, other.isAttached h = chain.isAttached h ∧
            other.isOrphan h = chain.isOrphan h := by
  obtain ⟨returned, chain, run, objects, placed⟩ :=
    addBlocks_placed (placed_new base) blocks
  refine ⟨returned, chain, run, fun h => placed.isAttached_iff identified,
    fun h => placed.isOrphan_iff identified, fun h => placed.getBlock_eq,
    objects, ?_⟩
  intro order same
  obtain ⟨others, other, otherRun, _, otherPlaced⟩ :=
    addBlocks_placed (placed_new base) order
  have otherIdentified := same.identified identified
  refine ⟨others, other, otherRun, fun h => ⟨?_, ?_⟩⟩
  · rw [Bool.eq_iff_iff, placed.isAttached_iff identified,
      otherPlaced.isAttached_iff otherIdentified]
    exact same.linked_iff
  · rw [Bool.eq_iff_iff, placed.isOrphan_iff identified,
      otherPlaced.isOrphan_iff otherIdentified]
    exact and_congr same.hash_iff (not_congr same.linked_iff)

namespace Sample

/-- A block, with a name for the object that holds it. -/
structure Link where
  parent : Hash
  hash : Hash
  object : String
deriving DecidableEq

instance : Block Link := ⟨Link.parent, Link.hash⟩

def root : Link := ⟨0, 1, "root"⟩

/-- A child before its parent, a second object of that child, and a block that
is not linked to the base. -/
def arrivals : List Link :=
  [⟨2, 3, "child"⟩, ⟨2, 3, "again"⟩, ⟨8, 9, "stray"⟩, ⟨1, 2, "parent"⟩]

end Sample

theorem child_first_is_attached :
    ∃ returned chain,
      (new Sample.root).addBlocks Sample.arrivals = some (returned, chain) ∧
      returned.map some = [some ⟨2, 3, "child"⟩, some ⟨2, 3, "child"⟩,
        some ⟨8, 9, "stray"⟩, some ⟨1, 2, "parent"⟩] ∧
      chain.isAttached 3 := by
  have identified : ∀ block ∈ Sample.arrivals, ∀ b ∈ Sample.arrivals,
      hash block = hash b → parent block = parent b := by decide
  obtain ⟨returned, chain, run, attached, _, _, objects, _⟩ :=
    arrival_order_is_irrelevant Sample.root Sample.arrivals identified
  refine ⟨returned, chain, run, objects.trans (by decide), (attached 3).mpr ?_⟩
  have link : Linked Sample.root Sample.arrivals (2 : Hash) :=
    .child (show (⟨1, 2, "parent"⟩ : Sample.Link) ∈ Sample.arrivals by decide) .base
  exact .child (show (⟨2, 3, "child"⟩ : Sample.Link) ∈ Sample.arrivals by decide) link

end Chain
end Qevm
