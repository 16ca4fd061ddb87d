import Mathlib.Data.List.Basic

/-!
# Layers of deltas

An object with named fields is read through a list of layers, the newest one
first, down to a base.  A layer may have an entry that records some of the
fields, and may mark the object as deleted.  Only the newest layer's mark is
looked at by a read.

Layers can be squashed into one by applying them from the oldest to the newest:
an entry overlays the entries before it, and a mark drops them.  The squashed
layer reads the same as the layers unless a mark below the newest layer hides
something that a read still sees.
-/

universe u v

namespace Overlay

/-- What a layer knows about an object. -/
structure Layer {F : Type u} (V : F → Type v) where
  /-- The recorded fields, if there is an entry. -/
  entry : Option (∀ field, Option (V field))
  /-- The object is marked as deleted. -/
  deleted : Bool

/-- What is read of an object. -/
@[ext] structure Reads {F : Type u} (V : F → Type v) where
  value : ∀ field, V field
  exist : Bool

variable {F : Type u} {V : F → Type v}

/-- A field as a layer records it. -/
def Layer.recorded (layer : Layer V) (field : F) : Option (V field) :=
  layer.entry.bind fun entry => entry field

/-- A field as the newest layer that records it does. -/
def recorded (layers : List (Layer V)) (field : F) : Option (V field) :=
  layers.findSome? fun layer => layer.recorded field

/-- Some layer has an entry. -/
def present (layers : List (Layer V)) : Bool :=
  layers.any fun layer => layer.entry.isSome

/-- What is read through the layers, whatever they mark. -/
def below (layers : List (Layer V)) (base : Reads V) : Reads V where
  value field := (recorded layers field).getD (base.value field)
  exist := present layers || base.exist

/-- The newest layer marks the object as deleted. -/
def marked (layers : List (Layer V)) : Bool :=
  layers.head?.any fun layer => layer.deleted

/-- What is read through the layers: nothing when the newest one marks the
object. -/
def top (blank : Reads V) (layers : List (Layer V)) (base : Reads V) : Reads V :=
  if marked layers then blank else below layers base

/-- Apply a newer layer to an older one. -/
def apply (newer older : Layer V) : Layer V :=
  let merged : Layer V := match newer.entry with
    | some entry =>
        ⟨some fun field => (entry field).or (older.recorded field), false⟩
    | none => older
  if newer.deleted || merged.deleted then ⟨none, true⟩ else merged

/-- Apply the layers from the oldest to the newest. -/
def squash (layers : List (Layer V)) : Layer V :=
  layers.foldr apply ⟨none, false⟩

@[simp] theorem recorded_nil (field : F) :
    recorded ([] : List (Layer V)) field = none := rfl

theorem recorded_cons (layer : Layer V) (layers : List (Layer V)) (field : F) :
    recorded (layer :: layers) field =
      (layer.recorded field).or (recorded layers field) := by
  simp only [recorded, List.findSome?_cons]
  cases layer.recorded field <;> rfl

theorem recorded_append (newer older : List (Layer V)) (field : F) :
    recorded (newer ++ older) field =
      (recorded newer field).or (recorded older field) := by
  simp only [recorded, List.findSome?_append]

theorem present_append (newer older : List (Layer V)) :
    present (newer ++ older) = (present newer || present older) := by
  simp only [present, List.any_append]

/-- Without an entry nothing is recorded. -/
theorem recorded_of_not_present
    {layers : List (Layer V)} (absent : present layers = false) (field : F) :
    recorded layers field = none := by
  unfold recorded
  rw [List.findSome?_eq_none_iff]
  intro layer member
  have missing : layer.entry = none := by
    simpa using List.any_eq_false.mp absent layer member
  rw [Layer.recorded, missing, Option.bind_none]

/-- Layers without an entry are seen through. -/
theorem below_of_not_present
    {layers : List (Layer V)} (absent : present layers = false)
    (base : Reads V) : below layers base = base := by
  ext1
  · funext field
    simp only [below, recorded_of_not_present absent, Option.getD_none]
  · simp only [below, absent, Bool.false_or]

/-- Reading through two groups of layers. -/
theorem below_append (newer older : List (Layer V)) (base : Reads V) :
    below (newer ++ older) base = below newer (below older base) := by
  ext1
  · funext field
    simp only [below, recorded_append]
    cases recorded newer field <;> rfl
  · simp only [below, present_append, Bool.or_assoc]

/-- Without a mark on the newest layer everything is seen. -/
theorem top_unmarked
    (blank : Reads V) {layers : List (Layer V)} (base : Reads V)
    (clear : marked layers = false) :
    top blank layers base = below layers base := by
  rw [top, clear]
  rfl

/-- Only the newest group of layers can mark the object. -/
theorem top_append
    (blank : Reads V) {newer : List (Layer V)} (older : List (Layer V))
    (base : Reads V) (nonempty : newer ≠ []) :
    top blank (newer ++ older) base = top blank newer (below older base) := by
  obtain ⟨layer, layers, rfl⟩ := List.exists_cons_of_ne_nil nonempty
  unfold top
  rw [below_append]
  rfl

/-- A layer that knows nothing. -/
def Layer.empty : Layer V := ⟨none, false⟩

/-- A layer that knows nothing hides the mark of the layer below it. -/
theorem top_empty (blank : Reads V) (layers : List (Layer V)) (base : Reads V) :
    top blank (Layer.empty :: layers) base = below layers base := rfl

/-- Nothing is read through layers without an entry above an absent object, and
only there. -/
theorem below_eq_blank
    {blank : Reads V} (absent : blank.exist = false)
    (layers : List (Layer V)) (base : Reads V) :
    below layers base = blank ↔ present layers = false ∧ base = blank := by
  constructor
  · intro reads
    have exist := congrArg Reads.exist reads
    simp only [below, absent, Bool.or_eq_false_iff] at exist
    refine ⟨exist.1, ?_⟩
    rw [← reads, below_of_not_present exist.1]
  · rintro ⟨missing, rfl⟩
    exact below_of_not_present missing base

/-- Putting an empty layer on top shows nothing new exactly when there is
nothing below a mark. -/
theorem top_empty_iff
    {blank : Reads V} (absent : blank.exist = false)
    (layers : List (Layer V)) (base : Reads V) :
    top blank (Layer.empty :: layers) base = top blank layers base ↔
      (marked layers = true → present layers = false ∧ base = blank) := by
  rw [top_empty, top]
  by_cases mark : marked layers = true
  · rw [if_pos mark, below_eq_blank absent]
    simp only [mark, true_implies]
  · rw [if_neg mark]
    simp only [mark, Bool.false_eq_true, false_implies]

/-! ### Squashing -/

/-- A marked layer leaves its mark. -/
theorem apply_deleted {newer : Layer V} (mark : newer.deleted = true)
    (older : Layer V) : apply newer older = ⟨none, true⟩ := by
  simp only [apply, mark, Bool.true_or, if_true]

/-- A layer without an entry keeps the older one, or the mark of it. -/
theorem apply_none {newer : Layer V} (missing : newer.entry = none)
    (clear : newer.deleted = false) (older : Layer V) :
    apply newer older = if older.deleted then ⟨none, true⟩ else older := by
  simp only [apply, missing, clear, Bool.false_or]

/-- An entry is laid upon the older one. -/
theorem apply_some {newer : Layer V} {entry : ∀ field, Option (V field)}
    (here : newer.entry = some entry) (clear : newer.deleted = false)
    (older : Layer V) :
    apply newer older =
      ⟨some fun field => (entry field).or (older.recorded field), false⟩ := by
  simp only [apply, here, clear, Bool.or_self, Bool.false_eq_true, if_false]

/-- A mark drops everything older. -/
theorem squash_marked {layer : Layer V} (mark : layer.deleted = true)
    (older : List (Layer V)) : squash (layer :: older) = ⟨none, true⟩ := by
  simp only [squash, List.foldr_cons, apply, mark, Bool.true_or, if_true]

/-- Layers without marks, applied to what is left of the older ones: nothing, and
perhaps a mark. -/
theorem foldr_apply {newer : List (Layer V)} (mark : Bool)
    (unmarked : ∀ layer ∈ newer, layer.deleted = false) :
    newer.foldr apply ⟨none, mark⟩ =
      if present newer then ⟨some (recorded newer), false⟩ else ⟨none, mark⟩ := by
  induction newer with
  | nil => rfl
  | cons layer newer inductionHypothesis =>
      have clean := unmarked layer List.mem_cons_self
      have rest := inductionHypothesis fun other member =>
        unmarked other (List.mem_cons_of_mem layer member)
      have here : present (layer :: newer) =
          (layer.entry.isSome || present newer) := rfl
      rw [List.foldr_cons, rest, here]
      cases entry : layer.entry with
      | none =>
          have same : recorded (layer :: newer) = recorded newer := by
            funext field
            rw [recorded_cons, Layer.recorded, entry]
            rfl
          by_cases some : present newer = true
          · simp [apply, entry, clean, some, same]
          · cases mark <;> simp [apply, entry, clean, some]
      | some fields =>
          have own (field : F) : layer.recorded field = fields field := by
            rw [Layer.recorded, entry]
            rfl
          by_cases some : present newer = true
          · simp only [apply, entry, clean, some, if_true, Bool.or_true,
              Bool.or_self, Bool.false_eq_true, if_false]
            congr
            funext field
            rw [recorded_cons, own]
            rfl
          · simp only [apply, entry, clean, some, if_false, Bool.or_false,
              Option.isSome_some, if_true, Bool.or_self, Bool.false_eq_true]
            congr
            funext field
            rw [recorded_cons, own,
              recorded_of_not_present (by simpa using some)]
            rfl

/-- Squashing layers of which none is marked. -/
theorem squash_unmarked {layers : List (Layer V)}
    (unmarked : ∀ layer ∈ layers, layer.deleted = false) :
    squash layers =
      if present layers then ⟨some (recorded layers), false⟩ else Layer.empty :=
  foldr_apply false unmarked

/-- Squashing layers whose newest mark is below some others. -/
theorem squash_below_mark {newer : List (Layer V)} {layer : Layer V}
    (older : List (Layer V)) (mark : layer.deleted = true)
    (unmarked : ∀ layer ∈ newer, layer.deleted = false) :
    squash (newer ++ layer :: older) =
      if present newer then ⟨some (recorded newer), false⟩ else ⟨none, true⟩ := by
  have oldest := squash_marked mark older
  unfold squash at oldest ⊢
  rw [List.foldr_append, oldest]
  exact foldr_apply true unmarked

/-- A layer with an entry and without a mark. -/
theorem top_entry (blank : Reads V) (entry : ∀ field, Option (V field))
    (base : Reads V) :
    top blank [⟨some entry, false⟩] base =
      ⟨fun field => (entry field).getD (base.value field), true⟩ := by
  ext1
  · funext field
    simp [top, marked, below, recorded_cons, Layer.recorded]
  · simp [top, marked, below, present]

/-- Every mark below the newest layer hides nothing that is still seen: either
the newer layers have no entry and nothing is seen through the marked layer, or
the fields that they do not record are seen unchanged through it. -/
def Transparent (blank : Reads V) (layers : List (Layer V)) (base : Reads V) :
    Prop :=
  ∀ newer layer older, layers = newer ++ layer :: older → newer ≠ [] →
    layer.deleted = true → (∀ other ∈ newer, other.deleted = false) →
      if present newer then
        ∀ field, recorded newer field = none →
          (below (layer :: older) base).value field = base.value field
      else
        present (layer :: older) = false ∧ base = blank

/-- A marked layer below unmarked ones is the newest marked one. -/
theorem split_unique
    {first second : List (Layer V)} {layer other : Layer V}
    {left right : List (Layer V)}
    (same : first ++ layer :: left = second ++ other :: right)
    (layerMark : layer.deleted = true) (otherMark : other.deleted = true)
    (firstClean : ∀ layer ∈ first, layer.deleted = false)
    (secondClean : ∀ layer ∈ second, layer.deleted = false) :
    first = second ∧ layer = other ∧ left = right := by
  induction first generalizing second with
  | nil =>
      cases second with
      | nil =>
          obtain ⟨rfl, rfl⟩ := List.cons.inj same
          exact ⟨rfl, rfl, rfl⟩
      | cons head second =>
          obtain ⟨rfl, -⟩ := List.cons.inj same
          rw [secondClean layer List.mem_cons_self] at layerMark
          contradiction
  | cons head first inductionHypothesis =>
      cases second with
      | nil =>
          obtain ⟨rfl, -⟩ := List.cons.inj same
          rw [firstClean head List.mem_cons_self] at otherMark
          contradiction
      | cons head' second =>
          obtain ⟨rfl, tails⟩ := List.cons.inj same
          obtain ⟨rfl, rest⟩ := inductionHypothesis tails
            (fun layer member => firstClean layer (List.mem_cons_of_mem _ member))
            fun layer member => secondClean layer (List.mem_cons_of_mem _ member)
          exact ⟨rfl, rest⟩

/-- Squashed layers read the same exactly when their marks are transparent. -/
theorem top_squash_iff
    {blank : Reads V} (absent : blank.exist = false) {layers : List (Layer V)}
    (nonempty : layers ≠ []) (base : Reads V) :
    top blank [squash layers] base = top blank layers base ↔
      Transparent blank layers base := by
  cases found : layers.find? fun layer => layer.deleted with
  | none =>
      have unmarked : ∀ layer ∈ layers, layer.deleted = false := by
        simpa using List.find?_eq_none.mp found
      have reads : top blank [squash layers] base = top blank layers base := by
        obtain ⟨layer, rest, rfl⟩ := List.exists_cons_of_ne_nil nonempty
        have clean : marked (layer :: rest) = false :=
          unmarked layer List.mem_cons_self
        rw [squash_unmarked unmarked, top_unmarked blank base clean]
        by_cases some : present (layer :: rest) = true
        · rw [if_pos some, top_entry, below, some, Bool.true_or]
        · have missing : present (layer :: rest) = false := by simpa using some
          rw [if_neg some, top_empty, below_of_not_present missing]
          rfl
      refine ⟨fun _ => ?_, fun _ => reads⟩
      intro newer layer older split _ mark _
      have clean := unmarked layer (by rw [split]; simp)
      rw [mark] at clean
      contradiction
  | some layer =>
      obtain ⟨mark, newer, older, rfl, clean⟩ :=
        List.find?_eq_some_iff_append.mp found
      have unmarked : ∀ other ∈ newer, other.deleted = false := by
        simpa using clean
      have transparent : Transparent blank (newer ++ layer :: older) base ↔
          (newer ≠ [] →
            if present newer then
              ∀ field, recorded newer field = none →
                (below (layer :: older) base).value field = base.value field
            else
              present (layer :: older) = false ∧ base = blank) := by
        constructor
        · intro all nonempty
          exact all newer layer older rfl nonempty mark unmarked
        · intro holds first other rest split nonempty otherMark otherClean
          obtain ⟨rfl, rfl, rfl⟩ :=
            split_unique split mark otherMark unmarked otherClean
          exact holds nonempty
      rw [transparent]
      cases newer with
      | nil =>
          have reads : top blank [squash (layer :: older)] base =
              top blank (layer :: older) base := by
            rw [squash_marked mark]
            simp [top, marked, mark]
          simpa using reads
      | cons head newer =>
          have clear : marked (head :: newer ++ layer :: older) = false :=
            unmarked head List.mem_cons_self
          rw [squash_below_mark older mark unmarked,
            top_unmarked blank base clear, below_append]
          simp only [ne_eq, reduceCtorEq, not_false_eq_true, true_implies]
          by_cases some : present (head :: newer) = true
          · rw [if_pos some, if_pos some, top_entry]
            constructor
            · intro reads field unrecorded
              have value := congrFun (congrArg Reads.value reads) field
              simpa only [below, unrecorded, Option.getD_none] using value.symm
            · intro seen
              ext1
              · funext field
                cases record : recorded (head :: newer) field with
                | none =>
                    simp only [below, record, Option.getD_none]
                    exact (seen field record).symm
                | some value => simp only [below, record, Option.getD_some]
              · rw [below, some, Bool.true_or]
          · rw [if_neg some, if_neg some,
              below_of_not_present (by simpa using some), ← below_eq_blank absent]
            exact eq_comm

end Overlay
