import Qevm.Collections.BoundedStack
import Qevm.Core.Operands
import Qevm.Logic.Refinement

/-!
# The operand stack is a list of at most 1024 words

The words in use are read from the top down.  What stands above them in the array is
never read: a word is overwritten before it comes into use again.
-/

namespace Qevm

open Params

namespace Stack

/-- The words in use, the top one first. -/
def items (self : Stack) : List U256 := (self.stack.toList.take self.top).reverse

@[simp] theorem length_items (self : Stack) : self.items.length = self.top := by
  simp [items, self.top_le]

theorem getElem_items (self : Stack) {index : Nat} (inside : index < self.items.length) :
    self.items[index] = self.word index := by
  have used : index < self.top := self.length_items ▸ inside
  have within : self.top - 1 - index < maxStackDepth := by
    have := self.top_le
    omega
  rw [← self.getElem_eq_word index within rfl]
  simp [items, self.top_le]

/-- A list that has the words in use at its places is the list of them. -/
theorem items_eq
    {self : Stack} {words : List U256} (length : words.length = self.top)
    (same : ∀ index (inside : index < words.length), self.word index = words[index]) :
    self.items = words := by
  apply List.ext_getElem (by rw [length_items, length])
  intro index used inside
  rw [getElem_items, same index inside]

/-- The list that a stack stands for. -/
def view (self : Stack) : BoundedStack U256 maxStackDepth :=
  ⟨self.items, self.length_items ▸ self.top_le⟩

@[simp] theorem items_view (self : Stack) : self.view.items = self.items := rfl

variable {self : Stack}

/-! ## Each operation -/

/-- The error that the interpreter reports for a failure of the list. -/
def faultError : StackFault → ExecError
  | .overflow => .stackOverflow
  | .underflow => .stackUnderflow

/-- Work on the array is work on the list that it stands for. -/
abbrev Follows
    (concrete : Run Stack α)
    (abstract : BoundedStack.Operation U256 maxStackDepth α) : Prop :=
  Procedure.Refines (fun self model => self.view = model) faultError concrete abstract

theorem push_items (val : U256) (room : self.top < maxStackDepth) :
    ∃ after, push val self = .ok () after ∧ after.items = val :: self.items := by
  refine ⟨⟨self.stack.set self.top val, self.top + 1, room⟩,
    dif_neg (Nat.ne_of_lt room), ?_⟩
  apply items_eq (by simp)
  intro index inside
  cases index with
  | zero => simp [word]
  | succ index =>
      have used : index < self.items.length := Nat.lt_of_succ_lt_succ inside
      rw [List.getElem_cons_succ, self.getElem_items used]
      have below : self.top + 1 - 1 - (index + 1) = self.top - 1 - index := by omega
      have other : self.top ≠ self.top - 1 - index := by
        rw [length_items] at used
        omega
      simp only [word, below, Vector.getElem?_set_ne _ other]

theorem push_follows (val : U256) : Follows (push val) (BoundedStack.push val) := by
  rintro self _ rfl
  by_cases room : self.view.items.length < maxStackDepth
  · obtain ⟨after, pushes, items⟩ := push_items val (self.length_items ▸ room)
    rw [pushes, BoundedStack.push, dif_pos room]
    exact .ok () (BoundedStack.ext items)
  · have full : self.top = maxStackDepth := by
      rw [items_view, length_items] at room
      exact Nat.le_antisymm self.top_le (Nat.le_of_not_lt room)
    rw [push, dif_pos full, BoundedStack.push, dif_neg room]
    exact .error StackFault.overflow

/-- A depth counted from one is read one below. -/
theorem dup_follows {pos : Nat} (positive : 0 < pos) :
    Follows (dup pos) (BoundedStack.copy (pos - 1)) := by
  rintro self _ rfl
  by_cases enough : pos ≤ self.top
  · have inside : self.top - pos < maxStackDepth := by
      have := self.top_le
      omega
    have used : pos - 1 < self.items.length := by
      rw [length_items]
      omega
    have found : self.view.items[pos - 1]? = some (self.word (pos - 1)) := by
      rw [← self.getElem_items used]
      exact List.getElem?_eq_getElem used
    have copied : self.stack[self.top - pos] = self.word (pos - 1) :=
      self.getElem_eq_word _ inside (by omega)
    rw [dup, if_neg (Nat.not_lt.mpr enough), dif_pos inside, copied]
    simp only [BoundedStack.copy, found]
    exact push_follows _ self _ rfl
  · have none : self.view.items[pos - 1]? = none := by
      apply List.getElem?_eq_none
      rw [view, length_items]
      omega
    rw [dup, if_pos (Nat.lt_of_not_le enough)]
    simp only [BoundedStack.copy, none]
    exact .error StackFault.underflow

theorem swap_items
    {pos : Nat} (enough : pos < self.items.length) (some : 0 < self.items.length) :
    ∃ after, swap pos self = .ok () after ∧
      after.items = (self.items.set 0 self.items[pos]).set pos self.items[0] := by
  have used : pos < self.top := self.length_items ▸ enough
  have fits := self.top_le
  refine ⟨⟨self.stack.swap (self.top - 1) (self.top - 1 - pos), self.top, self.top_le⟩,
    dif_neg (Nat.not_lt.mpr used), ?_⟩
  apply items_eq (by simp)
  intro index inside
  have below : index < self.top := by simpa using inside
  have atTop : self.top - 1 = self.top - 1 - index ↔ 0 = index := by omega
  have atDepth : self.top - 1 - pos = self.top - 1 - index ↔ pos = index := by omega
  have top : self.stack[self.top - 1] = self.word 0 := self.getElem_eq_word 0 _ rfl
  have deep : self.stack[self.top - 1 - pos] = self.word pos :=
    self.getElem_eq_word pos _ rfl
  rw [word, Vector.getElem?_swap, top, deep]
  simp only [atTop, atDepth, List.getElem_set, self.getElem_items]
  split
  · rfl
  · split <;> rfl

theorem swap_follows (pos : Nat) : Follows (swap pos) (BoundedStack.exchange pos) := by
  rintro self _ rfl
  by_cases enough : pos < self.view.items.length
  · obtain ⟨after, swaps, items⟩ := swap_items enough (Nat.zero_lt_of_lt enough)
    rw [swaps, BoundedStack.exchange, dif_pos enough]
    exact .ok () (BoundedStack.ext items)
  · have short : pos + 1 > self.top := by
      rw [items_view, length_items] at enough
      omega
    rw [swap, dif_pos short, BoundedStack.exchange, dif_neg enough]
    exact .error StackFault.underflow

/-- Pop a number of words, the top one first. -/
def popWords (count : Nat) : Run Stack (List U256) := fun self =>
  if count ≤ self.top then .ok ((List.range count).map self.word) (self.drop count)
  else .error .stackUnderflow self

theorem popWords_follows (count : Nat) :
    Follows (popWords count) (BoundedStack.take count) := by
  rintro self _ rfl
  by_cases enough : count ≤ self.view.items.length
  · have used : count ≤ self.top := self.length_items ▸ enough
    have words : self.items.take count = (List.range count).map self.word := by
      apply List.ext_getElem (by simp [used])
      intro index taken counted
      rw [List.getElem_take, self.getElem_items, List.getElem_map, List.getElem_range]
    have rest : (self.drop count).items = self.items.drop count := by
      apply items_eq (by simp)
      intro index inside
      rw [word_drop, List.getElem_drop, self.getElem_items]
    rw [popWords, if_pos used, BoundedStack.take, if_pos enough]
    exact words ▸ .ok _ (BoundedStack.ext rest)
  · have short : ¬count ≤ self.top := self.length_items ▸ enough
    rw [popWords, if_neg short, BoundedStack.take, if_neg enough]
    exact .error StackFault.underflow

end Stack

/-! ## Runs of operations -/

/-- An operation of the stack, with what it is given. -/
inductive StackOp
  | push (val : U256)
  | dup (pos : Nat) (named : 1 ≤ pos ∧ pos ≤ 16)
  | swap (pos : Nat) (named : 1 ≤ pos ∧ pos ≤ 16)
  | consume1
  | consume2
  | consume3
  | consume4

namespace StackOp

/-- The operation on the array; it returns the words that it pops. -/
def run : StackOp → Run Stack (List U256)
  | push val => do
      Stack.push val
      pure []
  | dup pos _ => do
      Stack.dup pos
      pure []
  | swap pos _ => do
      Stack.swap pos
      pure []
  | consume1 => do
      let first ← Stack.consume1
      pure [first]
  | consume2 => do
      let (first, second) ← Stack.consume2
      pure [first, second]
  | consume3 => do
      let (first, second, third) ← Stack.consume3
      pure [first, second, third]
  | consume4 => do
      let (first, second, third, fourth) ← Stack.consume4
      pure [first, second, third, fourth]

/-- The operation on the list: the copied element is counted from one, the exchanged one
from the top down. -/
def model : StackOp → BoundedStack.Operation U256 maxStackDepth (List U256)
  | push val => do
      BoundedStack.push val
      pure []
  | dup pos _ => do
      BoundedStack.copy (pos - 1)
      pure []
  | swap pos _ => do
      BoundedStack.exchange pos
      pure []
  | consume1 => BoundedStack.take 1
  | consume2 => BoundedStack.take 2
  | consume3 => BoundedStack.take 3
  | consume4 => BoundedStack.take 4

/-- What pops words pops the topmost ones when there are enough. -/
theorem pops_follow
    {pop : Run Stack α} (count : Nat) (words : α → List U256)
    (pops : ∀ self : Stack, count ≤ self.top → ∃ value,
      pop self = .ok value (self.drop count) ∧
        words value = (List.range count).map self.word)
    (lacks : ∀ self : Stack, ¬count ≤ self.top → pop self = .error .stackUnderflow self) :
    Stack.Follows (pop >>= fun value => pure (words value)) (BoundedStack.take count) := by
  have same : (pop >>= fun value => pure (words value)) = Stack.popWords count := by
    funext self
    unfold Stack.popWords
    split
    · next enough =>
        obtain ⟨value, popped, read⟩ := pops self enough
        rw [Procedure.bind_of_ok popped, ← read]
        rfl
    · next short => exact Procedure.bind_error.mpr (.inl (lacks self short))
  exact same ▸ Stack.popWords_follows count

theorem run_follows (op : StackOp) : Stack.Follows op.run op.model := by
  cases op with
  | push val => exact (Stack.push_follows val).bind_pure fun _ => []
  | dup pos named => exact (Stack.dup_follows named.1).bind_pure fun _ => []
  | swap pos named => exact (Stack.swap_follows pos).bind_pure fun _ => []
  | consume1 =>
      refine pops_follow 1 (fun first => [first])
        (fun self enough => ⟨_, dif_pos enough, ?_⟩) fun self short => dif_neg short
      rw [self.getElem_eq_word 0 _ (by omega)]
      rfl
  | consume2 =>
      refine pops_follow 2 (fun (words : U256 × U256) => [words.1, words.2])
        (fun self enough => ⟨_, dif_pos enough, ?_⟩) fun self short => dif_neg short
      rw [self.getElem_eq_word 0 _ (by omega), self.getElem_eq_word 1 _ (by omega)]
      rfl
  | consume3 =>
      refine pops_follow 3
        (fun (words : U256 × U256 × U256) => [words.1, words.2.1, words.2.2])
        (fun self enough => ⟨_, dif_pos enough, ?_⟩) fun self short => dif_neg short
      rw [self.getElem_eq_word 0 _ (by omega), self.getElem_eq_word 1 _ (by omega),
        self.getElem_eq_word 2 _ (by omega)]
      rfl
  | consume4 =>
      refine pops_follow 4
        (fun (words : U256 × U256 × U256 × U256) =>
          [words.1, words.2.1, words.2.2.1, words.2.2.2])
        (fun self enough => ⟨_, dif_pos enough, ?_⟩) fun self short => dif_neg short
      rw [self.getElem_eq_word 0 _ (by omega), self.getElem_eq_word 1 _ (by omega),
        self.getElem_eq_word 2 _ (by omega), self.getElem_eq_word 3 _ (by omega)]
      rfl

end StackOp

/-- From a new stack on, whatever operations have run before, each operation ends as the
one on a list of at most 1024 words does, and one that fails changes nothing. -/
theorem stack_refines_list (ops : List StackOp) :
    ∃ results stack list,
      Procedure.trace StackOp.run ops Stack.new =
          .ok (results.map (Except.mapError Stack.faultError)) stack ∧
        Procedure.trace StackOp.model ops BoundedStack.empty = .ok results list ∧
        stack.view = list ∧
        ∀ op : StackOp,
          (op.run stack).Agrees (fun self model => self.view = model) Stack.faultError
            stack list (op.model list) := by
  have new : Stack.new.view = BoundedStack.empty := BoundedStack.ext rfl
  obtain ⟨results, stack, list, runs, follows, last⟩ :=
    Procedure.Refines.trace StackOp.run_follows ops new
  exact ⟨results, stack, list, runs, follows, last,
    fun op => op.run_follows stack list last⟩

end Qevm
