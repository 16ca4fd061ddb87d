import Qevm.Logic.Procedure

/-!
# Bounded stacks

A bounded stack is a list with a limit on its length; the first element is the top.  An
operation that fails leaves the stack as it is.
-/

/-- Why an operation of a bounded stack fails. -/
inductive StackFault
  | overflow
  | underflow
  deriving DecidableEq, Repr

/-- A list of at most `limit` elements, the top of the stack first. -/
@[ext] structure BoundedStack (α : Type u) (limit : Nat) where
  items : List α
  length_le : items.length ≤ limit

namespace BoundedStack

variable {α : Type u} {limit : Nat}

/-- Procedures on a bounded stack; there is nothing that they panic with. -/
abbrev Operation (α : Type u) (limit : Nat) (β : Type v) :=
  Procedure (BoundedStack α limit) StackFault Empty β

/-- The stack without elements. -/
def empty : BoundedStack α limit := ⟨[], Nat.zero_le _⟩

/-- Put an element on top. -/
def push (value : α) : Operation α limit Unit := fun stack =>
  if room : stack.items.length < limit then .ok () ⟨value :: stack.items, room⟩
  else .error .overflow stack

/-- Put a copy of the element at a depth on top; the top has depth zero. -/
def copy (depth : Nat) : Operation α limit Unit := fun stack =>
  match stack.items[depth]? with
  | some value => push value stack
  | none => .error .underflow stack

/-- Exchange the top with the element at a depth. -/
def exchange (depth : Nat) : Operation α limit Unit := fun stack =>
  if enough : depth < stack.items.length then
    have top : 0 < stack.items.length := Nat.zero_lt_of_lt enough
    .ok () ⟨(stack.items.set 0 stack.items[depth]).set depth stack.items[0],
      by simpa using stack.length_le⟩
  else
    .error .underflow stack

/-- Remove a number of elements and return them, the top one first. -/
def take (count : Nat) : Operation α limit (List α) := fun stack =>
  if count ≤ stack.items.length then
    .ok (stack.items.take count)
      ⟨stack.items.drop count, Nat.le_trans (by simp) stack.length_le⟩
  else
    .error .underflow stack

end BoundedStack
