import Qevm.Core.Types

/-!
# The operand stack

A fixed array of words with the number of words in use.  Words above that number
are stale and stay in the array until they are overwritten.
-/

namespace Qevm

open Params

/-- The operand stack of a call frame. -/
structure Stack where
  /-- The words, stale ones included. -/
  stack : Vector U256 maxStackDepth
  /-- Number of words in use. -/
  top : Nat
  /-- The words in use fit the array. -/
  top_le : top ≤ maxStackDepth

namespace Stack

/-- The stack without words. -/
def new : Stack := ⟨Vector.replicate maxStackDepth 0, 0, Nat.zero_le _⟩

/-- Push a word. -/
def push (val : U256) : Run Stack Unit := fun self =>
  if full : self.top = maxStackDepth then
    .error .stackOverflow self
  else
    have room : self.top < maxStackDepth := Nat.lt_of_le_of_ne self.top_le full
    .ok () ⟨self.stack.set self.top val, self.top + 1, room⟩

/-- Push a copy of the word at a position counted from the top. -/
def dup (pos : Nat) : Run Stack Unit := fun self =>
  if pos > self.top then
    .error .stackUnderflow self
  else if inside : self.top - pos < maxStackDepth then
    push self.stack[self.top - pos] self
  else
    .panic .indexOutOfBounds

/-- Exchange the top with the word at a distance below it. -/
def swap (pos : Nat) : Run Stack Unit := fun self =>
  if enough : pos + 1 > self.top then
    .error .stackUnderflow self
  else
    have inside : self.top - 1 < maxStackDepth := by
      have := self.top_le
      omega
    .ok () ⟨self.stack.swap (self.top - 1) (self.top - 1 - pos), self.top,
      self.top_le⟩

/-- Pop one word. -/
def consume1 : Run Stack U256 := fun self =>
  if enough : self.top > 0 then
    have := self.top_le
    .ok self.stack[self.top - 1]
      ⟨self.stack, self.top - 1, by omega⟩
  else
    .error .stackUnderflow self

/-- Pop two words, the top one first. -/
def consume2 : Run Stack (U256 × U256) := fun self =>
  if enough : self.top > 1 then
    have := self.top_le
    .ok (self.stack[self.top - 2 + 1], self.stack[self.top - 2])
      ⟨self.stack, self.top - 2, by omega⟩
  else
    .error .stackUnderflow self

/-- Pop three words, the top one first. -/
def consume3 : Run Stack (U256 × U256 × U256) := fun self =>
  if enough : self.top > 2 then
    have := self.top_le
    .ok (self.stack[self.top - 3 + 2], self.stack[self.top - 3 + 1],
        self.stack[self.top - 3])
      ⟨self.stack, self.top - 3, by omega⟩
  else
    .error .stackUnderflow self

/-- Pop four words, the top one first. -/
def consume4 : Run Stack (U256 × U256 × U256 × U256) := fun self =>
  if enough : self.top > 3 then
    have := self.top_le
    .ok (self.stack[self.top - 4 + 3], self.stack[self.top - 4 + 2],
        self.stack[self.top - 4 + 1], self.stack[self.top - 4])
      ⟨self.stack, self.top - 4, by omega⟩
  else
    .error .stackUnderflow self

/-- The word on top of the stack. -/
def peek (self : Stack) : Option U256 :=
  if enough : self.top > 0 then
    have := self.top_le
    some self.stack[self.top - 1]
  else
    none

end Stack
end Qevm
