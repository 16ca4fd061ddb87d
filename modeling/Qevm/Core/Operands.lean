import Qevm.Core.Quiet

/-!
# Operands on the stack

What the primitives that pop operands and charge gas do, in terms of the words
that are on the stack before an instruction.
-/

namespace Qevm

open Params

namespace Stack

/-- A word in use, counted from the top. -/
def word (self : Stack) (index : Nat) : U256 :=
  self.stack[self.top - 1 - index]?.getD 0

/-- The stack after popping a number of words. -/
def drop (self : Stack) (count : Nat) : Stack :=
  ⟨self.stack, self.top - count, Nat.le_trans (Nat.sub_le _ _) self.top_le⟩

@[simp] theorem top_drop (self : Stack) (count : Nat) :
    (self.drop count).top = self.top - count := rfl

@[simp] theorem word_drop (self : Stack) (count index : Nat) :
    (self.drop count).word index = self.word (count + index) := by
  simp only [word, drop]
  congr 2
  omega

/-- A word in use is an element of the array. -/
theorem getElem_eq_word
    (self : Stack) {position : Nat} (index : Nat)
    (inside : position < maxStackDepth)
    (counted : position = self.top - 1 - index) :
    self.stack[position] = self.word index := by
  subst counted
  simp [word, inside]

variable {self after : Stack}

theorem consume1_ok {first : U256} (run : consume1 self = .ok first after) :
    first = self.word 0 ∧ after = self.drop 1 ∧ 1 ≤ self.top := by
  unfold consume1 at run
  split at run
  · rename_i enough
    obtain ⟨rfl, rfl⟩ := Outcome.ok.inj run
    exact ⟨self.getElem_eq_word 0 _ (by omega), rfl, enough⟩
  · contradiction

theorem consume2_ok
    {first second : U256} (run : consume2 self = .ok (first, second) after) :
    first = self.word 0 ∧ second = self.word 1 ∧ after = self.drop 2 ∧
      2 ≤ self.top := by
  unfold consume2 at run
  split at run
  · rename_i enough
    obtain ⟨words, rfl⟩ := Outcome.ok.inj run
    obtain ⟨rfl, rfl⟩ := Prod.mk.inj words
    exact ⟨self.getElem_eq_word 0 _ (by omega),
      self.getElem_eq_word 1 _ (by omega), rfl, enough⟩
  · contradiction

theorem consume3_ok
    {first second third : U256}
    (run : consume3 self = .ok (first, second, third) after) :
    first = self.word 0 ∧ second = self.word 1 ∧ third = self.word 2 ∧
      after = self.drop 3 ∧ 3 ≤ self.top := by
  unfold consume3 at run
  split at run
  · rename_i enough
    obtain ⟨words, rfl⟩ := Outcome.ok.inj run
    simp only [Prod.mk.injEq] at words
    obtain ⟨rfl, rfl, rfl⟩ := words
    exact ⟨self.getElem_eq_word 0 _ (by omega),
      self.getElem_eq_word 1 _ (by omega), self.getElem_eq_word 2 _ (by omega),
      rfl, enough⟩
  · contradiction

theorem consume4_ok
    {first second third fourth : U256}
    (run : consume4 self = .ok (first, second, third, fourth) after) :
    first = self.word 0 ∧ second = self.word 1 ∧ third = self.word 2 ∧
      fourth = self.word 3 ∧ after = self.drop 4 ∧ 4 ≤ self.top := by
  unfold consume4 at run
  split at run
  · rename_i enough
    obtain ⟨words, rfl⟩ := Outcome.ok.inj run
    simp only [Prod.mk.injEq] at words
    obtain ⟨rfl, rfl, rfl, rfl⟩ := words
    exact ⟨self.getElem_eq_word 0 _ (by omega),
      self.getElem_eq_word 1 _ (by omega), self.getElem_eq_word 2 _ (by omega),
      self.getElem_eq_word 3 _ (by omega), rfl, enough⟩
  · contradiction

/-- A pushed word is on top. -/
theorem push_ok {word : U256} (run : push word self = .ok () after) :
    after.peek = some word ∧ after.top = self.top + 1 := by
  unfold push at run
  split at run
  · contradiction
  · obtain ⟨-, rfl⟩ := Outcome.ok.inj run
    simp [peek]

/-- There is room for a word after one has been popped. -/
theorem push_room (word : U256) (room : self.top < maxStackDepth) :
    ∃ after, push word self = .ok () after := by
  unfold push
  rw [dif_neg (Nat.ne_of_lt room)]
  exact ⟨_, rfl⟩

end Stack

namespace Exec

variable {S : Type} {before after : TxExecContext S}

/-- A word on the stack of the executing frame. -/
def operand (context : TxExecContext S) (index : Nat) : U256 :=
  context.curCall.stack.word index

/-- The context after popping a number of operands. -/
def popped (context : TxExecContext S) (count : Nat) : TxExecContext S :=
  { context with
    curCall := { context.curCall with stack := context.curCall.stack.drop count } }

@[simp] theorem operand_popped
    (context : TxExecContext S) (count index : Nat) :
    operand (popped context count) index = operand context (count + index) :=
  Stack.word_drop _ _ _

/-- Popping twice is popping once. -/
theorem popped_popped (context : TxExecContext S) (first second : Nat) :
    popped (popped context first) second = popped context (first + second) := by
  simp only [popped, Stack.drop, Nat.sub_sub]

/-- Work on the stack of the executing frame. -/
theorem onStack_ok
    {part : Run Stack α} {value : α}
    (run : onCall (CallFrame.onStack part) before = .ok value after) :
    ∃ stack, part before.curCall.stack = .ok value stack ∧
      after = { before with
        curCall := { before.curCall with stack := stack } } := by
  simp only [onCall, CallFrame.onStack, Procedure.zoom] at run
  cases inner : part before.curCall.stack with
  | ok found stack =>
      simp only [inner, Outcome.ok.injEq] at run
      exact ⟨stack, by rw [run.1], run.2.symm⟩
  | error err stack => simp [inner] at run
  | panic reason => simp [inner] at run

/-- Work on the memory of the executing frame. -/
theorem onMemory_ok
    {part : Run Memory α} {value : α}
    (run : onCall (CallFrame.onMemory part) before = .ok value after) :
    ∃ memory, part before.curCall.memory = .ok value memory ∧
      after = { before with
        curCall := { before.curCall with memory := memory } } := by
  simp only [onCall, CallFrame.onMemory, Procedure.zoom] at run
  cases inner : part before.curCall.memory with
  | ok found memory =>
      simp only [inner, Outcome.ok.injEq] at run
      exact ⟨memory, by rw [run.1], run.2.symm⟩
  | error err memory => simp [inner] at run
  | panic reason => simp [inner] at run

theorem consume1_ok {first : U256} (run : consume1 before = .ok first after) :
    first = operand before 0 ∧ after = popped before 1 := by
  obtain ⟨stack, pops, rfl⟩ := onStack_ok run
  obtain ⟨rfl, rfl, -⟩ := Stack.consume1_ok pops
  exact ⟨rfl, rfl⟩

theorem consume2_ok
    {first second : U256} (run : consume2 before = .ok (first, second) after) :
    first = operand before 0 ∧ second = operand before 1 ∧
      after = popped before 2 := by
  obtain ⟨stack, pops, rfl⟩ := onStack_ok run
  obtain ⟨rfl, rfl, rfl, -⟩ := Stack.consume2_ok pops
  exact ⟨rfl, rfl, rfl⟩

theorem consume3_ok
    {first second third : U256}
    (run : consume3 before = .ok (first, second, third) after) :
    first = operand before 0 ∧ second = operand before 1 ∧
      third = operand before 2 ∧ after = popped before 3 := by
  obtain ⟨stack, pops, rfl⟩ := onStack_ok run
  obtain ⟨rfl, rfl, rfl, rfl, -⟩ := Stack.consume3_ok pops
  exact ⟨rfl, rfl, rfl, rfl⟩

theorem consume4_ok
    {first second third fourth : U256}
    (run : consume4 before = .ok (first, second, third, fourth) after) :
    first = operand before 0 ∧ second = operand before 1 ∧
      third = operand before 2 ∧ fourth = operand before 3 ∧
      after = popped before 4 := by
  obtain ⟨stack, pops, rfl⟩ := onStack_ok run
  obtain ⟨rfl, rfl, rfl, rfl, rfl, -⟩ := Stack.consume4_ok pops
  exact ⟨rfl, rfl, rfl, rfl, rfl⟩

theorem push_ok {word : U256} (run : push word before = .ok () after) :
    ∃ stack, stack.peek = some word ∧
      after = { before with
        curCall := { before.curCall with stack := stack } } := by
  obtain ⟨stack, pushes, rfl⟩ := onStack_ok run
  exact ⟨stack, (Stack.push_ok pushes).1, rfl⟩

theorem useGas_ok {gas : Gas} (run : useGas gas before = .ok () after) :
    gas ≤ before.curCall.unusedGas ∧
      after = { before with
        curCall := { before.curCall with
          unusedGas := before.curCall.unusedGas - gas } } := by
  simp only [useGas, onCall, Procedure.zoom, CallFrame.useGas] at run
  by_cases short : before.curCall.unusedGas < gas
  · simp [short] at run
  · simp only [short, if_false, Outcome.ok.injEq, true_and] at run
    exact ⟨UInt64.not_lt.mp short, run.symm⟩

/-- An instruction of a fork is permitted from that fork on. -/
theorem requireFork_ok {since : Fork} (run : requireFork since before = .ok () after) :
    since ≤ before.curCall.fork ∧ after = before := by
  simp only [requireFork, onCall, Procedure.zoom, CallFrame.requireFork] at run
  by_cases early : before.curCall.fork < since
  · simp [early] at run
  · simp only [early, if_false, Outcome.ok.injEq, true_and] at run
    exact ⟨not_lt.mp early, run.symm⟩

/-- What follows the check of the fork. -/
theorem requireFork_bind_ok
    {since : Fork} {next : Unit → Exec S α} {value : α}
    (run : (requireFork since >>= next) before = .ok value after) :
    since ≤ before.curCall.fork ∧ next () before = .ok value after := by
  obtain ⟨_, forked, forks, rest⟩ := Procedure.bind_ok.mp run
  obtain ⟨since, rfl⟩ := requireFork_ok forks
  exact ⟨since, rest⟩

/-- The check of the call depth. -/
theorem requireDepth_ok {value : Unit} (run : requireDepth before = .ok value after) :
    before.callStack.length ≠ maxCallDepth ∧ after = before := by
  unfold requireDepth at run
  have checks := Procedure.reads_bind_ok.mp run
  exact Procedure.raiseIf_ok.mp checks

/-- What follows the check of the call depth. -/
theorem requireDepth_bind_ok
    {next : Unit → Exec S α} {value : α}
    (run : (requireDepth >>= next) before = .ok value after) :
    before.callStack.length ≠ maxCallDepth ∧ next () before = .ok value after := by
  obtain ⟨_, shallow, depth, rest⟩ := Procedure.bind_ok.mp run
  obtain ⟨lower, rfl⟩ := requireDepth_ok depth
  exact ⟨lower, rest⟩

end Exec
end Qevm
