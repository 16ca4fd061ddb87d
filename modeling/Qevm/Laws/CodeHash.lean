import Qevm.Laws.Unstartable
import Qevm.State.Auto

/-!
# Three hashes for no code

The hash of the code of an account is read in three places that want to know whether the
account has code.  Whether an account is empty is asked of the hash of the empty string,
`EXTCODEHASH` answers with the hash as it is, and only the check of a new contract's
address knows both that hash and zero, which readers of states are told to return.
-/

namespace Qevm

open Params WorldState Exec Procedure

section Law

variable {S : Type} [WorldState S] [Keccak256]

/-- An account has no nonce, no balance and no code. -/
structure Codeless (state : S) (account : Addr) : Prop where
  nonce : getNonce state account = 0
  balance : getBalance state account = 0
  code : (getCode state account).asBytes = []

/-- No creation of a contract at the address fails for the account that is there. -/
def Accepts (state : S) (account : Addr) : Prop :=
  ∀ {before after : TxExecContext S} {caller : Addr} {value : Wei}, before.state = state →
    openCreate account caller value before ≠ .error .contractAddrCollision after

/-- `EXTCODEHASH` of the account answers zero. -/
def AnswersZero (state : S) (account : Addr) : Prop :=
  ∀ {before after : TxExecContext S}, before.state = state →
    (operand before 0).toAddr = account → extCodeHash before = .ok () after →
    after.curCall.stack.peek = some 0

/-- What the three places should say of an account without code. -/
structure TakenForEmpty (state : S) (account : Addr) : Prop where
  empty : isEmpty state account = true
  accepts : Accepts state account
  answers : AnswersZero state account

/-! ## What each place asks of the hash -/

theorem isEmpty_iff {state : S} {account : Addr} (codeless : Codeless state account) :
    isEmpty state account = true ↔
      (getCode state account).getHash = Hash.emptyBytesHash := by
  simp only [isEmpty, codeless.nonce, codeless.balance, true_and, decide_eq_true_eq]

/-- Only an address that is taken collides. -/
theorem openCreate_collides
    {contract caller : Addr} {value : Wei} {before after : TxExecContext S}
    (run : openCreate contract caller value before = .error .contractAddrCollision after) :
    Taken before.state contract := by
  have spec : wp (openCreate contract caller value) (fun _ _ => True)
      (fun err _ => err = .contractAddrCollision → Taken before.state contract) before := by
    simp only [openCreate, wp_bind, readState, wp_reads, wp_raiseIf, wp_okOr, writeState,
      wp_update, Exec.fork, wp_when, addAddr, markDirty, wp_transfer, implies_true,
      and_true, reduceCtorEq, false_implies]
    refine ⟨trivial, fun _ _ _ => ⟨fun _ => ⟨fun used _ => .inl used, ?_⟩,
      fun _ => ⟨fun used _ => .inl used, ?_⟩⟩⟩
    · exact fun _ coded _ => .inr coded
    · exact fun _ coded _ => .inr coded
  exact wp_error spec run rfl

theorem accepts_of_hash
    {state : S} {account : Addr} (codeless : Codeless state account)
    (hash : (getCode state account).getHash = 0 ∨
      (getCode state account).getHash = Hash.emptyBytesHash) : Accepts state account := by
  rintro before after caller value rfl run
  obtain used | coded := openCreate_collides run
  · exact used codeless.nonce
  · exact hash.elim coded.1 coded.2

omit [Keccak256] in
/-- `EXTCODEHASH` pushes the hash of the code. -/
theorem extCodeHash_peek
    {before after : TxExecContext S} (run : extCodeHash before = .ok () after) :
    after.curCall.stack.peek =
      some (getCode before.state (operand before 0).toAddr).getHash := by
  unfold extCodeHash at run
  obtain ⟨-, run⟩ := requireFork_bind_ok run
  obtain ⟨word, asked, pops, run⟩ := bind_ok.mp run
  obtain ⟨rfl, rfl⟩ := Exec.consume1_ok pops
  obtain ⟨_, paid, pays, run⟩ := bind_ok.mp run
  replace run := reads_bind_ok.mp run
  obtain ⟨stack, top, rfl⟩ := Exec.push_ok run
  have quiet : (popped before 1).Quiet paid := Moves.ok pays
  rw [quiet.state] at top
  exact top

/-- A frame of Constantinople with an address on its stack. -/
def asking (state : S) (account : Addr) : TxExecContext S where
  callStack := []
  curCall :=
    { CallFrame.new emptyCode [] 0 0 0 (.call ⟨none, 0, 0⟩) 1000 false .constantinople with
      stack := ⟨Vector.replicate maxStackDepth account.toU256, 1, by decide⟩ }
  state := state
  committedState := state
  refund := 0
  accessList := ⟨∅, []⟩
  destroyed := HashSet.empty
  dirty := HashSet.empty
  status := .running
  origin := 0
  gasPrice := 0
  env := Sample.env .constantinople

omit [WorldState S] in
theorem operand_asking (state : S) (account : Addr) :
    (operand (asking state account) 0).toAddr = account := by
  have top : operand (asking state account) 0 = account.toU256 := by
    change (Vector.replicate maxStackDepth account.toU256)[0]?.getD 0 = _
    rw [Vector.getElem?_replicate, if_pos (by decide)]
    rfl
  rw [top, Addr.toAddr_toU256]

/-- It can afford to ask for the hash of the code. -/
theorem asking_runs (state : S) (account : Addr) :
    ∃ after, extCodeHash (asking state account) = .ok () after := ⟨_, rfl⟩

theorem answersZero_iff (state : S) (account : Addr) :
    AnswersZero state account ↔ (getCode state account).getHash = 0 := by
  constructor
  · intro answers
    obtain ⟨after, runs⟩ := asking_runs state account
    have found := extCodeHash_peek runs
    rw [answers rfl (operand_asking state account) runs, operand_asking] at found
    exact (Option.some.inj found).symm
  · rintro zero before after rfl asked run
    rw [extCodeHash_peek run, asked, zero]

/-! ## No hash is taken for no code in all three -/

/-- For every account without nonce, balance and code, in every state, one of the three
places is wrong.  A hash of zero, as documented, passes for code where empty accounts
are found; the hash of the empty string passes for code in `EXTCODEHASH`. -/
theorem no_hash_is_taken_for_empty
    (known : Hash.emptyBytesHash ≠ 0) {state : S} {account : Addr}
    (codeless : Codeless state account) :
    ¬TakenForEmpty state account ∧
      ((getCode state account).getHash = 0 →
        isEmpty state account = false ∧ Accepts state account ∧
          AnswersZero state account) ∧
      ((getCode state account).getHash = Hash.emptyBytesHash →
        isEmpty state account = true ∧ Accepts state account ∧
          ¬AnswersZero state account) := by
  have empty := isEmpty_iff codeless
  have answers := answersZero_iff state account
  refine ⟨?_, ?_, ?_⟩
  · rintro ⟨isEmpty, -, zero⟩
    exact known ((empty.mp isEmpty).symm.trans (answers.mp zero))
  · intro zero
    refine ⟨Bool.eq_false_iff.mpr fun isEmpty => ?_, ?_, answers.mpr zero⟩
    · exact known ((empty.mp isEmpty).symm.trans zero)
    · exact accepts_of_hash codeless (.inl zero)
  · intro hash
    refine ⟨empty.mpr hash, accepts_of_hash codeless (.inr hash), fun zero => ?_⟩
    exact known (hash.symm.trans (answers.mp zero))

end Law
namespace Sample

/-- The digest of the empty string. -/
@[reducible] def emptyKeccak : Keccak256 :=
  keccak [([], 0xc5d2460186f7233c927e7db2dcc703c0e500b653ca82273b7bfad8045d85a470)]

/-- A source without accounts that returns what it is told to return. -/
def documented : WorldStateR where
  getState _ _ := 0
  getBalance _ := 0
  getCode _ := ⟨fun _ => false, [], 0⟩
  getNonce _ := 0
  exist _ := false

end Sample

/-- Upon a source that returns what it is told to, no account is empty. -/
theorem documented_account_is_not_empty :
    letI := Sample.emptyKeccak
    ¬TakenForEmpty (MemStateAuto.new Sample.documented) 0xaa ∧
      isEmpty (MemStateAuto.new Sample.documented) 0xaa = false := by
  let := Sample.emptyKeccak
  have known : Hash.emptyBytesHash ≠ 0 := by decide +kernel
  have codeless : Codeless (MemStateAuto.new Sample.documented) 0xaa := ⟨rfl, rfl, rfl⟩
  obtain ⟨disagree, documented, -⟩ := no_hash_is_taken_for_empty known codeless
  exact ⟨disagree, (documented rfl).1⟩

/-- Upon such a source and upon the empty state, an account without nonce, balance and code
is not empty, and not without a code hash. -/
theorem conventions_for_no_code :
    letI := Sample.emptyKeccak
    Codeless (MemStateAuto.new Sample.documented) 0xaa ∧
      isEmpty (MemStateAuto.new Sample.documented) 0xaa = false ∧
      Codeless (MemStateAuto.new emptyState) 0xaa ∧
      ∃ after, extCodeHash (asking (MemStateAuto.new emptyState) 0xaa) = .ok () after ∧
        after.curCall.stack.peek =
          some 0xc5d2460186f7233c927e7db2dcc703c0e500b653ca82273b7bfad8045d85a470 := by
  let := Sample.emptyKeccak
  obtain ⟨after, runs⟩ := asking_runs (MemStateAuto.new emptyState) 0xaa
  refine ⟨⟨rfl, rfl, rfl⟩, by decide +kernel, ⟨rfl, rfl, rfl⟩, after, runs, ?_⟩
  rw [extCodeHash_peek runs]
  decide +kernel

end Qevm
