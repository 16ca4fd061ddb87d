import Qevm.Laws.NodeRuns
import Qevm.Node.Execution

/-!
# The hashes that a block reads

While a block is executed, the hashes of earlier blocks are read from the index of the node.
They are those of the block's own ancestors as far as the index is its line, which it need not
be when several lists of blocks are added at once.
-/

namespace Qevm

open Block (hash)
open DemoChainState (Executed genesisBlock)
open Exec (blockHashWord)

/-- A number can be read: it is one of the 256 before that of the block above a parent. -/
def Readable (number parent : Nat) : Prop := number ≤ parent ∧ parent < number + 256

instance (number parent : Nat) : Decidable (Readable number parent) :=
  inferInstanceAs (Decidable (number ≤ parent ∧ parent < number + 256))

/-- The word of a number that can be read is the hash of the block; that of any other is
zero. -/
theorem blockHashWord_eq
    {env : TxExecEnv} {parent : UInt64} (small : parent.toNat + 1 < 2 ^ 64)
    (above : env.block.number = BitVec.ofNat 256 (parent + 1).toNat) (number : U256) :
    blockHashWord env number =
      if Readable number.toNat parent.toNat then env.blockHashGetter (U256.lowU64 number)
      else 0 := by
  have next : (parent + 1).toNat = parent.toNat + 1 := by
    rw [UInt64.toNat_add]
    exact Nat.mod_eq_of_lt small
  have upper : U256.lowU64 env.block.number = parent + 1 := by
    rw [above, U256.lowU64, BitVec.toNat_ofNat, Nat.mod_eq_of_lt
      (Nat.lt_trans (parent + 1).toNat_lt (by decide)), UInt64.ofNat_toNat]
  unfold blockHashWord
  cases fits : checkedAsU64 number with
  | none =>
      have wide := wide_of_checkedAsU64 fits
      rw [if_neg fun readable : Readable _ _ => by have low := readable.1; omega]
  | some n =>
      have same := toNat_checkedAsU64 fits
      have low : n = U256.lowU64 number := by
        rw [U256.lowU64, ← same, UInt64.ofNat_toNat]
      have window : (n < (if parent + 1 ≥ 256 then parent + 1 - 256 else 0) ∨ n ≥ parent + 1) ↔
          ¬Readable number.toNat parent.toNat := by
        unfold Readable
        rw [← same]
        by_cases old : parent + 1 ≥ 256
        · have fits : (256 : UInt64).toNat = 256 := rfl
          have old' := UInt64.le_iff_toNat_le.mp old
          rw [if_pos old, UInt64.lt_iff_toNat_lt, ge_iff_le, UInt64.le_iff_toNat_le,
            UInt64.toNat_sub_of_le _ _ old, next, fits]
          rw [next, fits] at old'
          omega
        · have young := UInt64.lt_iff_toNat_lt.mp (UInt64.not_le.mp old)
          have fits : (256 : UInt64).toNat = 256 := rfl
          have zero : (0 : UInt64).toNat = 0 := rfl
          rw [if_neg old, UInt64.lt_iff_toNat_lt, ge_iff_le, UInt64.le_iff_toNat_le, next, zero]
          rw [next, fits] at young
          omega
      simp only [upper]
      rw [← low]
      by_cases readable : Readable number.toNat parent.toNat
      · rw [if_pos readable, if_neg fun outside => window.mp outside readable]
      · rw [if_neg readable, if_pos (window.mpr readable)]

section Runs

variable {δ η : Type} [Keccak256] [Secp256k1] [Rlp.Reader] [Database δ Bytes Bytes]
  [NodeHasher η]

namespace DemoNode

variable {node : DemoNode δ η} {chainId : U256} {g above ancestor : DemoBlock} {bound : Nat}
  {genesis : Executed} {handler : AddBlocks} {ancestors path : List DemoBlock} {n : U256}

omit [Secp256k1] [Rlp.Reader] [Database δ Bytes Bytes] [NodeHasher η] in
/-- The word of a number during the execution of a block. -/
theorem word_of_number
    (number : handler.number = above.number) (small : above.number.toNat + 1 < 2 ^ 64)
    (block : DemoBlock) (executed : Executed) (n : U256) :
    blockHashWord (node.state.getExecEnv (AddBlocks.fill handler block executed)) n =
      if Readable n.toNat above.number.toNat then
        (node.state.getExecEnv (AddBlocks.fill handler block executed)).blockHashGetter
          (U256.lowU64 n)
      else 0 := by
  refine blockHashWord_eq small ?_ n
  rw [← number]
  rfl

omit [Database δ Bytes Bytes] [NodeHasher η] in
/-- A member of a line stands at its number. -/
theorem number_of_line
    {stored : List DemoBlock} (sound : Stored chainId g stored)
    (lineage : BlockLine g stored ancestors above) {place : Nat}
    (found : ancestors[place]? = some ancestor) : ancestor.number.toNat = place := by
  have depth := (lineage.take found).length_eq sound.ranked
  have inside := (List.getElem?_eq_some_iff.mp found).1
  rw [List.length_take, Nat.min_eq_left inside] at depth
  exact (Nat.succ.inj depth).symm

omit [Secp256k1] [Rlp.Reader] [Database δ Bytes Bytes] [NodeHasher η] in
/-- The getter looks a number up in the index. -/
theorem blockHashGetter_eq (block : DemoBlock) (number : UInt64) :
    (node.state.getExecEnv block).blockHashGetter number =
      (node.state.indexed[number.toNat]?.join.map Block.hash).getD 0 := by
  unfold DemoChainState.getExecEnv
  dsimp only
  cases node.state.indexed[number.toNat]? with
  | none => rfl
  | some place => cases place <;> rfl

omit [Database δ Bytes Bytes] [NodeHasher η] in
/-- The getter gives the hash of a stored block exactly if the index has it at its number. -/
theorem getter_eq_hash_iff
    {stored : List DemoBlock} (sound : Stored chainId g stored) {tail : DemoBlock}
    (lineage : BlockLine g stored path tail) (index : node.state.indexed = path.map some)
    (known : ancestor = g ∨ ancestor ∈ stored) (block : DemoBlock) (number : UInt64) :
    (node.state.getExecEnv block).blockHashGetter number = hash ancestor ↔
      node.state.indexed[number.toNat]? = some (some ancestor) := by
  rw [blockHashGetter_eq, index, List.getElem?_map]
  cases found : path[number.toNat]? with
  | none => exact ⟨fun zero => absurd zero.symm (sound.nonzero known), nofun⟩
  | some indexed =>
      constructor
      · intro same
        rw [sound.ranked.identified (lineage.take found).last_known known same]
        rfl
      · intro same
        rw [← Option.some.inj (Option.some.inj same)]
        rfl

omit [Database δ Bytes Bytes] [NodeHasher η] in
/-- An index that has a block has its line. -/
theorem line_is_indexed
    {stored : List DemoBlock} (sound : Stored chainId g stored) {tail : DemoBlock}
    (lineage : BlockLine g stored path tail) (index : node.state.indexed = path.map some)
    (lineageAbove : BlockLine g stored ancestors above)
    (isIndexed : node.state.indexed[above.number.toNat]? = some (some above)) {place : Nat}
    (found : ancestors[place]? = some ancestor) :
    node.state.indexed[place]? = some (some ancestor) := by
  rw [index, List.getElem?_map] at isIndexed ⊢
  obtain ⟨other, there, same⟩ := Option.map_eq_some_iff.mp isIndexed
  obtain rfl := Option.some.inj same
  have taken := (lineage.take there).unique lineageAbove sound.ranked
  rw [← taken, List.getElem?_take] at found
  split at found
  · rw [found]
    rfl
  · contradiction

variable [ReliableDatabase δ]

end DemoNode
end Runs

section

attribute [local instance] Sample.nodeHasher Sample.blockKeccak Tx.Sample.secp256k1
  Rlp.standardReader

namespace DemoNode

end DemoNode

end
end Qevm
