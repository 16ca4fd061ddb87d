import Qevm.Tx

/-!
# What a signature signs

The bytes that are hashed for signing determine the kind of the transaction, the
chain, if they name one, and every signed field.
-/

namespace Qevm

open Rlp

/-! ## The fields -/

theorem u64Item_injective {first second : UInt64}
    (same : u64Item first = u64Item second) : first = second :=
  UInt64.toNat_inj.mp (minimalBigEndian_injective (Item.data.inj same))

/-- Dropping leading digits leaves the digits of the rest of the width. -/
theorem drop_bigEndian (dropped width value : Nat) :
    (bigEndian (dropped + width) value).drop dropped = bigEndian width value := by
  induction dropped with
  | zero => rw [Nat.zero_add, List.drop_zero]
  | succ dropped inductionHypothesis =>
      rw [Nat.succ_add, bigEndian, List.drop_succ_cons, inductionHypothesis]

theorem U256.byteLength_le (word : U256) : byteLength word.toNat ≤ 32 :=
  Rlp.byteLength_le (word.isLt.trans_eq (by norm_num))

/-- The bytes that hold the significant bits are those without leading zeros. -/
theorem U256.toItem_eq (word : U256) : word.toItem = .data (minimalBigEndian word.toNat) := by
  have significant : (word.bits + 7) / 8 = byteLength word.toNat := by
    unfold U256.bits byteLength
    by_cases zero : word = 0
    · simp [zero]
    · have nonzero : word.toNat ≠ 0 := fun same => zero (BitVec.eq_of_toNat_eq same)
      rw [if_neg zero, if_neg nonzero]
      omega
  have small := word.byteLength_le
  unfold U256.toItem U256.toBigEndian minimalBigEndian
  simp only [significant]
  rw [show 32 = 4 * 8 - byteLength word.toNat + byteLength word.toNat by omega,
    drop_bigEndian]

theorem U256.toItem_injective {first second : U256}
    (same : first.toItem = second.toItem) : first = second := by
  rw [toItem_eq, toItem_eq] at same
  exact BitVec.eq_of_toNat_eq (minimalBigEndian_injective (Item.data.inj same))

theorem Addr.asBytes_ne_nil (addr : Addr) : addr.asBytes ≠ [] := by
  intro empty
  have length : addr.asBytes.length = 20 := length_bigEndian _ _
  rw [empty] at length
  contradiction

theorem nullableAddrItem_injective {first second : Option Addr}
    (same : nullableAddrItem first = nullableAddrItem second) : first = second := by
  cases first with
  | none =>
      cases second with
      | none => rfl
      | some addr => exact absurd (Item.data.inj same).symm addr.asBytes_ne_nil
  | some addr =>
      cases second with
      | none => exact absurd (Item.data.inj same) addr.asBytes_ne_nil
      | some other => exact congrArg some (Addr.asBytes_injective (Item.data.inj same))

/-- Entries have no fields, so an access list is its length. -/
theorem accessListItem_injective {first second : List AccessTuple}
    (same : accessListItem first = accessListItem second) : first = second := by
  apply List.map_injective_iff.mpr _ (Item.list.inj same)
  intro entry other _
  rfl

/-! ## The bytes that are signed -/

namespace TxLike

/-- What stands before the list of the signed fields. -/
def signedTag : TxLike → List UInt8
  | legacy tx => if tx.isProtected then [] else [TxType.legacy.toByte]
  | accessList _ => [TxType.accessList.toByte]
  | dynamicFee _ => [TxType.dynamicFee.toByte]

/-- The signed fields. -/
def signedItems (chainId : U256) : TxLike → List Item
  | legacy tx =>
      [u64Item tx.nonce, U256.toItem tx.gasPrice, u64Item tx.gas,
        nullableAddrItem tx.to_, U256.toItem tx.value, .data tx.data] ++
      if tx.isProtected then [chainId.toItem, u64Item 0, u64Item 0] else []
  | accessList tx =>
      [chainId.toItem, u64Item tx.nonce, U256.toItem tx.gasPrice, u64Item tx.gas,
        nullableAddrItem tx.to_, U256.toItem tx.value, .data tx.data,
        accessListItem tx.accessList]
  | dynamicFee tx =>
      [chainId.toItem, u64Item tx.nonce, U256.toItem tx.gasTipCap,
        U256.toItem tx.gasFeeCap, u64Item tx.gas, nullableAddrItem tx.to_,
        U256.toItem tx.value, .data tx.data, accessListItem tx.accessList]

theorem signedBytes_eq (tx : TxLike) (chainId : U256) :
    tx.signedBytes chainId =
      tx.signedTag ++ (Item.list (tx.signedItems chainId)).encode := by
  cases tx with
  | legacy tx =>
      unfold signedBytes signedTag signedItems
      by_cases isProtected : tx.isProtected
      · simp only [isProtected, if_true]
        rfl
      · simp only [isProtected, Bool.false_eq_true, if_false]
        rfl
  | accessList tx => rfl
  | dynamicFee tx => rfl

/-- A tag is no first byte of a list. -/
theorem signedTag_cases (tx : TxLike) :
    tx.signedTag = [] ∨ ∃ byte, byte < 0xc0 ∧ tx.signedTag = [byte] := by
  cases tx with
  | legacy tx =>
      simp only [signedTag]
      split
      · exact .inl rfl
      · exact .inr ⟨_, by decide, rfl⟩
  | accessList tx => exact .inr ⟨_, by decide, rfl⟩
  | dynamicFee tx => exact .inr ⟨_, by decide, rfl⟩

/-- The type and the protection that a tag tells. -/
def kindOfTag : List UInt8 → TxType × Bool
  | [] => (.legacy, true)
  | [0] => (.legacy, false)
  | [1] => (.accessList, true)
  | _ => (.dynamicFee, true)

theorem kindOfTag_signedTag (tx : TxLike) :
    kindOfTag tx.signedTag = (tx.type, tx.isProtected) := by
  cases tx with
  | legacy tx =>
      simp only [signedTag, type, isProtected]
      by_cases isProtected : tx.isProtected
      · rw [if_pos isProtected, isProtected]
        rfl
      · rw [if_neg isProtected, Bool.eq_false_iff.mpr isProtected]
        rfl
  | accessList tx => rfl
  | dynamicFee tx => rfl

/-- The bytes that are signed tell the tag and the list of the signed fields. -/
theorem signedBytes_injective
    {first second : TxLike} {chainId otherChainId : U256}
    (fits : (first.signedBytes chainId).length < 2 ^ 64)
    (same : first.signedBytes chainId = second.signedBytes otherChainId) :
    first.signedTag = second.signedTag ∧
      first.signedItems chainId = second.signedItems otherChainId := by
  have otherFits : (second.signedBytes otherChainId).length < 2 ^ 64 := same ▸ fits
  rw [signedBytes_eq, List.length_append] at fits otherFits
  rw [signedBytes_eq, signedBytes_eq] at same
  obtain ⟨head, tail, firstEncoding, firstList⟩ :=
    Item.encode_list_head (first.signedItems chainId) (by omega)
  obtain ⟨otherHead, otherTail, secondEncoding, secondList⟩ :=
    Item.encode_list_head (second.signedItems otherChainId) (by omega)
  have tags : first.signedTag = second.signedTag := by
    rw [firstEncoding, secondEncoding] at same
    obtain none | ⟨byte, small, one⟩ := first.signedTag_cases
    · obtain otherNone | ⟨other, otherSmall, otherOne⟩ := second.signedTag_cases
      · rw [none, otherNone]
      · rw [none, otherOne] at same
        have heads := (List.cons.inj same).1
        exact absurd otherSmall (UInt8.not_lt.mpr (heads ▸ firstList))
    · obtain otherNone | ⟨other, otherSmall, otherOne⟩ := second.signedTag_cases
      · rw [one, otherNone] at same
        have heads := (List.cons.inj same).1
        exact absurd small (UInt8.not_lt.mpr (heads ▸ secondList))
      · rw [one, otherOne] at same ⊢
        rw [(List.cons.inj same).1]
  rw [tags, List.append_cancel_left_eq] at same
  exact ⟨tags, Item.list.inj (Item.encode_injective (by omega) same)⟩

/-- The fields of two transactions that are both hashed for signing as they are. -/
structure SameFields
    (first second : TxLike) (chainId otherChainId : U256) : Prop where
  chain : first.isProtected → chainId = otherChainId
  nonce : first.nonce = second.nonce
  gasPrice : first.gasPrice = second.gasPrice
  gasTipCap : first.gasTipCap = second.gasTipCap
  gasFeeCap : first.gasFeeCap = second.gasFeeCap
  gas : first.gas = second.gas
  to_ : first.to_ = second.to_
  value : first.value = second.value
  data : first.data = second.data
  entries : first.entries = second.entries

theorem signedItems_legacy
    {first second : TxLegacy} {chainId otherChainId : U256}
    (kinds : first.isProtected = second.isProtected)
    (same : (legacy first).signedItems chainId =
      (legacy second).signedItems otherChainId) :
    SameFields (legacy first) (legacy second) chainId otherChainId := by
  simp only [signedItems, kinds, List.cons_append, List.nil_append,
    List.cons.injEq] at same
  obtain ⟨nonce, gasPrice, gas, to_, value, data, last⟩ := same
  have samePrice := U256.toItem_injective gasPrice
  exact
    { chain := by
        intro isProtected
        have otherProtected : second.isProtected := kinds ▸ isProtected
        rw [if_pos otherProtected, if_pos otherProtected] at last
        exact U256.toItem_injective (List.cons.inj last).1
      nonce := u64Item_injective nonce
      gasPrice := samePrice
      gasTipCap := samePrice
      gasFeeCap := samePrice
      gas := u64Item_injective gas
      to_ := nullableAddrItem_injective to_
      value := U256.toItem_injective value
      data := Item.data.inj data
      entries := rfl }

theorem signedItems_accessList
    {first second : TxAccessList} {chainId otherChainId : U256}
    (same : (accessList first).signedItems chainId =
      (accessList second).signedItems otherChainId) :
    SameFields (accessList first) (accessList second) chainId otherChainId := by
  simp only [signedItems, List.cons.injEq, and_true] at same
  obtain ⟨chain, nonce, gasPrice, gas, to_, value, data, entries⟩ := same
  have samePrice := U256.toItem_injective gasPrice
  exact
    { chain := fun _ => U256.toItem_injective chain
      nonce := u64Item_injective nonce
      gasPrice := samePrice
      gasTipCap := samePrice
      gasFeeCap := samePrice
      gas := u64Item_injective gas
      to_ := nullableAddrItem_injective to_
      value := U256.toItem_injective value
      data := Item.data.inj data
      entries := congrArg some (accessListItem_injective entries) }

theorem signedItems_dynamicFee
    {first second : TxDynamicFee} {chainId otherChainId : U256}
    (same : (dynamicFee first).signedItems chainId =
      (dynamicFee second).signedItems otherChainId) :
    SameFields (dynamicFee first) (dynamicFee second) chainId otherChainId := by
  simp only [signedItems, List.cons.injEq, and_true] at same
  obtain ⟨chain, nonce, gasTipCap, gasFeeCap, gas, to_, value, data, entries⟩ := same
  have sameFeeCap := U256.toItem_injective gasFeeCap
  exact
    { chain := fun _ => U256.toItem_injective chain
      nonce := u64Item_injective nonce
      gasPrice := sameFeeCap
      gasTipCap := U256.toItem_injective gasTipCap
      gasFeeCap := sameFeeCap
      gas := u64Item_injective gas
      to_ := nullableAddrItem_injective to_
      value := U256.toItem_injective value
      data := Item.data.inj data
      entries := congrArg some (accessListItem_injective entries) }

/-- If two transactions, of any kinds and for any chains, hash the same bytes for
signing, they are of the same kind and agree in the chain, where it is signed, and
in every field except the signature. -/
theorem signed_bytes_bind_the_transaction
    (first second : TxLike) (chainId otherChainId : U256) (bytes : Buffer)
    (signed : first.signedBytes chainId = bytes.toList)
    (otherSigned : second.signedBytes otherChainId = bytes.toList) :
    first.type = second.type ∧
      first.isProtected = second.isProtected ∧
      SameFields first second chainId otherChainId := by
  have fits : (first.signedBytes chainId).length < 2 ^ 64 := by
    rw [signed]
    exact bytes.fits.trans (by decide)
  obtain ⟨tags, items⟩ := signedBytes_injective fits (signed.trans otherSigned.symm)
  have kinds := congrArg kindOfTag tags
  rw [kindOfTag_signedTag, kindOfTag_signedTag, Prod.mk.injEq] at kinds
  refine ⟨kinds.1, kinds.2, ?_⟩
  match first, second, kinds with
  | legacy first, legacy second, kinds => exact signedItems_legacy kinds.2 items
  | accessList first, accessList second, _ => exact signedItems_accessList items
  | dynamicFee first, dynamicFee second, _ => exact signedItems_dynamicFee items
  | legacy _, accessList _, kinds => exact absurd kinds.1 (by simp [type])
  | legacy _, dynamicFee _, kinds => exact absurd kinds.1 (by simp [type])
  | accessList _, legacy _, kinds => exact absurd kinds.1 (by simp [type])
  | accessList _, dynamicFee _, kinds => exact absurd kinds.1 (by simp [type])
  | dynamicFee _, legacy _, kinds => exact absurd kinds.1 (by simp [type])
  | dynamicFee _, accessList _, kinds => exact absurd kinds.1 (by simp [type])

/-- A contract creation with either recovery bit, of a signature that names no
chain. -/
def Sample.deployment (v : U256) : TxLike :=
  .legacy ⟨7, 1, 53000, none, 5, [0x60, 0x01], v, 1, 1⟩

theorem recovery_bit_is_not_signed :
    SameFields (Sample.deployment 27) (Sample.deployment 28) 1 2 := by
  let bytes : Buffer := ⟨(Sample.deployment 27).signedBytes 1, by decide +kernel⟩
  have otherSigned : (Sample.deployment 28).signedBytes 2 = bytes.toList := by
    decide +kernel
  exact (signed_bytes_bind_the_transaction (Sample.deployment 27) (Sample.deployment 28)
    1 2 bytes rfl otherSigned).2.2

end TxLike
end Qevm
