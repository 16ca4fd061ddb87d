import Qevm.Laws.Malleability

/-!
# Decoding what was encoded

A transaction of any kind is decoded from its encoding: the decoder recovers the sender of
the transaction itself, whatever reader of items it uses.  What has been accepted once is
accepted again after it has been encoded, with the same sender.  Its hash is then that of the
encoding.
-/

namespace Qevm

open Rlp

namespace Tx

/-! ## Reading the fields of an encoded list -/

section Reading

variable [Reader] [LawfulReader] {items : List Item} {index : Nat}

/-- A number is read from its bytes. -/
theorem decodeUint_minimal
    {width n : Nat} (fits : (Item.data (minimalBigEndian n)).encode.length < 2 ^ 64)
    (small : n < 256 ^ width) :
    decodeUint width (Item.data (minimalBigEndian n)).encode = some n := by
  have short : (minimalBigEndian n).length ≤ width := by
    rw [length_minimalBigEndian]
    exact byteLength_le small
  rw [decodeUint, LawfulReader.value_data fits, Option.bind_some,
    if_neg (head?_minimalBigEndian n), if_pos short]
  exact congrArg some (ofBigEndian_minimalBigEndian n)

theorem decodeU64_item (value : UInt64) (fits : (u64Item value).encode.length < 2 ^ 64) :
    decodeU64 (u64Item value).encode = some value := by
  have small : value.toNat < 256 ^ 8 := value.toNat_lt.trans_eq (by norm_num)
  rw [decodeU64, u64Item, decodeUint_minimal fits small, Option.map_some,
    UInt64.ofNat_toNat]

theorem decodeU256_item (value : U256) (fits : value.toItem.encode.length < 2 ^ 64) :
    decodeU256 value.toItem.encode = some value := by
  have small : value.toNat < 256 ^ 32 := value.isLt.trans_eq (by norm_num)
  rw [U256.toItem_eq] at fits ⊢
  rw [decodeU256, decodeUint_minimal fits small, Option.map_some, BitVec.ofNat_toNat,
    BitVec.setWidth_eq]

theorem decodeBytes_item (bytes : Bytes) (fits : (Item.data bytes).encode.length < 2 ^ 64) :
    decodeBytes (Item.data bytes).encode = some bytes :=
  LawfulReader.value_data fits

theorem decodeNullableAddr_item
    (addr : Option Addr) (fits : (nullableAddrItem addr).encode.length < 2 ^ 64) :
    decodeNullableAddr (nullableAddrItem addr).encode = some addr := by
  unfold decodeNullableAddr
  cases addr with
  | none =>
      rw [nullableAddrItem, LawfulReader.value_data fits]
      rfl
  | some addr =>
      have width : addr.asBytes.length = 20 := length_bigEndian 20 addr.toNat
      have present : addr.asBytes.isEmpty = false := by
        rw [List.isEmpty_eq_false_iff]
        exact Addr.asBytes_ne_nil addr
      have number : fromBigEndian addr.asBytes = addr.toNat := by
        refine (ofBigEndian_bigEndian 20 addr.toNat).trans ?_
        exact Nat.mod_eq_of_lt (addr.isLt.trans_eq (by norm_num))
      rw [nullableAddrItem, Addr.toItem, LawfulReader.value_data fits, Option.bind_some,
        present, if_neg (by decide), if_pos width, number, BitVec.ofNat_toNat,
        BitVec.setWidth_eq]

/-- A field is read from the item with its index. -/
theorem valAt_item
    {α : Type} {decode : Bytes → Option α} {toItem : α → Item} {value : α}
    (fits : (Item.list items).encode.length < 2 ^ 64)
    (reads : ∀ value, (toItem value).encode.length < 2 ^ 64 →
      decode (toItem value).encode = some value)
    (found : items[index]? = some (toItem value)) :
    valAt decode (Item.list items).encode index = some value := by
  have itemFits := Item.length_encode_le_list _ (List.mem_of_getElem? found)
  rw [valAt, LawfulReader.itemAt_list fits, found, Option.map_some, Option.bind_some,
    reads value (itemFits.trans_lt fits)]

/-- An access list is read with all its entries. -/
theorem listAt_item
    {accessList : List AccessTuple} (fits : (Item.list items).encode.length < 2 ^ 64)
    (found : items[index]? = some (accessListItem accessList)) :
    listAt AccessTuple.decode (Item.list items).encode index = some accessList := by
  have itemFits := Item.length_encode_le_list _ (List.mem_of_getElem? found)
  rw [accessListItem] at found itemFits
  rw [listAt, LawfulReader.itemAt_list fits, found, Option.map_some, Option.bind_some,
    LawfulReader.items_list (itemFits.trans_lt fits), mapM_decode, List.map_map,
    List.map_map]
  exact congrArg some (List.map_id accessList)

/-- The fields of a transaction are read from its list. -/
theorem decode_toItem_legacy
    (tx : TxLegacy) (fits : tx.toItem.encode.length < 2 ^ 64) :
    TxLegacy.decode tx.toItem.encode = some tx := by
  unfold TxLegacy.toItem at fits ⊢
  unfold TxLegacy.decode
  refine Option.bind_eq_some_iff.mpr ⟨tx.nonce, valAt_item fits decodeU64_item rfl, ?_⟩
  refine Option.bind_eq_some_iff.mpr ⟨tx.gasPrice, valAt_item fits decodeU256_item rfl, ?_⟩
  refine Option.bind_eq_some_iff.mpr ⟨tx.gas, valAt_item fits decodeU64_item rfl, ?_⟩
  refine Option.bind_eq_some_iff.mpr ⟨tx.to_, valAt_item fits decodeNullableAddr_item rfl, ?_⟩
  refine Option.bind_eq_some_iff.mpr ⟨tx.value, valAt_item fits decodeU256_item rfl, ?_⟩
  refine Option.bind_eq_some_iff.mpr ⟨tx.data, valAt_item fits decodeBytes_item rfl, ?_⟩
  refine Option.bind_eq_some_iff.mpr ⟨tx.v, valAt_item fits decodeU256_item rfl, ?_⟩
  refine Option.bind_eq_some_iff.mpr ⟨tx.r, valAt_item fits decodeU256_item rfl, ?_⟩
  refine Option.bind_eq_some_iff.mpr ⟨tx.s, valAt_item fits decodeU256_item rfl, ?_⟩
  rfl

theorem decode_toItem_accessList
    (tx : TxAccessList) (fits : tx.toItem.encode.length < 2 ^ 64) :
    TxAccessList.decode tx.toItem.encode = some tx := by
  unfold TxAccessList.toItem at fits ⊢
  unfold TxAccessList.decode
  refine Option.bind_eq_some_iff.mpr ⟨tx.chainId, valAt_item fits decodeU256_item rfl, ?_⟩
  refine Option.bind_eq_some_iff.mpr ⟨tx.nonce, valAt_item fits decodeU64_item rfl, ?_⟩
  refine Option.bind_eq_some_iff.mpr ⟨tx.gasPrice, valAt_item fits decodeU256_item rfl, ?_⟩
  refine Option.bind_eq_some_iff.mpr ⟨tx.gas, valAt_item fits decodeU64_item rfl, ?_⟩
  refine Option.bind_eq_some_iff.mpr ⟨tx.to_, valAt_item fits decodeNullableAddr_item rfl, ?_⟩
  refine Option.bind_eq_some_iff.mpr ⟨tx.value, valAt_item fits decodeU256_item rfl, ?_⟩
  refine Option.bind_eq_some_iff.mpr ⟨tx.data, valAt_item fits decodeBytes_item rfl, ?_⟩
  refine Option.bind_eq_some_iff.mpr ⟨tx.accessList, listAt_item fits rfl, ?_⟩
  refine Option.bind_eq_some_iff.mpr ⟨tx.v, valAt_item fits decodeU256_item rfl, ?_⟩
  refine Option.bind_eq_some_iff.mpr ⟨tx.r, valAt_item fits decodeU256_item rfl, ?_⟩
  refine Option.bind_eq_some_iff.mpr ⟨tx.s, valAt_item fits decodeU256_item rfl, ?_⟩
  rfl

theorem decode_toItem_dynamicFee
    (tx : TxDynamicFee) (fits : tx.toItem.encode.length < 2 ^ 64) :
    TxDynamicFee.decode tx.toItem.encode = some tx := by
  unfold TxDynamicFee.toItem at fits ⊢
  unfold TxDynamicFee.decode
  refine Option.bind_eq_some_iff.mpr ⟨tx.chainId, valAt_item fits decodeU256_item rfl, ?_⟩
  refine Option.bind_eq_some_iff.mpr ⟨tx.nonce, valAt_item fits decodeU64_item rfl, ?_⟩
  refine Option.bind_eq_some_iff.mpr ⟨tx.gasTipCap, valAt_item fits decodeU256_item rfl, ?_⟩
  refine Option.bind_eq_some_iff.mpr ⟨tx.gasFeeCap, valAt_item fits decodeU256_item rfl, ?_⟩
  refine Option.bind_eq_some_iff.mpr ⟨tx.gas, valAt_item fits decodeU64_item rfl, ?_⟩
  refine Option.bind_eq_some_iff.mpr ⟨tx.to_, valAt_item fits decodeNullableAddr_item rfl, ?_⟩
  refine Option.bind_eq_some_iff.mpr ⟨tx.value, valAt_item fits decodeU256_item rfl, ?_⟩
  refine Option.bind_eq_some_iff.mpr ⟨tx.data, valAt_item fits decodeBytes_item rfl, ?_⟩
  refine Option.bind_eq_some_iff.mpr ⟨tx.accessList, listAt_item fits rfl, ?_⟩
  refine Option.bind_eq_some_iff.mpr ⟨tx.v, valAt_item fits decodeU256_item rfl, ?_⟩
  refine Option.bind_eq_some_iff.mpr ⟨tx.r, valAt_item fits decodeU256_item rfl, ?_⟩
  refine Option.bind_eq_some_iff.mpr ⟨tx.s, valAt_item fits decodeU256_item rfl, ?_⟩
  rfl

end Reading

/-! ## Accepting a transaction again -/

section Accepting

variable [Keccak256] [Secp256k1]

/-- The sender of a transaction is the one that is recovered from it. -/
theorem recoverSender_of_new
    {inner : TxLike} {txHash : Hash} {chainId : U256} {tx : Tx}
    (created : new inner txHash chainId = .ok (some tx)) :
    inner.recoverSender chainId = .ok (some tx.from_) := by
  unfold new at created
  split at created
  · contradiction
  · cases created
  · next sender recovered =>
      cases created
      exact recovered

variable [Reader]

/-- A decoded transaction has been created from its fields. -/
theorem recoverSender_of_decode
    {bytes : Bytes} {chainId : U256} {tx : Tx}
    (decoded : decode bytes chainId = .ok (some tx)) :
    tx.inner.recoverSender chainId = .ok (some tx.from_) := by
  have created {inner : TxLike} {txHash : Hash}
      (created : new inner txHash chainId = .ok (some tx)) :
      tx.inner.recoverSender chainId = .ok (some tx.from_) := by
    rw [(new_inner created).1]
    exact recoverSender_of_new created
  unfold decode at decoded
  cases bytes with
  | nil => cases decoded
  | cons byte rest =>
      simp only at decoded
      split at decoded
      · split at decoded
        · cases decoded
        · exact created decoded
      · split at decoded
        · split at decoded
          · cases decoded
          · exact created decoded
        · split at decoded
          · split at decoded
            · cases decoded
            · exact created decoded
          · cases decoded

variable [LawfulReader]

/-- An encoding is decoded as the transaction that was encoded, with the hash of the
encoding. -/
theorem decode_encode
    (tx : TxLike) (chainId : U256) (fits : tx.encode.length < 2 ^ 64) :
    decode tx.encode chainId = new tx (Hash.hash tx.encode) chainId := by
  cases tx with
  | legacy tx =>
      obtain ⟨byte, tail, encoding, isList⟩ := Item.encode_list_head _ fits
      have read := decode_toItem_legacy tx fits
      change TxLegacy.decode tx.encode = some tx at read
      change decode tx.encode chainId = new _ (Hash.hash tx.encode) chainId
      have bytes : tx.encode = byte :: tail := encoding
      rw [bytes] at read ⊢
      simp only [decode, if_pos isList, read]
  | accessList tx =>
      have read := decode_toItem_accessList tx ((Nat.lt_succ_self _).trans fits)
      change decode (1 :: tx.toItem.encode) chainId = _
      simp only [decode, read]
      rfl
  | dynamicFee tx =>
      have read := decode_toItem_dynamicFee tx ((Nat.lt_succ_self _).trans fits)
      change decode (2 :: tx.toItem.encode) chainId = _
      simp only [decode, read]
      rfl

/-- What has been accepted is accepted from its encoding. -/
theorem decode_again
    {bytes : Bytes} {chainId : U256} {tx : Tx}
    (decoded : decode bytes chainId = .ok (some tx)) (fits : tx.inner.encode.length < 2 ^ 64) :
    decode tx.inner.encode chainId =
      .ok (some ⟨tx.inner, Hash.hash tx.inner.encode, tx.from_⟩) := by
  rw [decode_encode tx.inner chainId fits, new, recoverSender_of_decode decoded]

/-- Decoding an encoding recovers the sender of the transaction that was encoded, and fails
or panics as that recovery does.  A transaction that has been accepted from any bytes is
accepted again from its encoding, with the same fields and the same sender. -/
theorem encodings_are_accepted (chainId : U256) :
    (∀ tx : TxLike, tx.encode.length < 2 ^ 64 →
      decode tx.encode chainId = new tx (Hash.hash tx.encode) chainId) ∧
    ∀ (bytes : Bytes) (tx : Tx), decode bytes chainId = .ok (some tx) →
      tx.inner.encode.length < 2 ^ 64 →
      decode tx.inner.encode chainId =
        .ok (some ⟨tx.inner, Hash.hash tx.inner.encode, tx.from_⟩) :=
  ⟨fun tx fits => decode_encode tx chainId fits,
    fun _ _ decoded fits => decode_again decoded fits⟩

end Accepting

/-- The payment whose entry is lost is accepted again, from the same sender. -/
theorem payment_is_accepted_again :
    letI := Sample.keccak
    letI := Sample.secp256k1
    letI := standardReader
    decode Sample.inner.encode 1 =
      .ok (some ⟨Sample.inner, Hash.hash Sample.blank, Sample.sender⟩) := by
  let := Sample.keccak
  let := Sample.secp256k1
  let := standardReader
  have : LawfulReader := standardReader_lawful
  let tx : Tx := ⟨Sample.inner, Hash.hash Sample.listed, Sample.sender⟩
  have decoded : decode Sample.listed 1 = .ok (some tx) := by decide +kernel
  have again := (encodings_are_accepted 1).2 Sample.listed tx decoded (by decide +kernel)
  have encoding : tx.inner.encode = Sample.blank := by decide +kernel
  rw [encoding] at again
  change decode tx.inner.encode 1 = _
  rw [encoding]
  exact again

end Tx
end Qevm
