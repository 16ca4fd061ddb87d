import Qevm.Laws.Signing

/-!
# Encoding what was decoded

A decoded transaction re-encodes to the bytes it was decoded from exactly when
these are the encoding of a list with as many items as the transaction has fields
and with only empty lists in its access list.  The contents of an access list
are lost, while the hash of the transaction is that of the bytes.
-/

namespace Qevm

open Rlp

namespace Tx

/-- The encodings of lists with one item a field and with only empty entries in
their access lists. -/
inductive Canonical : Bytes → Prop
  | legacy (items : List Item) :
      items.length = 9 → Canonical (Item.list items).encode
  | accessList (items : List Item) (entries : Nat) :
      items.length = 11 →
      items[7]? = some (.list (List.replicate entries (.list []))) →
        Canonical (1 :: (Item.list items).encode)
  | dynamicFee (items : List Item) (entries : Nat) :
      items.length = 12 →
      items[8]? = some (.list (List.replicate entries (.list []))) →
        Canonical (2 :: (Item.list items).encode)

theorem accessListItem_eq (entries : List AccessTuple) :
    accessListItem entries = .list (List.replicate entries.length (.list [])) := by
  rw [accessListItem]
  exact congrArg Item.list List.map_const'

/-- What is encoded is canonical. -/
theorem canonical_encode (tx : TxLike) : Canonical tx.encode := by
  cases tx with
  | legacy tx => exact .legacy _ rfl
  | accessList tx => exact .accessList _ _ rfl (congrArg some (accessListItem_eq _))
  | dynamicFee tx => exact .dynamicFee _ _ rfl (congrArg some (accessListItem_eq _))

/-! ## Reading the fields of a canonical list -/

section Reading

variable [Reader] [LawfulReader] {item : Item} {items : List Item} {index : Nat}

/-- Only the encoding of a number is read as that number. -/
theorem decodeUint_encode
    {width n : Nat} (fits : item.encode.length < 2 ^ 64)
    (decoded : decodeUint width item.encode = some n) :
    item = .data (minimalBigEndian n) ∧ n < 256 ^ width := by
  unfold decodeUint at decoded
  cases item with
  | list items =>
      rw [LawfulReader.value_list fits] at decoded
      contradiction
  | data bytes =>
      rw [LawfulReader.value_data fits, Option.bind_some] at decoded
      split at decoded
      · contradiction
      · next minimal =>
          split at decoded
          · next short =>
              have number : ofBigEndian bytes = n := Option.some.inj decoded
              constructor
              · rw [← number, minimalBigEndian_ofBigEndian minimal]
              · rw [← number]
                exact (ofBigEndian_lt bytes).trans_le
                  (Nat.pow_le_pow_right (by decide) short)
          · contradiction

theorem decodeU64_encode
    {value : UInt64} (fits : item.encode.length < 2 ^ 64)
    (decoded : decodeU64 item.encode = some value) : item = u64Item value := by
  obtain ⟨n, number, same⟩ := Option.map_eq_some_iff.mp decoded
  obtain ⟨encoded, small⟩ := decodeUint_encode fits number
  rw [encoded, u64Item, ← same, UInt64.toNat_ofNat_of_lt' (small.trans_eq (by norm_num))]

theorem decodeU256_encode
    {value : U256} (fits : item.encode.length < 2 ^ 64)
    (decoded : decodeU256 item.encode = some value) : item = value.toItem := by
  obtain ⟨n, number, same⟩ := Option.map_eq_some_iff.mp decoded
  obtain ⟨encoded, small⟩ := decodeUint_encode fits number
  rw [encoded, U256.toItem_eq, ← same, BitVec.toNat_ofNat,
    Nat.mod_eq_of_lt (small.trans_eq (by norm_num))]

theorem decodeBytes_encode
    {bytes : Bytes} (fits : item.encode.length < 2 ^ 64)
    (decoded : decodeBytes item.encode = some bytes) : item = .data bytes := by
  unfold decodeBytes at decoded
  cases item with
  | list items =>
      rw [LawfulReader.value_list fits] at decoded
      contradiction
  | data held =>
      rw [LawfulReader.value_data fits] at decoded
      rw [Option.some.inj decoded]

theorem decodeNullableAddr_encode
    {addr : Option Addr} (fits : item.encode.length < 2 ^ 64)
    (decoded : decodeNullableAddr item.encode = some addr) :
    item = nullableAddrItem addr := by
  unfold decodeNullableAddr at decoded
  cases item with
  | list items =>
      rw [LawfulReader.value_list fits] at decoded
      contradiction
  | data bytes =>
      rw [LawfulReader.value_data fits, Option.bind_some] at decoded
      split at decoded
      · next empty =>
          rw [← Option.some.inj decoded, List.isEmpty_iff.mp empty]
          rfl
      · split at decoded
        · next width =>
            have small : fromBigEndian bytes < 2 ^ 160 := by
              have below := ofBigEndian_lt bytes
              rw [width] at below
              exact below.trans_eq (by norm_num)
            rw [← Option.some.inj decoded, nullableAddrItem, Addr.toItem, Addr.asBytes,
              BitVec.toNat_ofNat, Nat.mod_eq_of_lt small, ← width]
            exact congrArg Item.data (bigEndian_ofBigEndian bytes).symm
        · contradiction

/-- A field that is read from a list is the item with its index. -/
theorem valAt_list
    {α : Type} {decode : Bytes → Option α} {toItem : α → Item} {value : α}
    (fits : (Item.list items).encode.length < 2 ^ 64)
    (reads : ∀ {item value}, item.encode.length < 2 ^ 64 →
      decode item.encode = some value → item = toItem value)
    (decoded : valAt decode (Item.list items).encode index = some value) :
    items[index]? = some (toItem value) := by
  rw [valAt, LawfulReader.itemAt_list fits] at decoded
  cases found : items[index]? with
  | none =>
      rw [found] at decoded
      contradiction
  | some item =>
      rw [found] at decoded
      have itemFits := item.length_encode_le_list (List.mem_of_getElem? found)
      rw [reads (itemFits.trans_lt fits) decoded]

omit [Reader] [LawfulReader] in
theorem mapM_decode (views : List Bytes) :
    views.mapM AccessTuple.decode = some (views.map fun _ => ⟨⟩) := by
  induction views with
  | nil => rfl
  | cons view views inductionHypothesis =>
      rw [List.mapM_cons, inductionHypothesis]
      rfl

/-- As many entries are read as there are items in an access list. -/
theorem listAt_list
    {entries : Nat} {accessList : List AccessTuple}
    (fits : (Item.list items).encode.length < 2 ^ 64)
    (found : items[index]? = some (.list (List.replicate entries (.list []))))
    (decoded : listAt AccessTuple.decode (Item.list items).encode index =
      some accessList) :
    items[index]? = some (accessListItem accessList) := by
  have itemFits := Item.length_encode_le_list _ (List.mem_of_getElem? found)
  rw [listAt, LawfulReader.itemAt_list fits, found, Option.map_some, Option.bind_some,
    LawfulReader.items_list (itemFits.trans_lt fits)] at decoded
  have lengths : accessList.length = entries := by
    rw [mapM_decode] at decoded
    simp [← Option.some.inj decoded]
  rw [found, accessListItem_eq, lengths]

/-- The list of the fields is the list that was read. -/
theorem toItem_of_decode_legacy
    {tx : TxLegacy} (fits : (Item.list items).encode.length < 2 ^ 64)
    (arity : items.length = 9)
    (decoded : TxLegacy.decode (Item.list items).encode = some tx) :
    tx.toItem = .list items := by
  unfold TxLegacy.decode at decoded
  obtain ⟨nonce, hNonce, decoded⟩ := Option.bind_eq_some_iff.mp decoded
  obtain ⟨gasPrice, hGasPrice, decoded⟩ := Option.bind_eq_some_iff.mp decoded
  obtain ⟨gas, hGas, decoded⟩ := Option.bind_eq_some_iff.mp decoded
  obtain ⟨to_, hTo, decoded⟩ := Option.bind_eq_some_iff.mp decoded
  obtain ⟨value, hValue, decoded⟩ := Option.bind_eq_some_iff.mp decoded
  obtain ⟨data, hData, decoded⟩ := Option.bind_eq_some_iff.mp decoded
  obtain ⟨v, hV, decoded⟩ := Option.bind_eq_some_iff.mp decoded
  obtain ⟨r, hR, decoded⟩ := Option.bind_eq_some_iff.mp decoded
  obtain ⟨s, hS, decoded⟩ := Option.bind_eq_some_iff.mp decoded
  obtain rfl := Option.some.inj decoded
  apply congrArg Item.list
  apply List.ext_getElem?
  intro index
  rcases index with _ | _ | _ | _ | _ | _ | _ | _ | _ | index
  · exact (valAt_list fits decodeU64_encode hNonce).symm
  · exact (valAt_list fits decodeU256_encode hGasPrice).symm
  · exact (valAt_list fits decodeU64_encode hGas).symm
  · exact (valAt_list fits decodeNullableAddr_encode hTo).symm
  · exact (valAt_list fits decodeU256_encode hValue).symm
  · exact (valAt_list fits decodeBytes_encode hData).symm
  · exact (valAt_list fits decodeU256_encode hV).symm
  · exact (valAt_list fits decodeU256_encode hR).symm
  · exact (valAt_list fits decodeU256_encode hS).symm
  · symm
    apply List.getElem?_eq_none
    omega

theorem toItem_of_decode_accessList
    {tx : TxAccessList} {entries : Nat}
    (fits : (Item.list items).encode.length < 2 ^ 64)
    (arity : items.length = 11)
    (found : items[7]? = some (.list (List.replicate entries (.list []))))
    (decoded : TxAccessList.decode (Item.list items).encode = some tx) :
    tx.toItem = .list items := by
  unfold TxAccessList.decode at decoded
  obtain ⟨chainId, hChainId, decoded⟩ := Option.bind_eq_some_iff.mp decoded
  obtain ⟨nonce, hNonce, decoded⟩ := Option.bind_eq_some_iff.mp decoded
  obtain ⟨gasPrice, hGasPrice, decoded⟩ := Option.bind_eq_some_iff.mp decoded
  obtain ⟨gas, hGas, decoded⟩ := Option.bind_eq_some_iff.mp decoded
  obtain ⟨to_, hTo, decoded⟩ := Option.bind_eq_some_iff.mp decoded
  obtain ⟨value, hValue, decoded⟩ := Option.bind_eq_some_iff.mp decoded
  obtain ⟨data, hData, decoded⟩ := Option.bind_eq_some_iff.mp decoded
  obtain ⟨accessList, hAccessList, decoded⟩ := Option.bind_eq_some_iff.mp decoded
  obtain ⟨v, hV, decoded⟩ := Option.bind_eq_some_iff.mp decoded
  obtain ⟨r, hR, decoded⟩ := Option.bind_eq_some_iff.mp decoded
  obtain ⟨s, hS, decoded⟩ := Option.bind_eq_some_iff.mp decoded
  obtain rfl := Option.some.inj decoded
  apply congrArg Item.list
  apply List.ext_getElem?
  intro index
  rcases index with _ | _ | _ | _ | _ | _ | _ | _ | _ | _ | _ | index
  · exact (valAt_list fits decodeU256_encode hChainId).symm
  · exact (valAt_list fits decodeU64_encode hNonce).symm
  · exact (valAt_list fits decodeU256_encode hGasPrice).symm
  · exact (valAt_list fits decodeU64_encode hGas).symm
  · exact (valAt_list fits decodeNullableAddr_encode hTo).symm
  · exact (valAt_list fits decodeU256_encode hValue).symm
  · exact (valAt_list fits decodeBytes_encode hData).symm
  · exact (listAt_list fits found hAccessList).symm
  · exact (valAt_list fits decodeU256_encode hV).symm
  · exact (valAt_list fits decodeU256_encode hR).symm
  · exact (valAt_list fits decodeU256_encode hS).symm
  · symm
    apply List.getElem?_eq_none
    omega

theorem toItem_of_decode_dynamicFee
    {tx : TxDynamicFee} {entries : Nat}
    (fits : (Item.list items).encode.length < 2 ^ 64)
    (arity : items.length = 12)
    (found : items[8]? = some (.list (List.replicate entries (.list []))))
    (decoded : TxDynamicFee.decode (Item.list items).encode = some tx) :
    tx.toItem = .list items := by
  unfold TxDynamicFee.decode at decoded
  obtain ⟨chainId, hChainId, decoded⟩ := Option.bind_eq_some_iff.mp decoded
  obtain ⟨nonce, hNonce, decoded⟩ := Option.bind_eq_some_iff.mp decoded
  obtain ⟨gasTipCap, hGasTipCap, decoded⟩ := Option.bind_eq_some_iff.mp decoded
  obtain ⟨gasFeeCap, hGasFeeCap, decoded⟩ := Option.bind_eq_some_iff.mp decoded
  obtain ⟨gas, hGas, decoded⟩ := Option.bind_eq_some_iff.mp decoded
  obtain ⟨to_, hTo, decoded⟩ := Option.bind_eq_some_iff.mp decoded
  obtain ⟨value, hValue, decoded⟩ := Option.bind_eq_some_iff.mp decoded
  obtain ⟨data, hData, decoded⟩ := Option.bind_eq_some_iff.mp decoded
  obtain ⟨accessList, hAccessList, decoded⟩ := Option.bind_eq_some_iff.mp decoded
  obtain ⟨v, hV, decoded⟩ := Option.bind_eq_some_iff.mp decoded
  obtain ⟨r, hR, decoded⟩ := Option.bind_eq_some_iff.mp decoded
  obtain ⟨s, hS, decoded⟩ := Option.bind_eq_some_iff.mp decoded
  obtain rfl := Option.some.inj decoded
  apply congrArg Item.list
  apply List.ext_getElem?
  intro index
  rcases index with _ | _ | _ | _ | _ | _ | _ | _ | _ | _ | _ | _ | index
  · exact (valAt_list fits decodeU256_encode hChainId).symm
  · exact (valAt_list fits decodeU64_encode hNonce).symm
  · exact (valAt_list fits decodeU256_encode hGasTipCap).symm
  · exact (valAt_list fits decodeU256_encode hGasFeeCap).symm
  · exact (valAt_list fits decodeU64_encode hGas).symm
  · exact (valAt_list fits decodeNullableAddr_encode hTo).symm
  · exact (valAt_list fits decodeU256_encode hValue).symm
  · exact (valAt_list fits decodeBytes_encode hData).symm
  · exact (listAt_list fits found hAccessList).symm
  · exact (valAt_list fits decodeU256_encode hV).symm
  · exact (valAt_list fits decodeU256_encode hR).symm
  · exact (valAt_list fits decodeU256_encode hS).symm
  · symm
    apply List.getElem?_eq_none
    omega

end Reading

section Malleability

variable [Keccak256] [Secp256k1]

theorem new_inner
    {inner : TxLike} {txHash : Hash} {chainId : U256} {tx : Tx}
    (created : new inner txHash chainId = .ok (some tx)) :
    tx.inner = inner ∧ tx.txHash = txHash := by
  unfold new at created
  split at created
  · contradiction
  · cases created
  · cases created
    exact ⟨rfl, rfl⟩

variable [Reader]

/-- What was decoded: a legacy transaction from a list, or a transaction of the
type of the first byte. -/
theorem decode_cases
    {bytes : Bytes} {chainId : U256} {tx : Tx}
    (decoded : decode bytes chainId = .ok (some tx)) :
    tx.txHash = Hash.hash bytes ∧
      ((∃ inner byte rest, bytes = byte :: rest ∧ byte ≥ 0xc0 ∧
          TxLegacy.decode bytes = some inner ∧ tx.inner = .legacy inner) ∨
        (∃ inner rest, bytes = 1 :: rest ∧ TxAccessList.decode rest = some inner ∧
          tx.inner = .accessList inner) ∨
        ∃ inner rest, bytes = 2 :: rest ∧ TxDynamicFee.decode rest = some inner ∧
          tx.inner = .dynamicFee inner) := by
  unfold decode at decoded
  cases bytes with
  | nil => cases decoded
  | cons byte rest =>
      simp only at decoded
      split at decoded
      · next list =>
          split at decoded
          · cases decoded
          · next inner found =>
              obtain ⟨same, hash⟩ := new_inner decoded
              exact ⟨hash, .inl ⟨inner, byte, rest, rfl, list, found, same⟩⟩
      · split at decoded
        · next one =>
            subst one
            split at decoded
            · cases decoded
            · next inner found =>
                obtain ⟨same, hash⟩ := new_inner decoded
                exact ⟨hash, .inr (.inl ⟨inner, rest, rfl, found, same⟩)⟩
        · split at decoded
          · next two =>
              subst two
              split at decoded
              · cases decoded
              · next inner found =>
                  obtain ⟨same, hash⟩ := new_inner decoded
                  exact ⟨hash, .inr (.inr ⟨inner, rest, rfl, found, same⟩)⟩
          · cases decoded

variable [LawfulReader]

theorem encode_of_canonical
    {bytes : Bytes} {chainId : U256} {tx : Tx} (fits : bytes.length < 2 ^ 64)
    (decoded : decode bytes chainId = .ok (some tx)) (canonical : Canonical bytes) :
    tx.inner.encode = bytes := by
  have kinds := (decode_cases decoded).2
  cases canonical with
  | legacy items arity =>
      obtain ⟨byte, tail, encoding, list⟩ := Item.encode_list_head items fits
      obtain ⟨inner, _, _, _, _, found, same⟩ | ⟨_, _, typed, _⟩ | ⟨_, _, typed, _⟩ := kinds
      · rw [same]
        exact congrArg Item.encode (toItem_of_decode_legacy fits arity found)
      · rw [encoding] at typed
        rw [(List.cons.inj typed).1] at list
        exact absurd list (by decide)
      · rw [encoding] at typed
        rw [(List.cons.inj typed).1] at list
        exact absurd list (by decide)
  | accessList items entries arity entriesEmpty =>
      have listFits := (Nat.lt_succ_self _).trans fits
      obtain ⟨_, _, _, typed, list, _⟩ | ⟨inner, _, typed, found, same⟩ |
        ⟨_, _, typed, _⟩ := kinds
      · rw [← (List.cons.inj typed).1] at list
        exact absurd list (by decide)
      · rw [← (List.cons.inj typed).2] at found
        rw [same]
        exact congrArg (fun item => 1 :: Item.encode item)
          (toItem_of_decode_accessList listFits arity entriesEmpty found)
      · exact absurd (List.cons.inj typed).1 (by decide)
  | dynamicFee items entries arity entriesEmpty =>
      have listFits := (Nat.lt_succ_self _).trans fits
      obtain ⟨_, _, _, typed, list, _⟩ | ⟨_, _, typed, _⟩ |
        ⟨inner, _, typed, found, same⟩ := kinds
      · rw [← (List.cons.inj typed).1] at list
        exact absurd list (by decide)
      · exact absurd (List.cons.inj typed).1 (by decide)
      · rw [← (List.cons.inj typed).2] at found
        rw [same]
        exact congrArg (fun item => 2 :: Item.encode item)
          (toItem_of_decode_dynamicFee listFits arity entriesEmpty found)

/-- A decoded transaction re-encodes to the bytes it was decoded from exactly when
these are canonical.  Canonical bytes with different hashes do not re-encode to
the same bytes. -/
theorem reencodes_iff_canonical
    (bytes : Buffer) (chainId : U256) (tx : Tx)
    (decoded : decode bytes.toList chainId = .ok (some tx)) :
    (tx.inner.encode = bytes.toList ↔ Canonical bytes.toList) ∧
      ∀ (other : Buffer) (otherTx : Tx),
        decode other.toList chainId = .ok (some otherTx) →
        Canonical bytes.toList → Canonical other.toList →
        tx.inner.encode = otherTx.inner.encode → tx.txHash = otherTx.txHash := by
  have reencode (bytes : Buffer) (tx : Tx)
      (decoded : decode bytes.toList chainId = .ok (some tx))
      (canonical : Canonical bytes.toList) : tx.inner.encode = bytes.toList :=
    encode_of_canonical (bytes.fits.trans (by decide)) decoded canonical
  refine ⟨⟨?_, reencode bytes tx decoded⟩, ?_⟩
  · intro same
    rw [← same]
    exact canonical_encode tx.inner
  · intro other otherTx otherDecoded canonical otherCanonical same
    rw [reencode bytes tx decoded canonical,
      reencode other otherTx otherDecoded otherCanonical] at same
    rw [(decode_cases decoded).1, (decode_cases otherDecoded).1, same]

end Malleability

/-! ## A transaction with an entry in its access list -/

namespace Sample

def r : U256 := 0x99c126da20397558f23658764c3a7c583db7ff706e93981cc170e27ca8336201

def s : U256 := 0x9240bc428e950f570fdaac2a91b847d5980097be4ecff125ac4e68c6b20fb8a

/-- A signed payment of 7 on chain 1, with the given access list. -/
def payment (entries : List Item) : Bytes :=
  1 :: Item.encode (.list [U256.toItem 1, u64Item 3, U256.toItem 5, u64Item 60000,
    Addr.toItem 0x1111111111111111111111111111111111111111, U256.toItem 7, .data [],
    .list entries, U256.toItem 0, r.toItem, s.toItem])

/-- The payment with an account and one of its slots in the access list. -/
def listed : Bytes :=
  payment [.list [Addr.toItem 0x2222222222222222222222222222222222222222,
    .list [.data (bigEndian 32 9)]]]

/-- The payment with an empty entry. -/
def blank : Bytes := payment [.list []]

/-- The bytes that are signed, and the key that signed them. -/
def signed : Bytes :=
  TxType.accessList.toByte :: Item.encode (.list [U256.toItem 1, u64Item 3,
    U256.toItem 5, u64Item 60000, Addr.toItem 0x1111111111111111111111111111111111111111,
    U256.toItem 7, .data [], .list [.list []]])

def signedHash : Hash := 0xd485b436e443f2202f666b7d93682c11c74d847789a4c3606b93e088e26a4662

def key : Bytes :=
  bigEndian 32 0x2a5bbcb0eede528e6abe5f2ec50ad7887eb5677af383a460b05ee23bf892dfe5 ++
    bigEndian 32 0x52c93747550eda8404c8b473786c00dfd8fd1ef4bc033f359ccf5b77bd656d21

/-- Keccak-256 on the byte strings that decoding the two payments hashes. -/
@[reducible] def keccak : Keccak256 where
  digest bytes :=
    if bytes = listed then
      0x0684daf9e4e929a2b481e93737a4da42cbcb17749c31391955c2682f79c3036d
    else if bytes = blank then
      0xb837436e925969b5c9ed4fe93a5e17005e15d184763b3bff756e41f437ba31f8
    else if bytes = signed then signedHash
    else if bytes = key then
      0x0bae6065e849109a275dbfe2f5a5e415061470a8b9137959180901aea72450a4
    else 0

/-- What is decoded from the payments. -/
def inner : TxLike :=
  .accessList ⟨1, 3, 5, 60000, some 0x1111111111111111111111111111111111111111, 7, [],
    [⟨⟩], 0, r, s⟩

def sender : Addr := 0xf5a5e415061470a8b9137959180901aea72450a4

/-- The recovery of the key from its signature. -/
@[reducible] def secp256k1 : Secp256k1 where
  recover message first second recoverId :=
    if message = signedHash ∧ first = r ∧ second = s ∧ recoverId = 0 then some (4 :: key)
    else none

end Sample

/-- Decoding a payment with an entry in its access list and encoding it again
gives other bytes, which are accepted with another hash, the same sender and the
same encoding. -/
theorem entries_are_lost :
    letI := Sample.keccak
    letI := Sample.secp256k1
    letI := standardReader
    ∃ tx otherTx : Tx, decode Sample.listed 1 = .ok (some tx) ∧
      tx.inner.encode ≠ Sample.listed ∧
      decode Sample.blank 1 = .ok (some otherTx) ∧
      tx.inner.encode = otherTx.inner.encode ∧
      tx.txHash ≠ otherTx.txHash ∧ tx.from_ = otherTx.from_ := by
  let := Sample.keccak
  let := Sample.secp256k1
  let := standardReader
  refine ⟨⟨Sample.inner, Hash.hash Sample.listed, Sample.sender⟩,
    ⟨Sample.inner, Hash.hash Sample.blank, Sample.sender⟩, ?_, ?_, ?_, rfl, ?_, rfl⟩
  · decide +kernel
  · decide +kernel
  · decide +kernel
  · decide +kernel

/-- The payment with an empty entry re-encodes to the same bytes. -/
theorem empty_entries_are_kept : Sample.inner.encode = Sample.blank := by
  let := Sample.keccak
  let := Sample.secp256k1
  let := standardReader
  have : LawfulReader := standardReader_lawful
  let bytes : Buffer := ⟨Sample.blank, by decide +kernel⟩
  let tx : Tx := ⟨Sample.inner, Hash.hash Sample.blank, Sample.sender⟩
  have decoded : decode bytes.toList 1 = .ok (some tx) := by decide +kernel
  have canonical : Canonical bytes.toList := .accessList _ 1 rfl rfl
  exact (reencodes_iff_canonical bytes 1 tx decoded).1.mpr canonical

end Tx
end Qevm
