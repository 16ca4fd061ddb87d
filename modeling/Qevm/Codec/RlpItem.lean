import Qevm.Codec.BigEndian

/-!
# Items

An item is a byte string or a list of items.  The encodings of items are
unambiguous: what follows an item does not change where it ends, and different
items have different encodings.

Encodings have fewer than 2^64 bytes, as a longer length has no header.
-/

namespace Rlp

/-- A byte string or a list of items. -/
inductive Item
  | data (bytes : List UInt8)
  | list (items : List Item)

namespace Item

mutual

/-- The encoding of an item. -/
def encode : Item → List UInt8
  | data bytes => encodeBytes bytes
  | list items => header 0xc0 (encodeAll items).length ++ encodeAll items

/-- The encodings of items one after the other. -/
def encodeAll : List Item → List UInt8
  | [] => []
  | item :: items => item.encode ++ encodeAll items

end

@[simp] theorem encodeAll_nil : encodeAll [] = [] := by rw [encodeAll]

@[simp] theorem encodeAll_cons (item : Item) (items : List Item) :
    encodeAll (item :: items) = item.encode ++ encodeAll items := by rw [encodeAll]

theorem encodeAll_eq (items : List Item) : encodeAll items = (items.map encode).flatten := by
  induction items with
  | nil => simp
  | cons item items inductionHypothesis => simp [inductionHypothesis]

@[simp] theorem encode_data (bytes : List UInt8) :
    (data bytes).encode = encodeBytes bytes := by rw [encode]

theorem encode_list (items : List Item) :
    (list items).encode = encodeList (items.map encode) := by
  rw [encode, encodeList, encodeAll_eq]

end Item

/-- A number of bytes and the bytes after them. -/
def splitOff (length : Nat) (bytes : List UInt8) : Option (List UInt8 × List UInt8) :=
  if length ≤ bytes.length then some (bytes.take length, bytes.drop length) else none

theorem splitOff_append
    {length : Nat} {payload : List UInt8} (sameLength : payload.length = length)
    (rest : List UInt8) : splitOff length (payload ++ rest) = some (payload, rest) := by
  subst sameLength
  simp [splitOff]

/-- The payload after a header, `size` being the first byte less the offset. -/
def payloadOf (size : Nat) (rest : List UInt8) : Option (List UInt8 × List UInt8) :=
  if size ≤ 55 then splitOff size rest
  else (splitOff (size - 55) rest).bind fun (digits, rest) =>
    splitOff (ofBigEndian digits) rest

/-- The first item of a byte string: whether it is a list, its payload, and the
bytes after it. -/
def first : List UInt8 → Option (Bool × List UInt8 × List UInt8)
  | [] => none
  | byte :: rest =>
      if byte < 0x80 then some (false, [byte], rest)
      else if byte < 0xc0 then (payloadOf (byte.toNat - 0x80) rest).map (false, ·)
      else (payloadOf (byte.toNat - 0xc0) rest).map (true, ·)

/-- The bytes of a header after the first one, and the first one less its
offset. -/
theorem header_eq
    {offset length : Nat} (fits : length < 2 ^ 64) (small : offset ≤ 0xc0) :
    ∃ byte tail, header offset length = byte :: tail ∧
      offset ≤ byte.toNat ∧ byte.toNat - offset < 64 ∧
      ∀ payload rest, payload.length = length →
        payloadOf (byte.toNat - offset) (tail ++ payload ++ rest) = some (payload, rest) := by
  unfold header
  split
  · next short =>
      have leading : (UInt8.ofNat (offset + length)).toNat = offset + length := by
        rw [UInt8.toNat_ofNat']
        omega
      refine ⟨_, [], rfl, by omega, by omega, ?_⟩
      intro payload rest sameLength
      rw [leading, Nat.add_sub_cancel_left, payloadOf, if_pos short]
      exact splitOff_append sameLength rest
  · next long =>
      have digits : (minimalBigEndian length).length ≤ 8 := by
        rw [length_minimalBigEndian]
        exact byteLength_le (fits.trans_eq (by norm_num))
      have someDigit : 0 < (minimalBigEndian length).length := by
        apply List.length_pos_iff.mpr
        intro none
        have zero := ofBigEndian_minimalBigEndian length
        rw [none] at zero
        simp only [ofBigEndian_nil] at zero
        omega
      have leading : (UInt8.ofNat (offset + 55 + (minimalBigEndian length).length)).toNat =
          offset + 55 + (minimalBigEndian length).length := by
        rw [UInt8.toNat_ofNat']
        omega
      refine ⟨_, _, rfl, by omega, by omega, ?_⟩
      intro payload rest sameLength
      rw [leading, Nat.add_assoc, Nat.add_sub_cancel_left, payloadOf, if_neg (by omega),
        Nat.add_sub_cancel_left, List.append_assoc, splitOff_append rfl, Option.bind_some]
      apply splitOff_append
      rw [ofBigEndian_minimalBigEndian, sameLength]

theorem first_encodeBytes
    {bytes : List UInt8} (fits : bytes.length < 2 ^ 64) (rest : List UInt8) :
    first (encodeBytes bytes ++ rest) = some (false, bytes, rest) := by
  have general : first (header 0x80 bytes.length ++ bytes ++ rest) =
      some (false, bytes, rest) := by
    obtain ⟨byte, tail, equal, above, close, payload⟩ :=
      header_eq fits (show 0x80 ≤ 0xc0 by decide)
    have notSmall : ¬byte < 0x80 := by
      rw [UInt8.not_lt, UInt8.le_iff_toNat_le]
      exact above
    have string : byte < 0xc0 := by
      rw [UInt8.lt_iff_toNat_lt]
      change byte.toNat < 192
      omega
    rw [equal, List.cons_append, List.cons_append, first, if_neg notSmall, if_pos string,
      payload bytes rest rfl]
    rfl
  unfold encodeBytes
  split
  · next byte =>
      split
      · next small =>
          rw [List.singleton_append, first, if_pos small]
      · exact general
  · exact general

theorem first_list
    {payload : List UInt8} (fits : payload.length < 2 ^ 64) (rest : List UInt8) :
    first (header 0xc0 payload.length ++ payload ++ rest) = some (true, payload, rest) := by
  obtain ⟨byte, tail, equal, above, close, split⟩ :=
    header_eq fits (show 0xc0 ≤ 0xc0 by decide)
  have notSmall : ¬byte < 0x80 := by
    rw [UInt8.not_lt, UInt8.le_iff_toNat_le]
    change 128 ≤ byte.toNat
    omega
  have notString : ¬byte < 0xc0 := by
    rw [UInt8.not_lt, UInt8.le_iff_toNat_le]
    exact above
  rw [equal, List.cons_append, List.cons_append, first, if_neg notSmall, if_neg notString,
    split payload rest rfl]
  rfl

namespace Item

/-- Whether an item is a list. -/
def isList : Item → Bool
  | data _ => false
  | list _ => true

/-- The payload of an item. -/
def payload : Item → List UInt8
  | data bytes => bytes
  | list items => encodeAll items

theorem length_payload_le (item : Item) : item.payload.length ≤ item.encode.length := by
  cases item with
  | data bytes =>
      rw [payload, encode]
      unfold encodeBytes
      split
      · split
        · exact Nat.le_refl _
        · simp
      · simp
  | list items => simp [payload, encode]

theorem length_encode_le_list
    (item : Item) {items : List Item} (member : item ∈ items) :
    item.encode.length ≤ (list items).encode.length := by
  rw [encode_list, encodeList, List.length_append]
  apply Nat.le_add_left_of_le
  exact (List.sublist_flatten_of_mem (List.mem_map_of_mem member)).length_le

/-- The first item of an encoding is the encoded one. -/
theorem first_encode
    (item : Item) (fits : item.encode.length < 2 ^ 64) (rest : List UInt8) :
    first (item.encode ++ rest) = some (item.isList, item.payload, rest) := by
  have payloadFits := item.length_payload_le.trans_lt fits
  cases item with
  | data bytes =>
      rw [encode]
      exact first_encodeBytes payloadFits rest
  | list items =>
      rw [encode]
      exact first_list payloadFits rest

theorem encode_ne_nil (item : Item) (fits : item.encode.length < 2 ^ 64) :
    item.encode ≠ [] := by
  intro empty
  have found := item.first_encode fits []
  rw [empty] at found
  contradiction

mutual

/-- What follows an item does not change where it ends. -/
theorem encode_append_injective : ∀ (item other : Item) {rest otherRest : List UInt8},
    item.encode.length < 2 ^ 64 → other.encode.length < 2 ^ 64 →
      item.encode ++ rest = other.encode ++ otherRest → item = other ∧ rest = otherRest
  | item, other, rest, otherRest, fits, otherFits, same => by
      have found := item.first_encode fits rest
      rw [same, other.first_encode otherFits otherRest] at found
      have kinds : other.isList = item.isList := by simp_all
      have payloads : other.payload = item.payload := by simp_all
      have rests : otherRest = rest := by simp_all
      refine ⟨?_, rests.symm⟩
      cases item with
      | data bytes =>
          cases other with
          | data otherBytes => exact congrArg data payloads.symm
          | list items => contradiction
      | list items =>
          cases other with
          | data bytes => contradiction
          | list otherItems =>
              apply congrArg list
              apply encodeAll_injective items otherItems
              · exact (length_payload_le (list items)).trans_lt fits
              · exact (length_payload_le (list otherItems)).trans_lt otherFits
              · exact payloads.symm

theorem encodeAll_injective : ∀ (items others : List Item),
    (encodeAll items).length < 2 ^ 64 → (encodeAll others).length < 2 ^ 64 →
      encodeAll items = encodeAll others → items = others
  | [], [], _, _, _ => rfl
  | [], other :: others, _, otherFits, same => by
      rw [encodeAll, encodeAll] at same
      rw [encodeAll, List.length_append] at otherFits
      have empty := (List.append_eq_nil_iff.mp same.symm).1
      exact absurd empty (other.encode_ne_nil (by omega))
  | item :: items, [], fits, _, same => by
      rw [encodeAll, encodeAll] at same
      rw [encodeAll, List.length_append] at fits
      have empty := (List.append_eq_nil_iff.mp same).1
      exact absurd empty (item.encode_ne_nil (by omega))
  | item :: items, other :: others, fits, otherFits, same => by
      rw [encodeAll, List.length_append] at fits otherFits
      rw [encodeAll, encodeAll] at same
      obtain ⟨sameItem, sameRest⟩ :=
        encode_append_injective item other (by omega) (by omega) same
      rw [sameItem, encodeAll_injective items others (by omega) (by omega) sameRest]

end

/-- Different items have different encodings. -/
theorem encode_injective
    {item other : Item} (fits : item.encode.length < 2 ^ 64)
    (same : item.encode = other.encode) : item = other := by
  have otherFits : other.encode.length < 2 ^ 64 := same ▸ fits
  have joined : item.encode ++ [] = other.encode ++ [] := by rw [same]
  exact (encode_append_injective item other fits otherFits joined).1

/-- The encoding of a list starts with a byte from 0xc0 on. -/
theorem encode_list_head
    (items : List Item) (fits : (list items).encode.length < 2 ^ 64) :
    ∃ byte rest, (list items).encode = byte :: rest ∧ 0xc0 ≤ byte := by
  have payloadFits := (length_payload_le (list items)).trans_lt fits
  obtain ⟨byte, tail, equal, above, _⟩ :=
    header_eq payloadFits (show 0xc0 ≤ 0xc0 by decide)
  refine ⟨byte, tail ++ encodeAll items, ?_, UInt8.le_iff_toNat_le.mpr above⟩
  rw [encode]
  exact congrArg (· ++ encodeAll items) equal

end Item

end Rlp
