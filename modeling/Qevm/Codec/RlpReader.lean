import Qevm.Codec.RlpItem

/-!
# Readers

A reader looks at a byte string as an item.  What a reader does with the
encoding of an item is fixed; what it does with other byte strings is not.
-/

namespace Rlp

/-- The views of a byte string as an item. -/
class Reader where
  /-- The bytes of a byte string item. -/
  value : List UInt8 → Option (List UInt8)
  /-- The item with an index in a list, as bytes. -/
  itemAt : List UInt8 → Nat → Option (List UInt8)
  /-- The items of a list, as bytes. -/
  items : List UInt8 → List (List UInt8)

/-- A reader reads the encodings of items. -/
class LawfulReader [Reader] : Prop where
  value_data : ∀ {bytes}, (Item.data bytes).encode.length < 2 ^ 64 →
    Reader.value (Item.data bytes).encode = some bytes
  value_list : ∀ {items}, (Item.list items).encode.length < 2 ^ 64 →
    Reader.value (Item.list items).encode = none
  itemAt_list : ∀ {items}, (Item.list items).encode.length < 2 ^ 64 → ∀ index,
    Reader.itemAt (Item.list items).encode index = items[index]?.map Item.encode
  items_list : ∀ {items}, (Item.list items).encode.length < 2 ^ 64 →
    Reader.items (Item.list items).encode = items.map Item.encode

/-- Split a payload into the bytes of its items. -/
def rawItems : (fuel : Nat) → List UInt8 → List (List UInt8)
  | 0, _ => []
  | fuel + 1, bytes =>
      match first bytes with
      | none => []
      | some (_, _, rest) =>
          bytes.take (bytes.length - rest.length) :: rawItems fuel rest

theorem rawItems_encodeAll
    {fuel : Nat} {items : List Item} (fits : (Item.encodeAll items).length < 2 ^ 64)
    (enough : (Item.encodeAll items).length ≤ fuel) :
    rawItems fuel (Item.encodeAll items) = items.map Item.encode := by
  induction items generalizing fuel with
  | nil => cases fuel <;> simp [rawItems, first]
  | cons item items inductionHypothesis =>
      rw [Item.encodeAll_cons, List.length_append] at fits enough
      have itemFits : item.encode.length < 2 ^ 64 := by omega
      have someByte := List.length_pos_iff.mpr (item.encode_ne_nil itemFits)
      cases fuel with
      | zero => omega
      | succ fuel =>
          rw [Item.encodeAll_cons, rawItems, item.first_encode itemFits]
          simp only [List.length_append, Nat.add_sub_cancel, List.take_left, List.map_cons]
          rw [inductionHypothesis (by omega) (by omega)]

theorem first_encode_nil (item : Item) (fits : item.encode.length < 2 ^ 64) :
    first item.encode = some (item.isList, item.payload, []) := by
  have found := item.first_encode fits []
  rwa [List.append_nil] at found

/-- The payload of a byte string item. -/
def firstValue (bytes : List UInt8) : Option (List UInt8) :=
  (first bytes).bind fun (isList, payload, _) => if isList then none else some payload

/-- The items of the payload of a list. -/
def firstItems (bytes : List UInt8) : Option (List (List UInt8)) :=
  (first bytes).bind fun (isList, payload, _) =>
    if isList then some (rawItems payload.length payload) else none

theorem firstValue_data
    {bytes : List UInt8} (fits : (Item.data bytes).encode.length < 2 ^ 64) :
    firstValue (Item.data bytes).encode = some bytes := by
  rw [firstValue, first_encode_nil _ fits]
  rfl

theorem firstValue_list
    {items : List Item} (fits : (Item.list items).encode.length < 2 ^ 64) :
    firstValue (Item.list items).encode = none := by
  rw [firstValue, first_encode_nil _ fits]
  rfl

theorem firstItems_list
    {items : List Item} (fits : (Item.list items).encode.length < 2 ^ 64) :
    firstItems (Item.list items).encode = some (items.map Item.encode) := by
  have payloadFits := (Item.length_payload_le _).trans_lt fits
  rw [firstItems, first_encode_nil _ fits]
  exact congrArg some (rawItems_encodeAll payloadFits (Nat.le_refl _))

/-- The reader that splits every list. -/
@[reducible] def standardReader : Reader where
  value := firstValue
  itemAt bytes index := (firstItems bytes).bind (·[index]?)
  items bytes := (firstItems bytes).getD []

theorem standardReader_lawful : @LawfulReader standardReader :=
  @LawfulReader.mk standardReader firstValue_data firstValue_list
    (fun fits index => by
      change (firstItems _).bind (·[index]?) = _
      rw [firstItems_list fits, Option.bind_some, List.getElem?_map])
    (fun fits => by
      change (firstItems _).getD [] = _
      rw [firstItems_list fits, Option.getD_some])

end Rlp
