/-!
# Texts and their bytes

A text is a list of characters that is stored in UTF-8.  An ASCII character is stored as
one byte, and no byte of another character is that of an ASCII character, so a property
of ASCII characters can be tested byte by byte.
-/

/-- A text. -/
abbrev Text := List Char

namespace Text

/-- The bytes that store a text. -/
def asBytes (text : Text) : List UInt8 := text.flatMap String.utf8EncodeChar

/-- The text from a byte on, unless the byte is inside a character or beyond the end. -/
def sliceFrom : Text → Nat → Option Text
  | text, 0 => some text
  | [], _ + 1 => none
  | char :: rest, offset + 1 =>
      if char.utf8Size ≤ offset + 1 then sliceFrom rest (offset + 1 - char.utf8Size)
      else none

variable {char : Char} {text : Text}

/-- The byte of an ASCII character. -/
theorem utf8EncodeChar_of_ascii (ascii : char.toNat < 128) :
    String.utf8EncodeChar char = [UInt8.ofNat char.toNat] :=
  if_pos (Nat.le_of_lt_succ ascii)

theorem sliceFrom_zero (text : Text) : sliceFrom text 0 = some text := by
  cases text <;> rfl

theorem sliceFrom_cons_of_ascii (ascii : char.toNat < 128) (offset : Nat) :
    sliceFrom (char :: text) (offset + 1) = sliceFrom text offset := by
  have width : char.utf8Size = 1 := by
    rw [← String.length_utf8EncodeChar, utf8EncodeChar_of_ascii ascii]
    rfl
  rw [sliceFrom, width, if_pos (Nat.le_add_left 1 offset), Nat.add_sub_cancel]

/-- The bytes of other characters are none of an ASCII character. -/
theorem le_of_mem_utf8EncodeChar
    (wide : ¬char.toNat < 128) {byte : UInt8} (member : byte ∈ String.utf8EncodeChar char) :
    128 ≤ byte.toNat := by
  -- every byte is a mark from 128 on and some bits of the character below it
  have marked (mark bits : Nat) (high : 128 ≤ mark) (fits : mark + bits < 256) :
      128 ≤ (UInt8.ofNat (bits + mark)).toNat := by
    rw [UInt8.toNat_ofNat']
    omega
  have first : ¬char.val.toNat ≤ 0x7f := fun narrow => wide (Nat.lt_succ_of_le narrow)
  unfold String.utf8EncodeChar at member
  simp only [first, if_false] at member
  split at member
  · simp only [List.mem_cons, List.not_mem_nil, or_false] at member
    obtain rfl | rfl := member <;> exact marked _ _ (by decide) (by omega)
  · split at member
    · simp only [List.mem_cons, List.not_mem_nil, or_false] at member
      obtain rfl | rfl | rfl := member <;> exact marked _ _ (by decide) (by omega)
    · simp only [List.mem_cons, List.not_mem_nil, or_false] at member
      obtain rfl | rfl | rfl | rfl := member <;> exact marked _ _ (by decide) (by omega)

/-- Every character is stored as at least one byte. -/
theorem utf8EncodeChar_eq_cons (char : Char) :
    ∃ byte rest, String.utf8EncodeChar char = byte :: rest := by
  apply List.exists_cons_of_length_pos
  rw [String.length_utf8EncodeChar]
  exact Char.utf8Size_pos char

theorem asBytes_cons_of_ascii (ascii : char.toNat < 128) :
    asBytes (char :: text) = UInt8.ofNat char.toNat :: asBytes text := by
  rw [asBytes, List.flatMap_cons, utf8EncodeChar_of_ascii ascii]
  rfl

theorem toNat_ofUInt8 (byte : UInt8) : (Char.ofUInt8 byte).toNat = byte.toNat :=
  UInt8.toNat_toUInt32 byte

theorem ofUInt8_ofNat (ascii : char.toNat < 128) :
    Char.ofUInt8 (UInt8.ofNat char.toNat) = char := by
  have same : (Char.ofUInt8 (UInt8.ofNat char.toNat)).toNat = char.toNat := by
    rw [toNat_ofUInt8, UInt8.toNat_ofNat']
    exact Nat.mod_eq_of_lt (Nat.lt_trans ascii (by decide))
  exact Char.toNat_inj.mp same

theorem ofNat_eq_iff {byte : UInt8} (ascii : char.toNat < 128) :
    UInt8.ofNat char.toNat = byte ↔ char = Char.ofUInt8 byte := by
  constructor
  · rintro rfl
    exact (ofUInt8_ofNat ascii).symm
  · rintro rfl
    rw [toNat_ofUInt8, UInt8.ofNat_toNat]

/-- A text of ASCII characters is read from its bytes. -/
theorem map_asBytes (ascii : ∀ char ∈ text, char.toNat < 128) :
    text.asBytes.map Char.ofUInt8 = text := by
  induction text with
  | nil => rfl
  | cons char text inductionHypothesis =>
      have first := ascii char List.mem_cons_self
      have rest := inductionHypothesis fun other member =>
        ascii other (List.mem_cons_of_mem char member)
      rw [asBytes_cons_of_ascii first, List.map_cons, ofUInt8_ofNat first, rest]

theorem length_asBytes (ascii : ∀ char ∈ text, char.toNat < 128) :
    text.asBytes.length = text.length := by
  rw [← List.length_map Char.ofUInt8, map_asBytes ascii]

/-- The first byte of a text is that of an ASCII character when this is the first
character. -/
theorem asBytes_cons (char : Char) (text : Text) :
    ∃ first rest, asBytes (char :: text) = first :: rest ∧
      ∀ byte : UInt8, byte.toNat < 128 → (first = byte ↔ char = Char.ofUInt8 byte) := by
  by_cases ascii : char.toNat < 128
  · exact ⟨_, _, asBytes_cons_of_ascii ascii, fun byte _ => ofNat_eq_iff ascii⟩
  · obtain ⟨first, rest, stored⟩ := utf8EncodeChar_eq_cons char
    have high := le_of_mem_utf8EncodeChar ascii (stored ▸ List.mem_cons_self)
    refine ⟨first, rest ++ asBytes text, ?_, fun byte small => iff_of_false ?_ ?_⟩
    · rw [asBytes, List.flatMap_cons, stored]
      rfl
    · rintro rfl
      omega
    · rintro rfl
      exact ascii (toNat_ofUInt8 byte ▸ small)

/-- A property of ASCII characters holds of all characters when it holds of all bytes. -/
theorem forall_asBytes
    {property : Char → Prop} (ascii : ∀ char, property char → char.toNat < 128) :
    (∀ byte ∈ text.asBytes, property (Char.ofUInt8 byte)) ↔
      ∀ char ∈ text, property char := by
  constructor
  · intro holds char member
    by_cases small : char.toNat < 128
    · have stored : UInt8.ofNat char.toNat ∈ text.asBytes := by
        refine List.mem_flatMap.mpr ⟨char, member, ?_⟩
        rw [utf8EncodeChar_of_ascii small]
        exact List.mem_singleton_self _
      exact ofUInt8_ofNat small ▸ holds _ stored
    · obtain ⟨byte, rest, stored⟩ := utf8EncodeChar_eq_cons char
      have first : byte ∈ String.utf8EncodeChar char := stored ▸ List.mem_cons_self
      have high := le_of_mem_utf8EncodeChar small first
      have low := ascii _ (holds byte (List.mem_flatMap.mpr ⟨char, member, first⟩))
      rw [toNat_ofUInt8] at low
      omega
  · intro holds byte member
    obtain ⟨char, inside, stored⟩ := List.mem_flatMap.mp member
    have small := ascii char (holds char inside)
    rw [utf8EncodeChar_of_ascii small, List.mem_singleton] at stored
    rw [stored, ofUInt8_ofNat small]
    exact holds char inside

end Text
