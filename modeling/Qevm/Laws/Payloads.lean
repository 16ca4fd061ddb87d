import Qevm.Laws.Signing
import Qevm.Payload

/-!
# Payloads are canonical

A number is written without leading zeros and a hash with all its bytes.  The decoders
accept these payloads and no others, so a value has one payload.
-/

namespace Qevm

open Rlp

/-! ## Numbers -/

/-- The significant bytes of a number are those without leading zeros. -/
theorem encode_wrappedUintRlp (number : U256) :
    wrappedUintRlp.encode number = minimalBigEndian number.toNat :=
  Item.data.inj number.toItem_eq

/-- A leading zero is rejected whatever follows. -/
theorem decode_wrappedUintRlp_of_zero {bytes : Bytes} (leading : bytes.head? = some 0) :
    wrappedUintRlp.decode bytes = .error .rlpInvalidIndirection := by
  have checked : (!bytes.isEmpty && bytes.head? = some 0) = true := by
    cases bytes with
    | nil => contradiction
    | cons byte bytes => simp [leading]
  exact if_pos checked

theorem decode_wrappedUintRlp {bytes : Bytes} (minimal : ¬bytes.head? = some 0) :
    wrappedUintRlp.decode bytes =
      if bytes.length ≤ 32 then .ok (U256.fromBigEndian bytes) else .error .rlpIsTooBig := by
  have checked : ¬(!bytes.isEmpty && bytes.head? = some 0) = true := by simp [minimal]
  exact if_neg checked

theorem wrappedUintRlp_canonical :
    wrappedUintRlp.Canonical fun bytes => bytes.length ≤ 32 ∧ bytes.head? ≠ some 0 := by
  apply Codec.Canonical.of_inverse
  case read_back =>
    intro number
    have short : (minimalBigEndian number.toNat).length ≤ 32 := by
      rw [length_minimalBigEndian]
      exact number.byteLength_le
    have value : fromBigEndian (minimalBigEndian number.toNat) = number.toNat :=
      ofBigEndian_minimalBigEndian _
    rw [encode_wrappedUintRlp, decode_wrappedUintRlp (head?_minimalBigEndian _), if_pos short,
      U256.fromBigEndian, value, BitVec.ofNat_toNat, BitVec.setWidth_eq]
  case write_back =>
    rintro bytes ⟨short, minimal⟩
    have small : ofBigEndian bytes < 2 ^ 256 := by
      apply (ofBigEndian_lt bytes).trans_le
      exact (Nat.pow_le_pow_right (by decide) short).trans_eq (by norm_num)
    have value : (U256.fromBigEndian bytes).toNat = ofBigEndian bytes :=
      Nat.mod_eq_of_lt small
    refine ⟨_, (decode_wrappedUintRlp minimal).trans (if_pos short), ?_⟩
    rw [encode_wrappedUintRlp, value, minimalBigEndian_ofBigEndian minimal]
  case rejected =>
    intro bytes foreign
    by_cases leading : bytes.head? = some 0
    · exact ⟨_, decode_wrappedUintRlp_of_zero leading⟩
    · have long : ¬bytes.length ≤ 32 := fun short => foreign ⟨short, leading⟩
      exact ⟨_, (decode_wrappedUintRlp leading).trans (if_neg long)⟩

/-! ## Hashes -/

/-- The bytes of a hash are those of the number that they write. -/
theorem bigEndian_ofNat {size : Nat} {bytes : Bytes} (length : bytes.length = size) :
    bigEndian size (BitVec.ofNat (8 * size) (fromBigEndian bytes)).toNat = bytes := by
  subst length
  have small : ofBigEndian bytes < 2 ^ (8 * bytes.length) :=
    (ofBigEndian_lt bytes).trans_eq (Nat.pow_mul 2 8 _).symm
  have value : (BitVec.ofNat (8 * bytes.length) (fromBigEndian bytes)).toNat =
      ofBigEndian bytes := Nat.mod_eq_of_lt small
  rw [value, bigEndian_ofBigEndian]

theorem wrappedFixedHashRlp_canonical (size : Nat) :
    (wrappedFixedHashRlp size).Canonical fun bytes => bytes.length = size := by
  have reads {bytes : Bytes} (length : bytes.length = size) :
      (wrappedFixedHashRlp size).decode bytes =
        .ok (BitVec.ofNat (8 * size) (fromBigEndian bytes)) := by
    have order : compare bytes.length size = .eq := compare_eq_iff_eq.mpr length
    simp only [wrappedFixedHashRlp, order]
  apply Codec.Canonical.of_inverse
  case read_back =>
    intro hash
    have written : (wrappedFixedHashRlp size).encode hash = bigEndian size hash.toNat := rfl
    have value : fromBigEndian (bigEndian size hash.toNat) = hash.toNat :=
      ofBigEndian_toNat hash
    rw [written, reads (length_bigEndian _ _), value, BitVec.ofNat_toNat,
      BitVec.setWidth_eq]
  case write_back => exact fun bytes length => ⟨_, reads length, bigEndian_ofNat length⟩
  case rejected =>
    intro bytes foreign
    unfold wrappedFixedHashRlp
    cases order : compare bytes.length size with
    | lt => exact ⟨.rlpIsTooShort, by simp only [order]⟩
    | eq => exact absurd (compare_eq_iff_eq.mp order) foreign
    | gt => exact ⟨.rlpIsTooBig, by simp only [order]⟩

theorem addrRlp_canonical : Addr.rlp.Canonical fun bytes => bytes.length = 20 :=
  wrappedFixedHashRlp_canonical 20

/-- A payload that is not empty is that of an address. -/
theorem decode_nullableAddr {bytes : Bytes} (present : bytes.isEmpty = false) :
    NullableAddr.rlp.decode bytes = (Addr.rlp.decode bytes).map some := by
  unfold NullableAddr.rlp Addr.rlp wrappedFixedHashRlp
  simp only [present, Bool.false_eq_true, if_false]
  cases compare bytes.length 20 <;> rfl

/-- A missing address has a payload of its own. -/
theorem nullableAddrRlp_canonical :
    NullableAddr.rlp.Canonical fun bytes => bytes = [] ∨ bytes.length = 20 := by
  apply Codec.Canonical.of_inverse
  case read_back =>
    intro value
    cases value with
    | none => rfl
    | some addr =>
        have decoded : Addr.rlp.decode (NullableAddr.rlp.encode (some addr)) = .ok addr :=
          (addrRlp_canonical.decode_eq_ok _ addr).mpr rfl
        rw [decode_nullableAddr rfl, decoded]
        rfl
  case write_back =>
    rintro bytes (rfl | length)
    · exact ⟨none, rfl, rfl⟩
    · obtain ⟨addr, decoded⟩ := (addrRlp_canonical.accepted bytes).mpr length
      have written := (addrRlp_canonical.decode_eq_ok bytes addr).mp decoded
      have present : bytes.isEmpty = false := by
        cases bytes with
        | nil => contradiction
        | cons byte bytes => rfl
      exact ⟨some addr, by rw [decode_nullableAddr present, decoded]; rfl, written.symm⟩
  case rejected =>
    intro bytes foreign
    obtain ⟨some, long⟩ := not_or.mp foreign
    have present : bytes.isEmpty = false := List.isEmpty_eq_false_iff.mpr some
    cases decoded : Addr.rlp.decode bytes with
    | ok addr => exact absurd ((addrRlp_canonical.accepted bytes).mp ⟨addr, decoded⟩) long
    | error err => exact ⟨err, by rw [decode_nullableAddr present, decoded]; rfl⟩

/-! ## Every field -/

theorem bytesRlp_canonical : Bytes.rlp.Canonical fun _ => True where
  decode_eq_ok _ _ := ⟨Except.ok.inj, congrArg Except.ok⟩
  accepted payload := ⟨fun _ => trivial, fun _ => ⟨payload, rfl⟩⟩

/-- Numbers are written without leading zeros, and the payloads of each type that are
accepted are those that are written: at most 32 bytes without a leading zero, the bytes of
a hash, nothing for a missing address, and any byte string. -/
theorem payloads_canonical :
    (∀ wei : Wei, fromBigEndian (Wei.rlp.encode wei) = wei.toNat ∧
      (Wei.rlp.encode wei).head? ≠ some 0) ∧
      (∀ number : U256, fromBigEndian (U256RLP.rlp.encode number) = number.toNat ∧
        (U256RLP.rlp.encode number).head? ≠ some 0) ∧
      (Wei.rlp.Canonical fun bytes => bytes.length ≤ 32 ∧ bytes.head? ≠ some 0) ∧
      (U256RLP.rlp.Canonical fun bytes => bytes.length ≤ 32 ∧ bytes.head? ≠ some 0) ∧
      (Addr.rlp.Canonical fun bytes => bytes.length = 20) ∧
      (Hash.rlp.Canonical fun bytes => bytes.length = 32) ∧
      (NullableAddr.rlp.Canonical fun bytes => bytes = [] ∨ bytes.length = 20) ∧
      Bytes.rlp.Canonical fun _ => True := by
  have written (number : U256) :
      fromBigEndian (wrappedUintRlp.encode number) = number.toNat ∧
        (wrappedUintRlp.encode number).head? ≠ some 0 := by
    rw [encode_wrappedUintRlp]
    exact ⟨ofBigEndian_minimalBigEndian _, head?_minimalBigEndian _⟩
  exact ⟨written, written, wrappedUintRlp_canonical, wrappedUintRlp_canonical,
    addrRlp_canonical, wrappedFixedHashRlp_canonical 32, nullableAddrRlp_canonical,
    bytesRlp_canonical⟩

/-! ## Fields of a transaction -/

/-- The fields of a transaction are items with these payloads. -/
theorem toItem_eq_payload (number : U256) (addr : Option Addr) :
    number.toItem = .data (U256RLP.rlp.encode number) ∧
      nullableAddrItem addr = .data (NullableAddr.rlp.encode addr) := by
  refine ⟨rfl, ?_⟩
  cases addr <;> rfl

/-- Transactions are read with the decoders of the payloads. -/
theorem decodeU256_eq [Reader] (view : Bytes) :
    decodeU256 view =
      (Reader.value view).bind fun bytes => (U256RLP.rlp.decode bytes).toOption := by
  unfold decodeU256 decodeUint U256RLP.rlp
  cases Reader.value view with
  | none => rfl
  | some bytes =>
      rw [Option.bind_some, Option.bind_some]
      by_cases leading : bytes.head? = some 0
      · rw [if_pos leading, decode_wrappedUintRlp_of_zero leading]
        rfl
      · rw [if_neg leading, decode_wrappedUintRlp leading]
        split <;> rfl

theorem decodeNullableAddr_eq [Reader] (view : Bytes) :
    decodeNullableAddr view =
      (Reader.value view).bind fun bytes => (NullableAddr.rlp.decode bytes).toOption := by
  unfold decodeNullableAddr NullableAddr.rlp
  cases Reader.value view with
  | none => rfl
  | some bytes =>
      simp only [Option.bind_some]
      split
      · rfl
      · cases order : compare bytes.length 20 with
        | lt => rw [if_neg (Nat.compare_eq_lt.mp order).ne]; rfl
        | eq => rw [if_pos (Nat.compare_eq_eq.mp order)]; rfl
        | gt => rw [if_neg (Nat.compare_eq_gt.mp order).ne']; rfl

end Qevm
