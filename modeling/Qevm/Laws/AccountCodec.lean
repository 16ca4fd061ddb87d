import Qevm.Laws.Commit

/-!
# Account records

A record has four fields of fixed widths, the last of which is the length of the code that
follows.  What is decoded is a prefix of the input, and encoding gives that prefix back.
-/

namespace Qevm
namespace AccountState

/-- The length field of a record. -/
def codeLength (raw : Bytes) : Nat := (u64FromLeBytes ((raw.drop 72).take 8)).toNat

theorem toLeBytes_fromLeBytes {bytes : Bytes} (long : bytes.length = 8) :
    u64ToLeBytes (u64FromLeBytes bytes) = bytes := by
  have small := Rlp.ofBigEndian_lt bytes.reverse
  rw [List.length_reverse, long] at small
  have number : (u64FromLeBytes bytes).toNat = Rlp.ofBigEndian bytes.reverse :=
    UInt64.toNat_ofNat_of_lt' (small.trans_eq (by decide))
  have digits := Rlp.bigEndian_ofBigEndian bytes.reverse
  rw [List.length_reverse, long] at digits
  rw [u64ToLeBytes, number, digits, List.reverse_reverse]

/-- A field is read where the fields before it end, if the input does not end first. -/
theorem readExact_drop {offset : Nat} {raw : Bytes} (length : Nat)
    (enough : offset + length ≤ raw.length) :
    readExact length (raw.drop offset) =
      some ((raw.drop offset).take length, raw.drop (offset + length)) := by
  have remains : length ≤ (raw.drop offset).length := by
    rw [List.length_drop]
    omega
  rw [readExact, if_pos remains, List.drop_drop]

/-- What a read leaves of its input, which has what is read. -/
theorem readExact_rest {length : Nat} {raw bytes rest : Bytes}
    (read : readExact length raw = some (bytes, rest)) :
    length ≤ raw.length ∧ rest = raw.drop length := by
  unfold readExact at read
  split at read
  · next enough => exact ⟨enough, (Prod.mk.inj (Option.some.inj read)).2.symm⟩
  · contradiction

/-- The record at the start of an input. -/
def recordOf (raw : Bytes) : AccountState where
  rootHash := U256.fromBigEndian (raw.take 32)
  balance := U256.fromBigEndian ((raw.drop 32).take 32)
  nonce := u64FromLeBytes ((raw.drop 64).take 8)
  code := (raw.drop 80).take (codeLength raw)

/-- An input with a whole header is decoded if the code is there. -/
theorem decode_of_header {raw : Bytes} (header : 80 ≤ raw.length) :
    decode raw =
      if 80 + codeLength raw ≤ raw.length then some (recordOf raw) else none := by
  have root : readExact 32 raw = some (raw.take 32, raw.drop 32) :=
    if_pos (Nat.le_trans (by decide) header)
  have balance := readExact_drop 32 (show 32 + 32 ≤ raw.length by omega)
  have nonce := readExact_drop 8 (show 64 + 8 ≤ raw.length by omega)
  have codeLen := readExact_drop 8 (show 72 + 8 ≤ raw.length by omega)
  unfold decode
  simp only [Option.bind_eq_bind, root, Option.bind_some, balance, nonce, codeLen]
  change (readExact (codeLength raw) (raw.drop 80)).bind _ = _
  split
  · next fits => rw [readExact_drop _ fits, Option.bind_some, recordOf]
  · next short =>
      have few : ¬codeLength raw ≤ (raw.drop 80).length := by
        rw [List.length_drop]
        omega
      rw [readExact, if_neg few, Option.bind_none]

/-- An input without a whole header is refused. -/
theorem decode_of_short {raw : Bytes} (short : raw.length < 80) : decode raw = none := by
  cases decoded : decode raw with
  | none => rfl
  | some account =>
      unfold decode at decoded
      simp only [Option.bind_eq_bind, Option.bind_eq_some_iff] at decoded
      obtain ⟨⟨_, first⟩, root, ⟨_, second⟩, balance, ⟨_, third⟩, nonce, _, codeLen, -⟩ :=
        decoded
      obtain ⟨rootLength, rfl⟩ := readExact_rest root
      obtain ⟨balanceLength, rfl⟩ := readExact_rest balance
      obtain ⟨nonceLength, rfl⟩ := readExact_rest nonce
      obtain ⟨codeLenLength, -⟩ := readExact_rest codeLen
      simp only [List.length_drop] at balanceLength nonceLength codeLenLength
      omega

/-- The record at the start of an input is encoded as it stands there. -/
theorem encode_recordOf {raw : Bytes} (fits : 80 + codeLength raw ≤ raw.length) :
    (recordOf raw).encode = raw.take (80 + codeLength raw) := by
  have taken {offset width : Nat} (inside : offset + width ≤ raw.length) :
      ((raw.drop offset).take width).length = width := by
    rw [List.length_take, List.length_drop]
    omega
  have root : (recordOf raw).rootHash.asBytes = raw.take 32 :=
    toBigEndian_fromBigEndian (taken (show 0 + 32 ≤ raw.length by omega))
  have balance : U256.toBigEndian (recordOf raw).balance = (raw.drop 32).take 32 :=
    toBigEndian_fromBigEndian (taken (by omega))
  have nonce : u64ToLeBytes (recordOf raw).nonce = (raw.drop 64).take 8 :=
    toLeBytes_fromLeBytes (taken (by omega))
  have code : (recordOf raw).code.length = codeLength raw := taken fits
  have codeLen : u64ToLeBytes (UInt64.ofNat (codeLength raw)) = (raw.drop 72).take 8 := by
    rw [codeLength, UInt64.ofNat_toNat]
    exact toLeBytes_fromLeBytes (taken (by omega))
  have parts : 80 + codeLength raw = 32 + 32 + 8 + 8 + codeLength raw := by omega
  rw [encode, root, balance, nonce, code, codeLen, recordOf, parts, List.take_add,
    List.take_add, List.take_add, List.take_add]

/-- An account is read back from its record.  An input is accepted exactly if it starts
with a whole record, and encoding what has been accepted gives that record.  Where the code
is cut off the input is refused, or `resize` has panicked before. -/
theorem records_are_read_back :
    (∀ account : AccountState, account.code.length < 2 ^ 64 →
      decode account.encode = some account) ∧
    ∀ raw : Bytes,
      ((∃ account, decode raw = some account) ↔
        80 ≤ raw.length ∧ 80 + codeLength raw ≤ raw.length) ∧
      ∀ account, decode raw = some account →
        account.encode = raw.take (80 + codeLength raw) := by
  constructor
  · intro account short
    rw [decode_encode, keptCode_of_lt short]
  · intro raw
    by_cases header : 80 ≤ raw.length
    · rw [decode_of_header header]
      by_cases fits : 80 + codeLength raw ≤ raw.length
      · rw [if_pos fits]
        refine ⟨by simp [header, fits], fun account decoded => ?_⟩
        rw [← Option.some.inj decoded, encode_recordOf fits]
      · rw [if_neg fits]
        simp [fits]
    · rw [decode_of_short (Nat.not_le.mp header)]
      simp [header]

end AccountState

/-- An account with two bytes of code. -/
def Sample.record : AccountState := ⟨1, 2, 3, [0x60, 0x00]⟩

theorem record_is_read_back :
    AccountState.decode Sample.record.encode = some Sample.record :=
  AccountState.records_are_read_back.1 Sample.record (by decide)

end Qevm
