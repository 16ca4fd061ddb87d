import Qevm.Tx

/-!
# The arithmetic of sender recovery

A signature names its chain in a word that anybody may choose.  The word goes through
additions and subtractions before anything is known about it.  Next to sender recovery as
it runs when machine words wrap around, we keep the one in which every operation that
leaves its type is an error.
-/

namespace Qevm

/-- Subtraction of machine words that fails on underflow. -/
def subU64OrOverflow (first second : UInt64) : Except TxPanic UInt64 :=
  if second ≤ first then .ok (first - second) else .error .arithmeticOverflow

/-- Sums and differences of words panic when they leave the words. -/
def orOverflow (result : Option U256) : Except TxPanic U256 :=
  result.elim (.error .arithmeticOverflow) .ok

theorem U256.bits_le_iff (word : U256) (width : Nat) :
    word.bits ≤ width ↔ word.toNat < 2 ^ width := by
  unfold U256.bits
  by_cases zero : word = 0
  · simp [zero]
  · have nonzero : word.toNat ≠ 0 := fun same => zero (BitVec.eq_of_toNat_eq same)
    rw [if_neg zero, Nat.succ_le_iff, Nat.log2_lt nonzero]

theorem U256.toNat_lowU64 {word : U256} (small : word.toNat < 2 ^ 64) :
    word.lowU64.toNat = word.toNat := by
  unfold U256.lowU64
  rw [UInt64.toNat_ofNat', Nat.mod_eq_of_lt small]

theorem subU64OrOverflow_of_le {first second : UInt64} (le : second.toNat ≤ first.toNat) :
    subU64OrOverflow first second = .ok (first - second) :=
  if_pos (UInt64.le_iff_toNat_le.mpr le)

theorem subU64OrOverflow_of_lt {first second : UInt64} (lt : first.toNat < second.toNat) :
    subU64OrOverflow first second = .error .arithmeticOverflow :=
  if_neg fun le => Nat.not_le.mpr lt (UInt64.le_iff_toNat_le.mp le)

theorem checkedAdd_of_lt {first second : U256}
    (fits : first.toNat + second.toNat < 2 ^ 256) :
    first.checkedAdd second = some (first + second) := if_pos fits

theorem checkedSub_of_le {first second : U256} (le : second.toNat ≤ first.toNat) :
    first.checkedSub second = some (first - second) := if_pos le

/-! ## The chain of a legacy transaction -/

namespace TxLegacy

/-- The chain that `v` names, with checked arithmetic. -/
def checkedChainId (tx : TxLegacy) : Except TxPanic U256 :=
  if tx.v.bits ≤ 64 then
    let v := tx.v.lowU64
    if v = 27 ∨ v = 28 then .ok 0
    else (subU64OrOverflow v 35).map fun v => U256.ofU64 (v / 2)
  else (orOverflow (tx.v.checkedSub 35)).map fun v => v / 2

variable {tx : TxLegacy}

/-- Neither 27 nor 28 names a chain. -/
theorem checkedChainId_unprotected (unprotected : tx.v = 27 ∨ tx.v = 28) :
    tx.checkedChainId = .ok 0 ∧ tx.deriveChainId = 0 ∧ tx.isProtected = false := by
  obtain v | v := unprotected
  · refine ⟨?_, ?_, ?_⟩
    · rw [checkedChainId, v]
      rfl
    · rw [deriveChainId, v]
      rfl
    · rw [isProtected, v]
      rfl
  · refine ⟨?_, ?_, ?_⟩
    · rw [checkedChainId, v]
      rfl
    · rw [deriveChainId, v]
      rfl
    · rw [isProtected, v]
      rfl

/-- From 35 on, two words name each chain. -/
theorem checkedChainId_protected (large : 35 ≤ tx.v.toNat) :
    tx.checkedChainId = .ok tx.deriveChainId ∧
      tx.deriveChainId.toNat = (tx.v.toNat - 35) / 2 := by
  unfold checkedChainId deriveChainId
  by_cases short : tx.v.bits ≤ 64
  · have low := U256.toNat_lowU64 ((U256.bits_le_iff _ _).mp short)
    have other : ¬ (tx.v.lowU64 = 27 ∨ tx.v.lowU64 = 28) := by
      rintro (same | same) <;>
        rw [same] at low <;> change _ = tx.v.toNat at low <;>
        rw [← low] at large <;> contradiction
    have enough : (35 : UInt64).toNat ≤ tx.v.lowU64.toNat := by
      rw [low]
      exact large
    simp only [short, other, if_true, if_false, subU64OrOverflow_of_le enough]
    refine ⟨rfl, ?_⟩
    rw [U256.ofU64, BitVec.toNat_ofNat, UInt64.toNat_div,
      UInt64.toNat_sub_of_le _ _ (UInt64.le_iff_toNat_le.mpr enough), low]
    change (tx.v.toNat - 35) / 2 % 2 ^ 256 = _
    exact Nat.mod_eq_of_lt (by omega)
  · have fits : (35 : U256).toNat ≤ tx.v.toNat := large
    simp only [short, if_false, checkedSub_of_le fits]
    refine ⟨rfl, ?_⟩
    rw [BitVec.toNat_udiv, BitVec.toNat_sub_of_le (BitVec.le_def.mpr fits)]
    rfl

/-- All other words make a subtraction of machine words wrap around. -/
theorem checkedChainId_wraps
    (small : tx.v.toNat < 35) (other : ¬ (tx.v = 27 ∨ tx.v = 28)) :
    tx.checkedChainId = .error .arithmeticOverflow := by
  have short : tx.v.bits ≤ 64 := (U256.bits_le_iff _ _).mpr (by omega)
  have low := U256.toNat_lowU64 ((U256.bits_le_iff _ _).mp short)
  have different : ¬ (tx.v.lowU64 = 27 ∨ tx.v.lowU64 = 28) := by
    intro same
    apply other
    refine same.imp ?_ ?_ <;>
      intro equal <;> rw [equal] at low <;> exact BitVec.eq_of_toNat_eq low.symm
  have less : tx.v.lowU64.toNat < (35 : UInt64).toNat := by
    rw [low]
    exact small
  simp only [checkedChainId, short, different, if_true, if_false,
    subU64OrOverflow_of_lt less]
  rfl

end TxLegacy

/-! ## Sender recovery -/

def TxLike.checkedChainId : TxLike → Except TxPanic U256
  | legacy tx => tx.checkedChainId
  | accessList tx => .ok tx.chainId
  | dynamicFee tx => .ok tx.chainId

section Recovery

variable [Keccak256] [Secp256k1]

/-- The recovery of a public key, with checked arithmetic. -/
def checkedRecoverPlain
    (txHash : Hash) (r s vb : U256) (homestead : Bool) : Except TxPanic (Option Addr) :=
  if vb.bits > 8 then .ok none
  else (subU64OrOverflow vb.lowU64 27).bind fun _ => recoverPlain txHash r s vb homestead

namespace TxLike

/-- The account whose key signed a transaction for a chain, with checked arithmetic. -/
def checkedRecoverSender
    (tx : TxLike) (chainId : U256) : Except TxPanic (Option Addr) := do
  let named ← tx.checkedChainId
  if named ≠ chainId then return none
  let sigHash := Hash.hash (tx.signedBytes chainId)
  match tx.type with
  | .dynamicFee | .accessList =>
      let v ← orOverflow (tx.v.checkedAdd 27)
      checkedRecoverPlain sigHash tx.r tx.s v true
  | .legacy =>
      if ¬tx.isProtected then checkedRecoverPlain sigHash tx.r tx.s tx.v true
      else
        let v ← orOverflow (tx.v.checkedSub (chainId <<< 1))
        let v ← orOverflow (v.checkedSub 8)
        checkedRecoverPlain sigHash tx.r tx.s v true

/-- The signature of a legacy transaction names no chain by 27 or 28, or one by 35 or
more; that of the other kinds, for the chain, leaves room for 27. -/
def Recoverable (chainId : U256) : TxLike → Prop
  | legacy tx => tx.v = 27 ∨ tx.v = 28 ∨ 35 ≤ tx.v
  | accessList tx => tx.chainId = chainId → tx.v.toNat + 27 < 2 ^ 256
  | dynamicFee tx => tx.chainId = chainId → tx.v.toNat + 27 < 2 ^ 256

end TxLike

namespace Tx

/-- The transaction that a byte string encodes. -/
def parse [Rlp.Reader] (bytes : Bytes) : Option TxLike :=
  match bytes with
  | [] => none
  | byte :: rest =>
      if byte ≥ 0xc0 then (TxLegacy.decode bytes).map .legacy
      else if byte = 1 then (TxAccessList.decode rest).map .accessList
      else if byte = 2 then (TxDynamicFee.decode rest).map .dynamicFee
      else none

/-- Decode a transaction for a chain, with checked arithmetic. -/
def checkedDecode
    [Rlp.Reader] (bytes : Bytes) (chainId : U256) : Except TxPanic (Option Tx) :=
  match parse bytes with
  | none => .ok none
  | some tx =>
      (tx.checkedRecoverSender chainId).map (Option.map (mk tx (Hash.hash bytes)))

end Tx

/-! ## Where no operation overflows -/

/-- What a library that recovers public keys says of them: they are serialized without
compression, behind the byte 4. -/
def Uncompressed : Prop :=
  ∀ {message r s recoverId key},
    Secp256k1.recover message r s recoverId = some key → key.head? = some 4

/-- Both ways to run sender recovery return the same. -/
def Agree (checked wrapping : Except TxPanic (Option Addr)) : Prop :=
  ∃ sender, checked = .ok sender ∧ wrapping = .ok sender

/-- The assertion on a recovered key holds. -/
theorem recoverPlain_returns
    (uncompressed : Uncompressed) (txHash : Hash) (r s vb : U256)
    (homestead : Bool) : ∃ sender, recoverPlain txHash r s vb homestead = .ok sender := by
  unfold recoverPlain
  simp only
  split
  · exact ⟨_, rfl⟩
  split
  · exact ⟨_, rfl⟩
  split
  · exact ⟨_, rfl⟩
  split
  · exact ⟨_, rfl⟩
  split
  · exact ⟨_, rfl⟩
  · next key found =>
      rw [if_pos (uncompressed found)]
      exact ⟨_, rfl⟩

/-- A recovery byte of at least 27 leaves room for the subtraction. -/
theorem checkedRecoverPlain_agrees
    (uncompressed : Uncompressed) {vb : U256} (large : 27 ≤ vb.toNat) (txHash : Hash)
    (r s : U256) (homestead : Bool) :
    Agree (checkedRecoverPlain txHash r s vb homestead)
      (recoverPlain txHash r s vb homestead) := by
  obtain ⟨sender, returned⟩ := recoverPlain_returns uncompressed txHash r s vb homestead
  refine ⟨sender, ?_, returned⟩
  unfold checkedRecoverPlain
  split
  · next long =>
      rw [recoverPlain, if_pos long] at returned
      exact returned
  · next short =>
      have byte := (U256.bits_le_iff vb 8).mp (Nat.le_of_not_lt short)
      have low : vb.lowU64.toNat = vb.toNat := U256.toNat_lowU64 (by omega)
      have enough : (27 : UInt64).toNat ≤ vb.lowU64.toNat := by
        rw [low]
        exact large
      rw [subU64OrOverflow_of_le enough]
      exact returned

namespace TxLike

/-- For another chain nothing is computed. -/
theorem agree_of_ne {tx : TxLike} {chainId : U256}
    (named : tx.checkedChainId = .ok tx.chainId) (different : tx.chainId ≠ chainId) :
    Agree (tx.checkedRecoverSender chainId) (tx.recoverSender chainId) := by
  refine ⟨none, ?_, ?_⟩
  · rw [checkedRecoverSender, named]
    exact if_pos different
  · exact if_pos different

/-- A legacy transaction is recovered when its word names a chain, or none, and leaves room
for what is subtracted from it. -/
theorem agree_of_legacy
    (uncompressed : Uncompressed) {tx : TxLegacy} {chainId : U256}
    (named : tx.checkedChainId = .ok tx.deriveChainId) (large : 27 ≤ tx.v.toNat)
    (room : tx.isProtected → tx.deriveChainId = chainId →
      2 * chainId.toNat + 35 ≤ tx.v.toNat) :
    Agree ((legacy tx).checkedRecoverSender chainId)
      ((legacy tx).recoverSender chainId) := by
  by_cases same : (legacy tx).chainId = chainId
  · have derived : tx.checkedChainId = .ok chainId :=
      named.trans (congrArg Except.ok same)
    cases signs : tx.isProtected with
    | false =>
        obtain ⟨sender, runs, returned⟩ := checkedRecoverPlain_agrees uncompressed large
          (Hash.hash ((legacy tx).signedBytes chainId)) tx.r tx.s true
        refine ⟨sender, ?_, ?_⟩
        · simp only [checkedRecoverSender, checkedChainId, derived, bind, Except.bind,
            ne_eq, not_true_eq_false, if_false, type, isProtected, signs]
          exact runs
        · simp only [recoverSender, same, ne_eq, not_true_eq_false, if_false, type,
            isProtected, signs]
          exact returned
    | true =>
        have enough := room signs same
        have twice : (chainId <<< 1).toNat = 2 * chainId.toNat := by
          rw [BitVec.toNat_shiftLeft, Nat.shiftLeft_eq, Nat.mod_eq_of_lt (by omega)]
          omega
        have first : (chainId <<< 1).toNat ≤ tx.v.toNat := by omega
        have rest : (tx.v - chainId <<< 1).toNat = tx.v.toNat - 2 * chainId.toNat := by
          rw [BitVec.toNat_sub_of_le (BitVec.le_def.mpr first), twice]
        have second : (8 : U256).toNat ≤ (tx.v - chainId <<< 1).toNat := by
          rw [rest]
          exact Nat.le_sub_of_add_le (by change 8 + _ ≤ _; omega)
        have last : 27 ≤ (tx.v - chainId <<< 1 - 8).toNat := by
          rw [BitVec.toNat_sub_of_le (BitVec.le_def.mpr second), rest]
          change 27 ≤ tx.v.toNat - 2 * chainId.toNat - 8
          omega
        obtain ⟨sender, runs, returned⟩ := checkedRecoverPlain_agrees uncompressed last
          (Hash.hash ((legacy tx).signedBytes chainId)) tx.r tx.s true
        refine ⟨sender, ?_, ?_⟩
        · simp only [checkedRecoverSender, checkedChainId, derived, bind, Except.bind,
            ne_eq, not_true_eq_false, if_false, type, isProtected, signs, v,
            checkedSub_of_le first, checkedSub_of_le second, orOverflow, Option.elim]
          exact runs
        · simp only [recoverSender, same, ne_eq, not_true_eq_false, if_false, type,
            isProtected, signs, v, checkedSub_of_le first, checkedSub_of_le second,
            Option.bind]
          exact returned
  · exact agree_of_ne named same

/-- A transaction of another kind is recovered when 27 can be added to its word. -/
theorem agree_of_typed
    (uncompressed : Uncompressed) {tx : TxLike} {chainId : U256}
    (typed : tx.type = .accessList ∨ tx.type = .dynamicFee)
    (named : tx.checkedChainId = .ok tx.chainId)
    (room : tx.chainId = chainId → tx.v.toNat + 27 < 2 ^ 256) :
    Agree (tx.checkedRecoverSender chainId) (tx.recoverSender chainId) := by
  by_cases same : tx.chainId = chainId
  · have fits : tx.v.toNat + (27 : U256).toNat < 2 ^ 256 := room same
    have large : 27 ≤ (tx.v + 27).toNat := by
      rw [BitVec.toNat_add, Nat.mod_eq_of_lt fits]
      exact Nat.le_add_left _ _
    obtain ⟨sender, runs, returned⟩ := checkedRecoverPlain_agrees uncompressed large
      (Hash.hash (tx.signedBytes chainId)) tx.r tx.s true
    refine ⟨sender, ?_, ?_⟩
    · rw [same] at named
      obtain type | type := typed <;>
        simp only [checkedRecoverSender, named, bind, Except.bind, ne_eq, not_true_eq_false,
          if_false, type, checkedAdd_of_lt fits, orOverflow, Option.elim] <;>
        exact runs
    · obtain type | type := typed <;>
        simp only [recoverSender, same, ne_eq, not_true_eq_false, if_false, type,
          checkedAdd_of_lt fits] <;>
        exact returned
  · exact agree_of_ne named same

/-- Without the room for 27, the addition panics. -/
theorem overflows_of_typed
    {tx : TxLike} {chainId : U256}
    (typed : tx.type = .accessList ∨ tx.type = .dynamicFee)
    (named : tx.checkedChainId = .ok chainId) (same : tx.chainId = chainId)
    (large : 2 ^ 256 ≤ tx.v.toNat + 27) :
    tx.checkedRecoverSender chainId = .error .arithmeticOverflow ∧
      tx.recoverSender chainId = .error .arithmeticOverflow := by
  have overflows : tx.v.checkedAdd 27 = none := if_neg (Nat.not_lt.mpr large)
  obtain type | type := typed
  · constructor
    · simp only [checkedRecoverSender, named, bind, Except.bind, ne_eq, not_true_eq_false,
        if_false, type, overflows, orOverflow, Option.elim]
    · simp only [recoverSender, same, ne_eq, not_true_eq_false, if_false, type, overflows]
  · constructor
    · simp only [checkedRecoverSender, named, bind, Except.bind, ne_eq, not_true_eq_false,
        if_false, type, overflows, orOverflow, Option.elim]
    · simp only [recoverSender, same, ne_eq, not_true_eq_false, if_false, type, overflows]

/-- The recovery bit of the other kinds: adding 27 to it is all that can overflow. -/
theorem agree_iff_of_typed
    (uncompressed : Uncompressed) {tx : TxLike} (chainId : U256)
    (typed : tx.type = .accessList ∨ tx.type = .dynamicFee)
    (named : tx.checkedChainId = .ok tx.chainId) :
    Agree (tx.checkedRecoverSender chainId) (tx.recoverSender chainId) ↔
      (tx.chainId = chainId → tx.v.toNat + 27 < 2 ^ 256) := by
  constructor
  · rintro ⟨sender, runs, -⟩ same
    by_contra large
    have fails := (overflows_of_typed typed (same ▸ named) same (Nat.not_lt.mp large)).1
    rw [fails] at runs
    contradiction
  · exact agree_of_typed uncompressed typed named

/-- The word of a legacy transaction: 27, 28, or large enough to name a chain. -/
theorem agree_iff_of_legacy
    (uncompressed : Uncompressed) (tx : TxLegacy) (chainId : U256) :
    Agree ((legacy tx).checkedRecoverSender chainId)
        ((legacy tx).recoverSender chainId) ↔
      (tx.v = 27 ∨ tx.v = 28 ∨ 35 ≤ tx.v) := by
  rw [← or_assoc]
  constructor
  · rintro ⟨sender, runs, -⟩
    by_contra refused
    rw [not_or] at refused
    have small : tx.v.toNat < 35 := BitVec.lt_def.mp (BitVec.not_le.mp refused.2)
    rw [checkedRecoverSender, checkedChainId,
      TxLegacy.checkedChainId_wraps small refused.1] at runs
    contradiction
  · rintro (v | large)
    · obtain ⟨checked, derived, unprotected⟩ := TxLegacy.checkedChainId_unprotected v
      refine agree_of_legacy uncompressed (checked.trans ?_) ?_ ?_
      · rw [derived]
      · obtain v | v := v <;> rw [v] <;> decide
      · rw [unprotected]
        exact fun signs => absurd signs Bool.false_ne_true
    · have large : 35 ≤ tx.v.toNat := BitVec.le_def.mp large
      obtain ⟨checked, half⟩ := TxLegacy.checkedChainId_protected large
      refine agree_of_legacy uncompressed checked (by omega) fun _ same => ?_
      rw [← same, half]
      omega

/-- The signatures that can be recovered are those on which no operation overflows. -/
theorem agree_iff_recoverable (uncompressed : Uncompressed) (tx : TxLike) (chainId : U256) :
    Agree (tx.checkedRecoverSender chainId) (tx.recoverSender chainId) ↔
      tx.Recoverable chainId := by
  cases tx with
  | legacy tx => exact agree_iff_of_legacy uncompressed tx chainId
  | accessList tx =>
      have typed : (accessList tx).type = .accessList := rfl
      exact agree_iff_of_typed uncompressed chainId (.inl typed) rfl
  | dynamicFee tx =>
      have typed : (dynamicFee tx).type = .dynamicFee := rfl
      exact agree_iff_of_typed uncompressed chainId (.inr typed) rfl

end TxLike

namespace Tx

variable [Rlp.Reader]

omit [Rlp.Reader] in
/-- A transaction is made when its sender is found. -/
theorem new_eq (tx : TxLike) (txHash : Hash) (chainId : U256) :
    new tx txHash chainId = (tx.recoverSender chainId).map (Option.map (mk tx txHash)) := by
  unfold new
  cases tx.recoverSender chainId with
  | error panic => rfl
  | ok sender => cases sender <;> rfl

/-- Decoding parses, and then recovers the sender. -/
theorem decode_eq (bytes : Bytes) (chainId : U256) :
    decode bytes chainId =
      (parse bytes).elim (.ok none) fun tx => new tx (Hash.hash bytes) chainId := by
  unfold decode parse
  cases bytes with
  | nil => rfl
  | cons byte rest =>
      simp only
      split
      · cases TxLegacy.decode (byte :: rest) <;> rfl
      · split
        · cases TxAccessList.decode rest <;> rfl
        · split
          · cases TxDynamicFee.decode rest <;> rfl
          · rfl

omit [Keccak256] [Secp256k1] [Rlp.Reader] in
/-- Making transactions of senders forgets nothing. -/
theorem agree_iff_map
    (tx : TxLike) (txHash : Hash) (checked wrapping : Except TxPanic (Option Addr)) :
    (∃ made, checked.map (Option.map (mk tx txHash)) = .ok made ∧
      wrapping.map (Option.map (mk tx txHash)) = .ok made) ↔ Agree checked wrapping := by
  have injective : Function.Injective (Option.map (mk tx txHash)) := by
    apply Option.map_injective
    intro sender other same
    exact congrArg from_ same
  constructor
  · rintro ⟨made, runs, returns⟩
    cases checked with
    | error panic => contradiction
    | ok sender =>
        cases wrapping with
        | error panic => contradiction
        | ok other =>
            have same := (Except.ok.inj returns).trans (Except.ok.inj runs).symm
            exact ⟨sender, rfl, congrArg Except.ok (injective same)⟩
  · rintro ⟨sender, rfl, rfl⟩
    exact ⟨_, rfl, rfl⟩

/-- Decoding does what the recovery of the sender does, if there is a transaction. -/
theorem decode_agrees_iff (uncompressed : Uncompressed) (bytes : Bytes) (chainId : U256) :
    (∃ tx, checkedDecode bytes chainId = .ok tx ∧ decode bytes chainId = .ok tx) ↔
      ∀ tx, parse bytes = some tx → tx.Recoverable chainId := by
  rw [decode_eq, checkedDecode]
  cases parse bytes with
  | none => exact ⟨fun _ _ found => by contradiction, fun _ => ⟨none, rfl, rfl⟩⟩
  | some tx =>
      simp only [Option.some.injEq, forall_eq', Option.elim, new_eq]
      rw [← tx.agree_iff_recoverable uncompressed chainId]
      exact agree_iff_map tx _ _ _

end Tx

/-- Sender recovery returns without leaving the numbers that it computes with, and without
a panic, exactly on the signatures that can be recovered; and decoding does exactly on the
byte strings that encode no transaction with another signature. -/
theorem recovery_total_iff [Rlp.Reader] (uncompressed : Uncompressed) (chainId : U256) :
    (∀ tx : TxLike, Agree (tx.checkedRecoverSender chainId) (tx.recoverSender chainId) ↔
      tx.Recoverable chainId) ∧
      ∀ bytes : Bytes,
        (∃ tx, Tx.checkedDecode bytes chainId = .ok tx ∧
          Tx.decode bytes chainId = .ok tx) ↔
        ∀ tx, Tx.parse bytes = some tx → tx.Recoverable chainId :=
  ⟨fun tx => tx.agree_iff_recoverable uncompressed chainId,
    fun bytes => Tx.decode_agrees_iff uncompressed bytes chainId⟩

end Recovery
namespace Sample

/-- A hash that nothing is looked up in. -/
@[reducible] def recoveryKeccak : Keccak256 := ⟨fun _ => 0⟩

/-- A recovery that finds the same key for every signature. -/
@[reducible] def recoveryKeys : Secp256k1 := ⟨fun _ _ _ _ => some (4 :: List.replicate 64 1)⟩

/-- A legacy transaction with a given `v`. -/
def legacyWith (v : U256) : TxLike := .legacy ⟨0, 0, 21000, none, 0, [], v, 1, 1⟩

/-- A transaction for chain 1 with the largest recovery bit. -/
def oversized : TxLike :=
  .accessList ⟨1, 0, 0, 21000, none, 0, [], [], BitVec.allOnes 256, 1, 1⟩

end Sample

/-- An unprotected signature is recovered, and so is a transaction that carries it. -/
theorem unprotected_signature_recovers :
    letI := Sample.recoveryKeccak
    letI := Sample.recoveryKeys
    letI := Rlp.standardReader
    Agree ((Sample.legacyWith 27).checkedRecoverSender 0)
        ((Sample.legacyWith 27).recoverSender 0) ∧
      ∃ tx, Tx.checkedDecode (Sample.legacyWith 27).encode 0 = .ok tx ∧
        Tx.decode (Sample.legacyWith 27).encode 0 = .ok tx := by
  let := Sample.recoveryKeccak
  let := Sample.recoveryKeys
  let := Rlp.standardReader
  have uncompressed : Uncompressed := fun found => by
    rw [← Option.some.inj found]
    rfl
  have recoverable : (Sample.legacyWith 27).Recoverable 0 := .inl rfl
  have parsed : Tx.parse (Sample.legacyWith 27).encode = some (Sample.legacyWith 27) := by
    decide +kernel
  obtain ⟨recovers, decodes⟩ := recovery_total_iff uncompressed 0
  refine ⟨(recovers _).mpr recoverable, (decodes _).mpr fun tx found => ?_⟩
  obtain rfl := Option.some.inj (parsed.symm.trans found)
  exact recoverable

/-- The largest recovery bit makes decoding panic, and the word 29 does on the chain that
a wrapped subtraction finds in it; on other chains the subtraction has wrapped. -/
theorem crafted_signatures_overflow :
    letI := Sample.recoveryKeccak
    letI := Sample.recoveryKeys
    letI := Rlp.standardReader
    Sample.oversized.recoverSender 1 = .error .arithmeticOverflow ∧
      Tx.decode Sample.oversized.encode 1 = .error .arithmeticOverflow ∧
      (Sample.legacyWith 29).recoverSender (2 ^ 63 - 3) = .error .arithmeticOverflow ∧
      (Sample.legacyWith 29).recoverSender 1 = .ok none ∧
      (Sample.legacyWith 29).checkedRecoverSender 1 = .error .arithmeticOverflow := by
  let := Sample.recoveryKeccak
  let := Sample.recoveryKeys
  let := Rlp.standardReader
  refine ⟨?_, ?_, ?_, ?_, ?_⟩
  · decide +kernel
  · decide +kernel
  · decide +kernel
  · decide +kernel
  · decide +kernel

end Qevm
