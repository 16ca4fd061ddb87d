import Qevm.Core.Run
import Qevm.Laws.Unstartable
import Qevm.State.Dummy

/-!
# Addresses of created contracts

`CREATE2` hashes the initialization code and hands the digest to a helper that hashes it
again.  The address of the new contract is the one that it should be only when hashing twice
does not matter.
-/

namespace Qevm

open WorldState Exec TxExecContext

section Law

variable [Keccak256]

/-- What is hashed to get the address of a contract, given the digest of its code. -/
def addressPreimage (creator : Addr) (salt : U256) (digest : Hash) : Bytes :=
  [0xff] ++ creator.asBytes ++ U256.toBigEndian salt ++ U256.toBigEndian digest

/-- The address that `CREATE2` is to use: the last 20 bytes of the hash of the creator, the
salt and the hash of the initialization code. -/
def create2Address (creator : Addr) (salt : U256) (code : Bytes) : Addr :=
  U256.toAddr (Hash.hash (addressPreimage creator salt (Hash.hash code)))

/-- Hashing the digest of a code gives the digest again. -/
def FixedDigest (code : Bytes) : Prop :=
  Hash.hash (U256.toBigEndian (Hash.hash code)) = Hash.hash code

/-- Two byte strings have hashes with the same last 20 bytes. -/
def CollideAsAddresses (first second : Bytes) : Prop :=
  first ≠ second ∧ U256.toAddr (Hash.hash first) = U256.toAddr (Hash.hash second)

instance (code : Bytes) : Decidable (FixedDigest code) :=
  inferInstanceAs (Decidable (_ = _))

instance (first second : Bytes) : Decidable (CollideAsAddresses first second) :=
  inferInstanceAs (Decidable (_ ∧ _))

/-- The executing frame initializes the contract at an address. -/
def Initializes {S : Type} (context : TxExecContext S) (contract : Addr) : Prop :=
  context.curCall.callee = contract ∧
    ∃ saved, context.curCall.callType = .create ⟨saved, contract⟩

omit [Keccak256] in
/-- Different digests are hashed to addresses from different byte strings. -/
theorem addressPreimage_injective
    {creator : Addr} {salt : U256} {first second : Hash}
    (same : addressPreimage creator salt first = addressPreimage creator salt second) :
    first = second := by
  have digests : first.asBytes = second.asBytes := List.append_cancel_left same
  have numbers := congrArg Rlp.ofBigEndian digests
  rw [ofBigEndian_asBytes, ofBigEndian_asBytes] at numbers
  exact BitVec.eq_of_toNat_eq numbers

/-- Hashing the digest of a code again does not matter when the digest is fixed or the two
byte strings collide, and only then. -/
theorem createAddr2_eq_iff (creator : Addr) (salt : U256) (code : Bytes) :
    createAddr2 creator (U256.toBigEndian salt) (U256.toBigEndian (Hash.hash code)) =
        create2Address creator salt code ↔
      FixedDigest code ∨ CollideAsAddresses
        (addressPreimage creator salt
          (Hash.hash (U256.toBigEndian (Hash.hash code))))
        (addressPreimage creator salt (Hash.hash code)) := by
  constructor
  · intro same
    by_cases preimages : addressPreimage creator salt
        (Hash.hash (U256.toBigEndian (Hash.hash code))) =
      addressPreimage creator salt (Hash.hash code)
    · exact .inl (addressPreimage_injective preimages)
    · exact .inr ⟨preimages, same⟩
  · rintro (fixed | ⟨-, same⟩)
    · unfold createAddr2 create2Address addressPreimage
      rw [fixed]
    · exact same

variable {S : Type} [WorldState S] {before after : TxExecContext S} {inst : Inst}

/-- The contract of a frame that a creation opens. -/
theorem Opens.initializes
    (opens : Opens before after) (fetches : Fetches before inst)
    (creation : inst.opcode.isCreation = true) :
    Initializes after (newContract inst.opcode before) := by
  obtain ⟨found, code, input, value, callee, caller, callType, gas, readOnly,
    working, foundFetches, -, effected, -, rfl⟩ := opens.cases
  obtain rfl : found = inst := Option.some.inj (foundFetches.symm.trans fetches)
  obtain ⟨request, contract, paid, saved, snapped, charges, -, enters, -⟩ :=
    creation_ok creation effected
  obtain ⟨rfl, rfl, rfl, rfl, rfl, rfl, rfl, rfl⟩ := Tail.enter.inj enters
  obtain ⟨rfl, -⟩ := charges.operands
  exact ⟨rfl, saved, rfl⟩

/-- The contract that `CREATE2` creates has the address that it should have when hashing the
digest of its code again does not matter, and only then. -/
theorem create2_address_iff
    (fetches : Fetches before inst) (create2 : inst.opcode = .create2)
    (opens : Opens before after) :
    Initializes after
        (create2Address before.curCall.callee (operand before 3) (initCode before)) ↔
      FixedDigest (initCode before) ∨ CollideAsAddresses
        (addressPreimage before.curCall.callee (operand before 3)
          (Hash.hash (U256.toBigEndian (Hash.hash (initCode before)))))
        (addressPreimage before.curCall.callee (operand before 3)
          (Hash.hash (initCode before))) := by
  have creation : inst.opcode.isCreation = true := by rw [create2]; rfl
  have initializes := opens.initializes fetches creation
  rw [newContract, if_pos create2] at initializes
  rw [← createAddr2_eq_iff]
  constructor
  · rintro ⟨should, -⟩
    exact initializes.1.symm.trans should
  · intro same
    exact same ▸ initializes

end Law

namespace Sample

/-- Creates a contract from an initialization code of one zero byte, with a salt. -/
def saltedCode : Bytes := [0x60, 0x05, 0x60, 0x01, 0x60, 0x00, 0x60, 0x00, 0xf5, 0x00]

/-- The digests that the creation looks at. -/
@[reducible] def saltedKeccak : Keccak256 := keccak
  [([], 0xc5d2460186f7233c927e7db2dcc703c0e500b653ca82273b7bfad8045d85a470),
    (saltedCode, 0xdec124bca6dd08d117994565387836bef64c3dc5310e1e49f39528ffbd2001c7),
    ([0x00], 0xbc36789e7a1e281436464229828f817d6612f7b477d66591ff96a9e064bcc98a),
    (U256.toBigEndian
        0xbc36789e7a1e281436464229828f817d6612f7b477d66591ff96a9e064bcc98a,
      0xc741bfe7740ec80f9d6965a49bf8af6488a0fd9505c271ea546b61a4a50a7945),
    (addressPreimage 0xaa 5
        0xbc36789e7a1e281436464229828f817d6612f7b477d66591ff96a9e064bcc98a,
      0x2b3096e7afc605a2dbcbc455d7cc21c08602c95c91387d0471cd12ab223f6591),
    (addressPreimage 0xaa 5
        0xc741bfe7740ec80f9d6965a49bf8af6488a0fd9505c271ea546b61a4a50a7945,
      0xfab3fb8547bb35387bfc81cecb7200616afb705824f9119cee93e57c24b7dfac)]

/-- A transaction to an account with that code. -/
def saltedTx [Keccak256] : Transaction DummyStateStore :=
  let state := DummyStateStore.new.setCode 0xaa saltedCode
  { sender := 1
    recipient := some 0xaa
    value := 0
    gas := 1000000
    gasPrice := 0
    input := []
    accessList := none
    state := state
    committedState := state
    env := env .london }

end Sample

/-- A hash function that is constant has a fixed digest. -/
theorem fixed_digest_is_harmless :
    letI := Sample.keccak []
    ∃ before after : TxExecContext DummyStateStore, Sample.saltedTx.Reaches before ∧
      Opens before after ∧ initCode before = [0x00] ∧
      Initializes after
        (create2Address before.curCall.callee (operand before 3) (initCode before)) := by
  let := Sample.keccak []
  obtain ⟨run, reached, resumption, fetches, code⟩ :=
    Sample.saltedTx.exists_resumption 4 0
      (fun run => Fetches run.calling ⟨.create2, none, 0⟩ ∧ initCode run.calling = [0x00])
      (by decide +kernel)
  exact ⟨run.calling, run.pushed, reached, resumption.opens, code,
    (create2_address_iff fetches rfl resumption.opens).mpr (.inl rfl)⟩

/-- The code is hashed twice, and the contract gets another address than it should. -/
theorem code_is_hashed_twice :
    letI := Sample.saltedKeccak
    ∃ before after : TxExecContext DummyStateStore, Sample.saltedTx.Reaches before ∧
      Fetches before ⟨.create2, none, 0⟩ ∧ Opens before after ∧
      before.curCall.callee = 0xaa ∧ operand before 3 = 5 ∧ initCode before = [0x00] ∧
      after.curCall.callee = 0xcb7200616afb705824f9119cee93e57c24b7dfac ∧
      create2Address 0xaa 5 [0x00] = 0xd7cc21c08602c95c91387d0471cd12ab223f6591 ∧
      ¬Initializes after (create2Address 0xaa 5 [0x00]) := by
  let := Sample.saltedKeccak
  obtain ⟨run, reached, resumption, fetches, creator, salt, code, contract⟩ :=
    Sample.saltedTx.exists_resumption 4 0
      (fun run => Fetches run.calling ⟨.create2, none, 0⟩ ∧
        run.calling.curCall.callee = 0xaa ∧ operand run.calling 3 = 5 ∧
        initCode run.calling = [0x00] ∧
        run.pushed.curCall.callee = 0xcb7200616afb705824f9119cee93e57c24b7dfac)
      (by decide +kernel)
  have should : create2Address 0xaa 5 [0x00] =
      0xd7cc21c08602c95c91387d0471cd12ab223f6591 := by decide +kernel
  refine ⟨run.calling, run.pushed, reached, fetches, resumption.opens, creator, salt, code,
    contract, should, fun initializes => ?_⟩
  have same := initializes.1
  rw [contract, should] at same
  exact absurd same (by decide)

end Qevm
