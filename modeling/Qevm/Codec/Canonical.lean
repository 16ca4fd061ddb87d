/-!
# Canonical codecs

A codec writes values as payloads and reads payloads back.  It is canonical when it reads
exactly what it writes: each value then has one payload that is accepted, and each accepted
payload is the one of its value.
-/

/-- A way to write values and a way to read them that may fail. -/
structure Codec (β : Type u) (ε : Type v) (α : Type w) where
  encode : α → β
  decode : β → Except ε α

/-- Reading and writing are inverse to each other on the payloads with a property, and no
other payload is accepted. -/
structure Codec.Canonical (codec : Codec β ε α) (accepts : β → Prop) : Prop where
  decode_eq_ok : ∀ payload value,
    codec.decode payload = .ok value ↔ payload = codec.encode value
  accepted : ∀ payload, (∃ value, codec.decode payload = .ok value) ↔ accepts payload

namespace Codec

variable {codec : Codec β ε α} {accepts : β → Prop}

/-- What is written is read back, what is accepted is written again, and the rest fails. -/
theorem Canonical.of_inverse
    (read_back : ∀ value, codec.decode (codec.encode value) = .ok value)
    (write_back : ∀ payload, accepts payload →
      ∃ value, codec.decode payload = .ok value ∧ codec.encode value = payload)
    (rejected : ∀ payload, ¬accepts payload → ∃ err, codec.decode payload = .error err) :
    codec.Canonical accepts := by
  have accepted (payload : β) :
      (∃ value, codec.decode payload = .ok value) ↔ accepts payload := by
    constructor
    · rintro ⟨value, decoded⟩
      apply Classical.byContradiction
      intro foreign
      obtain ⟨err, failed⟩ := rejected payload foreign
      cases decoded.symm.trans failed
    · intro fine
      obtain ⟨value, decoded, -⟩ := write_back payload fine
      exact ⟨value, decoded⟩
  refine ⟨fun payload value => ⟨fun decoded => ?_, ?_⟩, accepted⟩
  · have fine := (accepted payload).mp ⟨value, decoded⟩
    obtain ⟨other, again, same⟩ := write_back payload fine
    rw [← same, Except.ok.inj (again.symm.trans decoded)]
  · rintro rfl
    exact read_back value

end Codec
