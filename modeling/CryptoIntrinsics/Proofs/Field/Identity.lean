import CryptoIntrinsics.Proofs.Credential.Canonical
import CryptoIntrinsics.Proofs.Field.Reading

namespace CryptoIntrinsics.Field

def toDatum : Field → Datum
  | credential value => value.toDatum
  | @checksum kind value => .checksum kind value

variable {v w : Field}

theorem exists_credential {kind : Credential.Kind} (hkind : v.kind = .credential kind) :
    ∃ c : Credential kind, v = credential c := by
  cases v with
  | credential c =>
    cases hkind
    exact ⟨c, rfl⟩
  | checksum c => cases hkind

theorem exists_checksum {kind : Checksum.Kind} (hkind : v.kind = .checksum kind) :
    ∃ c : Checksum kind, v = checksum c := by
  cases v with
  | credential c => cases hkind
  | checksum c =>
    cases hkind
    exact ⟨c, rfl⟩

/-- What a value is and its canonical encoding determine it. -/
theorem eq_iff_serialize_eq : v = w ↔ v.kind = w.kind ∧ v.serialize = w.serialize := by
  constructor
  · rintro rfl
    exact ⟨rfl, rfl⟩
  · rintro ⟨hkind, hsame⟩
    cases w with
    | credential d =>
      obtain ⟨c, rfl⟩ := exists_credential hkind
      rw [Credential.serialize_inj.1 hsame]
    | checksum d =>
      obtain ⟨c, rfl⟩ := exists_checksum hkind
      rw [Checksum.ext hsame]

theorem toDatum_inj : v.toDatum = w.toDatum ↔ v = w := by
  constructor
  · intro hsame
    cases v with
    | @credential kind value =>
      cases w with
      | @credential other value' => cases kind <;> cases other <;> cases hsame <;> rfl
      | @checksum other value' => cases kind <;> cases hsame
    | @checksum kind value =>
      cases w with
      | @credential other value' => cases other <;> cases hsame
      | @checksum other value' =>
        cases hsame
        rfl
  · rintro rfl
    rfl

end CryptoIntrinsics.Field
