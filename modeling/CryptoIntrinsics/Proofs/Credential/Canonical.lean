import CryptoIntrinsics.Proofs.Credential.Reading
import CryptoIntrinsics.Proofs.Session.Policy
import Mathlib.Data.Set.Function

namespace CryptoIntrinsics.Credential

variable {kind : Kind}

/-- What is written is read back, whether padded integers are refused or not. -/
theorem deserialize_serialize (strict : Bool) (c : Credential kind) :
    deserialize kind strict c.serialize = .ok c := by
  rw [serialize, deserialize_append kind strict c.tag_le, dif_pos c.size_eq]

theorem serialize_inj {c d : Credential kind} : c.serialize = d.serialize ↔ c = d := by
  constructor
  · intro hsame
    have hread := deserialize_serialize true c
    rw [hsame, deserialize_serialize] at hread
    exact (Except.ok.inj hread).symm
  · rintro rfl
    rfl

theorem toDatum_inj {c d : Credential kind} : c.toDatum = d.toDatum ↔ c = d := by
  constructor
  · intro hsame
    cases kind with
    | publicKey => exact Datum.publicKey.inj hsame
    | signature => exact Datum.signature.inj hsame
  · rintro rfl
    rfl

/-- Strictly, only what was written for a value is read as it. -/
theorem deserialize_eq_ok_iff {bytes : Octets} {c : Credential kind} :
    deserialize kind true bytes = .ok c ↔ bytes = c.serialize := by
  constructor
  · intro hread
    obtain ⟨tag, htag, data, rfl⟩ | ⟨flaw, hflaw⟩ := exists_tag_or_badTag bytes
    · rw [deserialize_append kind true htag] at hread
      split at hread
      · cases hread
        rfl
      · split at hread <;> cases hread
    · rw [deserialize_of_badTag kind hflaw] at hread
      cases hread
  · rintro rfl
    exact deserialize_serialize true c

/-- A value is read from the first byte on, so no reading of it starts before that byte. -/
theorem deserialize_ne_outOfRange (strict : Bool) (bytes : Octets) :
    deserialize kind strict bytes ≠ .error .outOfRange := by
  intro hread
  have hzero : Offset.ahead? bytes 0 = some bytes := Offset.ahead?_natCast bytes 0
  cases hdecode : Varint.decode strict Varint.maxTag bytes with
  | error flaw =>
    rw [deserialize_of_badTag kind hdecode] at hread
    cases hread
  | ok result =>
    simp only [deserialize, unpackFrom, Varint.decodeAt?, hzero, Option.map_some, hdecode,
      ofParts, bind, Except.bind, Except.map] at hread
    grind

/-- However an exact reading fails, it is reported as malformed bytes. -/
theorem exists_decode_fault {strict : Bool} {bytes : Octets} {flaw : Flaw} (offset : Datum)
    (hread : deserialize kind strict bytes = .error flaw) :
    ∃ f, flaw.failure offset = .fault f ∧ f.family = .decode := by
  cases flaw with
  | outOfRange => exact absurd hread (deserialize_ne_outOfRange strict bytes)
  | width => exact ⟨_, rfl, rfl⟩
  | badHex => exact ⟨_, rfl, rfl⟩
  | badTag => exact ⟨_, rfl, rfl⟩
  | truncated => exact ⟨_, rfl, rfl⟩
  | trailing => exact ⟨_, rfl, rfl⟩

/-- What reading exactly one value from a byte string answers in a session. -/
def readIn (kind : Kind) (session : Session) (bytes : Octets) : Except Failure (Credential kind) :=
  ((Decoding.credential kind (.octets bytes)).runOn session).1

theorem readIn_eq (session : Session) (bytes : Octets) :
    readIn kind session bytes =
      settle (deserialize kind session.policyInForce.strictVarint bytes) := by
  rw [readIn, Decoding.runOn_credential]
  rfl

theorem settle_eq_ok_iff {α : Type} {result : Except Flaw α} {value : α} :
    settle result = .ok value ↔ result = .ok value := by
  cases result <;> simp [settle, settleAt]

/-- With padded integers refused, reading and writing are inverse to each other between the values
    of a kind, whatever their tag, and the byte strings that are read; every other byte string is
    refused as malformed and in no other way. -/
theorem bijOn_serialize (kind : Kind) (session : Session)
    (hstrict : session.policyInForce.strictVarint = true) :
    (∀ (bytes : Octets) (c : Credential kind),
      readIn kind session bytes = .ok c ↔ bytes = c.serialize) ∧
    (∀ c : Credential kind, readIn kind session c.serialize = .ok c) ∧
    (∀ bytes : Octets, (∀ c : Credential kind, bytes ≠ c.serialize) →
      ∃ f, readIn kind session bytes = .error (.fault f) ∧ f.family = .decode) ∧
    Set.BijOn (fun c : Credential kind => c.serialize) Set.univ
      {bytes | ∃ c : Credential kind, readIn kind session bytes = .ok c} := by
  have hread (bytes : Octets) (c : Credential kind) :
      readIn kind session bytes = .ok c ↔ bytes = c.serialize := by
    rw [readIn_eq, hstrict, settle_eq_ok_iff, deserialize_eq_ok_iff]
  refine ⟨hread, fun c => (hread _ c).2 rfl, ?_, ?_, ?_, ?_⟩
  · intro bytes hother
    rw [readIn_eq, hstrict]
    cases hdeserialize : deserialize kind true bytes with
    | ok c => exact absurd (deserialize_eq_ok_iff.1 hdeserialize) (hother c)
    | error flaw =>
      obtain ⟨f, hfault, hfamily⟩ := exists_decode_fault (.integer 0) hdeserialize
      exact ⟨f, congrArg Except.error hfault, hfamily⟩
  · intro c _
    exact ⟨c, (hread _ c).2 rfl⟩
  · intro c _ d _ hsame
    change c.serialize = d.serialize at hsame
    have hc := (hread _ c).2 rfl
    rw [hsame, (hread _ d).2 rfl] at hc
    exact (Except.ok.inj hc).symm
  · rintro bytes ⟨c, hc⟩
    exact ⟨c, Set.mem_univ c, ((hread bytes c).1 hc).symm⟩

/-- A remembered policy is in force even where the environment asks for another one, and a tag with
    an empty last group is refused by it. -/
theorem bijOn_serialize_remembered :
    let session : Session :=
      { Session.start with
        environment := Environment.empty.set "CONTRACT_CRYPTO_STRICT_VARINT" (some "0")
        policy := some ⟨true, 1024, true⟩ }
    session.policyInForce.strictVarint = true ∧
      ∃ f, readIn .publicKey session (0x80 :: 0 :: List.replicate 33 2) = .error (.fault f) ∧
        f.family = .decode := by
  intro session
  refine ⟨rfl, (bijOn_serialize .publicKey session rfl).2.2.1 _ ?_⟩
  intro c hsame
  have hpadded : Varint.decode true Varint.maxTag (0x80 :: 0 :: List.replicate 33 2) =
      .error .nonMinimal := rfl
  have hread := deserialize_serialize true c
  rw [← hsame, deserialize_of_badTag .publicKey hpadded] at hread
  cases hread

end CryptoIntrinsics.Credential
