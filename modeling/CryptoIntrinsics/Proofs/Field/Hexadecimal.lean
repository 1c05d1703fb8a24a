import CryptoIntrinsics.Proofs.Checksum.Offset
import CryptoIntrinsics.Proofs.Field.Identity
import CryptoIntrinsics.Proofs.Hex.Spaced

namespace CryptoIntrinsics.Field

open Procedure

def Kind.ofHex (text : String) : Kind → Operation
  | .credential kind => .credentialOfHex kind text
  | .checksum kind => .checksumOfHex kind text

/-- Where keys and signatures are read, padded integers are refused. -/
def Kind.IsStrictIn (kind : Kind) (session : Session) : Prop :=
  ∀ credential, kind = .credential credential → session.policyInForce.strictVarint = true

section Outcome

variable {text : String} {session : Session}

theorem outcome_credentialOfHex_of_some (kind : Credential.Kind) {bytes : Octets}
    (hstrict : session.policyInForce.strictVarint = true)
    (hbytes : Hex.ofText? (Text.trim text.toList) = some bytes) :
    (Operation.credentialOfHex kind text).outcome session =
      (Credential.settle (Credential.deserialize kind true bytes)).map (.datum ·.toDatum) := by
  have hread : Credential.hexOctets kind text = .ok bytes := by
    rw [Credential.hexOctets, hbytes]
  rw [Operation.outcome, Operation.run, runOn_bind, Decoding.runOn_credentialOfHex, hread]
  dsimp only [Credential.settle, Credential.settleAt]
  rw [hstrict]
  cases Credential.deserialize kind true bytes <;> rfl

theorem outcome_credentialOfHex_of_none {kind : Credential.Kind}
    (hbytes : Hex.ofText? (Text.trim text.toList) = none) :
    (Operation.credentialOfHex kind text).outcome session =
      .error ((Credential.Flaw.badHex kind text).failure (.integer 0)) := by
  have hread : Credential.hexOctets kind text = .error (.badHex kind text) := by
    rw [Credential.hexOctets, hbytes]
  rw [Operation.outcome, Operation.run, runOn_bind, Decoding.runOn_credentialOfHex, hread]
  rfl

theorem outcome_checksumOfHex (kind : Checksum.Kind) (text : String) (session : Session) :
    (Operation.checksumOfHex kind text).outcome session =
      (Checksum.settle (Checksum.ofHex kind text)).map (.datum <| .checksum kind ·) := by
  rw [Operation.outcome, Operation.run, runOn_demand_bind]
  cases Checksum.settle (Checksum.ofHex kind text) <;> rfl

/-- A text is read as the value whose canonical encoding it displays, or refused as malformed where
    it displays none. -/
theorem ends_ofHex (kind : Kind) (text : String) (hstrict : kind.IsStrictIn session) :
    (∃ v : Field, v.kind = kind ∧ Hex.ofText? (Text.trim text.toList) = some v.serialize ∧
      (kind.ofHex text).outcome session = .ok (.datum v.toDatum)) ∨
    (∀ v : Field, v.kind = kind → Hex.ofText? (Text.trim text.toList) ≠ some v.serialize) ∧
      ∃ f, (kind.ofHex text).outcome session = .error (.fault f) ∧ f.family = .decode := by
  cases kind with
  | credential kind =>
    cases hbytes : Hex.ofText? (Text.trim text.toList) with
    | none =>
      exact .inr ⟨fun _ _ => nofun, _, outcome_credentialOfHex_of_none hbytes, rfl⟩
    | some bytes =>
      have houtcome := outcome_credentialOfHex_of_some kind (hstrict kind rfl) hbytes
      cases hread : Credential.deserialize kind true bytes with
      | ok c =>
        rw [hread] at houtcome
        exact .inl ⟨credential c, rfl, congrArg some (Credential.deserialize_eq_ok_iff.1 hread),
          houtcome⟩
      | error flaw =>
        obtain ⟨f, hfault, hfamily⟩ := Credential.exists_decode_fault (.integer 0) hread
        rw [hread] at houtcome
        refine .inr ⟨?_, f, houtcome.trans (congrArg Except.error hfault), hfamily⟩
        intro v hkind hdisplayed
        obtain ⟨c, rfl⟩ := exists_credential hkind
        rw [Option.some.inj hdisplayed, serialize, Credential.deserialize_serialize] at hread
        cases hread
  | checksum kind =>
    have houtcome := outcome_checksumOfHex kind text session
    cases hbytes : Hex.ofText? (Text.trim text.toList) with
    | none =>
      rw [Checksum.ofHex, hbytes] at houtcome
      exact .inr ⟨fun _ _ => nofun, _, houtcome, rfl⟩
    | some bytes =>
      rw [Checksum.ofHex, hbytes] at houtcome
      by_cases hwidth : bytes.length = kind.size
      · dsimp only at houtcome
        rw [Checksum.ofOctets_of_length kind hwidth] at houtcome
        exact .inl ⟨checksum ⟨bytes, hwidth⟩, rfl, rfl, houtcome⟩
      · dsimp only at houtcome
        rw [Checksum.ofOctets, dif_neg hwidth] at houtcome
        refine .inr ⟨?_, _, houtcome, rfl⟩
        intro v hkind hdisplayed
        obtain ⟨c, rfl⟩ := exists_checksum hkind
        exact hwidth (Option.some.inj hdisplayed ▸ c.size_eq)

/-- A text is read as a value exactly if the bytes that it displays are the value's encoding. -/
theorem outcome_ofHex_eq_ok_iff {text : String} {v : Field} (hstrict : v.kind.IsStrictIn session) :
    (v.kind.ofHex text).outcome session = .ok (.datum v.toDatum) ↔
      Hex.ofText? (Text.trim text.toList) = some v.serialize := by
  obtain ⟨w, hkind, hbytes, houtcome⟩ | ⟨hnone, f, houtcome, -⟩ := ends_ofHex v.kind text hstrict
  · rw [houtcome, hbytes]
    constructor
    · intro hsame
      rw [toDatum_inj.1 (Answer.datum.inj (Except.ok.inj hsame))]
    · intro hsame
      rw [eq_iff_serialize_eq.2 ⟨hkind, Option.some.inj hsame⟩]
  · rw [houtcome]
    exact ⟨nofun, fun hbytes => absurd hbytes (hnone v rfl)⟩

end Outcome

/-- A text is read as a value exactly if, without the blanks around it and without one marker, it
    writes the value's canonical encoding in digit pairs with gaps around them; that is, if it
    displays the encoding. So the printed encoding is read as the value, and so is every other text
    that displays the same bytes. Every text that is read as no value is refused as malformed. -/
theorem ofHex_iff_displays (kind : Kind) {session : Session} (hstrict : kind.IsStrictIn session) :
    let outcome (text : String) := (kind.ofHex text).outcome session
    (∀ v : Field, v.kind = kind →
      (∀ text : String,
        (outcome text = .ok (.datum v.toDatum) ↔
          Hex.WritesSpaced (Hex.dropMarker (Text.trim text.toList)) v.serialize) ∧
        (outcome text = .ok (.datum v.toDatum) ↔ Hex.Displays text.toList v.serialize)) ∧
      outcome (Hex.encode v.serialize) = .ok (.datum v.toDatum)) ∧
    ∀ text : String, (∃ v : Field, v.kind = kind ∧ outcome text = .ok (.datum v.toDatum)) ∨
      ∃ f, outcome text = .error (.fault f) ∧ f.family = .decode := by
  intro outcome
  refine ⟨?_, fun text => ?_⟩
  · rintro v rfl
    have hread (text : String) : outcome text = .ok (.datum v.toDatum) ↔
        Hex.ofText? (Text.trim text.toList) = some v.serialize := outcome_ofHex_eq_ok_iff hstrict
    refine ⟨fun text => ⟨?_, ?_⟩, ?_⟩
    · rw [← Hex.ofText?_eq_some_iff]
      exact hread text
    · rw [← Hex.ofText?_trim_eq_some_iff]
      exact hread text
    · refine (hread _).2 (Hex.ofText?_trim_eq_some_iff.2 ?_)
      refine ⟨[], [], Hex.chars v.serialize, [], ?_, nofun, .none, Hex.writesSpaced_chars _, nofun⟩
      rw [Hex.encode, String.toList_ofList, List.append_nil]
      rfl
  · obtain ⟨v, hkind, -, houtcome⟩ | ⟨-, hrefused⟩ := ends_ofHex kind text hstrict
    · exact .inl ⟨v, hkind, houtcome⟩
    · exact .inr hrefused

/-- A key in upper-case digits behind a marker and a tab, with blanks around it all, one of which
    could stand nowhere else. -/
theorem ofHex_iff_displays_wrapped :
    let key : PublicKey := ⟨0, List.replicate 33 0xab, by decide, rfl⟩
    let text := String.ofList ([' ', '\x1c'] ++
      (['0', 'X'] ++ '\t' :: (Hex.chars key.serialize).map Char.toUpper) ++ ['\n'])
    (Kind.credential .publicKey).IsStrictIn Session.start ∧
      (Operation.credentialOfHex .publicKey text).outcome Session.start =
        .ok (.datum (.publicKey key)) := by
  intro key text
  have hstrict : (Kind.credential .publicKey).IsStrictIn Session.start := fun _ _ => rfl
  have hbody : Hex.WritesSpaced ('\t' :: (Hex.chars key.serialize).map Char.toUpper)
      key.serialize :=
    .gap (by decide) (Hex.writesSpaced_map_chars _ (fun value hlt => ⟨hlt, .inr rfl⟩) _)
  have hdisplays : Hex.Displays text.toList key.serialize := by
    have hfront : ∀ c ∈ [' ', '\x1c'], Text.isBlank c = true :=
      List.forall_mem_cons.2 ⟨by decide, List.forall_mem_singleton.2 (by decide)⟩
    rw [String.toList_ofList]
    exact ⟨_, _, _, _, rfl, hfront, .upper, hbody, List.forall_mem_singleton.2 (by decide)⟩
  have hread := (ofHex_iff_displays (.credential .publicKey) hstrict).1 (credential key) rfl
  exact ⟨hstrict, ((hread.1 text).2).2 hdisplays⟩

end CryptoIntrinsics.Field
