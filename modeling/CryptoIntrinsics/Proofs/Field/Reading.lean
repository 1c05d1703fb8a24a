import CryptoIntrinsics.Proofs.Checksum.Reading
import CryptoIntrinsics.Proofs.Credential.Reading
import CryptoIntrinsics.Proofs.Intrinsics.Reply

namespace CryptoIntrinsics

inductive Field.Kind where
  | credential (kind : Credential.Kind)
  | checksum (kind : Checksum.Kind)
deriving DecidableEq, Repr

inductive Field where
  | credential {kind : Credential.Kind} (value : Credential kind)
  | checksum {kind : Checksum.Kind} (value : Checksum kind)

namespace Field

open Procedure Session

def kind : Field → Kind
  | @credential kind _ => .credential kind
  | @checksum kind _ => .checksum kind

/-- The canonical encoding, with nothing in front or behind that tells where it ends. -/
def serialize : Field → Octets
  | credential value => value.serialize
  | checksum value => value.serialize

def readAt (source : Datum) (offset : Int) : Kind → Procedure (Field × Int)
  | .credential kind => do
    let (value, next) ← Decoding.credentialAt kind source (.integer offset)
    return (credential value, next)
  | .checksum kind => do
    let (value, next) ← demand (Checksum.readAt kind source (.integer offset))
    return (checksum value, next)

/-- Reads values of the given kinds, each at the offset behind the one before. -/
def readEach (source : Datum) : (offset : Int) → List Kind → Procedure (List Field × Int)
  | offset, [] => return ([], offset)
  | offset, kind :: rest => do
    let (field, next) ← readAt source offset kind
    let (fields, stop) ← readEach source next rest
    return (field :: fields, stop)

def serializeAll (fields : List Field) : Octets := fields.flatMap serialize

section Reading

variable {source : Datum} {before after : Octets}

theorem runOn_credentialAt {kind : Credential.Kind} (c : Credential kind)
    (hsource : source.lent = .ok (before ++ c.serialize ++ after)) (session : Session) :
    (Decoding.credentialAt kind source (.integer before.length)).runOn session =
      (.ok (c, ((before ++ c.serialize).length : Int)), session.remembering) := by
  have hread (strict : Bool) :
      Credential.unpackFrom kind strict (before ++ c.serialize ++ after) before.length =
        .ok (c, ((before ++ c.serialize).length : Int)) := by
    have hfits : kind.size ≤ (c.data ++ after).length := by
      rw [List.length_append, c.size_eq]
      exact Nat.le_add_right _ _
    have hdata : (c.data ++ after).take kind.size = c.data := List.take_left' c.size_eq
    have hstop : before.length + Varint.size c.tag + kind.size =
        (before ++ c.serialize).length := by
      rw [List.length_append, Credential.serialize, List.length_append, Varint.length_encode,
        c.size_eq, Nat.add_assoc]
    rw [List.append_assoc, Credential.serialize, List.append_assoc,
      Credential.unpackFrom_append kind strict before c.tag_le, dif_pos hfits]
    simp only [hdata, hstop, Credential.serialize]
  rw [Decoding.runOn_credentialAt, hsource]
  dsimp only
  rw [Decoding.credentialIn_integer, hread]
  rfl

theorem readAt_checksum {kind : Checksum.Kind} (c : Checksum kind)
    (hsource : source.lent = .ok (before ++ c.serialize ++ after)) :
    Checksum.readAt kind source (.integer before.length) =
      .ok (c, ((before ++ c.serialize).length : Int)) := by
  have hfits : kind.size ≤ (c.data ++ after).length := by
    rw [List.length_append, c.size_eq]
    exact Nat.le_add_right _ _
  have hdata : (c.data ++ after).take kind.size = c.data := List.take_left' c.size_eq
  have hread : Checksum.unpackFrom kind (before ++ c.serialize ++ after) before.length =
      .ok (c, ((before ++ c.serialize).length : Int)) := by
    rw [List.append_assoc, Checksum.serialize, Checksum.unpackFrom_append kind before,
      dif_pos hfits]
    simp only [hdata, List.length_append, c.size_eq]
  rw [Checksum.readAt, hsource]
  simp only [bind, Except.bind, Datum.integral?, Datum.integer?, hread]
  rfl

/-- A value is read up to its own end, whatever stands before and behind it. -/
theorem runOn_readAt (field : Field)
    (hsource : source.lent = .ok (before ++ field.serialize ++ after)) (session : Session) :
    ∃ later, session.Recalls later ∧
      (readAt source before.length field.kind).runOn session =
        (.ok (field, ((before ++ field.serialize).length : Int)), later) := by
  cases field with
  | credential value =>
    refine ⟨session.remembering, .inr rfl, ?_⟩
    rw [kind, readAt, runOn_bind, runOn_credentialAt value hsource]
    rfl
  | checksum value =>
    refine ⟨session, .inl rfl, ?_⟩
    rw [kind, readAt, runOn_demand_bind, readAt_checksum value hsource]
    rfl

end Reading

/-- Values written in a row, behind any bytes and in front of any bytes, are read in a row: each of
    them as it was written, and the last one up to where the bytes behind begin. No policy about
    padded integers changes this, and the session only comes to remember the policy. -/
theorem runOn_readEach (fields : List Field) (before after : Octets) {source : Datum}
    (hsource : source.lent = .ok (before ++ serializeAll fields ++ after)) (session : Session) :
    ∃ later, session.Recalls later ∧
      (readEach source before.length (fields.map kind)).runOn session =
        (.ok (fields, ((before ++ serializeAll fields).length : Int)), later) := by
  induction fields generalizing before session with
  | nil =>
    refine ⟨session, .inl rfl, ?_⟩
    rw [List.map_nil, readEach, runOn_pure, serializeAll, List.flatMap_nil, List.append_nil]
  | cons field rest ih =>
    have hrow : before ++ serializeAll (field :: rest) =
        before ++ field.serialize ++ serializeAll rest := by
      rw [serializeAll, List.flatMap_cons, ← serializeAll, List.append_assoc]
    rw [hrow] at hsource ⊢
    -- What was read counts as bytes before the rest, and the rest as bytes behind it.
    have hfirst := hsource
    rw [List.append_assoc _ (serializeAll rest)] at hfirst
    obtain ⟨next, hnext, hread⟩ := runOn_readAt field hfirst session
    obtain ⟨later, hlater, hrest⟩ := ih (before ++ field.serialize) hsource next
    refine ⟨later, hnext.trans hlater, ?_⟩
    rw [List.map_cons, readEach, runOn_bind, hread]
    dsimp only
    rw [runOn_bind, hrest]
    rfl

/-- A key of an unknown curve, a digest value and a signature, with other bytes around them, where
    padded integers are not refused. -/
theorem runOn_readEach_mixed :
    let fields : List Field :=
      [.credential (⟨Varint.maxTag, List.replicate 33 2, Nat.le_refl _, rfl⟩ : PublicKey),
        .checksum (.zero .bits160),
        .credential (⟨1, List.replicate 65 7, by decide, rfl⟩ : Signature)]
    let source : Datum := .buffer
      (.byteRow .memory true ([0x80, 0] ++ serializeAll fields ++ [0x80]))
    let session : Session := { Session.start with policy := some ⟨false, 1024, false⟩ }
    source.lent = .ok ([0x80, 0] ++ serializeAll fields ++ [0x80]) ∧
      ∃ later, session.Recalls later ∧
        (readEach source 2 (fields.map kind)).runOn session =
          (.ok (fields, 2 + 38 + 20 + 66), later) := by
  intro fields source session
  have hsource : source.lent = .ok ([0x80, 0] ++ serializeAll fields ++ [0x80]) := rfl
  have hstop : ([0x80, 0] ++ serializeAll fields).length = 2 + 38 + 20 + 66 := by
    simp [fields, serializeAll, serialize, Credential.serialize, Checksum.serialize, Checksum.zero,
      Checksum.Kind.size, Varint.size_maxTag, show Varint.size 1 = 1 by decide]
  have hread := runOn_readEach fields [0x80, 0] [0x80] hsource session
  rw [hstop] at hread
  exact ⟨hsource, hread⟩

end Field

end CryptoIntrinsics
