import CryptoIntrinsics.Session.Intrinsics

namespace CryptoIntrinsics

/-- A failure by which arguments are rejected. That a text has no encoding is a kind of
    `ValueError`. -/
def Failure.IsRejection (failure : Failure) : Prop :=
  failure.className ∈ ["TypeError", "ValueError", "UnicodeEncodeError", "DecodeError"]

/-- A check of arguments: what it answers has a property, and otherwise it rejects them. -/
def Checks {α : Type} (property : α → Prop) : Except Failure α → Prop
  | .ok value => property value
  | .error failure => failure.IsRejection

namespace Failure

theorem isRejection_misuse (misuse : Misuse) : (Failure.misuse misuse).IsRejection := by
  rw [IsRejection, className]
  split <;> decide

theorem isRejection_refusal (d : Datum) (misuse : Misuse) : (d.refusal misuse).IsRejection := by
  unfold Datum.refusal
  split
  · simp [IsRejection, className, Stray.name]
  · exact isRejection_misuse misuse

theorem isRejection_decode {f : Fault} (hfamily : f.family = .decode) :
    (Failure.fault f).IsRejection := by
  rw [IsRejection, className, hfamily]
  decide

end Failure

namespace Checks

variable {α β : Type} {property : α → Prop}

theorem misuse (m : Misuse) : Checks property (.error (.misuse m)) := Failure.isRejection_misuse m

theorem refusal (d : Datum) (m : Misuse) : Checks property (.error (d.refusal m)) :=
  Failure.isRejection_refusal d m

theorem unencodable : Checks property (.error (.stray .unencodable "*")) := by
  simp [Checks, Failure.IsRejection, Failure.className, Stray.name]

theorem imp {goal : α → Prop} {result : Except Failure α} (hresult : Checks property result)
    (himp : ∀ value, property value → goal value) : Checks goal result := by
  cases result with
  | error failure => exact hresult
  | ok value => exact himp value hresult

theorem of_eq_ok {result : Except Failure α} (hresult : Checks property result) {value : α}
    (hok : result = .ok value) : property value := by
  rw [hok] at hresult
  exact hresult

/-- Checks one after the other reject as the first of them does that rejects. -/
theorem bind {goal : β → Prop} {first : Except Failure α} {next : α → Except Failure β}
    (hfirst : Checks property first) (hnext : ∀ value, property value → Checks goal (next value)) :
    Checks goal (first >>= next) := by
  cases first with
  | error failure => exact hfirst
  | ok value => exact hnext value hfirst

theorem exists_of_bind_eq_ok {first : Except Failure α} {next : α → Except Failure β} {value : β}
    (hok : first >>= next = .ok value) : ∃ made, first = .ok made ∧ next made = .ok value := by
  cases first with
  | error failure => cases hok
  | ok made => exact ⟨made, rfl, hok⟩

theorem exists_of_map_eq_ok {first : Except Failure α} {next : α → β} {value : β}
    (hok : first.map next = .ok value) : ∃ made, first = .ok made ∧ next made = value := by
  cases first with
  | error failure => cases hok
  | ok made => exact ⟨made, rfl, Except.ok.inj hok⟩

theorem map {goal : β → Prop} {first : Except Failure α} {next : α → β}
    (hfirst : Checks property first) (hnext : ∀ value, property value → goal (next value)) :
    Checks goal (first.map next) := by
  cases first with
  | error failure => exact hfirst
  | ok value => exact hnext value hfirst

end Checks

namespace Datum

/-- The bytes that a value stands for as a message: the UTF-8 bytes of a text, all bytes of a buffer
    without gaps, or the bytes of a message that count. -/
inductive IsMessage : Datum → Octets → Prop where
  | text (s : String) : IsMessage (.text s) (Octets.ofText s)
  | buffer (b : Buffer) (hsolid : b.contiguous = true) : IsMessage (.buffer b) b.flat
  | message (m : Message) : IsMessage (.message m) m.payload

/-- The bytes that a buffer without gaps and a number of them stand for as a message. -/
inductive IsFront : Datum → Datum → Octets → Prop where
  | intro (b : Buffer) (hsolid : b.contiguous = true) {length : Datum} {count : Nat}
      (hlength : length.integer? = some (count : Int)) (hle : count ≤ b.flat.length) :
      IsFront (.buffer b) length (b.flat.take count)

/-- The bytes that a value stands for as a digest value of a kind: those of a digest value of this
    very kind, or a byte string of its width. -/
inductive IsDigest (kind : Checksum.Kind) : Datum → Octets → Prop where
  | checksum (c : Checksum kind) : IsDigest kind (.checksum kind c) c.data
  | buffer (b : Buffer) (hwidth : b.flat.length = kind.size) : IsDigest kind (.buffer b) b.flat

/-- The bytes of a hexadecimal text, whatever they say. -/
inductive IsHexText : Datum → Octets → Prop where
  | text (s : String) : IsHexText (.text s) (Octets.ofText s)
  | buffer (b : Buffer) : IsHexText (.buffer b) b.flat

theorem bytesLike?_buffer (b : Buffer) :
    (buffer b).bytesLike? = none ∨ (buffer b).bytesLike? = some b.flat := by
  rw [bytesLike?]
  split
  · exact .inr rfl
  · exact .inr rfl
  · exact .inr rfl
  · exact .inl rfl

theorem integer?_measure (m : Message) : (measure m).integer? = some (m.length : Int) := by
  have hcounts := integral?_measure m
  rw [measure] at hcounts ⊢
  split at hcounts <;> exact hcounts

end Datum

namespace Message

theorem checks_flatten (source : Datum) :
    Checks (fun bytes => ∃ b, source = .buffer b ∧ b.contiguous = true ∧ bytes = b.flat)
      (flatten source) := by
  cases source with
  | buffer b =>
    rw [flatten, Buffer.gather?]
    split
    · next hgather =>
      split at hgather
      · cases hgather
        exact ⟨b, rfl, by assumption, rfl⟩
      · cases hgather
    · exact Checks.misuse _
  | _ => exact Checks.refusal _ _

theorem checks_front (origin : Origin) (content : Octets) (contiguous : Bool) (length : Int)
    (curve : Option Curve) (hcurve : ∀ c ∈ curve, c.toInt = length) :
    Checks (fun m => m.content = content ∧ (m.length : Int) = length)
      (front origin content contiguous length curve hcurve) := by
  rw [front]
  split
  · exact Checks.misuse _
  · split
    · exact ⟨rfl, by simp only; omega⟩
    · exact Checks.misuse _

theorem checks_cut (origin : Origin) (content : Octets) (contiguous : Bool) (length : Datum) :
    Checks (fun m => m.content = content ∧ length.integer? = some (m.length : Int))
      (cut origin content contiguous length) := by
  cases length with
  | integer n =>
    apply (checks_front origin content contiguous n none (by simp)).imp
    rintro m ⟨hcontent, hlength⟩
    exact ⟨hcontent, congrArg some hlength.symm⟩
  | curve c =>
    apply (checks_front origin content contiguous c.toInt (some c) (by simp)).imp
    rintro m ⟨hcontent, hlength⟩
    exact ⟨hcontent, congrArg some hlength.symm⟩
  | _ => exact Checks.misuse _

theorem checks_ofBuffer (source : Datum) :
    Checks (fun m => source.IsMessage m.payload) (ofBuffer source) := by
  rw [ofBuffer]
  apply (checks_flatten source).map
  rintro bytes ⟨b, rfl, hsolid, rfl⟩
  rw [payload_whole]
  exact .buffer b hsolid

/-- A value is taken as a message for the bytes it stands for, or else rejected. -/
theorem checks_ofDatum (source : Datum) :
    Checks (fun m => source.IsMessage m.payload) (ofDatum source) := by
  cases source with
  | message m => exact .message m
  | text s =>
    change Datum.IsMessage (.text s) (whole .text (Octets.ofText s)).payload
    rw [payload_whole]
    exact .text s
  | garbled g => exact Checks.unencodable
  | _ => exact checks_ofBuffer _

theorem checks_ofRaw (source length : Datum) :
    Checks (fun m => source.IsFront length m.payload) (ofRaw source length) := by
  rw [ofRaw]
  apply (checks_flatten source).bind
  rintro bytes ⟨b, rfl, hsolid, rfl⟩
  apply (checks_cut .raw b.flat true length).imp
  intro m hcut
  obtain ⟨hcontent, hlength⟩ := hcut
  rw [payload, hcontent]
  exact .intro b hsolid hlength (hcontent ▸ m.length_le)

end Message

theorem Checksum.checks_ofOctets (kind : Checksum.Kind) (bytes : Octets) :
    Checks (fun c => bytes = c.data) (settle (ofOctets kind bytes)) := by
  rw [ofOctets]
  split
  · rfl
  · exact Failure.isRejection_decode rfl

theorem Checksum.checks_ofArgument (kind : Checksum.Kind) (argument : String) (d : Datum) :
    Checks (fun c => d.IsDigest kind c.data) (ofArgument kind argument d) := by
  cases d with
  | checksum k c =>
    rw [ofArgument]
    split
    · next hkind =>
      subst hkind
      exact .checksum c
    · exact Checks.misuse _
  | buffer b =>
    obtain hlike | hlike := Datum.bytesLike?_buffer b
    · simp only [ofArgument, hlike]
      exact Checks.refusal _ _
    · simp only [ofArgument, hlike]
      apply (checks_ofOctets kind b.flat).imp
      intro c hdata
      rw [← hdata]
      exact .buffer b (hdata ▸ c.size_eq)
  | _ => exact Checks.refusal _ _

theorem Credential.checks_signatureOf (argument : String) (d : Datum) :
    Checks (fun s => d = .signature s) (signatureOf argument d) := by
  cases d with
  | signature s => rfl
  | _ => exact Checks.misuse _

theorem Credential.checks_publicKeyOf (argument : String) (d : Datum) :
    Checks (fun k => d = .publicKey k) (publicKeyOf argument d) := by
  cases d with
  | publicKey k => rfl
  | _ => exact Checks.misuse _

theorem Intrinsics.checks_hexText (argument : String) (d : Datum) :
    Checks (fun bytes => d.IsHexText bytes) (hexText argument d) := by
  cases d with
  | text s => exact .text s
  | garbled g => exact Checks.unencodable
  | buffer b =>
    obtain hlike | hlike := Datum.bytesLike?_buffer b
    · simp only [hexText, hlike]
      exact Checks.refusal _ _
    · simp only [hexText, hlike]
      exact .buffer b
  | _ => exact Checks.refusal _ _

end CryptoIntrinsics
