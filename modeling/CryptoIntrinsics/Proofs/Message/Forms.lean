import CryptoIntrinsics.Proofs.Buffer.Filled
import CryptoIntrinsics.Proofs.Intrinsics.Arguments
import CryptoIntrinsics.Session.Step

namespace CryptoIntrinsics

/-- A value that is no message whose length was given as a curve. -/
def Datum.HasPlainLength : Datum → Prop
  | .message m => m.lengthCurve = none
  | _ => True

namespace Message

/-- As it crosses the boundary, the message is a row without gaps that begins with these bytes, and
    as long as they are. -/
structure Shows (m : Message) (bytes : Octets) : Prop where
  isByteRow : m.window.isByteRow = true
  contiguous : m.window.contiguous = true
  length_le : m.length ≤ m.window.flat.length
  take_eq : m.window.flat.take m.length = bytes
  length_eq : m.length = bytes.length

theorem length_eq_of_payload_eq {one other : Message} (hpayload : one.payload = other.payload) :
    one.length = other.length := by
  rw [← one.length_payload, ← other.length_payload, hpayload]

theorem shows_payload {m : Message} (hsolid : m.contiguous = true) : m.Shows m.payload :=
  ⟨rfl, hsolid, m.length_le, rfl, m.length_payload.symm⟩

theorem shows_whole (origin : Origin) (content : Octets) : (whole origin content).Shows content := by
  have hshows : (whole origin content).Shows (whole origin content).payload := shows_payload rfl
  rwa [payload_whole] at hshows

theorem Shows.isMessage {m : Message} {bytes : Octets} (hshows : m.Shows bytes) :
    (Datum.message m).IsMessage bytes := by
  rw [← hshows.take_eq]
  exact .message m

theorem flatten_of_solid {b : Buffer} (hsolid : b.contiguous = true) :
    flatten (.buffer b) = .ok b.flat := by
  rw [flatten, Buffer.gather?, if_pos hsolid]

theorem flatten_of_gaps {b : Buffer} (hgaps : b.contiguous = false) :
    flatten (.buffer b) = .error (.misuse .notContiguous) := by
  rw [flatten, Buffer.gather?, hgaps]
  rfl

theorem ofBuffer_of_solid {b : Buffer} (hsolid : b.contiguous = true) :
    ofBuffer (.buffer b) = .ok (whole .bytes b.flat) := by
  rw [ofBuffer, flatten_of_solid hsolid]
  rfl

/-- The length that a message was given is one that its row can be cut to. -/
theorem cut_measure (m : Message) (origin : Origin) (contiguous : Bool) :
    cut origin m.content contiguous (Datum.measure m) =
      .ok { m with origin := origin, contiguous := contiguous } := by
  obtain ⟨content, gapless, length, source, curve, hle, hcurve⟩ := m
  cases curve with
  | none =>
    have hnat : ((length : Int)).toNat = length := Int.toNat_natCast length
    simp only [Datum.measure, cut, front]
    rw [dif_neg (by omega), dif_pos (by omega)]
    simp only [hnat]
  | some c =>
    have hlength : c.toInt = length := hcurve c rfl
    simp only [Datum.measure, cut, front]
    rw [dif_neg (by omega), dif_pos (by omega)]
    simp only [hlength, Int.toNat_natCast]

/-- Every number of bytes that a row has is the length of a message, as it is given. -/
theorem exists_measure (content : Octets) {length : Datum} {count : Nat}
    (hlength : length.integer? = some (count : Int)) (hle : count ≤ content.length) :
    ∃ m : Message, m.content = content ∧ m.length = count ∧ Datum.measure m = length := by
  cases length with
  | integer n =>
    obtain rfl := Option.some.inj hlength
    exact ⟨⟨content, true, count, .raw, none, hle, by simp⟩, rfl, rfl, rfl⟩
  | curve c =>
    have hcount : c.toInt = count := Option.some.inj hlength
    exact ⟨⟨content, true, count, .raw, some c, hle, by simpa using hcount⟩, rfl, rfl, rfl⟩
  | _ => cases hlength

/-- The first bytes of a buffer without gaps are the message of their number, which keeps how the
    number was given. -/
theorem exists_ofRaw {b : Buffer} (hsolid : b.contiguous = true) {length : Datum} {count : Nat}
    (hlength : length.integer? = some (count : Int)) (hle : count ≤ b.flat.length) :
    ∃ m, ofRaw (.buffer b) length = .ok m ∧ m.contiguous = true ∧
      m.payload = b.flat.take count ∧ Datum.measure m = length := by
  obtain ⟨m, hcontent, rfl, rfl⟩ := exists_measure b.flat hlength hle
  refine ⟨{ m with origin := .raw, contiguous := true }, ?_, rfl, ?_, rfl⟩
  · rw [ofRaw, flatten_of_solid hsolid, ← hcontent]
    exact m.cut_measure .raw true
  · rw [← hcontent]
    rfl

theorem ofRaw_of_solid {b : Buffer} (hsolid : b.contiguous = true) {length : Datum} {count : Nat}
    (hlength : length.integer? = some (count : Int)) (hle : count ≤ b.flat.length) :
    ∃ m, ofRaw (.buffer b) length = .ok m ∧ m.Shows (b.flat.take count) := by
  obtain ⟨m, hm, hgapless, hpayload, -⟩ := exists_ofRaw hsolid hlength hle
  rw [← hpayload]
  exact ⟨m, hm, shows_payload hgapless⟩

/-- What stands for bytes is taken as a message with just these bytes. -/
theorem ofDatum_of_isMessage {source : Datum} {bytes : Octets} (hsource : source.IsMessage bytes) :
    ∃ m, ofDatum source = .ok m ∧ m.payload = bytes ∧
      (source.HasPlainLength → m.lengthCurve = none) := by
  cases hsource with
  | text s => exact ⟨_, rfl, payload_whole _ _, fun _ => rfl⟩
  | buffer b hsolid => exact ⟨_, ofBuffer_of_solid hsolid, payload_whole _ _, fun _ => rfl⟩
  | message m => exact ⟨m, rfl, rfl, id⟩

end Message

namespace MessageForm

/-- The bytes of the text or of the buffer without gaps that a message is made of, where a length is
    given only the first so many. -/
inductive Presents : MessageForm → Octets → Prop where
  | anyText (s : String) : Presents (.any (.text s)) (Octets.ofText s)
  | anyBuffer (b : Buffer) (hsolid : b.contiguous = true) : Presents (.any (.buffer b)) b.flat
  | text (s : String) : Presents (.text (.text s)) (Octets.ofText s)
  | bytes (b : Buffer) (hsolid : b.contiguous = true) : Presents (.bytes (.buffer b)) b.flat
  | raw (b : Buffer) (hsolid : b.contiguous = true) {length : Datum} {count : Nat}
      (hlength : length.integer? = some (count : Int)) (hle : count ≤ b.flat.length) :
      Presents (.raw (.buffer b) length) (b.flat.take count)

def lender? : MessageForm → Option Buffer
  | .any (.buffer b) | .bytes (.buffer b) | .raw (.buffer b) _ => some b
  | _ => none

theorem exists_message {form : MessageForm} {bytes : Octets} (hform : form.Presents bytes) :
    ∃ m, Operation.messageOf form = .ok m ∧ m.Shows bytes := by
  cases hform with
  | anyText s => exact ⟨_, rfl, Message.shows_whole _ _⟩
  | anyBuffer b hsolid =>
    exact ⟨_, Message.ofBuffer_of_solid hsolid, Message.shows_whole _ _⟩
  | text s => exact ⟨_, rfl, Message.shows_whole _ _⟩
  | bytes b hsolid => exact ⟨_, Message.ofBuffer_of_solid hsolid, Message.shows_whole _ _⟩
  | raw b hsolid hlength hle => exact Message.ofRaw_of_solid hsolid hlength hle

def takesSource : MessageForm → Bool
  | .any (.message _) | .row _ _ | .elements _ _ | .array _ _ _ => false
  | .any _ | .text _ | .bytes _ | .raw _ _ => true

theorem presents_of_messageOf {form : MessageForm} (htakes : form.takesSource = true) {m : Message}
    (hform : Operation.messageOf form = .ok m) : form.Presents m.payload := by
  cases form with
  | any source =>
    have hsource := (Message.checks_ofDatum source).of_eq_ok hform
    generalize m.payload = bytes at hsource ⊢
    cases hsource with
    | text s => exact .anyText s
    | buffer b hsolid => exact .anyBuffer b hsolid
    | message made => cases htakes
  | text source =>
    cases source with
    | text s =>
      cases hform
      rw [Message.payload_whole]
      exact .text s
    | _ => cases hform
  | bytes source =>
    have hsource := (Message.checks_ofBuffer source).of_eq_ok hform
    generalize m.payload = bytes at hsource ⊢
    cases hsource with
    | buffer b hsolid => exact .bytes b hsolid
    | _ => cases hform
  | raw source length =>
    have hsource := (Message.checks_ofRaw source length).of_eq_ok hform
    generalize m.payload = bytes at hsource ⊢
    cases hsource with
    | intro b hsolid hlength hle => exact .raw b hsolid hlength hle
  | _ => cases htakes

theorem presents_iff {form : MessageForm} (htakes : form.takesSource = true) {bytes : Octets} :
    form.Presents bytes ↔ ∃ m, Operation.messageOf form = .ok m ∧ m.Shows bytes := by
  refine ⟨exists_message, ?_⟩
  rintro ⟨m, hm, hshows⟩
  rw [← hshows.take_eq]
  exact presents_of_messageOf htakes hm

theorem messageOf_of_gaps {form : MessageForm} {b : Buffer} (hlender : form.lender? = some b)
    (hgaps : b.contiguous = false) :
    Operation.messageOf form = .error (.misuse .notContiguous) := by
  have hflatten := Message.flatten_of_gaps hgaps
  rw [lender?.eq_def] at hlender
  split at hlender
  · cases hlender
    change Message.ofBuffer (.buffer b) = _
    rw [Message.ofBuffer, hflatten]
    rfl
  · cases hlender
    change Message.ofBuffer (.buffer b) = _
    rw [Message.ofBuffer, hflatten]
    rfl
  · next length =>
    cases hlender
    change Message.ofRaw (.buffer b) length = _
    rw [Message.ofRaw, hflatten]
    rfl
  · cases hlender

/-- A lent buffer is a row of all its bytes, which are as many as its elements have together. -/
theorem length_of_isLent {b : Buffer} (hlent : b.IsLent) (hsolid : b.contiguous = true)
    {form : MessageForm} (hform : form = .any (.buffer b) ∨ form = .bytes (.buffer b)) :
    ∃ m, Operation.messageOf form = .ok m ∧ m.length = b.itemSize * b.count := by
  refine ⟨.whole .bytes b.flat, ?_, hlent.isFilled⟩
  obtain rfl | rfl := hform
  · exact Message.ofBuffer_of_solid hsolid
  · exact Message.ofBuffer_of_solid hsolid

end MessageForm

end CryptoIntrinsics
