import CryptoIntrinsics.Proofs.Intrinsics.Shape
import CryptoIntrinsics.Proofs.Intrinsics.Verification

namespace CryptoIntrinsics

/-- Two buffers begin with the same bytes, so many at least, and both have gaps or neither has. -/
structure Buffer.AgreesUpTo (count : Nat) (one other : Buffer) : Prop where
  contiguous : one.contiguous = other.contiguous
  length_le : count ≤ one.flat.length
  length_le_other : count ≤ other.flat.length
  take_eq : one.flat.take count = other.flat.take count

/-- What can be asked about the first bytes of a buffer: their digest, or the verdict on a signature
    over them, of a view of these bytes or of the buffer and the length as they are. -/
inductive Inquiry where
  | digest (query : DigestQuery) (algorithm : Digest.Algorithm)
  | verdict (sig exponent modulus : Datum)
  | rawVerdict (sig exponent modulus : Datum)

namespace Inquiry

open Intrinsic Session

/-- Asks about a view of the first bytes of a buffer, if there is one. -/
def onView (b : Buffer) (length : Datum) (ask : Datum → Intrinsic) : Step :=
  match Operation.messageOf (.raw (.buffer b) length) with
  | .ok m => .perform (ask (.message m)).operation
  | .error failure => .unmade failure

/-- The step that asks it about the first bytes of a buffer. -/
def step (q : Inquiry) (b : Buffer) (length : Datum) : Step :=
  match q with
  | digest query algorithm => onView b length (query.about algorithm)
  | verdict sig exponent modulus =>
    onView b length fun view => .verifyRsa view sig exponent modulus
  | rawVerdict sig exponent modulus =>
    .perform (Intrinsic.verifyRsaRaw (.buffer b) length sig exponent modulus).operation

def outcome (q : Inquiry) (b : Buffer) (length : Datum) (session : Session) :
    Except Failure Answer :=
  ((q.step b length).run.runOn session).1

variable {b one other : Buffer} {length : Datum} {m n : Message} {count : Nat}
  {s : Native.Settings} {session : Session}

theorem outcome_onView (hview : Message.ofRaw (.buffer b) length = .ok m)
    (ask : Datum → Intrinsic) (session : Session) :
    ((onView b length ask).run.runOn session).1 = (ask (.message m)).outcome session := by
  have hform : Operation.messageOf (.raw (.buffer b) length) = .ok m := hview
  rw [onView, hform, Step.run, Intrinsic.outcome]

theorem outcome_onView_of_error {failure : Failure}
    (hview : Message.ofRaw (.buffer b) length = .error failure) (ask : Datum → Intrinsic)
    (session : Session) : ((onView b length ask).run.runOn session).1 = .error failure := by
  have hform : Operation.messageOf (.raw (.buffer b) length) = .error failure := hview
  rw [onView, hform, Step.run]
  rfl

/-- Verdicts on messages with the same bytes are the same, however they are asked for. -/
theorem outcome_verdict_eq {i j : Intrinsic} {sig exponent modulus : Datum}
    (hone : i.asksVerdict = true) (hother : j.asksVerdict = true)
    (hrequest : i.request = (hexTexts sig exponent modulus).map (crossing m ++ ·))
    (hlikewise : j.request = (hexTexts sig exponent modulus).map (crossing n ++ ·))
    (hpayload : m.payload = n.payload) (hnative : session.IsNative s) :
    i.outcome session = j.outcome session := by
  cases hrest : hexTexts sig exponent modulus with
  | error failure =>
    rw [hrest] at hrequest hlikewise
    rw [outcome_of_error hrequest, outcome_of_error hlikewise]
  | ok rest =>
    rw [hrest] at hrequest hlikewise
    apply outcome_eq_of_answer_eq hone hother hrequest hlikewise hnative.ready
    rw [answer, answer, hnative.goesByPayload m n hpayload rest]

theorem request_rawVerdict (hview : Message.ofRaw (.buffer b) length = .ok m)
    (sig exponent modulus : Datum) :
    (verifyRsaRaw (.buffer b) length sig exponent modulus).request =
      (hexTexts sig exponent modulus).map (crossing m ++ ·) := by
  rw [request, hview]
  exact rsaRequest_eq m sig exponent modulus

/-- A buffer with gaps is refused, whatever is asked about it. -/
theorem outcome_of_gaps (q : Inquiry) (hgaps : b.contiguous = false) (length : Datum)
    (session : Session) : q.outcome b length session = .error (.misuse .notContiguous) := by
  have hlender : (MessageForm.raw (.buffer b) length).lender? = some b := rfl
  have hview : Message.ofRaw (.buffer b) length = .error (.misuse .notContiguous) :=
    MessageForm.messageOf_of_gaps hlender hgaps
  cases q with
  | digest query algorithm =>
    rw [outcome, step]
    exact outcome_onView_of_error hview _ session
  | verdict sig exponent modulus =>
    rw [outcome, step]
    exact outcome_onView_of_error hview _ session
  | rawVerdict sig exponent modulus =>
    have hrequest : (verifyRsaRaw (.buffer b) length sig exponent modulus).request =
        .error (.misuse .notContiguous) := by
      rw [request, hview]
      rfl
    rw [outcome, step, Step.run]
    exact outcome_of_error hrequest

/-- A native host makes the same of all buffers without gaps that begin with the same bytes. -/
theorem outcome_eq_of_solid (q : Inquiry) (hagree : one.AgreesUpTo count other)
    (hsolid : one.contiguous = true) (hlength : length.integer? = some (count : Int))
    (hnative : session.IsNative s) :
    q.outcome one length session = q.outcome other length session := by
  obtain ⟨m, hone, hgapless, hpayload, hmeasure⟩ :=
    Message.exists_ofRaw hsolid hlength hagree.length_le
  obtain ⟨n, hother, hgaplessOther, hpayloadOther, hmeasureOther⟩ :=
    Message.exists_ofRaw (hagree.contiguous ▸ hsolid) hlength hagree.length_le_other
  have hsame : m.payload = n.payload := by rw [hpayload, hpayloadOther, hagree.take_eq]
  cases q with
  | digest query algorithm =>
    have hm : Message.ofDatum (.message m) = .ok m := rfl
    have hn : Message.ofDatum (.message n) = .ok n := rfl
    rw [outcome, outcome, step, step, outcome_onView hone, outcome_onView hother]
    obtain heq | ⟨hbeyond, hbeyondOther⟩ :=
      query.outcome_same_or_oversize algorithm hm hn hsame hnative
    · exact heq
    · rw [hbeyond, hbeyondOther, hmeasure, hmeasureOther]
  | verdict sig exponent modulus =>
    rw [outcome, outcome, step, step, outcome_onView hone, outcome_onView hother]
    exact outcome_verdict_eq rfl rfl (request_verifyRsa rfl hgapless sig exponent modulus)
      (request_verifyRsa rfl hgaplessOther sig exponent modulus) hsame hnative
  | rawVerdict sig exponent modulus =>
    rw [outcome, outcome, step, step, Step.run, Step.run]
    exact outcome_verdict_eq rfl rfl (request_rawVerdict hone sig exponent modulus)
      (request_rawVerdict hother sig exponent modulus) hsame hnative

/-- On every native host, whatever its settings, all that is asked about the first bytes of a
    buffer comes to the same for every buffer that begins with these bytes, be it an answer or an
    error. A buffer with gaps is refused whatever its bytes are. -/
theorem independent_of_tail (q : Inquiry) (hagree : one.AgreesUpTo count other)
    (hlength : length.integer? = some (count : Int)) (hnative : session.IsNative s) :
    q.outcome one length session = q.outcome other length session ∧
      (one.contiguous = false →
        q.outcome one length session = .error (.misuse .notContiguous)) := by
  refine ⟨?_, fun hgaps => q.outcome_of_gaps hgaps length session⟩
  cases hsolid : one.contiguous with
  | true => exact q.outcome_eq_of_solid hagree hsolid hlength hnative
  | false =>
    have hgaps : other.contiguous = false := hagree.contiguous ▸ hsolid
    rw [q.outcome_of_gaps hsolid, q.outcome_of_gaps hgaps]

/-- Two bytes are too many for a host with a cap of one, with or without a third one behind them;
    the first of them alone is not. -/
theorem independent_of_tail_capped :
    let s := Native.Settings.ofCap true 1
    let session : Session := { Session.start with active := some (Native.host none s) }
    let one : Buffer := .ofOctets [0x61, 0x62]
    let other : Buffer := .ofOctets [0x61, 0x62, 0x63]
    session.IsNative s ∧ one.AgreesUpTo 2 other ∧ one.AgreesUpTo 1 other ∧
      (digest .value .sha256).outcome one (.integer 2) session =
        (digest .value .sha256).outcome other (.integer 2) session ∧
      (digest .value .sha256).outcome one (.integer 1) session =
        (digest .value .sha256).outcome other (.integer 1) session := by
  intro s session one other
  have hnative : session.IsNative s := ⟨0, none, rfl⟩
  have htwo : one.AgreesUpTo 2 other := ⟨rfl, by decide, by decide, rfl⟩
  have hfirst : one.AgreesUpTo 1 other := ⟨rfl, by decide, by decide, rfl⟩
  exact ⟨hnative, htwo, hfirst, (independent_of_tail _ htwo rfl hnative).1,
    (independent_of_tail _ hfirst rfl hnative).1⟩

end Inquiry

end CryptoIntrinsics
