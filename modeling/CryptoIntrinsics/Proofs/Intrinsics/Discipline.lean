import CryptoIntrinsics.Proofs.Intrinsics.Reply
import Mathlib.Logic.Basic

namespace CryptoIntrinsics.Intrinsic

open Procedure Session

/-- A row of bytes and a length, as they cross the boundary, of which the first bytes up to the
    length are those of a message. -/
def Marks (view length : Datum) (bytes : Octets) : Prop :=
  ∃ contiguous content, view = .buffer (.byteRow .memory contiguous content) ∧
    bytes <+: content ∧ length.integer? = some (bytes.length : Int)

/-- What the arguments of a call are for an operation with arguments of its own. -/
inductive Conveys : Intrinsic → List Datum → Prop where
  | digest {algorithm data view length bytes} (hdata : data.IsMessage bytes)
      (hview : Marks view length bytes) : Conveys (digest algorithm data) [view, length]
  | assertDigest {algorithm data expected view length bytes wanted} (hdata : data.IsMessage bytes)
      (hview : Marks view length bytes) (hexpected : expected.IsDigest algorithm.kind wanted) :
      Conveys (assertDigest algorithm data expected) [view, length, .octets wanted]
  | recoverKey {hash d} (s : Signature) (hhash : hash.IsDigest .bits256 d) :
      Conveys (recoverKey hash (.signature s)) [.octets d, .octets s.serialize]
  | assertRecoverKey {hash d} (s : Signature) (k : PublicKey) (hhash : hash.IsDigest .bits256 d) :
      Conveys (assertRecoverKey hash (.signature s) (.publicKey k))
        [.octets d, .octets s.serialize, .octets k.serialize]
  | verifyRsa {data sig exponent modulus view length bytes s e n} (hdata : data.IsMessage bytes)
      (hview : Marks view length bytes) (hsig : sig.IsHexText s) (hexponent : exponent.IsHexText e)
      (hmodulus : modulus.IsHexText n) :
      Conveys (verifyRsa data sig exponent modulus)
        [view, length, .octets s, .integer s.length, .octets e, .integer e.length,
          .octets n, .integer n.length]
  | verifyRsaRaw {data count sig exponent modulus view length bytes s e n}
      (hdata : data.IsFront count bytes) (hview : Marks view length bytes)
      (hsig : sig.IsHexText s) (hexponent : exponent.IsHexText e)
      (hmodulus : modulus.IsHexText n) :
      Conveys (verifyRsaRaw data count sig exponent modulus)
        [view, length, .octets s, .integer s.length, .octets e, .integer e.length,
          .octets n, .integer n.length]

/-- The host receives one call that conveys the arguments, and is active afterwards. -/
def CallsOnce (i : Intrinsic) (session : Session) : Prop :=
  ∃ arguments, i.Conveys arguments ∧
    (i.operation.run.runOn session).2.journal =
      (session.host.serial, ⟨i.method.name, arguments⟩) :: session.journal ∧
    (i.operation.run.runOn session).2.active = some session.host

theorem marks_crossing (m : Message) : Marks (.buffer m.window) (.measure m) m.payload := by
  refine ⟨m.contiguous, m.content, rfl, List.take_prefix _ _, ?_⟩
  rw [m.length_payload]
  exact Datum.integer?_measure m

/-- The bytes that count in a row that crossed once are those that count when it crosses again. -/
theorem eq_payload_of_isFront {m : Message} {bytes : Octets}
    (hfront : (Datum.buffer m.window).IsFront (.measure m) bytes) : bytes = m.payload := by
  cases hfront with
  | intro b hsolid hlength hle =>
    rw [Datum.integer?_measure] at hlength
    obtain rfl := Int.ofNat.inj (Option.some.inj hlength)
    rfl

theorem checks_rsaRequest (message : Message) (sig exponent modulus : Datum) :
    Checks (fun arguments => ∃ s e n, sig.IsHexText s ∧ exponent.IsHexText e ∧
        modulus.IsHexText n ∧ arguments = crossing message ++ spelled s ++ spelled e ++ spelled n)
      (rsaRequest message sig exponent modulus) := by
  apply (Intrinsics.checks_hexText "signature" sig).bind
  intro s hsig
  apply (Intrinsics.checks_hexText "exponent" exponent).bind
  intro e hexponent
  apply (Intrinsics.checks_hexText "modulus" modulus).bind
  intro n hmodulus
  exact ⟨s, e, n, hsig, hexponent, hmodulus, rfl⟩

/-- The request of an operation conveys its arguments, unless these are rejected. -/
theorem checks_request (i : Intrinsic) : Checks i.Conveys i.request := by
  cases i with
  | digest algorithm data =>
    apply (Message.checks_ofDatum data).map
    intro message hdata
    exact .digest hdata (marks_crossing message)
  | assertDigest algorithm data expected =>
    apply (Checksum.checks_ofArgument algorithm.kind "expected" expected).bind
    intro wanted hexpected
    apply (Message.checks_ofDatum data).bind
    intro message hdata
    exact .assertDigest hdata (marks_crossing message) hexpected
  | recoverKey hash sig =>
    apply (Checksum.checks_ofArgument .bits256 "digest" hash).bind
    intro d hhash
    apply (Credential.checks_signatureOf "sig" sig).bind
    rintro s rfl
    exact .recoverKey s hhash
  | assertRecoverKey hash sig expected =>
    apply (Checksum.checks_ofArgument .bits256 "digest" hash).bind
    intro d hhash
    apply (Credential.checks_publicKeyOf "expected_key" expected).bind
    rintro k rfl
    apply (Credential.checks_signatureOf "sig" sig).bind
    rintro s rfl
    exact .assertRecoverKey s k hhash
  | verifyRsa data sig exponent modulus =>
    apply (Message.checks_ofDatum data).bind
    intro message hdata
    -- The row of the message is taken as a raw buffer again, which refuses one with gaps.
    apply (Message.checks_ofRaw (.buffer message.window) (.measure message)).bind
    intro again hagain
    apply (checks_rsaRequest again sig exponent modulus).imp
    rintro _ ⟨s, e, n, hsig, hexponent, hmodulus, rfl⟩
    rw [← eq_payload_of_isFront hagain] at hdata
    exact .verifyRsa hdata (marks_crossing again) hsig hexponent hmodulus
  | verifyRsaRaw data count sig exponent modulus =>
    apply (Message.checks_ofRaw data count).bind
    intro message hdata
    apply (checks_rsaRequest message sig exponent modulus).imp
    rintro _ ⟨s, e, n, hsig, hexponent, hmodulus, rfl⟩
    exact .verifyRsaRaw hdata (marks_crossing message) hsig hexponent hmodulus

theorem callsOnce_of_ok {i : Intrinsic} {arguments : List Datum}
    (hrequest : i.request = .ok arguments) {session : Session} (hready : session.Ready) :
    i.CallsOnce session := by
  have hconveys := i.checks_request
  rw [hrequest] at hconveys
  have hrecalls := i.recalls_conclude (session.returned i.method arguments)
    (session.called i.method arguments)
  refine ⟨arguments, hconveys, ?_, ?_⟩
  · rw [runOn_operation_of_ok hrequest hready, hrecalls.journal_eq, journal_called]
  · rw [runOn_operation_of_ok hrequest hready, hrecalls.active_eq, active_called]

end CryptoIntrinsics.Intrinsic
