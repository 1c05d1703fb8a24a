import CryptoIntrinsics.Proofs.Intrinsics.Outcome
import CryptoIntrinsics.Proofs.Native.Payload

namespace CryptoIntrinsics

/-- A message without gaps, taken as a raw buffer again, is the same row. -/
theorem Message.ofRaw_window {m : Message} (hsolid : m.contiguous = true) :
    ofRaw (.buffer m.window) (.measure m) = .ok { m with origin := .raw } := by
  have hflatten : flatten (.buffer m.window) = .ok m.content := flatten_of_solid hsolid
  rw [ofRaw, hflatten, ← hsolid]
  exact m.cut_measure .raw m.contiguous

theorem Message.ofRaw_window_of_gaps {m : Message} (hgaps : m.contiguous = false) :
    ofRaw (.buffer m.window) (.measure m) = .error (.misuse .notContiguous) := by
  have hflatten : flatten (.buffer m.window) = .error (.misuse .notContiguous) :=
    flatten_of_gaps hgaps
  rw [ofRaw, hflatten]
  rfl

theorem Message.ofRaw_octets (bytes : Octets) :
    ofRaw (.octets bytes) (.integer bytes.length) = .ok (whole .raw bytes) :=
  (whole .raw bytes).cut_measure .raw true

namespace Intrinsic

open Procedure Session

/-- The arguments of the call behind the message: three hexadecimal texts with their lengths. -/
def hexTexts (sig exponent modulus : Datum) : Except Failure (List Datum) := do
  let s ← Intrinsics.hexText "signature" sig
  let e ← Intrinsics.hexText "exponent" exponent
  let n ← Intrinsics.hexText "modulus" modulus
  return spelled s ++ spelled e ++ spelled n

theorem rsaRequest_eq (m : Message) (sig exponent modulus : Datum) :
    rsaRequest m sig exponent modulus =
      (hexTexts sig exponent modulus).map (crossing m ++ ·) := by
  rw [rsaRequest, hexTexts]
  cases Intrinsics.hexText "signature" sig with
  | error failure => rfl
  | ok s =>
    cases Intrinsics.hexText "exponent" exponent with
    | error failure => rfl
    | ok e => cases Intrinsics.hexText "modulus" modulus <;> rfl

section Verdict

variable {data : Datum} {m : Message} {session : Session}

theorem request_verifyRsa (hdata : Message.ofDatum data = .ok m) (hsolid : m.contiguous = true)
    (sig exponent modulus : Datum) :
    (verifyRsa data sig exponent modulus).request =
      (hexTexts sig exponent modulus).map (crossing m ++ ·) := by
  rw [request, hdata]
  change (Message.ofRaw (.buffer m.window) (.measure m) >>= _) = _
  rw [Message.ofRaw_window hsolid]
  exact rsaRequest_eq { m with origin := .raw } sig exponent modulus

theorem request_verifyRsa_of_gaps (hdata : Message.ofDatum data = .ok m)
    (hgaps : m.contiguous = false) (sig exponent modulus : Datum) :
    (verifyRsa data sig exponent modulus).request = .error (.misuse .notContiguous) := by
  rw [request, hdata]
  change (Message.ofRaw (.buffer m.window) (.measure m) >>= _) = _
  rw [Message.ofRaw_window_of_gaps hgaps]
  rfl

theorem request_verifyRsaRaw (bytes : Octets) (sig exponent modulus : Datum) :
    (verifyRsaRaw (.octets bytes) (.integer bytes.length) sig exponent modulus).request =
      (hexTexts sig exponent modulus).map (crossing (.whole .raw bytes) ++ ·) := by
  rw [request, Message.ofRaw_octets]
  exact rsaRequest_eq (.whole .raw bytes) sig exponent modulus

theorem method_of_asksVerdict {i : Intrinsic} (hasks : i.asksVerdict = true) :
    i.method = .verifyRsa := by
  cases i with
  | verifyRsa | verifyRsaRaw => rfl
  | _ => cases hasks

theorem runOn_conclude_verdict {i : Intrinsic} (hasks : i.asksVerdict = true)
    (outcome : Except Failure Datum) (session : Session) :
    (i.conclude outcome).runOn session =
      ((Intrinsics.verdictOf outcome).map fun verdict => .datum (.truth verdict), session) := by
  cases i with
  | verifyRsa data sig exponent modulus =>
    rw [conclude, runOn_demand_bind]
    cases Intrinsics.verdictOf outcome <;> rfl
  | verifyRsaRaw data length sig exponent modulus =>
    rw [conclude, runOn_demand_bind]
    cases Intrinsics.verdictOf outcome <;> rfl
  | _ => cases hasks

/-- Requests to which the host answers alike come to the same verdict. -/
theorem outcome_eq_of_answer_eq {i j : Intrinsic} (hone : i.asksVerdict = true)
    (hother : j.asksVerdict = true) {arguments others : List Datum}
    (hrequest : i.request = .ok arguments) (hlikewise : j.request = .ok others)
    (hready : session.Ready)
    (hanswer : session.answer .verifyRsa arguments = session.answer .verifyRsa others) :
    i.outcome session = j.outcome session := by
  rw [outcome_of_ok hrequest hready, outcome_of_ok hlikewise hready, method_of_asksVerdict hone,
    method_of_asksVerdict hother, runOn_conclude_verdict hone, runOn_conclude_verdict hother,
    returned, returned, hanswer]

/-- A message without gaps is asked about as its bytes are: with a text that is none, neither way
    calls the host, and otherwise both make the same call, which comes to the same verdict where the
    host goes by the bytes that count. A message with gaps is refused before anything else. -/
theorem verifyRsa_like_verifyRsaRaw (hdata : Message.ofDatum data = .ok m)
    (sig exponent modulus : Datum) (hready : session.Ready) :
    let direct := verifyRsa data sig exponent modulus
    let raw := verifyRsaRaw (.octets m.payload) (.integer m.payload.length) sig exponent modulus
    if m.contiguous then
      match hexTexts sig exponent modulus with
      | .error failure =>
        direct.operation.run.runOn session = (.error failure, session) ∧
          raw.operation.run.runOn session = (.error failure, session)
      | .ok rest =>
        direct.Sends session m.payload rest ∧ raw.Sends session m.payload rest ∧
          (session.host.GoesByPayload .verifyRsa → direct.outcome session = raw.outcome session)
    else direct.operation.run.runOn session = (.error (.misuse .notContiguous), session) := by
  intro direct raw
  cases hsolid : m.contiguous with
  | false =>
    rw [if_neg Bool.false_ne_true]
    exact runOn_operation_of_error (request_verifyRsa_of_gaps hdata hsolid sig exponent modulus) _
  | true =>
    rw [if_pos rfl]
    have hdirect : direct.request = _ := request_verifyRsa hdata hsolid sig exponent modulus
    have hraw : raw.request = _ := request_verifyRsaRaw m.payload sig exponent modulus
    have hpayload := Message.payload_whole .raw m.payload
    cases hrest : hexTexts sig exponent modulus with
    | error failure =>
      rw [hrest] at hdirect hraw
      exact ⟨runOn_operation_of_error hdirect session, runOn_operation_of_error hraw session⟩
    | ok rest =>
      rw [hrest] at hdirect hraw
      have hsends := sends_of_ok hraw hready
      rw [hpayload] at hsends
      refine ⟨sends_of_ok hdirect hready, hsends, fun hhost => ?_⟩
      apply outcome_eq_of_answer_eq rfl rfl hdirect hraw hready
      rw [answer, answer, hhost m (.whole .raw m.payload) hpayload.symm]

end Verdict

/-- On the host by default, a text is asked about as its bytes are. -/
theorem verifyRsa_like_verifyRsaRaw_text :
    let m := Message.whole .text (Octets.ofText "ac")
    Message.ofDatum (.text "ac") = .ok m ∧ Session.start.Ready ∧
      (verifyRsa (.text "ac") (.text "aa") (.text "03") (.text "bb")).outcome .start =
        (verifyRsaRaw (.octets m.payload) (.integer m.payload.length) (.text "aa") (.text "03")
          (.text "bb")).outcome .start := by
  intro m
  have hnative : Session.start.IsNative (.ofPolicy Session.start.policyInForce) :=
    isNative_of_none rfl
  have hdata : Message.ofDatum (.text "ac") = .ok m := rfl
  obtain ⟨-, -, hsame⟩ :=
    verifyRsa_like_verifyRsaRaw hdata (.text "aa") (.text "03") (.text "bb") hnative.ready
  exact ⟨hdata, hnative.ready, hsame hnative.goesByPayload⟩

/-- Every second of six bytes, of which the first two count, is taken for a message by the plain
    constructor, and its digest is asked for. A host that finds every signature good finds one over
    the two bytes good, but is not asked when the message stands for them. -/
theorem verifyRsa_ne_verifyRsaRaw_of_gaps :
    let view := (Buffer.byteRow .memory true [0x61, 0x62, 0x63, 0x64, 0x65, 0x66]).stride 2
    let gapped : Message :=
      ⟨[0x61, 0x63, 0x65], false, 2, .bytes, none, Nat.le_succ 2,
        fun c hcurve => absurd hcurve (Option.not_mem_none c)⟩
    let session : Session :=
      { Session.start with active := some (Host.scripted none fun _ => .ok (.truth true)) }
    let sig : Datum := .text "aa"
    let exponent : Datum := .text "03"
    let modulus : Datum := .text "bb"
    Operation.messageOf (.row (.buffer view) (.integer 2)) = .ok gapped ∧ session.Ready ∧
      (digest .sha256 (.message gapped)).Sends session gapped.payload [] ∧
      (verifyRsaRaw (.octets gapped.payload) (.integer gapped.payload.length) sig exponent
          modulus).outcome session = .ok (.datum (.truth true)) ∧
      (verifyRsa (.message gapped) sig exponent modulus).operation.run.runOn session =
        (.error (.misuse .notContiguous), session) := by
  intro view gapped session sig exponent modulus
  have hactive : session.active = some (Host.scripted none fun _ => .ok (.truth true)) := rfl
  have hready : session.Ready := Session.ready_of_scripted rfl
  refine ⟨rfl, hready, sends_of_ok rfl hready, ?_, ?_⟩
  · rw [outcome_of_ok (request_verifyRsaRaw gapped.payload sig exponent modulus) hready,
      returned_of_ok (answer_of_scripted hactive _ _)]
    rfl
  · exact runOn_operation_of_error (request_verifyRsa_of_gaps rfl rfl sig exponent modulus) session

end Intrinsic

end CryptoIntrinsics
