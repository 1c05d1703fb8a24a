import CryptoIntrinsics.Proofs.Hex.Pairs
import CryptoIntrinsics.Proofs.Intrinsics.Verification
import CryptoIntrinsics.Proofs.Rsa.Opening

namespace CryptoIntrinsics

/-- A text or a byte string, byte array or memory view, and the bytes that it is taken for as a
    hexadecimal text. -/
inductive Datum.Spells : Datum → Octets → Prop where
  | text (s : String) : Spells (.text s) (Octets.ofText s)
  | buffer (b : Buffer) (hexporter : b.exporter ∈ [.bytes, .byteArray, .memory]) :
      Spells (.buffer b) b.flat

/-- What is given for a hexadecimal text: one that spells bytes, a text without an encoding, or a
    memory view that was released. -/
inductive Datum.IsTextual : Datum → Prop where
  | spells {d : Datum} {bytes : Octets} (hspells : d.Spells bytes) : IsTextual d
  | garbled (s : Text.Garbled) : IsTextual (.garbled s)
  | released : IsTextual .released

/-- The kind of failure that a text comes to whose bytes cannot be had. -/
def Datum.spoilt? : Datum → Option Stray
  | garbled _ => some .unencodable
  | released => some .value
  | _ => none

theorem Intrinsics.hexText_of_spells (argument : String) {d : Datum} {bytes : Octets}
    (hspells : d.Spells bytes) : hexText argument d = .ok bytes := by
  cases hspells with
  | text s => rfl
  | buffer b hexporter =>
    have hlike : (Datum.buffer b).bytesLike? = some b.flat := by
      simp only [List.mem_cons, List.not_mem_nil, or_false] at hexporter
      obtain hexporter | hexporter | hexporter := hexporter
      all_goals rw [Datum.bytesLike?, hexporter]
    simp only [hexText, hlike]

theorem Intrinsics.hexText_of_spoilt (argument : String) {d : Datum} {kind : Stray}
    (hspoilt : d.spoilt? = some kind) : hexText argument d = .error (.stray kind "*") := by
  cases d with
  | garbled s =>
    cases hspoilt
    rfl
  | released =>
    cases hspoilt
    rfl
  | _ => cases hspoilt

theorem Datum.IsTextual.exists_spells {d : Datum} (htextual : d.IsTextual)
    (hsound : d.spoilt? = none) : ∃ bytes, d.Spells bytes := by
  cases htextual with
  | spells hspells => exact ⟨_, hspells⟩
  | garbled s => cases hsound
  | released => cases hsound

namespace Native

/-- The hexadecimal texts of a good signature over a message, of an exponent and of a modulus. -/
structure Verifies (message sig exponent modulus : Octets) : Prop where
  isProper_sig : Hex.IsProper sig
  isProper_exponent : Hex.IsProper exponent
  isProper_modulus : Hex.IsProper modulus
  head?_modulus : modulus.head? ≠ some 0x30
  opens : ∃ s e n, Hex.Writes sig s ∧ Hex.Writes exponent e ∧ Hex.Writes modulus n ∧
    Rsa.Opens s e.toNat n.toNat message

/-- What a check comes to that finds good just what meets a condition: a verdict, or a complaint
    about input of which none is good. -/
inductive Judges (condition : Prop) : Except Failure Bool → Prop where
  | told {verdict : Bool} (hverdict : verdict = true ↔ condition) : Judges condition (.ok verdict)
  | refused {f : Fault} (hfamily : f.family = .invalidInput) (hnot : ¬ condition) :
      Judges condition (.error (.fault f))

theorem hexOctets_octets (subject : String) (text : Octets) :
    hexOctets subject (.octets text) (.integer text.length) =
      if text.isEmpty then .error (.fault (.of .invalidInput s!"{subject} is empty" []))
      else
        match Hex.decode text with
        | .ok bytes => .ok bytes
        | .error _ => .error (.fault (.of .invalidInput s!"{subject} is not valid hex" [])) := by
  rw [hexOctets, take_octets]
  rfl

theorem hexOctets_of_writes (subject : String) {text bytes : Octets} (hsome : text ≠ [])
    (hwrites : Hex.Writes text bytes) :
    hexOctets subject (.octets text) (.integer text.length) = .ok bytes := by
  rw [hexOctets_octets, if_neg (by rwa [List.isEmpty_iff]), Hex.decode_eq_ok_iff.2 hwrites]

theorem hexOctets_of_not_isProper (subject : String) {text : Octets}
    (hnot : ¬ Hex.IsProper text) :
    ∃ f, hexOctets subject (.octets text) (.integer text.length) = .error (.fault f) ∧
      f.family = .invalidInput := by
  rw [hexOctets_octets]
  by_cases hsome : text = []
  · exact ⟨_, if_pos (List.isEmpty_iff.2 hsome), rfl⟩
  · rw [if_neg (by rwa [List.isEmpty_iff])]
    cases hdecode : Hex.decode text with
    | ok bytes =>
      exact absurd (Hex.isProper_iff.2 ⟨hsome, bytes, Hex.decode_eq_ok_iff.1 hdecode⟩) hnot
    | error flaw => exact ⟨_, rfl, rfl⟩

/-- A check that goes on with the bytes of a text, which have to be written properly. -/
theorem Judges.hexOctets_bind {condition : Prop} {subject : String} {text : Octets}
    {next : Octets → Except Failure Bool} (hproper : condition → Hex.IsProper text)
    (hnext : ∀ bytes, Hex.IsProper text → Hex.Writes text bytes → Judges condition (next bytes)) :
    Judges condition (hexOctets subject (.octets text) (.integer text.length) >>= next) := by
  by_cases htext : Hex.IsProper text
  · obtain ⟨hsome, bytes, hwrites⟩ := Hex.isProper_iff.1 htext
    rw [hexOctets_of_writes subject hsome hwrites]
    exact hnext bytes htext hwrites
  · obtain ⟨f, hrefused, hfamily⟩ := hexOctets_of_not_isProper subject htext
    rw [hrefused]
    exact .refused hfamily fun hcondition => htext (hproper hcondition)

theorem judges_rsaVerdict (m : Message) (sig exponent modulus : Octets) :
    Judges (Verifies m.payload sig exponent modulus)
      (rsaVerdict (.buffer m.window) (.measure m) (.octets sig) (.integer sig.length)
        (.octets exponent) (.integer exponent.length) (.octets modulus)
        (.integer modulus.length)) := by
  rw [rsaVerdict, take_window, take_octets]
  change Judges _ (if modulus.head? = some 0x30 then _ else _)
  by_cases hhead : modulus.head? = some 0x30
  · rw [if_pos hhead]
    exact .refused rfl fun hverifies => hverifies.head?_modulus hhead
  · rw [if_neg hhead]
    apply Judges.hexOctets_bind Verifies.isProper_sig
    intro s hproper hsig
    apply Judges.hexOctets_bind Verifies.isProper_exponent
    intro e hproperExponent hexponent
    apply Judges.hexOctets_bind Verifies.isProper_modulus
    intro n hproperModulus hmodulus
    -- Every check but the last is passed here, and the texts write nothing else than they do here.
    apply Judges.told
    rw [Rsa.verify_iff]
    constructor
    · intro hopens
      exact ⟨hproper, hproperExponent, hproperModulus, hhead,
        s, e, n, hsig, hexponent, hmodulus, hopens⟩
    · intro hverifies
      obtain ⟨s', e', n', hsig', hexponent', hmodulus', hopens⟩ := hverifies.opens
      rwa [hsig.unique hsig', hexponent.unique hexponent', hmodulus.unique hmodulus']

/-- Whatever the texts are, there is a verdict: no complaint about them gets out. -/
theorem exists_verdict {settings : Settings} {cap : Number}
    (hcap : settings.maxInputBytes.number? = some cap) (m : Message)
    (sig exponent modulus : Octets) :
    ∃ verdict, verifyRsa settings (.buffer m.window) (.measure m) (.octets sig)
        (.integer sig.length) (.octets exponent) (.integer exponent.length) (.octets modulus)
        (.integer modulus.length) = .ok verdict ∧
      (verdict = true ↔ cap.precedes (.integer m.length) = false ∧
        Verifies m.payload sig exponent modulus) := by
  rw [verifyRsa, Settings.isBeyondCap_of_number hcap m]
  cases cap.precedes (.integer m.length) with
  | true => exact ⟨false, rfl, by simp⟩
  | false =>
    have hjudges := judges_rsaVerdict m sig exponent modulus
    generalize rsaVerdict _ _ _ _ _ _ _ _ = judged at hjudges
    cases hjudges with
    | @told verdict hverdict => exact ⟨verdict, rfl, by simp [hverdict]⟩
    | refused hfamily hnot => exact ⟨false, if_pos hfamily, by simp [hnot]⟩

end Native

namespace Intrinsic

open Session

section Verdict

variable {data length sig exponent modulus : Datum} {message s e n : Octets}

theorem rsaRequest_of_spells (m : Message) (hsig : sig.Spells s) (hexponent : exponent.Spells e)
    (hmodulus : modulus.Spells n) :
    rsaRequest m sig exponent modulus =
      .ok (crossing m ++ spelled s ++ spelled e ++ spelled n) := by
  rw [rsaRequest, Intrinsics.hexText_of_spells _ hsig, Intrinsics.hexText_of_spells _ hexponent,
    Intrinsics.hexText_of_spells _ hmodulus]
  rfl

/-- A call whose arguments were accepted comes to a verdict on a native host, whatever number its cap
    is. -/
theorem exists_verdict_of_request {i : Intrinsic} (hasks : i.asksVerdict = true) {m : Message}
    (hrequest : i.request = .ok (crossing m ++ spelled s ++ spelled e ++ spelled n))
    {settings : Native.Settings} {cap : Number} (hcap : settings.maxInputBytes.number? = some cap)
    {session : Session} (hnative : session.IsNative settings) :
    ∃ verdict, i.outcome session = .ok (.datum (.truth verdict)) ∧
      (verdict = true ↔ cap.precedes (.integer m.payload.length) = false ∧
        Native.Verifies m.payload s e n) := by
  obtain ⟨verdict, hverdict, hiff⟩ := Native.exists_verdict hcap m s e n
  have hanswer : session.answer .verifyRsa (crossing m ++ spelled s ++ spelled e ++ spelled n) =
      .ok (.truth verdict) := by
    rw [hnative.answer]
    change (Native.verifyRsa settings _ _ _ _ _ _ _ _).map _ = _
    rw [hverdict]
    rfl
  refine ⟨verdict, ?_, ?_⟩
  · rw [outcome_of_ok hrequest hnative.ready, method_of_asksVerdict hasks, returned_of_ok hanswer,
      runOn_conclude_verdict hasks]
    rfl
  · rw [m.length_payload]
    exact hiff

/-- The first text whose bytes cannot be had is what is complained about. -/
theorem hexTexts_of_spoilt {kind : Stray} (hsig : sig.IsTextual) (hexponent : exponent.IsTextual)
    (hspoilt : [sig, exponent, modulus].findSome? Datum.spoilt? = some kind) :
    hexTexts sig exponent modulus = .error (.stray kind "*") := by
  rw [hexTexts]
  cases hfirst : sig.spoilt? with
  | some found =>
    simp only [List.findSome?_cons, hfirst, Option.some.injEq] at hspoilt
    rw [Intrinsics.hexText_of_spoilt _ hfirst, hspoilt]
    rfl
  | none =>
    obtain ⟨s, hs⟩ := hsig.exists_spells hfirst
    rw [Intrinsics.hexText_of_spells _ hs]
    cases hsecond : exponent.spoilt? with
    | some found =>
      simp only [List.findSome?_cons, hfirst, hsecond, Option.some.injEq] at hspoilt
      rw [Intrinsics.hexText_of_spoilt _ hsecond, hspoilt]
      rfl
    | none =>
      obtain ⟨e, he⟩ := hexponent.exists_spells hsecond
      rw [Intrinsics.hexText_of_spells _ he]
      cases hthird : modulus.spoilt? with
      | some found =>
        simp only [List.findSome?_cons, hfirst, hsecond, hthird, Option.some.injEq] at hspoilt
        rw [Intrinsics.hexText_of_spoilt _ hthird, hspoilt]
        rfl
      | none => simp [hfirst, hsecond, hthird] at hspoilt

theorem request_of_isFront (hdata : data.IsFront length message) :
    ∃ m : Message, m.payload = message ∧ ∀ sig exponent modulus,
      (verifyRsaRaw data length sig exponent modulus).request =
        rsaRequest m sig exponent modulus := by
  cases hdata with
  | intro b hsolid hlength hle =>
    obtain ⟨m, hm, hshows⟩ := Message.ofRaw_of_solid hsolid hlength hle
    refine ⟨m, hshows.take_eq, fun sig exponent modulus => ?_⟩
    rw [request, hm]
    rfl

/-- On a native host, whatever number its cap is, the first bytes of a raw buffer and three texts
    come to a verdict, unless the bytes of a text cannot be had: then its own failure is what comes
    of the first such text. The verdict is good just when the message is not above the cap, the texts
    are digit pairs without a zero digit in front of the modulus, and the signature that they write
    opens to the message under the key that they write. -/
theorem verdict_iff_verifies (hdata : data.IsFront length message) (hsig : sig.IsTextual)
    (hexponent : exponent.IsTextual) (hmodulus : modulus.IsTextual) {settings : Native.Settings}
    {cap : Number} (hcap : settings.maxInputBytes.number? = some cap) {session : Session}
    (hnative : session.IsNative settings) :
    let outcome := (verifyRsaRaw data length sig exponent modulus).outcome session
    match [sig, exponent, modulus].findSome? Datum.spoilt? with
    | some kind => outcome = .error (.stray kind "*")
    | none => ∃ s e n, sig.Spells s ∧ exponent.Spells e ∧ modulus.Spells n ∧
        ∃ verdict, outcome = .ok (.datum (.truth verdict)) ∧
          (verdict = true ↔ cap.precedes (.integer message.length) = false ∧
            Native.Verifies message s e n) := by
  obtain ⟨m, rfl, hrequest⟩ := request_of_isFront hdata
  intro outcome
  cases hspoilt : [sig, exponent, modulus].findSome? Datum.spoilt? with
  | some kind =>
    apply outcome_of_error
    rw [hrequest, rsaRequest_eq, hexTexts_of_spoilt hsig hexponent hspoilt]
    rfl
  | none =>
    simp only [List.findSome?_eq_none_iff, List.forall_mem_cons, List.not_mem_nil, false_implies,
      implies_true, and_true] at hspoilt
    obtain ⟨hsound, hsoundExponent, hsoundModulus⟩ := hspoilt
    obtain ⟨s, hs⟩ := hsig.exists_spells hsound
    obtain ⟨e, he⟩ := hexponent.exists_spells hsoundExponent
    obtain ⟨n, hn⟩ := hmodulus.exists_spells hsoundModulus
    refine ⟨s, e, n, hs, he, hn, exists_verdict_of_request rfl ?_ hcap hnative⟩
    rw [hrequest, rsaRequest_of_spells m hs he hn]

end Verdict

/-- A key whose exponent is three, and a signature over three bytes, as many as the host takes. More
    bytes in the buffer make no difference. -/
theorem verdict_iff_verifies_cube :
    let root := 0x1fffffffffffc70000000000000000000000000000
    let modulus := 0x7ffdfffffffd54000000ffd4912ff2f9f69ca64efe9afcfbfdfefafffbdf45 * 2 ^ 248 +
      0x87e94070fe3015bebebf21a251dddc4ffc9e5c69e885634bef009e0dffea53
    let sig := Hex.encode (Octets.ofNat 62 root)
    let digits := Hex.encode (Octets.ofNat 62 modulus)
    let data : Datum := .octets (Octets.ofText "abcd")
    let settings : Native.Settings := .ofCap false 3
    let session : Session :=
      { Session.start with active := some (Native.hostNumbered 5 (some "native") settings) }
    data.IsFront (.integer 3) (Octets.ofText "abc") ∧ session.IsNative settings ∧
      Native.Verifies (Octets.ofText "abc") (Octets.ofText sig) (Octets.ofText "03")
        (Octets.ofText digits) ∧
      (verifyRsaRaw data (.integer 3) (.text sig) (.text "03") (.text digits)).outcome session =
        .ok (.datum (.truth true)) := by
  intro root modulus sig digits data settings session
  have hlength : (Datum.integer 3).integer? = some ((3 : Nat) : Int) := rfl
  have hfront : data.IsFront (.integer 3) (Octets.ofText "abc") :=
    .intro (.ofOctets (Octets.ofText "abcd")) rfl hlength (by decide +kernel)
  have hnative : session.IsNative settings := ⟨5, some "native", rfl⟩
  have hsig : Hex.Writes (Octets.ofText sig) (Octets.ofNat 62 root) :=
    Hex.decode_eq_ok_iff.1 (by decide +kernel)
  have hexponent : Hex.Writes (Octets.ofText "03") [3] :=
    Hex.decode_eq_ok_iff.1 (by decide +kernel)
  have hmodulus : Hex.Writes (Octets.ofText digits) (Octets.ofNat 62 modulus) :=
    Hex.decode_eq_ok_iff.1 (by decide +kernel)
  have hopens : Rsa.Opens (Octets.ofNat 62 root) (Octets.toNat [3])
      (Octets.ofNat 62 modulus).toNat (Octets.ofText "abc") :=
    Rsa.verify_iff.1 (by decide +kernel)
  have hverifies : Native.Verifies (Octets.ofText "abc") (Octets.ofText sig) (Octets.ofText "03")
      (Octets.ofText digits) :=
    { isProper_sig := Hex.isProper_iff.2 ⟨by decide +kernel, _, hsig⟩
      isProper_exponent := Hex.isProper_iff.2 ⟨by decide +kernel, _, hexponent⟩
      isProper_modulus := Hex.isProper_iff.2 ⟨by decide +kernel, _, hmodulus⟩
      head?_modulus := by decide +kernel
      opens := ⟨_, _, _, hsig, hexponent, hmodulus, hopens⟩ }
  have hcap : settings.maxInputBytes.number? = some (.integer 3) := rfl
  obtain ⟨_, _, _, ⟨⟩, ⟨⟩, ⟨⟩, verdict, houtcome, hiff⟩ := verdict_iff_verifies hfront
    (.spells (.text sig)) (.spells (.text "03")) (.spells (.text digits)) hcap hnative
  obtain rfl : verdict = true := hiff.2 ⟨by decide +kernel, hverifies⟩
  exact ⟨hfront, hnative, hverifies, houtcome⟩

/-- There is no verdict about a signature whose text is a surrogate. -/
theorem no_verdict_of_surrogate :
    let sig : Datum := .garbled (.single 0xd800 rfl)
    (Datum.octets []).IsFront (.integer 0) [] ∧
      Session.start.IsNative (.ofPolicy Session.start.policyInForce) ∧
      ¬ ∃ verdict, (verifyRsaRaw (.octets []) (.integer 0) sig (.text "03") (.text "bb")).outcome
        .start = .ok (.datum (.truth verdict)) := by
  intro sig
  have hzero : (Datum.integer 0).integer? = some ((0 : Nat) : Int) := rfl
  have hfront : (Datum.octets []).IsFront (.integer 0) [] :=
    .intro (.ofOctets []) rfl hzero (Nat.zero_le _)
  refine ⟨hfront, isNative_of_none rfl, ?_⟩
  obtain ⟨m, -, hrequest⟩ := request_of_isFront hfront
  have hspoilt : hexTexts sig (.text "03") (.text "bb") = .error (.stray .unencodable "*") := rfl
  rw [outcome_of_error (by rw [hrequest, rsaRequest_eq, hspoilt]; rfl)]
  simp

end Intrinsic

end CryptoIntrinsics
