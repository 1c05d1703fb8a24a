import CryptoIntrinsics.Proofs.CommandLine.Option
import CryptoIntrinsics.Proofs.CommandLine.Perform
import CryptoIntrinsics.Proofs.Hex.Spaced

namespace CryptoIntrinsics.CommandLine

open Procedure Session

/-- The ways to say what the message is. -/
inductive Form where
  | text
  | hex
  | file
deriving DecidableEq, Repr

namespace Form

def switch : Form → Switch
  | text => .text
  | hex => .hex
  | file => .file

def source (given : Given) : Form → Source
  | text => .text given
  | hex => .hex given
  | file => .file given

end Form

/-- A value that says some bytes in a form: a text by its encoding, digits behind a marker or not,
    and the name of a file that holds them. Neither a text nor a name is the separator. -/
inductive Presents (read : String → Except FileFlaw Octets) : Form → String → Octets → Prop where
  | text {text : String} (hkept : text ≠ "--") : Presents read .text text (Octets.ofText text)
  | hex {marker body : List Char} {bytes : Octets} (hmarker : Hex.IsMarker marker)
      (hwrites : Hex.WritesSpaced body bytes) :
      Presents read .hex (String.ofList (marker ++ body)) bytes
  | file {name : String} {bytes : Octets} (hkept : name ≠ "--") (hread : read name = .ok bytes) :
      Presents read .file name bytes

section Agreement

variable {read : String → Except FileFlaw Octets} {form other : Form} {value word : String}
  {bytes : Octets}

theorem Given.ofWord_of_kept (hkept : value ≠ "--") : Given.ofWord value = .text value := if_neg hkept

/-- The message of a source that presents bytes are these bytes. -/
theorem Presents.message_eq (hpresents : Presents read form value bytes) :
    message read (form.source (.ofWord value)) = .ok bytes := by
  cases hpresents with
  | text hkept => rw [Given.ofWord_of_kept hkept, Form.source, message]
  | hex hmarker hwrites =>
    rename_i marker body
    have hread : Hex.decodeSpaced (Hex.dropMarker (String.ofList (marker ++ body)).toList) =
        .ok bytes := by
      rw [String.toList_ofList, Hex.dropMarker_append hmarker hwrites]
      exact Hex.decodeSpaced_eq_ok_iff.2 hwrites
    have hkept : String.ofList (marker ++ body) ≠ "--" := by
      intro hsame
      rw [hsame] at hread
      cases hread
    rw [Given.ofWord_of_kept hkept, Form.source, message, hread]
  | file hkept hread => rw [Given.ofWord_of_kept hkept, Form.source, message, hread]

theorem Form.isTaken (form : Form) (value : String) : Values.IsTaken (form.switch, value) := by
  cases form <;> exact ⟨rfl, nofun⟩

/-- The digest command with its two options in any order. -/
theorem ofWords_digest_of_perm {algorithm : Digest.Algorithm} {options : List (Switch × String)}
    (hperm : options.Perm [(.algorithm, algorithm.name), (form.switch, value)]) :
    Command.ofWords ("digest" :: options.map Switch.word) =
      .ok (.digest (some algorithm) (form.source (.ofWord value))) := by
  have hvalues : [(.algorithm, algorithm.name), (form.switch, value)].foldl Values.put .start =
      ⟨some algorithm, some (form.source (.ofWord value)), none, none, none⟩ := by
    cases algorithm <;> cases form <;> rfl
  have hswitches : [(.algorithm, algorithm.name), (form.switch, value)].map Prod.fst =
      [.algorithm, form.switch] := rfl
  refine Command.ofWords_digest hperm ?_ ?_ ?_ hvalues rfl
  · exact List.forall_mem_cons.2 ⟨⟨rfl, fun _ => ⟨algorithm, rfl⟩⟩,
      List.forall_mem_singleton.2 (form.isTaken value)⟩
  · rw [hswitches]
    cases form <;> decide
  · rw [hswitches]
    cases form <;> decide

/-- The verification command with its four options in any order. -/
theorem ofWords_verification_of_perm {sig exponent modulus : String}
    {options : List (Switch × String)}
    (hperm : options.Perm [(form.switch, value), (.sig, sig), (.exponent, exponent),
      (.modulus, modulus)]) :
    Command.ofWords ("verify-rsa" :: options.map Switch.word) =
      .ok (.verifyRsa (form.source (.ofWord value)) (.ofWord sig) (.ofWord exponent)
        (.ofWord modulus)) := by
  have hvalues : [(form.switch, value), (.sig, sig), (.exponent, exponent),
      (.modulus, modulus)].foldl Values.put .start =
        ⟨some .sha256, some (form.source (.ofWord value)), some (.ofWord sig),
          some (.ofWord exponent), some (.ofWord modulus)⟩ := by
    cases form <;> rfl
  have hswitches : [(form.switch, value), (.sig, sig), (.exponent, exponent),
      (.modulus, modulus)].map Prod.fst = [form.switch, .sig, .exponent, .modulus] := rfl
  refine Command.ofWords_verification hperm ?_ ?_ ?_ hvalues
  · have hsig : Values.IsTaken (.sig, sig) := ⟨rfl, nofun⟩
    have hexponent : Values.IsTaken (.exponent, exponent) := ⟨rfl, nofun⟩
    have hmodulus : Values.IsTaken (.modulus, modulus) := ⟨rfl, nofun⟩
    exact List.forall_mem_cons.2 ⟨form.isTaken value, List.forall_mem_cons.2 ⟨hsig,
      List.forall_mem_cons.2 ⟨hexponent, List.forall_mem_singleton.2 hmodulus⟩⟩⟩
  · rw [hswitches]
    cases form <;> decide
  · rw [hswitches]
    cases form <;> decide

theorem perform_digest_congr {one two : Source} (hsame : message read one = message read two)
    (algorithm : Option Digest.Algorithm) :
    perform read (.digest algorithm one) = perform read (.digest algorithm two) := by
  cases algorithm <;> rw [perform, perform, hsame]

theorem perform_verifyRsa_congr {one two : Source} (hsame : message read one = message read two)
    (sig exponent modulus : Given) :
    perform read (.verifyRsa one sig exponent modulus) =
      perform read (.verifyRsa two sig exponent modulus) := by
  rw [perform, perform, hsame]

/-- Commands that do the same are reported alike. -/
theorem runOn_run_congr {words others : List String} {one two : Command}
    (hone : Command.ofWords words = .ok one) (htwo : Command.ofWords others = .ok two)
    (hsame : perform read one = perform read two) (session : Session) :
    (run read words).runOn session = (run read others).runOn session := by
  rw [runOn_run hone, runOn_run htwo, hsame]

section Ended

variable {words : List String} {algorithm : Digest.Algorithm} {source : Source}
  {session : Session} {settings : Native.Settings} {cap : Number}

theorem ended_digest_of_within
    (hcommand : Command.ofWords words = .ok (.digest (some algorithm) source))
    (hmessage : message read source = .ok bytes) (hnative : session.IsNative settings)
    (hcap : settings.maxInputBytes.number? = some cap)
    (hwithin : cap.precedes (.integer bytes.length) = false) :
    ∃ digest : Checksum algorithm.kind,
      (Intrinsic.digest algorithm (.octets bytes)).outcome session =
        .ok (.datum (.checksum algorithm.kind digest)) ∧
      ((run read words).runOn session).1 = .ok (.report ⟨0, (Json.object
        [("algo", .text algorithm.name), ("length", .number bytes.length),
          ("digest", .text (Hex.encode digest.data))]).render⟩) := by
  have hdigest := fst_runOn_digest hnative algorithm bytes
  have hnone : Native.obstacle? settings algorithm (.whole .bytes bytes) = none := by
    rw [Native.obstacle?_eq_none_iff, Native.Settings.isBeyondCap_of_number hcap]
    exact congrArg Except.ok hwithin
  rw [hnone] at hdigest
  refine ⟨algorithm.digest bytes, ?_, ?_⟩
  · rw [outcome_eq_map_digest, hdigest]
    rfl
  · rw [runOn_run hcommand, fst_perform_digest algorithm hmessage, hdigest]
    rfl

theorem ended_digest_of_beyond
    (hcommand : Command.ofWords words = .ok (.digest (some algorithm) source))
    (hmessage : message read source = .ok bytes) (hnative : session.IsNative settings)
    (hcap : settings.maxInputBytes.number? = some cap)
    (hbeyond : cap.precedes (.integer bytes.length) = true) :
    ∃ (f : Fault) (context : List (String × Json)),
      (Intrinsic.digest algorithm (.octets bytes)).outcome session = .error (.fault f) ∧
      ((run read words).runOn session).1 = .ok (.report ⟨2, (Json.object [("error", .object
        [("code", .text "host_fault"), ("message", .text f.message), ("fatal", .truth true),
         ("context", .object context)])]).render⟩) := by
  have hdigest := fst_runOn_digest hnative algorithm bytes
  cases hobstacle : Native.obstacle? settings algorithm (.whole .bytes bytes) with
  | none =>
    rw [Native.obstacle?_eq_none_iff, Native.Settings.isBeyondCap_of_number hcap,
      Except.ok.injEq] at hobstacle
    exact absurd (hbeyond.symm.trans hobstacle) (by decide)
  | some failure =>
    rw [hobstacle] at hdigest
    dsimp only at hdigest
    obtain ⟨f, hfault, hhost, hdocumented⟩ := exists_fault_of_digest hnative hdigest
    rw [hfault] at hdigest
    obtain ⟨context, -, hreported⟩ := reported_of_isDocumented hdocumented
    refine ⟨f, context, ?_, ?_⟩
    · rw [outcome_eq_map_digest, hdigest]
      rfl
    · rw [runOn_run hcommand, fst_perform_digest algorithm hmessage, hdigest, ← hhost.2,
        ← hhost.isFatal]
      exact hreported

end Ended

end Agreement

/-- Two ways to say the same bytes make no difference to a command, in whatever order its options
    stand. So digests are printed alike and so are verdicts, with the same exit code. On a native
    host the digest command prints the digest of the bytes with their number, unless they are more
    than its cap; then it prints that the host is to blame. -/
theorem sources_agree {read : String → Except FileFlaw Octets} {form other : Form}
    {value word : String} {bytes : Octets} (hone : Presents read form value bytes)
    (hother : Presents read other word bytes) (session : Session) :
    (∀ (algorithm : Digest.Algorithm) (options others : List (Switch × String)),
      options.Perm [(.algorithm, algorithm.name), (form.switch, value)] →
      others.Perm [(.algorithm, algorithm.name), (other.switch, word)] →
      let ended := (run read ("digest" :: options.map Switch.word)).runOn session
      ended = (run read ("digest" :: others.map Switch.word)).runOn session ∧
      ∀ (settings : Native.Settings) (cap : Number), session.IsNative settings →
        settings.maxInputBytes.number? = some cap →
        (cap.precedes (.integer bytes.length) = false → ∃ digest : Checksum algorithm.kind,
          (Intrinsic.digest algorithm (.octets bytes)).outcome session =
            .ok (.datum (.checksum algorithm.kind digest)) ∧
          ended.1 = .ok (.report ⟨0, (Json.object [("algo", .text algorithm.name),
            ("length", .number bytes.length),
            ("digest", .text (Hex.encode digest.data))]).render⟩)) ∧
        (cap.precedes (.integer bytes.length) = true → ∃ (f : Fault) (context : List (String × Json)),
          (Intrinsic.digest algorithm (.octets bytes)).outcome session = .error (.fault f) ∧
          ended.1 = .ok (.report ⟨2, (Json.object [("error", .object
            [("code", .text "host_fault"), ("message", .text f.message), ("fatal", .truth true),
             ("context", .object context)])]).render⟩))) ∧
    ∀ (sig exponent modulus : String) (options others : List (Switch × String)),
      options.Perm [(form.switch, value), (.sig, sig), (.exponent, exponent),
        (.modulus, modulus)] →
      others.Perm [(other.switch, word), (.sig, sig), (.exponent, exponent),
        (.modulus, modulus)] →
      (run read ("verify-rsa" :: options.map Switch.word)).runOn session =
        (run read ("verify-rsa" :: others.map Switch.word)).runOn session := by
  have hsame := hone.message_eq.trans hother.message_eq.symm
  constructor
  · intro algorithm options others hoptions hothers ended
    have hcommand := ofWords_digest_of_perm hoptions
    refine ⟨runOn_run_congr hcommand (ofWords_digest_of_perm hothers)
      (perform_digest_congr hsame _) session, ?_⟩
    intro settings cap hnative hcap
    exact ⟨ended_digest_of_within hcommand hone.message_eq hnative hcap,
      ended_digest_of_beyond hcommand hone.message_eq hnative hcap⟩
  · intro sig exponent modulus options others hoptions hothers
    exact runOn_run_congr (ofWords_verification_of_perm hoptions)
      (ofWords_verification_of_perm hothers) (perform_verifyRsa_congr hsame _ _ _) session

/-- Three bytes as a text, in upper-case digits behind a marker, and in a file; with the options in
    either order. -/
theorem sources_agree_abc :
    let read (name : String) : Except FileFlaw Octets :=
      if name = "m" then .ok [0x6a, 0x6b, 0x6c] else .error .missing
    let ended (words : List String) := (run read words).runOn Session.start
    Presents read .text "jkl" [0x6a, 0x6b, 0x6c] ∧
      Presents read .hex "0x6A6B6C" [0x6a, 0x6b, 0x6c] ∧
      Presents read .file "m" [0x6a, 0x6b, 0x6c] ∧
      ended ["digest", "--algo=sha1", "--text=jkl"] =
        ended ["digest", "--hex=0x6A6B6C", "--algo=sha1"] ∧
      ended ["verify-rsa", "--file=m", "--sig=--", "--exp=03", "--mod="] =
        ended ["verify-rsa", "--mod=", "--sig=--", "--exp=03", "--text=jkl"] := by
  intro read ended
  have htext : Presents read .text "jkl" [0x6a, 0x6b, 0x6c] := .text (by decide)
  have hhex : Presents read .hex "0x6A6B6C" [0x6a, 0x6b, 0x6c] :=
    .hex .lower (Hex.decodeSpaced_eq_ok_iff.1 (by decide +kernel) :
      Hex.WritesSpaced ['6', 'A', '6', 'B', '6', 'C'] _)
  have hfile : Presents read .file "m" [0x6a, 0x6b, 0x6c] := .file (by decide) rfl
  obtain ⟨hdigest, -⟩ := sources_agree htext hhex Session.start
  obtain ⟨-, hverify⟩ := sources_agree hfile htext Session.start
  refine ⟨htext, hhex, hfile, ?_, ?_⟩
  · exact (hdigest .sha1 [(.algorithm, "sha1"), (.text, "jkl")]
      [(.hex, "0x6A6B6C"), (.algorithm, "sha1")] (.refl _) (.swap _ _ _)).1
  · refine hverify "--" "03" "" [(.file, "m"), (.sig, "--"), (.exponent, "03"), (.modulus, "")]
      [(.modulus, ""), (.sig, "--"), (.exponent, "03"), (.text, "jkl")] (.refl _) ?_
    decide

/-- As a text, the separator is no message, but an error that is not reported; in digits it is one
    of two bytes. -/
theorem sources_disagree_on_separator :
    let read (_ : String) : Except FileFlaw Octets := .error .missing
    let ended (word : String) :=
      ((run read ["digest", "--algo=sha256", word]).runOn Session.start).1
    Octets.ofText "--" = [0x2d, 0x2d] ∧ ended "--text=--" = .error (.stray .unknownName "*") ∧
      ∃ output, ended "--hex=2d2d" = .ok (.report ⟨0, output⟩) := by
  intro read ended
  have htext : Command.ofWords ["digest", "--algo=sha256", "--text=--"] =
      .ok (.digest (some .sha256) (.text .emptied)) := by
    decide +kernel
  have hhex : Command.ofWords ["digest", "--algo=sha256", "--hex=2d2d"] =
      .ok (.digest (some .sha256) (.hex (.text "2d2d"))) := by
    decide +kernel
  have hmessage : message read (.hex (.text "2d2d")) = .ok [0x2d, 0x2d] := rfl
  have hnative : Session.start.IsNative (.ofPolicy Session.start.policyInForce) :=
    isNative_of_none rfl
  refine ⟨by decide, congrArg Prod.fst (runOn_run htext Session.start), ?_⟩
  obtain ⟨digest, -, hended⟩ := ended_digest_of_within hhex hmessage hnative rfl (by decide)
  exact ⟨_, hended⟩

end CryptoIntrinsics.CommandLine
