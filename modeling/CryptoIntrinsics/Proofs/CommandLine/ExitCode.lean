import CryptoIntrinsics.Proofs.CommandLine.Normal
import CryptoIntrinsics.Proofs.CommandLine.Origin
import CryptoIntrinsics.Proofs.CommandLine.Perform

namespace CryptoIntrinsics.CommandLine

open Procedure Session

def Command.IsFilled : Command → Prop
  | digest algorithm source => algorithm ≠ none ∧ source.given.IsText
  | decode _ _ => True
  | verifyRsa source sig exponent modulus =>
    source.given.IsText ∧ sig.IsText ∧ exponent.IsText ∧ modulus.IsText

/-- The members of the document and the exit code that a command comes to. -/
inductive Concludes (read : String → Except FileFlaw Octets) (session : Session) :
    Command → List (String × Json) → Nat → Prop where
  | digest {algorithm : Digest.Algorithm} {source : Source} (length : Nat) (digits : String) :
      Concludes read session (.digest (some algorithm) source)
        [("algo", .text algorithm.name), ("length", .number length), ("digest", .text digits)] 0
  | decode {kind : Credential.Kind} {text : String} (v : Credential kind) :
      Concludes read session (.decode kind text)
        [("kind", .text kind.name), ("type", .number v.tag), ("curve", .text v.curve.name),
         ("data", .text (Hex.encode v.data)), ("encoded", .text (Hex.encode v.serialize))] 0
  | verifyRsa {source : Source} {sig exponent modulus : Given} {bytes : Octets} {valid : Bool}
      (hmessage : message read source = .ok bytes)
      (houtcome : (Intrinsic.verifyRsa (.octets bytes) sig.toDatum exponent.toDatum
        modulus.toDatum).outcome session = .ok (.datum (.truth valid))) :
      Concludes read session (.verifyRsa source sig exponent modulus)
        [("valid", .truth valid), ("length", .number bytes.length)] (if valid then 0 else 1)

namespace Concludes

variable {read : String → Except FileFlaw Octets} {session : Session} {command : Command}
  {members : List (String × Json)} {exitCode : Nat}

/-- What a command comes to is never taken for a structured error. -/
theorem not_error (hconcludes : Concludes read session command members exitCode) :
    ¬ ∃ error, members = [("error", error)] := by
  rintro ⟨error, herror⟩
  have hlength := congrArg List.length herror
  cases hconcludes <;> cases hlength

theorem exitCode_lt_two (hconcludes : Concludes read session command members exitCode) :
    exitCode < 2 := by
  cases hconcludes with
  | digest | decode => exact Nat.two_pos
  | @verifyRsa _ _ _ _ _ valid => cases valid <;> decide

theorem exitCode_eq_one_iff (hconcludes : Concludes read session command members exitCode) :
    exitCode = 1 ↔ (∃ source sig exponent modulus,
      command = .verifyRsa source sig exponent modulus) ∧ ("valid", .truth false) ∈ members := by
  cases hconcludes with
  | digest | decode =>
    refine ⟨nofun, ?_⟩
    rintro ⟨⟨_, _, _, _, hcommand⟩, -⟩
    cases hcommand
  | @verifyRsa source sig exponent modulus bytes valid =>
    cases valid with
    | true =>
      refine ⟨nofun, ?_⟩
      rintro ⟨-, hvalid⟩
      simp at hvalid
    | false => exact ⟨fun _ => ⟨⟨_, _, _, _, rfl⟩, List.mem_cons_self⟩, fun _ => rfl⟩

/-- A verification ends with zero just if the library finds the signature good. -/
theorem exitCode_eq_zero_iff {source : Source} {sig exponent modulus : Given}
    (hconcludes : Concludes read session (.verifyRsa source sig exponent modulus) members
      exitCode) :
    exitCode = 0 ↔ ∃ bytes, message read source = .ok bytes ∧
      (Intrinsic.verifyRsa (.octets bytes) sig.toDatum exponent.toDatum
        modulus.toDatum).outcome session = .ok (.datum (.truth true)) := by
  cases hconcludes with
  | @verifyRsa _ _ _ _ bytes valid hmessage houtcome =>
    cases valid with
    | true => exact ⟨fun _ => ⟨bytes, hmessage, houtcome⟩, fun _ => rfl⟩
    | false =>
      refine ⟨nofun, ?_⟩
      rintro ⟨others, hothers, htrue⟩
      obtain rfl : bytes = others := Except.ok.inj (hmessage.symm.trans hothers)
      rw [houtcome] at htrue
      cases htrue

end Concludes

section Perform

variable {read : String → Except FileFlaw Octets} {session : Session}
  {settings : Native.Settings} {command : Command}

/-- A command fails as the reading of its message does. -/
theorem fst_perform_of_error {source : Source} (hsource : command.source? = some source)
    {failure : Failure} (hmessage : message read source = .error failure) (session : Session) :
    ((perform read command).runOn session).1 = .error failure := by
  cases command with
  | digest algorithm =>
    cases hsource
    cases algorithm <;> rw [perform, hmessage, runOn_demand_bind]
  | decode => cases hsource
  | verifyRsa =>
    cases hsource
    rw [perform, hmessage, runOn_demand_bind]

/-- A command comes to a document, or to a structured error that has one. -/
theorem perform_ends (hreader : IsReader read) (hnative : session.IsNative settings)
    (hfilled : command.IsFilled)
    (hnames : ∀ source ∈ command.source?, source.given.Lacks '\x00') :
    (∃ members exitCode, ((perform read command).runOn session).1 = .ok (.object members, exitCode) ∧
      Concludes read session command members exitCode) ∨
    ∃ f, ((perform read command).runOn session).1 = .error (.fault f) ∧ IsDocumented f := by
  cases command with
  | digest algorithm source =>
    obtain ⟨hsome, hgiven⟩ := hfilled
    obtain ⟨algorithm, rfl⟩ := Option.ne_none_iff_exists'.1 hsome
    cases hmessage : message read source with
    | error failure =>
      obtain ⟨f, rfl, hdocumented⟩ :=
        exists_fault_of_message hreader hgiven (hnames source rfl) hmessage
      exact .inr ⟨f, fst_perform_of_error rfl hmessage session, hdocumented⟩
    | ok bytes =>
      have hperform := fst_perform_digest algorithm hmessage session
      cases hdigest : ((Intrinsics.digest algorithm (.octets bytes)).runOn session).1 with
      | ok value =>
        rw [hdigest] at hperform
        exact .inl ⟨_, _, hperform, .digest _ _⟩
      | error failure =>
        obtain ⟨f, rfl, -, hdocumented⟩ := exists_fault_of_digest hnative hdigest
        rw [hdigest] at hperform
        exact .inr ⟨f, hperform, hdocumented⟩
  | decode kind text =>
    have hperform : ((perform read (.decode kind text)).runOn session).1 = _ :=
      fst_perform_decode kind text session
    cases hread : Credential.ofHex kind session.policyInForce.strictVarint text with
    | ok v =>
      rw [hread] at hperform
      exact .inl ⟨_, _, hperform, .decode v⟩
    | error flaw =>
      obtain ⟨f, hfailure, -, -, hdocumented⟩ := exists_fault_of_ofHex hread
      rw [hread] at hperform
      exact .inr ⟨f, hperform.trans (congrArg Except.error hfailure), hdocumented⟩
  | verifyRsa source sig exponent modulus =>
    obtain ⟨hgiven, ⟨sig, rfl⟩, ⟨exponent, rfl⟩, ⟨modulus, rfl⟩⟩ := hfilled
    cases hmessage : message read source with
    | error failure =>
      obtain ⟨f, rfl, hdocumented⟩ :=
        exists_fault_of_message hreader hgiven (hnames source rfl) hmessage
      exact .inr ⟨f, fst_perform_of_error rfl hmessage session, hdocumented⟩
    | ok bytes =>
      have hperform := fst_perform_verifyRsa hmessage (.text sig) (.text exponent) (.text modulus)
        session
      have houtcome := outcome_eq_map_verifyRsa (.octets bytes) (.text sig) (.text exponent)
        (.text modulus) session
      dsimp only [Given.toDatum] at hperform
      cases hverify : ((Intrinsics.verifyRsa (.octets bytes) (.text sig) (.text exponent)
        (.text modulus)).runOn session).1 with
      | ok valid =>
        rw [hverify] at hperform houtcome
        exact .inl ⟨_, _, hperform, .verifyRsa hmessage houtcome⟩
      | error failure =>
        obtain ⟨f, rfl, hdocumented⟩ := exists_fault_of_verifyRsa hnative hverify
        rw [hverify] at hperform
        exact .inr ⟨f, hperform, hdocumented⟩

/-- Nothing fails in the verification of what is found good. -/
theorem exists_fst_perform_of_outcome {source : Source} {sig exponent modulus : Given}
    {bytes : Octets} {valid : Bool} (hmessage : message read source = .ok bytes)
    (houtcome : (Intrinsic.verifyRsa (.octets bytes) sig.toDatum exponent.toDatum
      modulus.toDatum).outcome session = .ok (.datum (.truth valid))) :
    ∃ result, ((perform read (.verifyRsa source sig exponent modulus)).runOn session).1 =
      .ok result := by
  rw [outcome_eq_map_verifyRsa] at houtcome
  obtain ⟨verdict, hverdict, -⟩ := Checks.exists_of_map_eq_ok houtcome
  rw [fst_perform_verifyRsa hmessage, hverdict]
  exact ⟨_, rfl⟩

end Perform

/-- On a native host, the default one included, a command line that asks for a command always ends
    in a report of one object, if its words have no character that no name may hold and its options
    were given texts. The exit code is two just for a structured error, which the object then is; it
    is one just for a verification that says that the signature is bad; and otherwise it is zero. So
    a verification ends with zero just if the library finds the signature good. -/
theorem exitCode_faithful {read : String → Except FileFlaw Octets} (hreader : IsReader read)
    {words : List String} (hwords : ∀ word ∈ words, '\x00' ∉ word.toList) {command : Command}
    (hcommand : Command.ofWords words = .ok command) (hfilled : command.IsFilled)
    {session : Session} {settings : Native.Settings} (hnative : session.IsNative settings) :
    ∃ members exitCode,
      ((run read words).runOn session).1 =
        .ok (.report ⟨exitCode, (Json.object members).render⟩) ∧
      (exitCode = 2 ↔ ∃ error, members = [("error", error)]) ∧
      (exitCode = 2 → ∃ f, ((perform read command).runOn session).1 = .error (.fault f) ∧
        errorDocument? f = some (.object members)) ∧
      (exitCode = 1 ↔ (∃ source sig exponent modulus,
        command = .verifyRsa source sig exponent modulus) ∧ ("valid", .truth false) ∈ members) ∧
      (exitCode = 0 ∨ exitCode = 1 ∨ exitCode = 2) ∧
      ∀ source sig exponent modulus, command = .verifyRsa source sig exponent modulus →
        (exitCode = 0 ↔ ∃ bytes, message read source = .ok bytes ∧
          (Intrinsic.verifyRsa (.octets bytes) sig.toDatum exponent.toDatum
            modulus.toDatum).outcome session = .ok (.datum (.truth true))) := by
  have hended : ((run read words).runOn session).1 =
      reported ((perform read command).runOn session).1 :=
    congrArg Prod.fst (runOn_run hcommand session)
  obtain ⟨members, exitCode, hperform, hconcludes⟩ | ⟨f, hperform, hdocumented⟩ :=
    perform_ends hreader hnative hfilled (Command.lacks_of_ofWords hwords hcommand)
  · have hlt := hconcludes.exitCode_lt_two
    refine ⟨members, exitCode, by rw [hended, hperform]; rfl, ⟨?_, ?_⟩, ?_,
      hconcludes.exitCode_eq_one_iff, by omega, ?_⟩
    · intro htwo
      omega
    · intro herror
      exact absurd herror hconcludes.not_error
    · intro htwo
      omega
    · rintro source sig exponent modulus rfl
      exact hconcludes.exitCode_eq_zero_iff
  · obtain ⟨context, hdocument, hreported⟩ := reported_of_isDocumented hdocumented
    refine ⟨_, 2, by rw [hended, hperform]; exact hreported, ⟨fun _ => ⟨_, rfl⟩, fun _ => rfl⟩,
      fun _ => ⟨f, hperform, hdocument⟩, ⟨nofun, ?_⟩, .inr (.inr rfl), ?_⟩
    · rintro ⟨-, hvalid⟩
      simp at hvalid
    · rintro source sig exponent modulus rfl
      refine ⟨nofun, ?_⟩
      rintro ⟨bytes, hmessage, htrue⟩
      obtain ⟨result, hresult⟩ := exists_fst_perform_of_outcome hmessage htrue
      rw [hperform] at hresult
      cases hresult

/-- A message that is in no file, on the default host. -/
theorem exitCode_faithful_absent :
    let read (_ : String) : Except FileFlaw Octets := .error .missing
    let words := ["-v", "digest", "--file", "absent"]
    let command : Command := .digest (some .sha256) (.file (.text "absent"))
    IsReader read ∧ (∀ word ∈ words, '\x00' ∉ word.toList) ∧
      Command.ofWords words = .ok command ∧ command.IsFilled ∧
      Session.start.IsNative (.ofPolicy Session.start.policyInForce) ∧
      ∃ error, ((run read words).runOn Session.start).1 =
        .ok (.report ⟨2, (Json.object [("error", error)]).render⟩) := by
  intro read words command
  have hreader : IsReader read := fun _ => nofun
  have hwords : ∀ word ∈ words, '\x00' ∉ word.toList := by decide
  have hcommand : Command.ofWords words = .ok command := by decide +kernel
  have hfilled : command.IsFilled := ⟨nofun, "absent", rfl⟩
  have hnative : Session.start.IsNative (.ofPolicy Session.start.policyInForce) :=
    isNative_of_none rfl
  refine ⟨hreader, hwords, hcommand, hfilled, hnative, ?_⟩
  obtain ⟨members, exitCode, hended, htwo, -⟩ :=
    exitCode_faithful hreader hwords hcommand hfilled hnative
  have hreport : ((run read words).runOn Session.start).1 = .ok (.report ⟨2, _⟩) :=
    congrArg Prod.fst (runOn_run hcommand Session.start)
  have hsame := Ending.report.inj (Except.ok.inj (hended.symm.trans hreport))
  obtain rfl : exitCode = 2 := (Report.mk.inj hsame).1
  obtain ⟨error, rfl⟩ := htwo.1 rfl
  exact ⟨error, hended⟩

/-- With the separator as its text a message is no message, and the command ends in an error that is
    not reported. -/
theorem exitCode_unfaithful_to_separator :
    let read (_ : String) : Except FileFlaw Octets := .error .missing
    let words := ["verify-rsa", "--text=--", "--sig=aa", "--exp=03", "--mod=bb"]
    IsReader read ∧ (∀ word ∈ words, '\x00' ∉ word.toList) ∧
      Command.ofWords words =
        .ok (.verifyRsa (.text .emptied) (.text "aa") (.text "03") (.text "bb")) ∧
      Session.start.IsNative (.ofPolicy Session.start.policyInForce) ∧
      ((run read words).runOn Session.start).1 = .error (.stray .unknownName "*") := by
  intro read words
  have hcommand : Command.ofWords words =
      .ok (.verifyRsa (.text .emptied) (.text "aa") (.text "03") (.text "bb")) := by
    decide +kernel
  exact ⟨fun _ => nofun, by decide, hcommand, isNative_of_none rfl,
    congrArg Prod.fst (runOn_run hcommand Session.start)⟩

end CryptoIntrinsics.CommandLine
