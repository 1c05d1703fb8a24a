import CryptoIntrinsics.Proofs.CommandLine.Origin
import CryptoIntrinsics.Proofs.CommandLine.Report
import CryptoIntrinsics.Proofs.Native.Digest
import CryptoIntrinsics.Proofs.Native.Verdict
import CryptoIntrinsics.Proofs.Session.Loading

namespace CryptoIntrinsics

theorem Message.ofDatum_octets (bytes : Octets) :
    ofDatum (.octets bytes) = .ok (whole .bytes bytes) := rfl

namespace CommandLine

open Procedure Session

section Message

variable {read : String → Except FileFlaw Octets} {source : Source} {bytes : Octets}
  {failure : Failure}

def Given.IsText (given : Given) : Prop := ∃ text, given = .text text

/-- A reader of files that finds a name impossible only for a character that no name may hold. -/
def IsReader (read : String → Except FileFlaw Octets) : Prop :=
  ∀ name, read name = .error .impossibleName → '\x00' ∈ name.toList

/-- A directory of files reads them so. -/
theorem Directory.isReader (directory : Directory) : IsReader directory.read := by
  intro name hread
  rw [Directory.read] at hread
  split at hread
  · next hcontains => exact List.contains_iff_mem.1 hcontains
  · -- Every other name is found, or not found for a reason that any name can have.
    repeat' split at hread
    all_goals cases hread

/-- A message that a text names is read, or why it is not read is a structured error. -/
theorem exists_fault_of_message (hreader : IsReader read) (hgiven : source.given.IsText)
    (hname : source.given.Lacks '\x00') (hmessage : message read source = .error failure) :
    ∃ f, failure = .fault f ∧ IsDocumented f := by
  obtain ⟨text, htext⟩ := hgiven
  cases source with
  | text given =>
    obtain rfl : given = .text text := htext
    cases hmessage
  | hex given =>
    obtain rfl : given = .text text := htext
    rw [message] at hmessage
    split at hmessage
    · cases hmessage
    · cases hmessage
      exact ⟨_, rfl, nofun⟩
  | file given =>
    obtain rfl : given = .text text := htext
    rw [message] at hmessage
    split at hmessage
    · cases hmessage
    · next hread => exact absurd (hreader text hread) hname
    · cases hmessage
      exact ⟨_, rfl, nofun⟩

end Message

section Digest

variable {read : String → Except FileFlaw Octets} {source : Source} {bytes : Octets}
  {algorithm : Digest.Algorithm} {session : Session} {settings : Native.Settings}

theorem fst_perform_digest (algorithm : Digest.Algorithm)
    (hmessage : message read source = .ok bytes) (session : Session) :
    ((perform read (.digest (some algorithm) source)).runOn session).1 =
      ((Intrinsics.digest algorithm (.octets bytes)).runOn session).1.map fun value =>
        (.object [("algo", .text algorithm.name), ("length", .number bytes.length),
          ("digest", .text (Hex.encode value.data))], 0) := by
  rw [perform, hmessage, runOn_demand_bind, fst_bind_pure]

theorem outcome_eq_map_digest (algorithm : Digest.Algorithm) (data : Datum) (session : Session) :
    (Intrinsic.digest algorithm data).outcome session =
      ((Intrinsics.digest algorithm data).runOn session).1.map
        (.datum <| .checksum algorithm.kind ·) :=
  fst_bind_pure _ _ _

/-- What a host is to blame for outside its own errors has a document. -/
theorem isDocumented_atBoundary (host : Host) (name : String) (kind : Stray) (text : String) :
    ∃ f : Fault, f.IsHostFault ∧ IsDocumented f ∧
      atBoundary host name (.stray kind text) = .fault f := by
  refine ⟨_, Fault.isHostFault_of _ _, ?_, rfl⟩
  exact List.forall_mem_cons.2 ⟨⟨_, rfl⟩, List.forall_mem_cons.2
    ⟨⟨_, rfl⟩, List.forall_mem_singleton.2 ⟨_, rfl⟩⟩⟩

theorem isDocumented_oversizeFault (settings : Native.Settings) (algorithm : Digest.Algorithm)
    (length : Int) : IsDocumented (Native.oversizeFault settings algorithm (.integer length)) :=
  List.forall_mem_cons.2 ⟨⟨_, rfl⟩, List.forall_mem_singleton.2 ⟨_, rfl⟩⟩

theorem map_injective {α β : Type} {make : α → β} (hmake : Function.Injective make) :
    Function.Injective (Except.map make : Except Failure α → Except Failure β) := by
  rintro (failure | value) (other | word) hsame
  · exact congrArg Except.error (Except.error.inj hsame)
  · cases hsame
  · cases hsame
  · exact congrArg Except.ok (hmake (Except.ok.inj hsame))

theorem fst_runOn_digest (hnative : session.IsNative settings) (algorithm : Digest.Algorithm)
    (bytes : Octets) :
    ((Intrinsics.digest algorithm (.octets bytes)).runOn session).1 =
      match Native.obstacle? settings algorithm (.whole .bytes bytes) with
      | none => .ok (algorithm.digest bytes)
      | some failure => .error (atBoundary session.host (Method.digest algorithm).name failure) := by
  have hmake : Function.Injective fun value : Checksum algorithm.kind =>
      Answer.datum (.checksum algorithm.kind value) := by
    intro value other hsame
    cases hsame
    rfl
  apply map_injective hmake
  rw [← outcome_eq_map_digest, Intrinsic.outcome_digest hnative (Message.ofDatum_octets bytes),
    Message.payload_whole]
  cases Native.obstacle? settings algorithm (.whole .bytes bytes) <;> rfl

/-- A digest on a native host is a value, or why there is none is a documented fault of the host. -/
theorem exists_fault_of_digest (hnative : session.IsNative settings) {failure : Failure}
    (hdigest : ((Intrinsics.digest algorithm (.octets bytes)).runOn session).1 = .error failure) :
    ∃ f : Fault, failure = .fault f ∧ f.IsHostFault ∧ IsDocumented f := by
  rw [fst_runOn_digest hnative] at hdigest
  obtain hnone | ⟨-, hsome⟩ | ⟨-, kind, hsome⟩ :=
    Native.obstacle?_cases settings algorithm (.whole .bytes bytes)
  · rw [hnone] at hdigest
    cases hdigest
  · rw [hsome, Datum.measure_of_plain rfl] at hdigest
    dsimp only at hdigest
    rw [atBoundary_of_passing _ _ (.inl rfl)] at hdigest
    cases hdigest
    exact ⟨_, rfl, Fault.isHostFault_of _ _, isDocumented_oversizeFault _ _ _⟩
  · rw [hsome] at hdigest
    obtain ⟨f, hhost, hdocumented, hfault⟩ := isDocumented_atBoundary session.host
      (Method.digest algorithm).name kind "*"
    cases hdigest
    exact ⟨f, hfault, hhost, hdocumented⟩

end Digest

section Verification

variable {read : String → Except FileFlaw Octets} {source : Source} {bytes : Octets}
  {session : Session} {settings : Native.Settings}

theorem fst_perform_verifyRsa (hmessage : message read source = .ok bytes)
    (sig exponent modulus : Given) (session : Session) :
    ((perform read (.verifyRsa source sig exponent modulus)).runOn session).1 =
      ((Intrinsics.verifyRsa (.octets bytes) sig.toDatum exponent.toDatum
        modulus.toDatum).runOn session).1.map fun valid =>
          (.object [("valid", .truth valid), ("length", .number bytes.length)],
            if valid then 0 else 1) := by
  rw [perform, hmessage, runOn_demand_bind, fst_bind_pure]

theorem outcome_eq_map_verifyRsa (data sig exponent modulus : Datum) (session : Session) :
    (Intrinsic.verifyRsa data sig exponent modulus).outcome session =
      ((Intrinsics.verifyRsa data sig exponent modulus).runOn session).1.map
        (.datum <| .truth ·) :=
  fst_bind_pure _ _ _

theorem request_of_texts (bytes : Octets) (sig exponent modulus : String) :
    (Intrinsic.verifyRsa (.octets bytes) (.text sig) (.text exponent) (.text modulus)).request =
      .ok (Intrinsic.crossing (.whole .bytes bytes) ++ Intrinsic.spelled (Octets.ofText sig) ++
        Intrinsic.spelled (Octets.ofText exponent) ++
        Intrinsic.spelled (Octets.ofText modulus)) := by
  rw [Intrinsic.request_verifyRsa (Message.ofDatum_octets bytes) rfl]
  rfl

/-- Three texts come to a verdict on a native host, or why there is none is a documented fault. -/
theorem exists_fault_of_verifyRsa (hnative : session.IsNative settings) {failure : Failure}
    {sig exponent modulus : String}
    (hverify : ((Intrinsics.verifyRsa (.octets bytes) (.text sig) (.text exponent)
      (.text modulus)).runOn session).1 = .error failure) :
    ∃ f : Fault, failure = .fault f ∧ IsDocumented f := by
  have houtcome := outcome_eq_map_verifyRsa (.octets bytes) (.text sig) (.text exponent)
    (.text modulus) session
  rw [hverify] at houtcome
  have hrequest := request_of_texts bytes sig exponent modulus
  cases hcap : settings.maxInputBytes.number? with
  | some cap =>
    obtain ⟨verdict, htold, -⟩ :=
      Intrinsic.exists_verdict_of_request rfl hrequest hcap hnative
    rw [htold] at houtcome
    cases houtcome
  | none =>
    -- With a cap that is no number the host cannot even tell whether the message is too long.
    have hanswer : session.answer .verifyRsa (Intrinsic.crossing (.whole .bytes bytes) ++
        Intrinsic.spelled (Octets.ofText sig) ++ Intrinsic.spelled (Octets.ofText exponent) ++
        Intrinsic.spelled (Octets.ofText modulus)) = .error .badType := by
      rw [hnative.answer]
      change (Native.verifyRsa settings _ _ _ _ _ _ _ _).map _ = _
      rw [Native.verifyRsa, Native.Settings.isBeyondCap_measure, hcap]
      rfl
    obtain ⟨f, hhost, hdocumented, hfault⟩ := isDocumented_atBoundary session.host
      Method.verifyRsa.name .type "*"
    rw [Intrinsic.outcome_of_ok hrequest hnative.ready, Intrinsic.method,
      returned_of_error hanswer, Intrinsic.runOn_conclude_verdict rfl, Failure.badType, hfault,
      Intrinsics.verdictOf, hhost.1] at houtcome
    cases houtcome
    exact ⟨f, rfl, hdocumented⟩

end Verification

end CommandLine

end CryptoIntrinsics
