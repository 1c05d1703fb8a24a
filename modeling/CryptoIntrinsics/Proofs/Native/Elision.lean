import CryptoIntrinsics.Proofs.Native.Recovery
import CryptoIntrinsics.Proofs.Session.Trace

namespace CryptoIntrinsics

def Method.isAssertion : Method → Bool
  | assertDigest _ | assertRecoverKey => true
  | digest _ | recoverKey | verifyRsa => false

namespace Native

/-- Settings with the same cap, of which the first elide assertions and the second do not. -/
structure Settings.Hastens (fast slow : Settings) : Prop where
  elides : fast.fastEval.truth? = some true
  asserts : slow.fastEval.truth? = some false
  maxInputBytes_eq : fast.maxInputBytes = slow.maxInputBytes

theorem respond_congr {s t : Settings} (hcap : s.maxInputBytes = t.maxInputBytes) {m : Method}
    (hother : m.isAssertion = false) (arguments : List Datum) :
    respond s m arguments = respond t m arguments := by
  obtain ⟨flag, cap⟩ := s
  obtain ⟨other, _⟩ := t
  obtain rfl : cap = _ := hcap
  -- A call with a wrong number of arguments is refused whatever the settings are.
  cases m with
  | digest algorithm =>
    obtain _ | ⟨data, _ | ⟨length, _ | ⟨extra, more⟩⟩⟩ := arguments <;> rfl
  | assertDigest algorithm => cases hother
  | recoverKey => obtain _ | ⟨hash, _ | ⟨sig, _ | ⟨extra, more⟩⟩⟩ := arguments <;> rfl
  | assertRecoverKey => cases hother
  | verifyRsa =>
    obtain _ | ⟨message, _ | ⟨messageLength, _ | ⟨sig, _ | ⟨sigLength, _ | ⟨exponent,
      _ | ⟨exponentLength, _ | ⟨modulus, _ | ⟨modulusLength, _ | ⟨extra, more⟩⟩⟩⟩⟩⟩⟩⟩⟩ := arguments
    all_goals rfl

end Native

namespace Session

/-- Two sessions under the same policy, whose next calls reach native hosts with the settings. -/
structure Twins (session twin : Session) (slow fast : Native.Settings) : Prop where
  slow : session.IsNative slow
  fast : twin.IsNative fast
  policy_eq : session.policyInForce = twin.policyInForce

theorem IsNative.className_host {session : Session} {s : Native.Settings}
    (hnative : session.IsNative s) : session.host.className = "NativeHost" := by
  obtain ⟨serial, label, hhost⟩ := hnative
  rw [hhost]
  rfl

/-- The class is all that a failure tells of the host it came from. -/
theorem IsNative.atBoundary_eq {session twin : Session} {s t : Native.Settings}
    (hone : session.IsNative s) (hother : twin.IsNative t) (name : String) :
    atBoundary session.host name = atBoundary twin.host name := by
  funext failure
  simp only [atBoundary, hone.className_host, hother.className_host]

variable {session twin : Session} {slow fast : Native.Settings}

theorem Twins.returned_eq (htwins : session.Twins twin slow fast) (hhastens : fast.Hastens slow)
    {m : Method} (hother : m.isAssertion = false) (arguments : List Datum) :
    session.returned m arguments = twin.returned m arguments := by
  have hboundary := htwins.slow.atBoundary_eq htwins.fast m.name
  rw [returned, returned, hboundary, htwins.slow.answer, htwins.fast.answer, htwins.policy_eq,
    Native.respond_congr hhastens.maxInputBytes_eq hother]

end Session

namespace Intrinsic

open Procedure Session

/-- How an operation ends on a native host that elides no assertion, and how it ends on one that
    elides them all. -/
inductive Spares (i : Intrinsic) : Except Failure Answer → Except Failure Answer → Prop where
  /-- What asserts nothing ends alike. -/
  | same (hother : i.method.isAssertion = false) (outcome : Except Failure Answer) :
      Spares i outcome outcome
  /-- The arguments of an assertion are rejected alike. -/
  | rejected (hasserts : i.method.isAssertion = true) {failure}
      (hrequest : i.request = .error failure) (hrejection : failure.IsRejection) :
      Spares i (.error failure) (.error failure)
  /-- An assertion that passes is silent anyway. -/
  | passed (hasserts : i.method.isAssertion = true) {arguments}
      (hrequest : i.request = .ok arguments) :
      Spares i (.ok (.datum .nothing)) (.ok (.datum .nothing))
  /-- One that fails, which is fatal, is silent where it is elided. -/
  | elided (hasserts : i.method.isAssertion = true) {arguments}
      (hrequest : i.request = .ok arguments) {f : Fault} (hfatal : f.isFatal = true) :
      Spares i (.error (.fault f)) (.ok (.datum .nothing))

section Step

variable {session twin : Session} {slow fast : Native.Settings}

theorem twins_run (i : Intrinsic) (htwins : session.Twins twin slow fast) :
    (i.operation.run.runOn session).2.Twins (i.operation.run.runOn twin).2 slow fast where
  slow := isNative_run htwins.slow i
  fast := isNative_run htwins.fast i
  policy_eq := by
    rw [i.policyInForce_run htwins.slow.ready, i.policyInForce_run htwins.fast.ready,
      htwins.policy_eq]

theorem outcome_eq_of_twins {i : Intrinsic} (htwins : session.Twins twin slow fast)
    (hhastens : fast.Hastens slow) (hother : i.method.isAssertion = false) :
    i.outcome session = i.outcome twin := by
  cases hrequest : i.request with
  | error failure => rw [outcome_of_error hrequest, outcome_of_error hrequest]
  | ok arguments =>
    rw [outcome_of_ok hrequest htwins.slow.ready, outcome_of_ok hrequest htwins.fast.ready,
      htwins.returned_eq hhastens hother]
    apply conclude_congr
    rw [policyInForce_called, policyInForce_called, htwins.policy_eq]

theorem assertDigest_of_ok {algorithm : Digest.Algorithm} {data expected : Datum}
    {arguments : List Datum}
    (hrequest : (assertDigest algorithm data expected).request = .ok arguments) :
    ∃ c m, Checksum.ofArgument algorithm.kind "expected" expected = .ok c ∧
      Message.ofDatum data = .ok m := by
  rw [request] at hrequest
  obtain ⟨c, hexpected, hrequest⟩ := Checks.exists_of_bind_eq_ok hrequest
  obtain ⟨m, hdata, -⟩ := Checks.exists_of_bind_eq_ok hrequest
  exact ⟨c, m, hexpected, hdata⟩

theorem assertRecoverKey_of_ok {hash sig expected : Datum} {arguments : List Datum}
    (hrequest : (assertRecoverKey hash sig expected).request = .ok arguments) :
    ∃ d s k, Checksum.ofArgument .bits256 "digest" hash = .ok d ∧ sig = .signature s ∧
      expected = .publicKey k := by
  have hconveys := (assertRecoverKey hash sig expected).checks_request.of_eq_ok hrequest
  rw [request] at hrequest
  obtain ⟨d, hhash, -⟩ := Checks.exists_of_bind_eq_ok hrequest
  cases hconveys with
  | assertRecoverKey s k => exact ⟨d, s, k, hhash, rfl, rfl⟩

theorem passes_or_aborts_assertDigest {algorithm : Digest.Algorithm} {data expected : Datum}
    {m : Message} {c : Checksum algorithm.kind} (hnative : session.IsNative slow)
    (hasserts : slow.fastEval.truth? = some false) (hdata : Message.ofDatum data = .ok m)
    (hexpected : Checksum.ofArgument algorithm.kind "expected" expected = .ok c) :
    (assertDigest algorithm data expected).outcome session = .ok (.datum .nothing) ∨
      ∃ f, (assertDigest algorithm data expected).outcome session = .error (.fault f) ∧
        f.isFatal = true := by
  rw [outcome_assertDigest hnative hdata hexpected, Native.Settings.elides_of_truth? hasserts]
  cases hobstacle : Native.obstacle? slow algorithm m with
  | none =>
    by_cases hsame : algorithm.hash m.payload = c.data
    · exact .inl (if_pos hsame)
    · exact .inr ⟨_, if_neg hsame, rfl⟩
  | some failure =>
    obtain ⟨d, hd, hblamed⟩ := Native.atBoundary_of_obstacle? session.host
      (Method.assertDigest algorithm).name hobstacle
    exact .inr ⟨d, congrArg Except.error hblamed, hd.isFatal⟩

theorem passes_or_aborts_assertRecoverKey {hash : Datum} {d : Checksum .bits256}
    (hnative : session.IsNative slow) (hasserts : slow.fastEval.truth? = some false)
    (hhash : Checksum.ofArgument .bits256 "digest" hash = .ok d) (s : Signature) (k : PublicKey) :
    (assertRecoverKey hash (.signature s) (.publicKey k)).outcome session =
        .ok (.datum .nothing) ∨
      ∃ f, (assertRecoverKey hash (.signature s) (.publicKey k)).outcome session =
        .error (.fault f) ∧ f.isFatal = true := by
  rw [outcome_assertRecoverKey hnative hhash, Native.Settings.elides_of_truth? hasserts]
  dsimp only
  cases Recovery.key d.data s with
  | error flaw => exact .inr ⟨_, rfl, flaw.isFatal_fault⟩
  | ok r =>
    by_cases hsame : r = k
    · exact .inl (if_pos hsame)
    · exact .inr ⟨_, if_neg hsame, rfl⟩

/-- An assertion that is made is silent where it is elided, and elsewhere it passes or fails
    fatally. -/
theorem silent_and_passes_or_aborts {i : Intrinsic} {arguments : List Datum}
    (htwins : session.Twins twin slow fast) (hhastens : fast.Hastens slow)
    (hasserts : i.method.isAssertion = true) (hrequest : i.request = .ok arguments) :
    i.outcome twin = .ok (.datum .nothing) ∧
      (i.outcome session = .ok (.datum .nothing) ∨
        ∃ f, i.outcome session = .error (.fault f) ∧ f.isFatal = true) := by
  cases i with
  | assertDigest algorithm data expected =>
    obtain ⟨c, m, hexpected, hdata⟩ := assertDigest_of_ok hrequest
    refine ⟨?_, passes_or_aborts_assertDigest htwins.slow hhastens.asserts hdata hexpected⟩
    rw [outcome_assertDigest htwins.fast hdata hexpected,
      Native.Settings.elides_of_truth? hhastens.elides]
  | assertRecoverKey hash sig expected =>
    obtain ⟨d, s, k, hhash, rfl, rfl⟩ := assertRecoverKey_of_ok hrequest
    refine ⟨?_, passes_or_aborts_assertRecoverKey htwins.slow hhastens.asserts hhash s k⟩
    rw [outcome_assertRecoverKey htwins.fast hhash,
      Native.Settings.elides_of_truth? hhastens.elides]
  | _ => cases hasserts

theorem spares_run (i : Intrinsic) (htwins : session.Twins twin slow fast)
    (hhastens : fast.Hastens slow) : i.Spares (i.outcome session) (i.outcome twin) := by
  cases hasserts : i.method.isAssertion with
  | false =>
    rw [outcome_eq_of_twins htwins hhastens hasserts]
    exact .same hasserts _
  | true =>
    cases hrequest : i.request with
    | error failure =>
      have hrejection : failure.IsRejection := by
        have hchecks := i.checks_request
        rwa [hrequest] at hchecks
      rw [outcome_of_error hrequest, outcome_of_error hrequest]
      exact .rejected hasserts hrequest hrejection
    | ok arguments =>
      -- Only an assertion that is made looks at the flag, after its arguments have been checked.
      obtain ⟨hfast, hslow⟩ := silent_and_passes_or_aborts htwins hhastens hasserts hrequest
      rw [hfast]
      obtain hslow | ⟨f, hslow, hfatal⟩ := hslow
      · rw [hslow]
        exact .passed hasserts hrequest
      · rw [hslow]
        exact .elided hasserts hrequest hfatal

/-- The operations of a run, each with how it ended on the one host and on the other. Which host is
    active behind it makes no difference. -/
inductive SparesEach : List Intrinsic → List (Except Failure Answer × Standing) →
    List (Except Failure Answer × Standing) → Prop where
  | nil : SparesEach [] [] []
  | cons {i : Intrinsic} {calls} {slowly quickly : Except Failure Answer} {rest others} (here there)
      (hstep : i.Spares slowly quickly) (hrest : SparesEach calls rest others) :
      SparesEach (i :: calls) ((slowly, here) :: rest) ((quickly, there) :: others)

def steps (calls : List Intrinsic) : List Step := calls.map fun i => .perform i.operation

theorem sparesEach_outcomes (calls : List Intrinsic) (htwins : session.Twins twin slow fast)
    (hhastens : fast.Hastens slow) :
    SparesEach calls (Step.outcomes (steps calls) session)
      (Step.outcomes (steps calls) twin) := by
  -- However a step ends, also when an assertion of it fails on one host only, it leaves twins.
  induction calls generalizing session twin with
  | nil => exact .nil
  | cons i calls ih => exact .cons _ _ (spares_run i htwins hhastens) (ih (twins_run i htwins))

end Step

/-- A run of any operations with any arguments, on a native host that elides no assertion and again
    on one with the same cap that elides them all: every step that asserts nothing ends alike, every
    assertion with rejected arguments fails alike, and every other one is silent on the second host
    and passes or fails fatally on the first. -/
theorem sparesEach_runAll (calls : List Intrinsic) {session twin : Session}
    {slow fast : Native.Settings} (htwins : session.Twins twin slow fast)
    (hhastens : fast.Hastens slow) :
    ∃ slowly quickly, ((Step.runAll (steps calls)).runOn session).1 = .ok slowly ∧
      ((Step.runAll (steps calls)).runOn twin).1 = .ok quickly ∧
      SparesEach calls slowly quickly := by
  refine ⟨_, _, ?_, ?_, sparesEach_outcomes calls htwins hhastens⟩
  · rw [Step.runOn_runAll]
  · rw [Step.runOn_runAll]

/-- Hosts that take two bytes of a message at most. An assertion about three fails on the one of
    them that makes it; their digest, computed next, fails on both. -/
theorem sparesEach_runAll_capped :
    let slow : Native.Settings := .ofCap false 2
    let fast : Native.Settings := .ofCap true 2
    let session : Session :=
      { Session.start with active := some (Native.hostNumbered 7 (some "slow") slow) }
    let twin : Session :=
      { Session.start with active := some (Native.hostNumbered 9 (some "fast") fast) }
    let asserted := assertDigest .sha1 (.text "abc") (.octets (List.replicate 20 0))
    let calls := [asserted, digest .sha1 (.text "abc")]
    session.Twins twin slow fast ∧ fast.Hastens slow ∧
      asserted.outcome session ≠ asserted.outcome twin ∧
      ∃ slowly quickly, ((Step.runAll (steps calls)).runOn session).1 = .ok slowly ∧
        ((Step.runAll (steps calls)).runOn twin).1 = .ok quickly ∧
        SparesEach calls slowly quickly := by
  intro slow fast session twin asserted calls
  have hslow : session.IsNative slow := ⟨7, some "slow", rfl⟩
  have hfast : twin.IsNative fast := ⟨9, some "fast", rfl⟩
  have htwins : session.Twins twin slow fast := ⟨hslow, hfast, rfl⟩
  have hhastens : fast.Hastens slow := ⟨rfl, rfl, rfl⟩
  have hexpected : Checksum.ofArgument Digest.Algorithm.sha1.kind "expected"
      (.octets (List.replicate 20 0)) = .ok (.zero .bits160) := rfl
  have hmade : asserted.outcome session =
      .error (.fault (Native.oversizeFault slow .sha1 (.integer 3))) := by
    rw [outcome_assertDigest hslow rfl hexpected]
    rfl
  have helided : asserted.outcome twin = .ok (.datum .nothing) := by
    rw [outcome_assertDigest hfast rfl hexpected]
    rfl
  refine ⟨htwins, hhastens, ?_, sparesEach_runAll calls htwins hhastens⟩
  rw [hmade, helided]
  nofun

end Intrinsic

end CryptoIntrinsics
