import CryptoIntrinsics.Proofs.Intrinsics.Verification
import CryptoIntrinsics.Proofs.Native.Elision
import CryptoIntrinsics.Proofs.Session.Steady

namespace CryptoIntrinsics

def Policy.strictVarintVariable : String := "CONTRACT_CRYPTO_STRICT_VARINT"

theorem Policy.setting?_set_strictVarint (environment : Environment) (value : Option String)
    {name : String} (hname : name = "FAST_EVAL" ∨ name = "MAX_INPUT_BYTES") :
    setting? (environment.set strictVarintVariable value) name = setting? environment name := by
  have hother : "CONTRACT_CRYPTO_" ++ name ≠ strictVarintVariable ∧
      "CC_" ++ name ≠ strictVarintVariable := by
    obtain rfl | rfl := hname <;> decide
  rw [setting?, setting?, Environment.get?_set_of_ne hother.1, Environment.get?_set_of_ne hother.2]

namespace Native

theorem Settings.ofPolicy_set_strictVarint (environment : Environment) (value : Option String) :
    ofPolicy (.ofEnvironment (environment.set Policy.strictVarintVariable value)) =
      ofPolicy (.ofEnvironment environment) := by
  have hsetting {name : String} := @Policy.setting?_set_strictVarint environment value name
  simp only [ofPolicy, Policy.ofEnvironment, Policy.flag, Policy.cap, hsetting (.inl rfl),
    hsetting (.inr rfl)]

theorem under_verifyRsa (s : Settings) (arguments : List Datum) (one other : Policy) :
    (respond s .verifyRsa arguments).under one = (respond s .verifyRsa arguments).under other := by
  obtain _ | ⟨message, _ | ⟨messageLength, _ | ⟨sig, _ | ⟨sigLength, _ | ⟨exponent,
    _ | ⟨exponentLength, _ | ⟨modulus, _ | ⟨modulusLength, _ | ⟨extra, more⟩⟩⟩⟩⟩⟩⟩⟩⟩ := arguments
  all_goals rfl

end Native

namespace Intrinsic

open Procedure Session

section Outcome

variable {session twin : Session} {s : Native.Settings}

theorem recoverKey_of_ok {hash sig : Datum} {arguments : List Datum}
    (hrequest : (recoverKey hash sig).request = .ok arguments) :
    ∃ d t, Checksum.ofArgument .bits256 "digest" hash = .ok d ∧ sig = .signature t := by
  have hconveys := (recoverKey hash sig).checks_request.of_eq_ok hrequest
  rw [request] at hrequest
  obtain ⟨d, hhash, -⟩ := Checks.exists_of_bind_eq_ok hrequest
  cases hconveys with
  | recoverKey t => exact ⟨d, t, hhash, rfl⟩

theorem outcome_eq_of_asksVerdict {i : Intrinsic} (hasks : i.asksVerdict = true)
    (hone : session.IsNative s) (hother : twin.IsNative s) :
    i.outcome session = i.outcome twin := by
  cases hrequest : i.request with
  | error failure => rw [outcome_of_error hrequest, outcome_of_error hrequest]
  | ok arguments =>
    rw [outcome_of_ok hrequest hone.ready, outcome_of_ok hrequest hother.ready,
      runOn_conclude_verdict hasks, runOn_conclude_verdict hasks, method_of_asksVerdict hasks,
      returned, returned,
      hone.answer, hother.answer, hone.atBoundary_eq hother,
      Native.under_verifyRsa s arguments session.policyInForce twin.policyInForce]

/-- On native hosts with the same settings an operation ends alike, whatever the policies are. -/
theorem outcome_eq_of_isNative (i : Intrinsic) (hone : session.IsNative s)
    (hother : twin.IsNative s) : i.outcome session = i.outcome twin := by
  cases hrequest : i.request with
  | error failure => rw [outcome_of_error hrequest, outcome_of_error hrequest]
  | ok arguments =>
    cases i with
    | digest algorithm data =>
      obtain ⟨m, hdata⟩ : ∃ m, Message.ofDatum data = .ok m := by
        cases hmessage : Message.ofDatum data with
        | ok m => exact ⟨m, rfl⟩
        | error failure =>
          rw [request, hmessage] at hrequest
          cases hrequest
      rw [outcome_digest hone hdata, outcome_digest hother hdata, hone.atBoundary_eq hother]
    | assertDigest algorithm data expected =>
      obtain ⟨c, m, hexpected, hdata⟩ := assertDigest_of_ok hrequest
      rw [outcome_assertDigest hone hdata hexpected, outcome_assertDigest hother hdata hexpected,
        hone.atBoundary_eq hother]
    -- The signature and the key cross the boundary as they are written, which both policies read.
    | recoverKey hash sig =>
      obtain ⟨d, t, hhash, rfl⟩ := recoverKey_of_ok hrequest
      rw [outcome_recoverKey hone hhash, outcome_recoverKey hother hhash]
    | assertRecoverKey hash sig expected =>
      obtain ⟨d, t, k, hhash, rfl, rfl⟩ := assertRecoverKey_of_ok hrequest
      rw [outcome_assertRecoverKey hone hhash, outcome_assertRecoverKey hother hhash,
        hone.atBoundary_eq hother]
    | verifyRsa | verifyRsaRaw => exact outcome_eq_of_asksVerdict rfl hone hother

theorem map_fst_outcomes_eq (calls : List Intrinsic) (hone : session.IsNative s)
    (hother : twin.IsNative s) :
    (Step.outcomes (steps calls) session).map Prod.fst =
      (Step.outcomes (steps calls) twin).map Prod.fst := by
  induction calls generalizing session twin with
  | nil => rfl
  | cons i calls ih =>
    have hstep := i.outcome_eq_of_isNative hone hother
    exact congrArg₂ List.cons hstep (ih (isNative_run hone i) (isNative_run hother i))

end Outcome

theorem isNative_node {host : Option Host}
    (hhost : ∀ installed ∈ host, ∃ serial label s, installed = Native.hostNumbered serial label s)
    (environment : Environment) :
    ∃ s, ∀ value,
      (fresh (environment.set Policy.strictVarintVariable value) host).IsNative s := by
  cases host with
  | none =>
    refine ⟨.ofPolicy (.ofEnvironment environment), fun value => ?_⟩
    rw [← Native.Settings.ofPolicy_set_strictVarint environment value]
    exact isNative_of_none rfl
  | some installed =>
    obtain ⟨serial, label, s, hinstalled⟩ := hhost installed rfl
    exact ⟨s, fun _ => ⟨serial, label, hinstalled⟩⟩

/-- Operations one after the other, with any arguments, end alike on native hosts with the same
    settings, whatever policies are in force. So they do on nodes with the same native host, or with
    none so far, whose environments differ only in what they say about padded integers. -/
theorem runAll_indistinguishable (calls : List Intrinsic) :
    (∀ (session twin : Session) (s : Native.Settings), session.IsNative s → twin.IsNative s →
      ∃ ended others, ((Step.runAll (steps calls)).runOn session).1 = .ok ended ∧
        ((Step.runAll (steps calls)).runOn twin).1 = .ok others ∧
        ended.map Prod.fst = others.map Prod.fst) ∧
    ∀ (environment : Environment) (one other : Option String) (host : Option Host),
      (∀ installed ∈ host, ∃ serial label s, installed = Native.hostNumbered serial label s) →
      let node (value : Option String) : Session :=
        fresh (environment.set Policy.strictVarintVariable value) host
      ∃ ended others, ((Step.runAll (steps calls)).runOn (node one)).1 = .ok ended ∧
        ((Step.runAll (steps calls)).runOn (node other)).1 = .ok others ∧
        ended.map Prod.fst = others.map Prod.fst := by
  have hruns {session twin : Session} {s : Native.Settings} (hone : session.IsNative s)
      (hother : twin.IsNative s) :
      ∃ ended others, ((Step.runAll (steps calls)).runOn session).1 = .ok ended ∧
        ((Step.runAll (steps calls)).runOn twin).1 = .ok others ∧
        ended.map Prod.fst = others.map Prod.fst := by
    refine ⟨_, _, ?_, ?_, map_fst_outcomes_eq calls hone hother⟩
    · rw [Step.runOn_runAll]
    · rw [Step.runOn_runAll]
  refine ⟨fun session twin s => hruns, ?_⟩
  intro environment one other host hhost node
  obtain ⟨s, hnative⟩ := isNative_node hhost environment
  exact hruns (hnative one) (hnative other)

/-- A signature whose tag takes two bytes is no malformed one on either node, but one of a curve
    that is not supported. -/
theorem runAll_indistinguishable_tagged :
    let hash : Datum := .octets (List.replicate 32 0)
    let s : Signature := ⟨200, List.replicate 65 0, by decide, by decide⟩
    let calls := [recoverKey hash (.signature s), digest .sha1 (.text "abc")]
    let node (value : String) : Session :=
      fresh (Environment.empty.set Policy.strictVarintVariable (some value)) none
    (node "on").policyInForce.strictVarint = true ∧
      (node "off").policyInForce.strictVarint = false ∧
      (recoverKey hash (.signature s)).outcome (node "on") =
        .error (.fault (Recovery.Flaw.unsupportedTag 200).fault) ∧
      ∃ ended others, ((Step.runAll (steps calls)).runOn (node "on")).1 = .ok ended ∧
        ((Step.runAll (steps calls)).runOn (node "off")).1 = .ok others ∧
        ended.map Prod.fst = others.map Prod.fst := by
  intro hash s calls node
  have hhash : Checksum.ofArgument .bits256 "digest" hash = .ok (.zero .bits256) := rfl
  have hsolve : Recovery.solve (Checksum.zero .bits256).data s =
      .error (.unsupportedTag 200) := rfl
  refine ⟨by decide, by decide, ?_, ?_⟩
  · rw [outcome_recoverKey (isNative_of_none rfl) hhash, Recovery.key_of_error hsolve]
  · obtain ⟨-, hnodes⟩ := runAll_indistinguishable calls
    exact hnodes .empty (some "on") (some "off") none nofun

end Intrinsic

end CryptoIntrinsics
