import CryptoIntrinsics.Proofs.Native.Payload
import CryptoIntrinsics.Proofs.Session.Loading
import Mathlib.Data.List.DropRight

namespace CryptoIntrinsics

/-- A session that remembers a policy, in an environment that may ask for another. -/
def Session.under (policy : Policy) (environment : Environment) (active : Option Host) : Session :=
  { fresh environment active with policy := some policy }

theorem Session.alike_under (session : Session) (environment : Environment) :
    session.Alike (under session.policyInForce environment session.active) := ⟨rfl, rfl⟩

/-- What an operation does by a policy: it tells it, it reads what is encoded by it where it was not
    said how, it makes a host by it, and otherwise it ends as it does wherever it is remembered. -/
structure Operation.GoesBy (operation : Operation) (session : Session) (policy : Policy) :
    Prop where
  told : operation = .policy → (operation.run.runOn session).1 = .ok (.policy policy)
  decoded : ∀ answer, operation.decoded? policy.strictVarint = some answer →
    (operation.run.runOn session).1 = answer
  made : ∀ label, operation = .installHost (.byPolicy label) →
    ∃ serial, (operation.run.runOn session).2.active =
      some (Native.hostNumbered serial label (.ofPolicy policy))
  answered : operation.setsUp = false → ∀ environment,
    (operation.run.runOn session).1 =
      (operation.run.runOn (.under policy environment session.active)).1

theorem Operation.goesBy_policyInForce (operation : Operation) (session : Session) :
    operation.GoesBy session session.policyInForce where
  told := by
    rintro rfl
    rw [run, Procedure.fst_bind_pure, Session.runOn_currentPolicy]
    rfl
  decoded _ := run_of_decoded
  made := by
    rintro label rfl
    have hcomplete (serial : Nat) :
        (Native.hostNumbered serial label (.ofPolicy session.policyInForce)).isComplete = true :=
      Native.isComplete_host label _
    refine ⟨session.made + 1, ?_⟩
    rw [runOn_installHost, hostOf, Procedure.runOn_bind, Session.runOn_currentPolicy]
    exact congrArg (fun entry : Except Failure Answer × Session => entry.2.active)
      (if_pos (hcomplete (session.made + 1)))
  answered hcall environment := (steady_run hcall).congr (session.alike_under environment)

namespace Step

open Procedure Session

namespace Moment

def forgets (moment : Moment) : Bool :=
  match moment.deed with
  | .performs operation => operation.forgets
  | .restores _ => false

def asks (moment : Moment) : Bool :=
  match moment.deed with
  | .performs operation => operation.asks moment.session
  | .restores _ => false

/-- Whether it is said which host is active, if any, and not in vain. -/
def replaces (moment : Moment) : Bool :=
  match moment.deed with
  | .performs operation => operation.replaces && (operation.run.runOn moment.session).1.isOk
  | .restores _ => true

theorem policy_later (moment : Moment) :
    moment.later.policy =
      if moment.forgets then none else moment.session.recalling moment.asks := by
  obtain ⟨session, deed⟩ := moment
  cases deed with
  | restores previous => rfl
  | performs operation =>
    rw [later, forgets, asks]
    dsimp only
    by_cases hforgets : operation.forgets = true
    · rw [if_pos hforgets]
      cases operation with
      | forgetPolicy => rfl
      | _ => cases hforgets
    · rw [if_neg hforgets]
      exact operation.policy_run (Bool.eq_false_iff.2 hforgets) session

theorem active_later {moment : Moment} (hkeeps : moment.replaces = false) :
    moment.later.active = moment.session.active ∨
      moment.session.active = none ∧ moment.later.active = some moment.session.host := by
  obtain ⟨session, deed⟩ := moment
  cases deed with
  | restores previous => cases hkeeps
  | performs operation =>
    cases hreplaces : operation.replaces with
    | false => exact Operation.active_run hreplaces session
    | true =>
      left
      cases operation with
      | dismissHost => cases hkeeps
      | installHost source =>
        change ((Operation.installHost source).run.runOn session).1.isOk = false at hkeeps
        obtain ⟨hok, -⟩ | ⟨-, hsame⟩ := Operation.active_installHost source session
        · rw [hkeeps] at hok
          cases hok
        · exact hsame
      | _ => cases hreplaces

end Moment

/-- The environment as it was when the policy was first asked for after it was last forgotten, if it
    was asked for since. -/
def snapshot? (before : List Moment) : Option Environment :=
  ((before.rtakeWhile fun moment => !moment.forgets).find? Moment.asks).map fun moment =>
    moment.session.environment

/-- The policy in effect: that of the snapshot or, if none was taken, the one of now. -/
def inEffect (before : List Moment) (session : Session) : Policy :=
  .ofEnvironment ((snapshot? before).getD session.environment)

theorem snapshot?_concat (before : List Moment) (moment : Moment) :
    snapshot? (before ++ [moment]) =
      if moment.forgets then none
      else
        (snapshot? before).or (if moment.asks then some moment.session.environment else none) := by
  rw [snapshot?, List.rtakeWhile_concat]
  cases moment.forgets with
  | true => rfl
  | false =>
    simp only [Bool.not_false, if_true, Bool.false_eq_true, if_false]
    rw [List.find?_append, Option.map_or, ← snapshot?, List.find?_singleton]
    cases moment.asks <;> rfl

section Follow

variable {environment : Environment} {before : List Moment} {session : Session}

/-- What is remembered is the policy of the snapshot. -/
theorem policy_eq_snapshot (hfollow : Follow (fresh environment none) before session) :
    session.policy = (snapshot? before).map .ofEnvironment := by
  induction before using List.reverseRecOn generalizing session with
  | nil =>
    rw [hfollow.eq_of_nil]
    rfl
  | append_singleton before moment ih =>
    obtain ⟨hbefore, hlast⟩ := hfollow.of_append_cons
    have hpolicy := ih hbefore
    rw [hlast.eq_of_nil, moment.policy_later, snapshot?_concat]
    cases moment.forgets with
    | true => rfl
    | false =>
      simp only [Bool.false_eq_true, if_false, recalling, policyInForce, hpolicy]
      cases moment.asks <;> cases snapshot? before <;> rfl

theorem policyInForce_eq_inEffect (hfollow : Follow (fresh environment none) before session) :
    session.policyInForce = inEffect before session := by
  rw [policyInForce, policy_eq_snapshot hfollow, inEffect]
  cases snapshot? before <;> rfl

end Follow

/-- An active host stays so through moments that do not say which host is active. -/
theorem Follow.active_eq {moments : List Moment} {session last : Session} {host : Host}
    (hfollow : Follow session moments last)
    (hkeeps : ∀ moment ∈ moments, moment.replaces = false) (hactive : session.active = some host) :
    ∀ moment ∈ moments, moment.session.active = some host ∧ moment.later.active = some host := by
  induction hfollow with
  | nil => exact List.forall_mem_nil _
  | cons moment _ ih =>
    rw [List.forall_mem_cons] at hkeeps
    have hlater : moment.later.active = some host := by
      obtain hsame | ⟨hnone, -⟩ := Moment.active_later hkeeps.1
      · exact hsame.trans hactive
      · rw [hactive] at hnone
        cases hnone
    exact List.forall_mem_cons.2 ⟨⟨hactive, hlater⟩, ih hkeeps.2 hlater⟩

/-- Whatever is done one after the other in a session, every operation goes by the policy of the
    snapshot, or of the environment as it is if none was taken. A native host that comes to be
    active without being installed has the flag and the cap of this policy, and it stays the active
    host until it is said which other host is, or that none is. -/
theorem goesBy_inEffect {environment : Environment} {steps : List Step}
    {before after : List Moment} {moment : Moment}
    (hmoments : momentsIn false steps (fresh environment none) = before ++ moment :: after) :
    let policy := inEffect before moment.session
    (∀ operation : Operation, operation.GoesBy moment.session policy) ∧
    (moment.replaces = false → moment.session.active = none → moment.later.active ≠ none →
      moment.later.active =
        some (Native.host none ⟨.truth policy.fastEval, .integer policy.maxInputBytes⟩) ∧
      ∀ between, between <+: after → (∀ next ∈ between, next.replaces = false) →
        ∀ next ∈ between, next.session.active = moment.later.active ∧
          next.later.active = moment.later.active) := by
  intro policy
  have hfollow := follow_all steps (fresh environment none)
  rw [hmoments] at hfollow
  obtain ⟨hbefore, hafter⟩ := hfollow.of_append_cons
  have hpolicy : moment.session.policyInForce = policy := policyInForce_eq_inEffect hbefore
  refine ⟨?_, ?_⟩
  · intro operation
    rw [← hpolicy]
    exact operation.goesBy_policyInForce moment.session
  · intro hkeeps hnone hbuilt
    have hlater : moment.later.active = some moment.session.host := by
      obtain hsame | ⟨-, hhost⟩ := Moment.active_later hkeeps
      · exact absurd (hsame.trans hnone) hbuilt
      · exact hhost
    have hhost : moment.session.host = Native.host none (.ofPolicy policy) := by
      rw [host, hnone, hpolicy]
      rfl
    refine ⟨hlater.trans (congrArg some hhost), ?_⟩
    rintro between ⟨rest, rfl⟩ hkept
    obtain ⟨_, hbetween, -⟩ := hafter.exists_of_append
    rw [hlater]
    exact hbetween.active_eq hkept hlater

/-- The flag is on when the policy is first asked for, and off when a digest is. The host that is
    made for the digest elides assertions all the same, also after the policy was forgotten and asked
    for again. -/
theorem goesBy_inEffect_digest :
    let flag (value : String) : Operation :=
      .setVariables [("CONTRACT_CRYPTO_FAST_EVAL", some value)]
    let call : Operation := .digest .sha1 (.text "abc")
    let steps := [flag "1", .policy, flag "0", call, .forgetPolicy, .policy].map perform
    let found (n : Nat) (operation : Operation) : Moment :=
      ⟨afterAll (steps.take n) (fresh .empty none), .performs operation⟩
    let before := [found 0 (flag "1"), found 1 .policy, found 2 (flag "0")]
    let after := [found 4 .forgetPolicy, found 5 .policy]
    momentsIn false steps (fresh .empty none) = before ++ found 3 call :: after ∧
      (Policy.ofEnvironment (found 3 call).session.environment).fastEval = false ∧
      (found 3 call).later.active = some (Native.host none ⟨.truth true, .integer 1048576⟩) ∧
      (∀ next ∈ after, next.later.active = (found 3 call).later.active) ∧
      ((call.run.runOn (found 3 call).session).1 =
        (call.run.runOn (.under ⟨true, 1048576, true⟩ .empty none)).1) := by
  intro flag call steps found before after
  have hmoments : momentsIn false steps (fresh .empty none) =
      before ++ found 3 call :: after := rfl
  have hpolicy : inEffect before (found 3 call).session = ⟨true, 1048576, true⟩ := by decide
  obtain ⟨hgoesBy, hlasts⟩ := goesBy_inEffect hmoments
  rw [hpolicy] at hgoesBy hlasts
  obtain ⟨hhost, hkept⟩ := hlasts rfl rfl nofun
  have hafter := hkept after (List.prefix_refl after) (by
    simp only [after, List.forall_mem_cons]
    exact ⟨rfl, rfl, List.forall_mem_nil _⟩)
  exact ⟨hmoments, by decide, hhost, fun next hnext => (hafter next hnext).2,
    (hgoesBy call).answered rfl .empty⟩

end Step

end CryptoIntrinsics
