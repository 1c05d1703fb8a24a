import CryptoIntrinsics.Proofs.Session.Boundary
import CryptoIntrinsics.Proofs.Session.Trace

namespace CryptoIntrinsics

namespace Session

open Procedure

def activating (session : Session) (host : Option Host) : Session := { session with active := host }

theorem runOn_install (host : Host) (session : Session) :
    (install host).runOn session =
      if host.isComplete then (.ok ⟨⟩, session.activating (some host))
      else (.error (.misuse (.hostIncomplete host.missing)), session) := by
  rw [install]
  split <;> rfl

/-- The failure of a procedure under another host is seen only after the active host is restored. -/
theorem runOn_within {α : Type} (host : Host) (procedure : Procedure α) (session : Session) :
    (within host procedure).runOn session =
      if host.isComplete then
        ((procedure.runOn (session.activating (some host))).1,
          (procedure.runOn (session.activating (some host))).2.activating session.active)
      else (.error (.misuse (.hostIncomplete host.missing)), session) := by
  rw [within, runOn_bind, runOn_get]
  dsimp only
  rw [runOn_bind, runOn_install]
  by_cases hcomplete : host.isComplete = true
  · simp only [if_pos hcomplete]
    rw [runOn_bind, runOn_attempt]
    dsimp only
    rw [runOn_bind, runOn_modify]
    exact runOn_demand _ _
  · simp only [if_neg hcomplete]

end Session

namespace Step

open Procedure Session

/-- Making a host, or finding one by its name, makes none active. -/
theorem active_hostOf (source : HostSource) (session : Session) :
    ((Operation.hostOf source).runOn session).2.active = session.active := by
  cases source with
  | fresh host => rfl
  | byPolicy label =>
    rw [Operation.hostOf, runOn_bind, runOn_currentPolicy]
    rfl
  | named label =>
    rw [Operation.hostOf, runOn_bind, runOn_get]
    dsimp only
    cases session.roster.lookup label <;> rfl

/-- The steps of a body: when strictly, the first failure ends them and is the failure of all. -/
def together (body : List Step) (strictly : Bool) : Procedure Answer :=
  if strictly then do return .answers (← runStrictly body)
  else do return .outcomes (← runAll body)

/-- How the steps of a body come to an end, and the session that they leave. -/
inductive Ends (body : List Step) (session : Session) :
    Bool → Except Failure Answer → Session → Prop where
  | strictly {ended last} (hleaves : Leaves body session ended last) :
      Ends body session true (ended.map .answers) last
  | loosely :
      Ends body session false (.ok (.outcomes (outcomes body session))) (afterAll body session)

theorem ends_together (body : List Step) (strictly : Bool) (session : Session) :
    Ends body session strictly ((together body strictly).runOn session).1
      ((together body strictly).runOn session).2 := by
  cases strictly with
  | false =>
    simp only [together, Bool.false_eq_true, if_false]
    rw [runOn_bind, runOn_runAll]
    exact .loosely
  | true =>
    have hends := Ends.strictly (leaves_runStrictly body session)
    simp only [together, if_true]
    rw [runOn_bind]
    cases hrun : (runStrictly body).runOn session with
    | mk ended last =>
      rw [hrun] at hends
      cases ended <;> exact hends

theorem runOn_underHost (source : HostSource) (body : List Step) (strictly : Bool)
    (session : Session) :
    (underHost source body strictly).run.runOn session =
      match (Operation.hostOf source).runOn session with
      | (.ok host, entered) => (within host (together body strictly)).runOn entered
      | (.error failure, entered) => (.error failure, entered) := by
  rw [run, runOn_bind]
  cases (Operation.hostOf source).runOn session with
  | mk given entered => cases given <;> rfl

/-- Steps under another host are bracketed: with a host that every boundary method can be called on,
    they start from the session as it was but for this host being active, run until they end or
    fail, and leave the host active that was so before; with any other object they are refused as a
    whole before the first of them is run. Nothing is required of the steps, which may themselves
    make other hosts active, leave none so, or run further steps under other hosts. -/
theorem active_underHost (source : HostSource) (body : List Step) (strictly : Bool)
    (session : Session) :
    let (given, entered) := (Operation.hostOf source).runOn session
    let (ended, left) := (underHost source body strictly).run.runOn session
    entered.active = session.active ∧ left.active = session.active ∧
      match given with
      | .error failure => ended = .error failure ∧ left = entered
      | .ok host =>
        if host.isComplete then
          ∃ last, Ends body (entered.activating (some host)) strictly ended last ∧
            left = last.activating session.active
        else
          ended = .error (.misuse (.hostIncomplete host.missing)) ∧
            (Failure.misuse (.hostIncomplete host.missing)).className = "TypeError" ∧
            left = entered := by
  have hentered := active_hostOf source session
  rw [runOn_underHost]
  cases hgiven : (Operation.hostOf source).runOn session with
  | mk given entered =>
    rw [hgiven] at hentered
    cases given with
    | error failure => exact ⟨hentered, hentered, rfl, rfl⟩
    | ok host =>
      have hends := ends_together body strictly (entered.activating (some host))
      dsimp only
      rw [runOn_within]
      by_cases hcomplete : host.isComplete = true
      · rw [if_pos hcomplete, if_pos hcomplete]
        exact ⟨hentered, hentered, _, hends, hentered ▸ rfl⟩
      · rw [if_neg hcomplete, if_neg hcomplete]
        exact ⟨hentered, hentered, rfl, rfl, rfl⟩

end Step

end CryptoIntrinsics
