import CryptoIntrinsics.Proofs.Session.Policy
import CryptoIntrinsics.Session.Step

namespace CryptoIntrinsics.Step

open Procedure Session

def after (step : Step) (session : Session) : Session := (step.run.runOn session).2

def afterAll (steps : List Step) (session : Session) : Session :=
  steps.foldl (fun session step => step.after session) session

/-- The outcomes of such steps, each with which host is active behind it. -/
def outcomes : List Step → Session → List (Except Failure Answer × Standing)
  | [], _ => []
  | step :: rest, session =>
    ((step.run.runOn session).1, (step.after session).standing) ::
      outcomes rest (step.after session)

theorem runOn_runAll (steps : List Step) (session : Session) :
    (runAll steps).runOn session = (.ok (outcomes steps session), afterAll steps session) := by
  induction steps generalizing session with
  | nil => rfl
  | cons step rest ih =>
    rw [runAll, runOn_bind, runOn_attempt]
    dsimp only
    rw [runOn_bind, runOn_get]
    dsimp only
    rw [runOn_bind, ih]
    rfl

/-- Steps that end with the first failure: what they come to, and the session that they leave. The
    steps behind a failure are not run. -/
inductive Leaves : List Step → Session → Except Failure (List Answer) → Session → Prop where
  | completed {session} : Leaves [] session (.ok []) session
  | failed {step rest session failure later}
      (hstep : step.run.runOn session = (.error failure, later)) :
      Leaves (step :: rest) session (.error failure) later
  | next {step rest session answer later ended last}
      (hstep : step.run.runOn session = (.ok answer, later))
      (hrest : Leaves rest later ended last) :
      Leaves (step :: rest) session (ended.map (answer :: ·)) last

theorem leaves_runStrictly (steps : List Step) (session : Session) :
    Leaves steps session ((runStrictly steps).runOn session).1
      ((runStrictly steps).runOn session).2 := by
  induction steps generalizing session with
  | nil => exact .completed
  | cons step rest ih =>
    rw [runStrictly, runOn_bind]
    cases hstep : step.run.runOn session with
    | mk outcome later =>
      cases outcome with
      | error failure => exact .failed hstep
      | ok answer =>
        have hrest := Leaves.next hstep (ih later)
        dsimp only
        rw [runOn_bind]
        cases hrun : (runStrictly rest).runOn later with
        | mk ended last =>
          rw [hrun] at hrest
          cases ended <;> exact hrest

end CryptoIntrinsics.Step
