import CryptoIntrinsics.Proofs.Session.Steady

namespace CryptoIntrinsics.Step

open Procedure Session

def isCall : Step → Bool
  | perform operation => !operation.setsUp
  | unmade _ => true
  | underHost _ _ _ => false
  | contain step _ => step.isCall

theorem steady_run : ∀ {step : Step}, step.isCall = true → step.run.Steady
  | perform operation, hcall => by
    rw [isCall, Bool.not_eq_true'] at hcall
    exact Operation.steady_run hcall
  | unmade failure, _ => steady_throw failure
  | underHost .., hcall => by cases hcall
  | contain step raising, hcall => by
    rw [isCall] at hcall
    exact steady_contain (steady_run hcall) raising

/-- The outcomes of calls are those that they come to alone, in a session with the same policy in
    force and the same host. -/
theorem map_fst_outcomes {steps : List Step} (hcalls : ∀ step ∈ steps, step.isCall = true)
    {session twin : Session} (halike : session.Alike twin) :
    (outcomes steps session).map Prod.fst = steps.map fun step => (step.run.runOn twin).1 := by
  induction steps generalizing session with
  | nil => rfl
  | cons step rest ih =>
    rw [List.forall_mem_cons] at hcalls
    obtain ⟨hstep, hrest⟩ := hcalls
    have hsteady := steady_run hstep
    have hafter : (step.after session).Alike twin :=
      (hsteady.fills session).alike.symm.trans halike
    rw [outcomes, List.map_cons, List.map_cons, ih hrest hafter, hsteady.congr halike]

/-- Whatever the environment is, and whichever object is the host if any is, every one of several
    calls ends as it does in a session in which nothing happened before it, however the calls before
    it ended. -/
theorem runAll_eq_alone (environment : Environment) (host : Option Host) {steps : List Step}
    (hcalls : ∀ step ∈ steps, step.isCall = true) :
    ∃ ended, ((runAll steps).runOn (fresh environment host)).1 = .ok ended ∧
      ended.map Prod.fst =
        steps.map fun step => (step.run.runOn (fresh environment host)).1 := by
  have hfresh : (fresh environment host).Alike (fresh environment host) := ⟨rfl, rfl⟩
  refine ⟨_, ?_, map_fst_outcomes hcalls hfresh⟩
  rw [runOn_runAll]

/-- A key that is cut short and a method that no host has. Both calls fail, though not before the
    one has the policy remembered and the other makes a host active. -/
theorem runAll_eq_alone_failing :
    let session := fresh .empty none
    let cut := perform (.readCredential .publicKey (.octets [0]))
    let unknown := perform (.callHost (.text "nothing") [])
    let steps := [cut, unknown, perform (.digest .sha1 (.text "abc"))]
    (∀ step ∈ steps, step.isCall = true) ∧
      (cut.run.runOn session).1.isOk = false ∧ (cut.after session).policy.isSome = true ∧
      (unknown.run.runOn session).1.isOk = false ∧ (unknown.after session).active.isSome = true ∧
      ∃ ended, ((runAll steps).runOn session).1 = .ok ended ∧
        ended.map Prod.fst = steps.map fun step => (step.run.runOn session).1 := by
  intro session cut unknown steps
  have hcalls : ∀ step ∈ steps, step.isCall = true := by
    simp only [steps, List.forall_mem_cons]
    exact ⟨rfl, rfl, rfl, List.forall_mem_nil _⟩
  exact ⟨hcalls, rfl, rfl, rfl, rfl, runAll_eq_alone .empty none hcalls⟩

end CryptoIntrinsics.Step
