import CryptoIntrinsics.Proofs.Session.Bracket

namespace CryptoIntrinsics.Step

open Procedure Session

inductive Deed where
  | performs (operation : Operation)
  /-- Steps under another host have ended, and the host is active again that was so before. -/
  | restores (previous : Option Host)

structure Moment where
  session : Session
  deed : Deed

def Moment.later (moment : Moment) : Session :=
  match moment.deed with
  | .performs operation => (operation.run.runOn moment.session).2
  | .restores previous => moment.session.activating previous

mutual

/-- The moments of a step. A block under another host begins by installing that host. -/
def moments : Step → Session → List Moment
  | perform operation, session => [⟨session, .performs operation⟩]
  | unmade _, _ => []
  | underHost source body strictly, session =>
    let entry : Moment := ⟨session, .performs (.installHost source)⟩
    match ((Operation.installHost source).run.runOn session).1 with
    | .ok _ =>
      entry :: (momentsIn strictly body entry.later ++
        [⟨((together body strictly).runOn entry.later).2, .restores session.active⟩])
    | .error _ => [entry]
  | contain step _, session => moments step session

/-- The moments of steps. When strictly, the first failure ends them. -/
def momentsIn : Bool → List Step → Session → List Moment
  | _, [], _ => []
  | strictly, step :: rest, session =>
    moments step session ++
      if strictly && !(step.run.runOn session).1.isOk then []
      else momentsIn strictly rest (step.after session)

end

/-- Moments of which the first finds one session, each other one finds what the one before it left,
    and the last leaves another session. -/
inductive Follow : Session → List Moment → Session → Prop where
  | nil {session} : Follow session [] session
  | cons (moment) {rest last} (hrest : Follow moment.later rest last) :
      Follow moment.session (moment :: rest) last

theorem Follow.append {first second : List Moment} {session middle last : Session}
    (hfirst : Follow session first middle) (hsecond : Follow middle second last) :
    Follow session (first ++ second) last := by
  induction hfirst with
  | nil => exact hsecond
  | cons moment _ ih => exact .cons moment (ih hsecond)

theorem Follow.exists_of_append {first second : List Moment} {session last : Session}
    (hfollow : Follow session (first ++ second) last) :
    ∃ middle, Follow session first middle ∧ Follow middle second last := by
  induction first generalizing session with
  | nil => exact ⟨session, .nil, hfollow⟩
  | cons moment rest ih =>
    cases hfollow with
    | cons _ hrest =>
      obtain ⟨middle, hfirst, hsecond⟩ := ih hrest
      exact ⟨middle, .cons moment hfirst, hsecond⟩

theorem Follow.eq_of_nil {session last : Session} (hfollow : Follow session [] last) :
    last = session := by
  cases hfollow
  rfl

theorem Follow.of_append_cons {first second : List Moment} {moment : Moment}
    {session last : Session} (hfollow : Follow session (first ++ moment :: second) last) :
    Follow session first moment.session ∧ Follow moment.later second last := by
  obtain ⟨middle, hfirst, hsecond⟩ := hfollow.exists_of_append
  cases hsecond with
  | cons _ hrest => exact ⟨hfirst, hrest⟩

theorem Follow.forall {moments : List Moment} {motive : Session → Prop} {session last : Session}
    (hfollow : Follow session moments last) (hsession : motive session)
    (hlater : ∀ moment ∈ moments, motive moment.later) :
    (∀ moment ∈ moments, motive moment.session) ∧ motive last := by
  induction hfollow with
  | nil => exact ⟨List.forall_mem_nil _, hsession⟩
  | cons moment _ ih =>
    rw [List.forall_mem_cons] at hlater
    obtain ⟨hrest, hlast⟩ := ih hlater.1 hlater.2
    exact ⟨List.forall_mem_cons.2 ⟨hsession, hrest⟩, hlast⟩

theorem after_together_cons (step : Step) (rest : List Step) (strictly : Bool)
    (session : Session) :
    ((together (step :: rest) strictly).runOn session).2 =
      if strictly && !(step.run.runOn session).1.isOk then step.after session
      else ((together rest strictly).runOn (step.after session)).2 := by
  cases strictly with
  | false =>
    simp only [together, Bool.false_eq_true, if_false, Bool.false_and]
    rw [runOn_bind, runOn_bind, runOn_runAll, runOn_runAll]
    rfl
  | true =>
    simp only [together, if_true, Bool.true_and]
    rw [runOn_bind, runOn_bind, runStrictly, runOn_bind, after]
    cases hstep : step.run.runOn session with
    | mk outcome later =>
      cases outcome with
      | error failure => rfl
      | ok answer =>
        dsimp only
        rw [runOn_bind]
        cases hrest : (runStrictly rest).runOn later with
        | mk ended last => cases ended <;> rfl

/-- A block under another host leaves what its body left, but for the host that is active. -/
theorem after_underHost (source : HostSource) (body : List Step) (strictly : Bool)
    (session : Session) :
    (underHost source body strictly).after session =
      match (Operation.installHost source).run.runOn session with
      | (.ok _, inside) => ((together body strictly).runOn inside).2.activating session.active
      | (.error _, entered) => entered := by
  have hentered := active_hostOf source session
  rw [after, runOn_underHost, Operation.run, runOn_bind]
  cases hgiven : (Operation.hostOf source).runOn session with
  | mk given entered =>
    rw [hgiven] at hentered
    cases given with
    | error failure => rfl
    | ok host =>
      dsimp only
      rw [runOn_within, runOn_bind, runOn_install]
      by_cases hcomplete : host.isComplete = true
      · rw [if_pos hcomplete, if_pos hcomplete]
        exact congrArg (activating _) hentered
      · rw [if_neg hcomplete, if_neg hcomplete]

theorem after_contain (step : Step) (raising : Bool) (session : Session) :
    (contain step raising).after session = step.after session := by
  rw [after, run, Session.contain, runOn_bind, runOn_attempt]
  dsimp only
  rw [← after]
  cases (step.run.runOn session).1 with
  | ok answer => rfl
  | error failure =>
    cases failure with
    | fault fault =>
      dsimp only
      split
      · rfl
      · split <;> rfl
    | _ => rfl

mutual

theorem follow_moments : ∀ (step : Step) (session : Session),
    Follow session (step.moments session) (step.after session)
  | perform operation, session => .cons ⟨session, .performs operation⟩ .nil
  | unmade failure, session => .nil
  | contain step raising, session => by
    rw [moments, after_contain]
    exact follow_moments step session
  | underHost source body strictly, session => by
    rw [moments, after_underHost]
    let entry : Moment := ⟨session, .performs (.installHost source)⟩
    cases hentry : (Operation.installHost source).run.runOn session with
    | mk outcome inside =>
      obtain rfl : entry.later = inside := congrArg Prod.snd hentry
      cases outcome with
      | error failure => exact .cons entry .nil
      | ok answer =>
        have hbody := follow_momentsIn strictly body entry.later
        exact .cons entry (hbody.append (.cons ⟨_, .restores session.active⟩ .nil))

theorem follow_momentsIn : ∀ (strictly : Bool) (body : List Step) (session : Session),
    Follow session (momentsIn strictly body session) ((together body strictly).runOn session).2
  | strictly, [], session => by
    cases strictly <;> exact .nil
  | strictly, step :: rest, session => by
    rw [momentsIn, after_together_cons]
    apply (follow_moments step session).append
    split
    · exact .nil
    · exact follow_momentsIn strictly rest (step.after session)

end

/-- The sessions that the moments of steps find, and the one that the last of them leaves. -/
def reached (steps : List Step) (session : Session) : List Session :=
  (momentsIn false steps session).map Moment.session ++ [afterAll steps session]

theorem follow_all (steps : List Step) (session : Session) :
    Follow session (momentsIn false steps session) (afterAll steps session) := by
  have hfollow := follow_momentsIn false steps session
  simp only [together, Bool.false_eq_true, if_false] at hfollow
  rwa [runOn_bind, runOn_runAll] at hfollow

end CryptoIntrinsics.Step
