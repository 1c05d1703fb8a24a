import CryptoIntrinsics.Proofs.Intrinsics.Outcome
import CryptoIntrinsics.Proofs.Session.Moments
import CryptoIntrinsics.Proofs.Session.Steady

namespace CryptoIntrinsics

def Method.names : List String :=
  ["sha256", "sha1", "sha512", "ripemd160", "assert_sha256", "assert_sha1", "assert_sha512",
   "assert_ripemd160", "recover_key", "assert_recover_key", "verify_rsa_sha256_sig"]

theorem Method.map_name_all : all.map name = names := by decide

theorem Member.isPresent_of_isMethod {member : Member} (hmethod : member.isMethod = true) :
    member.isPresent = true := by
  cases member with
  | absent => cases hmethod
  | inert => rfl
  | method respond => rfl

namespace Host

variable {host : Host}

theorem map_name_missing (host : Host) :
    host.missing.map Method.name =
      Method.names.filter fun name => !(host.member name).isMethod := by
  rw [missing, ← Method.map_name_all, List.filter_map]
  rfl

theorem isComplete_iff_names :
    host.isComplete = true ↔ ∀ name ∈ Method.names, (host.member name).isMethod = true := by
  rw [isComplete_iff, ← Method.map_name_all, List.forall_mem_map]
  exact ⟨fun hmethods m _ => hmethods m, fun hmethods m => hmethods m (Method.mem_all m)⟩

theorem looksComplete_of_isComplete (hcomplete : host.isComplete = true) :
    host.looksComplete = true := by
  rw [looksComplete, List.all_eq_true]
  intro m _
  exact Member.isPresent_of_isMethod ((isComplete_iff host).1 hcomplete m)

end Host

namespace Session

open Procedure

theorem Ready.of_active_or {session later : Session} (hready : session.Ready)
    (hactive : later.active = session.active ∨
      session.active = none ∧ later.active = some session.host) : later.Ready := by
  intro active hlater
  obtain hsame | ⟨hnone, hfilled⟩ := hactive
  · exact hready active (hsame ▸ hlater)
  · rw [hfilled] at hlater
    cases hlater
    rw [host, hnone]
    exact Native.isComplete_host none _

/-- A session that goes by the active host and the remembered policy of another. -/
structure Keeps (session later : Session) : Prop where
  active_eq : later.active = session.active
  policy_eq : later.policy = session.policy

theorem runOn_setVariables (changes : List (String × Option String)) (session : Session) :
    ∃ outcome environment,
      (setVariables changes).runOn session = (outcome, { session with environment }) := by
  unfold setVariables
  split
  · exact ⟨_, _, rfl⟩
  · exact ⟨_, session.environment, rfl⟩

end Session

namespace Operation

open Procedure Session

/-- Whether an operation says which host is active, if any, whichever was so before. -/
def replaces : Operation → Bool
  | dismissHost | installHost _ => true
  | _ => false

theorem runOn_installHost (source : HostSource) (session : Session) :
    (installHost source).run.runOn session =
      match (hostOf source).runOn session with
      | (.ok host, entered) =>
        if host.isComplete then (.ok done, entered.activating (some host))
        else (.error (.misuse (.hostIncomplete host.missing)), entered)
      | (.error failure, entered) => (.error failure, entered) := by
  rw [run, runOn_bind]
  cases (hostOf source).runOn session with
  | mk given entered =>
    cases given with
    | error failure => rfl
    | ok host =>
      dsimp only
      rw [runOn_bind, runOn_install]
      by_cases hcomplete : host.isComplete = true
      · simp only [if_pos hcomplete]
        rfl
      · simp only [if_neg hcomplete]

theorem active_installHost (source : HostSource) (session : Session) :
    let ended := (installHost source).run.runOn session
    (ended.1.isOk = true ∧ ∃ host : Host, host.isComplete = true ∧ ended.2.active = some host) ∨
      (ended.1.isOk = false ∧ ended.2.active = session.active) := by
  have hentered := Step.active_hostOf source session
  rw [runOn_installHost]
  cases hgiven : (hostOf source).runOn session with
  | mk given entered =>
    rw [hgiven] at hentered
    cases given with
    | error failure => exact .inr ⟨rfl, hentered⟩
    | ok host =>
      by_cases hcomplete : host.isComplete = true
      · simp only [if_pos hcomplete]
        exact .inl ⟨rfl, host, hcomplete, rfl⟩
      · simp only [if_neg hcomplete]
        exact .inr ⟨rfl, hentered⟩

/-- Whether an operation sets up something besides the active host and the policy. -/
def isAside : Operation → Bool
  | takeCalls _ | setVariables _ | release _ | forgetRelease => true
  | _ => false

theorem keeps_run {operation : Operation} (haside : operation.isAside = true) (session : Session) :
    session.Keeps (operation.run.runOn session).2 := by
  cases operation with
  | takeCalls label =>
    rw [run, runOn_bind, Session.takeCalls, runOn_bind, runOn_get]
    dsimp only
    cases session.roster.lookup label with
    | none => exact ⟨rfl, rfl⟩
    | some host =>
      dsimp only
      cases host.tellsCalls <;> exact ⟨rfl, rfl⟩
  | setVariables changes =>
    rw [run, runOn_bind]
    obtain ⟨outcome, environment, hset⟩ := runOn_setVariables changes session
    rw [hset]
    cases outcome <;> exact ⟨rfl, rfl⟩
  | release installed =>
    rw [run, runOn_bind, currentRelease, runOn_bind, runOn_get]
    dsimp only
    cases session.release <;> exact ⟨rfl, rfl⟩
  | forgetRelease => exact ⟨rfl, rfl⟩
  | _ => cases haside

/-- Other operations leave the active host alone, but for making the native one active where there
    was none. -/
theorem active_run {operation : Operation} (hkeeps : operation.replaces = false)
    (session : Session) :
    (operation.run.runOn session).2.active = session.active ∨
      session.active = none ∧ (operation.run.runOn session).2.active = some session.host := by
  cases hcall : operation.setsUp with
  | false => exact ((steady_run hcall).fills session).active_or
  | true =>
    left
    cases operation with
    | dismissHost | installHost => cases hkeeps
    | looksLikeHost source =>
      have hactive := Step.active_hostOf source session
      rw [run, runOn_bind]
      cases hgiven : (hostOf source).runOn session with
      | mk given entered =>
        rw [hgiven] at hactive
        cases given <;> exact hactive
    | forgetPolicy => rfl
    | takeCalls | setVariables | release | forgetRelease => exact (keeps_run rfl session).active_eq
    | _ => cases hcall

/-- What becomes the active host is a native host or an object that was looked at. -/
theorem ready_run (operation : Operation) {session : Session} (hready : session.Ready) :
    (operation.run.runOn session).2.Ready := by
  cases hkeeps : operation.replaces with
  | false => exact hready.of_active_or (active_run hkeeps session)
  | true =>
    cases operation with
    | dismissHost => exact nofun
    | installHost source =>
      obtain ⟨-, host, hcomplete, hinstalled⟩ | ⟨-, hsame⟩ := active_installHost source session
      · intro active hactive
        rw [hinstalled] at hactive
        cases hactive
        exact hcomplete
      · exact hready.of_active_or (.inl hsame)
    | _ => cases hkeeps

end Operation

namespace Failure

theorem className_fault (f : Fault) : (fault f).className ≠ "AttributeError" := by
  rw [className]
  cases f.family <;> decide

theorem IsRejection.className {failure : Failure} (hrejection : failure.IsRejection) :
    failure.className ≠ "AttributeError" := by
  intro hname
  rw [IsRejection, hname] at hrejection
  revert hrejection
  decide

end Failure

namespace Intrinsic

variable {i : Intrinsic} {session : Session} {failure : Failure}

/-- What comes of a call never says that an attribute is missing. -/
theorem className_of_conclude {m : Method} {arguments : List Datum}
    {reply : Except Failure Datum} {later : Session}
    (hreply : session.returned m arguments = reply)
    (hfailure : ((i.conclude reply).runOn later).1 = .error failure) :
    failure.className ≠ "AttributeError" := by
  cases reply with
  | ok reply =>
    obtain ⟨outcome, after, hrun, -, huses⟩ := i.runOn_conclude_ok reply later
    rw [hrun] at hfailure
    cases hfailure
    obtain ⟨-, hspoils⟩ := huses
    cases hspoils with
    | blamed hheld hd => exact Failure.className_fault _
    | released => simp [Failure.className, Stray.name]
  | error cause =>
    obtain ⟨f, rfl⟩ | ⟨reason, rfl⟩ := Session.fault_or_stray_of_returned hreply
    · rw [runOn_conclude_fault] at hfailure
      split at hfailure
      · cases hfailure
      · cases hfailure
        exact Failure.className_fault f
    · rw [runOn_conclude_stray] at hfailure
      cases hfailure
      cases reason <;> simp [Failure.className, Stray.name, Untold.kind]

theorem className_of_error (hready : session.Ready)
    (hfailure : i.outcome session = .error failure) : failure.className ≠ "AttributeError" := by
  cases hrequest : i.request with
  | error rejection =>
    rw [outcome_of_error hrequest] at hfailure
    cases hfailure
    have hrejection := i.checks_request
    rw [hrequest] at hrejection
    exact hrejection.className
  | ok arguments =>
    rw [outcome_of_ok hrequest hready] at hfailure
    exact className_of_conclude rfl hfailure

end Intrinsic

namespace Step

open Procedure Session

mutual

-- A block puts back what was active without looking at it. It was active before, when all was well.
theorem ready_moments : ∀ (step : Step) (session : Session), session.Ready →
    ∀ moment ∈ moments step session, moment.later.Ready
  | perform operation, session, hready => by
    rw [moments, List.forall_mem_singleton]
    exact operation.ready_run hready
  | unmade failure, session, hready => List.forall_mem_nil _
  | contain step raising, session, hready => by
    rw [moments]
    exact ready_moments step session hready
  | underHost source body strictly, session, hready => by
    let entry : Moment := ⟨session, .performs (.installHost source)⟩
    have hentry : entry.later.Ready := Operation.ready_run (.installHost source) hready
    rw [moments]
    split
    · rw [List.forall_mem_cons, List.forall_mem_append, List.forall_mem_singleton]
      exact ⟨hentry, ready_momentsIn strictly body entry.later hentry, hready⟩
    · rw [List.forall_mem_singleton]
      exact hentry

theorem ready_momentsIn : ∀ (strictly : Bool) (body : List Step) (session : Session),
    session.Ready → ∀ moment ∈ momentsIn strictly body session, moment.later.Ready
  | strictly, [], session, hready => List.forall_mem_nil _
  | strictly, step :: rest, session, hready => by
    have hstep := ready_moments step session hready
    have hafter := ((follow_moments step session).forall hready hstep).2
    rw [momentsIn, List.forall_mem_append]
    refine ⟨hstep, ?_⟩
    split
    · exact List.forall_mem_nil _
    · exact ready_momentsIn strictly rest (step.after session) hafter

end

theorem ready_fresh (environment : Environment) : (fresh environment none).Ready := nofun

theorem ready_reached (environment : Environment) (steps : List Step) :
    ∀ session ∈ reached steps (fresh environment none), session.Ready := by
  have hready := ready_fresh environment
  have hmoments := ready_momentsIn false steps _ hready
  obtain ⟨hfound, hlast⟩ := (follow_all steps _).forall hready hmoments
  rw [reached, List.forall_mem_append, List.forall_mem_singleton, List.forall_mem_map]
  exact ⟨hfound, hlast⟩

/-- Whatever steps are run, no host is active, or one on which all boundary methods can be called;
    so an operation offered to contracts never fails because the host lacks a method. An object is
    installed exactly if all can be called on it, and then it passes for a host; any other object is
    refused with the names that cannot be called, in their order, and nothing is changed. -/
theorem isMethod_of_active (environment : Environment) (steps : List Step) :
    (∀ session ∈ reached steps (fresh environment none),
      (session.active = none ∨ ∃ host, session.active = some host ∧
        ∀ name ∈ Method.names, (host.member name).isMethod = true) ∧
      ∀ (i : Intrinsic) (failure : Failure), i.outcome session = .error failure →
        failure.className ≠ "AttributeError") ∧
    ∀ (host : Host) (session : Session),
      if ∀ name ∈ Method.names, (host.member name).isMethod = true then
        (install host).runOn session = (.ok ⟨⟩, session.activating (some host)) ∧
          host.looksComplete = true
      else
        ∃ failure, (install host).runOn session = (.error failure, session) ∧
          failure.className = "TypeError" ∧
          failure.message = "host missing methods: " ++ ", ".intercalate
            (Method.names.filter fun name => !(host.member name).isMethod) := by
  constructor
  · intro session hreached
    have hready := ready_reached environment steps session hreached
    refine ⟨?_, fun i failure => Intrinsic.className_of_error hready⟩
    cases hactive : session.active with
    | none => exact .inl rfl
    | some host => exact .inr ⟨host, rfl, Host.isComplete_iff_names.1 (hready host hactive)⟩
  · intro host session
    split
    · next hmethods =>
      have hcomplete := Host.isComplete_iff_names.2 hmethods
      refine ⟨?_, Host.looksComplete_of_isComplete hcomplete⟩
      rw [runOn_install, if_pos hcomplete]
    · next hmethods =>
      have hcomplete : ¬ host.isComplete = true := mt Host.isComplete_iff_names.1 hmethods
      refine ⟨.misuse (.hostIncomplete host.missing), ?_, ?_, ?_⟩
      · rw [runOn_install, if_neg hcomplete]
      · rfl
      · rw [← Host.map_name_missing]
        rfl

/-- Inside a block, a host that fails on every call as though it lacked the method is blamed for it,
    and an object that has two of the methods, and a third one that cannot be called, is refused. -/
theorem isMethod_of_active_block :
    let down := Host.scripted (some "down") fun _ => .error (.stray .unknownName "gone")
    let partly := Host.partially none ["sha1", "recover_key"] ["sha256"]
    let call : Intrinsic := .digest .sha1 (.text "abc")
    let steps : List Step := [underHost (.fresh down) [perform call.operation] false]
    let inside := ((Operation.installHost (.fresh down)).run.runOn (fresh .empty none)).2
    inside ∈ reached steps (fresh .empty none) ∧
      (∃ failure, call.outcome inside = .error failure ∧ failure.className ≠ "AttributeError") ∧
      ∃ failure, (install partly).runOn inside = (.error failure, inside) ∧
        failure.className = "TypeError" ∧
        failure.message = "host missing methods: sha256, sha512, ripemd160, assert_sha256, " ++
          "assert_sha1, assert_sha512, assert_ripemd160, assert_recover_key, " ++
          "verify_rsa_sha256_sig" := by
  intro down partly call steps inside
  obtain ⟨hreached, hinstall⟩ := isMethod_of_active .empty steps
  have hinside : inside ∈ reached steps (fresh .empty none) := .tail _ (.head _)
  obtain ⟨-, hfails⟩ := hreached inside hinside
  have hlacks : ¬ ∀ name ∈ Method.names, (partly.member name).isMethod = true := by decide
  have hrefused := hinstall partly inside
  rw [if_neg hlacks] at hrefused
  obtain ⟨failure, hrun, hclass, hmessage⟩ := hrefused
  refine ⟨hinside, ?_, failure, hrun, hclass, hmessage.trans ?_⟩
  · exact ⟨_, rfl, hfails call _ rfl⟩
  · decide

end Step

end CryptoIntrinsics
