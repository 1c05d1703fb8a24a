import CryptoIntrinsics.Proofs.Session.Policy

namespace CryptoIntrinsics

theorem Method.ofName?_name (m : Method) : Method.ofName? m.name = some m := by
  cases m with
  | digest algorithm => cases algorithm <;> decide
  | assertDigest algorithm => cases algorithm <;> decide
  | recoverKey => decide
  | assertRecoverKey => decide
  | verifyRsa => decide

theorem Native.isComplete_host (label : Option String) (settings : Native.Settings) :
    (Native.host label settings).isComplete = true := by
  rw [Host.isComplete_iff]
  intro m
  simp only [Native.host, Method.ofName?_name, Member.isMethod]

theorem Host.isComplete_scripted (label : Option String)
    (answer : Method → Except Failure Datum) :
    (Host.scripted label answer).isComplete = true := by
  rw [Host.isComplete_iff]
  intro m
  simp only [Host.scripted, Method.ofName?_name, Member.isMethod]

/-- A fatal fault that the host is to blame for. -/
def Fault.IsHostFault (f : Fault) : Prop := f.family = .host ∧ f.code = "host_fault"

theorem Fault.isHostFault_of (message : String) (context : List (String × Datum)) :
    (Fault.of .host message context).IsHostFault := ⟨rfl, rfl⟩

theorem Fault.IsHostFault.isFatal {f : Fault} (hhost : f.IsHostFault) : f.isFatal = true := by
  rw [Fault.isFatal, hhost.1]
  rfl

/-- A fault of the host that says which method's call failed. -/
structure Fault.Blames (f : Fault) (m : Method) : Prop where
  isHostFault : f.IsHostFault
  call_eq : f.context.lookup "call" = some (.text m.name)

theorem Fault.blames_of (message : String) (m : Method) (context : List (String × Datum)) :
    (Fault.of .host message (("call", .text m.name) :: context)).Blames m where
  isHostFault := isHostFault_of _ _
  call_eq := List.lookup_cons_self

theorem Fault.isFatal_of_invalidInput {f : Fault} (hinput : f.family = .invalidInput) :
    f.isFatal = false := by
  rw [Fault.isFatal, hinput]
  rfl

/-- A failure that a host is to blame for and that there is a message about: it is neither fatal nor
    a rejection of the input. -/
structure Failure.IsBlamed (failure : Failure) : Prop where
  not_passing : ∀ f, failure = .fault f → f.isFatal = false ∧ f.family ≠ .invalidInput
  isTold : ∀ name reason, failure ≠ .untold name reason

theorem Failure.isBlamed_stray (kind : Stray) (text : String) : (stray kind text).IsBlamed :=
  ⟨by simp, by simp⟩

/-- What a host fails with is fatal, or a rejection of the input, or without a message, or else the
    host is to blame for it. -/
theorem Failure.boundary_cases (failure : Failure) :
    (∃ f, failure = .fault f ∧ f.isFatal = true) ∨
    (∃ f, failure = .fault f ∧ f.family = .invalidInput) ∨
    (∃ name reason, failure = .untold name reason) ∨ failure.IsBlamed := by
  cases failure with
  | fault f =>
    cases hfatal : f.isFatal with
    | true => exact .inl ⟨f, rfl, hfatal⟩
    | false =>
      by_cases hinput : f.family = .invalidInput
      · exact .inr (.inl ⟨f, rfl, hinput⟩)
      · refine .inr (.inr (.inr ⟨?_, by simp⟩))
        intro g hg
        cases hg
        exact ⟨hfatal, hinput⟩
  | untold name reason => exact .inr (.inr (.inl ⟨name, reason, rfl⟩))
  | stray kind text => exact .inr (.inr (.inr (isBlamed_stray kind text)))
  | _ => exact .inr (.inr (.inr ⟨by simp, by simp⟩))

def Response.under (policy : Policy) : Response → Except Failure Datum
  | now reply => reply
  | byPolicy reply => reply policy

namespace Session

open Procedure

/-- The host that the next call reaches. -/
def host (session : Session) : Host :=
  session.active.getD (Native.host none (.ofPolicy session.policyInForce))

def answer (session : Session) (m : Method) (arguments : List Datum) : Except Failure Datum :=
  (session.host.respond m.name arguments).under session.policyInForce

/-- What a call returns to its caller, or fails with there: only what the host fails with is changed
    on the way. -/
def returned (session : Session) (m : Method) (arguments : List Datum) : Except Failure Datum :=
  (session.answer m arguments).mapError (atBoundary session.host m.name)

/-- A host with set answers answers as it was set. -/
theorem answer_of_scripted {session : Session} {label : Option String}
    {answers : Method → Except Failure Datum}
    (hactive : session.active = some (Host.scripted label answers)) (m : Method)
    (arguments : List Datum) : session.answer m arguments = answers m := by
  rw [answer, host, hactive, Option.getD_some, Host.respond]
  simp only [Host.scripted, Method.ofName?_name, Response.under]

def occupied (session : Session) : Session :=
  match session.active with
  | some _ => session
  | none => { session.remembering with active := some session.host }

/-- The session after its host was asked for and a call of it was noted down. -/
def noted (session : Session) (call : Call) : Session :=
  { session.occupied with journal := (session.host.serial, call) :: session.journal }

/-- The session after a response. One by policy leaves the policy remembered. -/
def settled (session : Session) : Response → Session
  | .now _ => session
  | .byPolicy _ => session.remembering

def called (session : Session) (m : Method) (arguments : List Datum) : Session :=
  (session.noted ⟨m.name, arguments⟩).settled (session.host.respond m.name arguments)

/-- A host is active only if every boundary method of it can be called. -/
def Ready (session : Session) : Prop := ∀ host ∈ session.active, host.isComplete = true

theorem Ready.isMethod {session : Session} (hready : session.Ready) (m : Method) :
    (session.host.member m.name).isMethod = true := by
  have hcomplete : session.host.isComplete = true := by
    rw [host]
    cases hactive : session.active with
    | none => exact Native.isComplete_host none _
    | some active => exact hready active hactive
  exact (Host.isComplete_iff _).1 hcomplete m

theorem ready_of_scripted {session : Session} {label : Option String}
    {answers : Method → Except Failure Datum}
    (hactive : session.active = some (Host.scripted label answers)) : session.Ready := by
  intro host hhost
  rw [hactive, Option.mem_some_iff] at hhost
  rw [← hhost]
  exact Host.isComplete_scripted label answers

theorem runOn_activeHost (session : Session) :
    activeHost.runOn session = (.ok session.host, session.occupied) := by
  rw [activeHost, runOn_bind, runOn_get]
  simp only [host, occupied]
  cases session.active with
  | some host => rfl
  | none =>
    simp only [Option.getD_none]
    rw [runOn_bind, runOn_currentPolicy]
    rfl

@[simp] theorem journal_occupied (session : Session) :
    session.occupied.journal = session.journal := by
  rw [occupied]
  split <;> rfl

@[simp] theorem active_occupied (session : Session) :
    session.occupied.active = some session.host := by
  rw [occupied]
  split
  · next active hactive => rw [host, hactive, Option.getD_some]
  · rfl

@[simp] theorem policyInForce_occupied (session : Session) :
    session.occupied.policyInForce = session.policyInForce := by
  rw [occupied]
  split <;> rfl

@[simp] theorem policyInForce_noted (session : Session) (call : Call) :
    (session.noted call).policyInForce = session.policyInForce := policyInForce_occupied session

@[simp] theorem journal_settled (session : Session) (response : Response) :
    (session.settled response).journal = session.journal := by
  cases response <;> rfl

@[simp] theorem active_settled (session : Session) (response : Response) :
    (session.settled response).active = session.active := by
  cases response <;> rfl

@[simp] theorem policyInForce_settled (session : Session) (response : Response) :
    (session.settled response).policyInForce = session.policyInForce := by
  cases response <;> rfl

/-- A call is the only one that is noted down. -/
theorem journal_called (session : Session) (m : Method) (arguments : List Datum) :
    (session.called m arguments).journal =
      (session.host.serial, ⟨m.name, arguments⟩) :: session.journal := by
  rw [called, journal_settled]
  rfl

theorem active_called (session : Session) (m : Method) (arguments : List Datum) :
    (session.called m arguments).active = some session.host := by
  rw [called, active_settled]
  exact active_occupied session

theorem policyInForce_called (session : Session) (m : Method) (arguments : List Datum) :
    (session.called m arguments).policyInForce = session.policyInForce := by
  rw [called, policyInForce_settled, policyInForce_noted]

theorem runOn_settle (response : Response) (session : Session) :
    (settle response).runOn session =
      (.ok (response.under session.policyInForce), session.settled response) := by
  cases response with
  | now reply => rfl
  | byPolicy reply =>
    rw [settle, runOn_bind, runOn_currentPolicy]
    rfl

theorem runOn_record (session : Session) (call : Call) :
    (record session.host call).runOn session.occupied = (.ok ⟨⟩, session.noted call) := by
  rw [record, runOn_modify, journal_occupied]
  rfl

/-- A call of a boundary method is noted down and returns what the host answers. -/
theorem runOn_callHost {session : Session} (hready : session.Ready) (m : Method)
    (arguments : List Datum) :
    (callHost m.name arguments).runOn session =
      (session.returned m arguments, session.called m arguments) := by
  have hmethod := hready.isMethod m
  have hpresent : (session.host.member m.name).isPresent = true := by
    cases hmember : session.host.member m.name with
    | absent => rw [hmember] at hmethod; cases hmethod
    | inert => rfl
    | method respond => rfl
  -- The call is noted down before the host is asked, so it is there whatever the host answers.
  rw [callHost, runOn_bind, runOn_activeHost]
  simp only [hmethod, hpresent, Bool.not_true, Bool.false_eq_true, if_false, if_true]
  rw [runOn_bind, runOn_record]
  dsimp only
  rw [runOn_bind, runOn_settle, policyInForce_noted]
  dsimp only
  rw [← answer, ← called, returned]
  cases session.answer m arguments with
  | ok reply => rfl
  | error failure => rfl

/-- A fatal fault of the host leaves the boundary as it is, and so does a rejection of the input. -/
theorem atBoundary_of_passing (host : Host) (name : String) {f : Fault}
    (hpass : f.isFatal = true ∨ f.family = .invalidInput) :
    atBoundary host name (.fault f) = .fault f := by
  have hpasses : (f.isFatal || f.family == .invalidInput) = true := by
    obtain hfatal | hinput := hpass
    · rw [hfatal, Bool.true_or]
    · rw [hinput, beq_self_eq_true, Bool.or_true]
  simp only [atBoundary, hpasses, if_true]

/-- A failure that the host is to blame for becomes a fault that says so. -/
theorem atBoundary_of_isBlamed (host : Host) (name : String) {failure : Failure}
    (hblamed : failure.IsBlamed) :
    ∃ d : Fault, d.IsHostFault ∧ atBoundary host name failure = .fault d := by
  cases failure with
  | fault f =>
    obtain ⟨hfatal, hinput⟩ := hblamed.not_passing f rfl
    have hpasses : ¬ (f.isFatal || f.family == .invalidInput) = true := by
      simp [hfatal, hinput]
    simp only [atBoundary]
    rw [if_neg hpasses]
    exact ⟨_, Fault.isHostFault_of _ _, rfl⟩
  | untold cause reason => exact absurd rfl (hblamed.isTold cause reason)
  | _ => exact ⟨_, Fault.isHostFault_of _ _, rfl⟩

section Returned

variable {session : Session} {m : Method} {arguments : List Datum}

theorem returned_of_ok {reply : Datum} (hreply : session.answer m arguments = .ok reply) :
    session.returned m arguments = .ok reply := by
  rw [returned, hreply]
  rfl

theorem returned_of_error {failure : Failure}
    (hfailure : session.answer m arguments = .error failure) :
    session.returned m arguments = .error (atBoundary session.host m.name failure) := by
  rw [returned, hfailure]
  rfl

/-- Whatever a host fails with, its caller sees a fault, or that there is no message. -/
theorem fault_or_stray_of_returned {failure : Failure}
    (hreturned : session.returned m arguments = .error failure) :
    (∃ f, failure = .fault f) ∨ ∃ reason : Untold, failure = .stray reason.kind "*" := by
  cases hanswer : session.answer m arguments with
  | ok reply =>
    rw [returned_of_ok hanswer] at hreturned
    cases hreturned
  | error cause =>
    rw [returned_of_error hanswer] at hreturned
    cases hreturned
    obtain ⟨f, rfl, hfatal⟩ | ⟨f, rfl, hinput⟩ | ⟨name, reason, rfl⟩ | hblamed :=
      cause.boundary_cases
    · exact .inl ⟨f, atBoundary_of_passing _ _ (.inl hfatal)⟩
    · exact .inl ⟨f, atBoundary_of_passing _ _ (.inr hinput)⟩
    · exact .inr ⟨reason, rfl⟩
    · obtain ⟨d, -, hd⟩ := atBoundary_of_isBlamed session.host m.name hblamed
      exact .inl ⟨d, hd⟩

end Returned

end Session

end CryptoIntrinsics
