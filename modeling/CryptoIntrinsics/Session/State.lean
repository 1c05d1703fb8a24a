import CryptoIntrinsics.Host.Native

namespace CryptoIntrinsics

structure Call where
  method : String
  arguments : List Datum

structure Session where
  environment : Environment
  /-- The policy, from the first time it was asked for until it is forgotten. -/
  policy : Option Policy
  /-- The version, likewise. -/
  release : Option String
  active : Option Host
  /-- The hosts that were given names, latest first. -/
  roster : List (String × Host)
  /-- The calls received, latest first, each with the serial of its host. -/
  journal : List (Nat × Call)
  made : Nat

def Session.start : Session := ⟨.empty, none, none, none, [], [], 0⟩

/-- A step of a session that answers or fails. -/
abbrev Procedure (α : Type) := ExceptT Failure (StateM Session) α

namespace Procedure

def runOn {α : Type} (procedure : Procedure α) (session : Session) : Except Failure α × Session :=
  (procedure.run).run session

/-- Demands a result: the procedure answers its value or fails as it did. -/
def demand {α : Type} : Except Failure α → Procedure α
  | .ok value => pure value
  | .error failure => throw failure

/-- Runs a procedure and answers how it ended, so that it does not fail. -/
def attempt {α : Type} (procedure : Procedure α) : Procedure (Except Failure α) :=
  ExceptT.lift procedure.run

variable {α β : Type}

@[simp] theorem runOn_pure (value : α) (session : Session) :
    (pure value : Procedure α).runOn session = (.ok value, session) := rfl

@[simp] theorem runOn_throw (failure : Failure) (session : Session) :
    (throw failure : Procedure α).runOn session = (.error failure, session) := rfl

/-- What follows a step that answered starts from the session that the step left. -/
theorem runOn_bind_of_ok {procedure : Procedure α} {next : α → Procedure β} {value : α}
    {session later : Session} (hrun : procedure.runOn session = (.ok value, later)) :
    (procedure >>= next).runOn session = (next value).runOn later := by
  have hstep : StateT.run (ExceptT.run procedure) session = (Except.ok value, later) := hrun
  simp only [runOn, ExceptT.run_bind, StateT.run_bind, hstep]
  rfl

/-- What follows a step that failed is not run, but what the step changed stays changed. -/
theorem runOn_bind_of_error {procedure : Procedure α} {next : α → Procedure β} {failure : Failure}
    {session later : Session} (hrun : procedure.runOn session = (.error failure, later)) :
    (procedure >>= next).runOn session = (.error failure, later) := by
  have hstep : StateT.run (ExceptT.run procedure) session = (Except.error failure, later) := hrun
  simp only [runOn, ExceptT.run_bind, StateT.run_bind, hstep]
  rfl

@[simp] theorem runOn_demand (result : Except Failure α) (session : Session) :
    (demand result).runOn session = (result, session) := by
  cases result <;> rfl

@[simp] theorem runOn_attempt (procedure : Procedure α) (session : Session) :
    (attempt procedure).runOn session =
      (.ok (procedure.runOn session).1, (procedure.runOn session).2) := rfl

end Procedure

namespace Session

/-- The policy in force: the one remembered, or else the one the environment asks for, which is
    then remembered. -/
def currentPolicy : Procedure Policy := do
  let session ← get
  match session.policy with
  | some policy => return policy
  | none =>
    let policy := Policy.ofEnvironment session.environment
    set { session with policy := some policy }
    return policy

def forgetPolicy : Procedure Unit := modify ({ · with policy := none })

/-- The version, likewise remembered from the first time. -/
def currentRelease (installed : Option String) : Procedure String := do
  let session ← get
  match session.release with
  | some version => return version
  | none =>
    let version := CryptoIntrinsics.release session.environment installed
    set { session with release := some version }
    return version

def forgetRelease : Procedure Unit := modify ({ · with release := none })

/-- Sets and unsets variables, if all of them can be. What is remembered stays. -/
def setVariables (changes : List (String × Option String)) : Procedure Unit :=
  if changes.all fun (name, value) => Environment.canSet name value then
    modify fun session =>
      { session with
        environment := changes.foldl (fun env (name, value) => env.set name value)
          session.environment }
  else throw (.stray .value "*")

/-- The active host. When there is none, a native host by the policy in force becomes it. -/
def activeHost : Procedure Host := do
  match (← get).active with
  | some host => return host
  | none =>
    let policy ← currentPolicy
    let host := Native.host none (.ofPolicy policy)
    modify ({ · with active := some host })
    return host

/-- Makes an object the active host, if every boundary method can be called on it. -/
def install (host : Host) : Procedure Unit :=
  if host.isComplete then modify ({ · with active := some host })
  else throw (.misuse (.hostIncomplete host.missing))

def dismiss : Procedure Unit := modify ({ · with active := none })

/-- Gives a new host its serial, and its place in the roster if it has a name. -/
def enroll (host : Host) : Procedure Host := do
  let session ← get
  let enrolled := { host with serial := session.made + 1 }
  let roster :=
    match host.label with
    | some label => (label, enrolled) :: session.roster
    | none => session.roster
  set { session with made := session.made + 1, roster := roster }
  return enrolled

/-- What becomes of a failure of a host when it leaves the boundary. Fatal faults and malformed
    input pass as they are; everything else is a fault of the host, whose message tells the
    failure's. Where that has none, asking for it is what fails. -/
def atBoundary (host : Host) (name : String) (failure : Failure) : Failure :=
  let wrapped := Failure.fault <| .of .host s!"host call {name} failed: {failure.message}"
    [("call", .text name), ("host", .text host.className), ("cause", .text failure.className)]
  match failure with
  | .fault f => if f.isFatal || f.family == .invalidInput then .fault f else wrapped
  | .untold _ reason => .stray reason.kind "*"
  | _ => wrapped

def record (host : Host) (call : Call) : Procedure Unit :=
  modify fun session => { session with journal := (host.serial, call) :: session.journal }

/-- The outcome of a response, with the policy in force if it asks for one. -/
def settle : Response → Procedure (Except Failure Datum)
  | .now reply => return reply
  | .byPolicy reply => return reply (← currentPolicy)

/-- Calls the active host by the name of a method. -/
def callHost (name : String) (arguments : List Datum) : Procedure Datum := do
  let host ← activeHost
  if !(host.member name).isPresent then throw (.stray .unknownName "*")
  else
    if (host.member name).isMethod then record host ⟨name, arguments⟩
    match ← settle (host.respond name arguments) with
    | .ok reply => return reply
    | .error failure => throw (atBoundary host name failure)

/-- Answers the calls that a named host received, earliest first, and forgets them. Not every host
    can be asked for them. -/
def takeCalls (label : String) : Procedure (List Call) := do
  let session ← get
  match session.roster.lookup label with
  | none => throw (.stray .key "*")
  | some host =>
    if !host.tellsCalls then throw (.stray .unknownName "*")
    else
      let (taken, rest) := session.journal.partition (·.1 == host.serial)
      set { session with journal := rest }
      return taken.reverse.map (·.2)

end Session

/-- The arguments of a call as they are shown. Of a row of bytes with its length behind it, only
    the bytes that count are. -/
def Call.shown : List Datum → List Datum
  | .buffer b :: length :: rest =>
    match length.integral? with
    | some n =>
      (if b.exporter = .memory then .octets (Octets.window b.flat 0 n) else .buffer b) ::
        length :: shown rest
    | none => .buffer b :: shown (length :: rest)
  | d :: rest => d :: shown rest
  | [] => []

end CryptoIntrinsics
