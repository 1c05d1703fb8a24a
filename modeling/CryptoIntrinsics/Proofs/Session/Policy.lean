import CryptoIntrinsics.Session.Decoding

namespace CryptoIntrinsics

namespace Procedure

variable {α β : Type}

@[simp] theorem runOn_get (session : Session) :
    (get : Procedure Session).runOn session = (.ok session, session) := rfl

@[simp] theorem runOn_modify (change : Session → Session) (session : Session) :
    (modify change : Procedure PUnit).runOn session = (.ok ⟨⟩, change session) := rfl

/-- A step and what follows it: a failure ends both where the step left the session. -/
theorem runOn_bind (procedure : Procedure α) (next : α → Procedure β) (session : Session) :
    (procedure >>= next).runOn session =
      match procedure.runOn session with
      | (.ok value, later) => (next value).runOn later
      | (.error failure, later) => (.error failure, later) := by
  cases hrun : procedure.runOn session with
  | mk outcome later =>
    cases outcome with
    | ok value => rw [runOn_bind_of_ok hrun]
    | error failure => rw [runOn_bind_of_error hrun]

/-- What is demanded first leaves the session as it is. -/
theorem runOn_demand_bind (result : Except Failure α) (next : α → Procedure β)
    (session : Session) :
    (demand result >>= next).runOn session =
      match result with
      | .ok value => (next value).runOn session
      | .error failure => (.error failure, session) := by
  rw [runOn_bind, runOn_demand]
  cases result <;> rfl

end Procedure

namespace Session

open Procedure

/-- The policy in force: the one remembered, or else the one the environment asks for. -/
def policyInForce (session : Session) : Policy :=
  session.policy.getD (.ofEnvironment session.environment)

/-- Whether padded integers are refused where it is asked for like this, if that can be said. -/
def refusesPadding (session : Session) (asked : Datum) : Option Bool :=
  match asked with
  | .nothing => some session.policyInForce.strictVarint
  | _ => asked.truth?

/-- The session after the policy was asked for. -/
def remembering (session : Session) : Session :=
  { session with policy := some session.policyInForce }

theorem runOn_currentPolicy (session : Session) :
    currentPolicy.runOn session = (.ok session.policyInForce, session.remembering) := by
  obtain ⟨environment, policy, release, active, roster, journal, made⟩ := session
  cases policy <;> rfl

end Session

namespace Decoding

open Procedure Session

/-- Whether padded integers are refused is as asked for, or else as the policy in force says, which
    is then remembered. -/
theorem runOn_strictness (asked : Datum) (session : Session) :
    (strictness asked).runOn session =
      (match session.refusesPadding asked with
        | some refusing => .ok refusing
        | none => .error (.stray .value "*"),
        match asked with
        | .nothing => session.remembering
        | _ => session) := by
  cases asked with
  | nothing =>
    rw [strictness, runOn_bind, runOn_currentPolicy]
    rfl
  | _ =>
    unfold strictness Session.refusesPadding
    dsimp only
    split <;> simp_all

/-- Reading a key or a signature looks at the buffer first, and then reads by the policy in
    force. -/
theorem runOn_credential (kind : Credential.Kind) (source : Datum) (session : Session) :
    (credential kind source).runOn session =
      match source.lent with
      | .ok bytes =>
        (Credential.settle
          (Credential.deserialize kind session.policyInForce.strictVarint bytes),
          session.remembering)
      | .error failure => (.error failure, session) := by
  rw [credential, runOn_demand_bind]
  cases source.lent with
  | error failure => rfl
  | ok bytes =>
    dsimp only
    rw [runOn_bind, runOn_currentPolicy]
    exact runOn_demand _ _

theorem runOn_credentialOfHex (kind : Credential.Kind) (text : String) (session : Session) :
    (credentialOfHex kind text).runOn session =
      match Credential.settle (Credential.hexOctets kind text) with
      | .ok bytes =>
        (Credential.settle
          (Credential.deserialize kind session.policyInForce.strictVarint bytes),
          session.remembering)
      | .error failure => (.error failure, session) := by
  rw [credentialOfHex, runOn_demand_bind]
  cases Credential.settle (Credential.hexOctets kind text) with
  | error failure => rfl
  | ok bytes =>
    dsimp only
    rw [runOn_bind, runOn_currentPolicy]
    exact runOn_demand _ _

/-- What one key or signature is read as at an offset of bytes. -/
def credentialIn (kind : Credential.Kind) (strict : Bool) (offset : Datum) (bytes : Octets) :
    Except Failure (Credential kind × Int) := do
  match ← indexOf offset bytes.length with
  | none => .error ((Credential.Flaw.badTag .truncated).failure offset)
  | some start => Credential.settleAt offset (Credential.unpackFrom kind strict bytes start)

theorem credentialIn_integer (kind : Credential.Kind) (strict : Bool) (start : Int)
    (bytes : Octets) :
    credentialIn kind strict (.integer start) bytes =
      Credential.settleAt (.integer start) (Credential.unpackFrom kind strict bytes start) := rfl

theorem runOn_credentialAt (kind : Credential.Kind) (source offset : Datum) (session : Session) :
    (credentialAt kind source offset).runOn session =
      match source.lent with
      | .ok bytes =>
        (credentialIn kind session.policyInForce.strictVarint offset bytes, session.remembering)
      | .error failure => (.error failure, session) := by
  rw [credentialAt, runOn_demand_bind]
  cases source.lent with
  | error failure => rfl
  | ok bytes =>
    dsimp only
    rw [runOn_bind, runOn_currentPolicy]
    dsimp only
    rw [runOn_demand_bind, credentialIn]
    cases indexOf offset bytes.length with
    | error failure => rfl
    | ok place =>
      cases place with
      | none => rfl
      | some start => exact runOn_demand _ _

end Decoding

end CryptoIntrinsics
