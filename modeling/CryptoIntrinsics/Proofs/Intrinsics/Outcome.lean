import CryptoIntrinsics.Proofs.Intrinsics.Discipline
import CryptoIntrinsics.Proofs.Message.Forms

namespace CryptoIntrinsics.Intrinsic

open Procedure Session

def outcome (i : Intrinsic) (session : Session) : Except Failure Answer :=
  (i.operation.run.runOn session).1

/-- The host receives one call of the operation's method, about a message with these bytes and with
    the further arguments. -/
def Sends (i : Intrinsic) (session : Session) (bytes : Octets) (rest : List Datum) : Prop :=
  ∃ view length, Marks view length bytes ∧
    (i.operation.run.runOn session).2.journal =
      (session.host.serial, ⟨i.method.name, view :: length :: rest⟩) :: session.journal

section Request

variable {i : Intrinsic} {session : Session}

theorem outcome_of_error {failure : Failure} (hrequest : i.request = .error failure) :
    i.outcome session = .error failure :=
  congrArg Prod.fst (runOn_operation_of_error hrequest session)

theorem outcome_of_ok {arguments : List Datum} (hrequest : i.request = .ok arguments)
    (hready : session.Ready) :
    i.outcome session =
      ((i.conclude (session.returned i.method arguments)).runOn
        (session.called i.method arguments)).1 :=
  congrArg Prod.fst (runOn_operation_of_ok hrequest hready)

theorem journal_of_ok {arguments : List Datum} (hrequest : i.request = .ok arguments)
    (hready : session.Ready) :
    (i.operation.run.runOn session).2.journal =
      (session.host.serial, ⟨i.method.name, arguments⟩) :: session.journal := by
  have hrecalls := i.recalls_conclude (session.returned i.method arguments)
    (session.called i.method arguments)
  rw [runOn_operation_of_ok hrequest hready, hrecalls.journal_eq, journal_called]

theorem sends_of_ok {m : Message} {rest : List Datum}
    (hrequest : i.request = .ok (crossing m ++ rest)) (hready : session.Ready) :
    i.Sends session m.payload rest :=
  ⟨_, _, marks_crossing m, journal_of_ok hrequest hready⟩

/-- Whatever comes of an operation, the next call reaches the host that this one reaches. -/
theorem host_run (i : Intrinsic) (hready : session.Ready) :
    (i.operation.run.runOn session).2.host = session.host := by
  cases hrequest : i.request with
  | error failure => rw [runOn_operation_of_error hrequest session]
  | ok arguments =>
    obtain ⟨_, -, -, hactive⟩ := callsOnce_of_ok hrequest hready
    rw [Session.host, hactive, Option.getD_some]

/-- An operation leaves the policy in force as it is, though perhaps remembered. -/
theorem policyInForce_run (i : Intrinsic) (hready : session.Ready) :
    (i.operation.run.runOn session).2.policyInForce = session.policyInForce := by
  cases hrequest : i.request with
  | error failure => rw [runOn_operation_of_error hrequest session]
  | ok arguments =>
    have hrecalls := i.recalls_conclude (session.returned i.method arguments)
      (session.called i.method arguments)
    rw [runOn_operation_of_ok hrequest hready, hrecalls.policyInForce_eq, policyInForce_called]

end Request

end CryptoIntrinsics.Intrinsic
