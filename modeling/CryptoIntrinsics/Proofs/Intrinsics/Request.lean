import CryptoIntrinsics.Proofs.Intrinsics.Arguments
import CryptoIntrinsics.Proofs.Session.Boundary
import CryptoIntrinsics.Session.Step

namespace CryptoIntrinsics

namespace Procedure

variable {α β : Type}

theorem demand_pure (value : α) : demand (pure value) = pure value := rfl

theorem demand_bind (first : Except Failure α) (next : α → Except Failure β) :
    demand (first >>= next) = demand first >>= fun value => demand (next value) := by
  cases first with
  | ok value => rfl
  | error failure => rfl

theorem demand_map (first : Except Failure α) (next : α → β) :
    demand (first.map next) = demand first >>= fun value => pure (next value) := by
  cases first with
  | ok value => rfl
  | error failure => rfl

/-- An attempt whose end is demanded after all is no attempt. -/
theorem attempt_bind_demand (procedure : Procedure α) (next : α → Procedure β) :
    (attempt procedure >>= fun outcome => demand outcome >>= next) = procedure >>= next := by
  funext session
  change (attempt procedure >>= fun outcome => demand outcome >>= next).runOn session =
    (procedure >>= next).runOn session
  rw [runOn_bind, runOn_attempt, runOn_bind procedure]
  dsimp only
  rw [runOn_demand_bind]
  cases procedure.runOn session with
  | mk outcome later => cases outcome <;> rfl

end Procedure

/-- The operations offered to contracts, with their arguments. -/
inductive Intrinsic where
  | digest (algorithm : Digest.Algorithm) (data : Datum)
  | assertDigest (algorithm : Digest.Algorithm) (data expected : Datum)
  | recoverKey (hash sig : Datum)
  | assertRecoverKey (hash sig expected : Datum)
  | verifyRsa (data sig exponent modulus : Datum)
  | verifyRsaRaw (data length sig exponent modulus : Datum)

namespace Intrinsic

open Procedure Session

def operation : Intrinsic → Operation
  | digest algorithm data => .digest algorithm data
  | assertDigest algorithm data expected => .assertDigest algorithm data expected
  | recoverKey hash sig => .recoverKey hash sig
  | assertRecoverKey hash sig expected => .assertRecoverKey hash sig expected
  | verifyRsa data sig exponent modulus => .verifyRsa data sig exponent modulus
  | verifyRsaRaw data length sig exponent modulus => .verifyRsaRaw data length sig exponent modulus

def method : Intrinsic → Method
  | digest algorithm _ => .digest algorithm
  | assertDigest algorithm _ _ => .assertDigest algorithm
  | recoverKey _ _ => .recoverKey
  | assertRecoverKey _ _ _ => .assertRecoverKey
  | verifyRsa _ _ _ _ | verifyRsaRaw _ _ _ _ _ => .verifyRsa

/-- A message as it crosses the boundary. -/
def crossing (m : Message) : List Datum := [.buffer m.window, .measure m]

/-- A hexadecimal text as it crosses the boundary. -/
def spelled (bytes : Octets) : List Datum := [.octets bytes, .integer bytes.length]

def rsaRequest (message : Message) (sig exponent modulus : Datum) :
    Except Failure (List Datum) := do
  let s ← Intrinsics.hexText "signature" sig
  let e ← Intrinsics.hexText "exponent" exponent
  let n ← Intrinsics.hexText "modulus" modulus
  return crossing message ++ spelled s ++ spelled e ++ spelled n

/-- The arguments of the call, unless those of the operation are rejected. -/
def request : Intrinsic → Except Failure (List Datum)
  | digest _ data => (Message.ofDatum data).map crossing
  | assertDigest algorithm data expected => do
    let wanted ← Checksum.ofArgument algorithm.kind "expected" expected
    let message ← Message.ofDatum data
    return crossing message ++ [.octets wanted.data]
  | recoverKey hash sig => do
    let d ← Checksum.ofArgument .bits256 "digest" hash
    let s ← Credential.signatureOf "sig" sig
    return [.octets d.data, .octets s.serialize]
  | assertRecoverKey hash sig expected => do
    let d ← Checksum.ofArgument .bits256 "digest" hash
    let k ← Credential.publicKeyOf "expected_key" expected
    let s ← Credential.signatureOf "sig" sig
    return [.octets d.data, .octets s.serialize, .octets k.serialize]
  | verifyRsa data sig exponent modulus => do
    let message ← Message.ofDatum data
    let again ← Message.ofRaw (.buffer message.window) (.measure message)
    rsaRequest again sig exponent modulus
  | verifyRsaRaw data length sig exponent modulus => do
    let message ← Message.ofRaw data length
    rsaRequest message sig exponent modulus

/-- What is made of the end of the call. -/
def conclude : Intrinsic → Except Failure Datum → Procedure Answer
  | digest algorithm _, outcome => do
    let reply ← demand outcome
    return .datum (.checksum algorithm.kind (← Intrinsics.digestOfReply algorithm reply))
  | recoverKey _ _, outcome => do
    let reply ← demand outcome
    return .datum (.publicKey (← Intrinsics.keyOfReply reply))
  | assertDigest _ _ _, outcome | assertRecoverKey _ _ _, outcome => do
    let _ ← demand outcome
    return Operation.done
  | verifyRsa _ _ _ _, outcome | verifyRsaRaw _ _ _ _ _, outcome => do
    return .datum (.truth (← demand (Intrinsics.verdictOf outcome)))

/-- Every operation is a request, one call, and a conclusion. -/
theorem run_operation (i : Intrinsic) :
    i.operation.run =
      demand i.request >>= fun arguments =>
        attempt (callHost i.method.name arguments) >>= fun outcome => i.conclude outcome := by
  cases i with
  | digest algorithm data =>
    simp only [operation, Operation.run, Intrinsics.digest, request, method, conclude, demand_map,
      attempt_bind_demand, bind_assoc, pure_bind, crossing]
  | assertDigest algorithm data expected =>
    simp only [operation, Operation.run, Intrinsics.assertDigest, request, method, conclude,
      demand_bind, demand_pure, attempt_bind_demand, bind_assoc, pure_bind, crossing]
    rfl
  | recoverKey hash sig =>
    simp only [operation, Operation.run, Intrinsics.recoverKey, request, method, conclude,
      demand_bind, demand_pure, attempt_bind_demand, bind_assoc, pure_bind]
  | assertRecoverKey hash sig expected =>
    simp only [operation, Operation.run, Intrinsics.assertRecoverKey, request, method, conclude,
      demand_bind, demand_pure, attempt_bind_demand, bind_assoc, pure_bind]
  | verifyRsa data sig exponent modulus =>
    simp only [operation, Operation.run, Intrinsics.verifyRsa, Intrinsics.verifyRsaRaw, request,
      method, conclude, rsaRequest, demand_bind, demand_pure, bind_assoc, pure_bind, crossing, spelled]
    rfl
  | verifyRsaRaw data length sig exponent modulus =>
    simp only [operation, Operation.run, Intrinsics.verifyRsaRaw, request, method, conclude,
      rsaRequest, demand_bind, demand_pure, bind_assoc, pure_bind, crossing, spelled]
    rfl

/-- Rejected arguments leave the session as it is. -/
theorem runOn_operation_of_error {i : Intrinsic} {failure : Failure}
    (hrequest : i.request = .error failure) (session : Session) :
    i.operation.run.runOn session = (.error failure, session) := by
  rw [run_operation, runOn_demand_bind, hrequest]

/-- A request reaches the host, and the conclusion is drawn in the session that the call left. -/
theorem runOn_operation_of_ok {i : Intrinsic} {arguments : List Datum}
    (hrequest : i.request = .ok arguments) {session : Session} (hready : session.Ready) :
    i.operation.run.runOn session =
      (i.conclude (session.returned i.method arguments)).runOn
        (session.called i.method arguments) := by
  rw [run_operation, runOn_demand_bind, hrequest]
  dsimp only
  rw [runOn_bind, runOn_attempt, runOn_callHost hready]

end Intrinsic

end CryptoIntrinsics
