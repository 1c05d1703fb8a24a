import CryptoIntrinsics.Credential.Source
import CryptoIntrinsics.Message.Source
import CryptoIntrinsics.Session.State

namespace CryptoIntrinsics.Intrinsics

open Procedure Session

/-- Whether the failure to read a reply says that its bytes are malformed or that it is of the wrong
    kind. -/
def findsMalformed : Failure → Bool
  | .fault f => f.family == .decode
  | .misuse m => m.isKind
  | .stray kind _ => kind == .type
  | _ => false

/-- What becomes of the failure to read a reply. A malformed reply is a fault of the host; any other
    failure stays as it is. -/
def unusable (failure : Failure) (message : String) (context : List (String × Datum)) : Failure :=
  if findsMalformed failure then .fault (.of .host message context) else failure

def digestOfReply (algorithm : Digest.Algorithm) (reply : Datum) :
    Procedure (Checksum algorithm.kind) :=
  match Checksum.ofDatum algorithm.kind reply with
  | .ok value => return value
  | .error failure =>
    let call := (Method.digest algorithm).name
    throw <| unusable failure s!"host {call} returned a malformed digest: {failure.message}"
      [("call", .text call)]

def digest (algorithm : Digest.Algorithm) (data : Datum) : Procedure (Checksum algorithm.kind) := do
  let message ← demand (Message.ofDatum data)
  let reply ← callHost (Method.digest algorithm).name [.buffer message.window, .measure message]
  digestOfReply algorithm reply

def assertDigest (algorithm : Digest.Algorithm) (data expected : Datum) : Procedure Unit := do
  let wanted ← demand (Checksum.ofArgument algorithm.kind "expected" expected)
  let message ← demand (Message.ofDatum data)
  let _ ← callHost (Method.assertDigest algorithm).name
    [.buffer message.window, .measure message, .octets wanted.data]

/-- Reads a reply as the canonical encoding of a key. -/
def keyOfReply (reply : Datum) : Procedure PublicKey := do
  let malformed (failure : Failure) : Failure :=
    unusable failure s!"host recover_key returned a malformed key: {failure.message}" []
  match reply.lent with
  | .error failure => throw (malformed failure)
  | .ok bytes =>
    let policy ← currentPolicy
    match Credential.deserialize .publicKey policy.strictVarint bytes with
    | .ok key => return key
    | .error flaw => throw (malformed (flaw.failure (.integer 0)))

def recoverKey (digest sig : Datum) : Procedure PublicKey := do
  let d ← demand (Checksum.ofArgument .bits256 "digest" digest)
  let s ← demand (Credential.signatureOf "sig" sig)
  let reply ← callHost Method.recoverKey.name [.octets d.data, .octets s.serialize]
  keyOfReply reply

def assertRecoverKey (digest sig expected : Datum) : Procedure Unit := do
  let d ← demand (Checksum.ofArgument .bits256 "digest" digest)
  let k ← demand (Credential.publicKeyOf "expected_key" expected)
  let s ← demand (Credential.signatureOf "sig" sig)
  let _ ← callHost Method.assertRecoverKey.name
    [.octets d.data, .octets s.serialize, .octets k.serialize]

/-- The bytes of a hexadecimal text given as text or as bytes; what they say is the host's to
    judge. -/
def hexText (argument : String) (d : Datum) : Except Failure Octets :=
  match d with
  | .text s => .ok (Octets.ofText s)
  | .garbled _ => .error (.stray .unencodable "*")
  | _ =>
    match d.bytesLike? with
    | some bytes => .ok bytes
    | none => .error (d.refusal (.hexTextExpected argument d.typeName))

/-- The verdict that a call for one ended in. A host that rejects its input has not verified the
    signature. -/
def verdictOf : Except Failure Datum → Except Failure Bool
  | .ok reply =>
    match reply.truth? with
    | some verdict => .ok verdict
    | none => .error (.stray .value "*")
  | .error (.fault f) => if f.family = .invalidInput then .ok false else .error (.fault f)
  | .error failure => .error failure

/-- The verdict on an RSA signature over the first bytes of a lent buffer. -/
def verifyRsaRaw (data length sig exponent modulus : Datum) : Procedure Bool := do
  let message ← demand (Message.ofRaw data length)
  let s ← demand (hexText "signature" sig)
  let e ← demand (hexText "exponent" exponent)
  let n ← demand (hexText "modulus" modulus)
  let outcome ← attempt <| callHost Method.verifyRsa.name
    [.buffer message.window, .measure message, .octets s, .integer s.length,
     .octets e, .integer e.length, .octets n, .integer n.length]
  demand (verdictOf outcome)

/-- The verdict on an RSA signature over a message, by way of its row of bytes. -/
def verifyRsa (data sig exponent modulus : Datum) : Procedure Bool := do
  let message ← demand (Message.ofDatum data)
  verifyRsaRaw (.buffer message.window) (.measure message) sig exponent modulus

end CryptoIntrinsics.Intrinsics
