import CryptoIntrinsics.Datum.Order
import CryptoIntrinsics.Host.Basic
import CryptoIntrinsics.Rsa

namespace CryptoIntrinsics.Native

/-- How a native host is set up: whether it elides assertions, which any value says by counting as
    true, and the cap, with which lengths are compared. -/
structure Settings where
  fastEval : Datum
  maxInputBytes : Datum

namespace Settings

def elides (s : Settings) : Except Failure Bool :=
  match s.fastEval.truth? with
  | some flag => .ok flag
  | none => .error (.stray .value "*")

theorem elides_of_truth? {s : Settings} {flag : Bool} (hflag : s.fastEval.truth? = some flag) :
    s.elides = .ok flag := by
  rw [elides, hflag]

def ofCap (fastEval : Bool) (cap : Int) : Settings := ⟨.truth fastEval, .integer cap⟩

def ofPolicy (policy : Policy) : Settings := ofCap policy.fastEval policy.maxInputBytes

def shown (s : Settings) : String :=
  s!"NativeHost(fast_eval={s.fastEval.shown}, max_input_bytes={s.maxInputBytes.shown})"

def isBeyondCap (s : Settings) (length : Datum) : Except Failure Bool :=
  s.maxInputBytes.precedes length

theorem isBeyondCap_ofCap (fastEval : Bool) (cap length : Int) :
    (ofCap fastEval cap).isBeyondCap (.integer length) = .ok (decide (cap < length)) :=
  Datum.precedes_integer cap length

end Settings

/-- What a reader gets who asks for the first `length` bytes of a buffer. The length is checked
    against the bytes of the buffer, but counts elements when they are taken. -/
def take (subject : String) (d length : Datum) : Except Failure Octets :=
  match d, length.number? with
  | .buffer b, some n =>
    if n.precedes (.integer 0) ∨ Number.precedes (.integer b.flat.length) n then
      if length.isWritable then
        .error <| .fault <| .of .invalidInput
          s!"{subject} length {length.shown} outside buffer of {b.flat.length} bytes" []
      else .error (.stray .value "*")
    else
      match length.integral?.bind fun count => b.head? count.toNat with
      | some bytes => .ok bytes
      | none => .error .badType
  | .released, some _ => .error (.stray .value "*")
  | _, _ => .error .badType

def oversizeFault (s : Settings) (algorithm : Digest.Algorithm) (length : Datum) : Fault :=
  .of .host s!"{algorithm.name} input too large ({length.shown} bytes > {s.maxInputBytes.shown})"
    [("algo", .text algorithm.name), ("length", length)]

/-- The failure to digest a message that is longer than the cap. The length or the cap may have too
    many digits for the message about them; that there is no message is then the failure. -/
def oversize (s : Settings) (algorithm : Digest.Algorithm) (length : Datum) : Failure :=
  if length.isWritable && s.maxInputBytes.isWritable then .fault (oversizeFault s algorithm length)
  else .stray .value "*"

/-- The digest's bytes of the first bytes of a buffer. Too long and impossible lengths are faults
    of the host. -/
def digest (s : Settings) (algorithm : Digest.Algorithm) (data length : Datum) :
    Except Failure Octets := do
  if ← s.isBeyondCap length then .error (oversize s algorithm length)
  else
    match take "data" data length with
    | .ok bytes => .ok (algorithm.hash bytes)
    | .error (.fault f) =>
      .error <| .fault <|
        if f.family = .invalidInput then .of .host f.message [("algo", .text algorithm.name)] else f
    | .error failure => .error failure

def assertDigest (s : Settings) (algorithm : Digest.Algorithm) (data length expected : Datum) :
    Except Failure Datum := do
  let actual ← digest s algorithm data length
  let wanted ← expected.toOctets
  if actual = wanted then .ok .nothing
  else
    .error <| .fault <| .of .mismatch s!"{algorithm.name} hash mismatch"
      [("algo", .text algorithm.name), ("expected", .text (Hex.encode wanted)),
       ("actual", .text (Hex.encode actual))]

def recover (strict : Bool) (digest sig : Octets) : Except Recovery.Flaw Octets :=
  match Credential.deserialize .signature strict sig with
  | .error flaw => .error (.malformed flaw)
  | .ok value => (Recovery.solve digest value).map (Varint.encode value.tag ++ ·)

/-- A recovery whose failure is fatal. -/
def recoverKey (strict : Bool) (digest sig : Octets) : Except Failure Octets :=
  match recover strict digest sig with
  | .ok key => .ok key
  | .error flaw => .error (.fault flaw.fault)

def assertRecoverKey (strict : Bool) (digest sig : Octets) (expected : Datum) :
    Except Failure Datum := do
  let recovered ← recoverKey strict digest sig
  let wanted ← expected.toOctets
  if recovered = wanted then .ok .nothing
  else
    .error <| .fault <| .of .mismatch "public key does not match"
      [("expected", .text (Hex.encode wanted)), ("recovered", .text (Hex.encode recovered))]

/-- The bytes that the first `length` bytes of a buffer write as bare hexadecimal digit pairs, at
    least one. -/
def hexOctets (subject : String) (text length : Datum) : Except Failure Octets := do
  let raw ← take subject text length
  if raw.isEmpty then .error <| .fault <| .of .invalidInput s!"{subject} is empty" []
  else
    match Hex.decode raw with
    | .ok bytes => .ok bytes
    | .error _ => .error <| .fault <| .of .invalidInput s!"{subject} is not valid hex" []

/-- The verdict on an RSA signature, unless an argument is malformed. A modulus has no leading
    zero digit. -/
def rsaVerdict (message messageLength sig sigLength exponent exponentLength modulus
    modulusLength : Datum) : Except Failure Bool := do
  let payload ← take "message" message messageLength
  let digits ← take "modulus" modulus modulusLength
  if digits.head? = some 0x30 then
    .error <| .fault <| .of .invalidInput "modulus has a leading zero" []
  else
    let signature ← hexOctets "signature" sig sigLength
    let e ← hexOctets "exponent" exponent exponentLength
    let n ← hexOctets "modulus" modulus modulusLength
    .ok (Rsa.verify signature e.toNat n.toNat payload)

/-- The verdict on an RSA signature, where malformed input is a bad signature. -/
def verifyRsa (s : Settings) (message messageLength sig sigLength exponent exponentLength modulus
    modulusLength : Datum) : Except Failure Bool := do
  if ← s.isBeyondCap messageLength then .ok false
  else
    match rsaVerdict message messageLength sig sigLength exponent exponentLength modulus
      modulusLength with
    | .error (.fault f) => if f.family = .invalidInput then .ok false else .error (.fault f)
    | verdict => verdict

/-- What each boundary method does with its arguments. A wrong number of them is refused first. -/
def respond (s : Settings) : Method → List Datum → Response
  | .digest algorithm, [data, length] => .now ((digest s algorithm data length).map .octets)
  | .assertDigest algorithm, [data, length, expected] => .now <| do
    if ← s.elides then .ok .nothing else assertDigest s algorithm data length expected
  | .recoverKey, [digest, sig] =>
    match digest.toOctets, sig.toOctets with
    | .ok d, .ok encoded => .byPolicy fun policy =>
      (recoverKey policy.strictVarint d encoded).map .octets
    | .error failure, _ | .ok _, .error failure => .now (.error failure)
  | .assertRecoverKey, [digest, sig, expected] =>
    match s.elides, digest.toOctets, sig.toOctets with
    | .ok true, _, _ => .now (.ok .nothing)
    | .ok false, .ok d, .ok encoded => .byPolicy fun policy =>
      assertRecoverKey policy.strictVarint d encoded expected
    | .error failure, _, _ | .ok false, .error failure, _ | .ok false, .ok _, .error failure =>
      .now (.error failure)
  | .verifyRsa, [message, messageLength, sig, sigLength, exponent, exponentLength, modulus,
      modulusLength] =>
    .now <| (verifyRsa s message messageLength sig sigLength exponent exponentLength modulus
      modulusLength).map .truth
  | _, _ => .now (.error .badType)

def host (label : Option String) (s : Settings) : Host where
  label := label
  serial := 0
  className := "NativeHost"
  shown := s.shown
  tellsCalls := false
  member name :=
    match Method.ofName? name with
    | some m => .method (respond s m)
    | none => if ["fast_eval", "max_input_bytes"].contains name then .inert else .absent

end CryptoIntrinsics.Native
