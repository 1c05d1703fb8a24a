import CryptoIntrinsics.CommandLine.Tool
import CryptoIntrinsics.Datum.Attribute
import CryptoIntrinsics.Session.Decoding
import CryptoIntrinsics.Session.Intrinsics

namespace CryptoIntrinsics

/-- Where a step takes a host from. -/
inductive HostSource where
  | fresh (host : Host)
  /-- A native host by the policy in force. -/
  | byPolicy (label : Option String)
  | named (label : String)

inductive MessageForm where
  | row (data length : Datum)
  | raw (data length : Datum)
  | text (data : Datum)
  | bytes (data : Datum)
  | elements (values format : Datum)
  | array (values format count : Datum)
  | any (data : Datum)

/-- The operations of the library on values that may be anything. -/
inductive Operation where
  | encodeVarint (value bound : Datum)
  | decodeVarint (source offset bound strict : Datum)
  | varintSize (value : Datum)
  | dropMarker (text : String)
  | decodeHex (text : Datum)
  | newChecksum (kind : Checksum.Kind) (data : Datum)
  | zeroChecksum (kind : Checksum.Kind)
  | checksumOfHex (kind : Checksum.Kind) (text : String)
  | readChecksum (kind : Checksum.Kind) (source : Datum)
  | readChecksumAt (kind : Checksum.Kind) (source offset : Datum)
  | newCredential (kind : Credential.Kind) (tag data : Datum)
  | credentialOfHex (kind : Credential.Kind) (text : String)
  | readCredential (kind : Credential.Kind) (source : Datum)
  | readCredentialAt (kind : Credential.Kind) (source offset : Datum)
  | curveOfTag (tag : Datum)
  | serialize (value : Datum)
  | equals (a b : Datum)
  | compare (a b : Datum)
  | sort (values : Datum)
  | countDistinct (values : Datum)
  | assign (value name : Datum)
  | message (form : MessageForm)
  | isMessage (source : Datum)
  | digest (algorithm : Digest.Algorithm) (data : Datum)
  | assertDigest (algorithm : Digest.Algorithm) (data expected : Datum)
  | recoverKey (digest sig : Datum)
  | assertRecoverKey (digest sig expected : Datum)
  | verifyRsa (data sig exponent modulus : Datum)
  | verifyRsaRaw (data length sig exponent modulus : Datum)
  | callHost (name : Datum) (arguments : List Datum)
  | activeHost
  | dismissHost
  | installHost (source : HostSource)
  | looksLikeHost (source : HostSource)
  | takeCalls (label : String)
  | policy
  | forgetPolicy
  | setVariables (changes : List (String × Option String))
  | release (installed : Option String)
  | forgetRelease
  | describe (fault : Fault)
  | tool (directory : CommandLine.Directory) (words : List String)

/-- Two values compared: whether they are equal, how they stand if they have an order, and whether
    their fingerprints agree. -/
structure Comparison where
  equal : Bool
  before : Option Bool
  notAfter : Option Bool
  after : Option Bool
  notBefore : Option Bool
  sameFingerprint : Bool
deriving DecidableEq, Repr

def Comparison.of (a b : Datum) : Except Failure Comparison := do
  let equal := a.equal b
  let before := a.before? b
  let after := b.before? a
  let print ← a.fingerprint
  let other ← b.fingerprint
  return ⟨equal, before, before.map (· || equal), after, after.map (· || equal), print.agrees other⟩

inductive Standing where
  | noHost
  | unnamed
  | named (label : String)
deriving DecidableEq, Repr

inductive Answer where
  | datum (value : Datum)
  /-- A value that was read, and the offset behind it. -/
  | placed (value : Datum) (next : Int)
  | compared (comparison : Comparison)
  | host (shown : String)
  | calls (calls : List Call)
  | policy (policy : Policy)
  | fault (fault : Fault)
  | tool (ending : CommandLine.Ending)
  /-- The outcomes of the steps that ran under another host. -/
  | outcomes (outcomes : List (Except Failure Answer × Standing))
  /-- The answers of such steps where none failed. -/
  | answers (answers : List Answer)
  /-- A contained step: its answer or the fatal fault it ended in. -/
  | contained (result : Except Fault Answer)

inductive Step where
  | perform (operation : Operation)
  /-- A step whose arguments could not be made. -/
  | unmade (failure : Failure)
  /-- Runs steps while a host is active, and restores the one that was. When `strictly`, the first
      failure ends the steps and is the failure of the whole. -/
  | underHost (source : HostSource) (body : List Step) (strictly : Bool)
  /-- Runs a step and contains a fatal fault, which is then answered or, when `raising`, reported as
      the end of the unit of execution. -/
  | contain (step : Step) (raising : Bool)

namespace Operation

open Procedure Session

def done : Answer := .datum .nothing

/-- The host a source gives. A host made for a step gets its serial and its name here. -/
def hostOf : HostSource → Procedure Host
  | .fresh host => enroll host
  | .byPolicy label => do enroll (Native.host label (.ofPolicy (← currentPolicy)))
  | .named label => do
    match (← get).roster.lookup label with
    | some host => return host
    | none => throw (.stray .key "*")

def encodeVarint? (value bound : Datum) : Except Failure Octets :=
  match value.integer? with
  | none => .error (.misuse .varintNotInteger)
  | some n => do
    if n < 0 then .error (.misuse .varintNegative)
    else if ← bound.precedes (.integer n) then .error (.misuse (.varintExceeds n bound))
    else .ok (Varint.encode n.toNat)

/-- The bytes that bare digit pairs write. Zero bytes write none. -/
def decodeHex? (text : Datum) : Except Failure Octets :=
  let digits? : Except Failure (Except Hex.Flaw Octets) :=
    match text.integral? with
    | some n =>
      (Datum.blankSize n).map fun size =>
        if size = 0 then .ok [] else .error (if size % 2 = 1 then .oddLength else .notDigit)
    | none => text.toOctets.map Hex.decode
  digits?.bind fun
    | .ok bytes => .ok bytes
    | .error flaw => .error (.misuse (.notHex flaw))

def serialize? : Datum → Except Failure Octets
  | .checksum _ c => .ok c.serialize
  | .publicKey k => .ok k.serialize
  | .signature s => .ok s.serialize
  | _ => .error (.stray .unknownName "*")

/-- Whether two keys or signatures are the same. Values of different kinds never are. -/
def equals? (a b : Datum) : Except Failure Bool :=
  match a, b with
  | .publicKey k, .publicKey l => .ok (k == l)
  | .signature s, .signature t => .ok (s == t)
  | _, _ => if a.typeName = b.typeName then .error (.stray .unknownName "*") else .ok false

def messageOf : MessageForm → Except Failure Message
  | .row data length => Message.ofRow data length
  | .raw data length => Message.ofRaw data length
  | .text data => Message.ofText data
  | .bytes data => Message.ofBuffer data
  | .elements values format => Message.ofElements values format
  | .array values format count => Message.ofArray values format count
  | .any data => Message.ofDatum data

def run : Operation → Procedure Answer
  | encodeVarint value bound => do return .datum (.octets (← demand (encodeVarint? value bound)))
  | decodeVarint source offset bound strict => do
    let (value, next) ← Decoding.varint source offset bound strict
    return .placed (.integer value) next
  | varintSize value =>
    match value.integral? with
    | some n => return .datum (.integer (Varint.size n.natAbs))
    | none => throw (.stray .unknownName "*")
  | dropMarker text => return .datum (.text (String.ofList (Hex.dropMarker text.toList)))
  | decodeHex text => do return .datum (.octets (← demand (decodeHex? text)))
  | newChecksum kind data => do
    return .datum (.checksum kind (← demand (Checksum.ofDatum kind data)))
  | zeroChecksum kind => return .datum (.checksum kind (Checksum.zero kind))
  | checksumOfHex kind text => do
    return .datum (.checksum kind (← demand (Checksum.settle (Checksum.ofHex kind text))))
  | readChecksum kind source => do
    return .datum (.checksum kind (← demand (Checksum.read kind source)))
  | readChecksumAt kind source offset => do
    let (value, next) ← demand (Checksum.readAt kind source offset)
    return .placed (.checksum kind value) next
  | newCredential kind tag data => do
    return .datum (← demand (Credential.ofData kind tag data)).toDatum
  | credentialOfHex kind text => do return .datum (← Decoding.credentialOfHex kind text).toDatum
  | readCredential kind source => do return .datum (← Decoding.credential kind source).toDatum
  | readCredentialAt kind source offset => do
    let (value, next) ← Decoding.credentialAt kind source offset
    return .placed value.toDatum next
  | curveOfTag tag => do return .datum (.curve (← demand (Curve.ofDatum tag)))
  | serialize value => do return .datum (.octets (← demand (serialize? value)))
  | equals a b => do return .datum (.truth (← demand (equals? a b)))
  | compare a b => do return .compared (← demand (Comparison.of a b))
  | sort values => do
    match Datum.sort? (← demand values.members) with
    | some sorted => return .datum (.list sorted)
    | none => throw .badType
  | countDistinct values => do
    let items ← demand values.members
    return .datum (.integer (← demand (Datum.countDistinct items)))
  | assign value name => do
    demand (value.assign name)
    return done
  | message form => do return .datum (.message (← demand (messageOf form)))
  | isMessage source => do
    let _ ← demand (Message.ofDatum source)
    match source with
    | .message _ => return .datum (.truth true)
    | _ => return .datum (.truth false)
  | digest algorithm data => do
    return .datum (.checksum algorithm.kind (← Intrinsics.digest algorithm data))
  | assertDigest algorithm data expected => do
    Intrinsics.assertDigest algorithm data expected
    return done
  | recoverKey hash sig => do return .datum (.publicKey (← Intrinsics.recoverKey hash sig))
  | assertRecoverKey hash sig expected => do
    Intrinsics.assertRecoverKey hash sig expected
    return done
  | verifyRsa data sig exponent modulus => do
    return .datum (.truth (← Intrinsics.verifyRsa data sig exponent modulus))
  | verifyRsaRaw data length sig exponent modulus => do
    return .datum (.truth (← Intrinsics.verifyRsaRaw data length sig exponent modulus))
  | callHost name arguments => do
    match name with
    | .text method => return .datum (← Session.callHost method arguments)
    | .garbled _ =>
      let _ ← Session.activeHost
      throw (.stray .unknownName "*")
    | _ =>
      let _ ← Session.activeHost
      throw .badType
  | activeHost => do return .host (← Session.activeHost).shown
  | dismissHost => do
    dismiss
    return done
  | installHost source => do
    install (← hostOf source)
    return done
  | looksLikeHost source => do return .datum (.truth (← hostOf source).looksComplete)
  | takeCalls label => do return .calls (← Session.takeCalls label)
  | policy => do return .policy (← currentPolicy)
  | forgetPolicy => do
    Session.forgetPolicy
    return done
  | setVariables changes => do
    Session.setVariables changes
    return done
  | release installed => do return .datum (.text (← currentRelease installed))
  | forgetRelease => do
    Session.forgetRelease
    return done
  | describe fault => return .fault fault
  | tool directory words => do return .tool (← CommandLine.run directory.read words)

end Operation

namespace Session

open Procedure

def standing (session : Session) : Standing :=
  match session.active with
  | none => .noHost
  | some host =>
    match host.label with
    | none => .unnamed
    | some label => .named label

/-- Runs a procedure while a host is active, and then makes the one active that was, however the
    procedure ended. An object that is no complete host is refused before anything is run. -/
def within {α : Type} (host : Host) (procedure : Procedure α) : Procedure α := do
  let previous := (← get).active
  install host
  let outcome ← attempt procedure
  modify ({ · with active := previous })
  demand outcome

/-- Runs a procedure and contains a fatal fault. -/
def contain (raising : Bool) (procedure : Procedure Answer) : Procedure Answer := do
  match ← attempt procedure with
  | .ok answer => return .contained (.ok answer)
  | .error (.fault fault) =>
    if !fault.isFatal then throw (.fault fault)
    else if raising then throw (.aborted fault)
    else return .contained (.error fault)
  | .error failure => throw failure

end Session

namespace Step

open Procedure Session

mutual

def run : Step → Procedure Answer
  | perform operation => operation.run
  | unmade failure => throw failure
  | underHost source body strictly => do
    let host ← Operation.hostOf source
    within host <|
      if strictly then do return .answers (← runStrictly body)
      else do return .outcomes (← runAll body)
  | contain step raising => Session.contain raising (run step)

/-- Runs steps one after the other, whether they fail or not. -/
def runAll : List Step → Procedure (List (Except Failure Answer × Standing))
  | [] => return []
  | step :: rest => do
    let outcome ← attempt (run step)
    let standing := (← get).standing
    return (outcome, standing) :: (← runAll rest)

/-- Runs steps one after the other until one fails. -/
def runStrictly : List Step → Procedure (List Answer)
  | [] => return []
  | step :: rest => do
    let answer ← run step
    return answer :: (← runStrictly rest)

end

end Step

end CryptoIntrinsics
