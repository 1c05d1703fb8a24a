import CryptoIntrinsics.Datum.Printed
import CryptoIntrinsics.Elliptic.Recovery
import CryptoIntrinsics.Host.Method

namespace CryptoIntrinsics

namespace Fault

inductive Family where
  | general
  | decode
  | invalidInput
  | abort
  | mismatch
  | recovery
  | host
deriving DecidableEq, Repr

namespace Family

/-- The printed name, which also stands in for an empty message. -/
def name : Family → String
  | general => "CryptoError"
  | decode => "DecodeError"
  | invalidInput => "InvalidInput"
  | abort => "Abort"
  | mismatch => "VerificationMismatch"
  | recovery => "RecoveryError"
  | host => "HostFault"

def code : Family → String
  | general => "crypto_error"
  | decode => "decode_error"
  | invalidInput => "invalid_input"
  | abort => "abort"
  | mismatch => "verification_mismatch"
  | recovery => "recover_failed"
  | host => "host_fault"

def isFatal : Family → Bool
  | general | decode | invalidInput => false
  | abort | mismatch | recovery | host => true

end Family

end Fault

structure Fault where
  family : Fault.Family
  message : String
  code : String
  context : List (String × Datum)

inductive Misuse where
  | varintNotInteger
  | bytesExpected (subject : String) (got : String)
  | tagNotInteger (got : String)
  | bufferExpected (got : String)
  | notByteRow
  | lengthNotInteger (got : String)
  | textExpected (got : String)
  | hexTextExpected (argument got : String)
  | wrongKind (argument wanted got : String)
  | checksumExpected (argument wanted got : String)
  | hostIncomplete (missing : List Method)
  | varintNegative
  | varintExceeds (value : Int) (bound : Datum)
  | notHex (flaw : Hex.Flaw)
  | negativeTag (tag : Datum)
  | abstractTag
  | tagOutOfRange (tag : Int)
  | notContiguous
  | negativeLength (length : Int)
  | lengthExceeds (length : Int) (size : Nat)
  | unsupportedFormat (format : Datum)
  | unpackable (format : String)
  | elementCount (wanted : Datum) (got : Nat)

inductive Stray where
  | runtime
  | value
  | key
  | type
  | index
  | overflow
  | memory
  | unencodable
  | unsupported
  | unknownName
  | frozen
deriving DecidableEq, Repr

/-- Why an error has no message. -/
inductive Untold where
  /-- It holds an integer of too many digits. -/
  | tooLong
  /-- What it holds for a message is no text. -/
  | notText
deriving DecidableEq, Repr

/-- All ways in which an operation fails. A stray error has a text, which is `*` where no caller
    may rely on it; `aborted` reports that a unit of execution ended in a fatal fault; and of an
    error without a message there is the name of its class. -/
inductive Failure where
  | fault (fault : Fault)
  | misuse (misuse : Misuse)
  | stray (kind : Stray) (text : String)
  | aborted (fault : Fault)
  | untold (className : String) (reason : Untold)

namespace Fault

def of (family : Family) (message : String) (context : List (String × Datum)) : Fault :=
  ⟨family, if message.isEmpty then family.name else message, family.code, context⟩

theorem message_of {message : String} (hfilled : message ≠ "") (family : Family)
    (context : List (String × Datum)) : (of family message context).message = message := by
  simp [of, hfilled]

def withCode (family : Family) (message : String) (code : Option String)
    (context : List (String × Datum)) : Fault :=
  { of family message context with code := code.getD family.code }

def isFatal (f : Fault) : Bool := f.family.isFatal

end Fault

namespace Varint.Flaw

def message (bound : Datum) : Flaw → String
  | truncated => "truncated uvarint"
  | tooLong => "uvarint too long"
  | nonMinimal => "non-minimal uvarint"
  | exceeds value => s!"uvarint value {value} exceeds {bound.shown}"

@[simp] theorem message_truncated (bound : Datum) :
    truncated.message bound = "truncated uvarint" := rfl

@[simp] theorem message_tooLong (bound : Datum) : tooLong.message bound = "uvarint too long" := rfl

@[simp] theorem message_nonMinimal (bound : Datum) :
    nonMinimal.message bound = "non-minimal uvarint" := rfl

def fault (flaw : Flaw) (offset bound : Datum) : Fault :=
  .of .decode (flaw.message bound) [("offset", offset)]

/-- The failure to read an integer at an offset and within a bound. Any bytes can be read where
    bounds are large, so a value may have too many digits for the message about it; that there is
    no message is then the failure. -/
def failure (flaw : Flaw) (offset bound : Datum) : Failure :=
  match flaw with
  | exceeds value =>
    if Text.IntegerLiteral.isWritable value && bound.isWritable
    then .fault (flaw.fault offset bound)
    else .stray .value "*"
  | _ => .fault (flaw.fault offset bound)

end Varint.Flaw

namespace Checksum

def truncatedFault (kind : Kind) (offset available : Datum) : Fault :=
  .of .decode s!"truncated {kind.name}: need {kind.size} bytes at offset {offset.shown}"
    [("offset", offset), ("available", available)]

def Flaw.fault (offset : Datum) : Flaw → Fault
  | width kind got =>
    .of .decode s!"{kind.name} must be {kind.size} bytes, got {got}"
      [("expected", .integer kind.size), ("got", .integer got)]
  | badHex kind text => .of .decode s!"invalid hex for {kind.name}: {Text.quoted text}" []
  | truncated kind available => truncatedFault kind offset (.integer available)
  | trailing kind extra =>
    .of .decode s!"trailing bytes after {kind.name}" [("trailing", .integer extra)]

/-- The failure to read a digest value at an offset. An offset may have too many digits for the
    message about too few bytes behind it; that there is no message is then the failure. -/
def Flaw.failure (offset : Datum) (flaw : Flaw) : Failure :=
  match flaw with
  | truncated .. =>
    if offset.isWritable then .fault (flaw.fault offset) else .stray .value "*"
  | _ => .fault (flaw.fault offset)

end Checksum

namespace Credential.Flaw

/-- The failure of a malformed key or signature that was read at an offset. An offset before the
    first byte is no fault of the bytes. -/
def failure (offset : Datum) : Flaw → Failure
  | width kind got =>
    .fault <| .of .decode s!"{kind.name} data must be {kind.size} bytes, got {got}"
      [("expected", .integer kind.size), ("got", .integer got)]
  | badHex kind text => .fault <| .of .decode s!"invalid hex for {kind.name}: {Text.quoted text}" []
  | badTag flaw => .fault <| flaw.fault offset (.integer Varint.maxTag)
  | truncated kind left =>
    .fault <| .of .decode s!"truncated {kind.name}: need {kind.size} data bytes, have {left}"
      [("offset", offset)]
  | trailing kind extra =>
    .fault <| .of .decode s!"trailing bytes after {kind.name}" [("trailing", .integer extra)]
  | outOfRange => .stray .index "*"

end Credential.Flaw

namespace Hex.Flaw

def message : Flaw → String
  | oddLength => "not valid hex: Odd-length string"
  | notDigit => "not valid hex: Non-hexadecimal digit found"

end Hex.Flaw

namespace Misuse

/-- Whether the argument is of the wrong kind; otherwise it is out of range. -/
def isKind : Misuse → Bool
  | varintNotInteger | bytesExpected .. | tagNotInteger .. | bufferExpected .. | notByteRow
  | lengthNotInteger .. | textExpected .. | hexTextExpected .. | wrongKind ..
  | checksumExpected .. | hostIncomplete .. => true
  | _ => false

/-- Whether there is a message, which an integer of too many digits in it prevents. -/
def isWritable : Misuse → Bool
  | varintExceeds value bound => Text.IntegerLiteral.isWritable value && bound.isWritable
  | negativeTag value | elementCount value _ => value.isWritable
  | tagOutOfRange value | negativeLength value | lengthExceeds value _ =>
    Text.IntegerLiteral.isWritable value
  | _ => true

def message : Misuse → String
  | varintNotInteger => "uvarint value must be int"
  | bytesExpected subject got => s!"{subject} data must be bytes-like, got {got}"
  | tagNotInteger got => s!"curve tag must be int, got {got}"
  | bufferExpected got => s!"expected a buffer-protocol object, got {got}"
  | notByteRow => "BufferView.data must be a 1-D unsigned-byte memoryview"
  | lengthNotInteger got => s!"length must be int, got {got}"
  | textExpected got => s!"text must be str, got {got}"
  | hexTextExpected argument got => s!"{argument} must be hex text (str or bytes), got {got}"
  | wrongKind argument wanted got => s!"{argument} must be {wanted}, got {got}"
  | checksumExpected argument wanted got => s!"{argument} must be {wanted} or bytes, got {got}"
  | hostIncomplete missing =>
    "host missing methods: " ++ ", ".intercalate (missing.map Method.name)
  | varintNegative => "uvarint cannot encode negative values"
  | varintExceeds value bound => s!"uvarint value {value} exceeds {bound.shown}"
  | notHex flaw => flaw.message
  | negativeTag tag => s!"curve tag must be non-negative, got {tag.shown}"
  | abstractTag => "CurveType.UNKNOWN is not a concrete tag; pass the raw integer"
  | tagOutOfRange tag => s!"curve tag {tag} out of range for unsigned_int"
  | notContiguous => "buffer must be C-contiguous"
  | negativeLength length => s!"length must be non-negative, got {length}"
  | lengthExceeds length size => s!"length {length} exceeds buffer size {size}"
  | unsupportedFormat format => s!"unsupported element format {format.quoted}"
  | unpackable format => s!"cannot pack elements as {Text.quoted format}: *"
  | elementCount wanted got => s!"fixed array expects {wanted.shown} elements, got {got}"

end Misuse

def Stray.name : Stray → String
  | runtime => "RuntimeError"
  | value => "ValueError"
  | key => "KeyError"
  | type => "TypeError"
  | index => "IndexError"
  | overflow => "OverflowError"
  | memory => "MemoryError"
  | unencodable => "UnicodeEncodeError"
  | unsupported => "NotImplementedError"
  | unknownName => "AttributeError"
  | frozen => "FrozenInstanceError"

/-- The kind of stray error that comes of asking for the message. -/
def Untold.kind : Untold → Stray
  | tooLong => .value
  | notText => .type

namespace Failure

def className : Failure → String
  | fault f => f.family.name
  | misuse m => if m.isKind then "TypeError" else "ValueError"
  | stray kind _ => kind.name
  | aborted _ => "ExecutionAborted"
  | untold name _ => name

/-- The message, or `*` where there is none. -/
def message : Failure → String
  | fault f => f.message
  | misuse m => if m.isWritable then m.message else "*"
  | stray _ text => text
  | aborted f => s!"execution aborted: {f.code}: {f.message}"
  | untold _ _ => "*"

/-- A value of the wrong kind where no message of this library says so. -/
def badType : Failure := .stray .type "*"

end Failure

namespace Recovery.Flaw

def fault : Flaw → Fault
  | malformed flaw =>
    .of .recovery s!"malformed signature encoding: {(flaw.failure (.integer 0)).message}" []
  | unsupportedTag tag =>
    .of .recovery s!"unsupported curve tag {tag}" [("type", .integer tag)]
  | digestWidth got => .of .recovery s!"digest must be 32 bytes, got {got}" []
  | invalidHeader header =>
    .of .recovery s!"invalid recovery header {header}" [("header", .integer header)]
  | unsupportedId id =>
    .of .recovery s!"unsupported recovery id {id}" [("recid", .integer id)]
  | outOfRange => .of .recovery "signature r/s out of range" []
  | failed => .of .recovery "key recovery failed: *" []

end Recovery.Flaw

end CryptoIntrinsics
