import CryptoIntrinsics.CommandLine.Command
import CryptoIntrinsics.CommandLine.Directory
import CryptoIntrinsics.Json
import CryptoIntrinsics.Session.Decoding
import CryptoIntrinsics.Session.Intrinsics

namespace CryptoIntrinsics.CommandLine

open Procedure Session

structure Report where
  exitCode : Nat
  output : String
deriving DecidableEq, Repr

/-- How a run of the tool ends: with a report, or before there is a command. -/
inductive Ending where
  | report (report : Report)
  | refused (refusal : Refusal)
deriving DecidableEq, Repr

def document? : Datum → Option Json
  | .nothing => some .null
  | .truth b => some (.truth b)
  | .integer n => some (.number n)
  | .curve c => some (.number c.toInt)
  | .floating x => some (.fraction x)
  | .text s => some (.text s)
  | .garbled g => some (.garbled g)
  | .list items => (documents? items).map .array
  | _ => none
where
  documents? : List Datum → Option (List Json)
    | [] => some []
    | item :: rest => do return (← document? item) :: (← documents? rest)

/-- The document of a structured error, if its context has one. -/
def errorDocument? (fault : Fault) : Option Json := do
  let context ← fault.context.mapM fun (key, value) => do return (key, ← document? value)
  return .object [("error", .object
    [("code", .text fault.code), ("message", .text fault.message),
     ("fatal", .truth fault.isFatal), ("context", .object context)])]

def Given.toDatum : Given → Datum
  | .text word => .text word
  | .emptied => .list []

/-- The message that a command line gives. What an emptied option leaves is no text and no name. -/
def message (read : String → Except FileFlaw Octets) : Source → Except Failure Octets
  | .text .emptied | .hex .emptied => .error (.stray .unknownName "*")
  | .file .emptied => .error .badType
  | .text (.text text) => .ok (Octets.ofText text)
  | .hex (.text text) =>
    match Hex.decodeSpaced (Hex.dropMarker text.toList) with
    | .ok bytes => .ok bytes
    | .error index =>
      .error <| .fault <| .withCode .general
        s!"invalid --hex message: non-hexadecimal number found in fromhex() arg at position {index}"
        (some "invalid_input") []
  | .file (.text name) =>
    match read name with
    | .ok bytes => .ok bytes
    | .error .impossibleName => .error (.stray .value "*")
    | .error flaw =>
      .error <| .fault <| .withCode .general s!"cannot read --file {name}: {flaw.message name}"
        (some "invalid_input") []

def describe {kind : Credential.Kind} (value : Credential kind) : Json :=
  .object [("kind", .text kind.name), ("type", .number value.tag),
    ("curve", .text value.curve.name), ("data", .text (Hex.encode value.data)),
    ("encoded", .text (Hex.encode value.serialize))]

/-- Runs a command: the document to print and the exit code. -/
def perform (read : String → Except FileFlaw Octets) : Command → Procedure (Json × Nat)
  | .digest none source => do
    let _ ← demand (message read source)
    throw .badType
  | .digest (some algorithm) source => do
    let payload ← demand (message read source)
    let value ← Intrinsics.digest algorithm (.octets payload)
    return (.object [("algo", .text algorithm.name), ("length", .number payload.length),
      ("digest", .text (Hex.encode value.data))], 0)
  | .decode kind encoded => do return (describe (← Decoding.credentialOfHex kind encoded), 0)
  | .verifyRsa source sig exponent modulus => do
    let payload ← demand (message read source)
    let valid ←
      Intrinsics.verifyRsa (.octets payload) sig.toDatum exponent.toDatum modulus.toDatum
    return (.object [("valid", .truth valid), ("length", .number payload.length)],
      if valid then 0 else 1)

def run (read : String → Except FileFlaw Octets) (words : List String) : Procedure Ending := do
  match Command.ofWords words with
  | .error refusal => return .refused refusal
  | .ok command =>
    match ← attempt (perform read command) with
    | .ok (document, exitCode) => return .report ⟨exitCode, document.render⟩
    | .error (.fault fault) =>
      match errorDocument? fault with
      | some document => return .report ⟨2, document.render⟩
      | none => throw .badType
    | .error failure => throw failure

end CryptoIntrinsics.CommandLine
