import CryptoIntrinsics.CommandLine.Tool

namespace CryptoIntrinsics.CommandLine

def knownVariables : List String :=
  ["CONTRACT_CRYPTO_FAST_EVAL", "CC_FAST_EVAL", "CONTRACT_CRYPTO_MAX_INPUT_BYTES",
   "CC_MAX_INPUT_BYTES", "CONTRACT_CRYPTO_STRICT_VARINT", "CC_STRICT_VARINT",
   "CONTRACT_CRYPTO_VERSION"]

/-- The flaw that an error of the system stands for. -/
def flawOf : IO.Error → FileFlaw
  | .permissionDenied .. => .denied
  | .inappropriateType .. => .isDirectory
  | .invalidArgument .. => .nameTooLong
  | _ => .missing

def Command.file? : Command → Option String
  | .digest _ (.file (.text name)) | .verifyRsa (.file (.text name)) _ _ _ => some name
  | _ => none

def readNamed (words : List String) : IO (String → Except FileFlaw Octets) := do
  match (Command.ofWords words).toOption.bind Command.file? with
  | none => return fun _ => .error .missing
  | some name =>
    try
      let bytes ← IO.FS.readBinFile name
      return fun _ => .ok bytes.data.toList
    catch failure => return fun _ => .error (flawOf failure)

def processEnvironment : IO Environment := do
  let values ← knownVariables.mapM fun name => do return (name, ← IO.getEnv name)
  return values.foldl (fun env (name, value) => env.set name value) .empty

/-- Runs the tool in a new session of the process. -/
def runProcess (words : List String) : IO UInt32 := do
  let session := { Session.start with environment := ← processEnvironment }
  match ((run (← readNamed words) words).runOn session).1 with
  | .ok (.report report) =>
    IO.print report.output
    return UInt32.ofNat report.exitCode
  | .ok (.refused .help) => return 0
  | .ok (.refused .usage) =>
    IO.eprintln "usage: contract-crypto [-h] [-v] command ..."
    return 2
  | .error failure =>
    IO.eprintln failure.message
    return 1

end CryptoIntrinsics.CommandLine

def main (words : List String) : IO UInt32 := CryptoIntrinsics.CommandLine.runProcess words
