import CryptoIntrinsics.CommandLine.Token
import CryptoIntrinsics.Credential
import CryptoIntrinsics.Digest.Algorithm

namespace CryptoIntrinsics.CommandLine

/-- What an option is given as its value. The word that separates options from operands is dropped
    there, too, and leaves an empty list in place of a text. -/
inductive Given where
  | text (text : String)
  | emptied
deriving DecidableEq, Repr

def Given.ofWord (word : String) : Given := if word = "--" then emptied else text word

inductive Source where
  | text (text : Given)
  | hex (text : Given)
  | file (name : Given)
deriving DecidableEq, Repr

/-- What the tool is asked to do. There is no algorithm where the option for it was emptied. -/
inductive Command where
  | digest (algorithm : Option Digest.Algorithm) (source : Source)
  | decode (kind : Credential.Kind) (encoded : String)
  | verifyRsa (source : Source) (sig exponent modulus : Given)
deriving DecidableEq, Repr

inductive Refusal where
  | usage
  | help
deriving DecidableEq, Repr

/-- The options of the commands. The general ones stand before the command's name. -/
inductive Switch where
  | help
  | verbose
  | algorithm
  | text
  | hex
  | file
  | sig
  | exponent
  | modulus
deriving DecidableEq, Repr

namespace Switch

def general : List (String × Switch) :=
  [("-h", help), ("--help", help), ("-v", verbose), ("--verbose", verbose)]

def common : List (String × Switch) := [("-h", help), ("--help", help)]

def sources : List (String × Switch) := [("--text", text), ("--hex", hex), ("--file", file)]

def digest : List (String × Switch) := common ++ ("--algo", algorithm) :: sources

def verification : List (String × Switch) :=
  common ++ sources ++ [("--sig", sig), ("--exp", exponent), ("--mod", modulus)]

/-- Whether an option of one letter and the letters behind it are all options. Then help is given
    if it is asked for among them. -/
def ofCluster (names : List (String × Switch)) (first : Switch) (letters : List Char) :
    Except Refusal Unit :=
  match Token.switches? names letters with
  | none => .error .usage
  | some others => if (first :: others).contains help then .error .help else .ok ()

end Switch

structure Values where
  algorithm : Option Digest.Algorithm
  source : Option Source
  sig : Option Given
  exponent : Option Given
  modulus : Option Given
deriving DecidableEq, Repr

namespace Values

def start : Values := ⟨some .sha256, none, none, none, none⟩

def algorithmOf? (name : String) : Option Digest.Algorithm :=
  [Digest.Algorithm.sha256, .sha1, .sha512, .ripemd160].find? (·.name == name)

/-- Takes a source of the message; the last of one kind counts, and two kinds exclude each other. -/
def withSource (values : Values) (source : Source) : Except Refusal Values :=
  let taken : Values := { values with source := some source }
  match values.source, source with
  | none, _ | some (.text _), .text _ | some (.hex _), .hex _ | some (.file _), .file _ => .ok taken
  | _, _ => .error .usage

/-- Takes the value of an option; the last of a repeated option counts. -/
def withValue (values : Values) (switch : Switch) (value : Given) : Except Refusal Values :=
  match switch with
  | .algorithm =>
    match value with
    | .emptied => .ok { values with algorithm := none }
    | .text name =>
      match algorithmOf? name with
      | some algorithm => .ok { values with algorithm := some algorithm }
      | none => .error .usage
  | .text => withSource values (.text value)
  | .hex => withSource values (.hex value)
  | .file => withSource values (.file value)
  | .sig => .ok { values with sig := some value }
  | .exponent => .ok { values with exponent := some value }
  | .modulus => .ok { values with modulus := some value }
  | .help | .verbose => .error .usage

/-- Reads the options of a command that has no operands. Words that are left over are refused once
    the rest is read, so that help may still be asked for behind them. -/
def ofTokens (values : Values) : List (Token Switch) → Except Refusal Values
  | [] => .ok values
  | .valued switch value :: rest => do ofTokens (← withValue values switch (.ofWord value)) rest
  | .plain .help :: _ => .error .help
  | .clustered first letters :: _ => do
    Switch.ofCluster Switch.common first letters
    .error .usage
  | .plain switch :: .operand value :: rest => do
    ofTokens (← withValue values switch (.text value)) rest
  | .plain _ :: _ => .error .usage
  | .operand _ :: rest | .separator :: rest | .unknown :: rest => do
    let _ ← ofTokens values rest
    .error .usage

end Values

namespace Command

def tokens (names : List (String × Switch)) (words : List String) :
    Except Refusal (List (Token Switch)) :=
  match Token.ofWords names words with
  | .ok tokens => .ok tokens
  | .error () => .error .usage

/-- What the options among the tokens come to where help is the only one: the first decides. -/
def helpAmong : List (Token Switch) → Except Refusal Unit
  | [] => .ok ()
  | .plain _ :: _ => .error .help
  | .clustered first letters :: rest => do
    Switch.ofCluster Switch.common first letters
    helpAmong rest
  | .valued _ _ :: _ => .error .usage
  | _ :: rest => helpAmong rest

/-- Reads the single operand of a command without options of its own. A separator may stand before
    or behind it. -/
def operandOf (words : List String) : Except Refusal String := do
  let found ← tokens Switch.common words
  helpAmong found
  match found with
  | [.operand word] | [.separator, .operand word] | [.operand word, .separator] => return word
  | _ => throw .usage

def ofName (name : String) (words : List String) : Except Refusal Command :=
  match name with
  | "digest" => do
    let values ← Values.ofTokens .start (← tokens Switch.digest words)
    match values.source with
    | some source => return .digest values.algorithm source
    | none => throw .usage
  | "decode-key" => do return .decode .publicKey (← operandOf words)
  | "decode-sig" => do return .decode .signature (← operandOf words)
  | "verify-rsa" => do
    let values ← Values.ofTokens .start (← tokens Switch.verification words)
    match values.source, values.sig, values.exponent, values.modulus with
    | some source, some sig, some exponent, some modulus =>
      return .verifyRsa source sig exponent modulus
    | _, _, _, _ => throw .usage
  | _ => throw .usage

/-- Reads the general options and then the command. An option that is none is refused once the rest
    is read. -/
def afterOptions : List String → Except Refusal Command
  | [] => .error .usage
  | "--" :: _ => .error .usage
  | word :: rest =>
    match Token.ofWord Switch.general word with
    | .ok (.operand name) => ofName name rest
    | .ok (.plain .verbose) => afterOptions rest
    | .ok (.plain _) => .error .help
    | .ok (.clustered first letters) => do
      Switch.ofCluster Switch.general first letters
      afterOptions rest
    | .ok .unknown => do
      let _ ← afterOptions rest
      .error .usage
    | _ => .error .usage

/-- Reads a command line. Before all else, no word may be the start of several general options,
    wherever it stands. -/
def ofWords (words : List String) : Except Refusal Command := do
  let _ ← tokens Switch.general words
  afterOptions words

end Command

end CryptoIntrinsics.CommandLine
