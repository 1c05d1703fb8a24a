import CryptoIntrinsics.Text.DecimalDigit

namespace CryptoIntrinsics.CommandLine

/-- What a word of a command line is, where `Switch` are the options that may stand there. -/
inductive Token (Switch : Type) where
  | operand (word : String)
  /-- The word behind which all words are operands. -/
  | separator
  | plain (switch : Switch)
  | valued (switch : Switch) (value : String)
  /-- An option of one letter with further letters behind it. -/
  | clustered (switch : Switch) (letters : List Char)
  /-- A word that is written like an option, but names none. -/
  | unknown
deriving DecidableEq, Repr

namespace Token

variable {Switch : Type}

/-- Whether a character is a decimal digit of any script. -/
def isDigit (c : Char) : Bool := c.isDigit || (Text.decimalDigit? c).isSome

/-- Whether a word is written like a negative number: a dash and digits, or a dash, perhaps digits,
    a point and digits. A line feed may end it. -/
def isNegativeNumber (word : List Char) : Bool :=
  match word with
  | '-' :: rest =>
    let body := if rest.getLast? == some '\n' then rest.dropLast else rest
    let fraction := body.dropWhile isDigit
    if fraction.isEmpty then !body.isEmpty
    else fraction.head? == some '.' && !fraction.tail.isEmpty && fraction.tail.all isDigit
  | _ => false

def splitValue (word : List Char) : List Char × Option String :=
  match word.dropWhile (· != '=') with
  | [] => (word, none)
  | _ :: value => (word.takeWhile (· != '='), some (String.ofList value))

/-- An option as it was found by its name, with or without something behind an equality sign: the
    value of the option or, behind an option of one letter, further letters. -/
def found (name : List Char) (switch : Switch) : Option String → Token Switch
  | none => plain switch
  | some value =>
    if name.length = 2 ∧ value ≠ "" then clustered switch value.toList else valued switch value

def switches? (names : List (String × Switch)) (letters : List Char) : Option (List Switch) :=
  letters.mapM fun c => names.lookup (String.ofList ['-', c])

/-- What a word is that is written like an option: an option in full; one with a value; the only
    one of which it is the start; or a cluster of letters. Otherwise a negative number and a word
    with a blank are operands. An error is a start that several options share. -/
def ofDashed (names : List (String × Switch)) (word : List Char) : Except Unit (Token Switch) :=
  let (stem, value) := splitValue word
  match names.lookup (String.ofList word), names.lookup (String.ofList stem), word with
  | some switch, _, _ => .ok (plain switch)
  | _, _, [_] => .ok (operand (String.ofList word))
  | _, some switch, _ => .ok (found stem switch value)
  | _, _, _ =>
    let candidates :=
      if word.take 2 == ['-', '-'] then
        (names.filter fun (name, _) => stem.isPrefixOf name.toList).map fun (name, s) =>
          found name.toList s value
      else
        (names.filter fun (name, _) => name.toList == word.take 2).map fun (_, s) =>
          clustered s (word.drop 2)
    match candidates with
    | [token] => .ok token
    | _ :: _ :: _ => .error ()
    | [] =>
      if isNegativeNumber word || word.contains ' ' then .ok (operand (String.ofList word))
      else .ok unknown

def ofWord (names : List (String × Switch)) (word : String) : Except Unit (Token Switch) :=
  match word.toList with
  | '-' :: rest => ofDashed names ('-' :: rest)
  | _ => .ok (operand word)

def ofWords (names : List (String × Switch)) : List String → Except Unit (List (Token Switch))
  | [] => .ok []
  | "--" :: rest => .ok (separator :: rest.map operand)
  | word :: rest => do return (← ofWord names word) :: (← ofWords names rest)

end Token

end CryptoIntrinsics.CommandLine
