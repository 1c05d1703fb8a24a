import CryptoIntrinsics.Hex
import CryptoIntrinsics.Text.Blank
import CryptoIntrinsics.Text.DecimalDigit

namespace CryptoIntrinsics.Text.IntegerLiteral

/-- The most digits of a literal without a base marker. -/
def maxDecimalDigits : Nat := 4300

/-- Whether an integer has a literal without a base marker, in which messages print it. -/
def isWritable (n : Int) : Bool := (Nat.toDigits 10 n.natAbs).length ≤ maxDecimalDigits

/-- Turns a character outside ASCII into the ASCII one it stands for: a blank to a space, a digit
    to its ASCII digit. `none` for any other. -/
def asciiForm? (c : Char) : Option Char :=
  if c.toNat < 128 then some c
  else if isBlank c then some ' '
  else (decimalDigit? c).map Hex.digit

/-- The digits' values with the underscores taken out. Each underscore has to stand between two
    digits. -/
def ungroup? : List Char → Option (List Nat)
  | [] => none
  | [c] => (Hex.nibble? c.toNat).map ([·])
  | c :: '_' :: rest => do return (← Hex.nibble? c.toNat) :: (← ungroup? rest)
  | c :: rest => do return (← Hex.nibble? c.toNat) :: (← ungroup? rest)

/-- The value of digits in a base, most significant first; `none` if one is not of the base. -/
def value? (base : Nat) (digits : List Nat) : Option Nat :=
  if digits.all (· < base) then some (digits.foldl (fun n d => n * base + d) 0) else none

/-- Digits behind a base marker, where one underscore may come first. -/
def marked? (base : Nat) : List Char → Option Nat
  | '_' :: rest => do value? base (← ungroup? rest)
  | rest => do value? base (← ungroup? rest)

def unmarked? (text : List Char) : Option Nat := do
  let digits ← ungroup? text
  if maxDecimalDigits < digits.length then none
  else (value? 10 digits).filter fun n => digits.head? != some 0 || n == 0

def magnitude? : List Char → Option Nat
  | '0' :: marker :: rest =>
    if marker = 'x' || marker = 'X' then marked? 16 rest
    else if marker = 'o' || marker = 'O' then marked? 8 rest
    else if marker = 'b' || marker = 'B' then marked? 2 rest
    else unmarked? ('0' :: marker :: rest)
  | text => unmarked? text

def read? (text : List Char) : Option Int := do
  match trimBy Hex.isGap (← text.mapM asciiForm?) with
  | '-' :: rest => return -(← magnitude? rest : Nat)
  | '+' :: rest => return (← magnitude? rest : Nat)
  | rest => return (← magnitude? rest : Nat)

end CryptoIntrinsics.Text.IntegerLiteral
