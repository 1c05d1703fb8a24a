namespace CryptoIntrinsics

/-- A floating-point number: no number, with the fraction that the double-width format keeps; an
    infinity; or the exact value `± significand * 2 ^ exponent`. Zero keeps its sign. -/
inductive Floating where
  | nan (negative : Bool) (fraction : Nat)
  | infinite (negative : Bool)
  | finite (negative : Bool) (significand : Nat) (exponent : Int)
deriving DecidableEq, Repr

namespace Floating

/-- An interchange format: significand digits with the leading one, and exponent digits. -/
structure Format where
  precision : Nat
  exponentBits : Nat
deriving DecidableEq, Repr

namespace Format

def binary16 : Format := ⟨11, 5⟩

def binary32 : Format := ⟨24, 8⟩

def binary64 : Format := ⟨53, 11⟩

/-- Bytes of one number: a sign, the exponent, and the significand without its leading digit. -/
def size (format : Format) : Nat := (format.precision + format.exponentBits) / 8

/-- The power of two of the last digit of the smallest numbers. -/
def leastExponent (format : Format) : Int :=
  3 - (1 <<< (format.exponentBits - 1) : Nat) - format.precision

/-- The bit pattern of positive infinity; every larger finite magnitude would reach it. -/
def infinity (format : Format) : Nat :=
  ((1 <<< format.exponentBits) - 1) <<< (format.precision - 1)

def signBit (format : Format) (negative : Bool) : Nat :=
  if negative then 1 <<< (format.precision + format.exponentBits - 1) else 0

/-- The bit of a fraction that makes no number a quiet one. -/
def quietBit (format : Format) : Nat := 1 <<< (format.precision - 2)

/-- The fraction that a format keeps of a double-width one that is no number. A narrower format
    keeps the leading bits and is always quiet; the half-width one keeps only the quiet bit. -/
def narrowFraction (format : Format) (fraction : Nat) : Nat :=
  if format = binary64 then fraction
  else if format = binary16 then format.quietBit
  else fraction >>> (binary64.precision - format.precision) ||| format.quietBit

/-- The double-width fraction of one of the format that is no number; widening makes it quiet. -/
def widenFraction (format : Format) (fraction : Nat) : Nat :=
  if format = binary64 then fraction
  else fraction <<< (binary64.precision - format.precision) ||| binary64.quietBit

end Format

/-- The integer nearest to `num / den`; a tie goes to the even neighbour. -/
def roundHalfEven (num den : Nat) : Nat :=
  let low := num / den
  let rest := num % den
  if den < 2 * rest ∨ (2 * rest = den ∧ low % 2 = 1) then low + 1 else low

/-- The exponent `e` with `2 ^ e ≤ num / den < 2 ^ (e + 1)`, for a positive fraction. -/
def binaryExponent (num den : Nat) : Int :=
  let guess : Int := (num.log2 : Int) - den.log2
  if num <<< (-guess).toNat < den <<< guess.toNat then guess - 1 else guess

/-- The bit pattern nearest to the magnitude `num / den`, as if exponents had no upper end. A carry
    out of the significand moves into the exponent by itself. -/
def magnitudeBits (format : Format) (num den : Nat) : Nat :=
  if num = 0 then 0
  else
    let last := max (binaryExponent num den - (format.precision - 1 : Nat)) format.leastExponent
    let significand := roundHalfEven (num <<< (-last).toNat) (den <<< last.toNat)
    (last - format.leastExponent).toNat <<< (format.precision - 1) + significand

def ratio (significand : Nat) (exponent : Int) : Nat × Nat :=
  (significand <<< exponent.toNat, 1 <<< (-exponent).toNat)

/-- The bit pattern of a number in a format; `none` when a finite number is too large for it. -/
def bits? (format : Format) : Floating → Option Nat
  | nan negative fraction =>
    some (format.signBit negative + format.infinity + format.narrowFraction fraction)
  | infinite negative => some (format.signBit negative + format.infinity)
  | finite negative significand exponent =>
    let (num, den) := ratio significand exponent
    let magnitude := magnitudeBits format num den
    if magnitude < format.infinity then some (format.signBit negative + magnitude) else none

def ofBits (format : Format) (bits : Nat) : Floating :=
  let unit := 1 <<< (format.precision - 1)
  let negative := bits >>> (format.precision + format.exponentBits - 1) % 2 = 1
  let magnitude := bits % 1 <<< (format.precision + format.exponentBits - 1)
  let fraction := magnitude % unit
  let field := magnitude / unit
  if format.infinity < magnitude then nan negative (format.widenFraction fraction)
  else if magnitude = format.infinity then infinite negative
  else if field = 0 then finite negative fraction format.leastExponent
  else finite negative (unit + fraction) (format.leastExponent + (field - 1))

def ofRatio? (format : Format) (negative : Bool) (num den : Nat) : Option Floating :=
  let magnitude := magnitudeBits format num den
  if format.infinity ≤ magnitude then none
  else some (ofBits format (format.signBit negative + magnitude))

def ofInt? (n : Int) : Option Floating := ofRatio? .binary64 (n < 0) n.natAbs 1

def signed (negative : Bool) (magnitude : Nat) : Int := if negative then -magnitude else magnitude

def negate : Floating → Floating
  | nan negative fraction => nan (!negative) fraction
  | infinite negative => infinite (!negative)
  | finite negative significand exponent => finite (!negative) significand exponent

/-- The sum of a number and an integer, rounded once to a double. -/
def addInt (x : Floating) (n : Int) : Floating :=
  match x with
  | finite negative significand exponent =>
    let (num, den) := ratio significand exponent
    let total := signed negative num + n * den
    (ofRatio? .binary64 (total < 0) total.natAbs den).getD (infinite (total < 0))
  | _ => x

/-- Whether a number counts as true: all but the two zeros do. -/
def isTrue : Floating → Bool
  | finite _ significand _ => significand != 0
  | _ => true

end Floating

end CryptoIntrinsics
