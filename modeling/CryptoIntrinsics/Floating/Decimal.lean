import CryptoIntrinsics.Floating

namespace CryptoIntrinsics.Floating

/-- The decimal number `digits * 10 ^ exponent`. -/
structure Decimal where
  digits : Nat
  exponent : Int
deriving DecidableEq, Repr

namespace Decimal

def bits (d : Decimal) : Nat :=
  magnitudeBits .binary64 (d.digits * Nat.pow 10 d.exponent.toNat)
    (Nat.pow 10 (-d.exponent).toNat)

/-- Of the multiples of `10 ^ exponent` next to the fraction `num / den`, one that reads back as a
    bit pattern: the nearer if both do, and of two equally near the even one. -/
def near? (num den pattern : Nat) (exponent : Int) : Option Decimal :=
  let top := num * Nat.pow 10 (-exponent).toNat
  let bottom := den * Nat.pow 10 exponent.toNat
  let low : Decimal := ⟨top / bottom, exponent⟩
  let high : Decimal := ⟨top / bottom + 1, exponent⟩
  match low.bits == pattern, high.bits == pattern with
  | true, true => some ⟨roundHalfEven top bottom, exponent⟩
  | true, false => some low
  | false, true => some high
  | false, false => none

/-- The exponent `e` with `10 ^ (e - 1) ≤ num / den < 10 ^ e` for a binary fraction that is not
    zero. -/
def magnitude (num den : Nat) : Int :=
  if den ≤ num then (Nat.toDigits 10 (num / den)).length
  else 1 - ((Nat.toDigits 10 (den / num)).length : Int)

/-- The shortest decimal that reads back as a positive finite double; seventeen digits always
    suffice, and the exact value stands in where they would not. -/
def shortest (num den : Nat) : Decimal :=
  let pattern := magnitudeBits .binary64 num den
  let top := magnitude num den
  ((List.range 17).findSome? fun (count : Nat) => near? num den pattern (top - 1 - count)).getD
    ⟨num * Nat.pow 5 den.log2, -den.log2⟩

/-- The digits of a decimal without the zeros at their end, and the place of the point counted from
    the first of them. -/
def places (d : Decimal) : List Char × Int :=
  let digits := Nat.toDigits 10 d.digits
  ((digits.reverse.dropWhile (· == '0')).reverse, digits.length + d.exponent)

/-- Digits with a point at a place. From the fourth place before the first digit to the sixteenth
    behind it the point itself is written; elsewhere it follows the first digit, and a power of ten
    with a sign and at least two digits follows. -/
def layout (digits : List Char) (point : Int) : List Char :=
  if -4 < point ∧ point ≤ 16 then
    if point ≤ 0 then '0' :: '.' :: List.replicate (-point).toNat '0' ++ digits
    else
      let whole := digits.take point.toNat
      let fraction := digits.drop point.toNat
      whole ++ List.replicate (point.toNat - whole.length) '0' ++
        '.' :: (if fraction.isEmpty then ['0'] else fraction)
  else
    let power := Nat.toDigits 10 (point - 1).natAbs
    digits.take 1 ++ (if digits.length = 1 then [] else '.' :: digits.drop 1) ++
      'e' :: (if point < 1 then '-' else '+') ::
        (if power.length = 1 then '0' :: power else power)

end Decimal

def shown : Floating → String
  | nan .. => "nan"
  | infinite negative => if negative then "-inf" else "inf"
  | finite negative significand exponent =>
    let (num, den) := ratio significand exponent
    let magnitude :=
      if num = 0 then "0.0".toList
      else
        let (digits, point) := (Decimal.shortest num den).places
        Decimal.layout digits point
    String.ofList (if negative then '-' :: magnitude else magnitude)

end CryptoIntrinsics.Floating
