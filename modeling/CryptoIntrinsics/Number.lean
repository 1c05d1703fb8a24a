import CryptoIntrinsics.Floating

namespace CryptoIntrinsics

inductive Number where
  | integer (value : Int)
  | floating (value : Floating)
deriving DecidableEq, Repr

namespace Number

def fraction : Number → Int × Nat
  | integer n => (n, 1)
  | floating (.finite negative significand exponent) =>
    let (num, den) := Floating.ratio significand exponent
    (Floating.signed negative num, den)
  | floating _ => (0, 1)

/-- How two numbers stand to each other, if they do. -/
def compare? : Number → Number → Option Ordering
  | integer m, integer n => some (compare m n)
  | floating (.nan ..), _ | _, floating (.nan ..) => none
  | floating (.infinite below), floating (.infinite under) => some (compare under below)
  | floating (.infinite below), _ => some (if below then .lt else .gt)
  | _, floating (.infinite below) => some (if below then .gt else .lt)
  | a, b =>
    let (p, m) := a.fraction
    let (q, n) := b.fraction
    some (compare (p * n) (q * m))

def equal (a b : Number) : Bool := compare? a b == some .eq

def precedes (a b : Number) : Bool := compare? a b == some .lt

/-- The modulus of residues, a prime one below a power of two. -/
def residueModulus : Nat := 2305843009213693951

/-- What a number leaves modulo the prime, with its sign. Numbers of one value leave the same,
    whatever their kind; halving is multiplying by the sixtieth power of two. Minus one is set
    aside, so minus two stands in for it. -/
def residue? (x : Number) : Option Int :=
  match x with
  | floating (.nan ..) => none
  | floating (.infinite negative) => some (Floating.signed negative 314159)
  | _ =>
    let (num, den) := x.fraction
    let left := num.natAbs * Nat.pow 1152921504606846976 (den.log2 % 61) % residueModulus
    let residue := Floating.signed (num < 0) left
    some (if residue = -1 then -2 else residue)

theorem compare?_integer (m n : Int) : compare? (integer m) (integer n) = some (compare m n) := rfl

theorem precedes_integer (m n : Int) : precedes (integer m) (integer n) = decide (m < n) := by
  simp only [precedes, compare?_integer]
  by_cases h : m < n
  · simp [h, Int.compare_eq_lt.2 h]
  · have hne : compare m n ≠ .lt := fun hlt => h (Int.compare_eq_lt.1 hlt)
    simp [h, hne]

end Number

end CryptoIntrinsics
