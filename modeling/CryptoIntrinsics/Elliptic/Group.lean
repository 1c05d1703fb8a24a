import CryptoIntrinsics.Modular

namespace CryptoIntrinsics.Elliptic

/-- The curve `y ^ 2 = x ^ 3 + a * x + b` modulo the prime `field`, with a base point of prime
    order. -/
structure Group where
  field : Nat
  a : Nat
  b : Nat
  order : Nat
  baseX : Nat
  baseY : Nat
deriving DecidableEq, Repr

inductive Point where
  | infinity
  | affine (x y : Nat)
deriving DecidableEq, Repr

def secp256k1 : Group where
  field := 0xfffffffffffffffffffffffffffffffffffffffffffffffffffffffefffffc2f
  a := 0
  b := 7
  order := 0xfffffffffffffffffffffffffffffffebaaedce6af48a03bbfd25e8cd0364141
  baseX := 0x79be667ef9dcbbac55a06295ce870b07029bfcdb2dce28d959f2815b16f81798
  baseY := 0x483ada7726a3c4655da4fbfc0e1108a8fd17b448a68554199c47d08ffb10d4b8

def nistP256 : Group where
  field := 0xffffffff00000001000000000000000000000000ffffffffffffffffffffffff
  a := 0xffffffff00000001000000000000000000000000fffffffffffffffffffffffc
  b := 0x5ac635d8aa3a93e7b3ebbd55769886bc651d06b0cc53b0f63bce3c3e27d2604b
  order := 0xffffffff00000000ffffffffffffffffbce6faada7179e84f3b9cac2fc632551
  baseX := 0x6b17d1f2e12c4247f8bce6e563a440f277037d812deb33a0f4a13945d898c296
  baseY := 0x4fe342e2fe1a7f9b8ee7eb4a7c0f9e162bce33576b315ececbb6406837bf51f5

namespace Group

variable (g : Group)

def base : Point := .affine g.baseX g.baseY

/-- The third point of the line through two points with the given slope, with the sign of its
    second coordinate changed. -/
def alongLine (slope x₁ y₁ x₂ : Nat) : Point :=
  let x := Modular.sub g.field (Modular.sub g.field (slope * slope) x₁) x₂
  .affine x (Modular.sub g.field (slope * Modular.sub g.field x₁ x) y₁)

/-- The sum of two points: along the chord, or the tangent when they are the same. -/
def add : Point → Point → Point
  | .infinity, q => q
  | p, .infinity => p
  | .affine x₁ y₁, .affine x₂ y₂ =>
    if x₁ = x₂ then
      if (y₁ + y₂) % g.field = 0 then .infinity
      else g.alongLine ((3 * x₁ * x₁ + g.a) * Modular.inverse g.field (2 * y₁) % g.field) x₁ y₁ x₂
    else
      g.alongLine
        (Modular.sub g.field y₂ y₁ * Modular.inverse g.field (Modular.sub g.field x₂ x₁) % g.field)
        x₁ y₁ x₂

def neg : Point → Point
  | .infinity => .infinity
  | .affine x y => .affine x ((g.field - y) % g.field)

/-- The multiple of a point by a number, by doubling and adding. -/
def scale (k : Nat) (p : Point) : Point :=
  (Modular.bits k).foldl
    (fun q bit =>
      let twice := g.add q q
      if bit then g.add twice p else twice)
    .infinity

/-- The point with the given first coordinate whose second one is odd or even, if the curve has
    points there. -/
def pointAt? (x : Nat) (odd : Bool) : Option Point :=
  (Modular.sqrt? g.field ((x * x * x + g.a * x + g.b) % g.field)).map fun y =>
    .affine x (if (y % 2 = 1) = odd then y else g.field - y)

end Group

end CryptoIntrinsics.Elliptic
