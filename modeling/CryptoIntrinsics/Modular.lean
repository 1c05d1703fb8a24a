namespace CryptoIntrinsics.Modular

def bits (n : Nat) : List Bool :=
  if n = 0 then [] else (List.range (n.log2 + 1)).reverse.map n.testBit

def pow (m base exponent : Nat) : Nat :=
  (bits exponent).foldl
    (fun power bit =>
      let square := power * power % m
      if bit then square * base % m else square)
    (1 % m)

/-- The difference modulo `m` of two numbers, the second below `m`. -/
def sub (m a b : Nat) : Nat := (a + (m - b)) % m

/-- Euclid's algorithm on remainders `r` and `s` that are `u` and `v` times some number modulo `m`:
    what that number has to be multiplied by to give their greatest common divisor. -/
def euclid (m : Nat) : (fuel r s u v : Nat) → Nat
  | 0, _, _, u, _ => u
  | fuel + 1, r, s, u, v =>
    if s = 0 then u else euclid m fuel s (r % s) v (sub m u (r / s * v % m))

/-- The inverse modulo `m` of a number that has one. Two steps at least halve a remainder, so twice
    as many steps as `m` has binary digits are enough. -/
def inverse (m a : Nat) : Nat := euclid m (2 * m.log2 + 4) m (a % m) 0 1

/-- A square root modulo a prime that leaves three modulo four, if there is one. -/
def sqrt? (p a : Nat) : Option Nat :=
  let root := pow p a ((p + 1) / 4)
  if root * root % p = a % p then some root else none

end CryptoIntrinsics.Modular
