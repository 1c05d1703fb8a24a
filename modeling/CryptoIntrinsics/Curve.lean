namespace CryptoIntrinsics

/-- The curves a tag can name. `unknown` stands for every tag this version does not know. -/
inductive Curve where
  | k1
  | r1
  | unknown
deriving DecidableEq, Repr

namespace Curve

def ofTag (tag : Nat) : Curve :=
  match tag with
  | 0 => k1
  | 1 => r1
  | _ => unknown

/-- The number a curve stands for; an unknown curve has none of its own and counts as minus one. -/
def toInt : Curve → Int
  | k1 => 0
  | r1 => 1
  | unknown => -1

def name : Curve → String
  | k1 => "K1"
  | r1 => "R1"
  | unknown => "UNKNOWN"

end Curve

end CryptoIntrinsics
