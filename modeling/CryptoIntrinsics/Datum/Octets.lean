import CryptoIntrinsics.Element
import CryptoIntrinsics.Fault

namespace CryptoIntrinsics.Datum

/-- The failure of a value that is not of the kind that a message asks for. A released view may be
    of that kind, and fails where it is looked into. -/
def refusal (d : Datum) (misuse : Misuse) : Failure :=
  match d with
  | .released => .stray .value "*"
  | _ => .misuse misuse

def toByte (d : Datum) : Except Failure UInt8 :=
  match d.integral? with
  | none => .error .badType
  | some n =>
    if 0 ≤ n ∧ n < 256 then .ok (UInt8.ofNat n.toNat) else .error (.stray .value "*")

/-- How many zero bytes an integer stands for. Integers beyond the range of sizes are refused for
    that alone, negative ones for their sign, and the largest sizes for want of memory. -/
def blankSize (n : Int) : Except Failure Nat :=
  if n < -9223372036854775808 ∨ 9223372036854775774 < n then .error (.stray .overflow "*")
  else if n < 0 then .error (.stray .value "*")
  else if 68719476736 ≤ n then .error (.stray .memory "*")
  else .ok n.toNat

/-- The bytes that a value is turned into: those of a buffer, those of a canonical encoding, the
    bytes that the integers of a list name, or as many zero bytes as an integer says. -/
def toOctets (d : Datum) : Except Failure Octets :=
  match d with
  | .buffer b => .ok b.flat
  | .checksum _ c => .ok c.serialize
  | .publicKey k => .ok k.serialize
  | .signature s => .ok s.serialize
  | .list items => items.mapM toByte
  | .released => .error (.stray .value "*")
  | _ =>
    match d.integral? with
    | none => .error .badType
    | some n => (blankSize n).map fun size => List.replicate size 0

/-- The bytes that a value lends to a reader who looks in place. -/
def lent (d : Datum) : Except Failure Octets :=
  match d with
  | .buffer b =>
    match b.inPlace? with
    | some bytes => .ok bytes
    | none => .error .badType
  | .released => .error (.stray .value "*")
  | _ => .error .badType

/-- Why a value has no members: a view of several dimensions would have views as members, which
    there are none of, a released one has nothing, and other values are no sequences. -/
def memberless (d : Datum) : Failure :=
  match d with
  | .buffer b =>
    if b.exporter = .memory ∧ 1 < b.shape.length then .stray .unsupported "*" else .badType
  | .released => .stray .value "*"
  | _ => .badType

def members (d : Datum) : Except Failure (List Datum) :=
  match Element.sequence? d with
  | some items => .ok items
  | none => .error d.memberless

end CryptoIntrinsics.Datum
