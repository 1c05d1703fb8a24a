import CryptoIntrinsics.Curve
import CryptoIntrinsics.Hex
import CryptoIntrinsics.Text.Blank
import CryptoIntrinsics.Varint

namespace CryptoIntrinsics

namespace Credential

inductive Kind where
  | publicKey
  | signature
deriving DecidableEq, Repr

namespace Kind

/-- The payload size: a compressed point, or a recovery header with two 32-byte numbers. -/
def size : Kind → Nat
  | publicKey => 33
  | signature => 65

def name : Kind → String
  | publicKey => "PublicKey"
  | signature => "Signature"

end Kind

end Credential

/-- A curve tag and a payload of the kind's size. -/
@[ext]
structure Credential (kind : Credential.Kind) where
  tag : Nat
  data : Octets
  tag_le : tag ≤ Varint.maxTag
  size_eq : data.length = kind.size
deriving DecidableEq, Repr

/-- A compressed elliptic-curve point under a curve tag. -/
abbrev PublicKey := Credential .publicKey

/-- A recovery header and the numbers r and s under a curve tag. -/
abbrev Signature := Credential .signature

namespace Credential

inductive Flaw where
  /-- The payload given for the value is not of the kind's size. -/
  | width (kind : Kind) (got : Nat)
  | badHex (kind : Kind) (text : String)
  | badTag (flaw : Varint.Flaw)
  | truncated (kind : Kind) (left : Int)
  | trailing (kind : Kind) (extra : Int)
  /-- The offset lies before the first byte. -/
  | outOfRange
deriving DecidableEq, Repr

variable {kind : Kind}

def curve (c : Credential kind) : Curve := Curve.ofTag c.tag

def serialize (c : Credential kind) : Octets := Varint.encode c.tag ++ c.data

def shown (c : Credential kind) : String :=
  let curve := if c.curve = .unknown then s!"tag={c.tag}" else c.curve.name
  s!"{kind.name}({curve}, {Hex.encode c.data})"

def ofParts (kind : Kind) (tag : Nat) (htag : tag ≤ Varint.maxTag) (data : Octets) :
    Except Flaw (Credential kind) :=
  if h : data.length = kind.size then .ok ⟨tag, data, htag, h⟩
  else .error (.width kind data.length)

/-- Reads one value at a signed offset and answers the offset behind it. The tag is read forward
    from the offset; the payload is the window behind it. -/
def unpackFrom (kind : Kind) (strict : Bool) (bytes : Octets) (offset : Int) :
    Except Flaw (Credential kind × Int) :=
  match Varint.decodeAt? strict Varint.maxTag bytes offset with
  | none => .error .outOfRange
  | some (.error flaw) => .error (.badTag flaw)
  | some (.ok (tag, start)) =>
    let stop := start + kind.size
    if (bytes.length : Int) < stop then .error (.truncated kind (bytes.length - start))
    else if htag : tag ≤ Varint.maxTag then
      (ofParts kind tag htag (bytes.window start stop)).map (·, stop)
    else .error (.badTag (.exceeds tag))

def deserialize (kind : Kind) (strict : Bool) (bytes : Octets) :
    Except Flaw (Credential kind) := do
  let (value, stop) ← unpackFrom kind strict bytes 0
  if stop = bytes.length then .ok value else .error (.trailing kind (bytes.length - stop))

/-- The bytes of a hexadecimal text with blanks around it, one marker, and gaps between pairs. -/
def hexOctets (kind : Kind) (text : String) : Except Flaw Octets :=
  match Hex.ofText? (Text.trim text.toList) with
  | none => .error (.badHex kind text)
  | some bytes => .ok bytes

end Credential

end CryptoIntrinsics
