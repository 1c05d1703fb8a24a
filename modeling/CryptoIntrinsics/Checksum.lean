import CryptoIntrinsics.Hex
import CryptoIntrinsics.Text.Blank

namespace CryptoIntrinsics

namespace Checksum

/-- The widths of digest values; `empty` is the degenerate one of no bytes. -/
inductive Kind where
  | empty
  | bits160
  | bits256
  | bits512
deriving DecidableEq, Repr

namespace Kind

def size : Kind → Nat
  | empty => 0
  | bits160 => 20
  | bits256 => 32
  | bits512 => 64

def name : Kind → String
  | empty => "FixedBytes"
  | bits160 => "Checksum160"
  | bits256 => "Checksum256"
  | bits512 => "Checksum512"

end Kind

end Checksum

/-- A digest value of the given kind. -/
@[ext]
structure Checksum (kind : Checksum.Kind) where
  data : Octets
  size_eq : data.length = kind.size
deriving DecidableEq, Repr

namespace Checksum

inductive Flaw where
  /-- The bytes given for the value are not as many as the kind has. -/
  | width (kind : Kind) (got : Nat)
  | badHex (kind : Kind) (text : String)
  | truncated (kind : Kind) (available : Nat)
  | trailing (kind : Kind) (extra : Nat)
deriving DecidableEq, Repr

def ofOctets (kind : Kind) (bytes : Octets) : Except Flaw (Checksum kind) :=
  if h : bytes.length = kind.size then .ok ⟨bytes, h⟩ else .error (.width kind bytes.length)

def zero (kind : Kind) : Checksum kind := ⟨List.replicate kind.size 0, by simp⟩

def serialize {kind : Kind} (c : Checksum kind) : Octets := c.data

def shown {kind : Kind} (c : Checksum kind) : String := s!"{kind.name}({Hex.encode c.data})"

/-- Reads one value at a signed offset and answers the offset behind it. The end is checked
    against the length before the window is taken, so a negative offset whose window is cut
    short is a width error. -/
def unpackFrom (kind : Kind) (bytes : Octets) (offset : Int) :
    Except Flaw (Checksum kind × Int) :=
  let stop := offset + kind.size
  if (bytes.length : Int) < stop then
    .error (.truncated kind ((bytes.length : Int) - offset).toNat)
  else (ofOctets kind (bytes.window offset stop)).map (·, stop)

def deserialize (kind : Kind) (bytes : Octets) : Except Flaw (Checksum kind) := do
  let (value, stop) ← unpackFrom kind bytes 0
  if stop = bytes.length then .ok value
  else .error (.trailing kind (bytes.length - stop).toNat)

/-- Reads hexadecimal text with blanks around it, one marker, and gaps between pairs. -/
def ofHex (kind : Kind) (text : String) : Except Flaw (Checksum kind) :=
  match Hex.ofText? (Text.trim text.toList) with
  | none => .error (.badHex kind text)
  | some bytes => ofOctets kind bytes

end Checksum

end CryptoIntrinsics
