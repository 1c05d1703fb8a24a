import CryptoIntrinsics.Checksum
import CryptoIntrinsics.Credential
import CryptoIntrinsics.Floating
import CryptoIntrinsics.Message
import CryptoIntrinsics.Number
import CryptoIntrinsics.Text.Garbled

namespace CryptoIntrinsics

inductive Datum where
  | nothing
  | truth (value : Bool)
  | integer (value : Int)
  | curve (value : Curve)
  | floating (value : Floating)
  | text (value : String)
  | garbled (value : Text.Garbled)
  | buffer (value : Buffer)
  /-- A memory view that has given its bytes back. It keeps its kind and nothing else. -/
  | released
  | list (items : List Datum)
  | checksum (kind : Checksum.Kind) (value : Checksum kind)
  | publicKey (value : PublicKey)
  | signature (value : Signature)
  | message (value : Message)

namespace Datum

def octets (bytes : Octets) : Datum := .buffer (.ofOctets bytes)

/-- The text of one code point. -/
def ofCode (code : Nat) : Datum :=
  if h : Text.isSurrogate code = true then garbled (.single code h)
  else text (Char.ofNat code).toString

/-- The name that messages give to the kind of a value. -/
def typeName : Datum → String
  | nothing => "NoneType"
  | truth _ => "bool"
  | integer _ => "int"
  | curve _ => "CurveType"
  | floating _ => "float"
  | text _ | garbled _ => "str"
  | buffer b =>
    match b.exporter with
    | .bytes => "bytes"
    | .byteArray => "bytearray"
    | .memory => "memoryview"
    | .array => "array"
    | .other name => name
  | released => "memoryview"
  | list _ => "list"
  | checksum kind _ => kind.name
  | publicKey _ => Credential.Kind.publicKey.name
  | signature _ => Credential.Kind.signature.name
  | message _ => "BufferView"

/-- The number of an integer. A curve is one; a truth value is none. -/
def integer? : Datum → Option Int
  | integer n => some n
  | curve c => some c.toInt
  | _ => none

/-- The integer a value counts as, where a truth value is zero or one. -/
def integral? : Datum → Option Int
  | truth b => some (if b then 1 else 0)
  | d => d.integer?

def number? : Datum → Option Number
  | floating x => some (.floating x)
  | d => d.integral?.map .integer

def measure (m : Message) : Datum :=
  match m.lengthCurve with
  | some c => curve c
  | none => integer m.length

/-- The bytes of a byte string, byte array or memory view, of any format and with gaps or not. -/
def bytesLike? : Datum → Option Octets
  | buffer b =>
    match b.exporter with
    | .bytes | .byteArray | .memory => some b.flat
    | _ => none
  | _ => none

/-- Whether a value counts as true: empty and zero values do not. A view without dimensions is not
    empty, and any other object without them is its number. Of a released view it cannot be said. -/
def truth? : Datum → Option Bool
  | nothing => some false
  | truth b => some b
  | integer n => some (n != 0)
  | curve c => some (c.toInt != 0)
  | floating x => some x.isTrue
  | text s => some !s.isEmpty
  | garbled _ => some true
  | buffer b =>
    match b.shape with
    | [] => some (b.exporter = .memory || b.flat.any (· != 0))
    | rows :: _ => some (rows != 0)
  | released => none
  | list items => some !items.isEmpty
  | checksum kind _ => some (kind.size != 0)
  | publicKey _ | signature _ => some true
  | message m => some (m.length != 0)

theorem integral?_measure (m : Message) : (measure m).integral? = some (m.length : Int) := by
  unfold measure
  split
  · next c hc => exact congrArg some (m.toInt_lengthCurve c hc)
  · rfl

end Datum

end CryptoIntrinsics
