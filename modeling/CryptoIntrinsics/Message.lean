import CryptoIntrinsics.Buffer
import CryptoIntrinsics.Curve

namespace CryptoIntrinsics

/-- Which shape of source a message was made from. -/
inductive Message.Origin where
  | raw
  | text
  | bytes
  | elements
  | array
deriving DecidableEq, Repr

/-- A row of bytes of which the first `length` are the message. Only a row given directly may have
    gaps in memory. Where a curve was given as the length, its number counts, and it is kept. -/
structure Message where
  content : Octets
  contiguous : Bool
  length : Nat
  origin : Message.Origin
  lengthCurve : Option Curve
  length_le : length ≤ content.length
  toInt_lengthCurve : ∀ c ∈ lengthCurve, c.toInt = length
deriving DecidableEq, Repr

namespace Message

def Origin.name : Origin → String
  | raw => "raw"
  | text => "text"
  | bytes => "bytes"
  | elements => "elements"
  | array => "array"

def whole (origin : Origin) (content : Octets) : Message :=
  ⟨content, true, content.length, origin, none, Nat.le_refl _, by simp⟩

/-- The bytes that count. -/
def payload (m : Message) : Octets := m.content.take m.length

/-- The row as the buffer that crosses the boundary. -/
def window (m : Message) : Buffer := Buffer.byteRow .memory m.contiguous m.content

theorem length_payload (m : Message) : m.payload.length = m.length := by
  simp [payload, Nat.min_eq_left m.length_le]

theorem payload_whole (origin : Origin) (content : Octets) :
    (whole origin content).payload = content := by
  simp [whole, payload]

end Message

end CryptoIntrinsics
