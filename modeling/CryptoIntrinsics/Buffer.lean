import CryptoIntrinsics.Octets

namespace CryptoIntrinsics

/-- What lends out the bytes of a buffer. -/
inductive Exporter where
  | bytes
  | byteArray
  | memory
  | array
  | other (typeName : String)
deriving DecidableEq, Repr

/-- Elements of one format in row-major order. `flat` holds their bytes in that order whatever
    their places in memory; `contiguous` says that these places follow each other without gaps. -/
structure Buffer where
  exporter : Exporter
  format : String
  itemSize : Nat
  shape : List Nat
  contiguous : Bool
  flat : Octets
deriving DecidableEq, Repr

namespace Buffer

/-- The bytes of one step along the first dimension. -/
def rowSize (b : Buffer) : Nat := b.itemSize * b.shape.tail.foldl (· * ·) 1

/-- Whether the elements are unsigned bytes in one dimension. -/
def isByteRow (b : Buffer) : Bool := b.format == "B" && b.shape.length == 1

def byteRow (exporter : Exporter) (contiguous : Bool) (bytes : Octets) : Buffer :=
  ⟨exporter, "B", 1, [bytes.length], contiguous, bytes⟩

def ofOctets (bytes : Octets) : Buffer := byteRow .bytes true bytes

/-- The flat bytes, for a reader that copies where it cannot look in place: the elements only have
    to be contiguous. -/
def gather? (b : Buffer) : Option Octets := if b.contiguous then some b.flat else none

/-- The flat bytes, for a reader that only looks in place: besides, a buffer of other than one
    dimension must have no empty side. -/
def inPlace? (b : Buffer) : Option Octets :=
  if b.contiguous && (b.shape.length == 1 || !b.shape.contains 0) then some b.flat else none

/-- The first `count` elements along the first dimension, as bytes; `none` without dimensions. -/
def head? (b : Buffer) (count : Nat) : Option Octets :=
  match b.shape with
  | [] => none
  | rows :: _ => some (b.flat.take (min count rows * b.rowSize))

def rows (size : Nat) : (count : Nat) → Octets → List Octets
  | 0, _ => []
  | count + 1, bytes => bytes.take size :: rows size count (bytes.drop size)

/-- Every element whose distance from the first is a multiple of `gap + 1`; `skip` more are left
    out before. -/
def everyNth {α : Type} (gap : Nat) : (skip : Nat) → List α → List α
  | _, [] => []
  | 0, x :: rest => x :: everyNth gap gap rest
  | skip + 1, _ :: rest => everyNth gap skip rest

/-- The buffer with only every `step`-th element of its first dimension, from the last one on when
    the step is negative. The places stay contiguous when the step is one or at most one row is
    left; an empty single dimension with another step counts as having gaps. -/
def stride (b : Buffer) (step : Int) : Buffer :=
  match b.shape with
  | [] => b
  | count :: rest =>
    let all := rows b.rowSize count b.flat
    let kept := everyNth (step.natAbs - 1) 0 (if step < 0 then all.reverse else all)
    let solid := step == 1 || kept.length == 1 || (!rest.isEmpty && kept.isEmpty)
    { b with
      shape := kept.length :: rest, contiguous := b.contiguous && solid, flat := kept.flatten }

end Buffer

end CryptoIntrinsics
