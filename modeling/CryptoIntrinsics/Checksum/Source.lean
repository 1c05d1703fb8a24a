import CryptoIntrinsics.Datum.Octets

namespace CryptoIntrinsics

namespace Checksum

variable (kind : Kind)

/-- A result whose flaw is a failure of its own, of what was read at an offset. -/
def settleAt {α : Type} (offset : Datum) : Except Flaw α → Except Failure α
  | .ok value => .ok value
  | .error flaw => .error (flaw.failure offset)

def settle {α : Type} : Except Flaw α → Except Failure α := settleAt (.integer 0)

def ofDatum (d : Datum) : Except Failure (Checksum kind) :=
  match d.bytesLike? with
  | none => .error (d.refusal (.bytesExpected kind.name d.typeName))
  | some bytes => settle (ofOctets kind bytes)

/-- The digest value an argument is or has the bytes of. A digest value of another kind is not
    taken, even of the same width. -/
def ofArgument (argument : String) (d : Datum) : Except Failure (Checksum kind) :=
  match d with
  | .checksum k c =>
    if h : k = kind then .ok (h ▸ c)
    else .error (.misuse (.wrongKind argument kind.name k.name))
  | _ =>
    match d.bytesLike? with
    | none => .error (d.refusal (.checksumExpected argument kind.name d.typeName))
    | some bytes => settle (ofOctets kind bytes)

def read (d : Datum) : Except Failure (Checksum kind) := do settle (deserialize kind (← d.lent))

/-- What follows an offset that is no integer: either too few bytes, of which what is left is
    reported, or no window. -/
def failureAt (bytes : Octets) (offset : Floating) : Failure :=
  let size : Number := .integer bytes.length
  if size.precedes (.floating (offset.addInt kind.size)) then
    let left := offset.negate.addInt bytes.length
    let available : Datum :=
      if (Number.integer 0).precedes (.floating left) then .floating left else .integer 0
    .fault (truncatedFault kind (.floating offset) available)
  else .badType

def readAt (d offset : Datum) : Except Failure (Checksum kind × Int) := do
  let bytes ← d.lent
  match offset, offset.integral? with
  | _, some start => settleAt offset (unpackFrom kind bytes start)
  | .floating x, none => .error (failureAt kind bytes x)
  | _, none => .error .badType

end Checksum

end CryptoIntrinsics
