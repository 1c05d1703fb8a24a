import CryptoIntrinsics.Credential.Source
import CryptoIntrinsics.Session.State

namespace CryptoIntrinsics.Decoding

open Procedure Session

def lowByte (n : Int) : UInt8 := UInt8.ofNat (n % 256).toNat

/-- The index that an offset into `size` elements denotes. One that is no integer denotes none; it
    is refused, unless it lies behind the elements, where nothing is read. -/
def indexOf (offset : Datum) (size : Nat) : Except Failure (Option Int) :=
  match offset.integral?, offset.number? with
  | some n, _ => .ok (some n)
  | none, some x => if x.precedes (.integer size) then .error .badType else .ok none
  | none, none => .error .badType

/-- Reads a variable-length integer from the front of elements that are read one at a time. Only the
    lowest eight bits of each count, but a last element adds nothing only if it is zero itself. What
    is no integer fails if it is reached. -/
def varintOf (strict : Bool) (bound : Int) (offset limit : Datum) (ahead : List Datum) :
    Except Failure (Nat × Nat) :=
  let near := ahead.take (Varint.size bound.natAbs)
  let read := (near.map Datum.integral?).takeWhile Option.isSome
  let integers := read.filterMap id
  let last := integers.find? fun n => (lowByte n).toNat < 128
  match Varint.decode (strict && last == some 0) bound (integers.map lowByte) with
  | .ok result => .ok result
  | .error .truncated =>
    if integers.length < near.length then .error .badType
    else .error (.fault (Varint.Flaw.truncated.fault offset limit))
  | .error flaw => .error (flaw.failure offset limit)

/-- Why nothing is read at an index of a value without members. An index beyond the range of sizes
    is out of the range of a view of several dimensions, too. -/
def unreadable (source : Datum) (index : Int) : Failure :=
  match source.memberless with
  | .stray .unsupported _ =>
    .stray (if index < -9223372036854775808 then .index else .unsupported) "*"
  | failure => failure

/-- Reads a variable-length integer at an index of a value with so many elements: its value and the
    index behind it. `offset` and `limit` are the index and the bound as they were given. -/
def varintAt (strict : Bool) (bound : Int) (source : Datum) (size : Nat) (start : Int)
    (offset limit : Datum) : Except Failure (Nat × Int) :=
  if (size : Int) ≤ start then .error (.fault (Varint.Flaw.truncated.fault offset limit))
  else
    match Element.sequence? source with
    | none => .error (unreadable source start)
    | some items =>
      match Offset.ahead? items start with
      | none => .error (.stray .index "*")
      | some ahead =>
        (varintOf strict bound offset limit ahead).map fun (value, used) => (value, start + used)

/-- Reads a variable-length integer at an index of a row of bytes, with gaps or not, or else of the
    elements of any value. -/
def varintIn (strict : Bool) (bound : Int) (source : Datum) (size : Nat) (start : Int)
    (offset limit : Datum) : Except Failure (Nat × Int) :=
  match source with
  | .buffer b =>
    if b.isByteRow then
      match Varint.decodeAt? strict bound b.flat start with
      | none => .error (.stray .index "*")
      | some (.ok result) => .ok result
      | some (.error flaw) => .error (flaw.failure offset limit)
    else varintAt strict bound source size start offset limit
  | _ => varintAt strict bound source size start offset limit

/-- Whether padded integers are refused: as asked for, or else by the policy in force. -/
def strictness (asked : Datum) : Procedure Bool := do
  match asked with
  | .nothing => return (← currentPolicy).strictVarint
  | _ =>
    match asked.truth? with
    | some refusing => return refusing
    | none => throw (.stray .value "*")

/-- Reads a variable-length integer from a value. The bound has to be an integer. -/
def varint (source offset limit strict : Datum) : Procedure (Nat × Int) := do
  let refusing ← strictness strict
  match limit.integral?, Element.count? source with
  | none, _ => throw (.stray .unknownName "*")
  | some _, none => throw source.memberless
  | some bound, some size =>
    match ← demand (indexOf offset size) with
    | none => throw (.fault (Varint.Flaw.truncated.fault offset limit))
    | some start => demand (varintIn refusing bound source size start offset limit)

def credential (kind : Credential.Kind) (source : Datum) : Procedure (Credential kind) := do
  let bytes ← demand source.lent
  let policy ← currentPolicy
  demand (Credential.settle (Credential.deserialize kind policy.strictVarint bytes))

def credentialAt (kind : Credential.Kind) (source offset : Datum) :
    Procedure (Credential kind × Int) := do
  let bytes ← demand source.lent
  let policy ← currentPolicy
  match ← demand (indexOf offset bytes.length) with
  | none =>
    let flaw : Credential.Flaw := .badTag .truncated
    throw (flaw.failure offset)
  | some start =>
    demand <| Credential.settleAt offset <|
      Credential.unpackFrom kind policy.strictVarint bytes start

def credentialOfHex (kind : Credential.Kind) (text : String) : Procedure (Credential kind) := do
  let bytes ← demand (Credential.settle (Credential.hexOctets kind text))
  let policy ← currentPolicy
  demand (Credential.settle (Credential.deserialize kind policy.strictVarint bytes))

end CryptoIntrinsics.Decoding
