import CryptoIntrinsics.Datum.Octets

namespace CryptoIntrinsics.Datum

/-- What a digest value, key, signature or byte string is compared by: a number for its kind, its
    tag, and its bytes. -/
structure Rank where
  kind : Nat
  tag : Nat
  bytes : Octets
deriving DecidableEq, Repr

namespace Rank

def precedes (a b : Rank) : Bool := a.tag < b.tag || (a.tag == b.tag && decide (a.bytes < b.bytes))

end Rank

def rank? : Datum → Option Rank
  | checksum .empty c => some ⟨0, 0, c.data⟩
  | checksum .bits160 c => some ⟨1, 0, c.data⟩
  | checksum .bits256 c => some ⟨2, 0, c.data⟩
  | checksum .bits512 c => some ⟨3, 0, c.data⟩
  | publicKey k => some ⟨4, k.tag, k.data⟩
  | signature s => some ⟨5, s.tag, s.data⟩
  | buffer b => if b.exporter = .bytes then some ⟨6, 0, b.flat⟩ else none
  | _ => none

def equalPlain (a b : Datum) : Bool :=
  match a.number?, b.number?, rank? a, rank? b, a, b with
  | some x, some y, _, _, _, _ => x.equal y
  | _, _, some r, some s, _, _ => r == s
  | _, _, _, _, text s, text t => s == t
  | _, _, _, _, garbled s, garbled t => s == t
  | _, _, _, _, nothing, nothing => true
  | _, _, _, _, _, _ => false

def equalMembers (a b : List Datum) : Bool :=
  a.length == b.length && (a.zip b).all fun (x, y) => equalPlain x y

def elements (b : Buffer) : List Datum :=
  (Buffer.rows b.itemSize (b.flat.length / b.itemSize) b.flat).map (Element.readLent b.format)

/-- Whether what lends two buffers is equal: byte arrays to anything with their bytes, views to
    anything with their shape and elements, and arrays to arrays with their elements. -/
def equalBuffers (a b : Buffer) : Bool :=
  match a.exporter, b.exporter with
  | .bytes, .bytes => a.flat == b.flat
  | .byteArray, _ => b.contiguous && a.flat == b.flat
  | .memory, _ | _, .memory => a.shape == b.shape && equalMembers (elements a) (elements b)
  | _, .byteArray => a.contiguous && a.flat == b.flat
  | .array, .array => equalMembers (elements a) (elements b)
  | _, _ => false

def equal (a b : Datum) : Bool :=
  match a, b with
  | list items, list others => equalItems items others
  | buffer c, buffer d => equalBuffers c d
  | _, _ => equalPlain a b
where
  equalItems : List Datum → List Datum → Bool
    | [], [] => true
    | x :: items, y :: others => equal x y && equalItems items others
    | _, _ => false

def codes? : Datum → Option (List Nat)
  | text s => some (s.toList.map Char.toNat)
  | garbled g => some g.codes
  | _ => none

def beforePlain? (a b : Datum) : Option Bool :=
  match a.number?, b.number?, rank? a, rank? b, codes? a, codes? b with
  | some x, some y, _, _, _, _ => some (x.precedes y)
  | _, _, some r, some s, _, _ => if r.kind = s.kind then some (r.precedes s) else none
  | _, _, _, _, some s, some t => some (decide (s < t))
  | _, _, _, _, _, _ => none

/-- Whether one sequence comes before another: the first difference decides, and then the
    lengths. -/
def beforeMembers? : List Datum → List Datum → Option Bool
  | [], others => some !others.isEmpty
  | _ :: _, [] => some false
  | x :: items, y :: others =>
    if equalPlain x y then beforeMembers? items others else beforePlain? x y

/-- Whether what lends one buffer comes before what lends another. Byte arrays are ordered with
    anything that has bytes without gaps. -/
def beforeBuffers? (a b : Buffer) : Option Bool :=
  match a.exporter, b.exporter with
  | .bytes, .bytes => some (decide (a.flat < b.flat))
  | .byteArray, _ | _, .byteArray =>
    if a.contiguous && b.contiguous then some (decide (a.flat < b.flat)) else none
  | .array, .array => beforeMembers? (elements a) (elements b)
  | _, _ => none

def before? (a b : Datum) : Option Bool :=
  match a, b with
  | list items, list others => beforeItems? items others
  | buffer c, buffer d => beforeBuffers? c d
  | _, _ => beforePlain? a b
where
  beforeItems? : List Datum → List Datum → Option Bool
    | [], others => some !others.isEmpty
    | _ :: _, [] => some false
    | x :: items, y :: others => if equal x y then beforeItems? items others else before? x y

/-- Whether one value comes before another; values without an order are of a wrong kind. -/
def precedes (a b : Datum) : Except Failure Bool :=
  match before? a b with
  | some verdict => .ok verdict
  | none => .error .badType

theorem equal_integer (m n : Int) : equal (integer m) (integer n) = (m == n) := by
  rw [Bool.eq_iff_iff, beq_iff_eq]
  simp [equal, equalPlain, number?, integral?, integer?, Number.equal, Number.compare?_integer]

theorem precedes_integer (m n : Int) :
    precedes (integer m) (integer n) = .ok (decide (m < n)) := by
  simp [precedes, before?, beforePlain?, number?, integral?, integer?, Number.precedes_integer]

/-- What equal values agree in. -/
inductive Fingerprint where
  | number (residue : Int)
  | octets (bytes : Octets)
  | rank (rank : Rank)
  | nothing
  /-- That of a value that is equal only to itself. -/
  | unique
deriving DecidableEq, Repr

namespace Fingerprint

/-- The fingerprint of bytes. No bytes agree with the number zero. -/
def ofOctets (bytes : Octets) : Fingerprint := if bytes.isEmpty then number 0 else octets bytes

/-- The fingerprint of a text: that of its code points in one, two or four bytes each, the fewest
    that hold them all. -/
def ofCodes (codes : List Nat) : Fingerprint :=
  let width := if codes.all (· < 0x100) then 1 else if codes.all (· < 0x10000) then 2 else 4
  ofOctets (codes.flatMap (Octets.ofNatLittle width))

def agrees (a b : Fingerprint) : Bool := a == b && a != unique

end Fingerprint

/-- The fingerprint of a value. What can change has none, nor has a view of other elements than
    bytes. -/
def fingerprint (d : Datum) : Except Failure Fingerprint :=
  match d with
  | nothing => .ok .nothing
  | text s => .ok (.ofCodes (s.toList.map Char.toNat))
  | garbled g => .ok (.ofCodes g.codes)
  | released => .error (.stray .value "*")
  | list _ => .error .badType
  | message _ => .ok .unique
  | buffer b =>
    match b.exporter with
    | .bytes => .ok (.ofOctets b.flat)
    | .memory =>
      if ["B", "b", "c"].contains (Element.Format.unmarked b.format) then .ok (.ofOctets b.flat)
      else .error (.stray .value "*")
    | .byteArray | .array => .error .badType
    | .other _ => .ok .unique
  | _ =>
    match d.number?, rank? d with
    | some x, _ => .ok ((x.residue?.map Fingerprint.number).getD .unique)
    | none, some r => .ok (.rank r)
    | none, none => .ok .unique

/-- The place of a value among others from `low` up to `high`: half of what is left is looked at
    each time, and the value goes behind those it does not come before. -/
def placeAmong? (sorted : List Datum) (value : Datum) (low high : Nat) : Option Nat :=
  if low < high then
    let middle := low + (high - low) / 2
    match sorted[middle]? with
    | none => none
    | some other =>
      match before? value other with
      | none => none
      | some true => placeAmong? sorted value low middle
      | some false => placeAmong? sorted value (middle + 1) high
  else some low
termination_by high - low

def insert? (sorted : List Datum) (value : Datum) : Option (List Datum) :=
  (placeAmong? sorted value 0 sorted.length).map fun place =>
    sorted.take place ++ value :: sorted.drop place

/-- The run at the front of what follows a value, each member of which comes before the last one or,
    when `descending` is false, does not; and the values behind the run. -/
def splitRun? (descending : Bool) (last : Datum) : List Datum → Option (List Datum × List Datum)
  | [] => some ([], [])
  | value :: rest => do
    if (← before? value last) == descending then
      let (run, later) ← splitRun? descending value rest
      return (value :: run, later)
    else return ([], value :: rest)

/-- The values in the order that comparing them one by one gives: the run at the front is kept, or
    turned round when it descends, and the others are inserted. -/
def arrange? : List Datum → Option (List Datum)
  | [] => some []
  | [value] => some [value]
  | first :: second :: rest => do
    let descending ← before? second first
    let (run, later) ← splitRun? descending second rest
    let front := first :: second :: run
    later.foldlM insert? (if descending then front.reverse else front)

def sameRank (values : List Datum) : Bool :=
  match values.mapM rank? with
  | some (first :: rest) => rest.all (·.kind == first.kind)
  | _ => false

/-- The values in ascending order, equal ones as they stood, if all have an order. Where what is no
    number is among them, the order of comparing decides. -/
def sort? (values : List Datum) : Option (List Datum) :=
  if sameRank values then some (values.mergeSort fun a b => (before? b a) != some true)
  else arrange? values

/-- How many values differ from all before them, in their fingerprint or else by themselves. -/
def countDistinct (values : List Datum) : Except Failure Nat := do
  let marked ← values.mapM fun v => do return (← fingerprint v, v)
  let seen := marked.foldl (fun seen (print, v) =>
    if seen.any fun (other, w) => print.agrees other && equal w v then seen
    else (print, v) :: seen) []
  return seen.length

end CryptoIntrinsics.Datum
