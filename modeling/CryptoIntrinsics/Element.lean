import CryptoIntrinsics.Datum

namespace CryptoIntrinsics.Element

inductive Format where
  | integer (width : Nat) (signed : Bool)
  | floating (format : Floating.Format)
deriving DecidableEq, Repr

namespace Format

def size : Format → Nat
  | integer width _ => width
  | floating format => format.size

/-- The format a letter names where each element has its standard size. -/
def standard? : String → Option Format
  | "b" => some (integer 1 true)
  | "B" => some (integer 1 false)
  | "h" => some (integer 2 true)
  | "H" => some (integer 2 false)
  | "i" | "l" => some (integer 4 true)
  | "I" | "L" => some (integer 4 false)
  | "q" => some (integer 8 true)
  | "Q" => some (integer 8 false)
  | "e" => some (floating .binary16)
  | "f" => some (floating .binary32)
  | "d" => some (floating .binary64)
  | _ => none

/-- The format a letter names in an array of numbers, where the long integers have eight bytes and
    there is no half width. -/
def native? : String → Option Format
  | "l" => some (integer 8 true)
  | "L" => some (integer 8 false)
  | "e" => none
  | letter => standard? letter

/-- A code without the mark of native order, which changes nothing. -/
def unmarked (code : String) : String :=
  match code.toList with
  | '@' :: letter => String.ofList letter
  | _ => code

/-- The format a letter names in a view, where sizes and addresses are numbers too. -/
def viewed? : String → Option Format
  | "n" => some (integer 8 true)
  | "N" | "P" => some (integer 8 false)
  | letter => native? letter

/-- The format a code names in any buffer: that of a view, or a letter behind the mark of standard
    sizes. -/
def lent? (code : String) : Option Format :=
  match code.toList with
  | '<' :: letter => standard? (String.ofList letter)
  | _ => viewed? (unmarked code)

def span (width : Nat) : Nat := 1 <<< (8 * width)

def Holds (width : Nat) (signed : Bool) (n : Int) : Prop :=
  if signed then -(span width / 2 : Nat) ≤ n ∧ n < (span width / 2 : Nat)
  else 0 ≤ n ∧ n < span width

instance (width : Nat) (signed : Bool) (n : Int) : Decidable (Holds width signed n) := by
  unfold Holds; infer_instance

end Format

inductive Flaw where
  /-- Not a number of the format's kind, or an integer outside its range. -/
  | unsuitable
  /-- A finite floating-point number too large for the format. -/
  | overflow
deriving DecidableEq, Repr

/-- The bytes of an integer that the format holds: two's complement, least significant first. -/
def integerOctets (width : Nat) (n : Int) : Octets :=
  Octets.ofNatLittle width (n % (Format.span width : Int)).toNat

def integerOf (signed : Bool) (bytes : Octets) : Int :=
  let n := bytes.toNatLittle
  if signed ∧ Format.span bytes.length / 2 ≤ n then (n : Int) - Format.span bytes.length else n

/-- Writes one element. Integers may stand for floating-point numbers, by way of the nearest
    double, but not the other way round. -/
def pack (format : Format) (d : Datum) : Except Flaw Octets :=
  match format, d.integral?, d with
  | .integer width signed, some n, _ =>
    if Format.Holds width signed n then .ok (integerOctets width n) else .error .unsuitable
  | .floating f, some n, _ =>
    match (Floating.ofInt? n).bind (Floating.bits? f) with
    | some bits => .ok (Octets.ofNatLittle f.size bits)
    | none => .error .unsuitable
  | .floating f, none, .floating x =>
    match x.bits? f with
    | some bits => .ok (Octets.ofNatLittle f.size bits)
    | none => .error .overflow
  | _, _, _ => .error .unsuitable

/-- Writes elements one after the other; the first that cannot be written decides. -/
def packAll (format : Format) (items : List Datum) : Except Flaw Octets :=
  (items.mapM (pack format)).map List.flatten

def read (format : Format) (bytes : Octets) : Datum :=
  match format with
  | .integer _ signed => .integer (integerOf signed bytes)
  | .floating f => .floating (Floating.ofBits f bytes.toNatLittle)

def characterCode : String := "w"

/-- The value of one element of a lent buffer: a byte string of one byte, a truth value by its
    lowest bit, a character, or a number. -/
def readLent (code : String) (bytes : Octets) : Datum :=
  match Format.unmarked code with
  | "c" => .octets bytes
  | "?" => .truth (bytes.toNatLittle % 2 = 1)
  | letter =>
    if letter = characterCode then .ofCode bytes.toNatLittle
    else ((Format.lent? code).map (read · bytes)).getD .nothing

/-- The members of a value that is a sequence: list items, characters, or the elements of a buffer.
    Those of a grid are its rows; a view of several dimensions has no members. -/
def sequence? : Datum → Option (List Datum)
  | .list items => some items
  | .text s => some (s.toList.map fun c => .text c.toString)
  | .garbled g => some (g.codes.map .ofCode)
  | .buffer b =>
    match b.shape with
    | [] => none
    | [count] => some ((Buffer.rows b.rowSize count b.flat).map (readLent b.format))
    | count :: inner =>
      if b.exporter = .memory then none
      else
        some ((Buffer.rows b.rowSize count b.flat).map fun row =>
          .buffer { b with shape := inner, flat := row })
  | _ => none

/-- The members a value is said to have by its length. A view without dimensions is said to have
    one. -/
def count? : Datum → Option Nat
  | .list items => some items.length
  | .text s => some s.length
  | .garbled g => some g.codes.length
  | .buffer b =>
    match b.shape with
    | [] => if b.exporter = .memory then some 1 else none
    | count :: _ => some count
  | .checksum kind _ => some kind.size
  | .message m => some m.length
  | _ => none

end CryptoIntrinsics.Element
