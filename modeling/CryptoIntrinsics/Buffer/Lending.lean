import CryptoIntrinsics.Datum.Octets

namespace CryptoIntrinsics.Buffer

/-- The bytes of an element that a code names in a view. -/
def itemSizeOf? (code : String) : Option Nat :=
  match Element.Format.unmarked code with
  | "c" | "?" => some 1
  | letter => (Element.Format.viewed? letter).map Element.Format.size

/-- A view of bytes as elements of a format in one dimension; the bytes have to be whole elements.
    A format is ASCII text up to the first NUL. -/
def ofFormat (bytes : Octets) (format : String) : Except Failure Buffer :=
  if format.toList.any fun c => 128 ≤ c.toNat then .error (.stray .unencodable "*")
  else
    let code := String.ofList (format.toList.takeWhile (·.toNat != 0))
    match itemSizeOf? code with
    | none => .error (.stray .value "*")
    | some size =>
      if bytes.length % size = 0 then
        .ok ⟨.memory, code, size, [bytes.length / size], true, bytes⟩
      else .error .badType

def maxDimensions : Nat := 64

def maxSize : Nat := 0x7fffffffffffffff

/-- The sides of a shape of which those read so far multiply to `product`. They are integers above
    zero, and their product is a size. -/
def sides (product : Nat) : List Datum → Except Failure (List Nat)
  | [] => .ok []
  | d :: rest =>
    match d.integral? with
    | none => .error .badType
    | some n =>
      if n < -(maxSize + 1 : Nat) ∨ (maxSize : Int) < n then .error (.stray .overflow "*")
      else if n ≤ 0 ∨ (maxSize : Int) < product * n then .error (.stray .value "*")
      else (sides (product * n.toNat) rest).map (n.toNat :: ·)

def ofShape (bytes : Octets) (shape : List Datum) : Except Failure Buffer := do
  if bytes.isEmpty then .error .badType
  else if maxDimensions < shape.length then .error (.stray .value "*")
  else
    let counts ← sides 1 shape
    if counts.foldl (· * ·) 1 = bytes.length then return ⟨.memory, "B", 1, counts, true, bytes⟩
    else .error .badType

def ofStep (b : Buffer) (step : Datum) : Except Failure Buffer :=
  if b.shape.isEmpty then .error .badType
  else
    match step, step.integral? with
    | .nothing, _ => .ok b
    | _, none => .error .badType
    | _, some n => if n = 0 then .error (.stray .value "*") else .ok (b.stride n)

/-- The bytes of a floating-point number in an array. Too large a number is stored as an
    infinity. -/
def stored (format : Floating.Format) (x : Floating) : Octets :=
  let negative :=
    match x with
    | .nan negative _ | .infinite negative | .finite negative _ _ => negative
  Octets.ofNatLittle format.size
    ((x.bits? format).getD (format.signBit negative + format.infinity))

def arrayElement (format : Element.Format) (d : Datum) : Except Failure Octets :=
  match format, d.integral?, d with
  | .integer width signed, some n, _ =>
    if Element.Format.Holds width signed n then .ok (Element.integerOctets width n)
    else .error (.stray .overflow "*")
  | .floating f, some n, _ =>
    match Floating.ofInt? n with
    | some x => .ok (stored f x)
    | none => .error (.stray .overflow "*")
  | .floating f, none, .floating x => .ok (stored f x)
  | _, _, _ => .error .badType

def characterElement (d : Datum) : Except Failure Octets :=
  match d with
  | .text s =>
    match s.toList with
    | [c] => .ok (Octets.ofNatLittle 4 c.toNat)
    | _ => .error .badType
  | .garbled g =>
    match g.codes with
    | [code] => .ok (Octets.ofNatLittle 4 code)
    | _ => .error .badType
  | _ => .error .badType

/-- An array of the format that a letter names: numbers, or characters of four bytes each. -/
def ofArray (letter : String) (values : List Datum) : Except Failure Buffer := do
  if letter.length ≠ 1 then .error .badType
  else if letter = "u" then
    let elements ← values.mapM characterElement
    return ⟨.array, Element.characterCode, 4, [elements.length], true, elements.flatten⟩
  else
    match Element.Format.native? letter with
    | none => .error (.stray .value "*")
    | some format =>
      let elements ← values.mapM (arrayElement format)
      return ⟨.array, letter, format.size, [elements.length], true, elements.flatten⟩

/-- An object that lends 32-bit words in one dimension, least significant byte first; of larger
    numbers the lowest bits are kept. -/
def ofWords (words : List Int) : Buffer :=
  ⟨.other s!"c_uint_Array_{words.length}", "<I", 4, [words.length], true,
    words.flatMap (Element.integerOctets 4)⟩

def ofWord (word : Int) : Buffer :=
  ⟨.other "c_uint", "<I", 4, [], true, Element.integerOctets 4 word⟩

def ofGrid (rows columns : Nat) : Buffer :=
  ⟨.other s!"c_ubyte_Array_{columns}_Array_{rows}", "<B", 1, [rows, columns], true,
    List.replicate (rows * columns) 0⟩

end CryptoIntrinsics.Buffer
