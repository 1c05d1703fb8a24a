import CryptoIntrinsics.Datum.Order

namespace CryptoIntrinsics.Message

/-- The first bytes of a row, as many as a number says that was perhaps given as a curve. -/
def front (origin : Origin) (content : Octets) (contiguous : Bool) (length : Int)
    (curve : Option Curve) (hcurve : ∀ c ∈ curve, c.toInt = length) : Except Failure Message :=
  if hneg : length < 0 then .error (.misuse (.negativeLength length))
  else if hle : length.toNat ≤ content.length then
    .ok ⟨content, contiguous, length.toNat, origin, curve, hle,
      fun c hc => by rw [hcurve c hc]; omega⟩
  else .error (.misuse (.lengthExceeds length content.length))

/-- The first `length` bytes of a row, once the length is known to be one. -/
def cut (origin : Origin) (content : Octets) (contiguous : Bool) (length : Datum) :
    Except Failure Message :=
  match length with
  | .integer n => front origin content contiguous n none (by simp)
  | .curve c => front origin content contiguous c.toInt (some c) (by simp)
  | _ => .error (.misuse (.lengthNotInteger length.typeName))

def flatten (source : Datum) : Except Failure Octets :=
  match source with
  | .buffer b =>
    match b.gather? with
    | some bytes => .ok bytes
    | none => .error (.misuse .notContiguous)
  | _ => .error (source.refusal (.bufferExpected source.typeName))

/-- A row of bytes as it is, with gaps or not, and a length. -/
def ofRow (source length : Datum) : Except Failure Message :=
  match source with
  | .buffer b =>
    if b.exporter = .memory ∧ b.isByteRow then cut .bytes b.flat b.contiguous length
    else .error (.misuse .notByteRow)
  | _ => .error (source.refusal .notByteRow)

def ofRaw (source length : Datum) : Except Failure Message := do
  cut .raw (← flatten source) true length

def ofText (source : Datum) : Except Failure Message :=
  match source with
  | .text s => .ok (whole .text (Octets.ofText s))
  | .garbled _ => .error (.stray .unencodable "*")
  | _ => .error (.misuse (.textExpected source.typeName))

/-- All bytes of a lent buffer; elements of several bytes count with all of them. -/
def ofBuffer (source : Datum) : Except Failure Message := (flatten source).map (whole .bytes)

/-- The format a value names: a text of one of the letters. What has another length than one is
    refused for that, whatever it is. -/
def formatOf (format : Datum) : Except Failure (String × Element.Format) :=
  match format, Element.count? format with
  | .text letter, _ =>
    match Element.Format.standard? letter with
    | some f => .ok (letter, f)
    | none => .error (.misuse (.unsupportedFormat format))
  | .garbled _, _ => .error (.misuse (.unsupportedFormat format))
  | _, none => .error format.memberless
  | _, some 1 => .error .badType
  | _, some _ => .error (.misuse (.unsupportedFormat format))

/-- The bytes of numbers written as elements of a format, which is looked at first. -/
def pack (values format : Datum) : Except Failure Octets := do
  let (letter, f) ← formatOf format
  match Element.packAll f (← values.members) with
  | .ok bytes => .ok bytes
  | .error .unsuitable => .error (.misuse (.unpackable letter))
  | .error .overflow => .error (.stray .overflow "*")

def ofElements (values format : Datum) : Except Failure Message :=
  (pack values format).map (whole .elements)

/-- A list of exactly so many numbers; their count is looked at before their format. -/
def ofArray (values format count : Datum) : Except Failure Message :=
  match Element.count? values with
  | none => .error values.memberless
  | some n =>
    if Datum.equal (.integer n) count then (pack values format).map (whole .array)
    else .error (.misuse (.elementCount count n))

/-- The message a value stands for where any source may be given: a message is itself, a text its
    UTF-8 bytes, and anything else has to lend a buffer. Lists of numbers are not taken. -/
def ofDatum (source : Datum) : Except Failure Message :=
  match source with
  | .message m => .ok m
  | .text s => .ok (whole .text (Octets.ofText s))
  | .garbled _ => .error (.stray .unencodable "*")
  | _ => ofBuffer source

end CryptoIntrinsics.Message
