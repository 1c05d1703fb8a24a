import CryptoIntrinsics.Fault

namespace CryptoIntrinsics.Datum

/-- How a value takes attributes. -/
inductive Openness where
  | sealed
  /-- Some fields are sealed, some attributes can only be read, and any other one is taken. -/
  | keeping (fields readOnly : List String)
  | plain

def openness : Datum → Openness
  | checksum .empty _ | message _ => .sealed
  | checksum _ _ => .keeping ["data"] []
  | publicKey _ | signature _ => .keeping ["type", "data"] ["curve"]
  | curve _ => .keeping [] ["name", "value", "real", "imag", "numerator", "denominator"]
  | buffer b =>
    match b.exporter with
    | .other _ => .keeping [] []
    | _ => .plain
  | _ => .plain

/-- The attribute by which a value names its kind. No value can take another kind. -/
def kindAttribute : String := "__class__"

/-- The attribute that holds the attributes an object keeps. -/
def keepAttribute : String := "__dict__"

def watchAttribute : String := "__weakref__"

def assign (d name : Datum) : Except Failure Unit :=
  match name, d.openness with
  | text _, .sealed | garbled _, .sealed => .error (.stray .frozen "*")
  | text field, .keeping fields readOnly =>
    if fields.contains field then .error (.stray .frozen "*")
    else if field = kindAttribute ∨ field = keepAttribute then .error .badType
    else if field = watchAttribute ∨ readOnly.contains field then
      .error (.stray .unknownName "*")
    else .ok ()
  | text field, .plain =>
    if field = kindAttribute then .error .badType else .error (.stray .unknownName "*")
  | garbled _, .keeping _ _ => .ok ()
  | garbled _, .plain => .error (.stray .unknownName "*")
  | _, _ => .error .badType

end CryptoIntrinsics.Datum
