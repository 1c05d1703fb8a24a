import CryptoIntrinsics.Element
import CryptoIntrinsics.Floating.Decimal
import CryptoIntrinsics.Text.IntegerLiteral
import CryptoIntrinsics.Text.Quoted

namespace CryptoIntrinsics.Datum

/-- The quoted form of a value that holds no others. What cannot be read from outside is printed by
    the name of its kind. -/
def quotedPlain : Datum → String
  | nothing => "None"
  | truth b => if b then "True" else "False"
  | integer n => toString n
  | curve c => s!"<CurveType.{c.name}: {c.toInt}>"
  | floating x => x.shown
  | text s => Text.quoted s
  | garbled g => Text.quotedCodes g.codes
  | checksum _ c => c.shown
  | publicKey k => k.shown
  | signature s => s.shown
  | d => s!"<{d.typeName}>"

/-- The code points that characters of an array make. -/
def joined (members : List Datum) : List Nat :=
  members.flatMap fun
    | text s => s.toList.map Char.toNat
    | garbled g => g.codes
    | _ => []

def bracketed (items : List String) : String := "[" ++ ", ".intercalate items ++ "]"

/-- The quoted form of what lends a buffer. An array is printed with its format and its numbers or
    characters, and a single number of another object with the name of its kind. -/
def quotedBuffer (b : Buffer) : String :=
  let members := (Element.sequence? (buffer b)).getD []
  match b.exporter, b.shape with
  | .bytes, _ => Text.quotedOctets b.flat
  | .byteArray, _ => s!"bytearray({Text.quotedOctets b.flat})"
  | .array, _ =>
    if b.format = Element.characterCode then
      if members.isEmpty then "array('u')" else s!"array('u', {Text.quotedCodes (joined members)})"
    else if members.isEmpty then s!"array({Text.quoted b.format})"
    else s!"array({Text.quoted b.format}, {bracketed (members.map quotedPlain)})"
  | .other name, [] => s!"{name}({(Element.readLent b.format b.flat).quotedPlain})"
  | _, _ => quotedPlain (buffer b)

def quoted : Datum → String
  | list items => bracketed (quotedItems items)
  | buffer b => quotedBuffer b
  | d => d.quotedPlain
where
  quotedItems : List Datum → List String
    | [] => []
    | item :: rest => quoted item :: quotedItems rest

/-- Whether a value has a printed form: an integer of too many digits has none. -/
def isWritable : Datum → Bool
  | list items => areWritable items
  | d => d.integral?.all Text.IntegerLiteral.isWritable
where
  areWritable : List Datum → Bool
    | [] => true
    | item :: rest => isWritable item && areWritable rest

/-- The bare form of a value: a text is itself, and a curve its number. -/
def shown : Datum → String
  | text s => s
  | curve c => toString c.toInt
  | d => d.quoted

end CryptoIntrinsics.Datum
