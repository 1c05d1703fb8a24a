import CryptoIntrinsics.Floating.Decimal
import CryptoIntrinsics.Text.Quoted

namespace CryptoIntrinsics

inductive Json where
  | null
  | truth (value : Bool)
  | number (value : Int)
  | fraction (value : Floating)
  | text (value : String)
  | garbled (value : Text.Garbled)
  | array (items : List Json)
  | object (members : List (String × Json))

namespace Json

def unit (n : Nat) : List Char := '\\' :: 'u' :: Text.hexDigits 4 n

/-- One character inside quotes. A character beyond 16 bits becomes two units, the upper and the
    lower ten bits of what it exceeds them by. -/
def escape (c : Char) : List Char :=
  if c = '"' || c = '\\' then ['\\', c]
  else if c = '\n' then ['\\', 'n']
  else if c = '\r' then ['\\', 'r']
  else if c = '\t' then ['\\', 't']
  else if c.toNat = 8 then ['\\', 'b']
  else if c.toNat = 12 then ['\\', 'f']
  else if 32 ≤ c.toNat && c.toNat < 127 then [c]
  else if c.toNat < 0x10000 then unit c.toNat
  else unit (0xd800 + (c.toNat - 0x10000) / 0x400) ++ unit (0xdc00 + (c.toNat - 0x10000) % 0x400)

def string (text : String) : List Char := '"' :: text.toList.flatMap escape ++ ['"']

/-- A text with surrogates in quotes, where each is a unit of its own. -/
def garbledString (text : Text.Garbled) : List Char :=
  '"' :: text.codes.flatMap (fun code =>
    if Text.isSurrogate code then unit code else escape (Char.ofNat code)) ++ ['"']

def newline (depth : Nat) : List Char := '\n' :: List.replicate (2 * depth) ' '

/-- The word for what has no decimal text, or the decimal text. -/
def real : Floating → List Char
  | .nan .. => "NaN".toList
  | .infinite negative => (if negative then "-Infinity" else "Infinity").toList
  | x => x.shown.toList

/-- Members between brackets, each on a line of its own. -/
def enclose (depth : Nat) (left right : Char) (members : List (List Char)) : List Char :=
  if members.isEmpty then [left, right]
  else
    left :: newline (depth + 1) ++ (',' :: newline (depth + 1)).intercalate members ++
      newline depth ++ [right]

mutual

/-- The printed form of a document whose first line has the given depth. -/
def chars (depth : Nat) : Json → List Char
  | null => "null".toList
  | truth b => (if b then "true" else "false").toList
  | number n => (toString n).toList
  | fraction x => real x
  | text s => string s
  | garbled g => garbledString g
  | array items => enclose depth '[' ']' (charsOfItems (depth + 1) items)
  | object members =>
    enclose depth '{' '}'
      (((charsOfMembers (depth + 1) members).mergeSort fun a b => !(b.1 < a.1)).map
        fun (key, value) => string key ++ ':' :: ' ' :: value)

def charsOfItems (depth : Nat) : List Json → List (List Char)
  | [] => []
  | item :: rest => chars depth item :: charsOfItems depth rest

def charsOfMembers (depth : Nat) : List (String × Json) → List (String × List Char)
  | [] => []
  | (key, value) :: rest => (key, chars depth value) :: charsOfMembers depth rest

end

def render (document : Json) : String := String.ofList (chars 0 document ++ ['\n'])

end Json

end CryptoIntrinsics
