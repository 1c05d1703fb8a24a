import CryptoIntrinsics.Octets

namespace CryptoIntrinsics.Hex

/-- The value of a hexadecimal digit, in either letter case, by its character code. -/
def nibble? (code : Nat) : Option Nat :=
  if 48 ≤ code ∧ code ≤ 57 then some (code - 48)
  else if 97 ≤ code ∧ code ≤ 102 then some (code - 87)
  else if 65 ≤ code ∧ code ≤ 70 then some (code - 55)
  else none

def digit (n : Nat) : Char := Char.ofNat (if n < 10 then 48 + n else 87 + n)

def join (high low : Nat) : UInt8 := UInt8.ofNat (16 * high + low)

/-- Two lower-case digits per byte. -/
def chars (bytes : Octets) : List Char :=
  bytes.flatMap fun b => [digit (b.toNat / 16), digit (b.toNat % 16)]

def encode (bytes : Octets) : String := String.ofList (chars bytes)

/-- Reads character codes as digit pairs, after the bytes read so far, newest first. -/
def pairs? (seen : Octets) : List Nat → Option Octets
  | [] => some seen.reverse
  | [_] => none
  | high :: low :: rest =>
    match nibble? high, nibble? low with
    | some h, some l => pairs? (join h l :: seen) rest
    | _, _ => none

/-- Why bare digit pairs were not read. The length is looked at first. -/
inductive Flaw where
  | oddLength
  | notDigit
deriving DecidableEq, Repr

/-- Reads digit pairs and nothing else: no blank, separator or marker. -/
def decode (text : Octets) : Except Flaw Octets :=
  if text.length % 2 = 1 then .error .oddLength
  else match pairs? [] (text.map (·.toNat)) with
    | some bytes => .ok bytes
    | none => .error .notDigit

/-- The blanks that may stand between digit pairs: space, and tab through carriage return. -/
def isGap (c : Char) : Bool := c.toNat = 32 || (9 ≤ c.toNat && c.toNat ≤ 13)

/-- Reads digit pairs with gaps between them. An error is the index of the first character that
    is no digit where one had to stand; the end of the text counts as such a character. -/
def spacedPairs (index : Nat) (seen : Octets) : List Char → Except Nat Octets
  | [] => .ok seen.reverse
  | [high] =>
    if isGap high then .ok seen.reverse
    else if (nibble? high.toNat).isSome then .error (index + 1) else .error index
  | high :: low :: rest =>
    if isGap high then spacedPairs (index + 1) seen (low :: rest)
    else match nibble? high.toNat, nibble? low.toNat with
      | none, _ => .error index
      | some _, none => .error (index + 1)
      | some h, some l => spacedPairs (index + 2) (join h l :: seen) rest

/-- The lenient reader. A character outside ASCII is the first error wherever it stands. -/
def decodeSpaced (text : List Char) : Except Nat Octets :=
  match text.findIdx? (fun c => 128 ≤ c.toNat) with
  | some index => .error index
  | none => spacedPairs 0 [] text

def dropMarker : List Char → List Char
  | '0' :: 'x' :: rest => rest
  | '0' :: 'X' :: rest => rest
  | text => text

def ofText? (text : List Char) : Option Octets := (decodeSpaced (dropMarker text)).toOption

end CryptoIntrinsics.Hex
