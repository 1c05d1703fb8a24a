import CryptoIntrinsics.Hex
import CryptoIntrinsics.Text.Garbled
import CryptoIntrinsics.Text.Printable

namespace CryptoIntrinsics.Text

def hexDigits (width n : Nat) : List Char :=
  (List.range width).reverse.map fun i => Hex.digit (n >>> (4 * i) % 16)

def quoteChar (quote c : Char) : List Char :=
  if c = quote || c = '\\' then ['\\', c]
  else if c = '\t' then ['\\', 't']
  else if c = '\n' then ['\\', 'n']
  else if c = '\r' then ['\\', 'r']
  else if isPrintable c then [c]
  else if c.toNat < 0x100 then '\\' :: 'x' :: hexDigits 2 c.toNat
  else if c.toNat < 0x10000 then '\\' :: 'u' :: hexDigits 4 c.toNat
  else '\\' :: 'U' :: hexDigits 8 c.toNat

/-- The quote that stands around characters. -/
def quoteFor (chars : List Char) : Char :=
  if chars.contains '\'' && !chars.contains '"' then '"' else '\''

def quoteCode (quote : Char) (code : Nat) : List Char :=
  if isSurrogate code then '\\' :: 'u' :: hexDigits 4 code else quoteChar quote (Char.ofNat code)

def quotedCodes (codes : List Nat) : String :=
  let quote := quoteFor (codes.map Char.ofNat)
  String.ofList (quote :: codes.flatMap (quoteCode quote) ++ [quote])

def quoted (text : String) : String := quotedCodes (text.toList.map Char.toNat)

/-- One byte inside the given quotes; what is not ASCII has no form of its own. -/
def quoteByte (quote : Char) (b : UInt8) : List Char :=
  if b.toNat < 128 then quoteChar quote (Char.ofNat b.toNat)
  else '\\' :: 'x' :: hexDigits 2 b.toNat

/-- The quoted form of a byte string, with a mark in front. -/
def quotedOctets (bytes : Octets) : String :=
  let quote := quoteFor (bytes.map fun b => Char.ofNat b.toNat)
  String.ofList ('b' :: quote :: bytes.flatMap (quoteByte quote) ++ [quote])

end CryptoIntrinsics.Text
