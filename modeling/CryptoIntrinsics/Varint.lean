import CryptoIntrinsics.Octets
import CryptoIntrinsics.Offset

namespace CryptoIntrinsics.Varint

/-- The largest 32-bit value, the default bound in both directions. -/
def maxTag : Nat := 0xffffffff

/-- The number of binary digits of `n`; zero has none. -/
def bitLength (n : Nat) : Nat := if n = 0 then 0 else n.log2 + 1

/-- The number of bytes that write `n`, at least one. -/
def size (n : Nat) : Nat := max 1 ((bitLength n + 6) / 7)

def encode (n : Nat) : Octets :=
  if n < 128 then [UInt8.ofNat n] else UInt8.ofNat (n % 128 + 128) :: encode (n / 128)
termination_by n

theorem encode_of_lt {n : Nat} (hn : n < 128) : encode n = [UInt8.ofNat n] := by
  rw [encode, if_pos hn]

theorem encode_of_le {n : Nat} (hn : 128 ≤ n) :
    encode n = UInt8.ofNat (n % 128 + 128) :: encode (n / 128) := by
  rw [encode, if_neg (by omega)]

inductive Flaw where
  | truncated
  /-- As many bytes as the bound can need all ask for another one. -/
  | tooLong
  /-- The last of several bytes adds nothing. -/
  | nonMinimal
  | exceeds (value : Nat)
deriving DecidableEq, Repr

/-- Reads the remaining bytes of an integer of which `used` bytes with value `n` were read.
    Answers the value and the number of bytes used in all. -/
def decodeTail (strict : Bool) (bound : Int) (n used : Nat) : Octets → Except Flaw (Nat × Nat)
  | [] => .error .truncated
  | b :: rest =>
    let value := n + (b.toNat % 128) <<< (7 * used)
    if b.toNat < 128 then
      if strict ∧ b.toNat = 0 ∧ 0 < used then .error .nonMinimal
      else if bound < value then .error (.exceeds value)
      else .ok (value, used + 1)
    else if size bound.natAbs ≤ used + 1 then .error .tooLong
    else decodeTail strict bound value (used + 1) rest

/-- Reads an integer at the start of the bytes: its value and the number of bytes it takes. -/
def decode (strict : Bool) (bound : Int) (bytes : Octets) : Except Flaw (Nat × Nat) :=
  decodeTail strict bound 0 0 bytes

/-- Reads an integer at a signed offset: its value and the offset behind it. `none` when the offset
    lies before the first byte. -/
def decodeAt? (strict : Bool) (bound : Int) (bytes : Octets) (offset : Int) :
    Option (Except Flaw (Nat × Int)) :=
  (Offset.ahead? bytes offset).map fun ahead =>
    (decode strict bound ahead).map fun (value, used) => (value, offset + used)

end CryptoIntrinsics.Varint
