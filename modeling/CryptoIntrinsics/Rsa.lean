import CryptoIntrinsics.Digest.Sha256
import CryptoIntrinsics.Modular
import CryptoIntrinsics.Varint

namespace CryptoIntrinsics.Rsa

/-- What names SHA-256 in front of a hash: the encoded algorithm with a null parameter. -/
def algorithmHeader : Octets :=
  [0x30, 0x31, 0x30, 0x0d, 0x06, 0x09, 0x60, 0x86, 0x48, 0x01, 0x65, 0x03, 0x04, 0x02, 0x01, 0x05,
   0x00, 0x04, 0x20]

/-- The padded block of `size` bytes for a message; `none` when fewer than eight filling bytes would
    fit. -/
def paddedBlock? (size : Nat) (message : Octets) : Option Octets :=
  let tail := algorithmHeader ++ Digest.Sha256.hash message
  if size < tail.length + 11 then none
  else some ([0, 1] ++ List.replicate (size - tail.length - 3) 0xff ++ [0] ++ tail)

/-- Whether a key is taken: an odd exponent from three up to below an odd modulus, of at most 16384
    bits, and beyond 3072 bits only with an exponent of at most 64. -/
def acceptsKey (exponent modulus : Nat) : Bool :=
  3 ≤ exponent && exponent < modulus && exponent % 2 == 1 && modulus % 2 == 1 &&
    Varint.bitLength modulus ≤ 16384 &&
    (Varint.bitLength modulus ≤ 3072 || Varint.bitLength exponent ≤ 64)

/-- Whether a signature opens to the padded block of the message. It has to be exactly as long as
    the modulus and below it. -/
def verify (signature : Octets) (exponent modulus : Nat) (message : Octets) : Bool :=
  let size := (Varint.bitLength modulus + 7) / 8
  acceptsKey exponent modulus && signature.length == size && signature.toNat < modulus &&
    paddedBlock? size message ==
      some (Octets.ofNat size (Modular.pow modulus signature.toNat exponent))

end CryptoIntrinsics.Rsa
