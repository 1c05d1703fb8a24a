import CryptoIntrinsics.Checksum
import CryptoIntrinsics.Digest.Ripemd160
import CryptoIntrinsics.Digest.Sha1
import CryptoIntrinsics.Digest.Sha256
import CryptoIntrinsics.Digest.Sha512

namespace CryptoIntrinsics.Digest

inductive Algorithm where
  | sha256
  | sha1
  | sha512
  | ripemd160
deriving DecidableEq, Repr

namespace Algorithm

/-- The name of the algorithm, which is also that of the host's method for it. -/
def name : Algorithm → String
  | sha256 => "sha256"
  | sha1 => "sha1"
  | sha512 => "sha512"
  | ripemd160 => "ripemd160"

def kind : Algorithm → Checksum.Kind
  | sha256 => .bits256
  | sha1 | ripemd160 => .bits160
  | sha512 => .bits512

def hash : Algorithm → Octets → Octets
  | sha256 => Sha256.hash
  | sha1 => Sha1.hash
  | sha512 => Sha512.hash
  | ripemd160 => Ripemd160.hash

theorem length_hash (algorithm : Algorithm) (message : Octets) :
    (algorithm.hash message).length = algorithm.kind.size := by
  cases algorithm
  · exact Sha256.length_hash message
  · exact Sha1.length_hash message
  · exact Sha512.length_hash message
  · exact Ripemd160.length_hash message

def digest (algorithm : Algorithm) (message : Octets) : Checksum algorithm.kind :=
  ⟨algorithm.hash message, algorithm.length_hash message⟩

end Algorithm

end CryptoIntrinsics.Digest
