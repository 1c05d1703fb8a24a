import CryptoIntrinsics.Digest.Algorithm

namespace CryptoIntrinsics

/-- One method per boundary call. -/
inductive Method where
  | digest (algorithm : Digest.Algorithm)
  | assertDigest (algorithm : Digest.Algorithm)
  | recoverKey
  | assertRecoverKey
  | verifyRsa
deriving DecidableEq, Repr

namespace Method

def name : Method → String
  | digest algorithm => algorithm.name
  | assertDigest algorithm => "assert_" ++ algorithm.name
  | recoverKey => "recover_key"
  | assertRecoverKey => "assert_recover_key"
  | verifyRsa => "verify_rsa_sha256_sig"

/-- All methods, in the order in which missing ones are listed. -/
def all : List Method :=
  [digest .sha256, digest .sha1, digest .sha512, digest .ripemd160,
   assertDigest .sha256, assertDigest .sha1, assertDigest .sha512, assertDigest .ripemd160,
   recoverKey, assertRecoverKey, verifyRsa]

def ofName? (name : String) : Option Method := all.find? (·.name == name)

theorem mem_all (m : Method) : m ∈ all := by
  cases m with
  | digest algorithm => cases algorithm <;> decide
  | assertDigest algorithm => cases algorithm <;> decide
  | recoverKey => decide
  | assertRecoverKey => decide
  | verifyRsa => decide

end Method

end CryptoIntrinsics
