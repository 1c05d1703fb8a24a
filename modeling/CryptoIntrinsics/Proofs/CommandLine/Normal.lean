import CryptoIntrinsics.Proofs.CommandLine.Report
import CryptoIntrinsics.Proofs.CommandLine.Word
import CryptoIntrinsics.Proofs.Field.Hexadecimal
import CryptoIntrinsics.Proofs.Session.Loading

namespace CryptoIntrinsics

namespace Credential

variable {kind : Kind} {strict : Bool} {text : String}

def ofHex (kind : Kind) (strict : Bool) (text : String) : Except Flaw (Credential kind) := do
  deserialize kind strict (← hexOctets kind text)

theorem ofHex_ne_outOfRange (kind : Kind) (strict : Bool) (text : String) :
    ofHex kind strict text ≠ .error .outOfRange := by
  rw [ofHex, hexOctets]
  cases Hex.ofText? (Text.trim text.toList) with
  | none =>
    intro hsame
    cases hsame
  | some bytes => exact deserialize_ne_outOfRange strict bytes

theorem fst_runOn_credentialOfHex (kind : Kind) (text : String) (session : Session) :
    ((Decoding.credentialOfHex kind text).runOn session).1 =
      settle (ofHex kind session.policyInForce.strictVarint text) := by
  rw [Decoding.runOn_credentialOfHex, ofHex]
  cases hexOctets kind text <;> rfl

end Credential

namespace CommandLine

open Procedure Session

def decoder : Credential.Kind → String
  | .publicKey => "decode-key"
  | .signature => "decode-sig"

section Decode

variable {kind : Credential.Kind} {text : String} {read : String → Except FileFlaw Octets}

theorem fst_perform_decode (kind : Credential.Kind) (text : String) (session : Session) :
    ((perform read (.decode kind text)).runOn session).1 =
      (Credential.settle (Credential.ofHex kind session.policyInForce.strictVarint text)).map
        fun value => (describe value, 0) := by
  rw [perform, fst_bind_pure, Credential.fst_runOn_credentialOfHex]

/-- Whatever is wrong with a text is reported under one code. -/
theorem exists_fault_of_ofHex {strict : Bool} {flaw : Credential.Flaw}
    (hread : Credential.ofHex kind strict text = .error flaw) :
    ∃ f, flaw.failure (.integer 0) = .fault f ∧ f.code = "decode_error" ∧ f.isFatal = false ∧
      IsDocumented f := by
  apply exists_fault_of_flaw
  rintro rfl
  exact Credential.ofHex_ne_outOfRange _ _ _ hread

end Decode

end CommandLine

end CryptoIntrinsics
