namespace CryptoIntrinsics.Text

/-- Whether a code point is a surrogate, which is no character and has no UTF-8 form. -/
def isSurrogate (code : Nat) : Bool := 0xd800 ≤ code && code < 0xe000

/-- A text with surrogates among its code points. -/
structure Garbled where
  codes : List Nat
  code_lt : ∀ code ∈ codes, code < 0x110000
  exists_surrogate : ∃ code ∈ codes, isSurrogate code = true
deriving DecidableEq, Repr

namespace Garbled

def single (code : Nat) (hcode : isSurrogate code = true) : Garbled where
  codes := [code]
  code_lt := by
    simp only [isSurrogate, Bool.and_eq_true, decide_eq_true_eq] at hcode
    simp only [List.mem_singleton, forall_eq]
    omega
  exists_surrogate := ⟨code, List.mem_singleton_self code, hcode⟩

end Garbled

end CryptoIntrinsics.Text
