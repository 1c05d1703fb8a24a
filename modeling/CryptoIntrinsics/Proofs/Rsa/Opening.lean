import CryptoIntrinsics.Proofs.Rsa.Numeral
import CryptoIntrinsics.Rsa

namespace CryptoIntrinsics.Rsa

structure IsKey (exponent modulus : Nat) : Prop where
  three_le : 3 ≤ exponent
  lt_modulus : exponent < modulus
  odd_exponent : exponent % 2 = 1
  odd_modulus : modulus % 2 = 1
  modulus_lt : modulus < 2 ^ 16384
  exponent_lt : modulus < 2 ^ 3072 ∨ exponent < 2 ^ 64

def padded (filling : Nat) (message : Octets) : Octets :=
  [0, 1] ++ List.replicate filling 0xff ++ [0] ++ (algorithmHeader ++ Digest.Sha256.hash message)

/-- A signature opens to a block for the message: it writes a number below the modulus, in as many
    bytes as the modulus takes, whose power by the exponent is written by a block of these many
    bytes, of which at least eight are filling. -/
structure Opens (signature : Octets) (exponent modulus : Nat) (message : Octets) : Prop where
  isKey : IsKey exponent modulus
  modulus_lt : modulus < 256 ^ signature.length
  le_modulus : 256 ^ (signature.length - 1) ≤ modulus
  lt_modulus : signature.toNat < modulus
  exists_block : ∃ filling, 8 ≤ filling ∧ (padded filling message).length = signature.length ∧
    signature.toNat ^ exponent % modulus = (padded filling message).toNat

theorem acceptsKey_iff {exponent modulus : Nat} :
    acceptsKey exponent modulus = true ↔ IsKey exponent modulus := by
  simp only [acceptsKey, Bool.and_eq_true, Bool.or_eq_true, decide_eq_true_eq, beq_iff_eq,
    Varint.bitLength_le_iff]
  constructor
  · rintro ⟨⟨⟨⟨⟨hthree, hlt⟩, hexponent⟩, hmodulus⟩, hbits⟩, hslow⟩
    exact ⟨hthree, hlt, hexponent, hmodulus, hbits, hslow⟩
  · rintro ⟨hthree, hlt, hexponent, hmodulus, hbits, hslow⟩
    exact ⟨⟨⟨⟨⟨hthree, hlt⟩, hexponent⟩, hmodulus⟩, hbits⟩, hslow⟩

/-- How many bytes a positive number takes. -/
theorem size_eq_iff {n width : Nat} (hpos : 0 < n) :
    (Varint.bitLength n + 7) / 8 = width ↔ n < 256 ^ width ∧ 256 ^ (width - 1) ≤ n := by
  have hpow (width : Nat) : 2 ^ (8 * width) = 256 ^ width := Nat.pow_mul 2 8 width
  have hbelow := Varint.bitLength_le_iff n (8 * width)
  have habove := Varint.bitLength_le_iff n (8 * (width - 1))
  have hzero := Varint.bitLength_le_iff n 0
  rw [hpow] at hbelow habove
  rw [← Nat.not_lt, ← hbelow, ← habove]
  omega

theorem paddedBlock?_eq_some_iff {size : Nat} {message block : Octets} :
    paddedBlock? size message = some block ↔
      ∃ filling, 8 ≤ filling ∧ (padded filling message).length = size ∧
        block = padded filling message := by
  have hlength (filling : Nat) : (padded filling message).length =
      filling + (algorithmHeader ++ Digest.Sha256.hash message).length + 3 := by
    simp only [padded, List.length_append, List.length_replicate, List.length_cons, List.length_nil]
    omega
  rw [paddedBlock?]
  constructor
  · intro hblock
    split at hblock
    · cases hblock
    · next hfits =>
      cases hblock
      refine ⟨_, ?_, ?_, rfl⟩
      · omega
      · rw [hlength]
        omega
  · rintro ⟨filling, hfilling, rfl, rfl⟩
    rw [hlength, if_neg (by omega)]
    have hcount (tail : Nat) : filling + tail + 3 - tail - 3 = filling := by omega
    rw [hcount]
    rfl

/-- Just the signatures that open to a block for the message are verified. -/
theorem verify_iff {signature : Octets} {exponent modulus : Nat} {message : Octets} :
    verify signature exponent modulus message = true ↔
      Opens signature exponent modulus message := by
  simp only [verify, Bool.and_eq_true, decide_eq_true_eq, beq_iff_eq, acceptsKey_iff,
    Modular.pow_eq, paddedBlock?_eq_some_iff]
  constructor
  · rintro ⟨⟨⟨hkey, hlength⟩, hlt⟩, filling, hfilling, hblock, hnumber⟩
    have hpos : 0 < modulus := Nat.zero_lt_of_lt hlt
    obtain ⟨hfits, hle⟩ := (size_eq_iff hpos).1 hlength.symm
    rw [← hlength] at hblock hnumber
    -- What is below the modulus fits into as many bytes as the modulus takes.
    have hbelow := Nat.lt_trans (Nat.mod_lt (signature.toNat ^ exponent) hpos) hfits
    exact ⟨hkey, hfits, hle, hlt, filling, hfilling, hblock,
      ((Octets.ofNat_eq_iff hbelow hblock).1 hnumber.symm).symm⟩
  · rintro ⟨hkey, hfits, hle, hlt, filling, hfilling, hblock, hnumber⟩
    have hpos : 0 < modulus := Nat.zero_lt_of_lt hlt
    have hlength := (size_eq_iff hpos).2 ⟨hfits, hle⟩
    have hbelow := Nat.lt_trans (Nat.mod_lt (signature.toNat ^ exponent) hpos) hfits
    rw [hlength]
    exact ⟨⟨⟨hkey, rfl⟩, hlt⟩, filling, hfilling, hblock,
      ((Octets.ofNat_eq_iff hbelow hblock).2 hnumber.symm).symm⟩

end CryptoIntrinsics.Rsa
