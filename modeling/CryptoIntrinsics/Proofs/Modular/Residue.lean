import CryptoIntrinsics.Proofs.Rsa.Numeral
import Mathlib.FieldTheory.Finite.Basic

namespace CryptoIntrinsics.Modular

section Ring

variable {m : Nat}

theorem cast_sub {a b : Nat} (hb : b ≤ m) : (sub m a b : ZMod m) = a - b := by
  rw [sub, ZMod.natCast_mod, Nat.cast_add, Nat.cast_sub hb, ZMod.natCast_self]
  ring

theorem cast_pow (base exponent : Nat) :
    (pow m base exponent : ZMod m) = (base : ZMod m) ^ exponent := by
  rw [pow_eq, ZMod.natCast_mod, Nat.cast_pow]

theorem sub_lt (hm : 0 < m) (a b : Nat) : sub m a b < m := Nat.mod_lt _ hm

/-- A step of Euclid's algorithm at least halves the product of the remainders. -/
theorem two_mul_remainder_le {r s : Nat} (hs : s ≤ r) : 2 * (s * (r % s)) ≤ r * s := by
  obtain rfl | hpos := Nat.eq_zero_or_pos s
  · simp
  · have hless : r % s < s := Nat.mod_lt r hpos
    have hdivided : s * (r / s) + r % s = r := Nat.div_add_mod r s
    have hquotient : 1 ≤ r / s := (Nat.one_le_div_iff hpos).2 hs
    have hsum : 2 * (r % s) ≤ r := by nlinarith
    calc 2 * (s * (r % s)) = s * (2 * (r % s)) := by ring
      _ ≤ s * r := Nat.mul_le_mul_left s hsum
      _ = r * s := Nat.mul_comm s r

/-- The remainders stay the multiples `u` and `v` of one residue, and so does their divisor. -/
theorem cast_euclid (hm : 0 < m) (a : ZMod m) {fuel r s u v : Nat} (hr : (r : ZMod m) = u * a)
    (hs : (s : ZMod m) = v * a) (hless : s ≤ r) (hfuel : r * s < 2 ^ fuel) :
    (Nat.gcd r s : ZMod m) = euclid m fuel r s u v * a := by
  induction fuel generalizing r s u v with
  | zero =>
    -- A product below one leaves no second remainder, since the first is the larger one.
    have hzero : s = 0 := by
      rw [Nat.pow_zero, Nat.lt_one_iff, Nat.mul_eq_zero] at hfuel
      omega
    rw [hzero, Nat.gcd_zero_right, euclid, hr]
  | succ fuel ih =>
    rw [euclid]
    split
    · next hzero => rw [hzero, Nat.gcd_zero_right, hr]
    · next hpos =>
      have hremainder : ((r % s : Nat) : ZMod m) = sub m u (r / s * v % m) * a := by
        have hdivided : ((s * (r / s) + r % s : Nat) : ZMod m) = r := by rw [Nat.div_add_mod]
        rw [cast_sub (Nat.mod_lt _ hm).le, ZMod.natCast_mod, sub_mul, ← hr]
        push_cast at hdivided ⊢
        rw [mul_assoc, ← hs, ← hdivided]
        ring
      have hhalved := two_mul_remainder_le hless
      rw [Nat.gcd_comm, Nat.gcd_rec, Nat.gcd_comm]
      exact ih hs hremainder (Nat.mod_lt r (Nat.pos_of_ne_zero hpos)).le
        (by rw [Nat.pow_succ] at hfuel; omega)

theorem euclid_lt (hm : 0 < m) {fuel r s u v : Nat} (hu : u < m) (hv : v < m) :
    euclid m fuel r s u v < m := by
  induction fuel generalizing r s u v with
  | zero => exact hu
  | succ fuel ih =>
    rw [euclid]
    split
    · exact hu
    · exact ih hv (sub_lt hm u _)

theorem inverse_lt (hm : 1 < m) (a : Nat) : inverse m a < m :=
  euclid_lt (Nat.zero_lt_of_lt hm) (Nat.zero_lt_of_lt hm) hm

/-- The steps allowed for are enough to find the inverse of every residue that has one. -/
theorem cast_inverse_mul_self (hm : 1 < m) {a : Nat} (hcoprime : a.Coprime m) :
    (inverse m a : ZMod m) * a = 1 := by
  have hpos : 0 < m := Nat.zero_lt_of_lt hm
  have hless : a % m < m := Nat.mod_lt a hpos
  have hwidth : m * (a % m) < 2 ^ (2 * m.log2 + 4) := by
    have hm : m < 2 ^ (m.log2 + 1) := Nat.lt_log2_self
    calc m * (a % m) < 2 ^ (m.log2 + 1) * 2 ^ (m.log2 + 1) :=
        Nat.mul_lt_mul'' hm (hless.trans hm)
      _ = 2 ^ (2 * m.log2 + 2) := by ring
      _ ≤ 2 ^ (2 * m.log2 + 4) := Nat.pow_le_pow_right (by decide) (by omega)
  have heuclid := cast_euclid hpos (a : ZMod m) (r := m) (u := 0) (v := 1) (by simp)
    (by rw [ZMod.natCast_mod, Nat.cast_one, one_mul]) hless.le hwidth
  rw [Nat.gcd_comm, ← Nat.gcd_rec, Nat.gcd_comm, hcoprime.gcd_eq_one, Nat.cast_one] at heuclid
  exact heuclid.symm

end Ring

section Field

variable {p : Nat} [Fact p.Prime]

theorem cast_inverse {a : Nat} (ha : (a : ZMod p) ≠ 0) :
    (inverse p a : ZMod p) = (a : ZMod p)⁻¹ := by
  have hprime : p.Prime := Fact.out
  have hcoprime : a.Coprime p := by
    rw [Nat.coprime_comm, hprime.coprime_iff_not_dvd, ← ZMod.natCast_eq_zero_iff]
    exact ha
  exact eq_inv_of_mul_eq_one_left (cast_inverse_mul_self hprime.one_lt hcoprime)

theorem inverse_eq {a : Nat} (ha : (a : ZMod p) ≠ 0) : inverse p a = (a : ZMod p)⁻¹.val := by
  have hprime : p.Prime := Fact.out
  rw [← cast_inverse ha, ZMod.val_cast_of_lt (inverse_lt hprime.one_lt a)]

/-- A square of the field has a root found. It is one of the two there are. -/
theorem sqrt?_of_eq_mul_self (hmod : p % 4 = 3) {a : Nat} {y : ZMod p} (ha : (a : ZMod p) = y * y) :
    ∃ root < p, sqrt? p a = some root ∧ ((root : ZMod p) = y ∨ (root : ZMod p) = -y) := by
  have hpos : 0 < p := (Fact.out : p.Prime).pos
  have hroot : (pow p a ((p + 1) / 4) : ZMod p) * pow p a ((p + 1) / 4) = y * y := by
    have hexponent : 2 * ((p + 1) / 4) + 2 * ((p + 1) / 4) = p + 1 := by omega
    calc (pow p a ((p + 1) / 4) : ZMod p) * pow p a ((p + 1) / 4)
        = (y * y) ^ ((p + 1) / 4) * (y * y) ^ ((p + 1) / 4) := by rw [cast_pow, ha]
      _ = y ^ (2 * ((p + 1) / 4) + 2 * ((p + 1) / 4)) := by rw [← sq y, ← pow_mul, ← pow_add]
      _ = y * y := by rw [hexponent, pow_succ, ZMod.pow_card]
  refine ⟨pow p a ((p + 1) / 4), ?_, ?_, mul_self_eq_mul_self_iff.1 hroot⟩
  · rw [pow_eq]
    exact Nat.mod_lt _ hpos
  · refine if_pos ?_
    rw [← ha, ← Nat.cast_mul] at hroot
    exact (ZMod.natCast_eq_natCast_iff' _ _ _).1 hroot

end Field

end CryptoIntrinsics.Modular
