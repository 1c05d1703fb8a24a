import CryptoIntrinsics.Proofs.Modular.Residue

namespace CryptoIntrinsics.Modular

/-- What shows a number to be prime: prime factors of the number before, each as often as it is
    used, and the base of the powers to take. -/
structure Certificate where
  number : Nat
  base : Nat
  factors : List Nat

namespace Certificate

/-- One less than the power of the base that leaves a factor out of the exponent. -/
def excess (c : Certificate) (q : Nat) : Nat :=
  sub c.number (pow c.number c.base ((c.number - 1) / q)) 1

/-- The conditions of Pocklington's criterion, for factors that are prime. -/
structure Checks (c : Certificate) : Prop where
  one_lt : 1 < c.number
  covers : c.number < c.factors.prod * c.factors.prod
  dvd_pred : c.factors.prod ∣ c.number - 1
  pow_pred : pow c.number c.base (c.number - 1) = 1
  coprime : ∀ q ∈ c.factors, (c.excess q).Coprime c.number

instance (c : Certificate) : Decidable c.Checks :=
  decidable_of_iff
    (1 < c.number ∧ c.number < c.factors.prod * c.factors.prod ∧
      c.factors.prod ∣ c.number - 1 ∧ pow c.number c.base (c.number - 1) = 1 ∧
      ∀ q ∈ c.factors, (c.excess q).Coprime c.number)
    ⟨fun ⟨hone, hcovers, hdvd, hpow, hcoprime⟩ => ⟨hone, hcovers, hdvd, hpow, hcoprime⟩,
      fun h => ⟨h.one_lt, h.covers, h.dvd_pred, h.pow_pred, h.coprime⟩⟩

variable {c : Certificate} {p : Nat}

theorem Checks.prod_pos (hchecks : c.Checks) : 0 < c.factors.prod :=
  Nat.pos_of_ne_zero fun hzero => by
    have hcovers := hchecks.covers
    simp [hzero] at hcovers

theorem Checks.cast_pow_pred (hchecks : c.Checks) (hp : p ∣ c.number) :
    (c.base : ZMod p) ^ (c.number - 1) = 1 := by
  have hpow := cast_pow (m := c.number) c.base (c.number - 1)
  have hcast := congrArg (ZMod.castHom hp (ZMod p)) hpow
  rw [hchecks.pow_pred, Nat.cast_one, map_one, map_pow, map_natCast] at hcast
  exact hcast.symm

theorem Checks.cast_excess (hchecks : c.Checks) (hp : p ∣ c.number) (q : Nat) :
    (c.excess q : ZMod p) = (c.base : ZMod p) ^ ((c.number - 1) / q) - 1 := by
  have hsub := cast_sub (a := pow c.number c.base ((c.number - 1) / q)) hchecks.one_lt.le
  have hcast := congrArg (ZMod.castHom hp (ZMod p)) hsub
  rw [cast_pow, Nat.cast_one, map_sub, map_one, map_pow, map_natCast, map_natCast] at hcast
  exact hcast

/-- Modulo a prime divisor of the number, a power that leaves a factor out is not one. -/
theorem Checks.cast_pow_div_ne_one (hchecks : c.Checks) (hp : p ∣ c.number) (hprime : p.Prime)
    {q : Nat} (hq : q ∈ c.factors) : (c.base : ZMod p) ^ ((c.number - 1) / q) ≠ 1 := by
  intro hone
  have hshared : p ∣ c.excess q := by
    rw [← ZMod.natCast_eq_zero_iff, hchecks.cast_excess hp, hone, sub_self]
  exact hprime.not_dvd_one ((hchecks.coprime q hq).gcd_eq_one ▸ Nat.dvd_gcd hshared hp)

/-- Modulo a prime divisor of the number, a power of the base has the factored part for its
    order. -/
theorem Checks.orderOf_eq (hchecks : c.Checks) (hprimes : ∀ q ∈ c.factors, q.Prime)
    (hp : p ∣ c.number) (hprime : p.Prime) :
    orderOf ((c.base : ZMod p) ^ ((c.number - 1) / c.factors.prod)) = c.factors.prod := by
  have hdivides := hchecks.dvd_pred
  refine orderOf_eq_of_pow_and_pow_div_prime hchecks.prod_pos ?_ ?_
  · rw [← pow_mul, Nat.div_mul_cancel hdivides, hchecks.cast_pow_pred hp]
  · intro q hq hdvd
    -- A prime divides a product of primes only if it is one of them.
    have hmem : q ∈ c.factors := by
      obtain ⟨factor, hfactor, hq'⟩ := (Nat.Prime.prime hq).dvd_prod_iff.1 hdvd
      rwa [(Nat.prime_dvd_prime_iff_eq hq (hprimes factor hfactor)).1 hq']
    have hexponent : (c.number - 1) / c.factors.prod * (c.factors.prod / q) =
        (c.number - 1) / q := by
      rw [← Nat.mul_div_assoc _ hdvd, Nat.div_mul_cancel hdivides]
    rw [← pow_mul, hexponent]
    exact hchecks.cast_pow_div_ne_one hp hprime hmem

/-- A number with a certificate is prime: the order of the power is below every prime divisor, so
    the least divisor is above the square root. -/
theorem Checks.prime (hchecks : c.Checks) (hprimes : ∀ q ∈ c.factors, q.Prime) :
    c.number.Prime := by
  by_contra hcomposite
  have hprime : c.number.minFac.Prime := Nat.minFac_prime hchecks.one_lt.ne'
  have hdvd : c.number.minFac ∣ c.number := Nat.minFac_dvd c.number
  have : Fact c.number.minFac.Prime := ⟨hprime⟩
  have horder := hchecks.orderOf_eq hprimes hdvd hprime
  have hunit : (c.base : ZMod c.number.minFac) ^ ((c.number - 1) / c.factors.prod) ≠ 0 := by
    intro hzero
    have hone := hchecks.cast_pow_pred hdvd
    rw [← Nat.div_mul_cancel hchecks.dvd_pred, pow_mul, hzero,
      zero_pow hchecks.prod_pos.ne'] at hone
    exact zero_ne_one hone
  have hless : c.factors.prod ≤ c.number.minFac - 1 := by
    rw [← horder]
    exact Nat.le_of_dvd (Nat.sub_pos_of_lt hprime.one_lt) (ZMod.orderOf_dvd_card_sub_one hunit)
  have hbelow : c.factors.prod ≤ c.number.minFac := hless.trans (Nat.sub_le _ 1)
  have hsquare : c.number.minFac ^ 2 ≤ c.number :=
    Nat.minFac_sq_le_self (Nat.zero_lt_of_lt hchecks.one_lt) hcomposite
  exact absurd hchecks.covers (not_lt.2 (calc
    c.factors.prod * c.factors.prod ≤ c.number.minFac * c.number.minFac :=
      Nat.mul_le_mul hbelow hbelow
    _ = c.number.minFac ^ 2 := (sq _).symm
    _ ≤ c.number := hsquare))

/-- Certificates each of which uses known primes and the numbers of those before. -/
def Chain (known : List Nat) : List Certificate → Prop
  | [] => True
  | c :: rest => c.Checks ∧ (∀ q ∈ c.factors, q ∈ known) ∧ Chain (c.number :: known) rest

instance decidableChain : (known : List Nat) → (certificates : List Certificate) →
    Decidable (Chain known certificates)
  | _, [] => inferInstanceAs (Decidable True)
  | known, c :: rest =>
    have := decidableChain (c.number :: known) rest
    inferInstanceAs
      (Decidable (c.Checks ∧ (∀ q ∈ c.factors, q ∈ known) ∧ Chain (c.number :: known) rest))

theorem Chain.prime {known : List Nat} {certificates : List Certificate}
    (hchain : Chain known certificates) (hknown : ∀ q ∈ known, q.Prime) :
    ∀ c ∈ certificates, c.number.Prime := by
  induction certificates generalizing known with
  | nil => simp
  | cons c rest ih =>
    obtain ⟨hchecks, hfactors, hrest⟩ := hchain
    have hprime : c.number.Prime := hchecks.prime fun q hq => hknown q (hfactors q hq)
    exact List.forall_mem_cons.2 ⟨hprime, ih hrest (List.forall_mem_cons.2 ⟨hprime, hknown⟩)⟩

end Certificate

end CryptoIntrinsics.Modular
