import CryptoIntrinsics.Proofs.Elliptic.Law
import CryptoIntrinsics.Proofs.Modular.Prime
import Mathlib.Tactic.NormNum.Prime

namespace CryptoIntrinsics.Elliptic

/-- The primes that the certificates go back to. -/
def knownPrimes : List Nat :=
  [2, 11, 17, 71, 131, 149, 197, 229, 373, 631, 1627, 2657, 3407, 3677, 3769, 4423, 17449, 28181,
    38189, 41201, 96557, 104471, 305873]

theorem prime_of_mem_knownPrimes : ∀ q ∈ knownPrimes, q.Prime := by
  simp only [knownPrimes, List.forall_mem_cons]
  norm_num

/-- Certificates up to the fields and orders of the curves, a chain for each. -/
def certificates : List Modular.Certificate :=
  [⟨255515944373312847190720520512484175977, 2, [96557, 41201, 4423, 2657, 1627]⟩,
    ⟨205115282021455665897114700593932402728804164701536103180137503955397371, 2,
      [255515944373312847190720520512484175977]⟩,
    ⟨secp256k1.field, 2,
      [205115282021455665897114700593932402728804164701536103180137503955397371]⟩,

    ⟨545358713, 2, [28181]⟩,
    ⟨29047611873442575647497758179, 2, [545358713, 305873, 2]⟩,
    ⟨341948486974166000522343609283189, 2, [29047611873442575647497758179]⟩,
    ⟨secp256k1.order, 5, [341948486974166000522343609283189, 631, 149, 2, 2, 2, 2]⟩,

    ⟨204061199, 3, [3769, 11]⟩,
    ⟨34282281433, 2, [204061199]⟩,
    ⟨66417393611, 2, [3677, 197]⟩,
    ⟨11290956913871, 2, [66417393611]⟩,
    ⟨774023187263532362759620327192479577272145303, 2, [11290956913871, 34282281433]⟩,
    ⟨835945042244614951780389953367877943453916927241, 2,
      [774023187263532362759620327192479577272145303]⟩,
    ⟨nistP256.field, 2, [835945042244614951780389953367877943453916927241]⟩,

    ⟨9350987, 2, [229, 17]⟩,
    ⟨187019741, 2, [9350987]⟩,
    ⟨3969899, 2, [104471]⟩,
    ⟨1002328039319, 2, [3969899]⟩,
    ⟨nistP256.order, 2, [1002328039319, 187019741, 38189, 17449, 3407, 373, 131, 71]⟩]

theorem chain_certificates : Modular.Certificate.Chain knownPrimes certificates := by
  decide +kernel

theorem prime_of_certified {n : Nat} (hn : n ∈ certificates.map (·.number)) : n.Prime := by
  obtain ⟨c, hc, rfl⟩ := List.mem_map.1 hn
  exact chain_certificates.prime prime_of_mem_knownPrimes c hc

namespace Group

instance isSound_secp256k1 : secp256k1.IsSound where
  prime_field := prime_of_certified (by decide +kernel)
  prime_order := prime_of_certified (by decide +kernel)
  field_mod_four := by decide
  order_lt := by decide
  discriminant_ne := by decide +kernel
  baseX_lt := by decide
  baseY_lt := by decide
  base_equation := by decide +kernel
  scale_order := by decide +kernel

instance isSound_nistP256 : nistP256.IsSound where
  prime_field := prime_of_certified (by decide +kernel)
  prime_order := prime_of_certified (by decide +kernel)
  field_mod_four := by decide
  order_lt := by decide
  discriminant_ne := by decide +kernel
  baseX_lt := by decide
  baseY_lt := by decide
  base_equation := by decide +kernel
  scale_order := by decide +kernel

end Group

end CryptoIntrinsics.Elliptic
