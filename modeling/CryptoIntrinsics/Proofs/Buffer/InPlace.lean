import CryptoIntrinsics.Proofs.Buffer.Filled
import Mathlib.Algebra.BigOperators.Ring.List
import Mathlib.Algebra.GroupWithZero.Nat

namespace CryptoIntrinsics

namespace Buffer

/-- Of other than one dimension, with an empty side. -/
def IsHollow (b : Buffer) : Prop := b.shape.length ≠ 1 ∧ 0 ∈ b.shape

variable {b : Buffer}

/-- An empty side leaves no elements. -/
theorem IsHollow.flat_eq_nil (hhollow : b.IsHollow) (hfilled : b.IsFilled) : b.flat = [] := by
  have hcount : b.count = 0 := by
    rw [count, ← List.prod_eq_foldl]
    exact List.prod_eq_zero hhollow.2
  rw [IsFilled, hcount, Nat.mul_zero] at hfilled
  exact List.length_eq_zero_iff.1 hfilled

theorem inPlace?_eq_some_iff {bytes : Octets} :
    b.inPlace? = some bytes ↔ b.contiguous = true ∧ ¬ b.IsHollow ∧ b.flat = bytes := by
  rw [inPlace?, IsHollow]
  by_cases hsolid : b.contiguous = true
  · by_cases hrow : b.shape.length = 1 <;> by_cases hempty : 0 ∈ b.shape <;> simp_all
  · simp [hsolid]

end Buffer

namespace Datum

variable {d : Datum} {bytes : Octets}

theorem lent_buffer_eq_ok_iff {b : Buffer} :
    (buffer b).lent = .ok bytes ↔ b.inPlace? = some bytes := by
  rw [lent]
  cases b.inPlace? <;> simp

/-- Who looks in place gets bytes from buffers of contiguous elements without an empty side. -/
theorem lent_eq_ok_iff :
    d.lent = .ok bytes ↔
      ∃ b, d = .buffer b ∧ b.contiguous = true ∧ ¬ b.IsHollow ∧ b.flat = bytes := by
  constructor
  · intro hlent
    cases d with
    | buffer b => exact ⟨b, rfl, Buffer.inPlace?_eq_some_iff.1 (lent_buffer_eq_ok_iff.1 hlent)⟩
    | _ => cases hlent
  · rintro ⟨b, rfl, hplace⟩
    exact lent_buffer_eq_ok_iff.2 (Buffer.inPlace?_eq_some_iff.2 hplace)

theorem lent_of_hollow {b : Buffer} (hhollow : b.IsHollow) :
    (buffer b).lent = .error .badType := by
  have hplace : b.inPlace? = none := by
    rw [Option.eq_none_iff_forall_ne_some]
    intro bytes hplace
    exact (Buffer.inPlace?_eq_some_iff.1 hplace).2.1 hhollow
  rw [lent, hplace]

theorem lent_of_solid {b : Buffer} (hsolid : b.contiguous = true) (hnot : ¬ b.IsHollow) :
    (buffer b).lent = .ok b.flat := lent_eq_ok_iff.2 ⟨b, rfl, hsolid, hnot, rfl⟩

end Datum

end CryptoIntrinsics
