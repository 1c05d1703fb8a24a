import CryptoIntrinsics.Elliptic.Recovery
import CryptoIntrinsics.Proofs.Modular.Residue
import Mathlib.AlgebraicGeometry.EllipticCurve.Affine.Point
import Mathlib.AlgebraicGeometry.EllipticCurve.NormalForms

namespace CryptoIntrinsics.Elliptic.Group

/-- The curve over the field of residues. -/
def curve (g : Group) : WeierstrassCurve.Affine (ZMod g.field) where
  a₁ := 0
  a₂ := 0
  a₃ := 0
  a₄ := g.a
  a₆ := g.b

/-- What makes the numbers of a group those of an elliptic curve with a base point of prime order,
    over a field where square roots are powers. -/
class IsSound (g : Group) : Prop where
  prime_field : g.field.Prime
  prime_order : g.order.Prime
  field_mod_four : g.field % 4 = 3
  order_lt : g.order < g.field
  discriminant_ne : 16 * (4 * g.a ^ 3 + 27 * g.b ^ 2) % g.field ≠ 0
  baseX_lt : g.baseX < g.field
  baseY_lt : g.baseY < g.field
  base_equation : g.baseY * g.baseY % g.field =
    (g.baseX * g.baseX * g.baseX + g.a * g.baseX + g.b) % g.field
  scale_order : g.scale g.order g.base = .infinity

section Field

variable (g : Group) [hsound : g.IsSound]

instance : Fact g.field.Prime := ⟨hsound.prime_field⟩

instance : Fact g.order.Prime := ⟨hsound.prime_order⟩

instance : g.curve.IsShortNF where
  a₁ := rfl
  a₂ := rfl
  a₃ := rfl

instance : g.curve.IsElliptic where
  isUnit := by
    rw [g.curve.Δ_of_isShortNF, isUnit_iff_ne_zero, neg_mul, neg_ne_zero]
    have hdiscriminant := hsound.discriminant_ne
    rw [Ne, ← Nat.dvd_iff_mod_eq_zero, ← ZMod.natCast_eq_zero_iff] at hdiscriminant
    simpa [curve] using hdiscriminant

end Field

variable {g : Group}

theorem equation_iff {x y : ZMod g.field} :
    g.curve.Equation x y ↔ y * y = x * x * x + g.a * x + g.b := by
  rw [WeierstrassCurve.Affine.equation_iff]
  simp only [curve, zero_mul, add_zero]
  rw [sq, pow_succ, sq]

theorem equation_natCast_iff {x y : Nat} :
    g.curve.Equation x y ↔ y * y % g.field = (x * x * x + g.a * x + g.b) % g.field := by
  rw [equation_iff, ← ZMod.natCast_eq_natCast_iff']
  push_cast
  rfl

@[simp] theorem negY_eq (x y : ZMod g.field) : g.curve.negY x y = -y := by
  simp [WeierstrassCurve.Affine.negY, curve]

theorem natCast_eq_negY_iff {x : ZMod g.field} {y₁ y₂ : Nat} :
    (y₁ : ZMod g.field) = g.curve.negY x y₂ ↔ (y₁ + y₂) % g.field = 0 := by
  rw [negY_eq, eq_neg_iff_add_eq_zero, ← Nat.cast_add, ZMod.natCast_eq_zero_iff,
    Nat.dvd_iff_mod_eq_zero]

@[simp] theorem addX_eq (x₁ x₂ slope : ZMod g.field) :
    g.curve.addX x₁ x₂ slope = slope * slope - x₁ - x₂ := by
  simp [WeierstrassCurve.Affine.addX, curve, sq]

@[simp] theorem addY_eq (x₁ x₂ y₁ slope : ZMod g.field) :
    g.curve.addY x₁ x₂ y₁ slope = slope * (x₁ - g.curve.addX x₁ x₂ slope) - y₁ := by
  rw [WeierstrassCurve.Affine.addY, negY_eq, WeierstrassCurve.Affine.negAddY]
  ring

/-- What holds of the point at infinity and is kept by doubling and by adding the point holds of a
    multiple. The number that goes along is the one whose digits have been seen. -/
theorem scale_induction {p : Point} {motive : Nat → Point → Prop} (hzero : motive 0 .infinity)
    (hdouble : ∀ n q, motive n q → motive (2 * n) (g.add q q))
    (hadd : ∀ n q, motive n q → motive (n + 1) (g.add q p)) (k : Nat) :
    motive k (g.scale k p) := by
  have hfold (digits : List Bool) : ∀ n q, motive n q →
      motive (digits.foldl (fun n bit => 2 * n + bit.toNat) n)
        (digits.foldl
          (fun q bit =>
            let twice := g.add q q
            if bit then g.add twice p else twice) q) := by
    induction digits with
    | nil => exact fun _ _ hq => hq
    | cons bit digits ih =>
      intro n q hq
      refine ih _ _ ?_
      cases bit with
      | false => exact hdouble n q hq
      | true => exact hadd (2 * n) _ (hdouble n q hq)
  have hscale := hfold (Modular.bits k) 0 .infinity hzero
  rwa [← Modular.ofBits, Modular.ofBits_bits] at hscale

variable [hsound : g.IsSound]

theorem field_pos : 0 < g.field := hsound.prime_field.pos

/-- The numbers of a point have the residues of a point of the curve for coordinates. The second one
    may be the modulus, which stands for zero where a zero is negated. -/
inductive Represents : Point → g.curve.Point → Prop
  | infinity : Represents .infinity 0
  | affine {x y : Nat} (hx : x < g.field) (hy : y ≤ g.field) (hpoint : g.curve.Nonsingular x y) :
      Represents (.affine x y) (.some x y hpoint)

namespace Represents

variable {p q : Point} {P Q : g.curve.Point}

theorem of_eq {x y : Nat} {X Y : ZMod g.field} (hx : x < g.field) (hy : y ≤ g.field)
    (hX : (x : ZMod g.field) = X) (hY : (y : ZMod g.field) = Y)
    (hpoint : g.curve.Nonsingular X Y) : Represents (.affine x y) (.some X Y hpoint) := by
  subst hX hY
  exact .affine hx hy hpoint

/-- The line through two points that are not negatives of each other meets the curve in the negative
    of their sum. -/
theorem alongLine {slope x₁ y₁ x₂ y₂ : Nat} (hx₁ : x₁ < g.field) (hy₁ : y₁ ≤ g.field)
    (hx₂ : x₂ < g.field) (hpoint₁ : g.curve.Nonsingular x₁ y₁)
    (hpoint₂ : g.curve.Nonsingular x₂ y₂)
    (hproper : ¬ ((x₁ : ZMod g.field) = x₂ ∧ (y₁ : ZMod g.field) = g.curve.negY x₂ y₂))
    (hslope : (slope : ZMod g.field) = g.curve.slope x₁ x₂ y₁ y₂) :
    Represents (g.alongLine slope x₁ y₁ x₂)
      (WeierstrassCurve.Affine.Point.some _ _ hpoint₁ +
        WeierstrassCurve.Affine.Point.some _ _ hpoint₂) := by
  have hless := Modular.sub_lt (m := g.field) field_pos
  have hfirst : (Modular.sub g.field (Modular.sub g.field (slope * slope) x₁) x₂ : ZMod g.field) =
      slope * slope - x₁ - x₂ := by
    rw [Modular.cast_sub hx₂.le, Modular.cast_sub hx₁.le, Nat.cast_mul]
  rw [WeierstrassCurve.Affine.Point.add_some hproper]
  refine of_eq (hless _ _) (hless _ _).le ?_ ?_ _
  · rw [← hslope, addX_eq, hfirst]
  · rw [← hslope, addY_eq, addX_eq, Modular.cast_sub hy₁, Nat.cast_mul,
      Modular.cast_sub (hless _ _).le, hfirst]

theorem cast_tangent {x₁ y₁ x₂ y₂ : Nat} (hpoint₁ : g.curve.Nonsingular x₁ y₁)
    (hpoint₂ : g.curve.Nonsingular x₂ y₂) (hx : (x₁ : ZMod g.field) = x₂)
    (hy : (y₁ : ZMod g.field) ≠ g.curve.negY x₂ y₂) :
    (((3 * x₁ * x₁ + g.a) * Modular.inverse g.field (2 * y₁) % g.field : Nat) : ZMod g.field) =
      g.curve.slope x₁ x₂ y₁ y₂ := by
  -- Over one first coordinate there are a point and its negative, so the two are the same.
  have hsame := WeierstrassCurve.Affine.Y_eq_of_Y_ne hpoint₁.1 hpoint₂.1 hx hy
  have hdouble : ((2 * y₁ : Nat) : ZMod g.field) ≠ 0 := by
    rw [negY_eq, ← hsame, Ne, eq_neg_iff_add_eq_zero, ← two_mul] at hy
    exact_mod_cast hy
  rw [ZMod.natCast_mod, Nat.cast_mul, Modular.cast_inverse hdouble,
    WeierstrassCurve.Affine.slope_of_Y_ne hx hy, negY_eq, div_eq_mul_inv]
  push_cast [curve]
  congr 2 <;> ring

theorem cast_chord {x₁ y₁ x₂ y₂ : Nat} (hx₁ : x₁ ≤ g.field) (hy₁ : y₁ ≤ g.field)
    (hx : (x₁ : ZMod g.field) ≠ x₂) :
    ((Modular.sub g.field y₂ y₁ * Modular.inverse g.field (Modular.sub g.field x₂ x₁) % g.field :
        Nat) : ZMod g.field) = g.curve.slope x₁ x₂ y₁ y₂ := by
  have hrun : (Modular.sub g.field x₂ x₁ : ZMod g.field) ≠ 0 := by
    rw [Modular.cast_sub hx₁]
    exact sub_ne_zero.2 hx.symm
  rw [WeierstrassCurve.Affine.slope_of_X_ne hx, ZMod.natCast_mod, Nat.cast_mul,
    Modular.cast_inverse hrun, Modular.cast_sub hx₁, Modular.cast_sub hy₁, ← div_eq_mul_inv,
    ← neg_sub, ← neg_sub (x₁ : ZMod g.field), neg_div_neg_eq]

theorem add (hp : Represents p P) (hq : Represents q Q) : Represents (g.add p q) (P + Q) := by
  cases hp with
  | infinity => simpa [Group.add] using hq
  | @affine x₁ y₁ hx₁ hy₁ hpoint₁ =>
    cases hq with
    | infinity => simpa [Group.add] using Represents.affine hx₁ hy₁ hpoint₁
    | @affine x₂ y₂ hx₂ hy₂ hpoint₂ =>
      rw [Group.add]
      split
      · next hx =>
        have hX : (x₁ : ZMod g.field) = x₂ := by rw [hx]
        split
        · next hopposite =>
          rw [← natCast_eq_negY_iff (x := (x₂ : ZMod g.field))] at hopposite
          rw [WeierstrassCurve.Affine.Point.add_of_Y_eq hX hopposite]
          exact .infinity
        · next hproper =>
          rw [← natCast_eq_negY_iff (x := (x₂ : ZMod g.field))] at hproper
          exact alongLine hx₁ hy₁ hx₂ hpoint₁ hpoint₂ (fun h => hproper h.2)
            (cast_tangent hpoint₁ hpoint₂ hX hproper)
      · next hx =>
        have hX : (x₁ : ZMod g.field) ≠ x₂ := by
          rw [Ne, ZMod.natCast_eq_natCast_iff', Nat.mod_eq_of_lt hx₁, Nat.mod_eq_of_lt hx₂]
          exact hx
        exact alongLine hx₁ hy₁ hx₂ hpoint₁ hpoint₂ (fun h => hX h.1) (cast_chord hx₁.le hy₁ hX)

theorem neg (hp : Represents p P) : Represents (g.neg p) (-P) := by
  cases hp with
  | infinity => simpa [Group.neg] using Represents.infinity
  | @affine x y hx hy hpoint =>
    rw [Group.neg, WeierstrassCurve.Affine.Point.neg_some]
    refine of_eq hx (Nat.mod_lt _ field_pos).le rfl ?_ _
    rw [ZMod.natCast_mod, Nat.cast_sub hy, ZMod.natCast_self, zero_sub, negY_eq]

theorem scale (hp : Represents p P) (k : Nat) : Represents (g.scale k p) (k • P) := by
  refine scale_induction (motive := fun n q => Represents q (n • P)) ?_ ?_ ?_ k
  · rw [zero_nsmul]
    exact .infinity
  · intro n q hq
    rw [two_mul, add_nsmul]
    exact hq.add hq
  · intro n q hq
    rw [add_nsmul, one_nsmul]
    exact hq.add hp

end Represents

end CryptoIntrinsics.Elliptic.Group
