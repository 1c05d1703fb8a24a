import CryptoIntrinsics.Proofs.Elliptic.Law

namespace CryptoIntrinsics

namespace Elliptic.Group

section Reduced

variable {g : Group}

/-- A point whose second coordinate is below the modulus, as that of every computed point is. -/
def IsReduced (g : Group) : Point → Prop
  | .infinity => True
  | .affine _ y => y < g.field

variable [hsound : g.IsSound] {p q : Point}

theorem isReduced_alongLine (slope x₁ y₁ x₂ : Nat) : g.IsReduced (g.alongLine slope x₁ y₁ x₂) :=
  Modular.sub_lt field_pos _ _

theorem isReduced_add (hp : g.IsReduced p) (hq : g.IsReduced q) : g.IsReduced (g.add p q) := by
  cases p with
  | infinity => simpa [add] using hq
  | affine x₁ y₁ =>
    cases q with
    | infinity => simpa [add] using hp
    | affine x₂ y₂ =>
      rw [add]
      split
      · split
        · exact trivial
        · exact isReduced_alongLine _ _ _ _
      · exact isReduced_alongLine _ _ _ _

theorem isReduced_neg (p : Point) : g.IsReduced (g.neg p) := by
  cases p with
  | infinity => exact trivial
  | affine x y => exact Nat.mod_lt _ field_pos

theorem isReduced_scale (hp : g.IsReduced p) (k : Nat) : g.IsReduced (g.scale k p) :=
  scale_induction (motive := fun _ => g.IsReduced) trivial (fun _ _ hq => isReduced_add hq hq)
    (fun _ _ hq => isReduced_add hq hp) k

end Reduced

variable {g : Group} [hsound : g.IsSound]

def numbers : g.curve.Point → Point
  | .zero => .infinity
  | .some x y _ => .affine x.val y.val

theorem Represents.eq_numbers {p : Point} {P : g.curve.Point} (hp : Represents p P)
    (hreduced : g.IsReduced p) : p = numbers P := by
  cases hp with
  | infinity => rfl
  | affine hx hy hpoint => rw [numbers, ZMod.val_cast_of_lt hx, ZMod.val_cast_of_lt hreduced]

theorem Represents.eq_infinity_iff {p : Point} {P : g.curve.Point} (hp : Represents p P) :
    p = .infinity ↔ P = 0 := by
  cases hp with
  | infinity => exact iff_of_true rfl rfl
  | affine hx hy hpoint =>
    exact iff_of_false nofun (WeierstrassCurve.Affine.Point.some_ne_zero hpoint)

variable (g) in
def generator : g.curve.Point := .mk (equation_natCast_iff.2 hsound.base_equation)

theorem represents_base : Represents g.base g.generator :=
  .affine hsound.baseX_lt hsound.baseY_lt.le _

theorem order_nsmul_generator : g.order • g.generator = 0 := by
  have hscaled := represents_base.scale (g := g) g.order
  exact hscaled.eq_infinity_iff.1 hsound.scale_order

theorem mod_order_nsmul_generator (z : Nat) : (z % g.order) • g.generator = z • g.generator := by
  conv_rhs => rw [← Nat.mod_add_div z g.order, add_nsmul, mul_nsmul, order_nsmul_generator,
    nsmul_zero, add_zero]

section Over

variable {x : Nat} {y : ZMod g.field}

def isOdd (y : ZMod g.field) : Bool := decide (y.val % 2 = 1)

/-- The root that is taken of a square is the number of the residue, or what it leaves of the
    modulus. -/
theorem exists_sqrt?_eq {a : Nat} (ha : (a : ZMod g.field) = y * y) :
    ∃ root, Modular.sqrt? g.field a = some root ∧
      (root = y.val ∨ y ≠ 0 ∧ root = g.field - y.val) := by
  obtain ⟨root, hless, hroot, hsign⟩ := Modular.sqrt?_of_eq_mul_self hsound.field_mod_four ha
  refine ⟨root, hroot, ?_⟩
  rw [← ZMod.val_cast_of_lt hless]
  obtain hsame | hopposite := hsign
  · rw [hsame]
    exact .inl rfl
  · rw [hopposite]
    by_cases hy : y = 0
    · rw [hy, neg_zero]
      exact .inl rfl
    · exact .inr ⟨hy, by rw [ZMod.neg_val, if_neg hy]⟩

/-- Whichever root is taken, the point of a parity over a first coordinate is the same. -/
theorem pointAt?_eq (hequation : g.curve.Equation x y) (odd : Bool) :
    g.pointAt? x odd =
      some (.affine x (if isOdd y = odd then y.val else g.field - y.val)) := by
  have hsquare : (((x * x * x + g.a * x + g.b) % g.field : Nat) : ZMod g.field) = y * y := by
    rw [equation_iff.1 hequation, ZMod.natCast_mod]
    push_cast
    rfl
  obtain ⟨root, hroot, hsign⟩ := exists_sqrt?_eq hsquare
  rw [pointAt?, hroot, Option.map_some]
  congr 2
  obtain rfl | ⟨hy, rfl⟩ := hsign
  · cases odd <;> simp [isOdd]
  · -- The modulus is odd, so the two roots have different parities.
    have hless : y.val < g.field := y.val_lt
    have hmod := hsound.field_mod_four
    have hflip : (g.field - y.val) % 2 = 1 ↔ ¬ y.val % 2 = 1 := by omega
    have hback : g.field - (g.field - y.val) = y.val := by omega
    rw [hback]
    by_cases hodd : y.val % 2 = 1 <;> cases odd <;> simp [isOdd, hflip, hodd]

/-- The point over a first coordinate that has the parity of a second coordinate. -/
theorem represents_same (hx : x < g.field) (hequation : g.curve.Equation x y) :
    ∃ p, g.pointAt? x (isOdd y) = some p ∧ Represents p (.mk hequation) ∧ g.IsReduced p := by
  have hless : y.val < g.field := y.val_lt
  refine ⟨.affine x y.val, ?_, ?_, hless⟩
  · rw [pointAt?_eq hequation, if_pos rfl]
  · exact .of_eq hx hless.le rfl (ZMod.natCast_zmod_val y) _

/-- The point of the other parity is its negative. -/
theorem represents_other (hx : x < g.field) (hequation : g.curve.Equation x y) :
    ∃ p, g.pointAt? x (!isOdd y) = some p ∧ Represents p (-.mk hequation) := by
  refine ⟨.affine x (g.field - y.val), ?_, ?_⟩
  · rw [pointAt?_eq hequation, if_neg (by simp)]
  · refine .of_eq hx (Nat.sub_le _ _) rfl ?_ _
    rw [negY_eq, Nat.cast_sub y.val_lt.le, ZMod.natCast_self, ZMod.natCast_zmod_val, zero_sub]

end Over

section Solve

variable {r s : Nat}

variable (g) in
/-- The key that a signature over a number was made with, if it used the given point. -/
def signer (r s z : Nat) (point : g.curve.Point) : g.curve.Point :=
  (r : ZMod g.order)⁻¹.val • (s • point - z • g.generator)

theorem represents_candidate {p : Point} {P : g.curve.Point} (hp : Represents p P) (hpos : 0 < r)
    (hless : r < g.order) (s z : Nat) :
    Represents (Recovery.candidate g r s (g.scale (z % g.order) g.base) p) (g.signer r s z P) := by
  have hr : (r : ZMod g.order) ≠ 0 := by
    rw [Ne, ZMod.natCast_eq_zero_iff]
    exact Nat.not_dvd_of_pos_of_lt hpos hless
  have hbase := represents_base.scale (g := g) (z % g.order)
  rw [mod_order_nsmul_generator] at hbase
  rw [Recovery.candidate, Modular.inverse_eq hr, signer, sub_eq_add_neg]
  exact ((hp.scale s).add hbase.neg).scale _

theorem signer_ne_zero {p : Point} {P : g.curve.Point} (hp : Represents p P) (hpos : 0 < r)
    (hless : r < g.order) {s z : Nat}
    (hcandidate : Recovery.candidate g r s (g.scale (z % g.order) g.base) p ≠ .infinity) :
    g.signer r s z P ≠ 0 :=
  mt (represents_candidate hp hpos hless s z).eq_infinity_iff.2 hcandidate

theorem isReduced_candidate {p : Point} (hp : g.IsReduced p) (r s : Nat) (zBase : Point) :
    g.IsReduced (Recovery.candidate g r s zBase p) :=
  isReduced_scale (isReduced_add (isReduced_scale hp s) (isReduced_neg _)) _

end Solve

end Elliptic.Group

namespace Recovery

open Elliptic

theorem compressed?_eq_none_iff {g : Group} [g.IsSound] {p : Point} {P : g.curve.Point}
    (hp : Group.Represents p P) : compressed? p = none ↔ P = 0 := by
  rw [← hp.eq_infinity_iff]
  cases p with
  | infinity => exact iff_of_true rfl rfl
  | affine x y => exact iff_of_false nofun nofun

theorem exists_compressed?_numbers {g : Group} [g.IsSound] {P : g.curve.Point} (hP : P ≠ 0) :
    ∃ point, compressed? (Group.numbers P) = some point := by
  cases P with
  | zero => exact absurd rfl hP
  | some x y hpoint => exact ⟨_, rfl⟩

/-- The candidate of the parity asked for is the answer, provided that the other one is a proper
    point too. -/
theorem solve?_eq {g : Group} {r s z : Nat} {odd : Bool} {one other : Point}
    (hone : g.pointAt? r odd = some one) (hother : g.pointAt? r (!odd) = some other) :
    solve? g r s z odd =
      let zBase := g.scale (z % g.order) g.base
      (compressed? (candidate g r s zBase other)).bind fun _ =>
        compressed? (candidate g r s zBase one) := by
  dsimp only
  cases odd with
  | false =>
    rw [Bool.not_false] at hother
    simp only [solve?, hone, hother, Option.bind_eq_bind, Option.bind_some, Option.pure_def]
    cases compressed? (candidate g r s _ one) <;>
      cases compressed? (candidate g r s _ other) <;> rfl
  | true =>
    rw [Bool.not_true] at hother
    simp only [solve?, hone, hother, Option.bind_eq_bind, Option.bind_some, Option.pure_def]
    cases compressed? (candidate g r s _ one) <;>
      cases compressed? (candidate g r s _ other) <;> rfl

theorem solve?_isOdd {g : Group} [g.IsSound] {r : Nat} {y : ZMod g.field} (hpos : 0 < r)
    (hless : r < g.order) (hequation : g.curve.Equation r y) (s z : Nat) :
    let point : g.curve.Point := .mk hequation
    solve? g r s z (Group.isOdd y) =
      if g.signer r s z point = 0 ∨ g.signer r s z (-point) = 0 then none
      else compressed? (Group.numbers (g.signer r s z point)) := by
  intro point
  have hx : r < g.field := hless.trans Group.IsSound.order_lt
  obtain ⟨one, hone, hpoint, hreduced⟩ := Group.represents_same hx hequation
  obtain ⟨other, hother, hnegative⟩ := Group.represents_other hx hequation
  have hasked := Group.represents_candidate hpoint hpos hless s z
  have hunasked := Group.represents_candidate hnegative hpos hless s z
  have hnumbers := hasked.eq_numbers (Group.isReduced_candidate hreduced r s _)
  rw [solve?_eq hone hother]
  dsimp only
  rw [← hnumbers]
  split
  · next heither =>
    obtain hzero | hzero := heither
    · rw [(compressed?_eq_none_iff hasked).2 hzero, Option.bind_fun_none]
    · rw [(compressed?_eq_none_iff hunasked).2 hzero, Option.bind_none]
  · next hneither =>
    obtain ⟨_, hproper⟩ := not_or.1 hneither
    have hsome := mt (compressed?_eq_none_iff hunasked).1 hproper
    obtain ⟨key, hkey⟩ := Option.ne_none_iff_exists'.1 hsome
    rw [hkey, Option.bind_some]

end Recovery

end CryptoIntrinsics
