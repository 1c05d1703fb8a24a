import CryptoIntrinsics.Credential
import CryptoIntrinsics.Elliptic.Group

namespace CryptoIntrinsics.Recovery

open Elliptic

inductive Flaw where
  | malformed (flaw : Credential.Flaw)
  | unsupportedTag (tag : Nat)
  | digestWidth (got : Nat)
  | invalidHeader (header : Nat)
  | unsupportedId (id : Nat)
  /-- One of r and s is zero or not below the group order. -/
  | outOfRange
  /-- No curve point lies over r, or one of the two candidate keys is the point at infinity. -/
  | failed
deriving DecidableEq, Repr

def group? : Curve → Option Group
  | .k1 => some secp256k1
  | .r1 => some nistP256
  | .unknown => none

/-- The candidate key `r⁻¹ * (s * point - z * base)` for a point over r, given `z * base`. -/
def candidate (g : Group) (r s : Nat) (zBase point : Point) : Point :=
  g.scale (Modular.inverse g.order r) (g.add (g.scale s point) (g.neg zBase))

/-- The compressed form of a point: the parity of its second coordinate, then its first. -/
def compressed? : Point → Option Octets
  | .infinity => none
  | .affine x y => some (UInt8.ofNat (2 + y % 2) :: Octets.ofNat 32 x)

/-- The compressed key for the point of the given parity over r. Both candidates have to be proper
    points, also the one that is not asked for. -/
def solve? (g : Group) (r s z : Nat) (odd : Bool) : Option Octets := do
  let zBase := g.scale (z % g.order) g.base
  let ofEven ← compressed? (candidate g r s zBase (← g.pointAt? r false))
  let ofOdd ← compressed? (candidate g r s zBase (← g.pointAt? r true))
  return if odd then ofOdd else ofEven

/-- Reads which point over r a header asks for. Headers are 27 or 31, for an uncompressed or a
    compressed key, plus the recovery id; ids above one would ask for a point over r plus the
    order. -/
def parity (header : Nat) : Except Flaw Bool :=
  if header < 27 ∨ 35 ≤ header then .error (.invalidHeader header)
  else match (header - 27) % 4 with
    | 0 => .ok false
    | 1 => .ok true
    | id => .error (.unsupportedId id)

/-- The payload of the key that made a signature over a digest. -/
def solve (digest : Octets) (sig : Signature) : Except Flaw Octets :=
  match group? sig.curve with
  | none => .error (.unsupportedTag sig.tag)
  | some g =>
    if digest.length ≠ 32 then .error (.digestWidth digest.length)
    else do
      let odd ← parity (sig.data.headD 0).toNat
      let r := Octets.toNat (sig.data.tail.take 32)
      let s := Octets.toNat (sig.data.tail.drop 32)
      if r = 0 ∨ g.order ≤ r ∨ s = 0 ∨ g.order ≤ s then .error .outOfRange
      else match solve? g r s digest.toNat odd with
        | some point => .ok point
        | none => .error .failed

/-- Bytes of the size of a compressed point, the first of which is the sign of one. -/
structure IsCompressed (point : Octets) : Prop where
  length_eq : point.length = 33
  head?_eq : point.head? = some 2 ∨ point.head? = some 3

theorem isCompressed_of_compressed? {p : Point} {point : Octets}
    (hpoint : compressed? p = some point) : IsCompressed point := by
  cases p with
  | infinity => cases hpoint
  | affine x y =>
    cases hpoint
    refine ⟨by simp, ?_⟩
    obtain heven | hodd := Nat.mod_two_eq_zero_or_one y
    · rw [heven]
      exact .inl rfl
    · rw [hodd]
      exact .inr rfl

theorem isCompressed_of_solve? {g : Group} {r s z : Nat} {odd : Bool} {point : Octets}
    (hpoint : solve? g r s z odd = some point) : IsCompressed point := by
  simp only [solve?, Option.bind_eq_bind, Option.bind_eq_some_iff, Option.pure_def,
    Option.some.injEq] at hpoint
  obtain ⟨_, _, even, heven, _, _, odder, hodder, rfl⟩ := hpoint
  split
  · exact isCompressed_of_compressed? hodder
  · exact isCompressed_of_compressed? heven

/-- Whatever the signature, a recovery comes to a compressed point or to none. -/
theorem isCompressed_of_solve {digest : Octets} {sig : Signature} {point : Octets}
    (hsolve : solve digest sig = .ok point) : IsCompressed point := by
  rw [solve] at hsolve
  split at hsolve
  · cases hsolve
  · next g hgroup =>
    split at hsolve
    · cases hsolve
    · cases hparity : parity (sig.data.headD 0).toNat with
      | error flaw =>
        rw [hparity] at hsolve
        cases hsolve
      | ok odd =>
        rw [hparity] at hsolve
        simp only [bind, Except.bind] at hsolve
        split at hsolve
        · cases hsolve
        · split at hsolve
          · next hpoint =>
            cases hsolve
            exact isCompressed_of_solve? hpoint
          · cases hsolve

end CryptoIntrinsics.Recovery
