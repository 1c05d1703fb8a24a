import CryptoIntrinsics.Proofs.Elliptic.Candidates
import CryptoIntrinsics.Proofs.Elliptic.Curves
import CryptoIntrinsics.Proofs.Native.Recovery

namespace CryptoIntrinsics

namespace Credential

def header (s : Signature) : Nat := (s.data.headD 0).toNat

def r (s : Signature) : Nat := Octets.toNat (s.data.tail.take 32)

def s (s : Signature) : Nat := Octets.toNat (s.data.tail.drop 32)

end Credential

namespace Recovery

open Elliptic

def group : Curve → Group
  | .r1 => nistP256
  | _ => secp256k1

instance isSound_group (c : Curve) : (group c).IsSound := by
  cases c with
  | r1 => exact Group.isSound_nistP256
  | k1 | unknown => exact Group.isSound_secp256k1

theorem group?_eq {c : Curve} (hknown : c ≠ .unknown) : group? c = some (group c) := by
  cases c with
  | k1 => rfl
  | r1 => rfl
  | unknown => exact absurd rfl hknown

/-- A header that names one of the two points asks for its parity. -/
theorem parity_eq {header id : Nat} (hid : id < 2) (hheader : header = 27 + id ∨ header = 31 + id) :
    parity header = .ok (decide (id = 1)) := by
  have hplain : parity (27 + id) = .ok (decide (id = 1)) := by
    interval_cases id <;> rfl
  obtain rfl | rfl := hheader
  · exact hplain
  · rw [parity_add_four (by omega), hplain]

variable {digest : Octets} {sig : Signature}

/-- Where a signature gets as far as its candidates, they decide. -/
theorem solve_eq (hknown : sig.curve ≠ .unknown) (hdigest : digest.length = 32) {id : Nat}
    (hid : id < 2) (hheader : sig.header = 27 + id ∨ sig.header = 31 + id)
    (hr : 0 < sig.r ∧ sig.r < (group sig.curve).order)
    (hs : 0 < sig.s ∧ sig.s < (group sig.curve).order) :
    solve digest sig =
      match solve? (group sig.curve) sig.r sig.s digest.toNat (decide (id = 1)) with
      | some point => .ok point
      | none => .error .failed := by
  have hrange : ¬ (sig.r = 0 ∨ (group sig.curve).order ≤ sig.r ∨ sig.s = 0 ∨
      (group sig.curve).order ≤ sig.s) := by omega
  have hparity : parity (sig.data.headD 0).toNat = .ok (decide (id = 1)) := parity_eq hid hheader
  simp only [solve, group?_eq hknown, hdigest, hparity, bind, Except.bind, ne_eq,
    not_true_eq_false, if_false]
  exact if_neg hrange

end Recovery

namespace Intrinsic

open Elliptic Recovery

variable {hash : Datum} {d : Checksum .bits256} {session : Session} {settings : Native.Settings}

/-- On a native host, a recovery from a signature with a point over r of the parity that the header
    asks for comes to the key of that point exactly if neither the candidate that it makes nor the
    one that its negative makes is the point at infinity. Otherwise it fails, also if the key asked
    for is a proper point. -/
theorem recoverKey_needs_both (hhash : hash.Gives d) (hnative : session.IsNative settings)
    (sig : Signature) (hknown : sig.curve ≠ .unknown) {id : Nat} (hid : id < 2)
    (hheader : sig.header = 27 + id ∨ sig.header = 31 + id)
    (hr : 0 < sig.r ∧ sig.r < (group sig.curve).order)
    (hs : 0 < sig.s ∧ sig.s < (group sig.curve).order)
    {y : ZMod (group sig.curve).field} (hequation : (group sig.curve).curve.Equation sig.r y)
    (hparity : y.val % 2 = id) :
    let point : (group sig.curve).curve.Point := .mk hequation
    let signer := (group sig.curve).signer sig.r sig.s d.data.toNat
    let value := (recoverKey hash (.signature sig)).outcome session
    (signer point ≠ 0 → signer (-point) ≠ 0 → ∃ k : PublicKey,
      value = .ok (.datum (.publicKey k)) ∧ k.tag = sig.tag ∧
        compressed? (Group.numbers (signer point)) = some k.data) ∧
    (signer point = 0 ∨ signer (-point) = 0 → value = .error (.fault Flaw.failed.fault)) := by
  intro point signer value
  have hodd : decide (id = 1) = Group.isOdd y := by
    rw [Group.isOdd, hparity]
  have hsolve := solve_eq hknown d.size_eq hid hheader hr hs
  rw [hodd, solve?_isOdd hr.1 hr.2 hequation] at hsolve
  have hvalue := outcome_recoverKey hnative (Checksum.ofArgument_of_gives hhash "digest") sig
  constructor
  · intro hpoint hnegative
    obtain ⟨key, hkey⟩ := exists_compressed?_numbers hpoint
    rw [if_neg (not_or.2 ⟨hpoint, hnegative⟩), hkey] at hsolve
    rw [key_of_ok hsolve] at hvalue
    exact ⟨_, hvalue, rfl, hkey⟩
  · intro hzero
    rw [if_pos hzero] at hsolve
    rw [key_of_error hsolve] at hvalue
    exact hvalue

/-- Over a digest of zero bytes, the two points of secp256k1 over one are the candidates for a
    signature with one for both numbers. -/
theorem recoverKey_needs_both_one :
    let hash : Datum := .octets (List.replicate 32 0)
    let sig : Signature := ⟨0, 31 :: (Octets.ofNat 32 1 ++ Octets.ofNat 32 1), by decide, by decide⟩
    let settings : Native.Settings := .ofCap false 0
    let session : Session :=
      { Session.start with active := some (Native.hostNumbered 3 (some "native") settings) }
    session.IsNative settings ∧ ∃ k : PublicKey,
      (recoverKey hash (.signature sig)).outcome session = .ok (.datum (.publicKey k)) ∧
        k.tag = 0 := by
  intro hash sig settings session
  let y : Nat := 0x4218f20ae6c646b363db68605822fb14264ca8d2587fdd6fbc750d587e76a7ee
  have hhash : hash.Gives (.zero .bits256) := .bytes _ rfl
  have hnative : session.IsNative settings := ⟨3, some "native", rfl⟩
  have hr : 0 < sig.r ∧ sig.r < secp256k1.order := by decide +kernel
  have hs : 0 < sig.s ∧ sig.s < secp256k1.order := by decide +kernel
  have hequation : secp256k1.curve.Equation sig.r y :=
    Group.equation_natCast_iff.2 (by decide +kernel)
  have hparity : (y : ZMod secp256k1.field).val % 2 = 0 := by
    rw [ZMod.val_natCast]
    decide
  have hpoint : Group.Represents (.affine sig.r y) (.mk hequation) :=
    .affine (by decide +kernel) (by decide) _
  obtain ⟨hkey, -⟩ := recoverKey_needs_both hhash hnative sig (by decide) (by decide)
    (.inr (by decide)) hr hs hequation hparity
  obtain ⟨k, hvalue, htag, -⟩ := hkey (Group.signer_ne_zero hpoint hr.1 hr.2 (by decide +kernel))
    (Group.signer_ne_zero hpoint.neg hr.1 hr.2 (by decide +kernel))
  exact ⟨hnative, k, hvalue, htag⟩

/-- Over the digest one, the base point itself makes the point at infinity. The signature of its
    negative has a proper key, and it is not recovered. -/
theorem recoverKey_failed_of_negative :
    let digest : Checksum .bits256 := ⟨Octets.ofNat 32 1, by decide⟩
    let sig : Signature :=
      ⟨0, 32 :: (Octets.ofNat 32 secp256k1.baseX ++ Octets.ofNat 32 1), by decide, by decide⟩
    let settings : Native.Settings := .ofCap false 0
    let session : Session :=
      { Session.start with active := some (Native.hostNumbered 3 (some "native") settings) }
    session.IsNative settings ∧ sig.curve = .k1 ∧ sig.header = 31 + 1 ∧
      (0 < sig.r ∧ sig.r < secp256k1.order) ∧ (0 < sig.s ∧ sig.s < secp256k1.order) ∧
      (∃ (y : ZMod secp256k1.field) (hequation : secp256k1.curve.Equation sig.r y),
        y.val % 2 = 1 ∧
          secp256k1.signer sig.r sig.s digest.data.toNat (.mk hequation) ≠ 0) ∧
      (recoverKey (.checksum .bits256 digest) (.signature sig)).outcome session =
        .error (.fault Flaw.failed.fault) := by
  intro digest sig settings session
  have hnative : session.IsNative settings := ⟨3, some "native", rfl⟩
  have hr : 0 < sig.r ∧ sig.r < secp256k1.order := by decide +kernel
  have hs : 0 < sig.s ∧ sig.s < secp256k1.order := by decide +kernel
  have hequation : secp256k1.curve.Equation sig.r
      ((secp256k1.field - secp256k1.baseY : Nat) : ZMod secp256k1.field) :=
    Group.equation_natCast_iff.2 (by decide +kernel)
  have hpoint : Group.Represents (.affine sig.r (secp256k1.field - secp256k1.baseY))
      (.mk hequation) := .affine (by decide +kernel) (Nat.sub_le _ _) _
  have hparity :
      ((secp256k1.field - secp256k1.baseY : Nat) : ZMod secp256k1.field).val % 2 = 1 := by
    rw [ZMod.val_natCast]
    decide
  have hsigner := Group.signer_ne_zero hpoint hr.1 hr.2 (s := sig.s) (z := digest.data.toNat)
    (by decide +kernel)
  have hsolve : solve digest.data sig = .error .failed := by decide +kernel
  have hvalue := outcome_recoverKey hnative
    (Checksum.ofArgument_of_gives (.checksum digest) "digest") sig
  rw [key_of_error hsolve] at hvalue
  exact ⟨hnative, rfl, rfl, hr, hs, ⟨_, hequation, hparity, hsigner⟩, hvalue⟩

end Intrinsic

end CryptoIntrinsics
