import CryptoIntrinsics.Modular
import CryptoIntrinsics.Varint
import Mathlib.Algebra.Group.Nat.Defs

namespace CryptoIntrinsics

namespace Modular

def ofBits (digits : List Bool) : Nat := digits.foldl (fun n bit => 2 * n + bit.toNat) 0

theorem foldl_testBit (n width seen : Nat) :
    ((List.range width).reverse.map n.testBit).foldl (fun n bit => 2 * n + bit.toNat) seen =
      seen * 2 ^ width + n % 2 ^ width := by
  -- The digit of the highest place left is next, so what is left is a remainder of the number.
  induction width generalizing seen with
  | zero => simp [Nat.mod_one]
  | succ width ih =>
    rw [List.range_succ, List.reverse_concat, List.map_cons, List.foldl_cons, ih,
      Nat.toNat_testBit, Nat.mod_pow_succ, Nat.pow_succ, Nat.add_mul,
      Nat.mul_comm 2 seen, Nat.mul_assoc, Nat.mul_comm 2, Nat.mul_comm (n / _ % 2)]
    omega

theorem ofBits_bits (n : Nat) : ofBits (bits n) = n := by
  rw [bits]
  split
  · next hzero => rw [hzero]; rfl
  · rw [ofBits, foldl_testBit, Nat.zero_mul, Nat.zero_add, Nat.mod_eq_of_lt Nat.lt_log2_self]

/-- One step towards a power: the power so far is squared, and for a one multiplied by the base. -/
def raise (m base power : Nat) (bit : Bool) : Nat :=
  let square := power * power % m
  if bit then square * base % m else square

theorem raise_pow (m base n : Nat) (bit : Bool) :
    raise m base (base ^ n % m) bit = base ^ (2 * n + bit.toNat) % m := by
  have hsquare : base ^ n % m * (base ^ n % m) % m = base ^ (2 * n) % m := by
    rw [← Nat.mul_mod, ← Nat.pow_add, Nat.two_mul]
  cases bit with
  | false => exact hsquare
  | true =>
    simp only [raise, hsquare, if_true, Bool.toNat_true, Nat.pow_succ]
    rw [Nat.mod_mul_mod]

theorem foldl_raise (m base n : Nat) (digits : List Bool) :
    digits.foldl (raise m base) (base ^ n % m) =
      base ^ digits.foldl (fun n bit => 2 * n + bit.toNat) n % m := by
  induction digits generalizing n with
  | nil => rfl
  | cons bit digits ih => rw [List.foldl_cons, List.foldl_cons, raise_pow, ih]

theorem pow_eq (m base exponent : Nat) : pow m base exponent = base ^ exponent % m := by
  have hfold := foldl_raise m base 0 (bits exponent)
  rw [← ofBits, ofBits_bits] at hfold
  exact hfold

end Modular

namespace Octets

theorem foldl_toNat (bytes : Octets) (seen : Nat) :
    bytes.foldl (fun n b => n * 256 + b.toNat) seen = seen * 256 ^ bytes.length + bytes.toNat := by
  induction bytes generalizing seen with
  | nil => simp [toNat]
  | cons b rest ih =>
    rw [toNat, List.foldl_cons, List.foldl_cons, ih, ih, List.length_cons, Nat.pow_succ,
      Nat.zero_mul, Nat.zero_add, Nat.add_mul, Nat.mul_assoc, Nat.mul_comm 256, Nat.add_assoc]

theorem toNat_cons (b : UInt8) (rest : Octets) :
    toNat (b :: rest) = b.toNat * 256 ^ rest.length + rest.toNat := by
  rw [toNat, List.foldl_cons, Nat.zero_mul, Nat.zero_add, foldl_toNat]

theorem toNat_lt (bytes : Octets) : bytes.toNat < 256 ^ bytes.length := by
  induction bytes with
  | nil => decide
  | cons b rest ih =>
    have hbyte : b.toNat * 256 ^ rest.length ≤ 255 * 256 ^ rest.length :=
      Nat.mul_le_mul_right _ (Nat.le_of_lt_succ b.toNat_lt)
    rw [toNat_cons, List.length_cons, Nat.pow_succ]
    omega

theorem toNat_ofNat (width n : Nat) : (ofNat width n).toNat = n % 256 ^ width := by
  induction width with
  | zero => simp [ofNat, toNat, Nat.mod_one]
  | succ width ih =>
    have hshift : n >>> (8 * width) = n / 256 ^ width := by
      rw [Nat.shiftRight_eq_div_pow, Nat.pow_mul]
    have hsplit : n % 256 ^ (width + 1) = n % 256 ^ width + 256 ^ width * (n / 256 ^ width % 256) :=
      Nat.mod_pow_succ
    rw [ofNat, toNat_cons, ih, length_ofNat, hshift, UInt8.toNat_ofNat', hsplit, Nat.add_comm,
      Nat.mul_comm]

/-- The number and the width determine the bytes. -/
theorem toNat_inj {a b : Octets} (hlength : a.length = b.length) (hnumber : a.toNat = b.toNat) :
    a = b := by
  induction a generalizing b with
  | nil => exact (List.length_eq_zero_iff.1 hlength.symm).symm
  | cons x front ih =>
    cases b with
    | nil => cases hlength
    | cons y back =>
      have hrest : front.length = back.length := Nat.succ.inj hlength
      have hfront := toNat_lt front
      have hback := toNat_lt back
      rw [toNat_cons, toNat_cons, hrest] at hnumber
      rw [hrest] at hfront
      -- Without the first byte a number is the remainder by the weight of that byte.
      have hlower : toNat front = toNat back := by
        have hremainder := congrArg (· % 256 ^ back.length) hnumber
        simpa only [Nat.mul_add_mod_self_right, Nat.mod_eq_of_lt hfront, Nat.mod_eq_of_lt hback]
          using hremainder
      have hlead : x.toNat = y.toNat := by
        rw [hlower] at hnumber
        exact Nat.eq_of_mul_eq_mul_right (Nat.pow_pos (by decide)) (Nat.add_right_cancel hnumber)
      rw [UInt8.toNat_inj.1 hlead, ih hrest hlower]

theorem ofNat_eq_iff {width n : Nat} (hfits : n < 256 ^ width) {bytes : Octets}
    (hlength : bytes.length = width) : bytes = ofNat width n ↔ bytes.toNat = n := by
  have hnumber : (ofNat width n).toNat = n := by rw [toNat_ofNat, Nat.mod_eq_of_lt hfits]
  constructor
  · rintro rfl
    exact hnumber
  · intro hbytes
    exact toNat_inj (by rw [hlength, length_ofNat]) (hbytes.trans hnumber.symm)

end Octets

namespace Varint

theorem bitLength_le_iff (n width : Nat) : bitLength n ≤ width ↔ n < 2 ^ width := by
  rw [bitLength]
  split
  · next hzero => exact iff_of_true (Nat.zero_le width) (hzero ▸ Nat.two_pow_pos width)
  · next hpos => rw [Nat.succ_le_iff, Nat.log2_lt hpos]

end Varint

end CryptoIntrinsics
