import CryptoIntrinsics.Octets
import Mathlib.Data.List.DropRight

namespace CryptoIntrinsics

namespace Octets

variable {bytes : Octets} {back used count : Nat}

theorem length_rtake (hinside : back ≤ bytes.length) : (bytes.rtake back).length = back := by
  rw [List.rtake, List.length_drop]
  omega

/-- Before the end, an offset that counts from there is a place in the tail. -/
theorem place_neg (hinside : back ≤ bytes.length) (hlt : used < back) :
    place bytes.length (-(back : Int) + used) = bytes.length - back + used := by
  rw [place, if_pos (by omega)]
  omega

/-- Bytes that end before the last one are a window of the tail. -/
theorem window_neg_of_lt (hinside : back ≤ bytes.length) (hlt : used + count < back) :
    bytes.window (-(back : Int) + used) (-(back : Int) + (used + count : Nat)) =
      ((bytes.rtake back ++ bytes).drop used).take count := by
  have hlength := length_rtake hinside
  have htail : ((bytes.rtake back).drop used).length = back - used := by
    rw [List.length_drop, hlength]
  simp only [window]
  rw [place_neg hinside hlt, place_neg hinside (by omega), ← Nat.add_assoc,
    Nat.add_sub_cancel_left, List.drop_append_of_le_length (by omega),
    List.take_append_of_le_length (by omega), List.rtake, List.drop_drop]

/-- Bytes that begin behind the last one are a window of the front. -/
theorem window_neg_of_le (hinside : back ≤ bytes.length) (hle : back ≤ used)
    (hfits : used + count ≤ back + bytes.length) :
    bytes.window (-(back : Int) + used) (-(back : Int) + (used + count : Nat)) =
      ((bytes.rtake back ++ bytes).drop used).take count := by
  have hlength := length_rtake hinside
  have hstart : -(back : Int) + used = ((used - back : Nat) : Int) := by omega
  have hstop : -(back : Int) + (used + count : Nat) = ((used - back + count : Nat) : Int) := by
    omega
  have htail : (bytes.rtake back).drop used = [] := List.drop_eq_nil_of_le (by omega)
  rw [hstart, hstop, window_of_le (by omega), Nat.add_sub_cancel_left, List.drop_append, htail,
    List.nil_append, hlength]

/-- A window from the tail to the end or beyond is too short. -/
theorem length_window_neg_lt (hinside : back ≤ bytes.length) (hlt : used < back)
    (hreach : back ≤ used + count) :
    (bytes.window (-(back : Int) + used) (-(back : Int) + (used + count : Nat))).length <
      count := by
  have hstop : place bytes.length (-(back : Int) + (used + count : Nat)) ≤ used + count - back := by
    rw [place, if_neg (by omega)]
    omega
  simp only [window]
  rw [place_neg hinside hlt, List.length_take, List.length_drop]
  omega

/-- A window from before the first byte on is too short. -/
theorem length_window_neg_lt_of_lt (houtside : bytes.length < back) (hpos : 0 < count) :
    (bytes.window (-(back : Int)) (-(back : Int) + count)).length < count := by
  have hstart : place bytes.length (-(back : Int)) = 0 := by
    rw [place, if_pos (by omega)]
    omega
  have hstop : place bytes.length (-(back : Int) + count) < count := by
    rw [place]
    split <;> omega
  simp only [window, hstart, List.drop_zero, Nat.sub_zero, List.length_take]
  omega

end Octets

end CryptoIntrinsics
