namespace CryptoIntrinsics

/-- A byte string, first byte first. -/
abbrev Octets := List UInt8

namespace Octets

def ofText (text : String) : Octets := text.toUTF8.data.toList

/-- The number whose base-256 digits are the bytes, most significant first. -/
def toNat (bytes : Octets) : Nat := bytes.foldl (fun n b => n * 256 + b.toNat) 0

/-- The lowest `width` base-256 digits of `n`, most significant first. -/
def ofNat : (width n : Nat) → Octets
  | 0, _ => []
  | width + 1, n => UInt8.ofNat (n >>> (8 * width)) :: ofNat width n

def toNatLittle : Octets → Nat
  | [] => 0
  | b :: rest => b.toNat + 256 * toNatLittle rest

def ofNatLittle : (width n : Nat) → Octets
  | 0, _ => []
  | width + 1, n => UInt8.ofNat n :: ofNatLittle width (n / 256)

@[simp] theorem length_ofNat (width n : Nat) : (ofNat width n).length = width := by
  induction width with
  | zero => rfl
  | succ width ih => simp [ofNat, ih]

@[simp] theorem length_ofNatLittle (width n : Nat) : (ofNatLittle width n).length = width := by
  induction width generalizing n with
  | zero => rfl
  | succ width ih => simp [ofNatLittle, ih]

/-- The place a signed bound denotes in a sequence of `size` elements: a negative bound counts
    from the end, and a bound outside the sequence stands at its nearer end. -/
def place (size : Nat) (bound : Int) : Nat :=
  if bound < 0 then (bound + size).toNat else min bound.toNat size

/-- The bytes from `start` up to `stop`, both signed bounds; empty when they cross. -/
def window (bytes : Octets) (start stop : Int) : Octets :=
  let first := place bytes.length start
  (bytes.drop first).take (place bytes.length stop - first)

theorem place_natCast (size bound : Nat) : place size (bound : Int) = min bound size := by
  have hnot : ¬ (bound : Int) < 0 := by omega
  simp [place, hnot]

theorem window_of_le {bytes : Octets} {start stop : Nat} (hstop : stop ≤ bytes.length) :
    bytes.window start stop = (bytes.drop start).take (stop - start) := by
  by_cases hstart : start ≤ bytes.length
  · simp only [window, place_natCast]
    rw [Nat.min_eq_left hstart, Nat.min_eq_left hstop]
  · have hdrop : bytes.drop start = [] := List.drop_eq_nil_of_le (by omega)
    simp only [window, place_natCast]
    rw [Nat.min_eq_right (by omega : bytes.length ≤ start)]
    simp [hdrop]

end Octets

end CryptoIntrinsics
