import CryptoIntrinsics.Checksum

namespace CryptoIntrinsics.Checksum

variable (kind : Kind)

theorem ofOctets_of_length {bytes : Octets} (hwidth : bytes.length = kind.size) :
    ofOctets kind bytes = .ok ⟨bytes, hwidth⟩ := dif_pos hwidth

/-- Behind any bytes, enough of them are read as a value, whatever follows. -/
theorem unpackFrom_append (before data : Octets) :
    unpackFrom kind (before ++ data) before.length =
      if h : kind.size ≤ data.length then
        .ok (⟨data.take kind.size, by rw [List.length_take, Nat.min_eq_left h]⟩,
          ((before.length + kind.size : Nat) : Int))
      else .error (.truncated kind data.length) := by
  have hlength : (before ++ data).length = before.length + data.length := List.length_append
  have hstop : (before.length : Int) + kind.size = ((before.length + kind.size : Nat) : Int) :=
    (Int.natCast_add _ _).symm
  simp only [unpackFrom, hlength, hstop]
  by_cases h : kind.size ≤ data.length
  · have hwindow : (before ++ data).window before.length
        ((before.length + kind.size : Nat) : Int) = data.take kind.size := by
      rw [Octets.window_of_le (by rw [hlength]; omega), List.drop_left, Nat.add_sub_cancel_left]
    have hwidth : (data.take kind.size).length = kind.size := by
      rw [List.length_take, Nat.min_eq_left h]
    rw [if_neg (by omega), dif_pos h, hwindow, ofOctets_of_length kind hwidth]
    rfl
  · rw [if_pos (by omega), dif_neg h]
    congr 2
    omega

end CryptoIntrinsics.Checksum
