import CryptoIntrinsics.Proofs.Varint.Groups
import Mathlib.Tactic.ByContra

namespace CryptoIntrinsics.Varint

/-- An integer within the bound is read back from its encoding, whatever follows. -/
theorem decode_encode_append (strict : Bool) {n bound : Nat} (hn : n ≤ bound) (rest : Octets) :
    decode strict bound (encode n ++ rest) = .ok (n, size n) := by
  obtain ⟨front, last, hencode, hword⟩ := exists_word_encode strict (size_mono hn)
  have hlength := size_eq_of_encode hencode
  have hvalue : groups (front ++ [last]) = n := by rw [← hencode, groups_encode]
  have hdecodes : Decodes strict bound (front ++ last :: rest) _ := .found rest hword (by omega)
  rw [hvalue, ← hlength] at hdecodes
  rw [hencode, List.append_assoc]
  exact decodes_iff.1 hdecodes

/-- Strict decoding reads an integer exactly where its encoding stands in front. -/
theorem decode_eq_ok_iff {bound : Nat} {bytes : Octets} {n used : Nat} :
    decode true bound bytes = .ok (n, used) ↔
      n ≤ bound ∧ used = size n ∧ encode n <+: bytes := by
  constructor
  · intro hread
    cases decodes_iff.2 hread with
    | found rest hword hbound =>
      refine ⟨by omega, hword.size_eq.symm, rest, ?_⟩
      rw [hword.encode_eq, List.append_assoc]
      rfl
  · rintro ⟨hn, rfl, rest, rfl⟩
    exact decode_encode_append true hn rest

/-- Strict decoding finds an integer above the bound exactly where the encoding of one stands in
    front, of no more bytes than the bound's. -/
theorem decode_eq_exceeds_iff {bound : Nat} {bytes : Octets} {n : Nat} :
    decode true bound bytes = .error (.exceeds n) ↔
      bound < n ∧ size n ≤ size bound ∧ encode n <+: bytes := by
  constructor
  · intro hread
    cases decodes_iff.2 hread with
    | exceeds rest hword hbound =>
      have hroom := hword.length_lt
      rw [Int.natAbs_natCast] at hroom
      refine ⟨by omega, by rw [hword.size_eq]; exact hroom, rest, ?_⟩
      rw [hword.encode_eq, List.append_assoc]
      rfl
  · rintro ⟨hn, hsize, rest, rfl⟩
    obtain ⟨front, last, hencode, hword⟩ := exists_word_encode true hsize
    have hvalue : groups (front ++ [last]) = n := by rw [← hencode, groups_encode]
    have hdecodes : Decodes true bound (front ++ last :: rest) _ :=
      .exceeds rest hword (by omega)
    rw [hvalue] at hdecodes
    rw [hencode, List.append_assoc]
    exact decodes_iff.1 hdecodes

/-- Decoding runs out of bytes exactly on a run that does not end and is shorter than the bound
    allows. -/
theorem decode_eq_truncated_iff {strict : Bool} {bound : Int} {bytes : Octets} :
    decode strict bound bytes = .error .truncated ↔
      Unfinished bytes ∧ bytes.length < size bound.natAbs := by
  constructor
  · intro hread
    cases decodes_iff.2 hread with
    | truncated hrun hroom => exact ⟨hrun, hroom⟩
  · rintro ⟨hrun, hroom⟩
    exact decode_of_unfinished strict bound hrun hroom

/-- Unless bytes are missing, more bytes behind them change nothing. -/
theorem decode_append {strict : Bool} {bound : Int} {bytes : Octets}
    (hread : decode strict bound bytes ≠ .error .truncated) (rest : Octets) :
    decode strict bound (bytes ++ rest) = decode strict bound bytes := by
  generalize hresult : decode strict bound bytes = result at hread
  apply decodes_iff.1
  cases decodes_iff.2 hresult with
  | truncated hrun hroom => exact absurd rfl hread
  | tooLong behind hrun hlong =>
    rw [List.append_assoc]
    exact .tooLong _ hrun hlong
  | nonMinimal behind hstrict hword hfront =>
    rw [List.append_assoc]
    exact .nonMinimal _ hstrict hword hfront
  | exceeds behind hword hbound =>
    rw [List.append_assoc]
    exact .exceeds _ hword hbound
  | found behind hword hbound =>
    rw [List.append_assoc]
    exact .found _ hword hbound

theorem size_maxTag : size maxTag = 5 := by decide

/-- A run that may still be completed within 32 bits begins the encoding of some tag: a last byte
    of one completes it. -/
theorem exists_encode_of_unfinished {bytes : Octets} (hrun : Unfinished bytes)
    (hroom : bytes.length < size maxTag) :
    ∃ n, n ≤ maxTag ∧ ∃ back, back ≠ [] ∧ encode n = bytes ++ back := by
  have hpow : 128 ^ bytes.length ≤ 128 ^ 4 := by
    rw [size_maxTag] at hroom
    exact Nat.pow_le_pow_right (by omega) (by omega)
  have hgroups := groups_lt bytes
  refine ⟨groups bytes + 128 ^ bytes.length * 1, ?_, encode 1, ?_, ?_⟩
  · rw [maxTag]
    omega
  · rw [encode_of_lt (by omega)]
    simp
  · exact encode_groups hrun fun _ => Nat.one_pos

end CryptoIntrinsics.Varint
