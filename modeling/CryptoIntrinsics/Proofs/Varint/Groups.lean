import CryptoIntrinsics.Varint
import Mathlib.Algebra.Group.Nat.Defs

namespace CryptoIntrinsics.Varint

/-- The number whose seven-bit groups the bytes hold, least significant first. -/
def groups : Octets → Nat
  | [] => 0
  | b :: rest => b.toNat % 128 + 128 * groups rest

/-- Every one of the bytes asks for another one, so that no integer ends among them. -/
def Unfinished (bytes : Octets) : Prop := ∀ b ∈ bytes, 128 ≤ b.toNat

theorem unfinished_nil : Unfinished [] := List.forall_mem_nil _

theorem unfinished_cons {b : UInt8} {rest : Octets} :
    Unfinished (b :: rest) ↔ 128 ≤ b.toNat ∧ Unfinished rest := List.forall_mem_cons

theorem groups_append (front back : Octets) :
    groups (front ++ back) = groups front + 128 ^ front.length * groups back := by
  induction front with
  | nil => simp [groups]
  | cons b front ih =>
    have hpow : 128 ^ (front.length + 1) * groups back =
        128 * (128 ^ front.length * groups back) := by
      rw [Nat.pow_succ, Nat.mul_comm _ 128, Nat.mul_assoc]
    simp only [List.cons_append, groups, ih, List.length_cons, hpow]
    omega

/-- Empty groups write nothing. -/
theorem groups_replicate (k : Nat) : groups (List.replicate k 128) = 0 := by
  induction k with
  | zero => rfl
  | succ k ih =>
    rw [List.replicate_succ, groups, ih]
    rfl

theorem groups_lt (bytes : Octets) : groups bytes < 128 ^ bytes.length := by
  induction bytes with
  | nil => simp [groups]
  | cons b rest ih =>
    simp only [groups, List.length_cons, Nat.pow_succ]
    omega

/-- Either no byte ends an integer, or the bytes begin with a run that does not and a byte that
    does. -/
theorem unfinished_or_split (bytes : Octets) :
    Unfinished bytes ∨ ∃ front last rest,
      bytes = front ++ last :: rest ∧ Unfinished front ∧ last.toNat < 128 := by
  induction bytes with
  | nil => exact .inl unfinished_nil
  | cons b tail ih =>
    by_cases hb : b.toNat < 128
    · exact .inr ⟨[], b, tail, rfl, unfinished_nil, hb⟩
    · obtain hrun | ⟨front, last, rest, htail, hrun, hlast⟩ := ih
      · exact .inl (unfinished_cons.2 ⟨by omega, hrun⟩)
      · exact .inr ⟨b :: front, last, rest, by rw [htail]; rfl,
          unfinished_cons.2 ⟨by omega, hrun⟩, hlast⟩

/-- An integer needs no more than `k` bytes exactly when it has no more than `k` groups. -/
theorem size_le_iff {n k : Nat} (hk : 0 < k) : size n ≤ k ↔ n < 128 ^ k := by
  have hpow : 2 ^ (7 * k) = 128 ^ k := Nat.pow_mul 2 7 k
  rw [← hpow]
  by_cases hn : n = 0
  · subst hn
    have hpos := Nat.two_pow_pos (7 * k)
    simp only [size, bitLength, if_pos]
    omega
  · rw [← Nat.log2_lt hn]
    simp only [size, bitLength, if_neg hn]
    omega

theorem size_pos (n : Nat) : 0 < size n := Nat.lt_of_lt_of_le Nat.one_pos (Nat.le_max_left _ _)

theorem size_mono {m n : Nat} (hle : m ≤ n) : size m ≤ size n :=
  (size_le_iff (size_pos n)).2 (Nat.lt_of_le_of_lt hle ((size_le_iff (size_pos n)).1 (Nat.le_refl _)))

theorem size_of_le {n : Nat} (hn : 128 ≤ n) : size n = size (n / 128) + 1 := by
  have hdiv (k : Nat) : n < 128 ^ (k + 1) ↔ n / 128 < 128 ^ k := by
    rw [Nat.pow_succ, Nat.div_lt_iff_lt_mul (by omega)]
  have hupper : size n ≤ size (n / 128) + 1 := by
    rw [size_le_iff (by omega), hdiv]
    exact (size_le_iff (size_pos _)).1 (Nat.le_refl _)
  have htwo : ¬ size n ≤ 1 := by
    rw [size_le_iff (by omega)]
    omega
  obtain ⟨k, hk⟩ : ∃ k, size n = k + 1 := ⟨size n - 1, by omega⟩
  have hlower : size (n / 128) ≤ k := by
    rw [size_le_iff (by omega), ← hdiv, ← size_le_iff (by omega)]
    omega
  omega

@[simp] theorem length_encode (n : Nat) : (encode n).length = size n := by
  induction n using Nat.strongRecOn with
  | ind n ih =>
    by_cases hn : n < 128
    · have hone : size n ≤ 1 := (size_le_iff (by omega)).2 (by omega)
      have hpos := size_pos n
      rw [encode_of_lt hn, List.length_singleton]
      omega
    · have hsize := size_of_le (n := n) (by omega)
      rw [encode_of_le (by omega), List.length_cons, ih (n / 128) (by omega), hsize]

theorem size_eq_of_encode {n : Nat} {front : Octets} {last : UInt8}
    (hencode : encode n = front ++ [last]) : size n = front.length + 1 := by
  rw [← length_encode, hencode, List.length_append, List.length_singleton]

theorem encode_toNat {b : UInt8} (hb : b.toNat < 128) : encode b.toNat = [b] := by
  rw [encode_of_lt hb, UInt8.ofNat_toNat]

/-- Groups in front of a positive number are written as the bytes they came from, so that an
    unfinished run is completed by the encoding of any positive number. -/
theorem encode_groups {front : Octets} (hrun : Unfinished front) {m : Nat}
    (hm : front ≠ [] → 0 < m) :
    encode (groups front + 128 ^ front.length * m) = front ++ encode m := by
  induction front with
  | nil => simp [groups]
  | cons b front ih =>
    obtain ⟨hb, hrun⟩ := unfinished_cons.1 hrun
    have hpos : 0 < 128 ^ front.length * m :=
      Nat.mul_pos (Nat.pow_pos (by omega)) (hm (by simp))
    have hvalue : groups (b :: front) + 128 ^ (b :: front).length * m =
        b.toNat % 128 + 128 * (groups front + 128 ^ front.length * m) := by
      have hpow : 128 ^ (front.length + 1) * m = 128 * (128 ^ front.length * m) := by
        rw [Nat.pow_succ, Nat.mul_comm _ 128, Nat.mul_assoc]
      simp only [groups, List.length_cons, hpow]
      omega
    have hbyte : UInt8.ofNat (b.toNat % 128 + 128) = b := by
      have hlt := b.toNat_lt
      rw [show b.toNat % 128 + 128 = b.toNat by omega, UInt8.ofNat_toNat]
    rw [hvalue, encode_of_le (by omega)]
    rw [show (b.toNat % 128 + 128 * (groups front + 128 ^ front.length * m)) % 128 =
      b.toNat % 128 by omega, hbyte]
    rw [show (b.toNat % 128 + 128 * (groups front + 128 ^ front.length * m)) / 128 =
      groups front + 128 ^ front.length * m by omega]
    rw [ih hrun fun _ => hm (by simp)]
    rfl

/-- A run and a last byte are the encoding of what they write, unless the last byte stands behind
    others and adds nothing. -/
theorem encode_groups_append {front : Octets} (hrun : Unfinished front) {last : UInt8}
    (hlast : last.toNat < 128) (hpos : front ≠ [] → 0 < last.toNat) :
    encode (groups (front ++ [last])) = front ++ [last] := by
  have hvalue : groups (front ++ [last]) = groups front + 128 ^ front.length * last.toNat := by
    rw [groups_append]
    simp only [groups]
    rw [Nat.mul_zero, Nat.add_zero, Nat.mod_eq_of_lt hlast]
  rw [hvalue, encode_groups hrun hpos, encode_toNat hlast]

/-- An encoding is an unfinished run and a last byte, which is zero only if it stands alone. -/
theorem encode_eq_append (n : Nat) :
    ∃ front last, encode n = front ++ [last] ∧ Unfinished front ∧ last.toNat < 128 ∧
      (front ≠ [] → 0 < last.toNat) := by
  induction n using Nat.strongRecOn with
  | ind n ih =>
    by_cases hn : n < 128
    · refine ⟨[], UInt8.ofNat n, encode_of_lt hn, unfinished_nil, ?_, by simp⟩
      rw [UInt8.toNat_ofNat']
      omega
    · obtain ⟨front, last, htail, hrun, hlast, hpos⟩ := ih (n / 128) (by omega)
      refine ⟨UInt8.ofNat (n % 128 + 128) :: front, last, ?_, ?_, hlast, ?_⟩
      · rw [encode_of_le (by omega), htail]
        rfl
      · refine unfinished_cons.2 ⟨?_, hrun⟩
        rw [UInt8.toNat_ofNat']
        omega
      · intro _
        -- A byte alone behind the first one is the whole quotient, which is not zero here.
        by_cases hfront : front = []
        · subst hfront
          have hsmall : n / 128 = last.toNat := by
            by_cases hq : n / 128 < 128
            · rw [encode_of_lt hq, List.nil_append, List.singleton_inj] at htail
              rw [← htail, UInt8.toNat_ofNat']
              omega
            · have hlen := congrArg List.length htail
              have htwo := size_of_le (n := n / 128) (by omega)
              have hone := size_pos (n / 128 / 128)
              rw [length_encode] at hlen
              simp at hlen
              omega
          omega
        · exact hpos hfront

theorem groups_encode (n : Nat) : groups (encode n) = n := by
  induction n using Nat.strongRecOn with
  | ind n ih =>
    by_cases hn : n < 128
    · rw [encode_of_lt hn]
      simp only [groups, UInt8.toNat_ofNat']
      omega
    · rw [encode_of_le (by omega)]
      simp only [groups, UInt8.toNat_ofNat', ih (n / 128) (by omega)]
      omega

section Walk

variable (strict : Bool) (bound : Int) {front : Octets}

/-- While the run stays below the most bytes that the bound can need, decoding only gathers its
    groups. -/
theorem decodeTail_append (hrun : Unfinished front) (n used : Nat) (rest : Octets)
    (hroom : front ≠ [] → used + front.length < size bound.natAbs) :
    decodeTail strict bound n used (front ++ rest) =
      decodeTail strict bound (n + groups front * 128 ^ used) (used + front.length) rest := by
  induction front generalizing n used with
  | nil => simp [groups]
  | cons b front ih =>
    obtain ⟨hb, hrun⟩ := unfinished_cons.1 hrun
    have hroom : used + (front.length + 1) < size bound.natAbs := hroom (by simp)
    have hpow : 2 ^ (7 * used) = 128 ^ used := Nat.pow_mul 2 7 used
    rw [List.cons_append, decodeTail, if_neg (by omega), if_neg (by omega)]
    rw [ih hrun _ _ fun _ => by omega, List.length_cons, Nat.shiftLeft_eq, hpow]
    congr 1
    · rw [groups, Nat.add_mul, Nat.pow_succ, Nat.add_assoc, Nat.mul_comm 128 (groups front),
        Nat.mul_assoc, Nat.mul_comm 128]
    · omega

/-- A run that reaches the most bytes that the bound can need is refused for that alone. -/
theorem decodeTail_of_tooLong (hrun : Unfinished front) (n used : Nat) (rest : Octets)
    (hfront : front ≠ []) (hlong : size bound.natAbs ≤ used + front.length) :
    decodeTail strict bound n used (front ++ rest) = .error .tooLong := by
  induction front generalizing n used with
  | nil => exact absurd rfl hfront
  | cons b front ih =>
    obtain ⟨hb, hrun⟩ := unfinished_cons.1 hrun
    rw [List.length_cons] at hlong
    rw [List.cons_append, decodeTail, if_neg (by omega)]
    by_cases hend : size bound.natAbs ≤ used + 1
    · rw [if_pos hend]
    · have hmore : front ≠ [] := by
        intro hnil
        rw [hnil, List.length_nil] at hlong
        omega
      rw [if_neg hend, ih hrun _ _ hmore (by omega)]

theorem decode_of_tooLong (hrun : Unfinished front) (rest : Octets)
    (hlong : size bound.natAbs ≤ front.length) :
    decode strict bound (front ++ rest) = .error .tooLong := by
  have hfront : front ≠ [] := by
    intro hnil
    have hpos := size_pos bound.natAbs
    rw [hnil, List.length_nil] at hlong
    omega
  exact decodeTail_of_tooLong strict bound hrun 0 0 rest hfront (by omega)

theorem decode_of_unfinished (hrun : Unfinished front) (hroom : front.length < size bound.natAbs) :
    decode strict bound front = .error .truncated := by
  have hwalk := decodeTail_append strict bound hrun 0 0 [] fun _ => by omega
  rw [List.append_nil] at hwalk
  rw [decode, hwalk, decodeTail]

/-- What becomes of a run that ends in time: a byte that adds nothing is refused when strict, then
    a value above the bound, and what remains is the number that the groups write. -/
theorem decode_append_cons (hrun : Unfinished front) {last : UInt8} (hlast : last.toNat < 128)
    (rest : Octets) (hroom : front.length < size bound.natAbs) :
    decode strict bound (front ++ last :: rest) =
      if strict = true ∧ last.toNat = 0 ∧ front ≠ [] then .error .nonMinimal
      else if bound < (groups (front ++ [last]) : Nat) then
        .error (.exceeds (groups (front ++ [last])))
      else .ok (groups (front ++ [last]), front.length + 1) := by
  have hvalue : groups front + (last.toNat % 128) <<< (7 * front.length) =
      groups (front ++ [last]) := by
    have hpow : 2 ^ (7 * front.length) = 128 ^ front.length := Nat.pow_mul 2 7 front.length
    rw [groups_append, Nat.shiftLeft_eq, hpow]
    simp only [groups]
    rw [Nat.mul_zero, Nat.add_zero, Nat.mul_comm (128 ^ _)]
  have hwalk := decodeTail_append strict bound hrun 0 0 (last :: rest) fun _ => by omega
  rw [Nat.pow_zero, Nat.mul_one, Nat.zero_add, Nat.zero_add] at hwalk
  rw [decode, hwalk, decodeTail, if_pos hlast]
  simp only [hvalue, List.length_pos_iff]

end Walk

/-- A run and the byte that ends it, which are as many as `most` bytes at most. Strictly, the byte
    adds something unless it stands alone. -/
structure Word (strict : Bool) (most : Nat) (front : Octets) (last : UInt8) : Prop where
  unfinished : Unfinished front
  last_lt : last.toNat < 128
  length_lt : front.length < most
  minimal : strict = true → front ≠ [] → 0 < last.toNat

theorem Word.not_padded {strict : Bool} {most : Nat} {front : Octets} {last : UInt8}
    (hword : Word strict most front last) :
    ¬ (strict = true ∧ last.toNat = 0 ∧ front ≠ []) := by
  rintro ⟨hstrict, hzero, hfront⟩
  have hpos := hword.minimal hstrict hfront
  omega

/-- An encoding is a word, whether padding is refused or not. -/
theorem exists_word_encode (strict : Bool) {n most : Nat} (hsize : size n ≤ most) :
    ∃ front last, encode n = front ++ [last] ∧ Word strict most front last := by
  obtain ⟨front, last, hencode, hrun, hlast, hpos⟩ := encode_eq_append n
  have hlength := size_eq_of_encode hencode
  exact ⟨front, last, hencode, hrun, hlast, by omega, fun _ => hpos⟩

/-- Strictly, a word is an encoding. -/
theorem Word.encode_eq {most : Nat} {front : Octets} {last : UInt8}
    (hword : Word true most front last) :
    encode (groups (front ++ [last])) = front ++ [last] :=
  encode_groups_append hword.unfinished hword.last_lt (hword.minimal rfl)

theorem Word.size_eq {most : Nat} {front : Octets} {last : UInt8}
    (hword : Word true most front last) : size (groups (front ++ [last])) = front.length + 1 :=
  size_eq_of_encode hword.encode_eq

/-- The ways in which decoding ends. A run that does not end in time is judged by its length alone,
    and one that does by its last byte first and then by what it writes. -/
inductive Decodes (strict : Bool) (bound : Int) : Octets → Except Flaw (Nat × Nat) → Prop where
  | truncated {front : Octets} (hrun : Unfinished front)
      (hroom : front.length < size bound.natAbs) : Decodes strict bound front (.error .truncated)
  | tooLong {front : Octets} (rest : Octets) (hrun : Unfinished front)
      (hlong : size bound.natAbs ≤ front.length) :
      Decodes strict bound (front ++ rest) (.error .tooLong)
  | nonMinimal {front : Octets} (rest : Octets) (hstrict : strict = true)
      (hword : Word false (size bound.natAbs) front 0) (hfront : front ≠ []) :
      Decodes strict bound (front ++ 0 :: rest) (.error .nonMinimal)
  | exceeds {front : Octets} {last : UInt8} (rest : Octets)
      (hword : Word strict (size bound.natAbs) front last)
      (hbound : bound < (groups (front ++ [last]) : Nat)) :
      Decodes strict bound (front ++ last :: rest)
        (.error (.exceeds (groups (front ++ [last]))))
  | found {front : Octets} {last : UInt8} (rest : Octets)
      (hword : Word strict (size bound.natAbs) front last)
      (hbound : ((groups (front ++ [last]) : Nat) : Int) ≤ bound) :
      Decodes strict bound (front ++ last :: rest)
        (.ok (groups (front ++ [last]), front.length + 1))

/-- Decoding ends in just one of these ways. -/
theorem decodes_iff {strict : Bool} {bound : Int} {bytes : Octets}
    {result : Except Flaw (Nat × Nat)} :
    Decodes strict bound bytes result ↔ decode strict bound bytes = result := by
  constructor
  · intro hdecodes
    cases hdecodes with
    | truncated hrun hroom => exact decode_of_unfinished strict bound hrun hroom
    | tooLong rest hrun hlong => exact decode_of_tooLong strict bound hrun rest hlong
    | nonMinimal rest hstrict hword hfront =>
      rw [decode_append_cons strict bound hword.unfinished hword.last_lt rest hword.length_lt]
      exact if_pos ⟨hstrict, rfl, hfront⟩
    | exceeds rest hword hbound =>
      rw [decode_append_cons strict bound hword.unfinished hword.last_lt rest hword.length_lt,
        if_neg hword.not_padded, if_pos hbound]
    | found rest hword hbound =>
      rw [decode_append_cons strict bound hword.unfinished hword.last_lt rest hword.length_lt,
        if_neg hword.not_padded, if_neg (Int.not_lt.2 hbound)]
  · rintro rfl
    obtain hrun | ⟨front, last, rest, rfl, hrun, hlast⟩ := unfinished_or_split bytes
    · by_cases hroom : bytes.length < size bound.natAbs
      · rw [decode_of_unfinished strict bound hrun hroom]
        exact .truncated hrun hroom
      · have hlong := Nat.le_of_not_lt hroom
        have hdecode := decode_of_tooLong strict bound hrun [] hlong
        have hdecodes : Decodes strict bound (bytes ++ []) _ := .tooLong [] hrun hlong
        rw [List.append_nil] at hdecode hdecodes
        rwa [hdecode]
    · by_cases hroom : front.length < size bound.natAbs
      · rw [decode_append_cons strict bound hrun hlast rest hroom]
        split
        · next hpadded =>
          obtain ⟨hstrict, hzero, hfront⟩ := hpadded
          obtain rfl : last = 0 := UInt8.toNat_inj.1 hzero
          exact .nonMinimal rest hstrict ⟨hrun, hlast, hroom, nofun⟩ hfront
        · next hminimal =>
          have hword : Word strict (size bound.natAbs) front last :=
            ⟨hrun, hlast, hroom, fun hstrict hfront =>
              Nat.pos_of_ne_zero fun hzero => hminimal ⟨hstrict, hzero, hfront⟩⟩
          split
          · next hbound => exact .exceeds rest hword hbound
          · next hbound => exact .found rest hword (Int.not_lt.1 hbound)
      · rw [decode_of_tooLong strict bound hrun _ (Nat.le_of_not_lt hroom)]
        exact .tooLong _ hrun (Nat.le_of_not_lt hroom)

end CryptoIntrinsics.Varint
