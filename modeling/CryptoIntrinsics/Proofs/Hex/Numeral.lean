import CryptoIntrinsics.Proofs.Hex.Pairs
import CryptoIntrinsics.Proofs.Rsa.Numeral
import Mathlib.Data.Nat.Digits.Lemmas

namespace CryptoIntrinsics.Hex

/-- The texts are the same but for the letter case of digits. -/
def SameDigits : Octets → Octets → Prop :=
  List.Forall₂ fun b c => b = c ∨ ∃ value, IsDigit b value ∧ IsDigit c value

/-- The text is digits, most significant first, of a number. -/
def Denotes (text : Octets) (n : Nat) : Prop :=
  ∃ digits, List.Forall₂ IsDigit text digits ∧ n = Nat.ofDigits 16 digits.reverse

variable {text other : Octets}

theorem IsDigit.unique {b : UInt8} {value value' : Nat} (hdigit : IsDigit b value)
    (hother : IsDigit b value') : value = value' := by
  have hvalue := nibble?_eq_some_iff.2 hdigit
  rw [nibble?_eq_some_iff.2 hother] at hvalue
  exact (Option.some.inj hvalue).symm

theorem isDigit_zero_iff {b : UInt8} : IsDigit b 0 ↔ b = 0x30 := by
  rw [← UInt8.toNat_inj]
  exact ⟨fun ⟨_, hcase⟩ => hcase.elim id id, fun hzero => ⟨by decide, .inl hzero⟩⟩

theorem isDigit_code {value : Nat} (hlt : value < 16) :
    IsDigit (UInt8.ofNat (digit value).toNat) value := by
  obtain ⟨hlower, -⟩ := toNat_digit value hlt
  refine ⟨hlt, .inl ?_⟩
  rw [UInt8.toNat_ofNat', hlower]
  split <;> omega

section Spelling

theorem nibble?_eq_of_sameDigits {b c : UInt8}
    (hsame : b = c ∨ ∃ value, IsDigit b value ∧ IsDigit c value) :
    nibble? b.toNat = nibble? c.toNat := by
  obtain rfl | ⟨value, hb, hc⟩ := hsame
  · rfl
  · rw [nibble?_eq_some_iff.2 hb, nibble?_eq_some_iff.2 hc]

theorem SameDigits.pairs?_eq : ∀ {text other : Octets} (seen : Octets), SameDigits text other →
    pairs? seen (text.map (·.toNat)) = pairs? seen (other.map (·.toNat))
  | _, _, _, .nil => rfl
  | _, _, _, .cons _ .nil => rfl
  | _, _, seen, .cons hhigh (.cons hlow hrest) => by
    simp only [List.map_cons, pairs?]
    rw [nibble?_eq_of_sameDigits hhigh, nibble?_eq_of_sameDigits hlow]
    split
    · exact SameDigits.pairs?_eq _ hrest
    · rfl

/-- The letter case of digits makes no difference to what is read. -/
theorem SameDigits.decode_eq (hsame : SameDigits text other) : decode text = decode other := by
  rw [decode, decode, hsame.length_eq, SameDigits.pairs?_eq [] hsame]

theorem SameDigits.head?_eq_zero_iff (hsame : SameDigits text other) :
    text.head? = some 0x30 ↔ other.head? = some 0x30 := by
  cases hsame with
  | nil => rfl
  | cons hhead _ =>
    rw [List.head?_cons, List.head?_cons, Option.some_inj, Option.some_inj]
    obtain rfl | ⟨value, hb, hc⟩ := hhead
    · rfl
    · rw [← isDigit_zero_iff, ← isDigit_zero_iff]
      constructor
      · intro hzero
        rwa [hb.unique hzero] at hc
      · intro hzero
        rwa [hc.unique hzero] at hb

theorem sameDigits_of_forall₂ {digits : List Nat} (htext : List.Forall₂ IsDigit text digits)
    (hother : List.Forall₂ IsDigit other digits) : SameDigits text other := by
  induction htext generalizing other with
  | nil =>
    cases hother
    exact .nil
  | cons hb _ ih =>
    cases hother with
    | cons hc hrest => exact .cons (.inr ⟨_, hb, hc⟩) (ih hrest)

end Spelling

section Number

variable {n : Nat}

theorem toNat_join {high low : Nat} (hhigh : high < 16) (hlow : low < 16) :
    (join high low).toNat = 16 * high + low := by
  rw [join, UInt8.toNat_ofNat', Nat.mod_eq_of_lt (by omega)]

/-- What digit pairs write and what the digits denote is the same number. -/
theorem Writes.denotes {bytes : Octets} (hwrites : Writes text bytes) :
    Denotes text bytes.toNat := by
  induction hwrites with
  | nil => exact ⟨[], .nil, rfl⟩
  | @pair high low h l text bytes hhigh hlow hrest ih =>
    obtain ⟨digits, hdigits, hnumber⟩ := ih
    have hlength : digits.length = 2 * bytes.length := by
      rw [← hdigits.length_eq, hrest.length_eq]
    refine ⟨h :: l :: digits, .cons hhigh (.cons hlow hdigits), ?_⟩
    rw [Octets.toNat_cons, toNat_join hhigh.1 hlow.1, hnumber, List.reverse_cons, List.reverse_cons,
      List.append_assoc, Nat.ofDigits_append, List.length_reverse, hlength, Nat.pow_mul,
      List.singleton_append, Nat.ofDigits_cons, Nat.ofDigits_singleton]
    ring

theorem forall_lt_of_forall₂ {digits : List Nat} (hdigits : List.Forall₂ IsDigit text digits) :
    ∀ value ∈ digits, value < 16 := by
  induction hdigits with
  | nil => exact nofun
  | cons hdigit _ ih => exact List.forall_mem_cons.2 ⟨hdigit.1, ih⟩

theorem exists_isDigit_of_forall₂ {digits : List Nat} (hdigits : List.Forall₂ IsDigit text digits) :
    ∀ b ∈ text, ∃ value, IsDigit b value := by
  induction hdigits with
  | nil => exact nofun
  | cons hdigit _ ih => exact List.forall_mem_cons.2 ⟨⟨_, hdigit⟩, ih⟩

/-- Without a zero digit in front, the digits of a text are all digits of the number. -/
theorem denotes_iff (hlead : text.head? ≠ some 0x30) :
    Denotes text n ↔ List.Forall₂ IsDigit text (Nat.digits 16 n).reverse := by
  constructor
  · rintro ⟨digits, hdigits, rfl⟩
    have hlast (hsome : digits.reverse ≠ []) : digits.reverse.getLast hsome ≠ 0 := by
      cases hdigits with
      | nil => exact absurd rfl hsome
      | cons hdigit _ =>
        rw [List.getLast_reverse, List.head_cons]
        rintro rfl
        exact hlead (congrArg some (isDigit_zero_iff.1 hdigit))
    have hlt : ∀ value ∈ digits.reverse, value < 16 := fun value hvalue =>
      forall_lt_of_forall₂ hdigits value (List.mem_reverse.1 hvalue)
    rwa [Nat.digits_ofDigits 16 (by decide) _ hlt hlast, List.reverse_reverse]
  · intro hdigits
    exact ⟨_, hdigits, by rw [List.reverse_reverse, Nat.ofDigits_digits]⟩

/-- The digits of a positive number are a text without a zero digit in front. -/
theorem exists_forall₂_digits (hpos : 0 < n) :
    ∃ text, text.head? ≠ some 0x30 ∧ List.Forall₂ IsDigit text (Nat.digits 16 n).reverse := by
  have hdigits : ∀ value ∈ (Nat.digits 16 n).reverse, value < 16 := fun value hvalue =>
    Nat.digits_lt_base (by decide) (List.mem_reverse.1 hvalue)
  have hlead : ∀ value ∈ (Nat.digits 16 n).reverse.head?, value ≠ 0 := by
    intro value hvalue
    rw [List.head?_reverse, List.getLast?_eq_getLast_of_ne_nil
      (Nat.digits_ne_nil_iff_ne_zero.2 hpos.ne')] at hvalue
    cases hvalue
    exact Nat.getLast_digit_ne_zero 16 hpos.ne'
  generalize (Nat.digits 16 n).reverse = digits at hdigits hlead
  refine ⟨digits.map fun value => UInt8.ofNat (digit value).toNat, ?_, ?_⟩
  · cases digits with
    | nil => exact nofun
    | cons value rest =>
      intro hzero
      have hcode : UInt8.ofNat (digit value).toNat = 0x30 := Option.some.inj hzero
      have hdigit := isDigit_code (hdigits value List.mem_cons_self)
      rw [hcode] at hdigit
      exact hlead value rfl (hdigit.unique (isDigit_zero_iff.2 rfl))
  · rw [List.forall₂_map_left_iff, List.forall₂_same]
    exact fun value hvalue => isDigit_code (hdigits value hvalue)

end Number

end CryptoIntrinsics.Hex
