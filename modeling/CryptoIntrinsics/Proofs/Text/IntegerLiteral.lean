import CryptoIntrinsics.Proofs.Hex.Spaced
import CryptoIntrinsics.Text.IntegerLiteral
import Mathlib.Data.Nat.Digits.Lemmas

namespace CryptoIntrinsics.Text.IntegerLiteral

theorem isWritable_iff {n : Int} : isWritable n = true ↔ n.natAbs < 10 ^ maxDecimalDigits := by
  have hdigits := @Nat.length_toDigits_le_iff 10 n.natAbs maxDecimalDigits (by decide) (by decide)
  rw [isWritable, decide_eq_true_iff, hdigits]

theorem isWritable_of_le {m n : Int} (hle : m.natAbs ≤ n.natAbs) (hn : isWritable n = true) :
    isWritable m = true := isWritable_iff.2 (Nat.lt_of_le_of_lt hle (isWritable_iff.1 hn))

/-- A character and the one of ASCII that it stands for in a literal. -/
inductive StandsFor : Char → Char → Prop where
  | ascii {c : Char} (hascii : c.toNat < 128) : StandsFor c c
  | blank {c : Char} (hother : 128 ≤ c.toNat) (hblank : isBlank c = true) : StandsFor c ' '
  | digit {c : Char} {value : Nat} (hdigit : decimalDigit? c = some value) :
      StandsFor c (Hex.digit value)

/-- Digits, and single underscores between them, with the values of the digits. -/
inductive Groups : List Char → List Nat → Prop where
  | last {c : Char} {value : Nat} (hdigit : Hex.IsDigitChar c value) : Groups [c] [value]
  | digit {c : Char} {value : Nat} {text : List Char} {values : List Nat}
      (hdigit : Hex.IsDigitChar c value) (hrest : Groups text values) :
      Groups (c :: text) (value :: values)
  | underscore {c : Char} {value : Nat} {text : List Char} {values : List Nat}
      (hdigit : Hex.IsDigitChar c value) (hrest : Groups text values) :
      Groups (c :: '_' :: text) (value :: values)

/-- The letters of base markers, each with its base. -/
def markers : List (Char × Nat) :=
  [('x', 16), ('X', 16), ('o', 8), ('O', 8), ('b', 2), ('B', 2)]

/-- A literal without its sign, and its value: at most 4300 decimal digits, which begin with a zero
    only if all of them are zeros, or digits of another base behind its marker. -/
inductive Magnitude : List Char → Nat → Prop where
  | decimal {text : List Char} {values : List Nat} (hgroups : Groups text values)
      (hbase : ∀ value ∈ values, value < 10) (hlength : values.length ≤ 4300)
      (hlead : values.head? = some 0 → ∀ value ∈ values, value = 0) :
      Magnitude text (Nat.ofDigits 10 values.reverse)
  | marked {letter : Char} {base : Nat} {front text : List Char} {values : List Nat}
      (hmarker : (letter, base) ∈ markers) (hfront : front = [] ∨ front = ['_'])
      (hgroups : Groups text values) (hbase : ∀ value ∈ values, value < base) :
      Magnitude ('0' :: letter :: (front ++ text)) (Nat.ofDigits base values.reverse)

/-- A literal without blanks around it, and its value. -/
inductive Signed : List Char → Int → Prop where
  | plain {text : List Char} {n : Nat} (hmagnitude : Magnitude text n) : Signed text n
  | plus {text : List Char} {n : Nat} (hmagnitude : Magnitude text n) : Signed ('+' :: text) n
  | minus {text : List Char} {n : Nat} (hmagnitude : Magnitude text n) : Signed ('-' :: text) (-n)

/-- A literal with blanks around it, where characters may stand for those of ASCII, and its
    value. -/
def Denotes (text : List Char) (n : Int) : Prop :=
  ∃ front body back, List.Forall₂ StandsFor text (front ++ body ++ back) ∧
    (∀ c ∈ front, Hex.isGap c = true) ∧ (∀ c ∈ back, Hex.isGap c = true) ∧ Signed body n

section Characters

variable {c a : Char} {value : Nat}

theorem gap_zeroDigits : ∀ start ∈ zeroDigits, 0x660 ≤ start ∧ start + 9 < 0x1680 ∨
    0x1680 < start ∧ start + 9 < 0x2000 ∨ 0x3000 < start := by
  decide

/-- No digit of another script is a blank or of ASCII. -/
theorem le_of_decimalDigit? (hdigit : decimalDigit? c = some value) :
    128 ≤ c.toNat ∧ isBlank c = false := by
  obtain ⟨start, hfind, -⟩ := Option.map_eq_some_iff.1 hdigit
  have hstart := List.find?_some hfind
  have hgap := gap_zeroDigits start (List.mem_of_find?_eq_some hfind)
  rw [Bool.and_eq_true, decide_eq_true_eq, decide_eq_true_eq] at hstart
  refine ⟨by omega, ?_⟩
  rw [← Bool.not_eq_true]
  intro hblank
  simp only [isBlank, Bool.or_eq_true, Bool.and_eq_true, decide_eq_true_eq, beq_iff_eq] at hblank
  omega

theorem asciiForm?_eq_some_iff : asciiForm? c = some a ↔ StandsFor c a := by
  rw [asciiForm?]
  constructor
  · intro hform
    split at hform
    · next hascii =>
      cases hform
      exact .ascii hascii
    · next hother =>
      split at hform
      · next hblank =>
        cases hform
        exact .blank (Nat.not_lt.1 hother) hblank
      · obtain ⟨value, hdigit, rfl⟩ := Option.map_eq_some_iff.1 hform
        exact .digit hdigit
  · intro hstands
    cases hstands with
    | ascii hascii => rw [if_pos hascii]
    | blank hother hblank => rw [if_neg (Nat.not_lt.2 hother), if_pos hblank]
    | digit hdigit =>
      obtain ⟨hother, hblank⟩ := le_of_decimalDigit? hdigit
      rw [if_neg (Nat.not_lt.2 hother), hblank, if_neg Bool.false_ne_true, hdigit]
      rfl

theorem mapM_asciiForm?_eq_some_iff : ∀ {text ascii : List Char},
    text.mapM asciiForm? = some ascii ↔ List.Forall₂ StandsFor text ascii
  | [], ascii => by
    rw [List.mapM_nil, List.forall₂_nil_left_iff]
    exact ⟨fun h => (Option.some.inj h).symm, fun h => congrArg some h.symm⟩
  | c :: text, ascii => by
    rw [List.mapM_cons, List.forall₂_cons_left_iff]
    simp only [Option.bind_eq_bind, Option.bind_eq_some_iff, Option.pure_def, Option.some.injEq,
      asciiForm?_eq_some_iff, mapM_asciiForm?_eq_some_iff]
    constructor
    · rintro ⟨a, ha, rest, hrest, rfl⟩
      exact ⟨a, rest, ha, hrest, rfl⟩
    · rintro ⟨a, rest, ha, hrest, rfl⟩
      exact ⟨a, ha, rest, hrest, rfl⟩

theorem not_isDigitChar (hnone : Hex.nibble? c.toNat = none) : ¬ Hex.IsDigitChar c value := by
  rw [← Hex.nibble?_toNat_eq_some_iff, hnone]
  exact nofun

end Characters

section Digits

variable {text : List Char} {values : List Nat} {base n : Nat}

theorem Groups.ne_nil (hgroups : Groups text values) : values ≠ [] := by
  cases hgroups <;> exact List.cons_ne_nil _ _

theorem ungroup?_cons_cons {c d : Char} (hd : d ≠ '_') (rest : List Char) :
    ungroup? (c :: d :: rest) =
      (do return (← Hex.nibble? c.toNat) :: (← ungroup? (d :: rest)) : Option (List Nat)) := by
  rw [ungroup?]
  · nofun
  · rintro others ⟨⟩
    exact hd rfl

theorem ungroup?_eq_some_iff : ∀ {text : List Char} {values : List Nat},
    ungroup? text = some values ↔ Groups text values
  | [], values => ⟨nofun, nofun⟩
  | [c], values => by
    rw [ungroup?, Option.map_eq_some_iff]
    constructor
    · rintro ⟨value, hvalue, rfl⟩
      exact .last (Hex.nibble?_toNat_eq_some_iff.1 hvalue)
    · intro hgroups
      cases hgroups with
      | last hdigit => exact ⟨_, Hex.nibble?_toNat_eq_some_iff.2 hdigit, rfl⟩
      | digit _ hrest => cases hrest
  | c :: d :: rest, values => by
    by_cases hd : d = '_'
    · subst hd
      simp only [ungroup?, Option.bind_eq_bind, Option.bind_eq_some_iff, Option.pure_def,
        Option.some.injEq, ungroup?_eq_some_iff, Hex.nibble?_toNat_eq_some_iff]
      constructor
      · rintro ⟨value, hdigit, others, hrest, rfl⟩
        exact .underscore hdigit hrest
      · intro hgroups
        cases hgroups with
        | underscore hdigit hrest => exact ⟨_, hdigit, _, hrest, rfl⟩
        | digit _ hrest =>
          -- An underscore is no digit, so it begins no group.
          cases hrest with
          | last hother | digit hother | underscore hother =>
            exact absurd hother (not_isDigitChar rfl)
    · rw [ungroup?_cons_cons hd]
      simp only [Option.bind_eq_bind, Option.bind_eq_some_iff, Option.pure_def,
        Option.some.injEq, ungroup?_eq_some_iff, Hex.nibble?_toNat_eq_some_iff]
      constructor
      · rintro ⟨value, hdigit, others, hrest, rfl⟩
        exact .digit hdigit hrest
      · intro hgroups
        cases hgroups with
        | digit hdigit hrest => exact ⟨_, hdigit, _, hrest, rfl⟩
        | underscore => exact absurd rfl hd

theorem not_groups_underscore (text : List Char) (values : List Nat) :
    ¬ Groups ('_' :: text) values := by
  rintro (hdigit | hdigit | hdigit) <;> exact not_isDigitChar rfl hdigit

theorem foldl_eq_ofDigits (base : Nat) (values : List Nat) :
    values.foldl (fun n d => n * base + d) 0 = Nat.ofDigits base values.reverse := by
  rw [Nat.ofDigits_eq_foldr, List.foldr_reverse]
  congr 1
  funext n d
  rw [Nat.mul_comm, Nat.add_comm, Nat.cast_id]

theorem value?_eq_some_iff : value? base values = some n ↔
    (∀ value ∈ values, value < base) ∧ n = Nat.ofDigits base values.reverse := by
  rw [value?, Option.ite_none_right_eq_some, Option.some.injEq, foldl_eq_ofDigits, @eq_comm _ n]
  simp only [List.all_eq_true, decide_eq_true_eq]

/-- A numeral is zero when all of its digits are. -/
theorem ofDigits_eq_zero_iff (hbase : base ≠ 0) :
    Nat.ofDigits base values.reverse = 0 ↔ ∀ value ∈ values, value = 0 := by
  constructor
  · intro hzero value hvalue
    exact Nat.digits_zero_of_eq_zero hbase hzero value (List.mem_reverse.2 hvalue)
  · intro hzeros
    rw [List.eq_replicate_of_mem hzeros, List.reverse_replicate, Nat.ofDigits_replicate_zero]

theorem grouped_eq_some_iff : (do value? base (← ungroup? text)) = some n ↔
    ∃ values, Groups text values ∧ (∀ value ∈ values, value < base) ∧
      n = Nat.ofDigits base values.reverse := by
  simp only [Option.bind_eq_bind, Option.bind_eq_some_iff, ungroup?_eq_some_iff,
    value?_eq_some_iff]

theorem unmarked?_eq_some_iff : unmarked? text = some n ↔
    ∃ values, Groups text values ∧ (∀ value ∈ values, value < 10) ∧ values.length ≤ 4300 ∧
      (values.head? = some 0 → ∀ value ∈ values, value = 0) ∧
      n = Nat.ofDigits 10 values.reverse := by
  rw [unmarked?, Option.bind_eq_bind, Option.bind_eq_some_iff]
  refine exists_congr fun values => ?_
  rw [ungroup?_eq_some_iff, Option.ite_none_left_eq_some, Option.filter_eq_some_iff,
    value?_eq_some_iff, Nat.not_lt, Bool.or_eq_true, bne_iff_ne, beq_iff_eq, ← imp_iff_not_or]
  constructor
  · rintro ⟨hgroups, hlength, ⟨hbase, rfl⟩, hlead⟩
    exact ⟨hgroups, hbase, hlength, fun hhead =>
      (ofDigits_eq_zero_iff (by decide)).1 (hlead hhead), rfl⟩
  · rintro ⟨hgroups, hbase, hlength, hlead, rfl⟩
    exact ⟨hgroups, hlength, ⟨hbase, rfl⟩, fun hhead =>
      (ofDigits_eq_zero_iff (by decide)).2 (hlead hhead)⟩

theorem marked?_eq_some_iff : marked? base text = some n ↔
    ∃ front rest values, text = front ++ rest ∧ (front = [] ∨ front = ['_']) ∧
      Groups rest values ∧ (∀ value ∈ values, value < base) ∧
      n = Nat.ofDigits base values.reverse := by
  rw [marked?.eq_def]
  split
  · next rest =>
    rw [grouped_eq_some_iff]
    constructor
    · rintro ⟨values, hvalues⟩
      exact ⟨['_'], rest, values, rfl, .inr rfl, hvalues⟩
    · rintro ⟨front, others, values, htext, rfl | rfl, hgroups, hvalues⟩
      · rw [List.nil_append] at htext
        exact absurd (htext ▸ hgroups) (not_groups_underscore _ _)
      · obtain rfl : rest = others := (List.cons.inj htext).2
        exact ⟨values, hgroups, hvalues⟩
  · next hplain =>
    rw [grouped_eq_some_iff]
    constructor
    · rintro ⟨values, hvalues⟩
      exact ⟨[], text, values, rfl, .inl rfl, hvalues⟩
    · rintro ⟨front, others, values, htext, rfl | rfl, hgroups, hvalues⟩
      · exact ⟨values, htext ▸ hgroups, hvalues⟩
      · exact absurd htext (hplain others)

end Digits

section Signs

variable {letter : Char} {base n : Nat} {text rest : List Char}

theorem magnitude?_marked (hmarker : (letter, base) ∈ markers) (rest : List Char) :
    magnitude? ('0' :: letter :: rest) = marked? base rest := by
  simp only [markers, List.mem_cons, Prod.mk.injEq, List.not_mem_nil, or_false] at hmarker
  obtain ⟨rfl, rfl⟩ | ⟨rfl, rfl⟩ | ⟨rfl, rfl⟩ | ⟨rfl, rfl⟩ | ⟨rfl, rfl⟩ | ⟨rfl, rfl⟩ :=
    hmarker <;> rfl

theorem magnitude?_unmarked
    (hplain : ∀ letter base rest, text = '0' :: letter :: rest → (letter, base) ∉ markers) :
    magnitude? text = unmarked? text := by
  rw [magnitude?.eq_def]
  split
  · next letter rest =>
    have hletter : ∀ base, (letter, base) ∉ markers := fun base => hplain letter base rest rfl
    simp only [Bool.or_eq_true, decide_eq_true_eq]
    rw [if_neg, if_neg, if_neg]
    · rintro (rfl | rfl) <;> exact hletter 2 (by decide)
    · rintro (rfl | rfl) <;> exact hletter 8 (by decide)
    · rintro (rfl | rfl) <;> exact hletter 16 (by decide)
  · rfl

theorem letter_of_markers : ∀ marker ∈ markers, marker.1 ≠ '_' ∧
    ∀ value < 10, ¬ Hex.IsDigitChar marker.1 value := by
  decide

/-- No letter of a marker stands right behind the first digit of a decimal literal. -/
theorem not_marker_of_groups {values : List Nat} (hgroups : Groups ('0' :: letter :: rest) values)
    (hbase : ∀ value ∈ values, value < 10) : (letter, base) ∉ markers := by
  intro hmarker
  obtain ⟨hletter, hdigit⟩ := letter_of_markers _ hmarker
  cases hgroups with
  | digit _ hrest =>
    cases hrest with
    | last hother | digit hother | underscore hother =>
      exact hdigit _ (hbase _ (by simp)) hother
  | underscore => exact hletter rfl

theorem magnitude?_eq_some_iff : magnitude? text = some n ↔ Magnitude text n := by
  constructor
  · intro hread
    by_cases hmarked : ∃ letter base rest, text = '0' :: letter :: rest ∧ (letter, base) ∈ markers
    · obtain ⟨letter, base, rest, rfl, hmarker⟩ := hmarked
      rw [magnitude?_marked hmarker, marked?_eq_some_iff] at hread
      obtain ⟨front, rest, values, rfl, hfront, hgroups, hbase, rfl⟩ := hread
      exact .marked hmarker hfront hgroups hbase
    · rw [magnitude?_unmarked, unmarked?_eq_some_iff] at hread
      · obtain ⟨values, hgroups, hbase, hlength, hlead, rfl⟩ := hread
        exact .decimal hgroups hbase hlength hlead
      · intro letter base rest htext hmarker
        exact hmarked ⟨letter, base, rest, htext, hmarker⟩
  · intro hmagnitude
    cases hmagnitude with
    | decimal hgroups hbase hlength hlead =>
      rw [magnitude?_unmarked, unmarked?_eq_some_iff]
      · exact ⟨_, hgroups, hbase, hlength, hlead, rfl⟩
      · rintro letter base rest rfl
        exact not_marker_of_groups hgroups hbase
    | marked hmarker hfront hgroups hbase =>
      rw [magnitude?_marked hmarker, marked?_eq_some_iff]
      exact ⟨_, _, _, rfl, hfront, hgroups, hbase, rfl⟩

theorem Groups.isGap_eq {values : List Nat} (hgroups : Groups text values) :
    ∀ c ∈ text, Hex.isGap c = false := by
  induction hgroups with
  | last hdigit => exact List.forall_mem_singleton.2 hdigit.isGap_eq
  | digit hdigit _ ih => exact List.forall_mem_cons.2 ⟨hdigit.isGap_eq, ih⟩
  | underscore hdigit _ ih =>
    exact List.forall_mem_cons.2 ⟨hdigit.isGap_eq, List.forall_mem_cons.2 ⟨rfl, ih⟩⟩

theorem isGap_of_markers : ∀ marker ∈ markers, Hex.isGap marker.1 = false := by
  decide

theorem Magnitude.isGap_eq (hmagnitude : Magnitude text n) : ∀ c ∈ text, Hex.isGap c = false := by
  cases hmagnitude with
  | decimal hgroups => exact hgroups.isGap_eq
  | marked hmarker hfront hgroups =>
    refine List.forall_mem_cons.2 ⟨rfl, List.forall_mem_cons.2 ⟨isGap_of_markers _ hmarker, ?_⟩⟩
    refine List.forall_mem_append.2 ⟨?_, hgroups.isGap_eq⟩
    obtain rfl | rfl := hfront
    · exact nofun
    · exact List.forall_mem_singleton.2 rfl

theorem Magnitude.head (hmagnitude : Magnitude text n) :
    ∃ c rest value, text = c :: rest ∧ Hex.IsDigitChar c value := by
  cases hmagnitude with
  | decimal hgroups =>
    cases hgroups with
    | last hdigit | digit hdigit | underscore hdigit => exact ⟨_, _, _, rfl, hdigit⟩
  | marked => exact ⟨_, _, 0, rfl, by decide⟩

theorem Signed.isGap_eq {m : Int} (hsigned : Signed text m) : ∀ c ∈ text, Hex.isGap c = false := by
  cases hsigned with
  | plain hmagnitude => exact hmagnitude.isGap_eq
  | plus hmagnitude | minus hmagnitude =>
    exact List.forall_mem_cons.2 ⟨rfl, hmagnitude.isGap_eq⟩

/-- A literal without blanks around it. -/
def signed? : List Char → Option Int
  | '-' :: rest => return -(← magnitude? rest : Nat)
  | '+' :: rest => return (← magnitude? rest : Nat)
  | rest => return (← magnitude? rest : Nat)

theorem read?_eq (text : List Char) :
    read? text = (text.mapM asciiForm?).bind (signed? ∘ trimBy Hex.isGap) := rfl

theorem signed?_eq_some_iff {m : Int} : signed? text = some m ↔ Signed text m := by
  have hdone {rest : List Char} (value : Nat → Int) :
      (do return value (← magnitude? rest)) = some m ↔ ∃ n, Magnitude rest n ∧ value n = m := by
    simp only [Option.bind_eq_bind, Option.bind_eq_some_iff, Option.pure_def, Option.some.injEq,
      magnitude?_eq_some_iff]
  constructor
  · intro hread
    rw [signed?.eq_def] at hread
    split at hread
    · obtain ⟨n, hmagnitude, rfl⟩ := (hdone _).1 hread
      exact .minus hmagnitude
    · obtain ⟨n, hmagnitude, rfl⟩ := (hdone _).1 hread
      exact .plus hmagnitude
    · obtain ⟨n, hmagnitude, rfl⟩ := (hdone _).1 hread
      exact .plain hmagnitude
  · intro hsigned
    cases hsigned with
    | minus hmagnitude => exact (hdone _).2 ⟨_, hmagnitude, rfl⟩
    | plus hmagnitude => exact (hdone _).2 ⟨_, hmagnitude, rfl⟩
    | plain hmagnitude =>
      -- A digit is no sign.
      obtain ⟨c, rest, value, rfl, hdigit⟩ := hmagnitude.head
      rw [signed?]
      · exact (hdone _).2 ⟨_, hmagnitude, rfl⟩
      · rintro others ⟨⟩
        exact not_isDigitChar rfl hdigit
      · rintro others ⟨⟩
        exact not_isDigitChar rfl hdigit

end Signs

/-- The literals of an integer are read as it. -/
theorem read?_eq_some_iff {text : List Char} {n : Int} : read? text = some n ↔ Denotes text n := by
  rw [read?_eq, Option.bind_eq_some_iff]
  constructor
  · rintro ⟨ascii, hascii, hsigned⟩
    obtain ⟨front, back, htext, hfront, hback⟩ := exists_trimBy Hex.isGap ascii
    refine ⟨front, _, back, ?_, hfront, hback, signed?_eq_some_iff.1 hsigned⟩
    rw [← htext]
    exact mapM_asciiForm?_eq_some_iff.1 hascii
  · rintro ⟨front, body, back, hascii, hfront, hback, hsigned⟩
    refine ⟨_, mapM_asciiForm?_eq_some_iff.2 hascii, ?_⟩
    rw [Function.comp_apply, trimBy_append_append _ hfront hback, trimBy_eq_self hsigned.isGap_eq,
      signed?_eq_some_iff]
    exact hsigned

end CryptoIntrinsics.Text.IntegerLiteral
