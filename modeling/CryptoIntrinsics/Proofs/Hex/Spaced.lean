import CryptoIntrinsics.Proofs.Hex.Pairs
import CryptoIntrinsics.Proofs.Text.Trimming

namespace CryptoIntrinsics.Hex

open Text

/-- A character is the digit of a value, as it is printed or in upper case. -/
def IsDigitChar (c : Char) (value : Nat) : Prop :=
  value < 16 ∧ (c = digit value ∨ c = (digit value).toUpper)

instance (c : Char) (value : Nat) : Decidable (IsDigitChar c value) :=
  inferInstanceAs (Decidable (_ ∧ _))

/-- A text of digit pairs with gaps before, between and behind them, but none inside a pair, and the
    bytes that it writes. -/
inductive WritesSpaced : List Char → Octets → Prop where
  | nil : WritesSpaced [] []
  | gap {c : Char} {text : List Char} {bytes : Octets} (hgap : isGap c = true)
      (hrest : WritesSpaced text bytes) : WritesSpaced (c :: text) bytes
  | pair {high low : Char} {h l : Nat} {text : List Char} {bytes : Octets}
      (hhigh : IsDigitChar high h) (hlow : IsDigitChar low l) (hrest : WritesSpaced text bytes) :
      WritesSpaced (high :: low :: text) (join h l :: bytes)

/-- What may stand in front of a hexadecimal text. -/
inductive IsMarker : List Char → Prop where
  | none : IsMarker []
  | lower : IsMarker ['0', 'x']
  | upper : IsMarker ['0', 'X']

/-- Digit pairs and gaps behind at most one marker, with blanks around it all, and the bytes that
    they write. -/
def Displays (text : List Char) (bytes : Octets) : Prop :=
  ∃ front marker body back, text = front ++ (marker ++ body) ++ back ∧
    (∀ c ∈ front, isBlank c = true) ∧ IsMarker marker ∧ WritesSpaced body bytes ∧
    ∀ c ∈ back, isBlank c = true

section Digits

variable {c : Char} {value : Nat}

theorem nibble?_toNat_eq_some_iff : nibble? c.toNat = some value ↔ IsDigitChar c value := by
  rw [nibble?_code_eq_some_iff, Char.toNat_inj, Char.toNat_inj, IsDigitChar]

theorem isBlank_of_isGap (hgap : isGap c = true) : isBlank c = true := by
  simp only [isGap, isBlank, Bool.or_eq_true, Bool.and_eq_true, decide_eq_true_eq, beq_iff_eq]
    at hgap ⊢
  omega

theorem not_isBlank_digit : ∀ value < 16,
    isBlank (digit value) = false ∧ isBlank (digit value).toUpper = false := by
  decide

theorem IsDigitChar.isBlank_eq (hdigit : IsDigitChar c value) : isBlank c = false := by
  obtain ⟨hlt, rfl | rfl⟩ := hdigit
  · exact (not_isBlank_digit value hlt).1
  · exact (not_isBlank_digit value hlt).2

theorem IsDigitChar.toNat_lt (hdigit : IsDigitChar c value) : c.toNat < 128 := by
  obtain ⟨hlt, hcase⟩ := hdigit
  obtain ⟨hlower, hupper⟩ := toNat_digit value hlt
  obtain rfl | rfl := hcase
  · rw [hlower]
    split <;> omega
  · rw [hupper]
    split <;> omega

theorem IsDigitChar.isGap_eq (hdigit : IsDigitChar c value) : isGap c = false := by
  cases hgap : isGap c with
  | false => rfl
  | true => rw [← hdigit.isBlank_eq, isBlank_of_isGap hgap]

end Digits

variable {text body back : List Char} {bytes : Octets}

theorem writesSpaced_cons_iff_of_isGap {c : Char} (hgap : isGap c = true) :
    WritesSpaced (c :: text) bytes ↔ WritesSpaced text bytes := by
  constructor
  · intro hwrites
    cases hwrites with
    | gap _ hrest => exact hrest
    | pair hhigh _ _ =>
      rw [hhigh.isGap_eq] at hgap
      cases hgap
  · exact .gap hgap

theorem spacedPairs_eq_ok_iff : ∀ {text : List Char} {index : Nat} {seen all : Octets},
    spacedPairs index seen text = .ok all ↔
      ∃ bytes, all = seen.reverse ++ bytes ∧ WritesSpaced text bytes
  | [], index, seen, all => by
    constructor
    · rintro ⟨⟩
      exact ⟨[], (List.append_nil _).symm, .nil⟩
    · rintro ⟨bytes, rfl, hwrites⟩
      cases hwrites
      rw [List.append_nil]
      rfl
  | [lone], index, seen, all => by
    rw [spacedPairs]
    split
    · next hgap =>
      simp only [writesSpaced_cons_iff_of_isGap hgap]
      constructor
      · rintro ⟨⟩
        exact ⟨[], (List.append_nil _).symm, .nil⟩
      · rintro ⟨bytes, rfl, hwrites⟩
        cases hwrites
        rw [List.append_nil]
    · next hgap =>
      constructor
      · intro hall
        split at hall <;> cases hall
      · rintro ⟨bytes, -, hwrites⟩
        cases hwrites with
        | gap hgap' _ => exact absurd hgap' hgap
  | high :: low :: text, index, seen, all => by
    rw [spacedPairs]
    split
    · next hgap =>
      rw [spacedPairs_eq_ok_iff]
      simp only [writesSpaced_cons_iff_of_isGap hgap]
    · next hgap =>
      constructor
      · intro hall
        split at hall
        · cases hall
        · cases hall
        · next h l hhigh hlow =>
          obtain ⟨bytes, rfl, hwrites⟩ := spacedPairs_eq_ok_iff.1 hall
          refine ⟨join h l :: bytes, ?_, ?_⟩
          · rw [List.reverse_cons, List.append_assoc, List.singleton_append]
          · exact .pair (nibble?_toNat_eq_some_iff.1 hhigh) (nibble?_toNat_eq_some_iff.1 hlow)
              hwrites
      · rintro ⟨bytes, rfl, hwrites⟩
        cases hwrites with
        | gap hgap' _ => exact absurd hgap' hgap
        | pair hhigh hlow hrest =>
          rw [nibble?_toNat_eq_some_iff.2 hhigh, nibble?_toNat_eq_some_iff.2 hlow]
          dsimp only
          rw [spacedPairs_eq_ok_iff]
          refine ⟨_, ?_, hrest⟩
          rw [List.reverse_cons, List.append_assoc, List.singleton_append]

theorem WritesSpaced.toNat_lt (hwrites : WritesSpaced text bytes) : ∀ c ∈ text, c.toNat < 128 := by
  induction hwrites with
  | nil => exact nofun
  | gap hgap _ ih =>
    simp only [isGap, Bool.or_eq_true, Bool.and_eq_true, decide_eq_true_eq] at hgap
    exact List.forall_mem_cons.2 ⟨by omega, ih⟩
  | pair hhigh hlow _ ih =>
    exact List.forall_mem_cons.2 ⟨hhigh.toNat_lt, List.forall_mem_cons.2 ⟨hlow.toNat_lt, ih⟩⟩

/-- The lenient reader takes digit pairs and gaps for the bytes that they write, and nothing
    else. -/
theorem decodeSpaced_eq_ok_iff : decodeSpaced text = .ok bytes ↔ WritesSpaced text bytes := by
  have hpairs : spacedPairs 0 [] text = .ok bytes ↔ WritesSpaced text bytes := by
    rw [spacedPairs_eq_ok_iff]
    simp only [List.reverse_nil, List.nil_append, exists_eq_left']
  rw [decodeSpaced]
  split
  · next index hfound =>
    constructor
    · nofun
    · intro hwrites
      have hnone : text.findIdx? (fun c => 128 ≤ c.toNat) = none :=
        List.findIdx?_eq_none_iff.2 fun c hc =>
          decide_eq_false (Nat.not_le.2 (hwrites.toNat_lt c hc))
      rw [hnone] at hfound
      cases hfound
  · exact hpairs

theorem ofText?_eq_some_iff : ofText? text = some bytes ↔ WritesSpaced (dropMarker text) bytes := by
  rw [ofText?, ← decodeSpaced_eq_ok_iff]
  cases decodeSpaced (dropMarker text) <;> simp [Except.toOption]

theorem exists_digit_of_mem_chars {c : Char} (hc : c ∈ chars bytes) :
    ∃ value < 16, c = digit value := by
  obtain ⟨b, -, hdigits⟩ := List.mem_flatMap.1 hc
  have hbyte : b.toNat < 256 := b.toNat_lt
  obtain rfl | rfl : c = digit (b.toNat / 16) ∨ c = digit (b.toNat % 16) := by
    simpa only [List.mem_cons, List.not_mem_nil, or_false] using hdigits
  · exact ⟨_, by omega, rfl⟩
  · exact ⟨_, by omega, rfl⟩

/-- However its letters are written, a printed byte string is read back. -/
theorem writesSpaced_map_chars (spell : Char → Char)
    (hspell : ∀ value < 16, IsDigitChar (spell (digit value)) value) (bytes : Octets) :
    WritesSpaced ((chars bytes).map spell) bytes := by
  induction bytes with
  | nil => exact .nil
  | cons b rest ih =>
    have hbyte : b.toNat < 256 := b.toNat_lt
    have hjoin : join (b.toNat / 16) (b.toNat % 16) = b := by
      rw [join, Nat.div_add_mod, UInt8.ofNat_toNat]
    have hpair := ih.pair (hspell (b.toNat / 16) (by omega)) (hspell (b.toNat % 16) (by omega))
    rw [hjoin] at hpair
    exact hpair

theorem writesSpaced_chars (bytes : Octets) : WritesSpaced (chars bytes) bytes := by
  have hprinted := writesSpaced_map_chars id (fun value hlt => ⟨hlt, .inl rfl⟩) bytes
  rwa [List.map_id] at hprinted

section Marker

variable {marker : List Char}

/-- No marker stands in front of digit pairs and gaps. -/
theorem WritesSpaced.dropMarker_eq (hwrites : WritesSpaced text bytes) :
    dropMarker text = text := by
  have hzero : isGap '0' = false := by decide
  have hsecond {c : Char} {rest : List Char} (hfront : WritesSpaced ('0' :: c :: rest) bytes) :
      nibble? c.toNat ≠ none := by
    cases hfront with
    | gap hgap _ =>
      rw [hzero] at hgap
      cases hgap
    | pair _ hlow _ =>
      rw [nibble?_toNat_eq_some_iff.2 hlow]
      exact Option.some_ne_none _
  unfold dropMarker
  split
  · exact absurd (by decide) (hsecond hwrites)
  · exact absurd (by decide) (hsecond hwrites)
  · rfl

theorem IsMarker.isBlank_eq (hmarker : IsMarker marker) : ∀ c ∈ marker, isBlank c = false := by
  cases hmarker with
  | none => exact nofun
  | lower => exact List.forall_mem_cons.2 ⟨by decide, List.forall_mem_singleton.2 (by decide)⟩
  | upper => exact List.forall_mem_cons.2 ⟨by decide, List.forall_mem_singleton.2 (by decide)⟩

theorem exists_marker (text : List Char) :
    ∃ marker, IsMarker marker ∧ text = marker ++ dropMarker text := by
  unfold dropMarker
  split
  · exact ⟨_, .lower, rfl⟩
  · exact ⟨_, .upper, rfl⟩
  · exact ⟨_, .none, rfl⟩

theorem dropMarker_append (hmarker : IsMarker marker) (hwrites : WritesSpaced body bytes) :
    dropMarker (marker ++ body) = body := by
  cases hmarker with
  | none => exact hwrites.dropMarker_eq
  | lower => rfl
  | upper => rfl

end Marker

section Blanks

theorem WritesSpaced.dropWhile (hwrites : WritesSpaced text bytes) :
    WritesSpaced (text.dropWhile isBlank) bytes := by
  induction hwrites with
  | nil => exact .nil
  | gap hgap _ ih =>
    rw [List.dropWhile_cons_of_pos (isBlank_of_isGap hgap)]
    exact ih
  | pair hhigh hlow hrest _ =>
    rw [List.dropWhile_cons_of_neg (by rw [hhigh.isBlank_eq]; exact Bool.false_ne_true)]
    exact .pair hhigh hlow hrest

/-- Blanks behind digit pairs and gaps are gaps, too, and write nothing. -/
theorem WritesSpaced.of_append_blanks (hwrites : WritesSpaced (text ++ back) bytes)
    (hback : ∀ c ∈ back, isBlank c = true) : WritesSpaced text bytes := by
  generalize hall : text ++ back = all at hwrites
  induction hwrites generalizing text back with
  | nil =>
    rw [(List.append_eq_nil_iff.1 hall).1]
    exact .nil
  | gap hgap _ ih =>
    obtain ⟨rfl, rfl⟩ | ⟨front, rfl, rfl⟩ := List.append_eq_cons_iff.1 hall
    · exact ih (List.forall_mem_cons.1 hback).2 (List.nil_append _)
    · exact .gap hgap (ih hback rfl)
  | pair hhigh hlow _ ih =>
    obtain ⟨rfl, rfl⟩ | ⟨front, rfl, hrest⟩ := List.append_eq_cons_iff.1 hall
    · have hblank := hback _ List.mem_cons_self
      rw [hhigh.isBlank_eq] at hblank
      cases hblank
    · obtain ⟨rfl, rfl⟩ | ⟨front, rfl, rfl⟩ := List.append_eq_cons_iff.1 hrest.symm
      · have hblank := hback _ List.mem_cons_self
        rw [hlow.isBlank_eq] at hblank
        cases hblank
      · exact .pair hhigh hlow (ih hback rfl)

theorem WritesSpaced.rdropWhile (hwrites : WritesSpaced text bytes) :
    WritesSpaced (text.rdropWhile isBlank) bytes := by
  rw [← List.rdropWhile_append_rtakeWhile (p := isBlank) (l := text)] at hwrites
  exact hwrites.of_append_blanks fun c => List.mem_rtakeWhile_imp

/-- Where digit pairs and gaps stand behind a marker, trimming leaves such a text, since the blanks
    at its ends are gaps. -/
theorem WritesSpaced.dropMarker_trim {marker : List Char} (hwrites : WritesSpaced body bytes)
    (hmarker : IsMarker marker) : WritesSpaced (dropMarker (trim (marker ++ body))) bytes := by
  have hsolid := hmarker.isBlank_eq
  cases hmarker with
  | none =>
    have htrimmed : WritesSpaced (trim body) bytes := hwrites.dropWhile.rdropWhile
    rw [List.nil_append, htrimmed.dropMarker_eq]
    exact htrimmed
  | lower =>
    rw [trim_append (List.cons_ne_nil _ _) hsolid]
    exact hwrites.rdropWhile
  | upper =>
    rw [trim_append (List.cons_ne_nil _ _) hsolid]
    exact hwrites.rdropWhile

/-- After trimming, the marked or unmarked texts that are read are those that display bytes. -/
theorem ofText?_trim_eq_some_iff : ofText? (trim text) = some bytes ↔ Displays text bytes := by
  rw [ofText?_eq_some_iff]
  constructor
  · intro hwrites
    obtain ⟨front, back, htext, hfront, hback⟩ := exists_blanks_trim text
    obtain ⟨marker, hmarker, hstem⟩ := exists_marker (trim text)
    rw [hstem] at htext
    exact ⟨front, marker, _, back, htext, hfront, hmarker, hwrites, hback⟩
  · rintro ⟨front, marker, body, back, rfl, hfront, hmarker, hwrites, hback⟩
    rw [trim_blanks _ hfront hback]
    exact hwrites.dropMarker_trim hmarker

end Blanks

end CryptoIntrinsics.Hex
