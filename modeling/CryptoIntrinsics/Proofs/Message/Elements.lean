import CryptoIntrinsics.Proofs.Element.Integer
import CryptoIntrinsics.Session.Step

namespace CryptoIntrinsics.Message

open Element Operation

variable {letter : String} {format : Format} {values : List Datum}

theorem formatOf_text (hformat : Format.standard? letter = some format) :
    formatOf (.text letter) = .ok (letter, format) := by
  simp only [formatOf, hformat]

/-- The members of a list are written one after the other. -/
theorem pack_list (hformat : Format.standard? letter = some format) :
    pack (.list values) (.text letter) =
      match packAll format values with
      | .ok bytes => .ok bytes
      | .error .unsuitable => .error (.misuse (.unpackable letter))
      | .error .overflow => .error (.stray .overflow "*") := by
  rw [pack, formatOf_text hformat]
  rfl

section Integers

variable {width : Nat} {signed : Bool} {ns : List Int}

theorem pack_of_counts (hformat : Format.standard? letter = some (.integer width signed))
    (hcounts : List.Forall₂ (Counts width signed) values ns) :
    pack (.list values) (.text letter) = .ok (ns.flatMap (integerOctets width)) := by
  rw [pack_list hformat, packAll_of_counts hcounts]

theorem pack_of_not_counts (hformat : Format.standard? letter = some (.integer width signed))
    {d : Datum} (hmem : d ∈ values) (hnot : ∀ n, ¬ Counts width signed d n) :
    pack (.list values) (.text letter) = .error (.misuse (.unpackable letter)) := by
  rw [pack_list hformat, packAll_of_not_counts hmem hnot]

/-- A packed list is packed as so many elements if it has as many, and refused otherwise. -/
theorem messageOf_array (letter : String) (values : List Datum) (n : Int) :
    messageOf (.array (.list values) (.text letter) (.integer n)) =
      if n = values.length then
        (messageOf (.elements (.list values) (.text letter))).map fun m =>
          { m with origin := .array }
      else .error (.misuse (.elementCount (.integer n) values.length)) := by
  have harray : messageOf (.array (.list values) (.text letter) (.integer n)) =
      if Datum.equal (.integer values.length) (.integer n) then
        (pack (.list values) (.text letter)).map (whole .array)
      else .error (.misuse (.elementCount (.integer n) values.length)) := rfl
  have helements : messageOf (.elements (.list values) (.text letter)) =
      (pack (.list values) (.text letter)).map (whole .elements) := rfl
  rw [harray, helements, Datum.equal_integer]
  by_cases hn : n = values.length
  · rw [if_pos hn, if_pos (by simp [hn])]
    cases pack (.list values) (.text letter) <;> rfl
  · rw [if_neg hn, if_neg (by simpa using fun h => hn h.symm)]

theorem messageOf_elements_of_counts
    (hformat : Format.standard? letter = some (.integer width signed))
    (hcounts : List.Forall₂ (Counts width signed) values ns) :
    messageOf (.elements (.list values) (.text letter)) =
      .ok (whole .elements (ns.flatMap (integerOctets width))) := by
  rw [messageOf, ofElements, pack_of_counts hformat hcounts]
  rfl

theorem messageOf_elements_of_not_counts
    (hformat : Format.standard? letter = some (.integer width signed))
    {d : Datum} (hmem : d ∈ values) (hnot : ∀ n, ¬ Counts width signed d n) :
    messageOf (.elements (.list values) (.text letter)) =
      .error (.misuse (.unpackable letter)) := by
  rw [messageOf, ofElements, pack_of_not_counts hformat hmem hnot]
  rfl

/-- A message is only made of members that all count as integers of the format. -/
theorem exists_counts_of_messageOf
    (hformat : Format.standard? letter = some (.integer width signed)) {m : Message}
    (hmade : messageOf (.elements (.list values) (.text letter)) = .ok m) :
    ∃ ns, List.Forall₂ (Counts width signed) values ns ∧
      m = whole .elements (ns.flatMap (integerOctets width)) := by
  obtain ⟨ns, hcounts⟩ | ⟨d, hmem, hnot⟩ := exists_counts_or_not width signed values
  · rw [messageOf_elements_of_counts hformat hcounts] at hmade
    exact ⟨ns, hcounts, (Except.ok.inj hmade).symm⟩
  · rw [messageOf_elements_of_not_counts hformat hmem hnot] at hmade
    cases hmade

end Integers

/-- A value counts as an integer in the range of a format. -/
def Suits (width : Nat) (signed : Bool) (d : Datum) : Prop :=
  ∃ n, d.integral? = some n ∧ Format.least width signed ≤ n ∧ n < Format.limit width signed

theorem suits_iff {width : Nat} (hwidth : 0 < width) {signed : Bool} {d : Datum} :
    Suits width signed d ↔ ∃ n, Counts width signed d n := by
  constructor
  · rintro ⟨n, hintegral, hrange⟩
    exact ⟨n, hintegral, (Format.holds_iff hwidth signed n).2 hrange⟩
  · rintro ⟨n, hintegral, hholds⟩
    exact ⟨n, hintegral, (Format.holds_iff hwidth signed n).1 hholds⟩

/-- Packing integers in any of the integer formats is exact, and all or nothing. There is a message
    exactly if every member of the list counts as an integer in the range of the format. It is as
    long as all elements, and its bytes, element by element, read as the members again; those of two
    lists in a row are the bytes of one behind the bytes of the other. Any other member, wherever it
    stands, is a value error. The same list with a number of elements is the same message if it has
    so many, and a value error otherwise. -/
theorem elements_iff_suits {letter : String} {width : Nat} {signed : Bool}
    (hformat : (letter, width, signed) ∈ Format.integers) (values : List Datum) :
    let elements (values : List Datum) := messageOf (.elements (.list values) (.text letter))
    ((∃ m, elements values = .ok m) ↔ ∀ d ∈ values, Suits width signed d) ∧
    (∀ m, elements values = .ok m → m.length = width * values.length ∧
      (Buffer.rows width values.length m.payload).map (some ∘ integerOf signed) =
        values.map Datum.integral?) ∧
    (∀ m more n, elements values = .ok m → elements more = .ok n →
      ∃ both, elements (values ++ more) = .ok both ∧ both.payload = m.payload ++ n.payload) ∧
    (∀ before d after, values = before ++ d :: after → ¬ Suits width signed d →
      ∃ failure, elements values = .error failure ∧ failure.className = "ValueError") ∧
    ∀ count : Int,
      let array := messageOf (.array (.list values) (.text letter) (.integer count))
      (count = values.length →
        array = (elements values).map fun m => { m with origin := .array }) ∧
      (count ≠ values.length →
        ∃ failure, array = .error failure ∧ failure.className = "ValueError") := by
  obtain ⟨hstandard, hwidth⟩ := Format.standard?_of_mem_integers hformat
  dsimp only
  refine ⟨⟨?_, fun hall => ?_⟩, fun m hmade => ?_, fun m more n hmade hmore => ?_, ?_,
    fun count => ⟨fun hcount => ?_, fun hcount => ?_⟩⟩
  · rintro ⟨m, hmade⟩ d hmem
    by_contra hnot
    rw [suits_iff hwidth, not_exists] at hnot
    rw [messageOf_elements_of_not_counts hstandard hmem hnot] at hmade
    cases hmade
  · obtain ⟨ns, hcounts⟩ | ⟨d, hmem, hnot⟩ := exists_counts_or_not width signed values
    · exact ⟨_, messageOf_elements_of_counts hstandard hcounts⟩
    · exact absurd ((suits_iff hwidth).1 (hall d hmem)) (not_exists.2 hnot)
  · obtain ⟨ns, hcounts, rfl⟩ := exists_counts_of_messageOf hstandard hmade
    have hread := map_rows_integerOctets (holds_of_counts hcounts)
    rw [payload_whole, hcounts.length_eq, map_integral?_of_counts hcounts, ← List.map_map, hread]
    exact ⟨length_flatMap_integerOctets width ns, rfl⟩
  · obtain ⟨ns, hcounts, rfl⟩ := exists_counts_of_messageOf hstandard hmade
    obtain ⟨others, hothers, rfl⟩ := exists_counts_of_messageOf hstandard hmore
    refine ⟨_, messageOf_elements_of_counts hstandard (List.rel_append hcounts hothers), ?_⟩
    simp only [payload_whole, List.flatMap_append]
  · rintro before d after rfl hnot
    rw [suits_iff hwidth, not_exists] at hnot
    exact ⟨_, messageOf_elements_of_not_counts hstandard (by simp) hnot, rfl⟩
  · rw [messageOf_array, if_pos hcount]
  · rw [messageOf_array, if_neg hcount]
    exact ⟨_, rfl, rfl⟩

/-- A truth value and the least short integer are packed; the first integer above the range is not,
    behind any others. -/
theorem elements_iff_suits_short :
    let values : List Datum := [.truth true, .integer (-32768)]
    ("h", 2, true) ∈ Format.integers ∧
    (∃ m, messageOf (.elements (.list values) (.text "h")) = .ok m ∧ m.length = 4 ∧
      (Buffer.rows 2 2 m.payload).map (some ∘ integerOf true) = [some 1, some (-32768)]) ∧
    ∃ failure, messageOf (.elements (.list (values ++ [.integer 32768])) (.text "h")) =
      .error failure ∧ failure.className = "ValueError" := by
  intro values
  have hformat : ("h", 2, true) ∈ Format.integers := by decide
  refine ⟨hformat, ?_, ?_⟩
  · obtain ⟨hmade, hread, -⟩ := elements_iff_suits hformat values
    have hsuits : ∀ d ∈ values, Suits 2 true d := by
      intro d hd
      obtain rfl | rfl : d = .truth true ∨ d = .integer (-32768) := by simpa [values] using hd
      · exact ⟨1, rfl, by decide, by decide⟩
      · exact ⟨-32768, rfl, by decide, by decide⟩
    obtain ⟨m, hm⟩ := hmade.2 hsuits
    exact ⟨m, hm, hread m hm⟩
  · obtain ⟨-, -, -, hrefused, -⟩ := elements_iff_suits hformat (values ++ [.integer 32768])
    refine hrefused values (.integer 32768) [] rfl ?_
    rintro ⟨_, ⟨⟩, -, hlt⟩
    exact absurd hlt (by decide)

end CryptoIntrinsics.Message
