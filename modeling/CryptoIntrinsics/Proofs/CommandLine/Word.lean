import CryptoIntrinsics.CommandLine.Command

namespace CryptoIntrinsics.CommandLine

namespace Token

variable {Switch : Type} {names : List (String × Switch)} {word : String}

theorem ofWord_of_not_dashed (hplain : word.toList.head? ≠ some '-') :
    ofWord names word = .ok (operand word) := by
  rw [ofWord]
  split
  · next rest htext =>
    rw [htext] at hplain
    exact absurd rfl hplain
  · rfl

theorem ne_separator_of_not_dashed (hplain : word.toList.head? ≠ some '-') : word ≠ "--" := by
  rintro rfl
  exact hplain rfl

theorem ofWords_cons (hword : word ≠ "--") (rest : List String) :
    ofWords names (word :: rest) =
      do return (← ofWord names word) :: (← ofWords names rest) := by
  rw [ofWords]
  exact hword

section Long

variable {stem value : List Char} {switch : Switch}

theorem splitValue_append (hpure : '=' ∉ stem) (value : List Char) :
    splitValue (stem ++ '=' :: value) = (stem, some (String.ofList value)) := by
  have hstem : ∀ c ∈ stem, (c != '=') = true := by
    intro c hc
    rw [bne_iff_ne]
    rintro rfl
    exact hpure hc
  have hrest : (stem ++ '=' :: value).dropWhile (· != '=') = '=' :: value := by
    rw [List.dropWhile_append_of_pos hstem]
    rfl
  have hfront : (stem ++ '=' :: value).takeWhile (· != '=') = stem := by
    rw [List.takeWhile_append_of_pos hstem]
    exact List.append_nil stem
  rw [splitValue, hrest, hfront]

/-- No option is written with an equality sign in its name. -/
theorem lookup_append (hnames : ∀ entry ∈ names, '=' ∉ entry.1.toList) (stem value : List Char) :
    names.lookup (String.ofList (stem ++ '=' :: value)) = none := by
  rw [List.lookup_eq_none_iff]
  intro entry hentry
  rw [bne_iff_ne]
  intro hsame
  have hin := hnames entry hentry
  rw [← hsame, String.toList_ofList] at hin
  exact hin (List.mem_append_right _ List.mem_cons_self)

theorem ofWord_append (hlong : 2 < stem.length) (hdashed : stem.take 2 = ['-', '-'])
    (value : List Char) : ofWord names (String.ofList (stem ++ '=' :: value)) =
      ofDashed names (stem ++ '=' :: value) := by
  obtain _ | ⟨first, rest⟩ := stem
  · cases hdashed
  · obtain rfl : first = '-' := (List.cons.inj hdashed).1
    rw [ofWord, String.toList_ofList]
    rfl

theorem ofDashed_of_lookup (hlong : 2 < stem.length) (hpure : '=' ∉ stem)
    (hnames : ∀ entry ∈ names, '=' ∉ entry.1.toList)
    (hlookup : names.lookup (String.ofList stem) = some switch) (value : List Char) :
    ofDashed names (stem ++ '=' :: value) = .ok (valued switch (String.ofList value)) := by
  have hfound : found stem switch (some (String.ofList value)) =
      valued switch (String.ofList value) := if_neg (by omega)
  rw [ofDashed, splitValue_append hpure]
  dsimp only
  rw [lookup_append hnames, hlookup]
  obtain _ | ⟨first, _ | ⟨second, rest⟩⟩ := stem
  · cases hlong
  · exact absurd hlong (Nat.not_lt.2 (Nat.le_succ 1))
  · exact congrArg Except.ok hfound

/-- A word with a long name is no error among options none of which begins like it. -/
theorem exists_ofDashed (hlong : 2 < stem.length) (hdashed : stem.take 2 = ['-', '-'])
    (hpure : '=' ∉ stem) (hnames : ∀ entry ∈ names, '=' ∉ entry.1.toList)
    (hnone : ∀ entry ∈ names, ¬ stem <+: entry.1.toList) (value : List Char) :
    ∃ token, ofDashed names (stem ++ '=' :: value) = .ok token := by
  have hlookup : names.lookup (String.ofList stem) = none := by
    rw [List.lookup_eq_none_iff]
    intro entry hentry
    rw [bne_iff_ne]
    intro hsame
    have htext : entry.1.toList = stem := by rw [← hsame, String.toList_ofList]
    exact hnone entry hentry ⟨[], by rw [htext, List.append_nil]⟩
  have hcandidates : (names.filter fun entry => stem.isPrefixOf entry.1.toList) = [] := by
    rw [List.filter_eq_nil_iff]
    intro entry hentry
    rw [List.isPrefixOf_iff_prefix]
    exact hnone entry hentry
  have htake : ((stem ++ '=' :: value).take 2 == ['-', '-']) = true := by
    rw [List.take_append_of_le_length (Nat.le_of_lt hlong), hdashed]
    rfl
  rw [ofDashed, splitValue_append hpure]
  dsimp only
  rw [lookup_append hnames, hlookup, if_pos htake, hcandidates, List.map_nil]
  obtain _ | ⟨first, _ | ⟨second, rest⟩⟩ := stem
  · cases hlong
  · exact absurd hlong (Nat.not_lt.2 (Nat.le_succ 1))
  · dsimp only [List.cons_append]
    split
    · exact ⟨_, rfl⟩
    · exact ⟨_, rfl⟩

end Long

end Token

end CryptoIntrinsics.CommandLine
