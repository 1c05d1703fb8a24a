import CryptoIntrinsics.Text.Blank
import Mathlib.Data.List.DropRight

namespace CryptoIntrinsics.Text

variable {class? : Char → Bool} {front text back : List Char}

theorem trimBy_eq (class? : Char → Bool) (text : List Char) :
    trimBy class? text = (text.dropWhile class?).rdropWhile class? := rfl

/-- What is taken off a text are characters of the class around what is left of it. -/
theorem exists_trimBy (class? : Char → Bool) (text : List Char) :
    ∃ front back, text = front ++ trimBy class? text ++ back ∧
      (∀ c ∈ front, class? c = true) ∧ ∀ c ∈ back, class? c = true := by
  refine ⟨text.takeWhile class?, (text.dropWhile class?).rtakeWhile class?, ?_,
    fun c => List.mem_takeWhile_imp, fun c => List.mem_rtakeWhile_imp⟩
  rw [trimBy_eq, List.append_assoc, List.rdropWhile_append_rtakeWhile,
    List.takeWhile_append_dropWhile]

theorem rdropWhile_append_of_all (text : List Char) (hback : ∀ c ∈ back, class? c = true) :
    (text ++ back).rdropWhile class? = text.rdropWhile class? := by
  rw [List.rdropWhile, List.reverse_append, List.dropWhile_append_of_pos]
  · rfl
  · intro c hc
    exact hback c (List.mem_reverse.1 hc)

/-- Characters of the class around a text make no difference. -/
theorem trimBy_append_append (text : List Char) (hfront : ∀ c ∈ front, class? c = true)
    (hback : ∀ c ∈ back, class? c = true) :
    trimBy class? (front ++ text ++ back) = trimBy class? text := by
  rw [trimBy_eq, trimBy_eq, List.append_assoc, List.dropWhile_append_of_pos hfront,
    List.dropWhile_append]
  split
  · next hnone =>
    -- Of a text of the class nothing is left, so what stands behind it stands at the front, too.
    rw [List.isEmpty_iff.1 hnone, List.dropWhile_eq_nil_iff.2 hback]
  · rw [rdropWhile_append_of_all _ hback]

/-- Nothing is taken off a text that has no character of the class. -/
theorem trimBy_eq_self (hnone : ∀ c ∈ text, class? c = false) : trimBy class? text = text := by
  have hsolid : ∀ c ∈ text, ¬ class? c = true := fun c hc => by rw [hnone c hc]; exact nofun
  rw [trimBy_eq, List.dropWhile_eq_self_iff.2 fun _ => hsolid _ (List.getElem_mem _),
    List.rdropWhile_eq_self_iff.2 fun _ => hsolid _ (List.getLast_mem _)]

theorem trim_eq (text : List Char) :
    trim text = (text.dropWhile isBlank).rdropWhile isBlank := rfl

/-- What is taken off a text are blanks around what is left of it. -/
theorem exists_blanks_trim (text : List Char) :
    ∃ front back, text = front ++ trim text ++ back ∧
      (∀ c ∈ front, isBlank c = true) ∧ ∀ c ∈ back, isBlank c = true :=
  exists_trimBy isBlank text

/-- Blanks around a text make no difference. -/
theorem trim_blanks (text : List Char) (hfront : ∀ c ∈ front, isBlank c = true)
    (hback : ∀ c ∈ back, isBlank c = true) : trim (front ++ text ++ back) = trim text :=
  trimBy_append_append text hfront hback

/-- What stands behind characters that are no blanks is trimmed at its end only. -/
theorem trim_append {stem : List Char} (hfilled : stem ≠ [])
    (hstem : ∀ c ∈ stem, isBlank c = false) (text : List Char) :
    trim (stem ++ text) = stem ++ text.rdropWhile isBlank := by
  have hlead : (stem ++ text).dropWhile isBlank = stem ++ text := by
    cases stem with
    | nil => exact absurd rfl hfilled
    | cons c rest =>
      rw [List.cons_append, List.dropWhile_cons_of_neg]
      rw [hstem c List.mem_cons_self]
      exact Bool.false_ne_true
  rw [trim_eq, hlead]
  clear hlead
  induction text using List.reverseRecOn with
  | nil =>
    rw [List.append_nil, List.rdropWhile_eq_self_iff.2, List.rdropWhile_nil, List.append_nil]
    intro hne hblank
    rw [hstem _ (List.getLast_mem hne)] at hblank
    cases hblank
  | append_singleton text c ih =>
    rw [← List.append_assoc, List.rdropWhile_concat, List.rdropWhile_concat]
    split
    · exact ih
    · rw [List.append_assoc]

end CryptoIntrinsics.Text
