import CryptoIntrinsics.Buffer.Lending
import Mathlib.Algebra.BigOperators.Group.List.Basic

namespace CryptoIntrinsics.Buffer

def count (b : Buffer) : Nat := b.shape.foldl (· * ·) 1

/-- The flat bytes are as many as all elements have. -/
def IsFilled (b : Buffer) : Prop := b.flat.length = b.itemSize * b.count

theorem foldl_mul_cons (side : Nat) (sides : List Nat) :
    (side :: sides).foldl (· * ·) 1 = side * sides.foldl (· * ·) 1 := by
  rw [← List.prod_eq_foldl, ← List.prod_eq_foldl, List.prod_cons]

theorem isFilled_of_row {b : Buffer} {side : Nat} (hshape : b.shape = [side])
    (hflat : b.flat.length = b.itemSize * side) : b.IsFilled := by
  rw [IsFilled, count, hshape, foldl_mul_cons, List.foldl_nil, Nat.mul_one, hflat]

theorem isFilled_byteRow (exporter : Exporter) (contiguous : Bool) (bytes : Octets) :
    (byteRow exporter contiguous bytes).IsFilled :=
  isFilled_of_row rfl (Nat.one_mul _).symm

theorem length_flatten_of_forall {size : Nat} {rows : List Octets}
    (hrows : ∀ row ∈ rows, row.length = size) : rows.flatten.length = rows.length * size := by
  induction rows with
  | nil => exact (Nat.zero_mul size).symm
  | cons row rows ih =>
    obtain ⟨hrow, hrest⟩ := List.forall_mem_cons.1 hrows
    rw [List.flatten_cons, List.length_append, hrow, ih hrest, List.length_cons, Nat.succ_mul,
      Nat.add_comm]

section Stride

theorem length_of_mem_rows {size count : Nat} {bytes row : Octets}
    (hbytes : bytes.length = count * size) (hrow : row ∈ rows size count bytes) :
    row.length = size := by
  induction count generalizing bytes with
  | zero => cases hrow
  | succ count ih =>
    rw [Nat.succ_mul] at hbytes
    obtain rfl | hrow := List.mem_cons.1 hrow
    · rw [List.length_take, hbytes]
      omega
    · refine ih ?_ hrow
      rw [List.length_drop, hbytes]
      omega

theorem mem_of_mem_everyNth {α : Type} {gap skip : Nat} {items : List α} {item : α}
    (hitem : item ∈ everyNth gap skip items) : item ∈ items := by
  induction items generalizing skip with
  | nil => simp [everyNth] at hitem
  | cons first rest ih =>
    cases skip with
    | zero =>
      obtain rfl | hitem := List.mem_cons.1 hitem
      · exact List.mem_cons_self
      · exact List.mem_cons_of_mem _ (ih hitem)
    | succ skip => exact List.mem_cons_of_mem _ (ih hitem)

/-- The rows that a step keeps are whole rows. -/
theorem IsFilled.stride {b : Buffer} (hfilled : b.IsFilled) (step : Int) :
    (b.stride step).IsFilled := by
  rw [Buffer.stride]
  split
  · exact hfilled
  · next side sides hshape =>
    have hbytes : b.flat.length = side * b.rowSize := by
      rw [hfilled, count, rowSize, hshape, foldl_mul_cons, List.tail_cons, Nat.mul_left_comm]
    have hrow : b.rowSize = b.itemSize * sides.foldl (· * ·) 1 := by
      rw [rowSize, hshape, List.tail_cons]
    rw [IsFilled, count]
    simp only
    rw [foldl_mul_cons, Nat.mul_left_comm, ← hrow]
    apply length_flatten_of_forall
    intro row hkept
    have hmem := mem_of_mem_everyNth hkept
    split at hmem
    · exact length_of_mem_rows hbytes (List.mem_reverse.1 hmem)
    · exact length_of_mem_rows hbytes hmem

theorem isFilled_of_ofStep {b stepped : Buffer} {step : Datum} (hfilled : b.IsFilled)
    (hstep : ofStep b step = .ok stepped) : stepped.IsFilled := by
  unfold ofStep at hstep
  split at hstep
  · cases hstep
  · split at hstep
    · cases hstep
      exact hfilled
    · cases hstep
    · split at hstep
      · cases hstep
      · cases hstep
        exact hfilled.stride _

end Stride

theorem isFilled_of_ofFormat {bytes : Octets} {format : String} {b : Buffer}
    (hview : ofFormat bytes format = .ok b) : b.IsFilled := by
  rw [ofFormat] at hview
  split at hview
  · cases hview
  · dsimp only at hview
    split at hview
    · cases hview
    · next size hsize =>
      split at hview
      · next hwhole =>
        cases hview
        exact isFilled_of_row rfl (Nat.mul_div_cancel' (Nat.dvd_of_mod_eq_zero hwhole)).symm
      · cases hview

theorem isFilled_of_ofShape {bytes : Octets} {shape : List Datum} {b : Buffer}
    (hview : ofShape bytes shape = .ok b) : b.IsFilled := by
  rw [ofShape] at hview
  split at hview
  · cases hview
  · split at hview
    · cases hview
    · cases hsides : sides 1 shape with
      | error failure =>
        rw [hsides] at hview
        cases hview
      | ok counts =>
        rw [hsides] at hview
        change (if counts.foldl (· * ·) 1 = bytes.length then _ else _) = _ at hview
        split at hview
        · next hproduct =>
          cases hview
          rw [IsFilled, count, hproduct, Nat.one_mul]
        · cases hview

section Elements

/-- Items of which something is made one by one have it made of each. -/
theorem mapM_eq_ok_iff {α β ε : Type} {f : α → Except ε β} {items : List α} {made : List β} :
    items.mapM f = .ok made ↔ List.Forall₂ (fun a b => f a = .ok b) items made := by
  induction items generalizing made with
  | nil => simp [pure, Except.pure, eq_comm]
  | cons item items ih =>
    rw [List.mapM_cons]
    constructor
    · intro hmade
      cases hfirst : f item with
      | error failure =>
        rw [hfirst] at hmade
        cases hmade
      | ok b =>
        cases hrest : items.mapM f with
        | error failure =>
          rw [hfirst, hrest] at hmade
          cases hmade
        | ok rest =>
          rw [hfirst, hrest] at hmade
          cases hmade
          exact .cons hfirst (ih.1 hrest)
    · intro hmade
      cases hmade with
      | cons hfirst hrest =>
        rw [hfirst, ih.2 hrest]
        rfl

theorem forall_mem_of_mapM {α β ε : Type} {f : α → Except ε β} {property : β → Prop}
    (hf : ∀ a b, f a = .ok b → property b) {items : List α} {made : List β}
    (hmade : items.mapM f = .ok made) : ∀ b ∈ made, property b := by
  induction mapM_eq_ok_iff.1 hmade with
  | nil => exact List.forall_mem_nil _
  | cons hfirst hrest ih =>
    exact List.forall_mem_cons.2 ⟨hf _ _ hfirst, ih (mapM_eq_ok_iff.2 hrest)⟩

theorem length_of_arrayElement {format : Element.Format} {d : Datum} {bytes : Octets}
    (helement : arrayElement format d = .ok bytes) : bytes.length = format.size := by
  unfold arrayElement at helement
  split at helement
  · split at helement
    · cases helement
      exact Octets.length_ofNatLittle _ _
    · cases helement
  · split at helement
    · cases helement
      exact Octets.length_ofNatLittle _ _
    · cases helement
  · cases helement
    exact Octets.length_ofNatLittle _ _
  · cases helement

theorem length_of_characterElement {d : Datum} {bytes : Octets}
    (helement : characterElement d = .ok bytes) : bytes.length = 4 := by
  unfold characterElement at helement
  split at helement
  · split at helement
    · cases helement
      exact Octets.length_ofNatLittle _ _
    · cases helement
  · split at helement
    · cases helement
      exact Octets.length_ofNatLittle _ _
    · cases helement
  · cases helement

theorem isFilled_of_elements {size : Nat} {elements : List Octets}
    (helements : ∀ element ∈ elements, element.length = size) (exporter : Exporter)
    (format : String) :
    IsFilled ⟨exporter, format, size, [elements.length], true, elements.flatten⟩ := by
  apply isFilled_of_row rfl
  rw [length_flatten_of_forall helements, Nat.mul_comm]

theorem isFilled_of_ofArray {letter : String} {values : List Datum} {b : Buffer}
    (harray : ofArray letter values = .ok b) : b.IsFilled := by
  rw [ofArray] at harray
  split at harray
  · cases harray
  · split at harray
    · cases helements : values.mapM characterElement with
      | error failure =>
        rw [helements] at harray
        cases harray
      | ok elements =>
        rw [helements] at harray
        cases harray
        have hsize := forall_mem_of_mapM (fun _ _ => length_of_characterElement) helements
        exact isFilled_of_elements hsize _ _
    · split at harray
      · cases harray
      · next format _ =>
        cases helements : values.mapM (arrayElement format) with
        | error failure =>
          rw [helements] at harray
          cases harray
        | ok elements =>
          rw [helements] at harray
          cases harray
          have hsize := forall_mem_of_mapM (fun _ _ => length_of_arrayElement) helements
          exact isFilled_of_elements hsize _ _

theorem isFilled_ofWords (words : List Int) : (ofWords words).IsFilled := by
  apply isFilled_of_row rfl
  have hwords (row : Octets) (hrow : row ∈ words.map (Element.integerOctets 4)) :
      row.length = 4 := by
    obtain ⟨word, -, rfl⟩ := List.mem_map.1 hrow
    exact Octets.length_ofNatLittle _ _
  rw [ofWords, List.flatMap_def, length_flatten_of_forall hwords, List.length_map, Nat.mul_comm]

theorem isFilled_ofWord (word : Int) : (ofWord word).IsFilled :=
  Octets.length_ofNatLittle _ _

theorem isFilled_ofGrid (height width : Nat) : (ofGrid height width).IsFilled := by
  rw [IsFilled, count, ofGrid]
  simp

end Elements

/-- The buffers that callers lend: rows of bytes, views of bytes in a format or a shape, views with
    only every so-many-th element of another's first dimension, arrays, and other objects. -/
inductive IsLent : Buffer → Prop where
  | row (exporter : Exporter) (bytes : Octets) : IsLent (byteRow exporter true bytes)
  | format {bytes format b} (hview : ofFormat bytes format = .ok b) : IsLent b
  | shape {bytes shape b} (hview : ofShape bytes shape = .ok b) : IsLent b
  | step {b stepped step} (hlent : IsLent b) (hstep : ofStep b step = .ok stepped) : IsLent stepped
  | array {letter values b} (harray : ofArray letter values = .ok b) : IsLent b
  | words (words : List Int) : IsLent (ofWords words)
  | word (word : Int) : IsLent (ofWord word)
  | grid (height width : Nat) : IsLent (ofGrid height width)

/-- Whatever a caller lends has as many bytes as its elements have in all. -/
theorem IsLent.isFilled {b : Buffer} (hlent : b.IsLent) : b.IsFilled := by
  induction hlent with
  | row exporter bytes => exact isFilled_byteRow exporter true bytes
  | format hview => exact isFilled_of_ofFormat hview
  | shape hview => exact isFilled_of_ofShape hview
  | step _ hstep ih => exact isFilled_of_ofStep ih hstep
  | array harray => exact isFilled_of_ofArray harray
  | words words => exact isFilled_ofWords words
  | word word => exact isFilled_ofWord word
  | grid height width => exact isFilled_ofGrid height width

end CryptoIntrinsics.Buffer
