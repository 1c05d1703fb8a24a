import CryptoIntrinsics.Proofs.Buffer.Filled

namespace CryptoIntrinsics

namespace Octets

/-- Bytes written least significant first are read as the number that is left of the width. -/
theorem toNatLittle_ofNatLittle (width n : Nat) :
    (ofNatLittle width n).toNatLittle = n % 256 ^ width := by
  induction width generalizing n with
  | zero => rw [ofNatLittle, toNatLittle, Nat.pow_zero, Nat.mod_one]
  | succ width ih =>
    rw [ofNatLittle, toNatLittle, ih, Nat.pow_succ', Nat.mod_mul, UInt8.toNat_ofNat']

end Octets

namespace Element

namespace Format

theorem span_eq (width : Nat) : span width = 256 ^ width := by
  rw [span, Nat.shiftLeft_eq, Nat.one_mul, Nat.pow_mul]

def least (width : Nat) (signed : Bool) : Int := if signed then -2 ^ (8 * width - 1) else 0

def limit (width : Nat) (signed : Bool) : Int :=
  if signed then 2 ^ (8 * width - 1) else 2 ^ (8 * width)

theorem holds_iff {width : Nat} (hwidth : 0 < width) (signed : Bool) (n : Int) :
    Holds width signed n ↔ least width signed ≤ n ∧ n < limit width signed := by
  have hspan : span width = 2 ^ (8 * width) := by rw [span, Nat.shiftLeft_eq, Nat.one_mul]
  have hhalf : span width / 2 = 2 ^ (8 * width - 1) := by
    have hbits : 8 * width = 8 * width - 1 + 1 := by omega
    rw [hspan, hbits, Nat.pow_succ, Nat.add_sub_cancel, Nat.mul_div_cancel _ (by decide)]
  cases signed with
  | false => simp [Holds, least, limit, hspan]
  | true => simp [Holds, least, limit, hhalf]

/-- The integer formats in their standard sizes: the letter, the bytes of an element, and whether it
    has a sign. -/
def integers : List (String × Nat × Bool) :=
  [("b", 1, true), ("B", 1, false), ("h", 2, true), ("H", 2, false), ("i", 4, true),
    ("I", 4, false), ("l", 4, true), ("L", 4, false), ("q", 8, true), ("Q", 8, false)]

theorem standard?_of_mem_integers {letter : String} {width : Nat} {signed : Bool}
    (hformat : (letter, width, signed) ∈ integers) :
    standard? letter = some (integer width signed) ∧ 0 < width := by
  have hall : ∀ named ∈ integers,
      standard? named.1 = some (integer named.2.1 named.2.2) ∧ 0 < named.2.1 := by decide
  exact hall _ hformat

end Format

section Reading

variable {width : Nat} {signed : Bool} {n : Int}

@[simp] theorem length_integerOctets (width : Nat) (n : Int) :
    (integerOctets width n).length = width := Octets.length_ofNatLittle _ _

/-- What is left of an integer that the format holds: the integer itself, or of a negative one what
    is missing to the number of all integers. -/
theorem emod_span (hholds : Format.Holds width signed n) :
    n % (Format.span width : Int) = if n < 0 then n + Format.span width else n := by
  have hbounds : -(Format.span width : Int) ≤ n ∧ n < Format.span width := by
    rw [Format.Holds] at hholds
    split at hholds <;> omega
  split
  · rw [← Int.add_emod_right, Int.emod_eq_of_lt (by omega) (by omega)]
  · exact Int.emod_eq_of_lt (by omega) (by omega)

/-- An integer that the format holds is read back from its bytes. -/
theorem integerOf_integerOctets (hholds : Format.Holds width signed n) :
    integerOf signed (integerOctets width n) = n := by
  have hleft := emod_span hholds
  have hread : (integerOctets width n).toNatLittle = (n % (Format.span width : Int)).toNat := by
    have hpos : 0 < Format.span width := by
      rw [Format.span_eq]
      exact Nat.pow_pos (by decide)
    have hlt := Int.emod_lt_of_pos n (Int.natCast_pos.2 hpos)
    rw [integerOctets, Octets.toNatLittle_ofNatLittle, ← Format.span_eq,
      Nat.mod_eq_of_lt (by omega)]
  simp only [integerOf, length_integerOctets, hread, hleft]
  rw [Format.Holds] at hholds
  cases signed with
  | false =>
    have hpositive : 0 ≤ n := hholds.1
    rw [if_neg (by simp), if_neg (by omega), Int.toNat_of_nonneg hpositive]
  | true =>
    -- What is left of a negative integer is at least half of all, and of any other one less.
    rw [if_pos rfl] at hholds
    by_cases hnegative : n < 0
    · rw [if_pos hnegative, if_pos ⟨rfl, by omega⟩]
      omega
    · rw [if_neg hnegative, if_neg (by omega)]
      omega

end Reading

section Writing

variable {width : Nat} {signed : Bool} {values : List Datum} {ns : List Int}

/-- A value counts as an integer that the format holds. -/
structure Counts (width : Nat) (signed : Bool) (d : Datum) (n : Int) : Prop where
  integral : d.integral? = some n
  holds : Format.Holds width signed n

theorem map_integral?_of_counts (hcounts : List.Forall₂ (Counts width signed) values ns) :
    values.map Datum.integral? = ns.map some := by
  induction hcounts with
  | nil => rfl
  | cons hcount _ ih => rw [List.map_cons, List.map_cons, hcount.integral, ih]

theorem holds_of_counts (hcounts : List.Forall₂ (Counts width signed) values ns) :
    ∀ n ∈ ns, Format.Holds width signed n := by
  induction hcounts with
  | nil => exact List.forall_mem_nil _
  | cons hcount _ ih => exact List.forall_mem_cons.2 ⟨hcount.holds, ih⟩

theorem pack_of_counts {d : Datum} {n : Int} (hcounts : Counts width signed d n) :
    pack (.integer width signed) d = .ok (integerOctets width n) := by
  simp only [pack, hcounts.integral, if_pos hcounts.holds]

/-- Whatever else is to be written is not suitable. -/
theorem pack_of_not_counts {d : Datum} (hnot : ∀ n, ¬ Counts width signed d n) :
    pack (.integer width signed) d = .error .unsuitable := by
  cases hintegral : d.integral? with
  | none => simp only [pack, hintegral]
  | some n =>
    have hoverflow : ¬ Format.Holds width signed n := fun hholds => hnot n ⟨hintegral, hholds⟩
    simp only [pack, hintegral, if_neg hoverflow]

/-- A list of integers that the format holds is written as the bytes of each of them. -/
theorem packAll_of_counts (hcounts : List.Forall₂ (Counts width signed) values ns) :
    packAll (.integer width signed) values = .ok (ns.flatMap (integerOctets width)) := by
  have hpacked : values.mapM (pack (.integer width signed)) =
      .ok (ns.map (integerOctets width)) := by
    rw [Buffer.mapM_eq_ok_iff, List.forall₂_map_right_iff]
    exact hcounts.imp fun _ _ hcount => pack_of_counts hcount
  rw [packAll, hpacked, List.flatMap_def]
  rfl

theorem mapM_pack_of_not_counts {d : Datum} (hmem : d ∈ values)
    (hnot : ∀ n, ¬ Counts width signed d n) :
    values.mapM (pack (.integer width signed)) = .error .unsuitable := by
  induction values with
  | nil => cases hmem
  | cons first rest ih =>
    -- Members are written in turn, so what counts before the bad one does not change the end.
    rw [List.mapM_cons]
    by_cases hfirst : ∃ n, Counts width signed first n
    · obtain ⟨n, hcounts⟩ := hfirst
      have hrest : d ∈ rest := by
        obtain rfl | hrest := List.mem_cons.1 hmem
        · exact absurd hcounts (hnot n)
        · exact hrest
      rw [pack_of_counts hcounts, ih hrest]
      rfl
    · rw [pack_of_not_counts (not_exists.1 hfirst)]
      rfl

/-- A member that is no such integer is not suitable, whatever stands before and behind it. -/
theorem packAll_of_not_counts {d : Datum} (hmem : d ∈ values)
    (hnot : ∀ n, ¬ Counts width signed d n) :
    packAll (.integer width signed) values = .error .unsuitable := by
  rw [packAll, mapM_pack_of_not_counts hmem hnot]
  rfl

/-- Either all members are such integers, or one of them is none. -/
theorem exists_counts_or_not (width : Nat) (signed : Bool) (values : List Datum) :
    (∃ ns, List.Forall₂ (Counts width signed) values ns) ∨
      ∃ d ∈ values, ∀ n, ¬ Counts width signed d n := by
  induction values with
  | nil => exact .inl ⟨[], .nil⟩
  | cons first rest ih =>
    by_cases hfirst : ∃ n, Counts width signed first n
    · obtain ⟨n, hcounts⟩ := hfirst
      obtain ⟨ns, hns⟩ | ⟨d, hmem, hnot⟩ := ih
      · exact .inl ⟨n :: ns, .cons hcounts hns⟩
      · exact .inr ⟨d, List.mem_cons_of_mem _ hmem, hnot⟩
    · exact .inr ⟨first, List.mem_cons_self, not_exists.1 hfirst⟩

end Writing

section Rows

variable {width : Nat}

/-- Elements of one width are the rows of their bytes. -/
theorem rows_flatten {elements : List Octets} (helements : ∀ e ∈ elements, e.length = width) :
    Buffer.rows width elements.length elements.flatten = elements := by
  induction elements with
  | nil => rfl
  | cons e elements ih =>
    obtain ⟨he, hrest⟩ := List.forall_mem_cons.1 helements
    rw [List.length_cons, Buffer.rows, List.flatten_cons, List.take_left' he, List.drop_left' he,
      ih hrest]

theorem length_of_mem_map {ns : List Int} {e : Octets} (he : e ∈ ns.map (integerOctets width)) :
    e.length = width := by
  obtain ⟨n, -, rfl⟩ := List.mem_map.1 he
  exact length_integerOctets width n

theorem length_flatMap_integerOctets (width : Nat) (ns : List Int) :
    (ns.flatMap (integerOctets width)).length = width * ns.length := by
  rw [List.flatMap_def, Buffer.length_flatten_of_forall fun _ => length_of_mem_map, List.length_map,
    Nat.mul_comm]

/-- The rows of what is written of integers read as these integers. -/
theorem map_rows_integerOctets {signed : Bool} {ns : List Int}
    (hholds : ∀ n ∈ ns, Format.Holds width signed n) :
    (Buffer.rows width ns.length (ns.flatMap (integerOctets width))).map (integerOf signed) =
      ns := by
  have hrows : Buffer.rows width (ns.map (integerOctets width)).length
      (ns.map (integerOctets width)).flatten = ns.map (integerOctets width) :=
    rows_flatten fun _ => length_of_mem_map
  rw [List.length_map] at hrows
  rw [List.flatMap_def, hrows, List.map_map]
  conv_rhs => rw [← List.map_id ns]
  exact List.map_congr_left fun n hn => integerOf_integerOctets (hholds n hn)

end Rows

end Element

end CryptoIntrinsics
