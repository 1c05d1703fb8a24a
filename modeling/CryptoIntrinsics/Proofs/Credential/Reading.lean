import CryptoIntrinsics.Credential
import CryptoIntrinsics.Proofs.Varint.Minimal

namespace CryptoIntrinsics.Credential

variable (kind : Kind)

theorem decode_tag_append (strict : Bool) {tag : Nat} (htag : tag ≤ Varint.maxTag)
    (data : Octets) :
    Varint.decode strict Varint.maxTag (Varint.encode tag ++ data) =
      .ok (tag, (Varint.encode tag).length) := by
  rw [Varint.length_encode]
  exact Varint.decode_encode_append strict htag data

/-- Behind any bytes, what is read as a tag and enough data are a value, whatever follows. -/
theorem unpackFrom_append_of_decode (strict : Bool) (before : Octets) {tag : Nat}
    (htag : tag ≤ Varint.maxTag) {word data : Octets}
    (hread : Varint.decode strict Varint.maxTag (word ++ data) = .ok (tag, word.length)) :
    unpackFrom kind strict (before ++ (word ++ data)) before.length =
      if h : kind.size ≤ data.length then
        .ok (⟨tag, data.take kind.size, htag, by rw [List.length_take, Nat.min_eq_left h]⟩,
          ((before.length + word.length + kind.size : Nat) : Int))
      else .error (.truncated kind data.length) := by
  have hplaced : Varint.decodeAt? strict Varint.maxTag (before ++ (word ++ data))
      before.length = some (.ok (tag, ((before.length + word.length : Nat) : Int))) := by
    rw [Varint.decodeAt?, Offset.ahead?_natCast, List.drop_left, Option.map_some, hread]
    rfl
  have hlength : (before ++ (word ++ data)).length =
      before.length + word.length + data.length := by
    rw [List.length_append, List.length_append, Nat.add_assoc]
  have hstop : ((before.length + word.length : Nat) : Int) + (kind.size : Nat) =
      ((before.length + word.length + kind.size : Nat) : Int) := by
    rw [Int.natCast_add _ kind.size]
  simp only [unpackFrom, hplaced, hstop, hlength]
  by_cases h : kind.size ≤ data.length
  · have hwindow : (before ++ (word ++ data)).window
        ((before.length + word.length : Nat) : Int)
        ((before.length + word.length + kind.size : Nat) : Int) = data.take kind.size := by
      have hfront : before.length + word.length = (before ++ word).length := by
        rw [List.length_append]
      rw [Octets.window_of_le (by rw [hlength]; omega), ← List.append_assoc, hfront,
        List.drop_left, Nat.add_sub_cancel_left]
    have hwidth : (data.take kind.size).length = kind.size := by
      rw [List.length_take, Nat.min_eq_left h]
    rw [if_neg (by omega), dif_pos htag, dif_pos h, hwindow, ofParts, dif_pos hwidth]
    rfl
  · rw [if_pos (by omega), dif_neg h]
    congr 2
    omega

/-- What is read at an offset does not depend on the bytes before it. -/
theorem unpackFrom_of_drop (strict : Bool) {held : Octets} {start tag : Nat}
    (htag : tag ≤ Varint.maxTag) {word data : Octets} (hfront : held.drop start = word ++ data)
    (hfilled : 0 < word.length)
    (hread : Varint.decode strict Varint.maxTag (word ++ data) = .ok (tag, word.length)) :
    unpackFrom kind strict held start =
      if h : kind.size ≤ data.length then
        .ok (⟨tag, data.take kind.size, htag, by rw [List.length_take, Nat.min_eq_left h]⟩,
          ((start + word.length + kind.size : Nat) : Int))
      else .error (.truncated kind data.length) := by
  have hlength := congrArg List.length hfront
  rw [List.length_append, List.length_drop] at hlength
  have hstart : (held.take start).length = start := List.length_take_of_le (by omega)
  have hheld : held.take start ++ (word ++ data) = held := by
    rw [← hfront, List.take_append_drop]
  have hunpack := unpackFrom_append_of_decode kind strict (held.take start) htag hread
  rw [hheld, hstart] at hunpack
  exact hunpack

/-- Behind any bytes, a tag and enough data are read as a value, whatever follows. -/
theorem unpackFrom_append (strict : Bool) (before : Octets) {tag : Nat}
    (htag : tag ≤ Varint.maxTag) (data : Octets) :
    unpackFrom kind strict (before ++ (Varint.encode tag ++ data)) before.length =
      if h : kind.size ≤ data.length then
        .ok (⟨tag, data.take kind.size, htag, by rw [List.length_take, Nat.min_eq_left h]⟩,
          ((before.length + Varint.size tag + kind.size : Nat) : Int))
      else .error (.truncated kind data.length) := by
  rw [unpackFrom_append_of_decode kind strict before htag (decode_tag_append strict htag data),
    Varint.length_encode]

/-- What is read as a tag and what stands behind it: exactly the size of the kind is a value, less
    is missing and more is left over. -/
theorem deserialize_append_of_decode (strict : Bool) {tag : Nat} (htag : tag ≤ Varint.maxTag)
    {word data : Octets}
    (hread : Varint.decode strict Varint.maxTag (word ++ data) = .ok (tag, word.length)) :
    deserialize kind strict (word ++ data) =
      if h : data.length = kind.size then .ok ⟨tag, data, htag, h⟩
      else if data.length < kind.size then .error (.truncated kind data.length)
      else .error (.trailing kind ((data.length - kind.size : Nat) : Int)) := by
  have hunpack := unpackFrom_append_of_decode kind strict [] htag hread
  rw [List.nil_append, List.length_nil, Int.natCast_zero] at hunpack
  rw [deserialize, hunpack]
  by_cases hmissing : data.length < kind.size
  · rw [dif_neg (by omega), dif_neg (by omega), if_pos hmissing]
    rfl
  · rw [dif_pos (by omega)]
    by_cases h : data.length = kind.size
    · have hall : data.take kind.size = data := by rw [← h, List.take_length]
      simp only [bind, Except.bind, hall, List.length_append]
      rw [if_pos (by omega), dif_pos h]
    · simp only [bind, Except.bind, List.length_append]
      rw [if_neg (by omega), dif_neg h, if_neg hmissing]
      congr 2
      omega

theorem deserialize_append (strict : Bool) {tag : Nat} (htag : tag ≤ Varint.maxTag)
    (data : Octets) :
    deserialize kind strict (Varint.encode tag ++ data) =
      if h : data.length = kind.size then .ok ⟨tag, data, htag, h⟩
      else if data.length < kind.size then .error (.truncated kind data.length)
      else .error (.trailing kind ((data.length - kind.size : Nat) : Int)) :=
  deserialize_append_of_decode kind strict htag (decode_tag_append strict htag data)

/-- A malformed tag is what is reported, whatever stands behind it. -/
theorem deserialize_of_badTag {strict : Bool} {bytes : Octets} {flaw : Varint.Flaw}
    (hread : Varint.decode strict Varint.maxTag bytes = .error flaw) :
    deserialize kind strict bytes = .error (.badTag flaw) := by
  simp only [deserialize, unpackFrom, Varint.decodeAt?, Offset.ahead?_zero, Option.map_some, hread]
  rfl

/-- Strictly read, bytes begin with the encoding of a tag in range or are refused for their tag. -/
theorem exists_tag_or_badTag (bytes : Octets) :
    (∃ tag, tag ≤ Varint.maxTag ∧ ∃ data, bytes = Varint.encode tag ++ data) ∨
      ∃ flaw, Varint.decode true Varint.maxTag bytes = .error flaw := by
  cases hread : Varint.decode true Varint.maxTag bytes with
  | error flaw => exact .inr ⟨flaw, rfl⟩
  | ok result =>
    obtain ⟨tag, used⟩ := result
    obtain ⟨htag, _, data, hbytes⟩ := Varint.decode_eq_ok_iff.1 hread
    exact .inl ⟨tag, htag, data, hbytes.symm⟩

end CryptoIntrinsics.Credential
