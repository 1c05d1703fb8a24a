namespace CryptoIntrinsics.Offset

variable {α : Type}

/-- The elements met when reading forward one index at a time from a signed offset. A negative
    offset starts that far before the end; the index then climbs through zero, so the whole sequence
    follows. `none` when the offset lies before the first element. -/
def ahead? (items : List α) (offset : Int) : Option (List α) :=
  if 0 ≤ offset then some (items.drop offset.toNat)
  else if -(items.length : Int) ≤ offset then
    some (items.drop (offset + items.length).toNat ++ items)
  else none

theorem ahead?_natCast (items : List α) (offset : Nat) :
    ahead? items offset = some (items.drop offset) := by
  simp [ahead?]

@[simp] theorem ahead?_zero (items : List α) : ahead? items 0 = some items :=
  ahead?_natCast items 0

end CryptoIntrinsics.Offset
