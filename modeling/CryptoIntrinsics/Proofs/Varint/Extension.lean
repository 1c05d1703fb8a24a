import CryptoIntrinsics.Proofs.Varint.Reading

namespace CryptoIntrinsics.Varint

section Arrival

variable {strict : Bool} {bound : Nat} {exporter : Exporter} {contiguous : Bool} {bytes : Octets}
  {offset : Nat} {session : Session}

theorem reports_truncated_iff :
    Reports "truncated uvarint"
        ((readAt strict bound (.byteRow exporter contiguous bytes) offset).outcome session) ↔
      decode strict bound (bytes.drop offset) = .error .truncated := by
  have hplain : ∀ n, Flaw.truncated ≠ .exceeds n := fun _ => nofun
  exact reports_message_iff hplain

/-- Bytes behind an input that does not lack any change nothing. -/
theorem outcome_readAt_append (hread : decode strict bound (bytes.drop offset) ≠ .error .truncated)
    (rest : Octets) :
    (readAt strict bound (.byteRow exporter contiguous (bytes ++ rest)) offset).outcome session =
      (readAt strict bound (.byteRow exporter contiguous bytes) offset).outcome session := by
  rw [outcome_readAt, outcome_readAt, List.drop_append, decode_append hread]

/-- An input that lacks bytes is completed by some, where offsets behind its end are reached
    first. -/
theorem exists_completion (hread : decode true maxTag (bytes.drop offset) = .error .truncated) :
    ∃ rest ≠ [], ∃ answer,
      (readAt true maxTag (.byteRow exporter contiguous (bytes ++ rest)) offset).outcome session =
        .ok answer := by
  obtain ⟨hrun, hroom⟩ := decode_eq_truncated_iff.1 hread
  obtain ⟨n, hn, back, hback, hencode⟩ := exists_encode_of_unfinished hrun hroom
  have hdrop : (bytes ++ (List.replicate (offset - bytes.length) 0 ++ back)).drop offset =
      encode n := by
    rw [List.drop_append, List.drop_left' List.length_replicate, hencode]
  have hdecode : decode true maxTag (encode n) = .ok (n, size n) :=
    decode_eq_ok_iff.2 ⟨hn, rfl, List.prefix_refl _⟩
  rw [← hdrop] at hdecode
  refine ⟨List.replicate (offset - bytes.length) 0 ++ back, ?_, _,
    outcome_readAt_eq_ok_iff.2 ⟨n, size n, hdecode, rfl⟩⟩
  exact List.append_ne_nil_of_right_ne_nil _ hback

end Arrival

/-- Reading is determined by the bytes up to the end of the integer: unless the input is reported
    as truncated, bytes behind it change nothing. It is reported so exactly if all bytes from the
    offset on ask for another one and are fewer than the bound allows. A tag that is read strictly
    is reported so exactly if it is not there yet, and some bytes complete it. -/
theorem truncated_iff_completable (strict : Bool) (bound : Nat) (exporter : Exporter)
    (contiguous : Bool) (bytes : Octets) (offset : Nat) (session : Session) :
    let outcome (strict : Bool) (bound : Nat) (bytes : Octets) :=
      (readAt strict bound (.byteRow exporter contiguous bytes) offset).outcome session
    (¬ Reports "truncated uvarint" (outcome strict bound bytes) →
      ∀ rest, outcome strict bound (bytes ++ rest) = outcome strict bound bytes) ∧
    (Reports "truncated uvarint" (outcome strict bound bytes) ↔
      Unfinished (bytes.drop offset) ∧ (bytes.drop offset).length < size bound) ∧
    (Reports "truncated uvarint" (outcome true maxTag bytes) ↔
      (∀ answer, outcome true maxTag bytes ≠ .ok answer) ∧
        ∃ rest ≠ [], ∃ answer, outcome true maxTag (bytes ++ rest) = .ok answer) := by
  dsimp only
  refine ⟨fun hother rest => ?_, ?_, ?_, ?_⟩
  · exact outcome_readAt_append (fun hread => hother (reports_truncated_iff.2 hread)) rest
  · rw [reports_truncated_iff, decode_eq_truncated_iff, Int.natAbs_natCast]
  · intro htruncated
    refine ⟨fun answer hread => ?_, exists_completion (reports_truncated_iff.1 htruncated)⟩
    obtain ⟨fault, hfault, -⟩ := htruncated
    rw [hread] at hfault
    cases hfault
  · rintro ⟨hunread, rest, -, answer, hread⟩
    by_contra hother
    rw [outcome_readAt_append fun hshort => hother (reports_truncated_iff.2 hshort)] at hread
    exact hunread answer hread

/-- A byte that asks for another one is reported as truncated; one that does not is read, whatever
    follows. -/
theorem truncated_iff_completable_byte :
    let outcome (bytes : Octets) := (readAt true maxTag (.ofOctets bytes) 0).outcome .start
    Reports "truncated uvarint" (outcome [0x80]) ∧ ¬ Reports "truncated uvarint" (outcome [0]) ∧
      outcome ([0] ++ [7]) = outcome [0] := by
  intro outcome
  obtain ⟨-, hopen, -⟩ := truncated_iff_completable true maxTag .bytes true [0x80] 0 .start
  obtain ⟨hkept, hclosed, -⟩ := truncated_iff_completable true maxTag .bytes true [0] 0 .start
  have hread : ¬ Reports "truncated uvarint" (outcome [0]) := by
    intro htruncated
    have hrun := (hclosed.1 htruncated).1
    exact absurd (hrun 0 List.mem_cons_self) (by decide)
  exact ⟨hopen.2 ⟨unfinished_cons.2 ⟨by decide, unfinished_nil⟩, by decide⟩, hread,
    hkept hread [7]⟩

/-- What is there already can be followed by more bytes, and is not truncated. -/
theorem not_truncated_of_found :
    let outcome (bytes : Octets) := (readAt true maxTag (.ofOctets bytes) 0).outcome .start
    ¬ (Reports "truncated uvarint" (outcome [0]) ↔
      ∃ rest ≠ [], ∃ answer, outcome ([0] ++ rest) = .ok answer) := by
  intro outcome hiff
  have hread (rest : Octets) : outcome ([0] ++ rest) = .ok (.placed (.integer 0) 1) :=
    outcome_readAt_eq_ok_iff.2 ⟨0, 1, rfl, rfl⟩
  obtain ⟨fault, hfault, -⟩ := hiff.2 ⟨[0], nofun, _, hread [0]⟩
  have hfound : outcome [0] = .ok (.placed (.integer 0) 1) := hread []
  rw [hfound] at hfault
  cases hfault

end CryptoIntrinsics.Varint
