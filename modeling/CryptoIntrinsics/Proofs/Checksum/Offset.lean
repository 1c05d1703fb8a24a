import CryptoIntrinsics.Proofs.Checksum.Reading
import CryptoIntrinsics.Proofs.Octets.Window
import CryptoIntrinsics.Proofs.Varint.Reading

namespace CryptoIntrinsics.Checksum

open Text.IntegerLiteral

/-- Among so many bytes, a value of the kind is read at the offset: from the first byte on it ends
    with the last one at the latest, and from the end on it ends before the last one. -/
def Fits (kind : Kind) (size : Nat) (offset : Int) : Prop :=
  (0 ≤ offset ∧ offset + kind.size ≤ size) ∨
    (-(size : Int) ≤ offset ∧ offset < -(kind.size : Int))

/-- The bytes of a value stand at an offset, which may count from the end. -/
def StandsAt {kind : Kind} (c : Checksum kind) (bytes : Octets) (offset : Int) : Prop :=
  ∃ before after, bytes = before ++ c.data ++ after ∧
    (before.length : Int) = if 0 ≤ offset then offset else bytes.length + offset

/-- How an offset is refused. -/
inductive Refuses (offset : Int) : Except Failure Answer → Prop where
  /-- The bytes are malformed. -/
  | malformed {fault} (hshown : offset < (10 ^ maxDecimalDigits : Nat))
      (hfamily : fault.family = .decode) : Refuses offset (.error (.fault fault))
  /-- The offset has too many digits for the report. -/
  | unshown (hlong : ((10 ^ maxDecimalDigits : Nat) : Int) ≤ offset) :
      Refuses offset (.error (.stray .value "*"))

theorem Refuses.ne_ok {offset : Int} {outcome : Except Failure Answer}
    (hrefuses : Refuses offset outcome) (answer : Answer) : outcome ≠ .ok answer := by
  cases hrefuses <;> exact nofun

theorem Refuses.exists_fault {offset : Int} {outcome : Except Failure Answer}
    (hrefuses : Refuses offset outcome) (hshown : offset < (10 ^ maxDecimalDigits : Nat)) :
    ∃ fault, outcome = .error (.fault fault) ∧ fault.family = .decode := by
  cases hrefuses with
  | malformed _ hfamily => exact ⟨_, rfl, hfamily⟩
  | unshown hlong => omega

theorem lt_of_nonpos {offset : Int} (hback : offset ≤ 0) :
    offset < (10 ^ maxDecimalDigits : Nat) :=
  Int.lt_of_le_of_lt hback (Int.natCast_pos.2 (Nat.pow_pos (by decide)))

variable {kind : Kind} {bytes : Octets} {offset : Int}

theorem Kind.size_pos (hkind : kind ≠ .empty) : 0 < kind.size := by
  cases kind with
  | empty => exact absurd rfl hkind
  | _ => decide

theorem Kind.size_le (kind : Kind) : kind.size ≤ 64 := by cases kind <;> decide

section Reading

/-- Both ends of a window in which a value is read are places in the bytes, as far apart as the
    value has bytes. -/
theorem Fits.place_add (hfits : Fits kind bytes.length offset) :
    Octets.place bytes.length (offset + kind.size) =
        Octets.place bytes.length offset + kind.size ∧
      Octets.place bytes.length offset + kind.size ≤ bytes.length ∧
      (Octets.place bytes.length offset : Int) =
        if 0 ≤ offset then offset else bytes.length + offset := by
  obtain ⟨hfirst, hlast⟩ | ⟨hfirst, hlast⟩ := hfits
  · have hstart : Octets.place bytes.length offset = offset.toNat := by
      rw [Octets.place, if_neg (by omega)]
      omega
    have hstop : Octets.place bytes.length (offset + kind.size) = offset.toNat + kind.size := by
      rw [Octets.place, if_neg (by omega)]
      omega
    rw [hstart, hstop, if_pos hfirst]
    omega
  · have hstart : Octets.place bytes.length offset = (bytes.length + offset).toNat := by
      rw [Octets.place, if_pos (by omega), Int.add_comm]
    have hstop : Octets.place bytes.length (offset + kind.size) =
        (bytes.length + offset).toNat + kind.size := by
      rw [Octets.place, if_pos (by omega)]
      omega
    rw [hstart, hstop, if_neg (by omega)]
    omega

/-- Where a value is read, its bytes stand at the offset. -/
theorem unpackFrom_of_fits (hfits : Fits kind bytes.length offset) :
    ∃ c : Checksum kind,
      unpackFrom kind bytes offset = .ok (c, offset + kind.size) ∧ c.StandsAt bytes offset := by
  obtain ⟨hstop, hinside, hstart⟩ := hfits.place_add
  generalize hplace : Octets.place bytes.length offset = start at hstop hinside hstart
  have hwindow : bytes.window offset (offset + kind.size) =
      (bytes.drop start).take kind.size := by
    simp only [Octets.window]
    rw [hplace, hstop, Nat.add_sub_cancel_left]
  have hwidth : ((bytes.drop start).take kind.size).length = kind.size := by
    rw [List.length_take, List.length_drop]
    omega
  refine ⟨⟨(bytes.drop start).take kind.size, hwidth⟩, ?_, bytes.take start,
    bytes.drop (start + kind.size), ?_, ?_⟩
  · have hends : offset + kind.size ≤ bytes.length := by
      obtain ⟨-, hlast⟩ | ⟨-, hlast⟩ := hfits <;> omega
    simp only [unpackFrom]
    rw [if_neg (by omega), hwindow, ofOctets_of_length kind hwidth]
    rfl
  · rw [← List.drop_drop, List.append_assoc, List.take_append_drop, List.take_append_drop]
  · rw [List.length_take, Nat.min_eq_left (by omega), hstart]

/-- Every other window that ends in the bytes has too few of them. -/
theorem length_window_lt (hkind : kind ≠ .empty) (hnot : ¬ Fits kind bytes.length offset)
    (hends : offset + kind.size ≤ bytes.length) :
    (bytes.window offset (offset + kind.size)).length < kind.size := by
  have hpos := Kind.size_pos hkind
  -- A window that begins at a place of its own and ends in the bytes would fit.
  have hback : offset < 0 := by
    by_contra hfront
    exact hnot (.inl ⟨by omega, hends⟩)
  obtain ⟨back, rfl⟩ : ∃ back : Nat, offset = -(back : Int) := ⟨offset.natAbs, by omega⟩
  by_cases hinside : back ≤ bytes.length
  · have hreach : back ≤ 0 + kind.size := by
      by_contra hbefore
      exact hnot (.inr ⟨by omega, by omega⟩)
    have hshort := Octets.length_window_neg_lt hinside (by omega : 0 < back) hreach
    simpa using hshort
  · exact Octets.length_window_neg_lt_of_lt (by omega) hpos

end Reading

section Refusal

theorem isWritable_of_le_size {n : Int} (hsmall : n.natAbs ≤ 64) : isWritable n = true := by
  have hpow : 10 ^ 2 ≤ 10 ^ maxDecimalDigits :=
    Nat.pow_le_pow_right (by decide) (by decide : 2 ≤ maxDecimalDigits)
  rw [isWritable_iff]
  omega

theorem refuses_of_isWritable (flaw : Flaw) (hshown : isWritable offset = true) :
    Refuses offset (.error (flaw.failure (.integer offset))) := by
  have hdigits := isWritable_iff.1 hshown
  have hfault : flaw.failure (.integer offset) = .fault (flaw.fault (.integer offset)) := by
    cases flaw with
    | truncated kind available => exact if_pos hshown
    | _ => rfl
  rw [hfault]
  exact .malformed (by omega) (by cases flaw <;> rfl)

/-- Elsewhere nothing is read. The report about too few bytes shows the offset, so there is none
    about an offset behind the bytes that has too many digits. -/
theorem exists_flaw_of_not_fits (hkind : kind ≠ .empty)
    (hnot : ¬ Fits kind bytes.length offset) :
    ∃ flaw, unpackFrom kind bytes offset = .error flaw ∧
      Refuses offset (.error (flaw.failure (.integer offset))) := by
  have hsize := kind.size_le
  by_cases hends : (bytes.length : Int) < offset + kind.size
  · refine ⟨_, if_pos hends, ?_⟩
    by_cases hshown : isWritable offset = true
    · exact refuses_of_isWritable _ hshown
    · -- Offsets from the end that reach behind the bytes are too small to have so many digits.
      have hback : 0 ≤ offset := by
        by_contra hneg
        exact hshown (isWritable_of_le_size (by omega))
      have hdigits : ¬ offset.natAbs < 10 ^ maxDecimalDigits := fun hlt =>
        hshown (isWritable_iff.2 hlt)
      have hfailure : (Flaw.truncated kind (bytes.length - offset).toNat).failure
          (.integer offset) = .stray .value "*" := if_neg hshown
      rw [hfailure]
      exact .unshown (by omega)
  · have hshort := length_window_lt hkind hnot (by omega)
    refine ⟨.width kind (bytes.window offset (offset + kind.size)).length, ?_, ?_⟩
    · simp only [unpackFrom]
      rw [if_neg hends, ofOctets, dif_neg (by omega)]
      rfl
    · have hback : offset < 0 := by
        by_contra hfront
        exact hnot (.inl ⟨by omega, by omega⟩)
      exact .malformed (lt_of_nonpos (by omega)) rfl

end Refusal

section Exact

/-- All bytes are read as a value if they are as many as it has; fewer are too few, and more are
    left over. -/
theorem deserialize_eq (kind : Kind) (bytes : Octets) :
    deserialize kind bytes =
      if h : bytes.length = kind.size then .ok ⟨bytes, h⟩
      else if bytes.length < kind.size then .error (.truncated kind bytes.length)
      else .error (.trailing kind (bytes.length - kind.size)) := by
  have hunpack := unpackFrom_append kind [] bytes
  rw [List.nil_append, List.length_nil, Int.natCast_zero] at hunpack
  rw [deserialize, hunpack]
  by_cases hmissing : bytes.length < kind.size
  · rw [dif_neg (by omega), dif_neg (by omega), if_pos hmissing]
    rfl
  · rw [dif_pos (by omega)]
    by_cases h : bytes.length = kind.size
    · have hall : bytes.take kind.size = bytes := by rw [← h, List.take_length]
      simp only [bind, Except.bind, hall]
      rw [if_pos (by omega), dif_pos h]
    · simp only [bind, Except.bind]
      rw [if_neg (by omega), dif_neg h, if_neg hmissing]
      congr 2
      omega

theorem deserialize_eq_ok_iff {c : Checksum kind} :
    deserialize kind bytes = .ok c ↔ bytes = c.serialize := by
  rw [deserialize_eq]
  constructor
  · intro hread
    split at hread
    · cases hread
      rfl
    · split at hread <;> cases hread
  · rintro rfl
    exact dif_pos c.size_eq

end Exact

section Operations

variable {source : Datum}

theorem outcome_readChecksumAt (hlent : source.lent = .ok bytes) (session : Session) :
    (Operation.readChecksumAt kind source (.integer offset)).outcome session =
      match unpackFrom kind bytes offset with
      | .ok (c, next) => .ok (.placed (.checksum kind c) next)
      | .error flaw => .error (flaw.failure (.integer offset)) := by
  have hread : readAt kind source (.integer offset) =
      settleAt (.integer offset) (unpackFrom kind bytes offset) := by
    rw [readAt, hlent]
    rfl
  rw [Operation.outcome, Operation.run, Procedure.runOn_demand_bind, hread]
  cases unpackFrom kind bytes offset with
  | error flaw => rfl
  | ok found => rfl

theorem outcome_readChecksum (hlent : source.lent = .ok bytes) (session : Session) :
    (Operation.readChecksum kind source).outcome session =
      match deserialize kind bytes with
      | .ok c => .ok (.datum (.checksum kind c))
      | .error flaw => .error (flaw.failure (.integer 0)) := by
  have hread : read kind source = settle (deserialize kind bytes) := by
    rw [read, hlent]
    rfl
  rw [Operation.outcome, Operation.run, Procedure.runOn_demand_bind, hread]
  cases deserialize kind bytes with
  | error flaw => rfl
  | ok c => rfl

theorem outcome_readChecksum_eq_ok_iff (hlent : source.lent = .ok bytes) {session : Session}
    {answer : Answer} :
    (Operation.readChecksum kind source).outcome session = .ok answer ↔
      ∃ c : Checksum kind, bytes = c.serialize ∧ answer = .datum (.checksum kind c) := by
  rw [outcome_readChecksum hlent]
  cases hread : deserialize kind bytes with
  | error flaw =>
    constructor
    · intro hanswer
      cases hanswer
    · rintro ⟨c, hbytes, -⟩
      rw [deserialize_eq_ok_iff.2 hbytes] at hread
      cases hread
  | ok c =>
    have hbytes := deserialize_eq_ok_iff.1 hread
    constructor
    · rintro ⟨⟩
      exact ⟨c, hbytes, rfl⟩
    · rintro ⟨d, hd, rfl⟩
      rw [deserialize_eq_ok_iff.2 hd] at hread
      rw [Except.ok.inj hread]

theorem malformed_readChecksum (hlent : source.lent = .ok bytes)
    (hlength : bytes.length ≠ kind.size) (session : Session) :
    ∃ fault, (Operation.readChecksum kind source).outcome session = .error (.fault fault) ∧
      fault.family = .decode := by
  obtain ⟨flaw, hread⟩ : ∃ flaw, deserialize kind bytes = .error flaw := by
    rw [deserialize_eq, dif_neg hlength]
    split <;> exact ⟨_, rfl⟩
  have hshown : isWritable 0 = true := isWritable_of_le_size (by decide)
  have hrefuses := refuses_of_isWritable flaw hshown
  rw [outcome_readChecksum hlent, hread]
  exact hrefuses.exists_fault (lt_of_nonpos (Int.le_refl 0))

theorem outcome_readChecksumAt_of_fits (hlent : source.lent = .ok bytes)
    (hfits : Fits kind bytes.length offset) (session : Session) :
    ∃ c : Checksum kind, c.StandsAt bytes offset ∧
      (Operation.readChecksumAt kind source (.integer offset)).outcome session =
        .ok (.placed (.checksum kind c) (offset + kind.size)) := by
  obtain ⟨c, hread, hstands⟩ := unpackFrom_of_fits hfits
  refine ⟨c, hstands, ?_⟩
  rw [outcome_readChecksumAt hlent, hread]

theorem refuses_readChecksumAt (hlent : source.lent = .ok bytes) (hkind : kind ≠ .empty)
    (hnot : ¬ Fits kind bytes.length offset) (session : Session) :
    Refuses offset
      ((Operation.readChecksumAt kind source (.integer offset)).outcome session) := by
  obtain ⟨flaw, hread, hrefuses⟩ := exists_flaw_of_not_fits hkind hnot
  rw [outcome_readChecksumAt hlent, hread]
  exact hrefuses

/-- Digest values are read from any lent bytes. At an offset, which may be any integer, a value is
    read exactly if it fits there, from the first byte on up to the last one or from the end on up
    to one before the last; its bytes stand there, and the offset behind it is answered. Any other
    offset is refused for malformed bytes, unless it lies behind them and has too many digits for
    the report. From all bytes a value is read exactly if it is written as these bytes, so there is
    one exactly for as many bytes as the kind has; other bytes are malformed. -/
theorem placed_iff_fits {source : Datum} {bytes : Octets} (hlent : source.lent = .ok bytes)
    {kind : Kind} (hkind : kind ≠ .empty) (session : Session) :
    (∀ offset : Int,
      let outcome := (Operation.readChecksumAt kind source (.integer offset)).outcome session
      (∀ answer, outcome = .ok answer → ∃ c : Checksum kind,
        answer = .placed (.checksum kind c) (offset + kind.size) ∧ c.StandsAt bytes offset) ∧
      ((∃ answer, outcome = .ok answer) ↔ Fits kind bytes.length offset) ∧
      (¬ Fits kind bytes.length offset → Refuses offset outcome)) ∧
    let outcome := (Operation.readChecksum kind source).outcome session
    (∀ c : Checksum kind, outcome = .ok (.datum (.checksum kind c)) ↔
      (Operation.serialize (.checksum kind c)).outcome session = .ok (.datum (.octets bytes))) ∧
    ((∃ answer, outcome = .ok answer) ↔ bytes.length = kind.size) ∧
    (bytes.length ≠ kind.size →
      ∃ fault, outcome = .error (.fault fault) ∧ fault.family = .decode) := by
  refine ⟨fun offset => ?_, fun c => ?_, ?_, fun hlength => ?_⟩
  · dsimp only
    by_cases hfits : Fits kind bytes.length offset
    · obtain ⟨c, hstands, hplaced⟩ := outcome_readChecksumAt_of_fits hlent hfits session
      rw [hplaced]
      refine ⟨?_, ⟨fun _ => hfits, fun _ => ⟨_, rfl⟩⟩, fun hnot => absurd hfits hnot⟩
      rintro _ ⟨⟩
      exact ⟨c, rfl, hstands⟩
    · have hrefuses := refuses_readChecksumAt hlent hkind hfits session
      exact ⟨fun answer hanswer => absurd hanswer (hrefuses.ne_ok answer),
        ⟨fun ⟨answer, hanswer⟩ => absurd hanswer (hrefuses.ne_ok answer),
          fun h => absurd h hfits⟩, fun _ => hrefuses⟩
  · have hwritten : (Operation.serialize (.checksum kind c)).outcome session =
        .ok (.datum (.octets c.serialize)) := rfl
    rw [outcome_readChecksum_eq_ok_iff hlent, hwritten]
    constructor
    · rintro ⟨d, rfl, ⟨⟩⟩
      rfl
    · intro hbytes
      exact ⟨c, (Datum.octets_inj.1 (Answer.datum.inj (Except.ok.inj hbytes))).symm, rfl⟩
  · simp only [outcome_readChecksum_eq_ok_iff hlent]
    constructor
    · rintro ⟨_, c, rfl, -⟩
      exact c.size_eq
    · intro hlength
      exact ⟨_, ⟨bytes, hlength⟩, rfl, rfl⟩
  · exact malformed_readChecksum hlent hlength session

/-- From the end on, a value is read where one more byte follows it, and not in the last bytes. -/
theorem placed_iff_fits_from_end :
    let source : Datum := .octets (List.replicate 20 7 ++ [1])
    let outcome (offset : Int) :=
      (Operation.readChecksumAt .bits160 source (.integer offset)).outcome .start
    source.lent = .ok (List.replicate 20 7 ++ [1]) ∧
    (∃ c : Checksum .bits160, outcome (-21) = .ok (.placed (.checksum .bits160 c) (-1)) ∧
      c.StandsAt (List.replicate 20 7 ++ [1]) (-21)) ∧
    ∃ fault, outcome (-20) = .error (.fault fault) ∧ fault.family = .decode := by
  intro source outcome
  have hlent : source.lent = .ok (List.replicate 20 7 ++ [1]) := rfl
  have hread := (placed_iff_fits hlent (by decide : Kind.bits160 ≠ .empty) .start).1
  refine ⟨hlent, ?_, ?_⟩
  · obtain ⟨hplaced, hfits, -⟩ := hread (-21)
    obtain ⟨answer, hanswer⟩ := hfits.2 (.inr ⟨by decide, by decide⟩)
    obtain ⟨c, rfl, hstands⟩ := hplaced answer hanswer
    exact ⟨c, hanswer, hstands⟩
  · obtain ⟨-, -, hrefuses⟩ := hread (-20)
    exact (hrefuses (by rw [Fits]; decide)).exists_fault (lt_of_nonpos (by decide))

/-- No bytes are refused as malformed at an offset with more digits than can be shown. -/
theorem not_malformed_of_long_offset :
    let outcome := (Operation.readChecksumAt .bits160 (.octets [])
      (.integer (10 ^ maxDecimalDigits : Nat))).outcome .start
    outcome = .error (.stray .value "*") ∧
      ¬ ((∃ answer, outcome = .ok answer) ∨
        ∃ fault, outcome = .error (.fault fault) ∧ fault.family = .decode) := by
  generalize hoffset : ((10 ^ maxDecimalDigits : Nat) : Int) = offset
  have hnot : ¬ Fits .bits160 ([] : Octets).length offset := by
    rw [Fits, List.length_nil, Kind.size]
    omega
  have hlent : (Datum.octets []).lent = .ok [] := rfl
  have hrefuses := refuses_readChecksumAt hlent (by decide : Kind.bits160 ≠ .empty) hnot .start
  intro outcome
  change Refuses offset outcome at hrefuses
  generalize outcome = ended at hrefuses
  cases hrefuses with
  | malformed hshown _ => omega
  | unshown _ => exact ⟨rfl, by rintro (⟨_, ⟨⟩⟩ | ⟨_, ⟨⟩, -⟩)⟩

end Operations

end CryptoIntrinsics.Checksum
