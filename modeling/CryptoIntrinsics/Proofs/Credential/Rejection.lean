import CryptoIntrinsics.Proofs.Credential.Canonical

namespace CryptoIntrinsics.Credential

variable {kind : Kind}

/-- What a report can say of a byte string that is no encoding. -/
inductive Complaint where
  | cutShort
  | leftOver
  | badTag
deriving DecidableEq, Repr

def Complaint.Words (kind : Kind) : Complaint → String → Prop
  | cutShort, message =>
    message = "truncated uvarint" ∨
      ∃ left : Int, message = s!"truncated {kind.name}: need {kind.size} data bytes, have {left}"
  | leftOver, message => message = s!"trailing bytes after {kind.name}"
  | badTag, message =>
    message = "uvarint too long" ∨ message = "non-minimal uvarint" ∨
      ∃ value : Nat, message = s!"uvarint value {value} exceeds {Varint.maxTag}"

/-- An outcome is a report of malformed bytes in the words of a complaint. -/
def Reports (complaint : Complaint) (outcome : Except Failure (Credential kind)) : Prop :=
  ∃ f, outcome = .error (.fault f) ∧ f.family = .decode ∧ complaint.Words kind f.message

/-- The first letters of a complaint's wordings, which no other complaint begins with. -/
def Complaint.openings : Complaint → List (List Char)
  | cutShort => ["trunc".toList]
  | leftOver => ["trail".toList]
  | badTag => ["uvari".toList, "non-m".toList]

theorem Complaint.Words.opening {complaint : Complaint} {message : String}
    (hwords : complaint.Words kind message) : message.toList.take 5 ∈ complaint.openings := by
  cases complaint with
  | cutShort =>
    obtain rfl | ⟨left, rfl⟩ := hwords
    · decide
    · simp [openings, String.toList_append, toString]
  | leftOver =>
    rw [show message = _ from hwords]
    simp [openings, String.toList_append, toString]
  | badTag =>
    obtain rfl | rfl | ⟨value, rfl⟩ := hwords
    · decide
    · decide
    · simp [openings, String.toList_append, toString]

theorem Complaint.Words.message_of {complaint : Complaint} {message : String}
    (hwords : complaint.Words kind message) (family : Fault.Family)
    (context : List (String × Datum)) : (Fault.of family message context).message = message := by
  have hopening := hwords.opening
  have hfilled : message ≠ "" := by
    rintro rfl
    cases complaint <;> simp [openings] at hopening
  exact Fault.message_of hfilled family context

theorem Reports.complaint_eq {one other : Complaint} {outcome : Except Failure (Credential kind)}
    (hone : Reports one outcome) (hother : Reports other outcome) : one = other := by
  obtain ⟨f, rfl, _, hwords⟩ := hone
  obtain ⟨g, hsame, _, hothers⟩ := hother
  cases hsame
  have hopening := hwords.opening
  have hotherOpening := hothers.opening
  generalize f.message.toList.take 5 = front at hopening hotherOpening
  cases one <;> cases other <;> simp_all [Complaint.openings]

theorem not_reports_serialize (complaint : Complaint) (session : Session) (c : Credential kind) :
    ¬ Reports complaint (readIn kind session c.serialize) := by
  rintro ⟨f, hreport, _⟩
  rw [readIn_eq, deserialize_serialize] at hreport
  cases hreport

/-- No encoding of a kind begins another one. -/
theorem eq_of_prefix_serialize {c d : Credential kind} (hfront : c.serialize <+: d.serialize) :
    c = d := by
  obtain ⟨rest, hrest⟩ := hfront
  have hread := deserialize_serialize true d
  rw [← hrest, serialize, List.append_assoc, deserialize_append kind true c.tag_le] at hread
  have hlength := c.size_eq
  split at hread
  · next hwidth =>
    rw [List.length_append] at hwidth
    have hnil : rest = [] := List.length_eq_zero_iff.1 (by omega)
    subst hnil
    cases hread
    simp
  · split at hread <;> cases hread

/-- A value with the given tag and the given data in front. -/
theorem exists_prefix_data (kind : Kind) {tag : Nat} (htag : tag ≤ Varint.maxTag) {data : Octets}
    (hdata : data.length ≤ kind.size) :
    ∃ c : Credential kind, c.tag = tag ∧ data <+: c.data :=
  ⟨⟨tag, data ++ List.replicate (kind.size - data.length) 0, htag, by
    rw [List.length_append, List.length_replicate, Nat.add_sub_cancel' hdata]⟩, rfl,
    List.prefix_append _ _⟩

section Reading

variable {bytes : Octets}

/-- A run that ends too early for a tag is the beginning of an encoding. -/
theorem exists_serialize_of_truncated
    (hread : Varint.decode true Varint.maxTag bytes = .error .truncated) :
    ∃ c : Credential kind, bytes <+: c.serialize ∧ bytes ≠ c.serialize := by
  obtain ⟨hrun, hroom⟩ := Varint.decode_eq_truncated_iff.1 hread
  obtain ⟨tag, htag, back, hback, hencode⟩ := Varint.exists_encode_of_unfinished hrun hroom
  obtain ⟨c, rfl, _⟩ := @exists_prefix_data kind tag htag [] (Nat.zero_le _)
  refine ⟨c, ⟨back ++ c.data, ?_⟩, ?_⟩
  · rw [serialize, hencode, List.append_assoc]
  · intro hsame
    rw [serialize, hencode, List.append_assoc] at hsame
    have hlength := congrArg List.length hsame
    have hpos := List.length_pos_iff.2 hback
    simp only [List.length_append] at hlength
    omega

/-- A tag that is malformed for another reason than missing bytes begins no encoding, nor does an
    encoding begin bytes with such a tag. -/
theorem not_prefix_of_badTag {flaw : Varint.Flaw}
    (hread : Varint.decode true Varint.maxTag bytes = .error flaw) (hflaw : flaw ≠ .truncated)
    (c : Credential kind) : ¬ c.serialize <+: bytes ∧ ¬ bytes <+: c.serialize := by
  have hpresent (rest : Octets) := Varint.decode_encode_append true c.tag_le (c.data ++ rest)
  constructor
  · rintro ⟨rest, rfl⟩
    rw [serialize, List.append_assoc, hpresent] at hread
    cases hread
  · rintro ⟨rest, hrest⟩
    have hmissing : Varint.decode true Varint.maxTag bytes ≠ .error .truncated := by
      rw [hread]
      intro hsame
      cases hsame
      exact hflaw rfl
    have hsame := Varint.decode_append hmissing rest
    have hwhole := hpresent []
    rw [List.append_nil] at hwhole
    rw [hrest, hread, serialize, hwhole] at hsame
    cases hsame

end Reading

section Session

variable {session : Session} (hstrict : session.policyInForce.strictVarint = true)
include hstrict

theorem readIn_eq_error {bytes : Octets} {flaw : Flaw}
    (hread : deserialize kind true bytes = .error flaw) :
    readIn kind session bytes = .error (flaw.failure (.integer 0)) := by
  rw [readIn_eq, hstrict, hread]
  rfl

theorem reports_badTag (kind : Kind) {bytes : Octets} {flaw : Varint.Flaw}
    (hread : Varint.decode true Varint.maxTag bytes = .error flaw) :
    Reports (if flaw = .truncated then .cutShort else .badTag) (readIn kind session bytes) := by
  have hwords : (if flaw = .truncated then Complaint.cutShort else .badTag).Words kind
      (flaw.message (.integer Varint.maxTag)) := by
    cases flaw with
    | truncated => exact .inl rfl
    | tooLong => exact .inl rfl
    | nonMinimal => exact .inr (.inl rfl)
    | exceeds value => exact .inr (.inr ⟨value, rfl⟩)
  refine ⟨_, readIn_eq_error hstrict (deserialize_of_badTag kind hread), rfl, ?_⟩
  rw [Varint.Flaw.fault, hwords.message_of]
  exact hwords

theorem reports_cutShort {tag : Nat} (htag : tag ≤ Varint.maxTag) {data : Octets}
    (hdata : data.length < kind.size) :
    Reports .cutShort (readIn kind session (Varint.encode tag ++ data)) := by
  have hread : deserialize kind true (Varint.encode tag ++ data) =
      .error (.truncated kind data.length) := by
    rw [deserialize_append kind true htag, dif_neg (by omega), if_pos hdata]
  have hwords : Complaint.cutShort.Words kind
      s!"truncated {kind.name}: need {kind.size} data bytes, have {(data.length : Int)}" :=
    .inr ⟨data.length, rfl⟩
  refine ⟨_, readIn_eq_error hstrict hread, rfl, ?_⟩
  rw [hwords.message_of]
  exact hwords

/-- Bytes behind an encoding are reported, and so is how many they are. -/
theorem reports_leftOver (c : Credential kind) {rest : Octets} (hrest : rest ≠ []) :
    Reports .leftOver (readIn kind session (c.serialize ++ rest)) ∧
      ∃ f, readIn kind session (c.serialize ++ rest) = .error (.fault f) ∧
        f.context.lookup "trailing" = some (.integer rest.length) := by
  have hpos := List.length_pos_iff.2 hrest
  have hlength : (c.data ++ rest).length = kind.size + rest.length := by
    rw [List.length_append, c.size_eq]
  have hread : deserialize kind true (c.serialize ++ rest) =
      .error (.trailing kind (rest.length : Int)) := by
    rw [serialize, List.append_assoc, deserialize_append kind true c.tag_le, dif_neg (by omega),
      if_neg (by omega), hlength, Nat.add_sub_cancel_left]
  have hwords : Complaint.leftOver.Words kind s!"trailing bytes after {kind.name}" := rfl
  have herror := readIn_eq_error hstrict hread
  refine ⟨⟨_, herror, rfl, ?_⟩, _, herror, rfl⟩
  rw [hwords.message_of]
  exact hwords

/-- Every byte string is an encoding or is reported for what it is. -/
theorem classify (kind : Kind) (bytes : Octets) :
    (∃ c : Credential kind, bytes = c.serialize) ∨
    (Reports .cutShort (readIn kind session bytes) ∧
      ∃ c : Credential kind, bytes <+: c.serialize ∧ bytes ≠ c.serialize) ∨
    (Reports .leftOver (readIn kind session bytes) ∧
      ∃ c : Credential kind, c.serialize <+: bytes ∧ c.serialize ≠ bytes) ∨
    (Reports .badTag (readIn kind session bytes) ∧
      ∀ c : Credential kind, ¬ c.serialize <+: bytes ∧ ¬ bytes <+: c.serialize) := by
  obtain ⟨tag, htag, data, rfl⟩ | ⟨flaw, hflaw⟩ := exists_tag_or_badTag bytes
  -- Behind a tag in range, only the number of bytes decides.
  · obtain hless | hsame | hmore := Nat.lt_trichotomy data.length kind.size
    · obtain ⟨c, rfl, back, hback⟩ := exists_prefix_data kind htag (Nat.le_of_lt hless)
      refine .inr (.inl ⟨reports_cutShort hstrict htag hless, c, ⟨back, ?_⟩, ?_⟩)
      · rw [serialize, ← hback, List.append_assoc]
      · intro hwhole
        have hlength := c.size_eq
        rw [← List.append_cancel_left hwhole] at hlength
        omega
    · exact .inl ⟨⟨tag, data, htag, hsame⟩, rfl⟩
    · have hwidth : (data.take kind.size).length = kind.size := by
        rw [List.length_take, Nat.min_eq_left (Nat.le_of_lt hmore)]
      let c : Credential kind := ⟨tag, data.take kind.size, htag, hwidth⟩
      have hrest : data.drop kind.size ≠ [] := by
        rw [ne_eq, List.drop_eq_nil_iff]
        omega
      have hbytes : Varint.encode tag ++ data = c.serialize ++ data.drop kind.size := by
        rw [serialize, List.append_assoc, List.take_append_drop]
      rw [hbytes]
      refine .inr (.inr (.inl ⟨(reports_leftOver hstrict c hrest).1, c, ⟨_, rfl⟩, ?_⟩))
      intro hwhole
      exact hrest (List.self_eq_append_right.1 hwhole)
  · have hreport := reports_badTag hstrict kind hflaw
    by_cases hmissing : flaw = .truncated
    · subst hmissing
      exact .inr (.inl ⟨hreport, exists_serialize_of_truncated hflaw⟩)
    · rw [if_neg hmissing] at hreport
      exact .inr (.inr (.inr ⟨hreport, not_prefix_of_badTag hflaw hmissing⟩))

theorem reports_cutShort_iff (kind : Kind) (bytes : Octets) :
    Reports .cutShort (readIn kind session bytes) ↔
      ∃ c : Credential kind, bytes <+: c.serialize ∧ bytes ≠ c.serialize := by
  have hclass := classify hstrict kind bytes
  constructor
  · intro hreport
    obtain ⟨c, rfl⟩ | ⟨_, hshort⟩ | ⟨hother, _⟩ | ⟨hother, _⟩ := hclass
    · exact absurd hreport (not_reports_serialize _ _ c)
    · exact hshort
    · cases hreport.complaint_eq hother
    · cases hreport.complaint_eq hother
  · rintro ⟨c, hfront, hne⟩
    obtain ⟨d, rfl⟩ | ⟨hreport, _⟩ | ⟨_, d, hlonger, hother⟩ | ⟨_, halien⟩ := hclass
    · rw [eq_of_prefix_serialize hfront] at hne
      exact absurd rfl hne
    · exact hreport
    · have hsame := eq_of_prefix_serialize (hlonger.trans hfront)
      subst hsame
      exact absurd (hlonger.eq_of_length_le hfront.length_le) hother
    · exact absurd hfront (halien c).2

theorem reports_leftOver_iff (kind : Kind) (bytes : Octets) :
    Reports .leftOver (readIn kind session bytes) ↔
      ∃ c : Credential kind, c.serialize <+: bytes ∧ c.serialize ≠ bytes := by
  constructor
  · intro hreport
    obtain ⟨c, rfl⟩ | ⟨hother, _⟩ | ⟨_, hlonger⟩ | ⟨hother, _⟩ := classify hstrict kind bytes
    · exact absurd hreport (not_reports_serialize _ _ c)
    · cases hreport.complaint_eq hother
    · exact hlonger
    · cases hreport.complaint_eq hother
  · rintro ⟨c, ⟨rest, rfl⟩, hne⟩
    have hrest : rest ≠ [] := by simpa using hne
    exact (reports_leftOver hstrict c hrest).1

theorem reports_badTag_iff (kind : Kind) (bytes : Octets) :
    Reports .badTag (readIn kind session bytes) ↔
      ∀ c : Credential kind,
        bytes ≠ c.serialize ∧ ¬ c.serialize <+: bytes ∧ ¬ bytes <+: c.serialize := by
  have hclass := classify hstrict kind bytes
  constructor
  · intro hreport c
    obtain ⟨d, rfl⟩ | ⟨hother, _⟩ | ⟨hother, _⟩ | ⟨_, halien⟩ := hclass
    · exact absurd hreport (not_reports_serialize _ _ d)
    · cases hreport.complaint_eq hother
    · cases hreport.complaint_eq hother
    · refine ⟨?_, halien c⟩
      rintro rfl
      exact (halien c).1 (List.prefix_refl _)
  · intro halien
    obtain ⟨c, rfl⟩ | ⟨_, c, hfront, _⟩ | ⟨_, c, hfront, _⟩ | ⟨hreport, _⟩ := hclass
    · exact absurd rfl (halien c).1
    · exact absurd hfront (halien c).2.2
    · exact absurd hfront (halien c).2.1
    · exact hreport

end Session

/-- With padded integers refused, missing bytes are reported exactly for what can still become an
    encoding, bytes left over exactly for what begins with an encoding, with their number, and a
    malformed tag exactly for what neither is, nor begins with, nor begins an encoding. -/
theorem reports_iff (kind : Kind) (session : Session)
    (hstrict : session.policyInForce.strictVarint = true) (bytes : Octets) :
    (Reports .cutShort (readIn kind session bytes) ↔
      ∃ c : Credential kind, bytes <+: c.serialize ∧ bytes ≠ c.serialize) ∧
    (Reports .leftOver (readIn kind session bytes) ↔
      ∃ c : Credential kind, c.serialize <+: bytes ∧ c.serialize ≠ bytes) ∧
    (∀ c : Credential kind, c.serialize <+: bytes → c.serialize ≠ bytes →
      ∃ f, readIn kind session bytes = .error (.fault f) ∧
        f.context.lookup "trailing" = some (.integer (bytes.length - c.serialize.length))) ∧
    (Reports .badTag (readIn kind session bytes) ↔
      ∀ c : Credential kind,
        bytes ≠ c.serialize ∧ ¬ c.serialize <+: bytes ∧ ¬ bytes <+: c.serialize) := by
  refine ⟨reports_cutShort_iff hstrict kind bytes, reports_leftOver_iff hstrict kind bytes, ?_,
    reports_badTag_iff hstrict kind bytes⟩
  rintro c ⟨rest, rfl⟩ hne
  have hrest : rest ≠ [] := by simpa using hne
  obtain ⟨f, herror, hcontext⟩ := (reports_leftOver hstrict c hrest).2
  refine ⟨f, herror, ?_⟩
  rw [hcontext, List.length_append]
  congr 2
  omega

/-- One byte behind a signature of an unknown curve. -/
theorem reports_iff_unknown_curve :
    let c : Signature := ⟨Varint.maxTag, List.replicate 65 7, Nat.le_refl _, rfl⟩
    Session.start.policyInForce.strictVarint = true ∧
      Reports .leftOver (readIn .signature Session.start (c.serialize ++ [0])) := by
  intro c
  exact ⟨rfl, (reports_iff .signature Session.start rfl _).2.1.2 ⟨c, ⟨[0], rfl⟩, by simp⟩⟩

end CryptoIntrinsics.Credential
