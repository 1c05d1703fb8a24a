import CryptoIntrinsics.CommandLine.Tool
import CryptoIntrinsics.Proofs.Field.Hexadecimal
import CryptoIntrinsics.Proofs.Text.Encoding

namespace CryptoIntrinsics.Hex

/-- A text comes from another one, of characters in pairs, by gaps before, between and behind the
    pairs. -/
inductive Spreads : List Char → List Char → Prop where
  | nil : Spreads [] []
  | gap {c : Char} {digits text : List Char} (hgap : isGap c = true)
      (hrest : Spreads digits text) : Spreads digits (c :: text)
  | pair {high low : Char} {digits text : List Char} (hrest : Spreads digits text) :
      Spreads (high :: low :: digits) (high :: low :: text)

section Bare

variable {text : List Char} {bytes : Octets}

theorem Writes.forall_lt {text : Octets} (hwrites : Writes text bytes) :
    ∀ b ∈ text, b.toNat < 128 := by
  have hlt {b : UInt8} {value : Nat} (hdigit : IsDigit b value) : b.toNat < 128 := by
    obtain ⟨hvalue, hcase⟩ := hdigit
    obtain ⟨hlower, hupper⟩ := toNat_digit value hvalue
    rw [hlower, hupper] at hcase
    grind
  induction hwrites with
  | nil => exact nofun
  | pair hhigh hlow _ ih =>
    exact List.forall_mem_cons.2 ⟨hlt hhigh, List.forall_mem_cons.2 ⟨hlt hlow, ih⟩⟩

theorem isDigit_ofNat_iff {c : Char} {value : Nat} (hascii : c.toNat < 128) :
    IsDigit (UInt8.ofNat c.toNat) value ↔ IsDigitChar c value := by
  rw [← nibble?_eq_some_iff, ← nibble?_toNat_eq_some_iff, UInt8.toNat_ofNat',
    Nat.mod_eq_of_lt (by omega)]

/-- As bytes, a text is digit pairs exactly if it is digit pairs without gaps. -/
theorem writes_ofText_iff :
    Writes (Octets.ofText (String.ofList text)) bytes ↔
      WritesSpaced text bytes ∧ ∀ c ∈ text, isGap c = false := by
  constructor
  · intro hwrites
    have hascii := Octets.forall_lt_of_ofText hwrites.forall_lt
    rw [Octets.ofText_of_ascii hascii] at hwrites
    generalize hcodes : text.map (fun c => UInt8.ofNat c.toNat) = codes at hwrites
    induction hwrites generalizing text with
    | nil =>
      rw [List.map_eq_nil_iff.1 hcodes]
      exact ⟨.nil, nofun⟩
    | pair hhigh hlow _ ih =>
      obtain ⟨c, more, rfl, rfl, hmore⟩ := List.map_eq_cons_iff.1 hcodes
      obtain ⟨d, rest, rfl, rfl, hrest⟩ := List.map_eq_cons_iff.1 hmore
      obtain ⟨hc, hd, hascii⟩ : c.toNat < 128 ∧ d.toNat < 128 ∧ ∀ c ∈ rest, c.toNat < 128 := by
        simpa only [List.forall_mem_cons] using hascii
      rw [isDigit_ofNat_iff hc] at hhigh
      rw [isDigit_ofNat_iff hd] at hlow
      obtain ⟨hwrites, hbare⟩ := ih hascii hrest
      exact ⟨.pair hhigh hlow hwrites, List.forall_mem_cons.2
        ⟨hhigh.isGap_eq, List.forall_mem_cons.2 ⟨hlow.isGap_eq, hbare⟩⟩⟩
  · rintro ⟨hwrites, hbare⟩
    rw [Octets.ofText_of_ascii hwrites.toNat_lt]
    induction hwrites with
    | nil => exact .nil
    | gap hgap _ _ =>
      rw [(List.forall_mem_cons.1 hbare).1] at hgap
      cases hgap
    | pair hhigh hlow _ ih =>
      have hrest := (List.forall_mem_cons.1 (List.forall_mem_cons.1 hbare).2).2
      exact .pair ((isDigit_ofNat_iff hhigh.toNat_lt).2 hhigh)
        ((isDigit_ofNat_iff hlow.toNat_lt).2 hlow) (ih hrest)

/-- A printed byte string has no gaps, however its letters are written. -/
theorem writes_ofText_map_chars (spell : Char → Char)
    (hspell : ∀ value < 16, IsDigitChar (spell (digit value)) value) (bytes : Octets) :
    Writes (Octets.ofText (String.ofList ((chars bytes).map spell))) bytes := by
  refine writes_ofText_iff.2 ⟨writesSpaced_map_chars spell hspell bytes, ?_⟩
  rw [List.forall_mem_map]
  intro c hc
  obtain ⟨value, hlt, rfl⟩ := exists_digit_of_mem_chars hc
  exact (hspell value hlt).isGap_eq

/-- Digit pairs and gaps come from the same pairs without gaps. -/
theorem writesSpaced_iff_exists_spreads :
    WritesSpaced text bytes ↔
      ∃ digits, Spreads digits text ∧ Writes (Octets.ofText (String.ofList digits)) bytes := by
  simp only [writes_ofText_iff]
  constructor
  · intro hwrites
    induction hwrites with
    | nil => exact ⟨[], .nil, .nil, nofun⟩
    | gap hgap _ ih =>
      obtain ⟨digits, hspreads, hdigits⟩ := ih
      exact ⟨digits, .gap hgap hspreads, hdigits⟩
    | pair hhigh hlow _ ih =>
      obtain ⟨digits, hspreads, hdigits, hbare⟩ := ih
      exact ⟨_, .pair hspreads, .pair hhigh hlow hdigits, List.forall_mem_cons.2
        ⟨hhigh.isGap_eq, List.forall_mem_cons.2 ⟨hlow.isGap_eq, hbare⟩⟩⟩
  · rintro ⟨digits, hspreads, hdigits, hbare⟩
    induction hspreads generalizing bytes with
    | nil => exact hdigits
    | gap hgap _ ih => exact .gap hgap (ih hdigits hbare)
    | pair _ ih =>
      cases hdigits with
      | gap hgap _ =>
        rw [(List.forall_mem_cons.1 hbare).1] at hgap
        cases hgap
      | pair hhigh hlow hrest =>
        have hrest' := (List.forall_mem_cons.1 (List.forall_mem_cons.1 hbare).2).2
        exact .pair hhigh hlow (ih hrest hrest')

/-- The lenient reader takes digit pairs and gaps behind at most one marker. -/
theorem ofText?_eq_some_iff_exists_marker :
    ofText? text = some bytes ↔
      ∃ marker body, IsMarker marker ∧ text = marker ++ body ∧ WritesSpaced body bytes := by
  rw [ofText?_eq_some_iff]
  constructor
  · intro hwrites
    obtain ⟨marker, hmarker, htext⟩ := exists_marker text
    exact ⟨marker, _, hmarker, htext, hwrites⟩
  · rintro ⟨marker, body, hmarker, rfl, hwrites⟩
    rwa [dropMarker_append hmarker hwrites]

theorem eq_oddLength_iff {text : Octets} {flaw : Flaw} (hrefused : decode text = .error flaw) :
    flaw = .oddLength ↔ text.length % 2 = 1 := by
  rw [decode] at hrefused
  by_cases hodd : text.length % 2 = 1
  · rw [if_pos hodd] at hrefused
    cases hrefused
    exact iff_of_true rfl hodd
  · rw [if_neg hodd] at hrefused
    cases hpairs : pairs? [] (text.map (·.toNat)) with
    | some bytes =>
      rw [hpairs] at hrefused
      cases hrefused
    | none =>
      rw [hpairs] at hrefused
      cases hrefused
      exact iff_of_false Flaw.noConfusion hodd

end Bare

section Operations

variable {session : Session}

theorem outcome_decodeHex (b : Buffer) (session : Session) :
    (Operation.decodeHex (.buffer b)).outcome session =
      match decode b.flat with
      | .ok bytes => .ok (.datum (.octets bytes))
      | .error flaw => .error (.misuse (.notHex flaw)) := by
  have hread : Operation.decodeHex? (.buffer b) =
      match decode b.flat with
      | .ok bytes => .ok bytes
      | .error flaw => .error (.misuse (.notHex flaw)) := rfl
  rw [Operation.outcome, Operation.run, Procedure.runOn_demand_bind, hread]
  cases decode b.flat <;> rfl

theorem outcome_decodeHex_eq_ok_iff {b : Buffer} {bytes : Octets} :
    (Operation.decodeHex (.buffer b)).outcome session = .ok (.datum (.octets bytes)) ↔
      Writes b.flat bytes := by
  rw [outcome_decodeHex, ← decode_eq_ok_iff]
  cases decode b.flat with
  | error flaw => exact ⟨nofun, nofun⟩
  | ok other =>
    constructor
    · intro hread
      rw [Datum.octets_inj.1 (Answer.datum.inj (Except.ok.inj hread))]
    · rintro ⟨⟩
      rfl

theorem message_hex_eq_ok_iff {read : String → Except CommandLine.FileFlaw Octets} {text : String}
    {bytes : Octets} :
    CommandLine.message read (.hex (.text text)) = .ok bytes ↔
      ofText? text.toList = some bytes := by
  rw [CommandLine.message, ofText?]
  cases decodeSpaced (dropMarker text.toList) <;> simp [Except.toOption]

end Operations

/-- The strict reader takes just the byte strings of an even length in which every byte is a digit,
    among them each byte string as it is printed in either letter case, and reports an odd length
    for what it refuses exactly if the length is odd. The lenient reader takes a text for some bytes
    exactly if the text comes, by at most one marker and by gaps before, between and behind pairs,
    from one that the strict reader takes for the same bytes; so it takes whatever the strict reader
    takes. Messages of command lines are read by the lenient reader, and so are values, after the
    blanks around them are trimmed. -/
theorem lenient_adds_gaps (session : Session) :
    let strictly (source : Datum) := (Operation.decodeHex source).outcome session
    let bytesOf (text : List Char) : Datum := .octets (Octets.ofText (String.ofList text))
    (∀ b : Buffer,
      ((∃ bytes, strictly (.buffer b) = .ok (.datum (.octets bytes))) ↔
        b.flat.length % 2 = 0 ∧ ∀ x ∈ b.flat, ∃ value, IsDigit x value) ∧
      ((∀ bytes, strictly (.buffer b) ≠ .ok (.datum (.octets bytes))) →
        ∃ flaw, strictly (.buffer b) = .error (.misuse (.notHex flaw)) ∧
          (flaw = .oddLength ↔ b.flat.length % 2 = 1))) ∧
    (∀ bytes, strictly (bytesOf (chars bytes)) = .ok (.datum (.octets bytes)) ∧
      strictly (bytesOf ((chars bytes).map Char.toUpper)) = .ok (.datum (.octets bytes))) ∧
    (∀ text bytes, strictly (bytesOf text) = .ok (.datum (.octets bytes)) →
      ofText? text = some bytes) ∧
    (∀ text bytes, ofText? text = some bytes ↔
      ∃ marker body digits, IsMarker marker ∧ text = marker ++ body ∧ Spreads digits body ∧
        strictly (bytesOf digits) = .ok (.datum (.octets bytes))) ∧
    (∀ read (text : String) bytes, CommandLine.message read (.hex (.text text)) = .ok bytes ↔
      ofText? text.toList = some bytes) ∧
    ∀ v : Field, v.kind.IsStrictIn session → ∀ text : String,
      (v.kind.ofHex text).outcome session = .ok (.datum v.toDatum) ↔
        ofText? (Text.trim text.toList) = some v.serialize := by
  intro strictly bytesOf
  refine ⟨fun b => ⟨?_, fun hrefused => ?_⟩, fun bytes => ?_, fun text bytes hread => ?_,
    fun text bytes => ?_, fun read text bytes => message_hex_eq_ok_iff,
    fun v hstrict text => Field.outcome_ofHex_eq_ok_iff hstrict⟩
  · rw [← exists_writes_iff]
    exact exists_congr fun bytes => outcome_decodeHex_eq_ok_iff
  · have hends : strictly (.buffer b) = _ := outcome_decodeHex b session
    cases hdecode : decode b.flat with
    | ok bytes =>
      rw [hdecode] at hends
      exact absurd hends (hrefused bytes)
    | error flaw =>
      rw [hdecode] at hends
      exact ⟨flaw, hends, eq_oddLength_iff hdecode⟩
  · have hlower := writes_ofText_map_chars id (fun value hlt => ⟨hlt, .inl rfl⟩) bytes
    have hupper := writes_ofText_map_chars Char.toUpper
      (fun value hlt => ⟨hlt, .inr rfl⟩) bytes
    rw [List.map_id] at hlower
    exact ⟨outcome_decodeHex_eq_ok_iff.2 hlower, outcome_decodeHex_eq_ok_iff.2 hupper⟩
  · have ⟨hwrites, _⟩ := writes_ofText_iff.1 (outcome_decodeHex_eq_ok_iff.1 hread)
    rwa [ofText?_eq_some_iff, hwrites.dropMarker_eq]
  · rw [ofText?_eq_some_iff_exists_marker]
    constructor
    · rintro ⟨marker, body, hmarker, htext, hwrites⟩
      obtain ⟨digits, hspreads, hdigits⟩ := writesSpaced_iff_exists_spreads.1 hwrites
      exact ⟨marker, body, digits, hmarker, htext, hspreads,
        outcome_decodeHex_eq_ok_iff.2 hdigits⟩
    · rintro ⟨marker, body, digits, hmarker, htext, hspreads, hdigits⟩
      exact ⟨marker, body, hmarker, htext, writesSpaced_iff_exists_spreads.2
        ⟨digits, hspreads, outcome_decodeHex_eq_ok_iff.1 hdigits⟩⟩

/-- Gaps stand in front of the first pair, between pairs and behind the last one, and the marker in
    front of it all. -/
theorem lenient_adds_gaps_marked :
    ofText? ['0', 'x', ' ', '0', 'a', '\t', 'F', 'F', ' '] = some [0x0a, 0xff] := by
  refine ((lenient_adds_gaps Session.start).2.2.2.1 _ _).2
    ⟨['0', 'x'], _, ['0', 'a', 'F', 'F'], .lower, rfl, ?_, ?_⟩
  · exact .gap (by decide) (.pair (.gap (by decide) (.pair (.gap (by decide) .nil))))
  · exact outcome_decodeHex_eq_ok_iff.2 (decode_eq_ok_iff.1 (by decide +kernel))

/-- A text comes from another one, of characters in pairs, by gaps between the pairs only. -/
inductive Spaces : List Char → List Char → Prop where
  | nil : Spaces [] []
  | last {high low : Char} : Spaces [high, low] [high, low]
  | pair {high low : Char} {gaps digits text : List Char} (hgaps : ∀ c ∈ gaps, isGap c = true)
      (hsome : digits ≠ []) (hrest : Spaces digits text) :
      Spaces (high :: low :: digits) (high :: low :: (gaps ++ text))

theorem Spaces.head?_eq {digits text : List Char} (hspaces : Spaces digits text) :
    digits.head? = text.head? := by
  cases hspaces <;> rfl

/-- A gap in front of the first pair is skipped, too, though it stands between no pairs. -/
theorem lenient_skips_leading_gap :
    let strictly (source : Datum) := (Operation.decodeHex source).outcome Session.start
    let bytesOf (text : List Char) : Datum := .octets (Octets.ofText (String.ofList text))
    ofText? [' ', '0', '0'] = some [0] ∧
      (∀ bytes, strictly (bytesOf [' ', '0', '0']) ≠ .ok (.datum (.octets bytes))) ∧
      ¬ ∃ marker body digits, IsMarker marker ∧ [' ', '0', '0'] = marker ++ body ∧
        Spaces digits body ∧ strictly (bytesOf digits) = .ok (.datum (.octets [0])) := by
  intro strictly bytesOf
  refine ⟨by decide, fun bytes hread => ?_, ?_⟩
  · have ⟨_, hbare⟩ := writes_ofText_iff.1 (outcome_decodeHex_eq_ok_iff.1 hread)
    exact absurd (hbare ' ' List.mem_cons_self) (by decide)
  · rintro ⟨marker, body, digits, hmarker, htext, hspaces, hread⟩
    have ⟨_, hbare⟩ := writes_ofText_iff.1 (outcome_decodeHex_eq_ok_iff.1 hread)
    cases hmarker with
    | none =>
      rw [List.nil_append] at htext
      have hhead := hspaces.head?_eq
      rw [← htext] at hhead
      exact absurd (hbare ' ' (List.mem_of_head? hhead)) (by decide)
    | lower => cases htext
    | upper => cases htext

end CryptoIntrinsics.Hex
