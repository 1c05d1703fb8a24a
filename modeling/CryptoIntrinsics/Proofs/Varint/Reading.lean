import CryptoIntrinsics.Proofs.Session.Policy
import CryptoIntrinsics.Proofs.Text.IntegerLiteral
import CryptoIntrinsics.Proofs.Varint.Minimal
import CryptoIntrinsics.Session.Step

namespace CryptoIntrinsics

def Operation.outcome (operation : Operation) (session : Session) : Except Failure Answer :=
  (operation.run.runOn session).1

theorem Datum.octets_inj {a b : Octets} : octets a = octets b ↔ a = b := by
  constructor
  · intro hsame
    exact congrArg Buffer.flat (Datum.buffer.inj hsame)
  · rintro rfl
    rfl

/-- Some bytes stand at an offset exactly if they are the window there of their length. -/
theorem Octets.prefix_drop_iff {bytes front : Octets} (hfront : 0 < front.length) {offset : Nat} :
    front <+: bytes.drop offset ↔
      offset + front.length ≤ bytes.length ∧
        bytes.window offset ((offset + front.length : Nat) : Int) = front := by
  constructor
  · rintro ⟨rest, hrest⟩
    have hlength := congrArg List.length hrest
    rw [List.length_append, List.length_drop] at hlength
    have hfits : offset + front.length ≤ bytes.length := by omega
    refine ⟨hfits, ?_⟩
    rw [Octets.window_of_le hfits, ← hrest, Nat.add_sub_cancel_left, List.take_left]
  · rintro ⟨hfits, hwindow⟩
    rw [← hwindow, Octets.window_of_le hfits]
    exact List.take_prefix _ _

namespace Varint

open Procedure Text.IntegerLiteral

def readAt (strict : Bool) (bound : Nat) (row : Buffer) (offset : Nat) : Operation :=
  .decodeVarint (.buffer row) (.integer offset) (.integer bound) (.truth strict)

/-- Reading from a row goes by the elements met from the offset on, whatever lends the row. -/
theorem outcome_decodeVarint_byteRow (asked : Datum) (bound : Int) (exporter : Exporter)
    (contiguous : Bool) (bytes : Octets) (offset : Int) (session : Session) :
    (Operation.decodeVarint (.buffer (.byteRow exporter contiguous bytes)) (.integer offset)
      (.integer bound) asked).outcome session =
      match session.refusesPadding asked with
      | none => .error (.stray .value "*")
      | some refusing =>
        match decodeAt? refusing bound bytes offset with
        | none => .error (.stray .index "*")
        | some (.ok (n, next)) => .ok (.placed (.integer n) next)
        | some (.error flaw) => .error (flaw.failure (.integer offset) (.integer bound)) := by
  have hread : Decoding.varint (.buffer (.byteRow exporter contiguous bytes)) (.integer offset)
      (.integer bound) asked =
        Decoding.strictness asked >>= fun refusing =>
          demand (Decoding.varintIn refusing bound (.buffer (.byteRow exporter contiguous bytes))
            bytes.length offset (.integer offset) (.integer bound)) := rfl
  have hflat : (Buffer.byteRow exporter contiguous bytes).flat = bytes := rfl
  have hrow : (Buffer.byteRow exporter contiguous bytes).isByteRow = true := rfl
  rw [Operation.outcome, Operation.run, hread, runOn_bind, runOn_bind, Decoding.runOn_strictness]
  cases session.refusesPadding asked with
  | none => rfl
  | some refusing =>
    dsimp only
    rw [runOn_demand, Decoding.varintIn, if_pos hrow, hflat]
    cases decodeAt? refusing bound bytes offset with
    | none => rfl
    | some read => cases read <;> rfl

/-- Reading at an offset is decoding what stands behind it, whatever lends the row. -/
theorem outcome_readAt (strict : Bool) (bound : Nat) (exporter : Exporter) (contiguous : Bool)
    (bytes : Octets) (offset : Nat) (session : Session) :
    (readAt strict bound (.byteRow exporter contiguous bytes) offset).outcome session =
      match decode strict bound (bytes.drop offset) with
      | .ok (n, used) => .ok (.placed (.integer n) ((offset + used : Nat) : Int))
      | .error flaw => .error (flaw.failure (.integer offset) (.integer bound)) := by
  have hstrict : session.refusesPadding (.truth strict) = some strict := rfl
  rw [readAt, outcome_decodeVarint_byteRow, hstrict]
  dsimp only
  rw [decodeAt?, Offset.ahead?_natCast, Option.map_some]
  cases decode strict bound (bytes.drop offset) <;> rfl

section Outcome

variable {strict : Bool} {bound : Nat} {exporter : Exporter} {contiguous : Bool} {bytes : Octets}
  {offset : Nat} {session : Session}

theorem outcome_readAt_eq_ok_iff {answer : Answer} :
    (readAt strict bound (.byteRow exporter contiguous bytes) offset).outcome session =
        .ok answer ↔
      ∃ n used, decode strict bound (bytes.drop offset) = .ok (n, used) ∧
        answer = .placed (.integer n) ((offset + used : Nat) : Int) := by
  rw [outcome_readAt]
  cases decode strict bound (bytes.drop offset) with
  | error flaw => simp
  | ok found =>
    obtain ⟨n, used⟩ := found
    constructor
    · intro hanswer
      exact ⟨n, used, rfl, (Except.ok.inj hanswer).symm⟩
    · rintro ⟨_, _, ⟨⟩, rfl⟩
      rfl

theorem outcome_readAt_eq_error_iff {failure : Failure} :
    (readAt strict bound (.byteRow exporter contiguous bytes) offset).outcome session =
        .error failure ↔
      ∃ flaw, decode strict bound (bytes.drop offset) = .error flaw ∧
        failure = flaw.failure (.integer offset) (.integer bound) := by
  rw [outcome_readAt]
  cases decode strict bound (bytes.drop offset) with
  | ok found => simp
  | error flaw =>
    constructor
    · intro hfailure
      exact ⟨flaw, rfl, (Except.error.inj hfailure).symm⟩
    · rintro ⟨_, ⟨⟩, rfl⟩
      rfl

end Outcome

/-- A number above the bound is reported unless it has too many digits. The bound has no more. -/
theorem Flaw.failure_exceeds {n bound : Nat} (hbound : bound < n) (offset : Datum) :
    (exceeds n).failure offset (.integer bound) =
      if isWritable n then .fault ((exceeds n).fault offset (.integer bound))
      else .stray .value "*" := by
  have hboth : (isWritable n && isWritable bound) = isWritable n := by
    rw [Bool.and_eq_left_iff_imp]
    exact isWritable_of_le (Nat.le_of_lt hbound)
  change (if (isWritable n && isWritable bound) = true then _ else _) = _
  rw [hboth]

theorem Flaw.take_message_exceeds (n : Nat) (bound : Datum) :
    ((exceeds n).message bound).toList.take 9 = "uvarint v".toList := by
  have hmessage : (exceeds n).message bound =
      "uvarint value " ++ (toString n ++ (" exceeds " ++ bound.shown)) := by
    rw [← String.append_assoc, ← String.append_assoc]
    rfl
  have hstart : ("uvarint value " ++ (toString n ++ (" exceeds " ++ bound.shown))).toList =
      "uvarint value ".toList ++ (toString n ++ (" exceeds " ++ bound.shown)).toList :=
    String.toList_append
  rw [hmessage, hstart, List.take_append_of_le_length (by decide)]
  decide

/-- The message of a flaw tells which one it is, unless it is about a number above the bound. -/
theorem Flaw.eq_of_message_eq {flaw other : Flaw} {bound : Datum}
    (hother : ∀ n, other ≠ .exceeds n) (hsame : flaw.message bound = other.message bound) :
    flaw = other := by
  cases flaw with
  | exceeds n =>
    have hstart := take_message_exceeds n bound
    rw [hsame] at hstart
    cases other with
    | exceeds m => exact absurd rfl (hother m)
    | _ => simp at hstart
  | _ =>
    cases other with
    | exceeds m => exact absurd rfl (hother m)
    | _ => simp_all

theorem Flaw.message_fault (flaw : Flaw) (offset bound : Datum) :
    (flaw.fault offset bound).message = flaw.message bound := by
  have hfilled : flaw.message bound ≠ "" := by
    cases flaw with
    | exceeds n =>
      intro hempty
      have hstart := take_message_exceeds n bound
      rw [hempty] at hstart
      exact absurd hstart (by decide)
    | _ => simp
  exact Fault.message_of hfilled .decode _

theorem Flaw.eq_fault_of_failure_eq {flaw : Flaw} {offset bound : Datum} {fault : Fault}
    (hfailure : flaw.failure offset bound = .fault fault) : fault = flaw.fault offset bound := by
  cases flaw with
  | exceeds n =>
    rw [failure] at hfailure
    split at hfailure
    · exact (Failure.fault.inj hfailure).symm
    · cases hfailure
  | _ => exact (Failure.fault.inj hfailure).symm

/-- Some bytes are refused as malformed, with a message. -/
def Reports (message : String) (outcome : Except Failure Answer) : Prop :=
  ∃ fault, outcome = .error (.fault fault) ∧ fault.family = .decode ∧ fault.message = message

/-- A message that is not about a number above the bound is reported for its own flaw alone. -/
theorem reports_message_iff {strict : Bool} {bound : Nat} {exporter : Exporter}
    {contiguous : Bool} {bytes : Octets} {offset : Nat} {session : Session} {flaw : Flaw}
    (hflaw : ∀ n, flaw ≠ .exceeds n) :
    Reports (flaw.message (.integer bound))
        ((readAt strict bound (.byteRow exporter contiguous bytes) offset).outcome session) ↔
      decode strict bound (bytes.drop offset) = .error flaw := by
  constructor
  · rintro ⟨fault, hfault, -, hmessage⟩
    obtain ⟨other, hother, hfailure⟩ := outcome_readAt_eq_error_iff.1 hfault
    rw [Flaw.eq_fault_of_failure_eq hfailure.symm, Flaw.message_fault] at hmessage
    rw [hother, Flaw.eq_of_message_eq hflaw hmessage]
  · intro hread
    refine ⟨flaw.fault (.integer offset) (.integer bound), ?_, rfl, Flaw.message_fault ..⟩
    rw [outcome_readAt, hread]
    cases flaw with
    | exceeds n => exact absurd rfl (hflaw n)
    | _ => rfl

/-- A number stands in front of the bytes that is above the bound, needs no more bytes than the
    bound, and has too many digits to be printed. -/
def Unreportable (bound : Nat) (bytes : Octets) : Prop :=
  ∃ n : Nat, bound < n ∧ size n ≤ size bound ∧ isWritable n = false ∧ encode n <+: bytes

/-- All numbers of 2040 bytes can be printed. -/
theorem not_unreportable_of_size_le {bound : Nat} (hsize : size bound ≤ 2040) (bytes : Octets) :
    ¬ Unreportable bound bytes := by
  rintro ⟨n, -, hle, hwritable, -⟩
  have hn : n < 128 ^ 2040 := (size_le_iff (by omega)).1 (Nat.le_trans hle hsize)
  have hdigits : 128 ^ 2040 < 10 ^ Text.IntegerLiteral.maxDecimalDigits := by decide +kernel
  have hprinted : isWritable n = true := isWritable_iff.2 (Nat.lt_trans hn hdigits)
  rw [hprinted] at hwritable
  cases hwritable

theorem outcome_encodeVarint {n bound : Nat} (hn : n ≤ bound) (session : Session) :
    (Operation.encodeVarint (.integer n) (.integer bound)).outcome session =
      .ok (.datum (.octets (encode n))) := by
  have hencode : Operation.encodeVarint? (.integer n) (.integer bound) = .ok (encode n) := by
    simp only [Operation.encodeVarint?, Datum.integer?, Datum.precedes_integer]
    rw [if_neg (by omega)]
    change (if decide ((bound : Int) < n) = true then _ else _) = _
    rw [if_neg (by simpa using hn), Int.toNat_natCast]
  rw [Operation.outcome, Operation.run, runOn_demand_bind, hencode]
  rfl

/-- An encoding stands at an offset exactly if it is the window there of its number's size. -/
theorem encode_prefix_iff {n : Nat} {bytes : Octets} {offset : Nat} :
    encode n <+: bytes.drop offset ↔
      offset + size n ≤ bytes.length ∧
        bytes.window offset ((offset + size n : Nat) : Int) = encode n := by
  have hfilled : 0 < (encode n).length := by
    rw [length_encode]
    exact size_pos n
  rw [Octets.prefix_drop_iff hfilled, length_encode]

theorem outcome_varintSize (n : Nat) (session : Session) :
    (Operation.varintSize (.integer n)).outcome session = .ok (.datum (.integer (size n))) := rfl

section Strict

variable {bound : Nat} {exporter : Exporter} {contiguous : Bool} {bytes : Octets}
  {offset : Nat} {session : Session}

/-- Strict reading finds a number where its encoding stands. -/
theorem outcome_readAt_eq_placed_iff {n next : Int} :
    (readAt true bound (.byteRow exporter contiguous bytes) offset).outcome session =
        .ok (.placed (.integer n) next) ↔
      ∃ m : Nat, n = m ∧ m ≤ bound ∧ next = ((offset + size m : Nat) : Int) ∧
        encode m <+: bytes.drop offset := by
  rw [outcome_readAt_eq_ok_iff]
  constructor
  · rintro ⟨m, used, hread, hplaced⟩
    obtain ⟨hm, rfl, hfront⟩ := decode_eq_ok_iff.1 hread
    obtain ⟨hn, hnext⟩ := Answer.placed.inj hplaced
    exact ⟨m, Datum.integer.inj hn, hm, hnext, hfront⟩
  · rintro ⟨m, rfl, hm, rfl, hfront⟩
    exact ⟨m, size m, decode_eq_ok_iff.2 ⟨hm, rfl, hfront⟩, rfl⟩

/-- There is no report about a number with too many digits. -/
theorem outcome_readAt_of_unreportable (hlarge : Unreportable bound (bytes.drop offset)) :
    (readAt true bound (.byteRow exporter contiguous bytes) offset).outcome session =
      .error (.stray .value "*") := by
  obtain ⟨n, hn, hsize, hwritable, hfront⟩ := hlarge
  refine outcome_readAt_eq_error_iff.2
    ⟨.exceeds n, decode_eq_exceeds_iff.2 ⟨hn, hsize, hfront⟩, ?_⟩
  rw [Flaw.failure_exceeds hn, hwritable]
  rfl

/-- All other bytes that strict reading refuses are malformed. -/
theorem outcome_readAt_of_error {flaw : Flaw} (hsmall : ¬ Unreportable bound (bytes.drop offset))
    (hread : decode true bound (bytes.drop offset) = .error flaw) :
    (readAt true bound (.byteRow exporter contiguous bytes) offset).outcome session =
      .error (.fault (flaw.fault (.integer offset) (.integer bound))) := by
  refine outcome_readAt_eq_error_iff.2 ⟨flaw, hread, ?_⟩
  cases flaw with
  | exceeds n =>
    obtain ⟨hn, hsize, hfront⟩ := decode_eq_exceeds_iff.1 hread
    have hwritable : isWritable n = true := by
      by_contra hnot
      exact hsmall ⟨n, hn, hsize, Bool.eq_false_iff.2 hnot, hfront⟩
    rw [Flaw.failure_exceeds hn, hwritable]
    rfl
  | _ => rfl

end Strict

/-- Strict reading finds just the encodings of the numbers up to the bound, whatever the bound: at
    an offset it answers a number and the offset behind it if and only if the bytes between the two
    are what the number is encoded as. It refuses all else as malformed, except that there is no
    report about a number that cannot be printed, which no bound of up to 2040 bytes lets through.
    Every number up to the bound has an encoding, which has the number's size and thereby not more
    bytes than the bound allows. -/
theorem placed_iff_encodes (bound : Nat) (exporter : Exporter) (contiguous : Bool)
    (bytes : Octets) (offset : Nat) (session : Session) :
    let outcome :=
      (readAt true bound (.byteRow exporter contiguous bytes) offset).outcome session
    let encoded (n : Int) := (Operation.encodeVarint (.integer n) (.integer bound)).outcome session
    (∀ n next : Int, outcome = .ok (.placed (.integer n) next) ↔
      0 ≤ n ∧ n ≤ bound ∧ next = offset + size n.natAbs ∧ next ≤ bytes.length ∧
        encoded n = .ok (.datum (.octets (bytes.window offset next)))) ∧
    ((∃ n next, outcome = .ok (.placed (.integer n) next)) ∨
      (¬ Unreportable bound (bytes.drop offset) ∧
        ∃ fault, outcome = .error (.fault fault) ∧ fault.family = .decode) ∨
      (Unreportable bound (bytes.drop offset) ∧ outcome = .error (.stray .value "*"))) ∧
    (size bound ≤ 2040 → ¬ Unreportable bound (bytes.drop offset)) ∧
    (∀ n : Nat, n ≤ bound → ∃ code, encoded n = .ok (.datum (.octets code)) ∧
      (Operation.varintSize (.integer n)).outcome session = .ok (.datum (.integer code.length)) ∧
      code.length = size n ∧ code.length ≤ size bound) := by
  dsimp only
  refine ⟨fun n next => ?_, ?_, fun hsize => not_unreportable_of_size_le hsize _, ?_⟩
  · rw [outcome_readAt_eq_placed_iff]
    constructor
    · rintro ⟨m, rfl, hm, rfl, hfront⟩
      obtain ⟨hfits, hwindow⟩ := encode_prefix_iff.1 hfront
      refine ⟨by omega, by omega, by rw [Int.natAbs_natCast, Int.natCast_add], by omega, ?_⟩
      rw [outcome_encodeVarint hm, hwindow]
    · rintro ⟨hpos, hbound, rfl, hfits, hencoded⟩
      obtain ⟨m, rfl⟩ := Int.eq_ofNat_of_zero_le hpos
      have hm : m ≤ bound := by omega
      rw [outcome_encodeVarint hm] at hencoded
      have hwindow := Datum.octets_inj.1 (Answer.datum.inj (Except.ok.inj hencoded))
      rw [Int.natAbs_natCast, ← Int.natCast_add] at hfits hwindow ⊢
      exact ⟨m, rfl, hm, rfl, encode_prefix_iff.2 ⟨by omega, hwindow.symm⟩⟩
  · cases hread : decode true bound (bytes.drop offset) with
    | ok found =>
      exact .inl ⟨_, _, outcome_readAt_eq_ok_iff.2 ⟨found.1, found.2, hread, rfl⟩⟩
    | error flaw =>
      by_cases hlarge : Unreportable bound (bytes.drop offset)
      · exact .inr (.inr ⟨hlarge, outcome_readAt_of_unreportable hlarge⟩)
      · exact .inr (.inl ⟨hlarge, _, outcome_readAt_of_error hlarge hread, rfl⟩)
  · intro n hn
    refine ⟨encode n, outcome_encodeVarint hn session, ?_, length_encode n, ?_⟩
    · rw [outcome_varintSize, length_encode]
    · rw [length_encode]
      exact size_mono hn

/-- Behind a byte that begins no encoding, the two bytes of a bound are read as it. -/
theorem placed_iff_encodes_bound :
    (readAt true 300 (.ofOctets [0xff, 0xac, 0x02]) 1).outcome .start =
      .ok (.placed (.integer 300) 3) := by
  have hencode : encode 300 = [0xac, 0x02] := by
    rw [encode_of_le (by decide), encode_of_lt (by decide)]
    rfl
  have hencoded := outcome_encodeVarint (Nat.le_refl 300) .start
  rw [hencode] at hencoded
  obtain ⟨hplaced, -⟩ := placed_iff_encodes 300 .bytes true [0xff, 0xac, 0x02] 1 .start
  exact (hplaced 300 3).2 ⟨by decide, by decide, by decide, by decide, hencoded⟩

/-- A number of 2041 bytes, which is above a bound of 2041 bytes and has one digit too many: it is
    neither found nor reported. -/
theorem not_reported_of_unreportable :
    let outcome := (readAt true (10 ^ 4299)
      (.ofOctets (List.replicate 2040 128 ++ [127])) 0).outcome .start
    (∀ answer, outcome ≠ .ok answer) ∧ ∀ fault, outcome ≠ .error (.fault fault) := by
  dsimp only
  have hrun : Unfinished (List.replicate 2040 128) := by
    intro b hb
    rw [List.eq_of_mem_replicate hb]
    decide
  have hword : Word true 2041 (List.replicate 2040 128) 127 :=
    ⟨hrun, by decide, by rw [List.length_replicate]; decide, fun _ _ => by decide⟩
  have hvalue : groups (List.replicate 2040 128 ++ [127]) = 128 ^ 2040 * 127 := by
    have hlast : groups [127] = 127 := rfl
    rw [groups_append, groups_replicate, List.length_replicate, Nat.zero_add, hlast]
  have hlarge : Unreportable (10 ^ 4299) (List.replicate 2040 128 ++ [127]) := by
    refine ⟨_, ?_, ?_, ?_, [], by rw [hword.encode_eq, List.append_nil]⟩
    · rw [hvalue]
      decide +kernel
    · have hbound : ¬ size (10 ^ 4299) ≤ 2040 := by
        rw [size_le_iff (by decide)]
        decide +kernel
      rw [hword.size_eq, List.length_replicate]
      omega
    · rw [hvalue, Bool.eq_false_iff, ne_eq, isWritable_iff]
      decide +kernel
  have houtcome : (readAt true (10 ^ 4299)
      (.ofOctets (List.replicate 2040 128 ++ [127])) 0).outcome .start =
        .error (.stray .value "*") := outcome_readAt_of_unreportable hlarge
  rw [houtcome]
  exact ⟨nofun, nofun⟩

end Varint

end CryptoIntrinsics
