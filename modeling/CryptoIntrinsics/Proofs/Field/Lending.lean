import CryptoIntrinsics.Proofs.Buffer.InPlace
import CryptoIntrinsics.Proofs.Checksum.Offset
import CryptoIntrinsics.Proofs.Field.Reading
import CryptoIntrinsics.Proofs.Message.Forms

namespace CryptoIntrinsics

/-- There is no tag to be read where there are no bytes. -/
theorem Credential.unpackFrom_nil (kind : Credential.Kind) (strict : Bool) (start : Nat) :
    unpackFrom kind strict [] start = .error (.badTag .truncated) := by
  have hread : Varint.decode strict Varint.maxTag [] = .error .truncated := rfl
  simp only [unpackFrom, Varint.decodeAt?, Offset.ahead?_natCast, List.drop_nil,
    Option.map_some, hread]
  rfl

namespace Field

open Procedure Text.IntegerLiteral

inductive Decoder where
  | exactly (kind : Kind)
  | placed (kind : Kind) (offset : Datum)

namespace Decoder

def on : Decoder → Datum → Operation
  | exactly (.credential kind), source => .readCredential kind source
  | exactly (.checksum kind), source => .readChecksum kind source
  | placed (.credential kind) offset, source => .readCredentialAt kind source offset
  | placed (.checksum kind) offset, source => .readChecksumAt kind source offset

variable {source other : Datum}

/-- A source counts by what it lends only. -/
theorem run_congr (decoder : Decoder) (hlent : source.lent = other.lent) :
    (decoder.on source).run = (decoder.on other).run := by
  cases decoder with
  | exactly kind =>
    cases kind with
    | credential kind => simp only [on, Operation.run, Decoding.credential, hlent]
    | checksum kind => simp only [on, Operation.run, Checksum.read, hlent]
  | placed kind offset =>
    cases kind with
    | credential kind => simp only [on, Operation.run, Decoding.credentialAt, hlent]
    | checksum kind => simp only [on, Operation.run, Checksum.readAt, hlent]

/-- A source that lends nothing is refused for that, whatever is to be decoded. -/
theorem runOn_of_error (decoder : Decoder) {failure : Failure}
    (hlent : source.lent = .error failure) (session : Session) :
    (decoder.on source).run.runOn session = (.error failure, session) := by
  cases decoder with
  | exactly kind =>
    cases kind with
    | credential kind => rw [on, Operation.run, runOn_bind, Decoding.runOn_credential, hlent]
    | checksum kind =>
      rw [on, Operation.run, Checksum.read, hlent]
      rfl
  | placed kind offset =>
    cases kind with
    | credential kind => rw [on, Operation.run, runOn_bind, Decoding.runOn_credentialAt, hlent]
    | checksum kind =>
      rw [on, Operation.run, Checksum.readAt, hlent]
      rfl

section Empty

variable {kind : Kind} {offset : Int}

/-- Without bytes there is no value from any offset on. -/
theorem malformed_placed (hkind : kind ≠ .checksum .empty) (hfront : 0 ≤ offset)
    (hshown : offset < (10 ^ maxDecimalDigits : Nat)) (hlent : source.lent = .ok [])
    (session : Session) :
    ∃ fault, ((placed kind (.integer offset)).on source).outcome session =
      .error (.fault fault) ∧ fault.family = .decode := by
  cases kind with
  | credential kind =>
    obtain ⟨start, rfl⟩ := Int.eq_ofNat_of_zero_le hfront
    refine ⟨Varint.Flaw.truncated.fault (.integer start) (.integer Varint.maxTag), ?_, rfl⟩
    rw [on, Operation.outcome, Operation.run, runOn_bind, Decoding.runOn_credentialAt, hlent]
    dsimp only
    rw [Decoding.credentialIn_integer, Credential.unpackFrom_nil]
    rfl
  | checksum kind =>
    have hnonempty : kind ≠ .empty := fun hempty => hkind (by rw [hempty])
    have hpos := Checksum.Kind.size_pos hnonempty
    have hnot : ¬ Checksum.Fits kind ([] : Octets).length offset := by
      rw [Checksum.Fits, List.length_nil]
      omega
    exact (Checksum.refuses_readChecksumAt hlent hnonempty hnot session).exists_fault hshown

theorem malformed_exactly (hkind : kind ≠ .checksum .empty) (hlent : source.lent = .ok [])
    (session : Session) :
    ∃ fault, ((exactly kind).on source).outcome session = .error (.fault fault) ∧
      fault.family = .decode := by
  cases kind with
  | credential kind =>
    refine ⟨Varint.Flaw.truncated.fault (.integer 0) (.integer Varint.maxTag), ?_, rfl⟩
    rw [on, Operation.outcome, Operation.run, runOn_bind, Decoding.runOn_credential, hlent]
    dsimp only
    rw [Credential.deserialize_of_badTag kind (rfl : Varint.decode _ _ [] = .error .truncated)]
    rfl
  | checksum kind =>
    have hnonempty : kind ≠ .empty := fun hempty => hkind (by rw [hempty])
    have hpos := Checksum.Kind.size_pos hnonempty
    exact Checksum.malformed_readChecksum hlent (by rw [List.length_nil]; omega) session

end Empty

end Decoder

/-- Decoders go by the bytes of a contiguous buffer, as messages do, whatever its format, its
    dimensions and its sides, unless it is of other than one dimension and has an empty side. Such a
    buffer has no bytes, and messages of it are those of no bytes; but every decoder refuses it as a
    value of the wrong kind, where without bytes there are malformed ones. -/
theorem decodes_like_flat {b : Buffer} (hfilled : b.IsFilled) (hsolid : b.contiguous = true)
    (session : Session) :
    Operation.messageOf (.any (.buffer b)) = Operation.messageOf (.any (.octets b.flat)) ∧
    (¬ b.IsHollow → ∀ decoder : Decoder,
      (decoder.on (.buffer b)).run.runOn session =
        (decoder.on (.octets b.flat)).run.runOn session) ∧
    (b.IsHollow → b.flat = [] ∧
      (∀ decoder : Decoder,
        (decoder.on (.buffer b)).run.runOn session = (.error .badType, session)) ∧
      ∀ kind : Kind, kind ≠ .checksum .empty →
        let malformed (decoder : Decoder) := ∃ fault,
          (decoder.on (.octets b.flat)).outcome session = .error (.fault fault) ∧
            fault.family = .decode
        malformed (.exactly kind) ∧
          ∀ offset : Int, 0 ≤ offset → offset < (10 ^ maxDecimalDigits : Nat) →
            malformed (.placed kind (.integer offset))) := by
  have hflat : (Datum.octets b.flat).lent = .ok b.flat := rfl
  refine ⟨?_, fun hnot decoder => ?_, fun hhollow => ?_⟩
  · have hany (held : Buffer) : Operation.messageOf (.any (.buffer held)) =
        Message.ofBuffer (.buffer held) := rfl
    rw [Datum.octets, hany, hany, Message.ofBuffer_of_solid hsolid, Message.ofBuffer_of_solid rfl]
    rfl
  · rw [decoder.run_congr ((Datum.lent_of_solid hsolid hnot).trans hflat.symm)]
  · have hempty := hhollow.flat_eq_nil hfilled
    rw [hempty] at hflat ⊢
    exact ⟨rfl, fun decoder => decoder.runOn_of_error (Datum.lent_of_hollow hhollow) session,
      fun kind hkind => ⟨Decoder.malformed_exactly hkind hflat session,
        fun offset hfront hshown =>
          Decoder.malformed_placed hkind hfront hshown hflat session⟩⟩

/-- Bytes in rows and columns are decoded as the same bytes in one row. -/
theorem decodes_like_flat_rows :
    let b : Buffer := ⟨.memory, "B", 1, [4, 5], true, List.replicate 20 7⟩
    (b.IsFilled ∧ b.contiguous = true ∧ ¬ b.IsHollow) ∧
      ∃ c : Checksum .bits160,
        (Operation.readChecksum .bits160 (.buffer b)).outcome .start =
          .ok (.datum (.checksum .bits160 c)) ∧ c.data = List.replicate 20 7 := by
  intro b
  have hfilled : b.IsFilled := by rw [Buffer.IsFilled]; rfl
  have hnot : ¬ b.IsHollow := fun hhollow => absurd hhollow.2 (by decide)
  have hrun := (decodes_like_flat hfilled rfl .start).2.1 hnot (.exactly (.checksum .bits160))
  have hread : (Operation.readChecksum .bits160 (.octets b.flat)).outcome .start =
      .ok (.datum (.checksum .bits160 ⟨List.replicate 20 7, rfl⟩)) :=
    (Checksum.outcome_readChecksum_eq_ok_iff rfl).2 ⟨_, rfl, rfl⟩
  exact ⟨⟨hfilled, rfl, hnot⟩, _, (congrArg Prod.fst hrun).trans hread, rfl⟩

/-- A grid without rows has no bytes, and a decoder refuses it for its kind; no bytes are
    malformed. -/
theorem decodes_unlike_flat :
    let b := Buffer.ofGrid 0 3
    (b.IsFilled ∧ b.contiguous = true ∧ b.flat = []) ∧
      (Operation.readChecksum .bits160 (.buffer b)).outcome .start = .error .badType ∧
      ∃ fault, (Operation.readChecksum .bits160 (.octets b.flat)).outcome .start =
        .error (.fault fault) ∧ fault.family = .decode :=
  ⟨⟨Buffer.isFilled_ofGrid 0 3, rfl, rfl⟩, rfl,
    Checksum.malformed_readChecksum rfl (by decide) .start⟩

end Field

end CryptoIntrinsics
