import CryptoIntrinsics.Proofs.Credential.Canonical
import CryptoIntrinsics.Proofs.Varint.Reading
import Mathlib.Data.List.Induction
import Mathlib.Data.List.ModifyLast

namespace CryptoIntrinsics

namespace Varint

/-- The encoding of a number with `k` empty groups behind it. -/
def padded (n : Nat) : Nat → Octets
  | 0 => encode n
  | k + 1 => (encode n).modifyLast (· ||| 0x80) ++ List.replicate k 0x80 ++ [0]

/-- One more empty group: the last byte so far asks for another one. -/
theorem padded_succ (n k : Nat) :
    padded n (k + 1) = (padded n k).modifyLast (· ||| 0x80) ++ [0] := by
  cases k with
  | zero => rw [padded, padded, List.replicate_zero, List.append_nil]
  | succ k =>
    have hopened : (0 : UInt8) ||| 0x80 = 0x80 := rfl
    rw [padded, padded, List.modifyLast_concat, hopened, List.replicate_succ']
    simp only [List.append_assoc]

theorem length_padded (n k : Nat) : (padded n k).length = size n + k := by
  cases k with
  | zero => rw [padded, length_encode, Nat.add_zero]
  | succ k =>
    obtain ⟨front, last, hencode, -⟩ := encode_eq_append n
    have hlength := size_eq_of_encode hencode
    rw [padded, hencode, List.modifyLast_concat]
    simp only [List.length_append, List.length_singleton, List.length_replicate]
    omega

theorem length_padded_pos (n k : Nat) : 0 < (padded n k).length := by
  rw [length_padded]
  exact Nat.add_pos_left (size_pos n) k

theorem size_add_eq_of_padded {n k : Nat} {front : Octets} {last : UInt8}
    (hpadded : padded n k = front ++ [last]) : size n + k = front.length + 1 := by
  rw [← length_padded, hpadded, List.length_append, List.length_singleton]

/-- A padded form stands at an offset exactly if it is the window there of its length. -/
theorem padded_prefix_iff {n k : Nat} {bytes : Octets} {offset : Nat} :
    padded n k <+: bytes.drop offset ↔
      offset + (size n + k) ≤ bytes.length ∧
        bytes.window offset ((offset + (size n + k) : Nat) : Int) = padded n k := by
  rw [Octets.prefix_drop_iff (length_padded_pos n k), length_padded]

/-- A byte that ends an integer, made to ask for another one, holds the same group. -/
theorem toNat_or_top {b : UInt8} (hb : b.toNat < 128) : (b ||| 0x80).toNat = b.toNat + 128 := by
  have hall : ∀ n < 128, n ||| 128 = n + 128 := by decide
  rw [UInt8.toNat_or]
  exact hall b.toNat hb

/-- A byte that asks for another one comes from one that does not. -/
theorem exists_or_top {b : UInt8} (hb : 128 ≤ b.toNat) :
    ∃ low : UInt8, low.toNat < 128 ∧ b = low ||| 0x80 := by
  have hlt := b.toNat_lt
  have hlow : (UInt8.ofNat (b.toNat - 128)).toNat = b.toNat - 128 := by
    rw [UInt8.toNat_ofNat']
    omega
  refine ⟨UInt8.ofNat (b.toNat - 128), by omega, UInt8.toNat_inj.1 ?_⟩
  rw [toNat_or_top (by omega), hlow]
  omega

/-- An empty group behind the last byte leaves the number as it is. -/
theorem groups_pad (front : Octets) {last : UInt8} (hlast : last.toNat < 128) :
    groups (front ++ [last ||| 0x80] ++ [0]) = groups (front ++ [last]) := by
  have hgroup : groups [last ||| 0x80, 0] = groups [last] := by
    have hzero : (0 : UInt8).toNat = 0 := rfl
    simp only [groups, toNat_or_top hlast, hzero]
    omega
  rw [List.append_assoc, List.singleton_append, groups_append, groups_append, hgroup]

/-- A word is made longer by one empty group. -/
theorem Word.pad {most : Nat} {front : Octets} {last : UInt8} (hword : Word false most front last)
    (hroom : front.length + 1 < most) : Word false most (front ++ [last ||| 0x80]) 0 where
  unfinished := by
    intro b hb
    obtain hfront | hlast := List.mem_append.1 hb
    · exact hword.unfinished b hfront
    · rw [List.mem_singleton.1 hlast, toNat_or_top hword.last_lt]
      exact Nat.le_add_left ..
  last_lt := by decide
  length_lt := by
    rw [List.length_append, List.length_singleton]
    exact hroom
  minimal := nofun

/-- A padded form is a word that writes the number. -/
theorem exists_word_padded {n k most : Nat} (hroom : size n + k ≤ most) :
    ∃ front last, padded n k = front ++ [last] ∧ Word false most front last ∧
      groups (front ++ [last]) = n := by
  induction k with
  | zero =>
    obtain ⟨front, last, hencode, hword⟩ := exists_word_encode false hroom
    exact ⟨front, last, hencode, hword, by rw [← hencode, groups_encode]⟩
  | succ k ih =>
    obtain ⟨front, last, hpadded, hword, hvalue⟩ := ih (by omega)
    have hlength := size_add_eq_of_padded hpadded
    refine ⟨front ++ [last ||| 0x80], 0, ?_, hword.pad (by omega), ?_⟩
    · rw [padded_succ, hpadded, List.modifyLast_concat]
    · rw [groups_pad front hword.last_lt, hvalue]

/-- Every word is a padded form of the number that it writes. -/
theorem Word.exists_padded {most : Nat} {front : Octets} {last : UInt8}
    (hword : Word false most front last) :
    ∃ k, front ++ [last] = padded (groups (front ++ [last])) k := by
  -- The empty groups are taken from the end until the last byte adds something.
  induction front using List.reverseRecOn generalizing last with
  | nil =>
    refine ⟨0, ?_⟩
    rw [padded, encode_groups_append unfinished_nil hword.last_lt fun hnil => absurd rfl hnil]
  | append_singleton front b ih =>
    by_cases hzero : last.toNat = 0
    · obtain rfl : last = 0 := UInt8.toNat_inj.1 hzero
      have hb := hword.unfinished b (by simp)
      obtain ⟨low, hlow, rfl⟩ := exists_or_top hb
      have hshort := hword.length_lt
      rw [List.length_append, List.length_singleton] at hshort
      have hrun : Unfinished front := fun c hc =>
        hword.unfinished c (List.mem_append_left _ hc)
      obtain ⟨k, hk⟩ := ih ⟨hrun, hlow, by omega, nofun⟩
      refine ⟨k + 1, ?_⟩
      rw [groups_pad front hlow, padded_succ, ← hk, List.modifyLast_concat]
    · refine ⟨0, ?_⟩
      rw [padded, encode_groups_append hword.unfinished hword.last_lt fun _ =>
        Nat.pos_of_ne_zero hzero]

section Decode

variable {bound : Nat} {bytes : Octets} {n used : Nat}

/-- Lenient decoding reads a number exactly where a padded form stands in front that has no more
    bytes than the bound allows. -/
theorem decode_lenient_eq_ok_iff :
    decode false bound bytes = .ok (n, used) ↔
      n ≤ bound ∧ ∃ k, size n + k ≤ size bound ∧ used = size n + k ∧ padded n k <+: bytes := by
  constructor
  · intro hread
    cases decodes_iff.2 hread with
    | @found front last rest hword hbound =>
      obtain ⟨k, hk⟩ := hword.exists_padded
      have hlength := size_add_eq_of_padded hk.symm
      have hroom := hword.length_lt
      rw [Int.natAbs_natCast] at hroom
      refine ⟨by omega, k, by omega, hlength.symm, rest, ?_⟩
      rw [← hk, List.append_assoc]
      rfl
  · rintro ⟨hn, k, hroom, rfl, rest, rfl⟩
    obtain ⟨front, last, hpadded, hword, hvalue⟩ := exists_word_padded hroom
    have hdecodes : Decodes false bound (front ++ last :: rest) _ := .found rest hword (by omega)
    rw [hvalue, ← size_add_eq_of_padded hpadded] at hdecodes
    rw [hpadded, List.append_assoc]
    exact decodes_iff.1 hdecodes

/-- Strict decoding refuses a padded form for its padding, be the number within the bound or not. -/
theorem decode_padded_succ {k : Nat} (hroom : size n + (k + 1) ≤ size bound) (rest : Octets) :
    decode true bound (padded n (k + 1) ++ rest) = .error .nonMinimal := by
  obtain ⟨front, last, hpadded, hword, -⟩ := exists_word_padded hroom
  have hend := padded_succ n k
  rw [hpadded] at hend
  obtain ⟨hfront, hlast⟩ := List.append_inj' hend rfl
  obtain rfl : last = 0 := List.singleton_inj.1 hlast
  have hfilled : front ≠ [] := by
    have hlength := size_add_eq_of_padded hpadded
    have hpos := size_pos n
    exact List.ne_nil_of_length_pos (by omega)
  rw [hpadded, List.append_assoc]
  exact decodes_iff.1 (.nonMinimal rest rfl hword hfilled)

/-- What is read strictly is read leniently. -/
theorem decode_lenient_of_strict (hread : decode true bound bytes = .ok (n, used)) :
    decode false bound bytes = .ok (n, used) := by
  obtain ⟨hn, rfl, rest, rfl⟩ := decode_eq_ok_iff.1 hread
  exact decode_encode_append false hn rest

/-- What is read leniently only is refused for its padding. -/
theorem decode_eq_ok_or_nonMinimal (hread : decode false bound bytes = .ok (n, used)) :
    decode true bound bytes = .ok (n, used) ∨ decode true bound bytes = .error .nonMinimal := by
  obtain ⟨hn, k, hroom, rfl, rest, rfl⟩ := decode_lenient_eq_ok_iff.1 hread
  cases k with
  | zero => exact .inl (decode_encode_append true hn rest)
  | succ k => exact .inr (decode_padded_succ hroom rest)

end Decode

end Varint

namespace Credential

open Varint

variable {kind : Kind} {held : Octets} {c : Credential kind} {session : Session}

theorem decode_padded_append {tag k : Nat} (htag : tag ≤ maxTag)
    (hroom : k ≤ size maxTag - size tag) (data : Octets) :
    decode false maxTag (padded tag k ++ data) = .ok (tag, (padded tag k).length) := by
  have hsize := size_mono htag
  rw [length_padded]
  exact decode_lenient_eq_ok_iff.2 ⟨htag, k, by omega, rfl, List.prefix_append _ _⟩

/-- Leniently, exactly one value is read just from a padded form of its tag and its data. -/
theorem deserialize_lenient_eq_ok_iff :
    deserialize kind false held = .ok c ↔
      ∃ k ≤ size maxTag - size c.tag, held = padded c.tag k ++ c.data := by
  constructor
  · intro hread
    cases hdecode : decode false maxTag held with
    | error flaw =>
      rw [deserialize_of_badTag kind hdecode] at hread
      cases hread
    | ok found =>
      obtain ⟨tag, used⟩ := found
      obtain ⟨htag, k, hroom, rfl, data, rfl⟩ := decode_lenient_eq_ok_iff.1 hdecode
      rw [← length_padded] at hdecode
      rw [deserialize_append_of_decode kind false htag hdecode] at hread
      split at hread
      · cases hread
        exact ⟨k, Nat.le_sub_of_add_le' hroom, rfl⟩
      · split at hread <;> cases hread
  · rintro ⟨k, hroom, rfl⟩
    have hdecode := decode_padded_append c.tag_le hroom c.data
    rw [deserialize_append_of_decode kind false c.tag_le hdecode, dif_pos c.size_eq]

/-- Leniently, a value is read at an offset just where a padded form of its tag and its data
    stand. -/
theorem unpackFrom_lenient_eq_ok_iff {start : Nat} {next : Int} :
    unpackFrom kind false held start = .ok (c, next) ↔
      ∃ k ≤ size maxTag - size c.tag,
        next = ((start + (size c.tag + k) + kind.size : Nat) : Int) ∧
          padded c.tag k ++ c.data <+: held.drop start := by
  constructor
  · intro hread
    cases hdecode : decode false maxTag (held.drop start) with
    | error flaw =>
      simp only [unpackFrom, decodeAt?, Offset.ahead?_natCast, Option.map_some, hdecode] at hread
      cases hread
    | ok found =>
      obtain ⟨tag, used⟩ := found
      obtain ⟨htag, k, hroom, rfl, data, hfront⟩ := decode_lenient_eq_ok_iff.1 hdecode
      rw [← hfront, ← length_padded] at hdecode
      have hunpack := unpackFrom_of_drop kind false htag hfront.symm (length_padded_pos tag k) hdecode
      rw [length_padded, hread] at hunpack
      split at hunpack
      · cases hunpack
        refine ⟨k, Nat.le_sub_of_add_le' hroom, rfl, ?_⟩
        rw [← hfront, List.prefix_append_right_inj]
        exact List.take_prefix _ _
      · cases hunpack
  · rintro ⟨k, hroom, rfl, rest, hfront⟩
    rw [List.append_assoc] at hfront
    have hunpack := unpackFrom_of_drop kind false c.tag_le hfront.symm (length_padded_pos c.tag k)
      (decode_padded_append c.tag_le hroom (c.data ++ rest))
    have hdata : (c.data ++ rest).take kind.size = c.data := by
      rw [← c.size_eq, List.take_left]
    have henough : kind.size ≤ (c.data ++ rest).length := by
      rw [List.length_append, c.size_eq]
      omega
    rw [length_padded, dif_pos henough] at hunpack
    simp only [hdata] at hunpack
    exact hunpack

section Operations

variable {source : Datum} (hlent : source.lent = .ok held)
include hlent

theorem outcome_readCredential_eq_ok_iff :
    (Operation.readCredential kind source).outcome session = .ok (.datum c.toDatum) ↔
      deserialize kind session.policyInForce.strictVarint held = .ok c := by
  rw [Operation.outcome, Operation.run, Procedure.runOn_bind, Decoding.runOn_credential, hlent]
  dsimp only
  cases deserialize kind session.policyInForce.strictVarint held with
  | error flaw =>
    constructor
    · intro hread
      cases hread
    · intro hread
      cases hread
  | ok d =>
    constructor
    · intro hread
      have hd : d = c := toDatum_inj.1 (Answer.datum.inj (Except.ok.inj hread))
      rw [hd]
    · rintro ⟨⟩
      rfl

theorem outcome_readCredentialAt_eq_ok_iff {start next : Int} :
    (Operation.readCredentialAt kind source (.integer start)).outcome session =
        .ok (.placed c.toDatum next) ↔
      unpackFrom kind session.policyInForce.strictVarint held start = .ok (c, next) := by
  rw [Operation.outcome, Operation.run, Procedure.runOn_bind, Decoding.runOn_credentialAt, hlent]
  dsimp only
  rw [Decoding.credentialIn_integer]
  cases unpackFrom kind session.policyInForce.strictVarint held start with
  | error flaw =>
    constructor
    · intro hread
      cases hread
    · intro hread
      cases hread
  | ok found =>
    obtain ⟨d, stop⟩ := found
    constructor
    · intro hplaced
      obtain ⟨hsame, hstop⟩ := Answer.placed.inj (Except.ok.inj hplaced)
      have hd : d = c := toDatum_inj.1 hsame
      have hnext : stop = next := hstop
      rw [hd, hnext]
    · rintro ⟨⟩
      rfl

end Operations

theorem outcome_serialize (c : Credential kind) (session : Session) :
    (Operation.serialize c.toDatum).outcome session = .ok (.datum (.octets c.serialize)) := by
  cases kind <;> rfl

end Credential

namespace Varint

/-- Lenient reading finds what strict reading finds, and the padded forms of the numbers up to the
    bound besides, as far as the bound leaves room for them; what only lenient reading finds, strict
    reading reports as padded. A key or a signature that is read leniently, from all the bytes or at
    an offset, is written as the encoding of its tag and the same data, which reads back as the value
    under any policy. -/
theorem lenient_adds_padding (bound : Nat) (exporter : Exporter) (contiguous : Bool)
    (bytes : Octets) (offset : Nat) (session : Session) :
    let outcome (strict : Bool) :=
      (readAt strict bound (.byteRow exporter contiguous bytes) offset).outcome session
    (∀ answer, outcome true = .ok answer → outcome false = .ok answer) ∧
    (∀ answer, outcome false = .ok answer → (∀ other, outcome true ≠ .ok other) →
      Reports "non-minimal uvarint" (outcome true)) ∧
    (∀ n next : Int, outcome false = .ok (.placed (.integer n) next) ↔
      ∃ m : Nat, n = m ∧ m ≤ bound ∧ ∃ k ≤ size bound - size m,
        next = ((offset + (size m + k) : Nat) : Int) ∧ next ≤ bytes.length ∧
          bytes.window offset next = padded m k) ∧
    ∀ (kind : Credential.Kind) (c : Credential kind) (source : Datum) (held : Octets),
      source.lent = .ok held → session.policyInForce.strictVarint = false →
        ((Operation.readCredential kind source).outcome session = .ok (.datum c.toDatum) ↔
          ∃ k ≤ size maxTag - size c.tag, held = padded c.tag k ++ c.data) ∧
        (∀ (start : Nat) (next : Int),
          (Operation.readCredentialAt kind source (.integer start)).outcome session =
              .ok (.placed c.toDatum next) ↔
            ∃ k ≤ size maxTag - size c.tag,
              next = ((start + (size c.tag + k) + kind.size : Nat) : Int) ∧
                padded c.tag k ++ c.data <+: held.drop start) ∧
        ∀ later : Session,
          (Operation.serialize c.toDatum).outcome later =
            .ok (.datum (.octets (encode c.tag ++ c.data))) ∧
          (Operation.readCredential kind (.octets (encode c.tag ++ c.data))).outcome later =
            .ok (.datum c.toDatum) := by
  dsimp only
  refine ⟨fun answer hstrict => ?_, fun answer hlenient hother => ?_, fun n next => ?_,
    fun kind c source held hlent hlenient => ⟨?_, fun start next => ?_, fun later => ⟨?_, ?_⟩⟩⟩
  · obtain ⟨n, used, hread, rfl⟩ := outcome_readAt_eq_ok_iff.1 hstrict
    exact outcome_readAt_eq_ok_iff.2 ⟨n, used, decode_lenient_of_strict hread, rfl⟩
  · obtain ⟨n, used, hread, -⟩ := outcome_readAt_eq_ok_iff.1 hlenient
    obtain hstrict | hpadded := decode_eq_ok_or_nonMinimal hread
    · exact absurd (outcome_readAt_eq_ok_iff.2 ⟨n, used, hstrict, rfl⟩) (hother _)
    · have hplain : ∀ n, Flaw.nonMinimal ≠ .exceeds n := fun _ => nofun
      exact (reports_message_iff hplain).2 hpadded
  · rw [outcome_readAt_eq_ok_iff]
    constructor
    · rintro ⟨m, used, hread, hplaced⟩
      obtain ⟨hm, k, hroom, rfl, hfront⟩ := decode_lenient_eq_ok_iff.1 hread
      obtain ⟨hn, rfl⟩ := Answer.placed.inj hplaced
      obtain ⟨hfits, hwindow⟩ := padded_prefix_iff.1 hfront
      exact ⟨m, Datum.integer.inj hn, hm, k, Nat.le_sub_of_add_le' hroom, rfl, by omega, hwindow⟩
    · rintro ⟨m, rfl, hm, k, hroom, rfl, hfits, hwindow⟩
      have hsize := size_mono hm
      have hfront := padded_prefix_iff.2 ⟨by omega, hwindow⟩
      exact ⟨m, size m + k, decode_lenient_eq_ok_iff.2 ⟨hm, k, by omega, rfl, hfront⟩, rfl⟩
  · rw [Credential.outcome_readCredential_eq_ok_iff hlent, hlenient,
      Credential.deserialize_lenient_eq_ok_iff]
  · rw [Credential.outcome_readCredentialAt_eq_ok_iff hlent, hlenient,
      Credential.unpackFrom_lenient_eq_ok_iff]
  · exact Credential.outcome_serialize c later
  · exact (Credential.outcome_readCredential_eq_ok_iff rfl).2
      (Credential.deserialize_serialize _ c)

/-- Where padding is allowed, a key whose tag has an empty group behind it is read, and written
    without the group. -/
theorem lenient_adds_padding_key :
    let session : Session := { Session.start with policy := some ⟨true, 1024, false⟩ }
    session.policyInForce.strictVarint = false ∧
      ∃ key : PublicKey,
        (Operation.readCredential .publicKey (.octets (0x80 :: 0 :: List.replicate 33 2))).outcome
            session = .ok (.datum key.toDatum) ∧
          (Operation.serialize key.toDatum).outcome session =
            .ok (.datum (.octets (0 :: List.replicate 33 2))) := by
  intro session
  let key : PublicKey := ⟨0, List.replicate 33 2, by decide, by decide⟩
  obtain ⟨-, -, -, hcredential⟩ := lenient_adds_padding 0 .bytes true [] 0 session
  obtain ⟨hread, -, hwritten⟩ := hcredential .publicKey key
    (.octets (0x80 :: 0 :: List.replicate 33 2)) (0x80 :: 0 :: List.replicate 33 2) rfl rfl
  have hencode : encode 0 = [0] := encode_of_lt (by decide)
  refine ⟨rfl, key, hread.2 ⟨1, by decide, ?_⟩, ?_⟩
  · rw [padded, hencode]
    rfl
  · rw [(hwritten session).1, hencode]
    rfl

end Varint

end CryptoIntrinsics
