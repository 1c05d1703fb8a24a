import CryptoIntrinsics.Proofs.Octets.Window
import CryptoIntrinsics.Proofs.Varint.Extension
import CryptoIntrinsics.Proofs.Varint.Padding

namespace CryptoIntrinsics

theorem Offset.ahead?_neg {α : Type} {items : List α} {back : Nat} (hback : 0 < back)
    (hinside : back ≤ items.length) :
    ahead? items (-(back : Int)) = some (items.rtake back ++ items) := by
  have hplace : (-(back : Int) + items.length).toNat = items.length - back := by omega
  rw [ahead?, if_neg (by omega), if_pos (by omega), hplace, List.rtake]

namespace Varint

section Decode

variable {strict : Bool} {bound : Int} {front rest : Octets} {n used : Nat}

theorem le_length_of_decode (hread : decode strict bound front = .ok (n, used)) :
    used ≤ front.length := by
  cases decodes_iff.2 hread with
  | found rest hword hbound =>
    rw [List.length_append, List.length_cons]
    omega

/-- Where bytes break an integer off, it ends behind them. -/
theorem length_lt_of_decode_append (hshort : decode strict bound front = .error .truncated)
    (hread : decode strict bound (front ++ rest) = .ok (n, used)) : front.length < used := by
  obtain ⟨hrun, -⟩ := decode_eq_truncated_iff.1 hshort
  generalize hwhole : front ++ rest = whole at hread
  cases decodes_iff.2 hread with
  | @found run last behind hword hbound =>
    by_contra hinside
    have hlast : front[run.length]? = some last := by
      have hbefore : run.length < front.length := by omega
      have hsame : (front ++ rest)[run.length]? = front[run.length]? :=
        List.getElem?_append_left hbefore
      rw [← hsame, hwhole]
      simp
    have htop := hrun last (List.mem_of_getElem? hlast)
    have hlow := hword.last_lt
    omega

/-- An integer in front of some bytes ends among the first of them, and is read from these alone,
    or else they break it off. -/
theorem decode_append_eq_ok_iff :
    decode strict bound (front ++ rest) = .ok (n, used) ↔
      (used ≤ front.length ∧ decode strict bound front = .ok (n, used)) ∨
        (front.length < used ∧ decode strict bound front = .error .truncated ∧
          decode strict bound (front ++ rest) = .ok (n, used)) := by
  by_cases hshort : decode strict bound front = .error .truncated
  · constructor
    · intro hread
      exact .inr ⟨length_lt_of_decode_append hshort hread, hshort, hread⟩
    · rintro (⟨-, hread⟩ | ⟨-, -, hread⟩)
      · rw [hshort] at hread
        cases hread
      · exact hread
  · rw [decode_append hshort]
    constructor
    · intro hread
      exact .inl ⟨le_length_of_decode hread, hread⟩
    · rintro (⟨-, hread⟩ | ⟨-, -, hread⟩) <;> exact hread

end Decode

def readFrom (asked : Datum) (bound : Int) (row : Buffer) (offset : Int) : Operation :=
  .decodeVarint (.buffer row) (.integer offset) (.integer bound) asked

section Reading

variable {asked : Datum} {bound : Int} {exporter : Exporter} {contiguous : Bool}
  {bytes ahead : Octets} {offset : Int} {session : Session}
  (hahead : Offset.ahead? bytes offset = some ahead)
include hahead

/-- What is read goes by the bytes that are met from the offset on. -/
theorem outcome_readFrom_eq_placed_iff {n next : Int} :
    (readFrom asked bound (.byteRow exporter contiguous bytes) offset).outcome session =
        .ok (.placed (.integer n) next) ↔
      ∃ refusing, session.refusesPadding asked = some refusing ∧
        ∃ m used : Nat, n = m ∧ next = offset + used ∧
          decode refusing bound ahead = .ok (m, used) := by
  rw [readFrom, outcome_decodeVarint_byteRow]
  cases session.refusesPadding asked with
  | none => simp
  | some refusing =>
    simp only [decodeAt?, hahead, Option.map_some, Option.some.injEq, exists_eq_left']
    rcases decode refusing bound ahead with flaw | ⟨m, used⟩
    · simp [Except.map]
    · constructor
      · intro hplaced
        obtain ⟨hn, hnext⟩ := Answer.placed.inj (Except.ok.inj hplaced)
        exact ⟨m, used, (Datum.integer.inj hn).symm, hnext.symm, rfl⟩
      · rintro ⟨_, _, rfl, rfl, ⟨⟩⟩
        rfl

theorem reports_of_truncated {refusing : Bool}
    (hasked : session.refusesPadding asked = some refusing)
    (hshort : decode refusing bound ahead = .error .truncated) :
    Reports "truncated uvarint"
      ((readFrom asked bound (.byteRow exporter contiguous bytes) offset).outcome session) := by
  refine ⟨Flaw.truncated.fault (.integer offset) (.integer bound), ?_, rfl,
    Flaw.message_fault ..⟩
  rw [readFrom, outcome_decodeVarint_byteRow, hasked]
  dsimp only
  rw [decodeAt?, hahead, Option.map_some, hshort]
  rfl

end Reading

/-- An integer from the tail on is one of the tail alone, or one that the tail breaks off and the
    front of the bytes completes. -/
theorem outcome_readFrom_neg_iff {asked : Datum} {bound : Int} {exporter : Exporter}
    {contiguous : Bool} {bytes : Octets} {back : Nat} (hback : 0 < back)
    (hinside : back ≤ bytes.length) {session : Session} {n next : Int} :
    let outcome (bytes : Octets) (offset : Int) :=
      (readFrom asked bound (.byteRow exporter contiguous bytes) offset).outcome session
    outcome bytes (-back) = .ok (.placed (.integer n) next) ↔
      (next ≤ 0 ∧ outcome (bytes.rtake back) 0 = .ok (.placed (.integer n) (next + back))) ∨
      (0 < next ∧ Reports "truncated uvarint" (outcome (bytes.rtake back) 0) ∧
        outcome (bytes.rtake back ++ bytes) 0 = .ok (.placed (.integer n) (next + back))) := by
  have hlength := Octets.length_rtake hinside
  dsimp only
  rw [outcome_readFrom_eq_placed_iff (Offset.ahead?_neg hback hinside),
    outcome_readFrom_eq_placed_iff (Offset.ahead?_zero _),
    outcome_readFrom_eq_placed_iff (Offset.ahead?_zero _)]
  constructor
  · rintro ⟨refusing, hasked, m, used, rfl, rfl, hread⟩
    obtain ⟨hused, hfront⟩ | ⟨hused, hshort, -⟩ := decode_append_eq_ok_iff.1 hread
    · exact .inl ⟨by omega, refusing, hasked, m, used, rfl, by omega, hfront⟩
    · exact .inr ⟨by omega, reports_of_truncated (Offset.ahead?_zero _) hasked hshort, refusing,
        hasked, m, used, rfl, by omega, hread⟩
  · rintro (⟨hnext, refusing, hasked, m, used, rfl, hused, hread⟩ |
      ⟨-, -, refusing, hasked, m, used, rfl, hused, hread⟩)
    · have hfront := le_length_of_decode hread
      exact ⟨refusing, hasked, m, used, rfl, by omega,
        decode_append_eq_ok_iff.2 (.inl ⟨hfront, hread⟩)⟩
    · exact ⟨refusing, hasked, m, used, rfl, by omega, hread⟩

end Varint

namespace Credential

variable {kind : Kind} {bytes : Octets} {back : Nat}

/-- What is read as a tag from the tail on and what follows it: enough data are a value unless they
    reach from the tail to the end of the bytes or beyond. -/
theorem unpackFrom_neg (kind : Kind) (strict : Bool) (hback : 0 < back)
    (hinside : back ≤ bytes.length) {tag : Nat} (htag : tag ≤ Varint.maxTag) {data : Octets}
    (hahead : bytes.rtake back ++ bytes = Varint.encode tag ++ data) :
    unpackFrom kind strict bytes (-(back : Int)) =
      if henough : kind.size ≤ data.length then
        if Varint.size tag + kind.size < back ∨ back ≤ Varint.size tag then
          .ok (⟨tag, data.take kind.size, htag, by rw [List.length_take, Nat.min_eq_left henough]⟩,
            -(back : Int) + (Varint.size tag + kind.size : Nat))
        else
          .error (.width kind (bytes.window (-(back : Int) + Varint.size tag)
            (-(back : Int) + (Varint.size tag + kind.size : Nat))).length)
      else .error (.truncated kind data.length) := by
  have hlength := congrArg List.length hahead
  rw [List.length_append, List.length_append, Octets.length_rtake hinside,
    Varint.length_encode] at hlength
  have hplaced : Varint.decodeAt? strict Varint.maxTag bytes (-(back : Int)) =
      some (.ok (tag, -(back : Int) + Varint.size tag)) := by
    rw [Varint.decodeAt?, Offset.ahead?_neg hback hinside, Option.map_some, hahead,
      decode_tag_append strict htag, Varint.length_encode]
    rfl
  have hstop : -(back : Int) + Varint.size tag + kind.size =
      -(back : Int) + (Varint.size tag + kind.size : Nat) := by omega
  have hdata : (bytes.rtake back ++ bytes).drop (Varint.size tag) = data := by
    rw [hahead, ← Varint.length_encode, List.drop_left]
  simp only [unpackFrom, hplaced, hstop]
  by_cases henough : kind.size ≤ data.length
  · rw [if_neg (by omega), dif_pos htag, dif_pos henough]
    have hwidth : (data.take kind.size).length = kind.size := by
      rw [List.length_take, Nat.min_eq_left henough]
    by_cases hwithin : Varint.size tag + kind.size < back ∨ back ≤ Varint.size tag
    · have hwindow : bytes.window (-(back : Int) + Varint.size tag)
          (-(back : Int) + (Varint.size tag + kind.size : Nat)) = data.take kind.size := by
        rw [← hdata]
        obtain hlt | hle := hwithin
        · exact Octets.window_neg_of_lt hinside hlt
        · exact Octets.window_neg_of_le hinside hle (by omega)
      rw [if_pos hwithin, hwindow, ofParts, dif_pos hwidth]
      rfl
    · have hacross : Varint.size tag < back ∧ back ≤ Varint.size tag + kind.size := by omega
      have hshort := Octets.length_window_neg_lt hinside hacross.1 hacross.2
      rw [if_neg hwithin, ofParts, dif_neg (by omega)]
      rfl
  · rw [if_pos (by omega), dif_neg henough]
    congr 2
    omega

theorem length_serialize (c : Credential kind) :
    c.serialize.length = Varint.size c.tag + kind.size := by
  rw [serialize, List.length_append, Varint.length_encode, c.size_eq]

/-- Strictly, a value is read from the tail on where its encoding begins there, goes on at the front
    of the bytes if it does not end before the last one, and does so only behind the tag. -/
theorem unpackFrom_neg_eq_ok_iff (hback : 0 < back) (hinside : back ≤ bytes.length)
    {c : Credential kind} {next : Int} :
    unpackFrom kind true bytes (-(back : Int)) = .ok (c, next) ↔
      next = -(back : Int) + c.serialize.length ∧
        c.serialize <+: bytes.rtake back ++ bytes ∧ (next < 0 ∨ back ≤ Varint.size c.tag) := by
  have hsize := c.length_serialize
  constructor
  · intro hread
    obtain ⟨tag, htag, data, hahead⟩ | ⟨flaw, hflaw⟩ :=
      exists_tag_or_badTag (bytes.rtake back ++ bytes)
    · rw [unpackFrom_neg kind true hback hinside htag hahead] at hread
      split at hread
      · split at hread
        · rename_i hwithin
          cases hread
          rw [hsize]
          refine ⟨rfl, ?_, by dsimp only; omega⟩
          rw [hahead, serialize, List.prefix_append_right_inj]
          exact List.take_prefix _ _
        · cases hread
      · cases hread
    · simp only [unpackFrom, Varint.decodeAt?, Offset.ahead?_neg hback hinside, Option.map_some,
        hflaw] at hread
      cases hread
  · rintro ⟨rfl, ⟨rest, hrest⟩, hwithin⟩
    rw [hsize] at hwithin ⊢
    rw [serialize, List.append_assoc] at hrest
    have hdata : (c.data ++ rest).take kind.size = c.data := by
      rw [← c.size_eq, List.take_left]
    have henough : kind.size ≤ (c.data ++ rest).length := by
      rw [List.length_append, c.size_eq]
      omega
    rw [unpackFrom_neg kind true hback hinside c.tag_le hrest.symm, dif_pos henough,
      if_pos (by omega)]
    simp only [hdata]

/-- An encoding that is read from the tail on stands in the tail exactly if the offset behind it is
    still one from the end. -/
theorem serialize_prefix_rtake_iff (hinside : back ≤ bytes.length) {c : Credential kind}
    (hahead : c.serialize <+: bytes.rtake back ++ bytes) {next : Int}
    (hnext : next = -(back : Int) + c.serialize.length)
    (hwithin : next < 0 ∨ back ≤ Varint.size c.tag) :
    c.serialize <+: bytes.rtake back ↔ next < 0 := by
  have hlength := Octets.length_rtake hinside
  have hsize := c.length_serialize
  have hpos : 0 < kind.size := by cases kind <;> decide
  constructor
  · intro hfront
    have hle := hfront.length_le
    omega
  · intro hbefore
    exact List.prefix_of_prefix_length_le hahead (List.prefix_append _ _) (by omega)

end Credential

namespace Varint

/-- Reading at an offset that counts from the end. An integer that ends there at the latest is read
    as from the tail alone; an integer that ends behind it is one that the tail breaks off, and is
    completed from the front of the bytes. Under a policy that refuses padding, a key or a signature
    is read where its encoding begins with the tail and goes on at the front, if it ends before the
    last byte or else its tag takes up all of the tail; so its encoding stands in the tail just if
    the offset behind it counts from the end, too. -/
theorem placed_from_tail_iff (asked : Datum) (bound : Int) (exporter : Exporter)
    (contiguous : Bool) (bytes : Octets) {back : Nat} (hback : 0 < back)
    (hinside : back ≤ bytes.length) (session : Session) :
    let outcome (bytes : Octets) (offset : Int) :=
      (readFrom asked bound (.byteRow exporter contiguous bytes) offset).outcome session
    (∀ n next : Int, outcome bytes (-back) = .ok (.placed (.integer n) next) ↔
      (next ≤ 0 ∧ outcome (bytes.rtake back) 0 = .ok (.placed (.integer n) (next + back))) ∨
      (0 < next ∧ Reports "truncated uvarint" (outcome (bytes.rtake back) 0) ∧
        outcome (bytes.rtake back ++ bytes) 0 = .ok (.placed (.integer n) (next + back)))) ∧
    ∀ (kind : Credential.Kind) (c : Credential kind) (source : Datum) (next : Int),
      source.lent = .ok bytes → session.policyInForce.strictVarint = true →
        let outcome := (Operation.readCredentialAt kind source (.integer (-back))).outcome session
        (outcome = .ok (.placed c.toDatum next) ↔
          next = -(back : Int) + c.serialize.length ∧
            c.serialize <+: bytes.rtake back ++ bytes ∧ (next < 0 ∨ back ≤ size c.tag)) ∧
        (outcome = .ok (.placed c.toDatum next) →
          (c.serialize <+: bytes.rtake back ↔ next < 0)) := by
  refine ⟨fun n next => outcome_readFrom_neg_iff hback hinside,
    fun kind c source next hlent hstrict => ?_⟩
  dsimp only
  rw [Credential.outcome_readCredentialAt_eq_ok_iff hlent, hstrict,
    Credential.unpackFrom_neg_eq_ok_iff hback hinside]
  refine ⟨Iff.rfl, ?_⟩
  rintro ⟨hnext, hahead, hwithin⟩
  exact Credential.serialize_prefix_rtake_iff hinside hahead hnext hwithin

/-- An integer and a key that end before the last byte are read as they stand. -/
theorem placed_from_tail_iff_before_end :
    let bytes : Octets := 0 :: List.replicate 33 2 ++ [0x80]
    (readFrom .nothing maxTag (.ofOctets bytes) (-35)).outcome .start =
        .ok (.placed (.integer 0) (-34)) ∧
      ∃ key : PublicKey,
        (Operation.readCredentialAt .publicKey (.octets bytes) (.integer (-35))).outcome .start =
          .ok (.placed key.toDatum (-1)) ∧ key.serialize <+: bytes.rtake 35 := by
  intro bytes
  obtain ⟨hinteger, hcredential⟩ :=
    placed_from_tail_iff .nothing maxTag .bytes true bytes (by decide : 0 < 35) (by decide) .start
  let key : PublicKey := ⟨0, List.replicate 33 2, by decide, by decide⟩
  have hserialize : key.serialize = 0 :: List.replicate 33 2 := by
    rw [Credential.serialize, encode_of_lt (by decide)]
    rfl
  obtain ⟨hplaced, hfront⟩ := hcredential .publicKey key (.octets bytes) (-1) rfl rfl
  rw [hserialize] at hplaced hfront
  have hread := hplaced.2 ⟨rfl, ⟨[0x80] ++ bytes, rfl⟩, .inl (by decide)⟩
  refine ⟨(hinteger 0 (-34)).2 (.inl ⟨by decide, rfl⟩), key, hread, ?_⟩
  rw [hserialize]
  exact (hfront hread).2 (by decide)

/-- A byte that asks for another one is no integer, but in the end of some bytes it is read with the
    first of them. A tag of its own there is read with data from the front as a key that the tail
    does not begin with. -/
theorem placed_across_end :
    ((readFrom .nothing maxTag (.ofOctets [1, 0x80]) (-1)).outcome .start =
        .ok (.placed (.integer 128) 1) ∧
      ∀ answer, (readFrom .nothing maxTag (.ofOctets [0x80]) 0).outcome .start ≠ .ok answer) ∧
    let bytes : Octets := List.replicate 33 2 ++ [0]
    ∃ key : PublicKey,
      (Operation.readCredentialAt .publicKey (.octets bytes) (.integer (-1))).outcome .start =
        .ok (.placed key.toDatum 33) ∧ ¬ key.serialize <+: bytes.rtake 1 := by
  refine ⟨⟨rfl, nofun⟩, ⟨0, List.replicate 33 2, by decide, by decide⟩, rfl, fun hfront => ?_⟩
  have hle := hfront.length_le
  rw [Credential.serialize, List.length_append, length_encode] at hle
  exact absurd hle (by decide)

end Varint

end CryptoIntrinsics
