import CryptoIntrinsics.Proofs.Hex.Numeral
import CryptoIntrinsics.Proofs.Intrinsics.Acceptance
import CryptoIntrinsics.Proofs.Native.Verdict

namespace CryptoIntrinsics

/-- Two texts, each of them handed over as text or as bytes, that are the same but for the letter
    case of digits. -/
def Datum.SpellsLike (d e : Datum) : Prop :=
  ∃ text other, d.Spells text ∧ e.Spells other ∧ Hex.SameDigits text other

theorem Intrinsics.hexText_eq_ok_iff {argument : String} {d : Datum} {text : Octets} :
    hexText argument d = .ok text ↔ d.Spells text := by
  refine ⟨fun htext => ?_, hexText_of_spells argument⟩
  cases d with
  | text s =>
    cases htext
    exact .text s
  | buffer b =>
    cases hlike : (Datum.buffer b).bytesLike? with
    | none =>
      simp only [hexText, hlike] at htext
      cases htext
    | some bytes =>
      simp only [hexText, hlike] at htext
      cases htext
      obtain ⟨_, ⟨⟩, hexporter, rfl⟩ := Datum.bytesLike?_eq_some_iff.1 hlike
      exact .buffer b (by simpa [Buffer.IsBytesLike] using hexporter)
  | _ => cases htext

namespace Native

/-- What a host takes for the text of a modulus: at least one digit pair, and no zero digit in
    front. -/
structure IsModulus (text : Octets) : Prop extends Hex.IsProper text where
  head?_ne : text.head? ≠ some 0x30

section Texts

variable {text other : Octets} {n : Nat}

theorem hexOctets_congr (subject : String) (hsame : Hex.SameDigits text other) :
    hexOctets subject (.octets text) (.integer text.length) =
      hexOctets subject (.octets other) (.integer other.length) := by
  have hempty : text.isEmpty = other.isEmpty := by
    cases hsame <;> rfl
  rw [hexOctets_octets, hexOctets_octets, hempty, hsame.decode_eq]

/-- A host that finds a signature good has passed every check of it. -/
theorem verifies_of_verifyRsa {s : Settings} {m : Message} {sig exponent modulus : Octets}
    (hgood : verifyRsa s (.buffer m.window) (.measure m) (.octets sig) (.integer sig.length)
      (.octets exponent) (.integer exponent.length) (.octets modulus)
      (.integer modulus.length) = .ok true) : Verifies m.payload sig exponent modulus := by
  obtain ⟨beyond, -, hgood⟩ := Checks.exists_of_bind_eq_ok hgood
  cases beyond with
  | true => cases hgood
  | false =>
    have hjudges := judges_rsaVerdict m sig exponent modulus
    generalize rsaVerdict _ _ _ _ _ _ _ _ = judged at hjudges hgood
    cases hjudges with
    | told hverdict =>
      cases hgood
      exact hverdict.1 rfl
    | refused hfamily _ =>
      dsimp only at hgood
      rw [if_neg Bool.false_ne_true, if_pos hfamily] at hgood
      cases hgood

/-- The letter case of digits makes no difference to a verdict. -/
theorem verifyRsa_congr (s : Settings) (message length : Datum)
    {sig sig' exponent exponent' : Octets} (hsig : Hex.SameDigits sig sig')
    (hexponent : Hex.SameDigits exponent exponent') (hmodulus : Hex.SameDigits text other) :
    verifyRsa s message length (.octets sig) (.integer sig.length) (.octets exponent)
        (.integer exponent.length) (.octets text) (.integer text.length) =
      verifyRsa s message length (.octets sig') (.integer sig'.length) (.octets exponent')
        (.integer exponent'.length) (.octets other) (.integer other.length) := by
  rw [verifyRsa, verifyRsa, rsaVerdict, rsaVerdict, hexOctets_congr _ hsig,
    hexOctets_congr _ hexponent, hexOctets_congr _ hmodulus, take_octets, take_octets]
  simp only [bind, Except.bind, hmodulus.head?_eq_zero_iff]

theorem isModulus_iff :
    IsModulus text ↔ text.head? ≠ some 0x30 ∧ ∃ bytes,
      hexOctets "modulus" (.octets text) (.integer text.length) = .ok bytes ∧
        Hex.Denotes text bytes.toNat := by
  constructor
  · rintro ⟨hproper, hlead⟩
    obtain ⟨hsome, bytes, hwrites⟩ := Hex.isProper_iff.1 hproper
    exact ⟨hlead, bytes, hexOctets_of_writes _ hsome hwrites, hwrites.denotes⟩
  · rintro ⟨hlead, bytes, hbytes, -⟩
    refine ⟨?_, hlead⟩
    by_contra hnot
    obtain ⟨f, hrefused, -⟩ := hexOctets_of_not_isProper "modulus" hnot
    rw [hrefused] at hbytes
    cases hbytes

namespace IsModulus

theorem length_eq (hmodulus : IsModulus text) (hdenotes : Hex.Denotes text n) :
    (Nat.digits 16 n).length = text.length := by
  rw [((Hex.denotes_iff hmodulus.head?_ne).1 hdenotes).length_eq, List.length_reverse]

theorem pos (hmodulus : IsModulus text) (hdenotes : Hex.Denotes text n) : 0 < n := by
  rw [Nat.pos_iff_ne_zero]
  rintro rfl
  have hlength := hmodulus.length_eq hdenotes
  rw [Nat.digits_zero] at hlength
  exact hmodulus.ne_nil (List.length_eq_zero_iff.1 hlength.symm)

/-- The texts of one modulus are the same up to letter case. -/
theorem sameDigits (hone : IsModulus text) (hother : IsModulus other) (htext : Hex.Denotes text n)
    (hlikewise : Hex.Denotes other n) : Hex.SameDigits text other :=
  Hex.sameDigits_of_forall₂ ((Hex.denotes_iff hone.head?_ne).1 htext)
    ((Hex.denotes_iff hother.head?_ne).1 hlikewise)

end IsModulus

/-- A number is written as a modulus just if its digits are even in number. -/
theorem exists_isModulus_iff (hpos : 0 < n) :
    (∃ text, IsModulus text ∧ Hex.Denotes text n) ↔ (Nat.digits 16 n).length % 2 = 0 := by
  constructor
  · rintro ⟨text, hmodulus, hdenotes⟩
    rw [hmodulus.length_eq hdenotes]
    exact hmodulus.even
  · intro heven
    obtain ⟨text, hlead, hdigits⟩ := Hex.exists_forall₂_digits hpos
    have hlength : text.length = (Nat.digits 16 n).length := by
      rw [hdigits.length_eq, List.length_reverse]
    have hsome : text ≠ [] := by
      rintro rfl
      exact Nat.digits_ne_nil_iff_ne_zero.2 hpos.ne' (List.length_eq_zero_iff.1 hlength.symm)
    refine ⟨text, ⟨⟨hsome, by rwa [hlength], ?_⟩, hlead⟩, (Hex.denotes_iff hlead).2 hdigits⟩
    exact Hex.exists_isDigit_of_forall₂ hdigits

end Texts

end Native

namespace Intrinsic

open Session

/-- The operations that come to a verdict on a signature, about a message and about the first bytes
    of a raw buffer. -/
inductive Asks : (Datum → Datum → Datum → Intrinsic) → Prop where
  | message (data : Datum) : Asks (verifyRsa data)
  | front (data length : Datum) : Asks (verifyRsaRaw data length)

section Asks

variable {ask : Datum → Datum → Datum → Intrinsic} {settings : Native.Settings}
  {session : Session} {sig sig' exponent exponent' modulus modulus' : Datum}

theorem Asks.asksVerdict (hasks : Asks ask) (sig exponent modulus : Datum) :
    (ask sig exponent modulus).asksVerdict = true := by
  cases hasks <;> rfl

/-- The message is looked at before the texts. -/
theorem Asks.exists_request (hasks : Asks ask) :
    ∃ message? : Except Failure Message, ∀ sig exponent modulus,
      (ask sig exponent modulus).request =
        message? >>= fun m => rsaRequest m sig exponent modulus := by
  cases hasks with
  | message data =>
    refine ⟨Message.ofDatum data >>= fun m => Message.ofRaw (.buffer m.window) (.measure m), ?_⟩
    intro sig exponent modulus
    rw [request]
    cases Message.ofDatum data <;> rfl
  | front data length => exact ⟨Message.ofRaw data length, fun _ _ _ => rfl⟩

/-- The texts make a difference only up to the letter case of digits. -/
theorem Asks.outcome_eq (hasks : Asks ask) (hnative : session.IsNative settings)
    (hsig : sig.SpellsLike sig') (hexponent : exponent.SpellsLike exponent')
    (hmodulus : modulus.SpellsLike modulus') :
    (ask sig exponent modulus).outcome session = (ask sig' exponent' modulus').outcome session := by
  obtain ⟨message?, hrequest⟩ := hasks.exists_request
  cases message? with
  | error failure =>
    have hrefused (sig exponent modulus : Datum) :
        (ask sig exponent modulus).request = .error failure := hrequest sig exponent modulus
    rw [outcome_of_error (hrefused sig exponent modulus),
      outcome_of_error (hrefused sig' exponent' modulus')]
  | ok m =>
    obtain ⟨s, s', hs, hs', hsames⟩ := hsig
    obtain ⟨e, e', he, he', hsamee⟩ := hexponent
    obtain ⟨n, n', hn, hn', hsamen⟩ := hmodulus
    have hone := (hrequest sig exponent modulus).trans (rsaRequest_of_spells m hs he hn)
    have hother := (hrequest sig' exponent' modulus').trans (rsaRequest_of_spells m hs' he' hn')
    apply outcome_eq_of_answer_eq (hasks.asksVerdict sig exponent modulus)
      (hasks.asksVerdict sig' exponent' modulus') hone hother hnative.ready
    rw [hnative.answer, hnative.answer]
    exact congrArg (·.map Datum.truth) (Native.verifyRsa_congr settings _ _ hsames hsamee hsamen)

/-- Behind a good verdict stands an answer of the host that counts as true. -/
theorem exists_answer_of_true {i : Intrinsic} (hasks : i.asksVerdict = true)
    {arguments : List Datum} (hrequest : i.request = .ok arguments) (hready : session.Ready)
    (hgood : i.outcome session = .ok (.datum (.truth true))) :
    ∃ reply, session.answer .verifyRsa arguments = .ok reply ∧ reply.truth? = some true := by
  rw [outcome_of_ok hrequest hready, method_of_asksVerdict hasks, runOn_conclude_verdict hasks]
    at hgood
  obtain ⟨verdict, hverdict, hanswered⟩ := Checks.exists_of_map_eq_ok hgood
  cases hanswered
  cases hanswer : session.answer .verifyRsa arguments with
  | ok reply =>
    rw [returned_of_ok hanswer, Intrinsics.verdictOf] at hverdict
    refine ⟨reply, rfl, ?_⟩
    split at hverdict
    · next htruth =>
      rw [htruth, Except.ok.inj hverdict]
    · cases hverdict
  | error failure =>
    rw [returned_of_error hanswer] at hverdict
    -- A complaint about the input is no good verdict, and any other failure is none at all.
    generalize atBoundary session.host Method.verifyRsa.name failure = raised at hverdict
    cases raised with
    | fault f =>
      rw [Intrinsics.verdictOf] at hverdict
      split at hverdict <;> cases hverdict
    | _ => cases hverdict

theorem spells_of_rsaRequest_eq_ok {m : Message} {arguments : List Datum}
    (hrequest : rsaRequest m sig exponent modulus = .ok arguments) :
    ∃ s e n, sig.Spells s ∧ exponent.Spells e ∧ modulus.Spells n ∧
      arguments = crossing m ++ spelled s ++ spelled e ++ spelled n := by
  obtain ⟨s, hs, hsig⟩ := Checks.exists_of_bind_eq_ok hrequest
  obtain ⟨e, he, hexponent⟩ := Checks.exists_of_bind_eq_ok hsig
  obtain ⟨n, hn, hmodulus⟩ := Checks.exists_of_bind_eq_ok hexponent
  cases hmodulus
  exact ⟨s, e, n, Intrinsics.hexText_eq_ok_iff.1 hs, Intrinsics.hexText_eq_ok_iff.1 he,
    Intrinsics.hexText_eq_ok_iff.1 hn, rfl⟩

/-- A signature that is found good was checked against the text of a modulus. -/
theorem Asks.isModulus_of_true (hasks : Asks ask) (hnative : session.IsNative settings)
    (hgood : (ask sig exponent modulus).outcome session = .ok (.datum (.truth true))) :
    ∃ text, modulus.Spells text ∧ Native.IsModulus text := by
  obtain ⟨message?, hrequest⟩ := hasks.exists_request
  cases harguments : (ask sig exponent modulus).request with
  | error failure =>
    rw [outcome_of_error harguments] at hgood
    cases hgood
  | ok arguments =>
    rw [hrequest] at harguments
    obtain ⟨m, -, hspelled⟩ := Checks.exists_of_bind_eq_ok harguments
    obtain ⟨s, e, n, -, -, hmodulus, rfl⟩ := spells_of_rsaRequest_eq_ok hspelled
    rw [← hrequest] at harguments
    obtain ⟨reply, hanswer, htrue⟩ := exists_answer_of_true
      (hasks.asksVerdict sig exponent modulus) harguments hnative.ready hgood
    rw [hnative.answer] at hanswer
    obtain ⟨verdict, hverdict, rfl⟩ := Checks.exists_of_map_eq_ok hanswer
    obtain rfl : verdict = true := Option.some.inj htrue
    have hverifies := Native.verifies_of_verifyRsa hverdict
    exact ⟨n, hmodulus, hverifies.isProper_modulus, hverifies.head?_modulus⟩

end Asks

/-- On a native host, whatever its settings are, a verdict goes by the digits of the three texts:
    neither their letter case makes a difference, nor whether they are handed over as text or as
    bytes. A text that the host takes for a modulus denotes the number that the host reads, and all
    such texts of one number are the same up to letter case; a positive number has one just if its
    digits are even in number. So no signature is found good for any other modulus. -/
theorem verdict_reads_numerals {settings : Native.Settings} {session : Session}
    (hnative : session.IsNative settings) {ask : Datum → Datum → Datum → Intrinsic}
    (hasks : Asks ask) :
    (∀ sig sig' exponent exponent' modulus modulus' : Datum,
      sig.SpellsLike sig' → exponent.SpellsLike exponent' → modulus.SpellsLike modulus' →
        (ask sig exponent modulus).outcome session =
          (ask sig' exponent' modulus').outcome session) ∧
    (∀ text, Native.IsModulus text ↔ text.head? ≠ some 0x30 ∧ ∃ bytes,
      Native.hexOctets "modulus" (.octets text) (.integer text.length) = .ok bytes ∧
        Hex.Denotes text bytes.toNat) ∧
    (∀ text other n, Native.IsModulus text → Native.IsModulus other → Hex.Denotes text n →
      Hex.Denotes other n → Hex.SameDigits text other) ∧
    (∀ n, 0 < n → ((∃ text, Native.IsModulus text ∧ Hex.Denotes text n) ↔
      (Nat.digits 16 n).length % 2 = 0)) ∧
    ∀ sig exponent modulus : Datum,
      (ask sig exponent modulus).outcome session = .ok (.datum (.truth true)) →
        ∃ text, modulus.Spells text ∧ Native.IsModulus text ∧
          ∀ n, Hex.Denotes text n → 0 < n ∧ (Nat.digits 16 n).length % 2 = 0 := by
  refine ⟨fun _ _ _ _ _ _ => hasks.outcome_eq hnative, fun text => Native.isModulus_iff,
    fun text other n hone hother => hone.sameDigits hother,
    fun n hpos => Native.exists_isModulus_iff hpos, fun sig exponent modulus hgood => ?_⟩
  obtain ⟨text, hspells, hmodulus⟩ := hasks.isModulus_of_true hnative hgood
  refine ⟨text, hspells, hmodulus, fun n hdenotes => ?_⟩
  have hpos := hmodulus.pos hdenotes
  exact ⟨hpos, (Native.exists_isModulus_iff hpos).1 ⟨text, hmodulus, hdenotes⟩⟩

/-- Letters of both cases, as text and as bytes; and a number of three digits, for which there is no
    text. -/
theorem verdict_reads_numerals_cased :
    let data : Datum := .text "abc"
    let session := Session.start
    session.IsNative (.ofPolicy session.policyInForce) ∧
      (verifyRsa data (.text "0a") (.text "03") (.text "fB")).outcome session =
        (verifyRsa data (.octets [0x30, 0x41]) (.text "03") (.text "Fb")).outcome session ∧
      ¬ ∃ text, Native.IsModulus text ∧ Hex.Denotes text 0x100 := by
  intro data session
  have hnative : session.IsNative (.ofPolicy session.policyInForce) := isNative_of_none rfl
  have hletter : (Datum.text "0a").SpellsLike (.octets [0x30, 0x41]) :=
    ⟨[0x30, 0x61], [0x30, 0x41], .text "0a", .buffer (.ofOctets [0x30, 0x41]) (by decide),
      .cons (.inl rfl) (.cons (.inr ⟨10, by decide, by decide⟩) .nil)⟩
  have hletters : (Datum.text "fB").SpellsLike (.text "Fb") :=
    ⟨[0x66, 0x42], [0x46, 0x62], .text "fB", .text "Fb",
      .cons (.inr ⟨15, by decide, by decide⟩) (.cons (.inr ⟨11, by decide, by decide⟩) .nil)⟩
  have hsame : (Datum.text "03").SpellsLike (.text "03") :=
    ⟨[0x30, 0x33], [0x30, 0x33], .text "03", .text "03", .cons (.inl rfl) (.cons (.inl rfl) .nil)⟩
  obtain ⟨hcase, -, -, hnumber, -⟩ := verdict_reads_numerals hnative (.message data)
  refine ⟨hnative, hcase _ _ _ _ _ _ hletter hsame hletters, ?_⟩
  rw [hnumber 0x100 (by decide)]
  norm_num

end Intrinsic

end CryptoIntrinsics
