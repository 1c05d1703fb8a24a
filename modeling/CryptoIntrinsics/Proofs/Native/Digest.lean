import CryptoIntrinsics.Proofs.Checksum.Reading
import CryptoIntrinsics.Proofs.Intrinsics.Outcome
import CryptoIntrinsics.Proofs.Native.Payload
import CryptoIntrinsics.Proofs.Text.IntegerLiteral

namespace CryptoIntrinsics

/-- A digest value of the kind, or a byte string with the bytes of one. -/
inductive Datum.Gives {kind : Checksum.Kind} : Datum → Checksum kind → Prop where
  | checksum (c : Checksum kind) : Gives (.checksum kind c) c
  | bytes {d : Datum} (c : Checksum kind) (hbytes : d.bytesLike? = some c.data) : Gives d c

namespace Checksum

variable {kind : Kind}

theorem ofArgument_of_gives {d : Datum} {c : Checksum kind} (hgives : d.Gives c)
    (argument : String) : ofArgument kind argument d = .ok c := by
  cases hgives with
  | checksum => exact dif_pos rfl
  | bytes _ hbytes =>
    cases d with
    | buffer b =>
      simp only [ofArgument, hbytes, ofOctets_of_length kind c.size_eq]
      rfl
    | _ => cases hbytes

def flip (c : Checksum kind) (place : Fin kind.size) (bit : Fin 8) : Checksum kind :=
  ⟨c.data.modify place (· ^^^ UInt8.ofNat (2 ^ bit.val)), by rw [List.length_modify, c.size_eq]⟩

theorem flip_ne (c : Checksum kind) (place : Fin kind.size) (bit : Fin 8) :
    c.flip place bit ≠ c := by
  intro hsame
  have hplace : place.val < c.data.length := by
    rw [c.size_eq]
    exact place.isLt
  have hbyte := congrArg (fun d : Checksum kind => d.data[place.val]?) hsame
  simp only [flip, List.getElem?_modify_eq, List.getElem?_eq_getElem hplace,
    Option.map_eq_map, Option.map_some, Option.some.injEq] at hbyte
  have hmask : ∀ bit : Fin 8, UInt8.ofNat (2 ^ bit.val) ≠ 0 := by decide
  exact hmask bit ((UInt8.xor_right_inj _).1 (hbyte.trans UInt8.xor_zero.symm))

end Checksum

namespace Native

def mismatch (algorithm : Digest.Algorithm) (wanted actual : Octets) : Fault :=
  .of .mismatch s!"{algorithm.name} hash mismatch"
    [("algo", .text algorithm.name), ("expected", .text (Hex.encode wanted)),
      ("actual", .text (Hex.encode actual))]

theorem assertDigest_window (s : Settings) (algorithm : Digest.Algorithm) (m : Message)
    (wanted : Octets) :
    assertDigest s algorithm (.buffer m.window) (.measure m) (.octets wanted) =
      match obstacle? s algorithm m with
      | none =>
        if algorithm.hash m.payload = wanted then .ok .nothing
        else .error (.fault (mismatch algorithm wanted (algorithm.hash m.payload)))
      | some failure => .error failure := by
  rw [assertDigest, digest_window]
  cases obstacle? s algorithm m <;> rfl

end Native

namespace Intrinsic

open Procedure Session

/-- A native host stays the one that is reached, whatever an operation comes to. -/
theorem isNative_run {session : Session} {s : Native.Settings} (hnative : session.IsNative s)
    (i : Intrinsic) : (i.operation.run.runOn session).2.IsNative s := by
  have hhost := i.host_run hnative.ready
  obtain ⟨serial, label, hsame⟩ := hnative
  exact ⟨serial, label, hhost.trans hsame⟩

section Outcome

variable {algorithm : Digest.Algorithm} {data expected : Datum} {m : Message} {session : Session}
  {s : Native.Settings}

theorem runOn_conclude_digest_error (failure : Failure) :
    ((digest algorithm data).conclude (.error failure)).runOn session = (.error failure, session) :=
  rfl

theorem runOn_conclude_digest_ok (c : Checksum algorithm.kind) :
    ((digest algorithm data).conclude (.ok (.octets c.data))).runOn session =
      (.ok (.datum (.checksum algorithm.kind c)), session) := by
  have hread : Checksum.ofDatum algorithm.kind (.octets c.data) = .ok c :=
    Checksum.ofDatum_eq_ok_iff.2 rfl
  rw [conclude, runOn_demand_bind]
  dsimp only
  rw [runOn_bind, Intrinsics.digestOfReply, hread]
  rfl

theorem runOn_conclude_assertDigest_error (failure : Failure) :
    ((assertDigest algorithm data expected).conclude (.error failure)).runOn session =
      (.error failure, session) :=
  rfl

theorem outcome_digest (hnative : session.IsNative s) (hdata : Message.ofDatum data = .ok m) :
    (digest algorithm data).outcome session =
      match Native.obstacle? s algorithm m with
      | none => .ok (.datum (.checksum algorithm.kind (algorithm.digest m.payload)))
      | some failure =>
        .error (atBoundary session.host (Method.digest algorithm).name failure) := by
  have hrequest : (digest algorithm data).request = .ok (crossing m) := by
    rw [request, hdata]
    rfl
  have hanswer : session.answer (.digest algorithm) (crossing m) =
      (Native.digest s algorithm (.buffer m.window) (.measure m)).map .octets :=
    hnative.answer _ _
  rw [Native.digest_window] at hanswer
  rw [outcome_of_ok hrequest hnative.ready, method]
  cases hobstacle : Native.obstacle? s algorithm m with
  | none =>
    rw [hobstacle] at hanswer
    rw [returned_of_ok hanswer]
    exact congrArg Prod.fst (runOn_conclude_digest_ok (algorithm.digest m.payload))
  | some failure =>
    rw [hobstacle] at hanswer
    rw [returned_of_error hanswer, runOn_conclude_digest_error]

/-- An assertion on a native host is silent where it is elided or the digest is the expected one, and
    fails as the digest does where there is none. -/
theorem outcome_assertDigest (hnative : session.IsNative s) (hdata : Message.ofDatum data = .ok m)
    {c : Checksum algorithm.kind}
    (hexpected : Checksum.ofArgument algorithm.kind "expected" expected = .ok c) :
    (assertDigest algorithm data expected).outcome session =
      match s.elides, Native.obstacle? s algorithm m with
      | .error failure, _ | .ok false, some failure =>
        .error (atBoundary session.host (Method.assertDigest algorithm).name failure)
      | .ok true, _ => .ok (.datum .nothing)
      | .ok false, none =>
        if algorithm.hash m.payload = c.data then .ok (.datum .nothing)
        else .error (.fault (Native.mismatch algorithm c.data (algorithm.hash m.payload))) := by
  have hrequest : (assertDigest algorithm data expected).request =
      .ok (crossing m ++ [.octets c.data]) := by
    rw [request, hexpected, hdata]
    rfl
  have hanswer : session.answer (.assertDigest algorithm) (crossing m ++ [.octets c.data]) =
      s.elides >>= fun elided => if elided then .ok .nothing
        else Native.assertDigest s algorithm (.buffer m.window) (.measure m) (.octets c.data) :=
    hnative.answer _ _
  rw [Native.assertDigest_window] at hanswer
  rw [outcome_of_ok hrequest hnative.ready, method]
  cases helides : s.elides with
  | error failure =>
    rw [helides] at hanswer
    rw [returned_of_error hanswer, runOn_conclude_assertDigest_error]
  | ok flag =>
    rw [helides] at hanswer
    cases flag with
    | true =>
      rw [returned_of_ok hanswer]
      rfl
    | false =>
      cases hobstacle : Native.obstacle? s algorithm m with
      | some failure =>
        rw [hobstacle] at hanswer
        rw [returned_of_error hanswer, runOn_conclude_assertDigest_error]
      | none =>
        rw [hobstacle] at hanswer
        by_cases hsame : algorithm.hash m.payload = c.data
        · rw [if_pos hsame] at hanswer
          rw [returned_of_ok hanswer]
          simp only [hsame, if_true]
          rfl
        · rw [if_neg hsame] at hanswer
          rw [returned_of_error hanswer, atBoundary_of_passing _ _ (.inl rfl)]
          simp only [hsame, if_false]
          rfl

end Outcome

/-- How an assertion of an expected digest value ends beside the computation of the digest of so many
    bytes. -/
inductive Settles (algorithm : Digest.Algorithm) (c : Checksum algorithm.kind)
    (s : Native.Settings) (length : Nat) :
    Except Failure Answer → Except Failure Answer → Prop where
  /-- The expected value is computed, and the assertion is silent. -/
  | passed : Settles algorithm c s length (.ok (.datum (.checksum algorithm.kind c)))
      (.ok (.datum .nothing))
  /-- Another value is computed, and the assertion reports both. -/
  | mismatched {d : Checksum algorithm.kind} (hother : d ≠ c) :
      Settles algorithm c s length (.ok (.datum (.checksum algorithm.kind d)))
        (.error (.fault (Native.mismatch algorithm c.data d.data)))
  /-- No value is computed, and the assertion fails with the same fault. -/
  | faulted {f : Fault} (hannounces : s.Announces length) (hhost : f.family = .host) :
      Settles algorithm c s length (.error (.fault f)) (.error (.fault f))
  /-- No value is computed and the host does not say why: both calls are blamed for it. -/
  | blamed {f g : Fault} (hsilent : ¬ s.Announces length)
      (hf : f.Blames (Method.digest algorithm)) (hg : g.Blames (Method.assertDigest algorithm)) :
      Settles algorithm c s length (.error (.fault f)) (.error (.fault g))

namespace Settles

variable {algorithm : Digest.Algorithm} {c : Checksum algorithm.kind} {s : Native.Settings}
  {length : Nat} {value verdict : Except Failure Answer}

theorem passed_iff (hsettles : Settles algorithm c s length value verdict) :
    verdict = .ok (.datum .nothing) ↔ value = .ok (.datum (.checksum algorithm.kind c)) := by
  cases hsettles with
  | passed => simp
  | mismatched hother =>
    refine ⟨by simp, fun hsame => ?_⟩
    cases hsame
    exact absurd rfl hother
  | faulted hannounces hhost => simp
  | blamed hsilent hf hg => simp

theorem mismatched_iff (hsettles : Settles algorithm c s length value verdict) :
    (∃ f, verdict = .error (.fault f) ∧ f.family = .mismatch) ↔
      ∃ d, value = .ok (.datum (.checksum algorithm.kind d)) ∧ d ≠ c := by
  cases hsettles with
  | passed =>
    refine ⟨by simp, ?_⟩
    rintro ⟨d, hd, hother⟩
    cases hd
    exact absurd rfl hother
  | mismatched hother => exact ⟨fun _ => ⟨_, rfl, hother⟩, fun _ => ⟨_, rfl, rfl⟩⟩
  | faulted hannounces hhost => simp [hhost]
  | blamed hsilent hf hg => simp [hg.isHostFault.1]

theorem context (hsettles : Settles algorithm c s length value verdict) {f : Fault}
    {d : Checksum algorithm.kind} (hverdict : verdict = .error (.fault f))
    (hvalue : value = .ok (.datum (.checksum algorithm.kind d))) :
    f.context.lookup "expected" = some (.text (Hex.encode c.data)) ∧
      f.context.lookup "actual" = some (.text (Hex.encode d.data)) := by
  cases hsettles with
  | passed => cases hverdict
  | mismatched hother =>
    cases hverdict
    cases hvalue
    exact ⟨rfl, rfl⟩
  | faulted hannounces hhost => cases hvalue
  | blamed hsilent hf hg => cases hvalue

theorem faults_iff (hsettles : Settles algorithm c s length value verdict) :
    (∃ g, verdict = .error (.fault g) ∧ g.family = .host) ↔
      ∃ f, value = .error (.fault f) ∧ f.family = .host := by
  cases hsettles with
  | passed => simp
  | mismatched hother => simp [Native.mismatch, Fault.of]
  | faulted hannounces hhost => exact Iff.rfl
  | blamed hsilent hf hg =>
    exact ⟨fun _ => ⟨_, rfl, hf.isHostFault.1⟩, fun _ => ⟨_, rfl, hg.isHostFault.1⟩⟩

theorem faulted_iff (hsettles : Settles algorithm c s length value verdict)
    (hannounces : s.Announces length) {f : Fault} (hhost : f.family = .host) :
    verdict = .error (.fault f) ↔ value = .error (.fault f) := by
  cases hsettles with
  | passed => simp
  | mismatched hother =>
    refine ⟨fun hf => ?_, by simp⟩
    cases hf
    cases hhost
  | faulted _ _ => exact Iff.rfl
  | blamed hsilent hf hg => exact absurd hannounces hsilent

theorem blames (hsettles : Settles algorithm c s length value verdict)
    (hsilent : ¬ s.Announces length) {f : Fault} (hvalue : value = .error (.fault f)) :
    f.Blames (Method.digest algorithm) ∧
      ∃ g, verdict = .error (.fault g) ∧ g.Blames (Method.assertDigest algorithm) := by
  cases hsettles with
  | passed => cases hvalue
  | mismatched hother => cases hvalue
  | faulted hannounces hhost => exact absurd hannounces hsilent
  | blamed _ hf hg =>
    cases hvalue
    exact ⟨hf, _, rfl, hg⟩

theorem cases_verdict (hsettles : Settles algorithm c s length value verdict) :
    verdict = .ok (.datum .nothing) ∨
      ∃ f, verdict = .error (.fault f) ∧ (f.family = .mismatch ∨ f.family = .host) := by
  cases hsettles with
  | passed => exact .inl rfl
  | mismatched hother => exact .inr ⟨_, rfl, .inl rfl⟩
  | faulted hannounces hhost => exact .inr ⟨_, rfl, .inr hhost⟩
  | blamed hsilent hf hg => exact .inr ⟨_, rfl, .inr hg.isHostFault.1⟩

end Settles

/-- An assertion that is not elided ends beside the digest in one of four ways, whether it is made in
    the same session or in another one with such a host. -/
theorem settles_assertDigest {algorithm : Digest.Algorithm} {data expected : Datum}
    {bytes : Octets} {c : Checksum algorithm.kind} (hdata : data.IsMessage bytes)
    (hexpected : expected.Gives c) {s : Native.Settings}
    (hasserts : s.fastEval.truth? = some false) {session later : Session}
    (hnative : session.IsNative s) (hlater : later.IsNative s) :
    Settles algorithm c s bytes.length ((digest algorithm data).outcome session)
      ((assertDigest algorithm data expected).outcome later) := by
  obtain ⟨m, hm, hpayload, -⟩ := Message.ofDatum_of_isMessage hdata
  have hlength : bytes.length = m.length := by rw [← hpayload, m.length_payload]
  rw [outcome_digest hnative hm, outcome_assertDigest hlater hm
    (Checksum.ofArgument_of_gives hexpected "expected"),
    Native.Settings.elides_of_truth? hasserts, hlength]
  obtain hnone | ⟨hannounces, hsome⟩ | ⟨hsilent, kind, hsome⟩ :=
    Native.obstacle?_cases s algorithm m
  · rw [hnone]
    by_cases hsame : algorithm.hash m.payload = c.data
    · have hvalue : algorithm.digest m.payload = c := Checksum.ext hsame
      simp only [hsame, hvalue, if_true]
      exact .passed
    · simp only [hsame, if_false]
      exact .mismatched fun hvalue => hsame (congrArg Checksum.data hvalue)
  · rw [hsome]
    dsimp only
    rw [atBoundary_of_passing _ _ (.inl rfl), atBoundary_of_passing _ _ (.inl rfl)]
    exact .faulted hannounces rfl
  · rw [hsome]
    exact .blamed hsilent (Fault.blames_of _ _ _) (Fault.blames_of _ _ _)

/-- On a native host that elides no assertion, whatever its cap is, asserting an expected digest
    value says what computing the digest says: it is silent exactly where that value is computed,
    reports a mismatch with both values exactly where another one is, and is a fault of the host
    exactly where none is. The fault is the same one if the cap is a number and a message about it
    and the length can be written; otherwise each of the two calls is blamed for its own. This holds
    of an assertion that is made later, too: it passes for the value computed before, and for no
    value with a bit of it changed. -/
theorem assertDigest_iff_digest (algorithm : Digest.Algorithm) {data expected : Datum}
    {bytes : Octets} {c : Checksum algorithm.kind} (hdata : data.IsMessage bytes)
    (hexpected : expected.Gives c) {s : Native.Settings}
    (hasserts : s.fastEval.truth? = some false) {session later : Session}
    (hnative : session.IsNative s) (hlater : later.IsNative s) :
    let value := (digest algorithm data).outcome session
    let verdict := (assertDigest algorithm data expected).outcome later
    (verdict = .ok (.datum .nothing) ↔ value = .ok (.datum (.checksum algorithm.kind c))) ∧
    ((∃ f, verdict = .error (.fault f) ∧ f.family = .mismatch) ↔
      ∃ d, value = .ok (.datum (.checksum algorithm.kind d)) ∧ d ≠ c) ∧
    (∀ f d, verdict = .error (.fault f) → value = .ok (.datum (.checksum algorithm.kind d)) →
      f.context.lookup "expected" = some (.text (Hex.encode c.data)) ∧
        f.context.lookup "actual" = some (.text (Hex.encode d.data))) ∧
    ((∃ g, verdict = .error (.fault g) ∧ g.family = .host) ↔
      ∃ f, value = .error (.fault f) ∧ f.family = .host) ∧
    (s.Announces bytes.length →
      ∀ f, f.family = .host → (verdict = .error (.fault f) ↔ value = .error (.fault f))) ∧
    (¬ s.Announces bytes.length → ∀ f, value = .error (.fault f) →
      f.Blames (Method.digest algorithm) ∧
        ∃ g, verdict = .error (.fault g) ∧ g.Blames (Method.assertDigest algorithm)) ∧
    (verdict = .ok (.datum .nothing) ∨
      ∃ f, verdict = .error (.fault f) ∧ (f.family = .mismatch ∨ f.family = .host)) ∧
    (∀ d, value = .ok (.datum (.checksum algorithm.kind d)) →
      (assertDigest algorithm data (.checksum algorithm.kind d)).outcome later =
        .ok (.datum .nothing) ∧
      ∀ place bit changed, Datum.Gives changed (d.flip place bit) →
        ∃ f, (assertDigest algorithm data changed).outcome later = .error (.fault f) ∧
          f.family = .mismatch) := by
  intro value verdict
  have hsettles {wanted : Datum} {e : Checksum algorithm.kind} (hwanted : wanted.Gives e) :=
    settles_assertDigest hdata hwanted hasserts hnative hlater
  refine ⟨(hsettles hexpected).passed_iff, (hsettles hexpected).mismatched_iff, ?_,
    (hsettles hexpected).faults_iff, ?_, ?_, (hsettles hexpected).cases_verdict, ?_⟩
  · intro f d
    exact (hsettles hexpected).context
  · intro hannounces f
    exact (hsettles hexpected).faulted_iff hannounces
  · intro hsilent f
    exact (hsettles hexpected).blames hsilent
  · intro d hvalue
    refine ⟨(hsettles (.checksum d)).passed_iff.2 hvalue, ?_⟩
    intro place bit changed hchanged
    exact (hsettles hchanged).mismatched_iff.2 ⟨d, hvalue, (d.flip_ne place bit).symm⟩

/-- Two bytes are the most that this host takes of a message; the digest of three fails, and later
    so does an assertion about them, made with a byte string for the expected value. -/
theorem assertDigest_iff_digest_capped :
    let s : Native.Settings := .ofCap false 2
    let session : Session :=
      { Session.start with active := some (Native.hostNumbered 7 (some "capped") s) }
    let later := ((digest .sha1 (.text "abc")).operation.run.runOn session).2
    let expected : Datum := .octets (List.replicate 20 0)
    session.IsNative s ∧ later.IsNative s ∧
      ∃ f : Fault, f.family = .host ∧
        (digest .sha1 (.text "abc")).outcome session = .error (.fault f) ∧
        (assertDigest .sha1 (.text "abc") expected).outcome later = .error (.fault f) := by
  intro s session later expected
  have hnative : session.IsNative s := ⟨7, some "capped", rfl⟩
  have hlater : later.IsNative s := isNative_run hnative _
  have hexpected : expected.Gives (.zero .bits160) := .bytes _ rfl
  have hannounces : s.Announces (Octets.ofText "abc").length := ⟨rfl, by decide, by decide⟩
  have hvalue : (digest .sha1 (.text "abc")).outcome session =
      .error (.fault (Native.oversizeFault s .sha1 (.integer 3))) := by
    rw [outcome_digest hnative rfl]
    rfl
  obtain ⟨-, -, -, -, hfaults, -⟩ := assertDigest_iff_digest .sha1 (.text "abc") hexpected
    (s := s) rfl hnative hlater
  exact ⟨hnative, hlater, _, rfl, hvalue, (hfaults hannounces _ rfl).2 hvalue⟩

/-- With a cap below zero that has too many digits to be printed, the digest of no bytes and an
    assertion about them fail with faults that differ in message and context. -/
theorem assertDigest_fault_ne_digest :
    let cap : Int := -(10 ^ Text.IntegerLiteral.maxDecimalDigits : Nat)
    let session : Session :=
      { Session.start with active := some (Native.hostNumbered 1 none (.ofCap false cap)) }
    ∃ f g : Fault, (digest .sha256 (.octets [])).outcome session = .error (.fault f) ∧
      (assertDigest .sha256 (.octets []) (.octets (List.replicate 32 0))).outcome session =
        .error (.fault g) ∧
      f.family = .host ∧ g.family = .host ∧ f.message ≠ g.message ∧
      f.context.lookup "call" ≠ g.context.lookup "call" := by
  intro cap session
  have hnative : session.IsNative (.ofCap false cap) := ⟨1, none, rfl⟩
  have hbeyond : (Native.Settings.ofCap false cap).isBeyondCap (.integer 0) = .ok true := by
    have hpos : 0 < 10 ^ Text.IntegerLiteral.maxDecimalDigits := Nat.pow_pos (by decide)
    rw [Native.Settings.isBeyondCap_ofCap, Except.ok.injEq, decide_eq_true_eq]
    omega
  have hlong : (Datum.integer cap).isWritable = false := by
    rw [← Bool.not_eq_true]
    intro hwritable
    have hshort := Text.IntegerLiteral.isWritable_iff.1 hwritable
    rw [Int.natAbs_neg, Int.natAbs_natCast] at hshort
    exact Nat.lt_irrefl _ hshort
  have hobstacle : Native.obstacle? (.ofCap false cap) .sha256 (.whole .bytes []) =
      some (.stray .value "*") := by
    rw [Native.obstacle?, Datum.measure_of_plain rfl]
    simp only [Message.whole, List.length_nil, Int.natCast_zero]
    rw [hbeyond]
    simp only [Native.oversize, Native.Settings.ofCap, hlong, Bool.and_false, Bool.false_eq_true,
      if_false]
  have hdata : Message.ofDatum (.octets []) = .ok (.whole .bytes []) := rfl
  have hexpected : Checksum.ofArgument Digest.Algorithm.sha256.kind "expected"
      (.octets (List.replicate 32 0)) = .ok (.zero .bits256) := rfl
  have hvalue : (digest .sha256 (.octets [])).outcome session = _ := outcome_digest hnative hdata
  have hverdict := outcome_assertDigest hnative hdata hexpected
  rw [hobstacle] at hvalue hverdict
  refine ⟨_, _, hvalue, hverdict, rfl, rfl, ?_, ?_⟩
  · decide
  · rw [(Fault.blames_of _ (.digest .sha256) _).call_eq,
      (Fault.blames_of _ (.assertDigest .sha256) _).call_eq]
    simp [Method.name, Digest.Algorithm.name]

end Intrinsic

end CryptoIntrinsics
