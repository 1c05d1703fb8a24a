import CryptoIntrinsics.Proofs.Credential.Canonical
import CryptoIntrinsics.Proofs.Native.Digest

namespace CryptoIntrinsics

def Credential.withHeader (s : Signature) (header : UInt8) : Signature :=
  ⟨s.tag, header :: s.data.tail, s.tag_le, by
    rw [List.length_cons, List.length_tail, s.size_eq]
    rfl⟩

namespace Recovery

theorem Flaw.family_fault (flaw : Flaw) : flaw.fault.family = .recovery := by
  cases flaw <;> rfl

theorem Flaw.isFatal_fault (flaw : Flaw) : flaw.fault.isFatal = true := by
  rw [Fault.isFatal, flaw.family_fault]
  rfl

/-- The key that made a signature over a digest, under the tag of the signature. -/
def key (digest : Octets) (s : Signature) : Except Flaw PublicKey :=
  match hsolve : solve digest s with
  | .ok point => .ok ⟨s.tag, point, s.tag_le, (isCompressed_of_solve hsolve).length_eq⟩
  | .error flaw => .error flaw

theorem key_of_ok {digest point : Octets} {s : Signature} (hsolve : solve digest s = .ok point) :
    key digest s =
      .ok ⟨s.tag, point, s.tag_le, (isCompressed_of_solve hsolve).length_eq⟩ := by
  rw [key]
  split
  · next other hother =>
    rw [hsolve] at hother
    cases hother
    rfl
  · next flaw hflaw =>
    rw [hsolve] at hflaw
    cases hflaw

theorem key_of_error {digest : Octets} {s : Signature} {flaw : Flaw}
    (hsolve : solve digest s = .error flaw) : key digest s = .error flaw := by
  rw [key]
  split
  · next other hother =>
    rw [hsolve] at hother
    cases hother
  · next other hother =>
    rw [hsolve] at hother
    cases hother
    rfl

theorem isCompressed_of_key {digest : Octets} {s : Signature} {k : PublicKey}
    (hkey : key digest s = .ok k) : k.tag = s.tag ∧ IsCompressed k.data := by
  cases hsolve : solve digest s with
  | ok point =>
    rw [key_of_ok hsolve] at hkey
    cases hkey
    exact ⟨rfl, isCompressed_of_solve hsolve⟩
  | error flaw =>
    rw [key_of_error hsolve] at hkey
    cases hkey

/-- The headers of an uncompressed and of a compressed key ask for the same point. -/
theorem parity_add_four {id : Nat} (hid : id < 4) : parity (31 + id) = parity (27 + id) := by
  have hplain : ¬ (27 + id < 27 ∨ 35 ≤ 27 + id) := by omega
  have hcompressed : ¬ (31 + id < 27 ∨ 35 ≤ 31 + id) := by omega
  have hsame : (31 + id - 27) % 4 = (27 + id - 27) % 4 := by omega
  rw [parity, parity, if_neg hplain, if_neg hcompressed, hsame]

/-- Of the header, only the parity that it asks for makes a difference. -/
theorem key_withHeader (digest : Octets) (s : Signature) {one other : UInt8}
    (hparity : parity one.toNat = parity other.toNat) :
    key digest (s.withHeader one) = key digest (s.withHeader other) := by
  have hsolve : solve digest (s.withHeader one) = solve digest (s.withHeader other) := by
    simp only [solve, Credential.withHeader, Credential.curve, List.headD_cons, List.tail_cons,
      hparity]
    rfl
  cases hother : solve digest (s.withHeader other) with
  | ok point =>
    rw [hother] at hsolve
    rw [key_of_ok hsolve, key_of_ok hother]
    rfl
  | error flaw =>
    rw [hother] at hsolve
    rw [key_of_error hsolve, key_of_error hother]

end Recovery

namespace Native

def keyMismatch (wanted recovered : Octets) : Fault :=
  .of .mismatch "public key does not match"
    [("expected", .text (Hex.encode wanted)), ("recovered", .text (Hex.encode recovered))]

/-- However integers are read, a recovery goes by the signature that was written. -/
theorem recoverKey_serialize (strict : Bool) (digest : Octets) (s : Signature) :
    recoverKey strict digest s.serialize =
      match Recovery.key digest s with
      | .ok k => .ok k.serialize
      | .error flaw => .error (.fault flaw.fault) := by
  rw [recoverKey, recover, Credential.deserialize_serialize]
  cases hsolve : Recovery.solve digest s with
  | ok point =>
    rw [Recovery.key_of_ok hsolve]
    simp only [hsolve]
    rfl
  | error flaw =>
    rw [Recovery.key_of_error hsolve]
    simp only [hsolve]
    rfl

theorem assertRecoverKey_serialize (strict : Bool) (digest : Octets) (s : Signature)
    (k : PublicKey) :
    assertRecoverKey strict digest s.serialize (.octets k.serialize) =
      match Recovery.key digest s with
      | .ok r =>
        if r = k then .ok .nothing else .error (.fault (keyMismatch k.serialize r.serialize))
      | .error flaw => .error (.fault flaw.fault) := by
  rw [assertRecoverKey, recoverKey_serialize]
  cases Recovery.key digest s with
  | error flaw => rfl
  | ok r =>
    by_cases hsame : r = k
    · rw [hsame]
      exact (if_pos rfl).trans (if_pos rfl).symm
    · have hbytes : r.serialize ≠ k.serialize := fun hbytes =>
        hsame (Credential.serialize_inj.1 hbytes)
      exact (if_neg hbytes).trans (if_neg hsame).symm

end Native

namespace Intrinsic

open Procedure Session

section Outcome

variable {hash : Datum} {d : Checksum .bits256} {session : Session} {settings : Native.Settings}

theorem runOn_conclude_recoverKey_ok (sig : Datum) (k : PublicKey) :
    ((recoverKey hash sig).conclude (.ok (.octets k.serialize))).runOn session =
      (.ok (.datum (.publicKey k)), session.remembering) := by
  have hlent : (Datum.octets k.serialize).lent = .ok k.serialize := rfl
  rw [conclude, runOn_demand_bind]
  dsimp only
  rw [runOn_bind, Intrinsics.keyOfReply, hlent]
  dsimp only
  rw [runOn_bind, runOn_currentPolicy]
  simp only [Credential.deserialize_serialize]
  rfl

/-- Whatever the settings of a native host, a recovery comes to the key or to the reason why there
    is none. -/
theorem outcome_recoverKey (hnative : session.IsNative settings)
    (hhash : Checksum.ofArgument .bits256 "digest" hash = .ok d) (s : Signature) :
    (recoverKey hash (.signature s)).outcome session =
      match Recovery.key d.data s with
      | .ok k => .ok (.datum (.publicKey k))
      | .error flaw => .error (.fault flaw.fault) := by
  have hrequest : (recoverKey hash (.signature s)).request =
      .ok [.octets d.data, .octets s.serialize] := by
    rw [request, hhash]
    rfl
  have hanswer : session.answer .recoverKey [.octets d.data, .octets s.serialize] =
      (Native.recoverKey session.policyInForce.strictVarint d.data s.serialize).map .octets :=
    hnative.answer _ _
  rw [Native.recoverKey_serialize] at hanswer
  rw [outcome_of_ok hrequest hnative.ready, method]
  cases hkey : Recovery.key d.data s with
  | ok k =>
    rw [hkey] at hanswer
    rw [returned_of_ok hanswer]
    exact congrArg Prod.fst (runOn_conclude_recoverKey_ok (.signature s) k)
  | error flaw =>
    rw [hkey] at hanswer
    rw [returned_of_error hanswer, atBoundary_of_passing _ _ (.inl flaw.isFatal_fault)]
    rfl

theorem runOn_conclude_assertRecoverKey_error {sig key : Datum} (failure : Failure) :
    ((assertRecoverKey hash sig key).conclude (.error failure)).runOn session =
      (.error failure, session) :=
  rfl

theorem answer_assertRecoverKey (hnative : session.IsNative settings) (digest sig : Octets)
    (expected : Datum) :
    session.answer .assertRecoverKey [.octets digest, .octets sig, expected] =
      settings.elides >>= fun elided => if elided then .ok .nothing
        else Native.assertRecoverKey session.policyInForce.strictVarint digest sig expected := by
  rw [hnative.answer, Native.respond]
  cases settings.elides with
  | error failure => rfl
  | ok elided => cases elided <;> rfl

theorem outcome_assertRecoverKey (hnative : session.IsNative settings)
    (hhash : Checksum.ofArgument .bits256 "digest" hash = .ok d) (s : Signature) (k : PublicKey) :
    (assertRecoverKey hash (.signature s) (.publicKey k)).outcome session =
      match settings.elides with
      | .error failure => .error (atBoundary session.host Method.assertRecoverKey.name failure)
      | .ok true => .ok (.datum .nothing)
      | .ok false =>
        match Recovery.key d.data s with
        | .ok r =>
          if r = k then .ok (.datum .nothing)
          else .error (.fault (Native.keyMismatch k.serialize r.serialize))
        | .error flaw => .error (.fault flaw.fault) := by
  have hrequest : (assertRecoverKey hash (.signature s) (.publicKey k)).request =
      .ok [.octets d.data, .octets s.serialize, .octets k.serialize] := by
    rw [request, hhash]
    rfl
  have hanswer := answer_assertRecoverKey hnative d.data s.serialize (.octets k.serialize)
  rw [Native.assertRecoverKey_serialize] at hanswer
  rw [outcome_of_ok hrequest hnative.ready, method]
  cases helides : settings.elides with
  | error failure =>
    rw [helides] at hanswer
    rw [returned_of_error hanswer, runOn_conclude_assertRecoverKey_error]
  | ok elided =>
    rw [helides] at hanswer
    cases elided with
    | true =>
      rw [returned_of_ok hanswer]
      rfl
    | false =>
      cases hkey : Recovery.key d.data s with
      | error flaw =>
        rw [hkey] at hanswer
        rw [returned_of_error hanswer, atBoundary_of_passing _ _ (.inl flaw.isFatal_fault)]
        rfl
      | ok r =>
        rw [hkey] at hanswer
        by_cases hsame : r = k
        · simp only [hsame, if_true] at hanswer ⊢
          rw [returned_of_ok hanswer]
          rfl
        · simp only [hsame, if_false] at hanswer ⊢
          rw [returned_of_error hanswer, atBoundary_of_passing _ _ (.inl rfl)]
          rfl

end Outcome

/-- How an assertion of an expected key ends beside the recovery of the key for a signature. -/
inductive Vouches (s : Signature) (k : PublicKey) :
    Except Failure Answer → Except Failure Answer → Prop where
  /-- The expected key is recovered, and the assertion is silent. -/
  | matched (htag : k.tag = s.tag) (hpoint : Recovery.IsCompressed k.data) :
      Vouches s k (.ok (.datum (.publicKey k))) (.ok (.datum .nothing))
  /-- Another key is recovered, and the assertion reports both. -/
  | mismatched {r : PublicKey} (hother : r ≠ k) (htag : r.tag = s.tag)
      (hpoint : Recovery.IsCompressed r.data) :
      Vouches s k (.ok (.datum (.publicKey r)))
        (.error (.fault (Native.keyMismatch k.serialize r.serialize)))
  /-- No key is recovered, and the assertion fails for the same reason. -/
  | failed {f : Fault} (hrecovery : f.family = .recovery) :
      Vouches s k (.error (.fault f)) (.error (.fault f))

theorem equals?_publicKey (r k : PublicKey) :
    Operation.equals? (.publicKey r) (.publicKey k) = .ok (decide (r = k)) := rfl

namespace Vouches

variable {s : Signature} {k : PublicKey} {value verdict : Except Failure Answer}

theorem matched_iff (hvouches : Vouches s k value verdict) :
    verdict = .ok (.datum .nothing) ↔
      ∃ r, value = .ok (.datum (.publicKey r)) ∧
        Operation.equals? (.publicKey r) (.publicKey k) = .ok true := by
  simp only [equals?_publicKey, Except.ok.injEq, decide_eq_true_eq]
  cases hvouches with
  | matched => exact ⟨fun _ => ⟨k, rfl, rfl⟩, fun _ => rfl⟩
  | mismatched hother =>
    refine ⟨nofun, ?_⟩
    rintro ⟨r, hr, rfl⟩
    cases hr
    exact absurd rfl hother
  | failed hrecovery => exact ⟨nofun, fun ⟨_, hr, _⟩ => nomatch hr⟩

theorem mismatched_iff (hvouches : Vouches s k value verdict) :
    (∃ f, verdict = .error (.fault f) ∧ f.family = .mismatch) ↔
      ∃ r, value = .ok (.datum (.publicKey r)) ∧
        Operation.equals? (.publicKey r) (.publicKey k) = .ok false := by
  simp only [equals?_publicKey, Except.ok.injEq, decide_eq_false_iff_not]
  cases hvouches with
  | matched =>
    constructor
    · rintro ⟨f, hf, -⟩
      cases hf
    · rintro ⟨r, hr, hother⟩
      cases hr
      exact absurd rfl hother
  | mismatched hother => exact ⟨fun _ => ⟨_, rfl, hother⟩, fun _ => ⟨_, rfl, rfl⟩⟩
  | failed hrecovery =>
    constructor
    · rintro ⟨f, hf, hfamily⟩
      cases hf
      rw [hrecovery] at hfamily
      cases hfamily
    · rintro ⟨r, hr, -⟩
      cases hr

theorem failed_iff (hvouches : Vouches s k value verdict) {f : Fault}
    (hrecovery : f.family = .recovery) :
    verdict = .error (.fault f) ↔ value = .error (.fault f) := by
  cases hvouches with
  | matched => exact ⟨nofun, nofun⟩
  | mismatched =>
    refine ⟨fun hf => ?_, nofun⟩
    cases hf
    cases hrecovery
  | failed => exact Iff.rfl

theorem cases_value (hvouches : Vouches s k value verdict) :
    (∃ r, value = .ok (.datum (.publicKey r)) ∧ r.tag = s.tag ∧ Recovery.IsCompressed r.data) ∨
      ∃ f, value = .error (.fault f) ∧ f.family = .recovery := by
  cases hvouches with
  | matched htag hpoint => exact .inl ⟨k, rfl, htag, hpoint⟩
  | mismatched _ htag hpoint => exact .inl ⟨_, rfl, htag, hpoint⟩
  | failed hrecovery => exact .inr ⟨_, rfl, hrecovery⟩

end Vouches

section Recovered

variable {hash : Datum} {d : Checksum .bits256} {session later : Session}
  {settings : Native.Settings}

theorem vouches_assertRecoverKey (hhash : hash.Gives d) (s : Signature) (k : PublicKey)
    (hasserts : settings.fastEval.truth? = some false) (hnative : session.IsNative settings)
    (hlater : later.IsNative settings) :
    Vouches s k ((recoverKey hash (.signature s)).outcome session)
      ((assertRecoverKey hash (.signature s) (.publicKey k)).outcome later) := by
  have hdigest := Checksum.ofArgument_of_gives hhash "digest"
  rw [outcome_recoverKey hnative hdigest, outcome_assertRecoverKey hlater hdigest,
    Native.Settings.elides_of_truth? hasserts]
  dsimp only
  cases hkey : Recovery.key d.data s with
  | error flaw => exact .failed flaw.family_fault
  | ok r =>
    obtain ⟨htag, hpoint⟩ := Recovery.isCompressed_of_key hkey
    by_cases hsame : r = k
    · subst hsame
      simp only [if_true]
      exact .matched htag hpoint
    · simp only [if_neg hsame]
      exact .mismatched hsame htag hpoint

/-- The header of an uncompressed key counts as that of a compressed one with the same recovery
    id. -/
theorem outcome_withHeader (hhash : hash.Gives d) (s : Signature) {id : Nat} (hid : id < 2)
    (hnative : session.IsNative settings) (k : PublicKey) :
    let plain : Datum := .signature (s.withHeader (.ofNat (27 + id)))
    let compressed : Datum := .signature (s.withHeader (.ofNat (31 + id)))
    (recoverKey hash plain).outcome session = (recoverKey hash compressed).outcome session ∧
      (assertRecoverKey hash plain (.publicKey k)).outcome session =
        (assertRecoverKey hash compressed (.publicKey k)).outcome session := by
  have hdigest := Checksum.ofArgument_of_gives hhash "digest"
  have hparity : Recovery.parity (UInt8.ofNat (27 + id)).toNat =
      Recovery.parity (UInt8.ofNat (31 + id)).toNat := by
    have hplain : 27 + id < UInt8.size := Nat.lt_trans (Nat.add_lt_add_left hid 27) (by decide)
    have hcompressed : 31 + id < UInt8.size := Nat.lt_trans (Nat.add_lt_add_left hid 31) (by decide)
    rw [UInt8.toNat_ofNat_of_lt' hplain, UInt8.toNat_ofNat_of_lt' hcompressed,
      Recovery.parity_add_four (by omega)]
  have hkey := Recovery.key_withHeader d.data s hparity
  dsimp only
  rw [outcome_recoverKey hnative hdigest, outcome_recoverKey hnative hdigest,
    outcome_assertRecoverKey hnative hdigest, outcome_assertRecoverKey hnative hdigest, hkey]
  exact ⟨rfl, rfl⟩

/-- On a native host that elides no assertion, asserting a key for a signature says what recovering
    the key says: it is silent exactly where the expected key is recovered, reports a mismatch
    exactly where another one is, and fails with the same fault exactly where none is. A recovery
    fails in no other way, and a key that it comes to is a compressed point under the tag of the
    signature, whether the header of the signature asks for a compressed key or not. -/
theorem assertRecoverKey_iff_recoverKey (hhash : hash.Gives d) (s : Signature) (k : PublicKey)
    (hasserts : settings.fastEval.truth? = some false) (hnative : session.IsNative settings)
    (hlater : later.IsNative settings) :
    let value := (recoverKey hash (.signature s)).outcome session
    let verdict := (assertRecoverKey hash (.signature s) (.publicKey k)).outcome later
    (verdict = .ok (.datum .nothing) ↔
      ∃ r, value = .ok (.datum (.publicKey r)) ∧
        Operation.equals? (.publicKey r) (.publicKey k) = .ok true) ∧
    ((∃ f, verdict = .error (.fault f) ∧ f.family = .mismatch) ↔
      ∃ r, value = .ok (.datum (.publicKey r)) ∧
        Operation.equals? (.publicKey r) (.publicKey k) = .ok false) ∧
    (∀ f, f.family = .recovery → (verdict = .error (.fault f) ↔ value = .error (.fault f))) ∧
    ((∃ r, value = .ok (.datum (.publicKey r)) ∧ r.tag = s.tag ∧ Recovery.IsCompressed r.data) ∨
      ∃ f, value = .error (.fault f) ∧ f.family = .recovery) ∧
    ∀ id < 2,
      let plain : Datum := .signature (s.withHeader (.ofNat (27 + id)))
      let compressed : Datum := .signature (s.withHeader (.ofNat (31 + id)))
      (recoverKey hash plain).outcome session = (recoverKey hash compressed).outcome session ∧
        (assertRecoverKey hash plain (.publicKey k)).outcome later =
          (assertRecoverKey hash compressed (.publicKey k)).outcome later := by
  have hvouches := vouches_assertRecoverKey hhash s k hasserts hnative hlater
  refine ⟨hvouches.matched_iff, hvouches.mismatched_iff, ?_, hvouches.cases_value, ?_⟩
  · intro f
    exact hvouches.failed_iff
  · intro id hid
    exact ⟨(outcome_withHeader hhash s hid hnative k).1,
      (outcome_withHeader hhash s hid hlater k).2⟩

/-- Over a digest of zero bytes, the signature with one for r and for s was made with the key that
    is the even point over one. The assertion of that key passes later, and that of the odd point
    does not. -/
theorem assertRecoverKey_iff_recoverKey_one :
    let hash : Datum := .octets (List.replicate 32 0)
    let s : Signature := ⟨0, 31 :: (Octets.ofNat 32 1 ++ Octets.ofNat 32 1), by decide, by decide⟩
    let even : PublicKey := ⟨0, 2 :: Octets.ofNat 32 1, by decide, by decide⟩
    let odd : PublicKey := ⟨0, 3 :: Octets.ofNat 32 1, by decide, by decide⟩
    let settings : Native.Settings := .ofCap false 0
    let session : Session :=
      { Session.start with active := some (Native.hostNumbered 3 (some "native") settings) }
    let later := ((recoverKey hash (.signature s)).operation.run.runOn session).2
    session.IsNative settings ∧ later.IsNative settings ∧
      (recoverKey hash (.signature s)).outcome session = .ok (.datum (.publicKey even)) ∧
      (assertRecoverKey hash (.signature s) (.publicKey even)).outcome later =
        .ok (.datum .nothing) ∧
      ∃ f, (assertRecoverKey hash (.signature s) (.publicKey odd)).outcome later =
        .error (.fault f) ∧ f.family = .mismatch := by
  intro hash s even odd settings session later
  have hhash : hash.Gives (.zero .bits256) := .bytes _ rfl
  have hnative : session.IsNative settings := ⟨3, some "native", rfl⟩
  have hlater : later.IsNative settings := isNative_run hnative _
  have hsolve : Recovery.solve (Checksum.zero .bits256).data s = .ok even.data := by decide +kernel
  have hvalue : (recoverKey hash (.signature s)).outcome session =
      .ok (.datum (.publicKey even)) := by
    rw [outcome_recoverKey hnative (Checksum.ofArgument_of_gives hhash "digest"),
      Recovery.key_of_ok hsolve]
  obtain ⟨hmatched, -⟩ := assertRecoverKey_iff_recoverKey hhash s even rfl hnative hlater
  obtain ⟨-, hmismatched, -⟩ := assertRecoverKey_iff_recoverKey hhash s odd rfl hnative hlater
  exact ⟨hnative, hlater, hvalue, hmatched.2 ⟨even, hvalue, rfl⟩, hmismatched.2 ⟨even, hvalue, rfl⟩⟩

end Recovered

end Intrinsic

end CryptoIntrinsics
