import CryptoIntrinsics.Proofs.Credential.Canonical
import CryptoIntrinsics.Proofs.Intrinsics.Request

namespace CryptoIntrinsics

/-- A value is taken as a digest value exactly if it has the bytes of one. -/
theorem Checksum.ofDatum_eq_ok_iff {kind : Checksum.Kind} {d : Datum} {c : Checksum kind} :
    ofDatum kind d = .ok c ↔ d.bytesLike? = some c.data := by
  rw [ofDatum]
  cases d.bytesLike? with
  | none =>
    constructor
    · intro hread
      cases hread
    · intro hbytes
      cases hbytes
  | some bytes =>
    simp only [ofOctets, Option.some.injEq]
    split
    · next hsize =>
      constructor
      · intro hread
        cases hread
        rfl
      · rintro rfl
        rfl
    · next hsize =>
      constructor
      · intro hread
        cases hread
      · rintro rfl
        exact absurd c.size_eq hsize

/-- A session that differs at most in that it remembers the policy in force. -/
def Session.Recalls (session later : Session) : Prop :=
  later = session ∨ later = session.remembering

theorem Session.Recalls.journal_eq {session later : Session} (hlater : session.Recalls later) :
    later.journal = session.journal := by
  obtain rfl | rfl := hlater <;> rfl

theorem Session.Recalls.active_eq {session later : Session} (hlater : session.Recalls later) :
    later.active = session.active := by
  obtain rfl | rfl := hlater <;> rfl

theorem Session.Recalls.policyInForce_eq {session later : Session}
    (hlater : session.Recalls later) : later.policyInForce = session.policyInForce := by
  obtain rfl | rfl := hlater <;> rfl

theorem Session.Recalls.trans {session later last : Session} (hlater : session.Recalls later)
    (hlast : later.Recalls last) : session.Recalls last := by
  obtain rfl | rfl := hlater
  · exact hlast
  · obtain rfl | rfl := hlast
    · exact .inr rfl
    · exact .inr rfl

namespace Intrinsic

open Procedure Session

/-- Whether the operation asks for a verdict on a signature. -/
def asksVerdict : Intrinsic → Bool
  | verifyRsa _ _ _ _ | verifyRsaRaw _ _ _ _ _ => true
  | _ => false

/-- The replies that an operation can use, and what it answers to each. A key may have a padded tag
    where padded integers are not refused. -/
inductive Reads (strict : Bool) : Intrinsic → Datum → Answer → Prop where
  | digest {algorithm data reply} (c : Checksum algorithm.kind)
      (hreply : reply.bytesLike? = some c.data) :
      Reads strict (digest algorithm data) reply (.datum (.checksum algorithm.kind c))
  | recoverKey {hash sig reply bytes} (key : PublicKey) (hreply : reply.lent = .ok bytes)
      (hkey : Credential.deserialize .publicKey strict bytes = .ok key) :
      Reads strict (recoverKey hash sig) reply (.datum (.publicKey key))
  | assertDigest {algorithm data expected} (reply : Datum) :
      Reads strict (assertDigest algorithm data expected) reply (.datum .nothing)
  | assertRecoverKey {hash sig expected} (reply : Datum) :
      Reads strict (assertRecoverKey hash sig expected) reply (.datum .nothing)
  | verifyRsa {data sig exponent modulus reply verdict} (hreply : reply.truth? = some verdict) :
      Reads strict (verifyRsa data sig exponent modulus) reply (.datum (.truth verdict))
  | verifyRsaRaw {data length sig exponent modulus reply verdict}
      (hreply : reply.truth? = some verdict) :
      Reads strict (verifyRsaRaw data length sig exponent modulus) reply (.datum (.truth verdict))

/-- What comes of a reply that cannot be used. The host is to blame for it, unless it is a released
    view, whose own failure is not looked for. -/
inductive Spoils : Datum → Failure → Prop where
  | blamed {reply d} (hheld : reply ≠ .released) (hd : d.IsHostFault) : Spoils reply (.fault d)
  | released : Spoils .released (.stray .value "*")

/-- What an operation makes of a reply: what it reads from it, or what comes of one that it cannot
    use. -/
def Uses (strict : Bool) (i : Intrinsic) (reply : Datum) : Except Failure Answer → Prop
  | .ok answer => i.Reads strict reply answer
  | .error failure => (∀ answer, ¬ i.Reads strict reply answer) ∧ Spoils reply failure

theorem reads_iff_of_asksVerdict {i : Intrinsic} (hasks : i.asksVerdict = true) {strict : Bool}
    {reply : Datum} {answer : Answer} :
    i.Reads strict reply answer ↔
      ∃ verdict, reply.truth? = some verdict ∧ answer = .datum (.truth verdict) := by
  constructor
  · intro hreads
    cases hreads with
    | verifyRsa hreply => exact ⟨_, hreply, rfl⟩
    | verifyRsaRaw hreply => exact ⟨_, hreply, rfl⟩
    | _ => cases hasks
  · rintro ⟨verdict, hreply, rfl⟩
    cases i with
    | verifyRsa data sig exponent modulus => exact .verifyRsa hreply
    | verifyRsaRaw data length sig exponent modulus => exact .verifyRsaRaw hreply
    | _ => cases hasks

theorem Spoils.of_unusable {reply : Datum} {failure : Failure}
    (hmalformed : reply ≠ .released → Intrinsics.findsMalformed failure = true)
    (hreleased : reply = .released → failure = .stray .value "*") (message : String)
    (context : List (String × Datum)) :
    Spoils reply (Intrinsics.unusable failure message context) := by
  unfold Intrinsics.unusable
  by_cases hreply : reply = .released
  · rw [hreleased hreply, hreply, if_neg (by simp [Intrinsics.findsMalformed])]
    exact .released
  · rw [if_pos (hmalformed hreply)]
    exact .blamed hreply (Fault.isHostFault_of _ _)

/-- What is not taken as a digest value has the wrong kind or another width. -/
theorem spoils_of_ofDatum {kind : Checksum.Kind} {reply : Datum} {failure : Failure}
    (hread : Checksum.ofDatum kind reply = .error failure) (message : String)
    (context : List (String × Datum)) :
    Spoils reply (Intrinsics.unusable failure message context) := by
  rw [Checksum.ofDatum] at hread
  cases hlike : reply.bytesLike? with
  | none =>
    rw [hlike] at hread
    cases hread
    apply Spoils.of_unusable
    · intro hheld
      cases reply with
      | released => exact absurd rfl hheld
      | _ => rfl
    · rintro rfl
      rfl
  | some bytes =>
    simp only [hlike, Checksum.ofOctets] at hread
    apply Spoils.of_unusable
    · intro _
      split at hread
      · cases hread
      · cases hread
        rfl
    · rintro rfl
      cases hlike

/-- What lends no bytes is of the wrong kind. -/
theorem spoils_of_lent {reply : Datum} {failure : Failure} (hlent : reply.lent = .error failure)
    (message : String) (context : List (String × Datum)) :
    Spoils reply (Intrinsics.unusable failure message context) := by
  apply Spoils.of_unusable
  · intro hheld
    cases reply with
    | released => exact absurd rfl hheld
    | buffer b =>
      rw [Datum.lent] at hlent
      split at hlent
      · cases hlent
      · cases hlent
        rfl
    | _ =>
      cases hlent
      rfl
  · rintro rfl
    cases hlent
    rfl

/-- Lent bytes that are no canonical encoding are malformed. -/
theorem spoils_of_deserialize {reply : Datum} {bytes : Octets} (hlent : reply.lent = .ok bytes)
    {strict : Bool} {flaw : Credential.Flaw}
    (hread : Credential.deserialize .publicKey strict bytes = .error flaw) (message : String)
    (context : List (String × Datum)) :
    Spoils reply (Intrinsics.unusable (flaw.failure (.integer 0)) message context) := by
  obtain ⟨f, hfailure, hfamily⟩ := Credential.exists_decode_fault (.integer 0) hread
  rw [hfailure]
  apply Spoils.of_unusable
  · intro _
    simp [Intrinsics.findsMalformed, hfamily]
  · rintro rfl
    cases hlent

theorem uses_digest (strict : Bool) (algorithm : Digest.Algorithm) (data reply : Datum)
    (session : Session) :
    ∃ outcome, ((digest algorithm data).conclude (.ok reply)).runOn session = (outcome, session) ∧
      (digest algorithm data).Uses strict reply outcome := by
  rw [conclude, runOn_demand_bind]
  dsimp only
  rw [runOn_bind, Intrinsics.digestOfReply]
  cases hread : Checksum.ofDatum algorithm.kind reply with
  | ok c => exact ⟨_, rfl, .digest c (Checksum.ofDatum_eq_ok_iff.1 hread)⟩
  | error failure =>
    refine ⟨_, rfl, ?_, spoils_of_ofDatum hread _ _⟩
    intro answer hreads
    cases hreads with
    | digest c hreply =>
      rw [Checksum.ofDatum_eq_ok_iff.2 hreply] at hread
      cases hread

theorem uses_recoverKey (hash sig reply : Datum) (session : Session) :
    ∃ outcome later,
      ((recoverKey hash sig).conclude (.ok reply)).runOn session = (outcome, later) ∧
      session.Recalls later ∧
      (recoverKey hash sig).Uses session.policyInForce.strictVarint reply outcome := by
  rw [conclude, runOn_demand_bind]
  dsimp only
  rw [runOn_bind, Intrinsics.keyOfReply]
  cases hlent : reply.lent with
  | error failure =>
    refine ⟨_, _, rfl, .inl rfl, ?_, spoils_of_lent hlent _ _⟩
    intro answer hreads
    cases hreads with
    | recoverKey key hreply hkey =>
      rw [hlent] at hreply
      cases hreply
  | ok bytes =>
    dsimp only
    rw [runOn_bind, runOn_currentPolicy]
    dsimp only
    cases hread : Credential.deserialize .publicKey session.policyInForce.strictVarint bytes with
    | ok key => exact ⟨_, _, rfl, .inr rfl, .recoverKey key hlent hread⟩
    | error flaw =>
      refine ⟨_, _, rfl, .inr rfl, ?_, spoils_of_deserialize hlent hread _ _⟩
      intro answer hreads
      cases hreads with
      | recoverKey key hreply hkey =>
        rw [hlent] at hreply
        cases hreply
        rw [hread] at hkey
        cases hkey

theorem eq_released_of_truth? {reply : Datum} (htruth : reply.truth? = none) :
    reply = .released := by
  unfold Datum.truth? at htruth
  grind

/-- A reply is a verdict if it can be said whether it is true. -/
theorem uses_verdict {i : Intrinsic} (hasks : i.asksVerdict = true) (strict : Bool)
    (reply : Datum) (session : Session) :
    ∃ outcome,
      (do return .datum (.truth (← demand (Intrinsics.verdictOf (.ok reply)))) :
        Procedure Answer).runOn session = (outcome, session) ∧ i.Uses strict reply outcome := by
  rw [runOn_demand_bind, Intrinsics.verdictOf]
  cases htruth : reply.truth? with
  | some verdict =>
    exact ⟨_, rfl, (reads_iff_of_asksVerdict hasks).2 ⟨verdict, htruth, rfl⟩⟩
  | none =>
    obtain rfl := eq_released_of_truth? htruth
    refine ⟨_, rfl, ?_, .released⟩
    intro answer hanswer
    obtain ⟨_, ⟨⟩, -⟩ := (reads_iff_of_asksVerdict hasks).1 hanswer

/-- A reply is read as the answer, or else it is seen what is wrong with it. -/
theorem runOn_conclude_ok (i : Intrinsic) (reply : Datum) (session : Session) :
    ∃ outcome later, (i.conclude (.ok reply)).runOn session = (outcome, later) ∧
      session.Recalls later ∧ i.Uses session.policyInForce.strictVarint reply outcome := by
  cases i with
  | digest algorithm data =>
    obtain ⟨outcome, hrun, huses⟩ := uses_digest session.policyInForce.strictVarint algorithm data
      reply session
    exact ⟨outcome, session, hrun, .inl rfl, huses⟩
  | recoverKey hash sig => exact uses_recoverKey hash sig reply session
  | assertDigest algorithm data expected => exact ⟨_, _, rfl, .inl rfl, .assertDigest reply⟩
  | assertRecoverKey hash sig expected => exact ⟨_, _, rfl, .inl rfl, .assertRecoverKey reply⟩
  | verifyRsa data sig exponent modulus =>
    have hasks : (verifyRsa data sig exponent modulus).asksVerdict = true := rfl
    obtain ⟨outcome, hrun, huses⟩ := uses_verdict hasks _ reply session
    exact ⟨outcome, session, hrun, .inl rfl, huses⟩
  | verifyRsaRaw data length sig exponent modulus =>
    have hasks : (verifyRsaRaw data length sig exponent modulus).asksVerdict = true := rfl
    obtain ⟨outcome, hrun, huses⟩ := uses_verdict hasks _ reply session
    exact ⟨outcome, session, hrun, .inl rfl, huses⟩

theorem runOn_verdictOf_fault (f : Fault) (session : Session) :
    (do return .datum (.truth (← demand (Intrinsics.verdictOf (.error (.fault f))))) :
        Procedure Answer).runOn session =
      (if f.family = .invalidInput then .ok (.datum (.truth false)) else .error (.fault f),
        session) := by
  rw [runOn_demand_bind, Intrinsics.verdictOf]
  by_cases hinput : f.family = .invalidInput
  · rw [if_pos hinput, if_pos hinput]
    rfl
  · rw [if_neg hinput, if_neg hinput]

/-- A fault passes, except that rejected input is a verdict where one is asked for. -/
theorem runOn_conclude_fault (i : Intrinsic) (f : Fault) (session : Session) :
    (i.conclude (.error (.fault f))).runOn session =
      (if i.asksVerdict = true ∧ f.family = .invalidInput then .ok (.datum (.truth false))
        else .error (.fault f), session) := by
  cases i with
  | verifyRsa data sig exponent modulus =>
    rw [conclude, runOn_verdictOf_fault]
    simp only [asksVerdict, true_and]
  | verifyRsaRaw data length sig exponent modulus =>
    rw [conclude, runOn_verdictOf_fault]
    simp only [asksVerdict, true_and]
  | _ => rfl

theorem runOn_conclude_stray (i : Intrinsic) (kind : Stray) (text : String) (session : Session) :
    (i.conclude (.error (.stray kind text))).runOn session =
      (.error (.stray kind text), session) := by
  cases i <;> rfl

/-- What is made of the end of a call depends on the session by the policy in force only. -/
theorem conclude_congr (i : Intrinsic) (outcome : Except Failure Datum) {session twin : Session}
    (hpolicy : session.policyInForce = twin.policyInForce) :
    ((i.conclude outcome).runOn session).1 = ((i.conclude outcome).runOn twin).1 := by
  cases i with
  | digest algorithm data =>
    rw [conclude, runOn_demand_bind, runOn_demand_bind]
    cases outcome with
    | error failure => rfl
    | ok reply =>
      dsimp only
      rw [runOn_bind, runOn_bind, Intrinsics.digestOfReply]
      cases Checksum.ofDatum algorithm.kind reply <;> rfl
  | recoverKey hash sig =>
    rw [conclude, runOn_demand_bind, runOn_demand_bind]
    cases outcome with
    | error failure => rfl
    | ok reply =>
      dsimp only
      rw [runOn_bind, runOn_bind, Intrinsics.keyOfReply]
      cases reply.lent with
      | error failure => rfl
      | ok bytes =>
        dsimp only
        rw [runOn_bind, runOn_bind, runOn_currentPolicy, runOn_currentPolicy, hpolicy]
        dsimp only
        cases Credential.deserialize .publicKey twin.policyInForce.strictVarint bytes <;> rfl
  | assertDigest algorithm data expected => cases outcome <;> rfl
  | assertRecoverKey hash sig expected => cases outcome <;> rfl
  | verifyRsa data sig exponent modulus =>
    rw [conclude, runOn_demand_bind, runOn_demand_bind]
    cases Intrinsics.verdictOf outcome <;> rfl
  | verifyRsaRaw data length sig exponent modulus =>
    rw [conclude, runOn_demand_bind, runOn_demand_bind]
    cases Intrinsics.verdictOf outcome <;> rfl

/-- However a call ended, the conclusion changes nothing of note. -/
theorem recalls_conclude (i : Intrinsic) (outcome : Except Failure Datum) (session : Session) :
    session.Recalls ((i.conclude outcome).runOn session).2 := by
  cases outcome with
  | ok reply =>
    obtain ⟨_, later, hrun, hlater, -⟩ := i.runOn_conclude_ok reply session
    rw [hrun]
    exact hlater
  | error failure =>
    cases failure with
    | fault f =>
      rw [runOn_conclude_fault]
      exact .inl rfl
    | _ => cases i <;> exact .inl rfl

end Intrinsic

end CryptoIntrinsics
