import CryptoIntrinsics.Proofs.Buffer.InPlace
import CryptoIntrinsics.Proofs.Credential.Canonical
import CryptoIntrinsics.Proofs.Intrinsics.Channels
import CryptoIntrinsics.Proofs.Intrinsics.Outcome

namespace CryptoIntrinsics

def Buffer.IsBytesLike (b : Buffer) : Prop :=
  b.exporter = .bytes ∨ b.exporter = .byteArray ∨ b.exporter = .memory

theorem Datum.bytesLike?_eq_some_iff {d : Datum} {bytes : Octets} :
    d.bytesLike? = some bytes ↔ ∃ b, d = .buffer b ∧ b.IsBytesLike ∧ b.flat = bytes := by
  constructor
  · intro hbytes
    cases d with
    | buffer b =>
      rw [bytesLike?] at hbytes
      refine ⟨b, rfl, ?_⟩
      rw [Buffer.IsBytesLike]
      split at hbytes <;> simp_all
    | _ => cases hbytes
  · rintro ⟨b, rfl, hexporter, rfl⟩
    rw [bytesLike?]
    obtain hexporter | hexporter | hexporter := hexporter <;> rw [hexporter]

namespace Credential

variable {kind : Kind}

theorem serialize_ne_nil (c : Credential kind) : c.serialize ≠ [] := by
  intro hempty
  have hdata := (List.append_eq_nil_iff.1 hempty).2
  have hsize := c.size_eq
  rw [hdata] at hsize
  cases kind <;> cases hsize

/-- The bytes of a key or a signature are taken in place exactly from contiguous elements, since
    they are never none. -/
theorem lent_eq_serialize_iff {reply : Datum} (hfilled : ∀ b, reply = .buffer b → b.IsFilled)
    (c : Credential kind) :
    reply.lent = .ok c.serialize ↔
      ∃ b, reply = .buffer b ∧ b.contiguous = true ∧ b.flat = c.serialize := by
  rw [Datum.lent_eq_ok_iff]
  constructor
  · rintro ⟨b, hreply, hsolid, -, hflat⟩
    exact ⟨b, hreply, hsolid, hflat⟩
  · rintro ⟨b, hreply, hsolid, hflat⟩
    -- With an empty side there would be no bytes at all.
    refine ⟨b, hreply, hsolid, fun hhollow => ?_, hflat⟩
    rw [hhollow.flat_eq_nil (hfilled b hreply)] at hflat
    exact c.serialize_ne_nil hflat.symm

end Credential

namespace Intrinsic

/-- The host answers the call of an operation with a reply, and padded integers are refused. A reply
    that lends bytes has them, as all buffers do. -/
structure Receives (i : Intrinsic) (session : Session) (reply : Datum) : Prop where
  ready : session.Ready
  strict : session.policyInForce.strictVarint = true
  replied : ∃ arguments, i.request = .ok arguments ∧ session.answer i.method arguments = .ok reply
  filled : ∀ b, reply = .buffer b → b.IsFilled

variable {i : Intrinsic} {session : Session} {reply : Datum}

theorem Reads.unique {strict : Bool} {answer other : Answer} (hreads : i.Reads strict reply answer)
    (hother : i.Reads strict reply other) : answer = other := by
  cases hreads with
  | digest c hreply =>
    cases hother with
    | digest d hd =>
      rw [hreply] at hd
      rw [Checksum.ext (Option.some.inj hd)]
  | recoverKey key hreply hkey =>
    cases hother with
    | recoverKey other hother hread =>
      rw [hreply] at hother
      cases hother
      rw [hkey] at hread
      rw [Except.ok.inj hread]
  | assertDigest => cases hother; rfl
  | assertRecoverKey => cases hother; rfl
  | verifyRsa hreply | verifyRsaRaw hreply =>
    obtain ⟨verdict, hanother, rfl⟩ := (reads_iff_of_asksVerdict rfl).1 hother
    rw [hreply] at hanother
    rw [Option.some.inj hanother]

theorem Receives.uses (hreceives : i.Receives session reply) :
    i.Uses true reply (i.outcome session) := by
  obtain ⟨arguments, hrequest, hreply⟩ := hreceives.replied
  have huses := uses_of_reply hrequest hreceives.ready hreply
  rwa [hreceives.strict] at huses

/-- An operation answers what it reads from the reply. -/
theorem Receives.outcome_eq_ok_iff (hreceives : i.Receives session reply) {answer : Answer} :
    i.outcome session = .ok answer ↔ i.Reads true reply answer := by
  have huses := hreceives.uses
  cases hrun : i.outcome session with
  | ok given =>
    rw [hrun] at huses
    constructor
    · rintro ⟨⟩
      exact huses
    · intro hreads
      rw [Reads.unique huses hreads]
  | error failure =>
    rw [hrun] at huses
    constructor
    · intro hanswer
      cases hanswer
    · intro hreads
      exact absurd hreads (huses.1 answer)

/-- If it answers nothing, the host is to blame, unless the reply is a released view. -/
theorem Receives.blames (hreceives : i.Receives session reply) (hheld : reply ≠ .released)
    (hnone : ∀ answer, i.outcome session ≠ .ok answer) :
    ∃ d, d.IsHostFault ∧ i.outcome session = .error (.fault d) := by
  have huses := hreceives.uses
  cases hrun : i.outcome session with
  | ok answer => exact absurd hrun (hnone answer)
  | error failure =>
    rw [hrun] at huses
    obtain ⟨-, hspoils⟩ := huses
    cases hspoils with
    | blamed _ hd => exact ⟨_, hd, rfl⟩
    | released => exact absurd rfl hheld

/-- A released view is not read, and then its own failure is not looked for. -/
theorem Receives.outcome_of_released (hreceives : i.Receives session .released)
    (hunread : ∀ answer, ¬ i.Reads true .released answer) :
    i.outcome session = .error (.stray .value "*") := by
  have huses := hreceives.uses
  cases hrun : i.outcome session with
  | ok answer =>
    rw [hrun] at huses
    exact absurd huses (hunread answer)
  | error failure =>
    rw [hrun] at huses
    obtain ⟨-, hspoils⟩ := huses
    cases hspoils with
    | blamed hheld hd => exact absurd rfl hheld
    | released => rfl

theorem not_reads_digest_released {strict : Bool} {algorithm : Digest.Algorithm} {data : Datum}
    (answer : Answer) : ¬ (digest algorithm data).Reads strict .released answer := by
  intro hreads
  cases hreads with
  | digest c hreply => cases hreply

theorem not_reads_recoverKey_released {strict : Bool} {hash sig : Datum} (answer : Answer) :
    ¬ (recoverKey hash sig).Reads strict .released answer := by
  intro hreads
  cases hreads with
  | recoverKey key hreply hkey => cases hreply

theorem reads_digest_iff {strict : Bool} {algorithm : Digest.Algorithm} {data : Datum}
    {answer : Answer} :
    (digest algorithm data).Reads strict reply answer ↔
      ∃ b, ∃ c : Checksum algorithm.kind, reply = .buffer b ∧ b.IsBytesLike ∧ b.flat = c.data ∧
        answer = .datum (.checksum algorithm.kind c) := by
  constructor
  · intro hreads
    cases hreads with
    | digest c hreply =>
      obtain ⟨b, hb, hexporter, hflat⟩ := Datum.bytesLike?_eq_some_iff.1 hreply
      exact ⟨b, c, hb, hexporter, hflat, rfl⟩
  · rintro ⟨b, c, hb, hexporter, hflat, rfl⟩
    exact .digest c (Datum.bytesLike?_eq_some_iff.2 ⟨b, hb, hexporter, hflat⟩)

theorem reads_recoverKey_iff {hash sig : Datum} {answer : Answer}
    (hfilled : ∀ b, reply = .buffer b → b.IsFilled) :
    (recoverKey hash sig).Reads true reply answer ↔
      ∃ b, ∃ key : PublicKey, reply = .buffer b ∧ b.contiguous = true ∧
        b.flat = key.serialize ∧ answer = .datum (.publicKey key) := by
  constructor
  · intro hreads
    cases hreads with
    | recoverKey key hreply hkey =>
      rw [Credential.deserialize_eq_ok_iff.1 hkey, Credential.lent_eq_serialize_iff hfilled]
        at hreply
      obtain ⟨b, hb, hsolid, hflat⟩ := hreply
      exact ⟨b, key, hb, hsolid, hflat, rfl⟩
  · rintro ⟨b, key, hb, hsolid, hflat, rfl⟩
    exact .recoverKey key ((Credential.lent_eq_serialize_iff hfilled key).2 ⟨b, hb, hsolid, hflat⟩)
      (Credential.deserialize_serialize true key)

/-- What is read from two replies with the same bytes is the same, unless it is a verdict. -/
theorem Reads.eq_of_flat_eq {strict : Bool} {j : Intrinsic} {b c : Buffer} {answer other : Answer}
    (hreads : i.Reads strict (.buffer b) answer) (hother : j.Reads strict (.buffer c) other)
    (hmethod : i.method = j.method) (hverdict : i.asksVerdict = false) (hflat : b.flat = c.flat) :
    answer = other := by
  cases hreads with
  | verifyRsa hreply => cases hverdict
  | verifyRsaRaw hreply => cases hverdict
  | digest value hreply =>
    cases hother with
    | digest another hanother =>
      cases hmethod
      obtain ⟨_, ⟨⟩, -, hvalue⟩ := Datum.bytesLike?_eq_some_iff.1 hreply
      obtain ⟨_, ⟨⟩, -, hsame⟩ := Datum.bytesLike?_eq_some_iff.1 hanother
      rw [Checksum.ext (hvalue.symm.trans (hflat.trans hsame))]
    | _ => cases hmethod
  | recoverKey key hreply hkey =>
    cases hother with
    | recoverKey another hanother hread =>
      obtain ⟨_, ⟨⟩, -, -, rfl⟩ := Datum.lent_eq_ok_iff.1 hreply
      obtain ⟨_, ⟨⟩, -, -, rfl⟩ := Datum.lent_eq_ok_iff.1 hanother
      rw [hflat, hread] at hkey
      rw [Except.ok.inj hkey]
    | _ => cases hmethod
  | assertDigest =>
    cases hother with
    | assertDigest => rfl
    | _ => cases hmethod
  | assertRecoverKey =>
    cases hother with
    | assertRecoverKey => rfl
    | _ => cases hmethod

/-- Replies are accepted exactly if they are well formed, where padded integers are refused. A
    digest value is answered to just its bytes, lent by a byte string, a byte array or a memory view
    of any format and shape and with gaps or not; and a key to just its canonical encoding, lent by
    any object in contiguous elements of any format and shape. In answer to any other reply the host
    is blamed, except for a released view, which nobody is blamed for: that it cannot be read escapes
    as it is. What is answered, and is no verdict, goes by the bytes of the reply alone, whatever was
    asked about and however they were lent. -/
theorem answers_iff_wellFormed (session : Session) (reply : Datum) :
    (∀ algorithm data, (digest algorithm data).Receives session reply →
      let outcome := (digest algorithm data).outcome session
      (∀ answer, outcome = .ok answer ↔ ∃ b, ∃ c : Checksum algorithm.kind, reply = .buffer b ∧
        b.IsBytesLike ∧ b.flat = c.data ∧ answer = .datum (.checksum algorithm.kind c)) ∧
      ((∃ answer, outcome = .ok answer) ↔
        ∃ b, reply = .buffer b ∧ b.IsBytesLike ∧ b.flat.length = algorithm.kind.size) ∧
      (reply ≠ .released → (∀ answer, outcome ≠ .ok answer) →
        ∃ d, d.IsHostFault ∧ outcome = .error (.fault d)) ∧
      (reply = .released → outcome = .error (.stray .value "*"))) ∧
    (∀ hash sig, (recoverKey hash sig).Receives session reply →
      let outcome := (recoverKey hash sig).outcome session
      (∀ answer, outcome = .ok answer ↔ ∃ b, ∃ key : PublicKey, reply = .buffer b ∧
        b.contiguous = true ∧ b.flat = key.serialize ∧ answer = .datum (.publicKey key)) ∧
      (reply ≠ .released → (∀ answer, outcome ≠ .ok answer) →
        ∃ d, d.IsHostFault ∧ outcome = .error (.fault d)) ∧
      (reply = .released → outcome = .error (.stray .value "*"))) ∧
    ∀ (i j : Intrinsic) (twin : Session) (b c : Buffer), i.Receives session (.buffer b) →
      j.Receives twin (.buffer c) → i.method = j.method → i.asksVerdict = false →
      b.flat = c.flat → ∀ answer other, i.outcome session = .ok answer →
        j.outcome twin = .ok other → answer = other := by
  refine ⟨fun algorithm data hreceives => ?_, fun hash sig hreceives => ?_, ?_⟩
  · refine ⟨fun answer => hreceives.outcome_eq_ok_iff.trans reads_digest_iff, ?_,
      hreceives.blames, ?_⟩
    · simp only [hreceives.outcome_eq_ok_iff, reads_digest_iff]
      constructor
      · rintro ⟨_, b, c, hb, hexporter, hflat, -⟩
        exact ⟨b, hb, hexporter, by rw [hflat, c.size_eq]⟩
      · rintro ⟨b, hb, hexporter, hsize⟩
        exact ⟨_, b, ⟨b.flat, hsize⟩, hb, hexporter, rfl, rfl⟩
    · rintro rfl
      exact hreceives.outcome_of_released not_reads_digest_released
  · refine ⟨fun answer =>
      hreceives.outcome_eq_ok_iff.trans (reads_recoverKey_iff hreceives.filled), hreceives.blames, ?_⟩
    rintro rfl
    exact hreceives.outcome_of_released not_reads_recoverKey_released
  · intro i j twin b c hone hother hmethod hverdict hflat answer other hanswer hanother
    rw [hone.outcome_eq_ok_iff] at hanswer
    rw [hother.outcome_eq_ok_iff] at hanother
    exact hanswer.eq_of_flat_eq hanother hmethod hverdict hflat

/-- Words with gaps between them are accepted as a digest value, and two rows of bytes as a key. -/
theorem answers_iff_wellFormed_views :
    let key : PublicKey := ⟨0, List.replicate 33 2, by decide, rfl⟩
    let words : Buffer := ⟨.memory, "I", 4, [8], false, List.replicate 32 7⟩
    let rows : Buffer := ⟨.other "grid", "<B", 1, [2, 17], true, key.serialize⟩
    let answers (m : Method) : Except Failure Datum :=
      .ok (.buffer (if m = .recoverKey then rows else words))
    let session : Session := { Session.start with active := some (Host.scripted none answers) }
    let ask : Intrinsic := digest .sha256 (.text "abc")
    let recover : Intrinsic := recoverKey (.checksum .bits256 (.zero .bits256))
      (.signature ⟨0, List.replicate 65 0, by decide, rfl⟩)
    (ask.Receives session (.buffer words) ∧ recover.Receives session (.buffer rows)) ∧
      (∃ c : Checksum .bits256, ask.outcome session = .ok (.datum (.checksum .bits256 c)) ∧
        c.data = List.replicate 32 7) ∧
      recover.outcome session = .ok (.datum (.publicKey key)) := by
  intro key words rows answers session ask recover
  have hready : session.Ready := Session.ready_of_scripted rfl
  have hactive : session.active = some (Host.scripted none answers) := rfl
  have hanswer := Session.answer_of_scripted hactive
  have hkey : key.serialize = 0 :: List.replicate 33 2 := by
    rw [Credential.serialize, Varint.encode_of_lt (by decide)]
    rfl
  have hask : ask.Receives session (.buffer words) := by
    refine ⟨hready, rfl, ⟨_, rfl, hanswer _ _⟩, ?_⟩
    rintro _ ⟨⟩
    rfl
  have hrecover : recover.Receives session (.buffer rows) := by
    refine ⟨hready, rfl, ⟨_, rfl, hanswer _ _⟩, ?_⟩
    rintro _ ⟨⟩
    exact congrArg List.length hkey
  obtain ⟨hdigest, -, -⟩ := answers_iff_wellFormed session (.buffer words)
  obtain ⟨-, hrecovered, -⟩ := answers_iff_wellFormed session (.buffer rows)
  refine ⟨⟨hask, hrecover⟩, ⟨⟨List.replicate 32 7, rfl⟩, ?_, rfl⟩, ?_⟩
  · exact ((hdigest .sha256 (.text "abc") hask).1 _).2 ⟨words, _, rfl, .inr (.inr rfl), rfl, rfl⟩
  · exact ((hrecovered _ _ hrecover).1 _).2 ⟨rows, key, rfl, rfl, rfl, rfl⟩

/-- Nobody is blamed for a released view, neither as a digest value nor as a key. -/
theorem released_without_blame :
    let session : Session :=
      { Session.start with active := some (Host.scripted none fun _ => .ok .released) }
    let ask : Intrinsic := digest .sha256 (.text "abc")
    let recover : Intrinsic := recoverKey (.checksum .bits256 (.zero .bits256))
      (.signature ⟨0, List.replicate 65 0, by decide, rfl⟩)
    ask.Receives session .released ∧ recover.Receives session .released ∧
      ∀ i ∈ [ask, recover], (∀ answer, i.outcome session ≠ .ok answer) ∧
        ¬ ∃ d, d.IsHostFault ∧ i.outcome session = .error (.fault d) := by
  intro session ask recover
  have hready : session.Ready := Session.ready_of_scripted rfl
  have hactive : session.active = some (Host.scripted none fun _ => .ok .released) := rfl
  have hanswer := Session.answer_of_scripted hactive
  have hask : ask.Receives session .released := ⟨hready, rfl, ⟨_, rfl, hanswer _ _⟩, nofun⟩
  have hrecover : recover.Receives session .released :=
    ⟨hready, rfl, ⟨_, rfl, hanswer _ _⟩, nofun⟩
  refine ⟨hask, hrecover, ?_⟩
  simp only [List.forall_mem_cons, List.not_mem_nil, false_implies, implies_true, and_true]
  rw [hask.outcome_of_released not_reads_digest_released,
    hrecover.outcome_of_released not_reads_recoverKey_released]
  simp

end Intrinsic

end CryptoIntrinsics
