import CryptoIntrinsics.Proofs.Native.Digest

namespace CryptoIntrinsics

/-- The same fault, of whichever kinds the equal values of its context are. -/
structure Fault.Agrees (f g : Fault) : Prop where
  family : f.family = g.family
  message : f.message = g.message
  code : f.code = g.code
  context : List.Forall₂ (fun a b => a.1 = b.1 ∧ a.2.equal b.2 = true) f.context g.context

/-- The same outcome, up to faults that agree. -/
inductive Intrinsic.Alike : Except Failure Answer → Except Failure Answer → Prop where
  | same (outcome : Except Failure Answer) : Alike outcome outcome
  | faults {f g : Fault} (hagrees : f.Agrees g) : Alike (.error (.fault f)) (.error (.fault g))

namespace Datum

theorem equal_text (s : String) : (text s).equal (text s) = true := beq_self_eq_true s

theorem shown_measure (m : Message) : (measure m).shown = toString (m.length : Int) := by
  rw [measure]
  split
  · next c hcurve => rw [shown, m.toInt_lengthCurve c hcurve]
  · rfl

theorem equal_of_integer? {a b : Datum} {n : Int} (ha : a.integer? = some n)
    (hb : b.integer? = some n) : a.equal b = true := by
  have hplain : a.equal b = equalPlain a b := by
    cases a with
    | integer m => rfl
    | curve c => rfl
    | _ => cases ha
  rw [hplain]
  simp only [equalPlain, number?_of_integer? ha, number?_of_integer? hb]
  simp [Number.equal, Number.compare?_integer]

end Datum

/-- The only trace of how a length was given is its value in the context. -/
theorem Native.agrees_oversizeFault (s : Settings) (algorithm : Digest.Algorithm)
    {one other : Message} (hlength : one.length = other.length) :
    (oversizeFault s algorithm (.measure one)).Agrees
      (oversizeFault s algorithm (.measure other)) := by
  have hequal : (Datum.measure one).equal (.measure other) = true := by
    apply Datum.equal_of_integer? (Datum.integer?_measure one)
    rw [Datum.integer?_measure, hlength]
  refine ⟨rfl, ?_, rfl, .cons ⟨rfl, Datum.equal_text _⟩ (.cons ⟨rfl, hequal⟩ .nil)⟩
  simp only [oversizeFault, Fault.of, Datum.shown_measure, hlength]

/-- The same stands in the way of a digest, except that the fault of too long a message tells the
    length as it was given. -/
theorem Native.obstacle?_same_or_oversize (s : Settings) (algorithm : Digest.Algorithm)
    {one other : Message} (hlength : one.length = other.length) :
    obstacle? s algorithm one = obstacle? s algorithm other ∨
      obstacle? s algorithm one = some (.fault (oversizeFault s algorithm (.measure one))) ∧
        obstacle? s algorithm other =
          some (.fault (oversizeFault s algorithm (.measure other))) := by
  rw [obstacle?, obstacle?, Settings.isBeyondCap_measure, Settings.isBeyondCap_measure, hlength]
  split
  · exact .inl rfl
  · rw [oversize, oversize, Datum.isWritable_measure, Datum.isWritable_measure, hlength]
    split
    · exact .inr ⟨rfl, rfl⟩
    · exact .inl rfl
  · exact .inl rfl

/-- What is asked about the digest of a message: its value, or whether it is an expected one. -/
inductive DigestQuery where
  | value
  | assertion (expected : Datum)

namespace DigestQuery

open Intrinsic Session

/-- The operation that asks it. -/
def about (q : DigestQuery) (algorithm : Digest.Algorithm) (data : Datum) : Intrinsic :=
  match q with
  | value => .digest algorithm data
  | assertion expected => .assertDigest algorithm data expected

/-- The arguments of the call behind the message. An expected value may be rejected. -/
def further (q : DigestQuery) (algorithm : Digest.Algorithm) : Except Failure (List Datum) :=
  match q with
  | value => .ok []
  | assertion expected =>
    (Checksum.ofArgument algorithm.kind "expected" expected).map fun c => [.octets c.data]

variable {q : DigestQuery} {algorithm : Digest.Algorithm} {data one other : Datum} {bytes : Octets}
  {session : Session}

theorem request_about (q : DigestQuery) (algorithm : Digest.Algorithm) {m : Message}
    (hdata : Message.ofDatum data = .ok m) :
    (q.about algorithm data).request = (q.further algorithm).map (crossing m ++ ·) := by
  cases q with
  | value =>
    rw [about, request, hdata]
    rfl
  | assertion expected =>
    rw [about, request, hdata, further]
    cases Checksum.ofArgument algorithm.kind "expected" expected <;> rfl

theorem sends_about {rest : List Datum} (hdata : data.IsMessage bytes)
    (hrest : q.further algorithm = .ok rest) (hready : session.Ready) :
    (q.about algorithm data).Sends session bytes rest := by
  obtain ⟨m, hm, rfl, -⟩ := Message.ofDatum_of_isMessage hdata
  apply sends_of_ok _ hready
  rw [request_about q algorithm hm, hrest]
  rfl

theorem runOn_about_of_error {failure : Failure} (hdata : data.IsMessage bytes)
    (hrest : q.further algorithm = .error failure) (session : Session) :
    (q.about algorithm data).operation.run.runOn session = (.error failure, session) := by
  obtain ⟨m, hm, -, -⟩ := Message.ofDatum_of_isMessage hdata
  apply runOn_operation_of_error
  rw [request_about q algorithm hm, hrest]
  rfl

/-- A native host makes the same of messages with the same bytes, except that the fault of too long
    a message tells the length as it was given. -/
theorem outcome_same_or_oversize (q : DigestQuery) (algorithm : Digest.Algorithm) {m n : Message}
    (hone : Message.ofDatum one = .ok m) (hother : Message.ofDatum other = .ok n)
    (hpayload : m.payload = n.payload) {s : Native.Settings} (hnative : session.IsNative s) :
    (q.about algorithm one).outcome session = (q.about algorithm other).outcome session ∨
      (q.about algorithm one).outcome session =
          .error (.fault (Native.oversizeFault s algorithm (.measure m))) ∧
        (q.about algorithm other).outcome session =
          .error (.fault (Native.oversizeFault s algorithm (.measure n))) := by
  have hlength := Message.length_eq_of_payload_eq hpayload
  have hobstacle := Native.obstacle?_same_or_oversize s algorithm hlength
  cases q with
  | value =>
    rw [about, about, outcome_digest hnative hone, outcome_digest hnative hother, hpayload]
    obtain hsame | ⟨hfirst, hsecond⟩ := hobstacle
    · rw [hsame]
      exact .inl rfl
    · rw [hfirst, hsecond]
      dsimp only
      rw [atBoundary_of_passing _ _ (.inl rfl), atBoundary_of_passing _ _ (.inl rfl)]
      exact .inr ⟨rfl, rfl⟩
  | assertion expected =>
    rw [about, about]
    cases hexpected : Checksum.ofArgument algorithm.kind "expected" expected with
    | error failure =>
      have hrequest (source : Datum) :
          (assertDigest algorithm source expected).request = .error failure := by
        rw [request, hexpected]
        rfl
      rw [outcome_of_error (hrequest one), outcome_of_error (hrequest other)]
      exact .inl rfl
    | ok c =>
      rw [outcome_assertDigest hnative hone hexpected,
        outcome_assertDigest hnative hother hexpected, hpayload]
      obtain hsame | ⟨hfirst, hsecond⟩ := hobstacle
      · rw [hsame]
        exact .inl rfl
      · rw [hfirst, hsecond]
        -- Whether the message is too long matters only where the assertion is not elided.
        cases s.elides with
        | error failure => exact .inl rfl
        | ok elided =>
          cases elided with
          | true => exact .inl rfl
          | false =>
            dsimp only
            rw [atBoundary_of_passing _ _ (.inl rfl), atBoundary_of_passing _ _ (.inl rfl)]
            exact .inr ⟨rfl, rfl⟩

theorem alike_outcome {s : Native.Settings} (hone : one.IsMessage bytes)
    (hother : other.IsMessage bytes) (hnative : session.IsNative s) :
    Alike ((q.about algorithm one).outcome session) ((q.about algorithm other).outcome session) ∧
      (one.HasPlainLength → other.HasPlainLength →
        (q.about algorithm one).outcome session = (q.about algorithm other).outcome session) := by
  obtain ⟨m, hm, hpayload, hplain⟩ := Message.ofDatum_of_isMessage hone
  obtain ⟨n, hn, rfl, hlikewise⟩ := Message.ofDatum_of_isMessage hother
  have hlength := Message.length_eq_of_payload_eq hpayload
  obtain hsame | ⟨hvalue, hwanted⟩ := outcome_same_or_oversize q algorithm hm hn hpayload hnative
  · rw [hsame]
    exact ⟨.same _, fun _ _ => rfl⟩
  · rw [hvalue, hwanted]
    refine ⟨.faults (Native.agrees_oversizeFault s algorithm hlength), fun hfirst hsecond => ?_⟩
    rw [Datum.measure_of_plain (hplain hfirst), Datum.measure_of_plain (hlikewise hsecond), hlength]

/-- Every text and every buffer without gaps makes a row of its bytes, as many as a buffer's elements
    have and not as many as it has elements; a buffer with gaps makes none. Whatever stands for the
    same bytes then makes the same call of any host, or none if the expected value is rejected, and
    comes to the same on a native host. Only the fault of too long a message tells a length that was
    given as a curve from the equal number. -/
theorem independent_of_shape :
    (∀ form bytes, MessageForm.takesSource form = true →
      (form.Presents bytes ↔ ∃ m, Operation.messageOf form = .ok m ∧ m.Shows bytes ∧
        (Datum.message m).IsMessage bytes)) ∧
    (∀ b : Buffer, b.IsLent → b.contiguous = true →
      ∀ form ∈ [MessageForm.any (.buffer b), .bytes (.buffer b)],
        ∃ m, Operation.messageOf form = .ok m ∧ m.length = b.itemSize * b.count) ∧
    (∀ form b, MessageForm.lender? form = some b → b.contiguous = false →
      ∃ failure, Operation.messageOf form = .error failure ∧ failure.className = "ValueError") ∧
    ∀ (q : DigestQuery) (algorithm : Digest.Algorithm) (one other : Datum) (bytes : Octets)
      (session : Session), one.IsMessage bytes → other.IsMessage bytes →
      (session.Ready →
        match q.further algorithm with
        | .ok rest =>
          (q.about algorithm one).Sends session bytes rest ∧
            (q.about algorithm other).Sends session bytes rest
        | .error failure =>
          (q.about algorithm one).operation.run.runOn session = (.error failure, session) ∧
            (q.about algorithm other).operation.run.runOn session = (.error failure, session)) ∧
      ∀ s, session.IsNative s →
        Alike ((q.about algorithm one).outcome session)
          ((q.about algorithm other).outcome session) ∧
        (one.HasPlainLength → other.HasPlainLength →
          (q.about algorithm one).outcome session = (q.about algorithm other).outcome session) := by
  refine ⟨?_, ?_, ?_, ?_⟩
  · intro form bytes htakes
    rw [MessageForm.presents_iff htakes]
    constructor
    · rintro ⟨m, hm, hshows⟩
      exact ⟨m, hm, hshows, hshows.isMessage⟩
    · rintro ⟨m, hm, hshows, -⟩
      exact ⟨m, hm, hshows⟩
  · intro b hlent hsolid form hform
    exact MessageForm.length_of_isLent hlent hsolid (by simpa using hform)
  · intro form b hlender hgaps
    exact ⟨_, MessageForm.messageOf_of_gaps hlender hgaps, rfl⟩
  · intro q algorithm one other bytes session hone hother
    refine ⟨fun hready => ?_, fun s hnative => alike_outcome hone hother hnative⟩
    cases hrest : q.further algorithm with
    | ok rest => exact ⟨sends_about hone hrest hready, sends_about hother hrest hready⟩
    | error failure =>
      exact ⟨runOn_about_of_error hone hrest session, runOn_about_of_error hother hrest session⟩

/-- One word in memory and the text of its four bytes have the same digest. -/
theorem independent_of_shape_word :
    let word : Datum := .buffer (.ofWord 0x64636261)
    word.IsMessage [0x61, 0x62, 0x63, 0x64] ∧
      (Datum.text "abcd").IsMessage [0x61, 0x62, 0x63, 0x64] ∧
      Session.start.IsNative (.ofPolicy Session.start.policyInForce) ∧
      (Intrinsic.digest .sha256 word).outcome .start =
        (Intrinsic.digest .sha256 (.text "abcd")).outcome .start := by
  intro word
  have hword : word.IsMessage [0x61, 0x62, 0x63, 0x64] := .buffer (.ofWord 0x64636261) rfl
  have htext : (Datum.text "abcd").IsMessage [0x61, 0x62, 0x63, 0x64] := .text "abcd"
  have hnative : Session.start.IsNative (.ofPolicy Session.start.policyInForce) :=
    isNative_of_none rfl
  obtain ⟨-, -, -, hqueries⟩ := independent_of_shape
  obtain ⟨-, houtcomes⟩ := hqueries .value .sha256 word (.text "abcd") _ .start hword htext
  exact ⟨hword, htext, hnative, (houtcomes _ hnative).2 trivial trivial⟩

end DigestQuery

end CryptoIntrinsics
