import CryptoIntrinsics.Proofs.Intrinsics.Reply
import CryptoIntrinsics.Proofs.Message.Forms

namespace CryptoIntrinsics

namespace Datum

theorem before?_of_integer? (a : Datum) {d : Datum} {n : Int} (hd : d.integer? = some n) :
    before? a d = a.number?.map fun x => x.precedes (.integer n) := by
  cases d with
  | integer m =>
    cases hd
    cases a <;> simp [before?, beforePlain?, number?, integral?, integer?, rank?, codes?]
  | curve c =>
    cases hd
    cases a <;> simp [before?, beforePlain?, number?, integral?, integer?, rank?, codes?]
  | _ => cases hd

theorem number?_of_integer? {d : Datum} {n : Int} (hd : d.integer? = some n) :
    d.number? = some (.integer n) := by
  cases d with
  | integer m => cases hd; rfl
  | curve c => cases hd; rfl
  | _ => cases hd

theorem isWritable_measure (m : Message) :
    (measure m).isWritable = Text.IntegerLiteral.isWritable m.length := by
  have hcounts := integral?_measure m
  rw [measure] at hcounts ⊢
  split at hcounts <;> simp_all [isWritable]

theorem measure_of_plain {m : Message} (hplain : m.lengthCurve = none) :
    measure m = .integer m.length := by
  rw [measure, hplain]

end Datum

/-- A host that answers a method alike wherever the same bytes of a message count, however long the
    row is that they begin. -/
def Host.GoesByPayload (host : Host) (method : Method) : Prop :=
  ∀ one other : Message, one.payload = other.payload → ∀ rest,
    host.respond method.name (Intrinsic.crossing one ++ rest) =
      host.respond method.name (Intrinsic.crossing other ++ rest)

namespace Native

theorem Settings.isBeyondCap_measure (s : Settings) (m : Message) :
    s.isBeyondCap (.measure m) =
      match s.maxInputBytes.number? with
      | some cap => .ok (cap.precedes (.integer m.length))
      | none => .error .badType := by
  rw [isBeyondCap, Datum.precedes, Datum.before?_of_integer? _ (Datum.integer?_measure m)]
  cases s.maxInputBytes.number? <;> rfl

theorem Settings.isBeyondCap_of_number {s : Settings} {cap : Number}
    (hcap : s.maxInputBytes.number? = some cap) (m : Message) :
    s.isBeyondCap (.measure m) = .ok (cap.precedes (.integer m.length)) := by
  rw [isBeyondCap_measure, hcap]

/-- The bytes that count are always there to be taken. -/
theorem take_window (subject : String) (m : Message) :
    take subject (.buffer m.window) (.measure m) = .ok m.payload := by
  have hnotNegative : ¬ ((m.length : Int) < 0) := by omega
  have hnotLonger : ¬ ((m.content.length : Int) < m.length) := by
    have hle := m.length_le
    omega
  have hrow : m.window.rowSize = 1 := rfl
  simp only [take, Datum.number?_of_integer? (Datum.integer?_measure m), Datum.integral?_measure,
    Number.precedes_integer, Message.window, Buffer.byteRow, decide_eq_true_eq, hnotNegative,
    hnotLonger, or_self, if_false, Option.bind_some, Buffer.head?, Int.toNat_natCast]
  rw [Message.window, Buffer.byteRow] at hrow
  rw [hrow, Nat.mul_one, Nat.min_eq_left m.length_le]
  rfl

theorem take_octets (subject : String) (bytes : Octets) :
    take subject (.octets bytes) (.integer bytes.length) = .ok bytes := by
  have htake := take_window subject (.whole .bytes bytes)
  rw [Message.payload_whole] at htake
  exact htake

/-- Why no digest of a message is computed, if none is. -/
def obstacle? (s : Settings) (algorithm : Digest.Algorithm) (m : Message) : Option Failure :=
  match s.isBeyondCap (.measure m) with
  | .ok false => none
  | .ok true => some (oversize s algorithm (.measure m))
  | .error failure => some failure

theorem digest_window (s : Settings) (algorithm : Digest.Algorithm) (m : Message) :
    digest s algorithm (.buffer m.window) (.measure m) =
      match obstacle? s algorithm m with
      | none => .ok (algorithm.hash m.payload)
      | some failure => .error failure := by
  rw [digest, take_window, obstacle?]
  cases s.isBeyondCap (.measure m) with
  | error failure => rfl
  | ok beyond => cases beyond <;> rfl

/-- The cap is a number, and a message about it and about a length can be written. -/
structure Settings.Announces (s : Settings) (length : Nat) : Prop where
  counts : s.maxInputBytes.number?.isSome = true
  length_isWritable : Text.IntegerLiteral.isWritable length = true
  cap_isWritable : s.maxInputBytes.isWritable = true

/-- Where no digest is computed, the host says that the message is too long, or else it fails
    without saying why: the cap is no number, or there is no message about the lengths. -/
theorem obstacle?_cases (s : Settings) (algorithm : Digest.Algorithm) (m : Message) :
    obstacle? s algorithm m = none ∨
    (s.Announces m.length ∧
      obstacle? s algorithm m = some (.fault (oversizeFault s algorithm (.measure m)))) ∨
    (¬ s.Announces m.length ∧ ∃ kind, obstacle? s algorithm m = some (.stray kind "*")) := by
  rw [obstacle?, Settings.isBeyondCap_measure]
  cases hcap : s.maxInputBytes.number? with
  | none =>
    refine .inr (.inr ⟨fun hannounces => ?_, .type, rfl⟩)
    have hcounts := hannounces.counts
    rw [hcap] at hcounts
    cases hcounts
  | some cap =>
    dsimp only
    cases cap.precedes (.integer m.length) with
    | false => exact .inl rfl
    | true =>
      rw [oversize, Datum.isWritable_measure]
      by_cases htold : (Text.IntegerLiteral.isWritable m.length &&
          s.maxInputBytes.isWritable) = true
      · obtain ⟨hlength, hwritable⟩ := Bool.and_eq_true_iff.1 htold
        rw [if_pos htold]
        exact .inr (.inl ⟨⟨by rw [hcap]; rfl, hlength, hwritable⟩, rfl⟩)
      · rw [if_neg htold]
        refine .inr (.inr ⟨fun hannounces => htold ?_, .value, rfl⟩)
        rw [hannounces.length_isWritable, hannounces.cap_isWritable]
        rfl

theorem obstacle?_eq_none_iff {s : Settings} {algorithm : Digest.Algorithm} {m : Message} :
    obstacle? s algorithm m = none ↔ s.isBeyondCap (.measure m) = .ok false := by
  rw [obstacle?]
  split <;> simp_all

/-- Whatever stands in the way of a digest, its caller blames the host for it. -/
theorem atBoundary_of_obstacle? (host : Host) (name : String) {s : Settings}
    {algorithm : Digest.Algorithm} {m : Message} {failure : Failure}
    (hobstacle : obstacle? s algorithm m = some failure) :
    ∃ d : Fault, d.IsHostFault ∧ Session.atBoundary host name failure = .fault d := by
  obtain hnone | ⟨-, hsome⟩ | ⟨-, kind, hsome⟩ := obstacle?_cases s algorithm m
  · rw [hnone] at hobstacle
    cases hobstacle
  · rw [hsome] at hobstacle
    cases hobstacle
    exact ⟨_, Fault.isHostFault_of _ _, Session.atBoundary_of_passing _ _ (.inl rfl)⟩
  · rw [hsome] at hobstacle
    cases hobstacle
    exact Session.atBoundary_of_isBlamed host name (Failure.isBlamed_stray kind "*")

theorem verifyRsa_window (s : Settings) {one other : Message}
    (hpayload : one.payload = other.payload)
    (sig sigLength exponent exponentLength modulus modulusLength : Datum) :
    verifyRsa s (.buffer one.window) (.measure one) sig sigLength exponent exponentLength modulus
        modulusLength =
      verifyRsa s (.buffer other.window) (.measure other) sig sigLength exponent exponentLength
        modulus modulusLength := by
  have hlength := Message.length_eq_of_payload_eq hpayload
  simp only [verifyRsa, rsaVerdict, Settings.isBeyondCap_measure, take_window, hpayload, hlength]

/-- A native host with settings, whatever it is called. -/
def hostNumbered (serial : Nat) (label : Option String) (s : Settings) : Host :=
  { host label s with serial := serial }

theorem respond_hostNumbered (serial : Nat) (label : Option String) (s : Settings) (m : Method)
    (arguments : List Datum) :
    (hostNumbered serial label s).respond m.name arguments = respond s m arguments := by
  simp only [Host.respond, hostNumbered, host, Method.ofName?_name]

theorem goesByPayload_hostNumbered (serial : Nat) (label : Option String) (s : Settings) :
    (hostNumbered serial label s).GoesByPayload .verifyRsa := by
  intro one other hpayload rest
  rw [respond_hostNumbered, respond_hostNumbered]
  simp only [Intrinsic.crossing, List.cons_append, List.nil_append]
  -- Any other number of texts than three with their lengths is refused for that alone.
  obtain _ | ⟨sig, _ | ⟨sigLength, _ | ⟨exponent, _ | ⟨exponentLength, _ | ⟨modulus,
    _ | ⟨modulusLength, _ | ⟨extra, more⟩⟩⟩⟩⟩⟩⟩ := rest
  case cons.cons.cons.cons.cons.cons.nil => simp only [respond, verifyRsa_window s hpayload]
  all_goals rfl

end Native

namespace Session

/-- The next call reaches a native host with the settings. -/
def IsNative (session : Session) (s : Native.Settings) : Prop :=
  ∃ serial label, session.host = Native.hostNumbered serial label s

/-- Where no host is active, the next call reaches a native one by the policy in force. -/
theorem isNative_of_none {session : Session} (hactive : session.active = none) :
    session.IsNative (.ofPolicy session.policyInForce) :=
  ⟨0, none, by rw [host, hactive]; rfl⟩

theorem IsNative.ready {session : Session} {s : Native.Settings} (hnative : session.IsNative s) :
    session.Ready := by
  obtain ⟨serial, label, hhost⟩ := hnative
  intro active hactive
  rw [host, hactive, Option.getD_some] at hhost
  rw [hhost]
  exact Native.isComplete_host label s

theorem IsNative.answer {session : Session} {s : Native.Settings} (hnative : session.IsNative s)
    (m : Method) (arguments : List Datum) :
    session.answer m arguments = (Native.respond s m arguments).under session.policyInForce := by
  obtain ⟨serial, label, hhost⟩ := hnative
  rw [Session.answer, hhost, Native.respond_hostNumbered]

theorem IsNative.goesByPayload {session : Session} {s : Native.Settings}
    (hnative : session.IsNative s) : session.host.GoesByPayload .verifyRsa := by
  obtain ⟨serial, label, hhost⟩ := hnative
  rw [hhost]
  exact Native.goesByPayload_hostNumbered serial label s

end Session

end CryptoIntrinsics
