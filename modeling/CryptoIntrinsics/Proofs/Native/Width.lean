import CryptoIntrinsics.Proofs.Buffer.Filled
import CryptoIntrinsics.Proofs.Native.Payload
import CryptoIntrinsics.Proofs.Varint.Reading

namespace CryptoIntrinsics

namespace Buffer

variable {b : Buffer} {count : Nat}

def front (b : Buffer) (count : Nat) : Octets := b.flat.take (count * b.rowSize)

theorem IsFilled.length_flat (hfilled : b.IsFilled) {side : Nat} {sides : List Nat}
    (hshape : b.shape = side :: sides) : b.flat.length = side * b.rowSize := by
  rw [hfilled, Buffer.count, rowSize, hshape, foldl_mul_cons, List.tail_cons, Nat.mul_left_comm]

/-- In a buffer with any dimension there are rows, and from behind the last one nothing is taken. -/
theorem IsFilled.head?_eq (hfilled : b.IsFilled) (hshape : b.shape ≠ []) :
    b.head? count = some (b.front count) := by
  obtain ⟨side, sides, hsides⟩ := List.exists_cons_of_ne_nil hshape
  have hlength := hfilled.length_flat hsides
  rw [head?, hsides]
  dsimp only
  rw [front]
  obtain hle | hle := Nat.le_total count side
  · rw [Nat.min_eq_left hle]
  · have hmany : side * b.rowSize ≤ count * b.rowSize := Nat.mul_le_mul_right _ hle
    rw [Nat.min_eq_right hle, List.take_of_length_le (by omega), List.take_of_length_le (by omega)]

/-- The first rows are as many bytes as they are themselves just where a row is one byte, or where
    none or all of the bytes are asked for. -/
theorem IsFilled.front_eq_take_iff (hfilled : b.IsFilled) (hshape : b.shape ≠ [])
    (hcount : count ≤ b.flat.length) :
    b.front count = b.flat.take count ↔
      b.rowSize = 1 ∨ count = 0 ∨ count = b.flat.length := by
  obtain ⟨side, sides, hsides⟩ := List.exists_cons_of_ne_nil hshape
  have hlength := hfilled.length_flat hsides
  constructor
  · intro hsame
    have hbytes := congrArg List.length hsame
    rw [front, List.length_take, List.length_take, Nat.min_eq_left hcount] at hbytes
    obtain hle | hle := Nat.le_total (count * b.rowSize) b.flat.length
    · rw [Nat.min_eq_left hle] at hbytes
      obtain hzero | hpos := Nat.eq_zero_or_pos count
      · exact .inr (.inl hzero)
      · exact .inl (Nat.eq_of_mul_eq_mul_left hpos (by omega))
    · exact .inr (.inr (by omega))
  · rintro (hone | rfl | rfl)
    · rw [front, hone, Nat.mul_one]
    · rw [front, Nat.zero_mul]
    · obtain hzero | hpos := Nat.eq_zero_or_pos b.rowSize
      · have hnone : b.flat.length = 0 := by rw [hlength, hzero, Nat.mul_zero]
        rw [front, hnone, Nat.zero_mul]
      · rw [front, List.take_length, List.take_of_length_le (Nat.le_mul_of_pos_right _ hpos)]

end Buffer

/-- Whether the method takes bytes of buffers, each of which a length follows. -/
def Method.takesBytes : Method → Bool
  | digest _ | assertDigest _ | verifyRsa => true
  | recoverKey | assertRecoverKey => false

namespace Native

/-- A buffer and how much of it is asked for. -/
structure Part where
  buffer : Buffer
  count : Nat

namespace Part

/-- The part can be asked for: it is no more than the bytes of the buffer. -/
structure IsSound (part : Part) : Prop where
  lent : part.buffer.IsLent
  shape : part.buffer.shape ≠ []
  count : part.count ≤ part.buffer.flat.length

def arguments (part : Part) : List Datum := [.buffer part.buffer, .integer part.count]

def bytes (part : Part) : Octets := part.buffer.flat.take part.count

def taken (part : Part) : Octets := part.buffer.front part.count

theorem IsSound.length_bytes {part : Part} (hpart : part.IsSound) :
    part.bytes.length = part.count := List.length_take_of_le hpart.count

end Part

def whole (bytes : Octets) : List Datum := [.octets bytes, .integer bytes.length]

/-- Of a buffer that has the bytes asked for, the rows there are of them are taken. -/
theorem take_buffer {b : Buffer} {count : Nat} (hcount : count ≤ b.flat.length)
    (subject : String) :
    take subject (.buffer b) (.integer count) = (b.head? count).elim (.error .badType) .ok := by
  have hnotNegative : ¬ ((count : Int) < 0) := by omega
  have hnotLonger : ¬ ((b.flat.length : Int) < count) := by omega
  simp only [take, Datum.number?, Datum.integral?, Datum.integer?, Option.map_some,
    Number.precedes_integer, decide_eq_true_eq, hnotNegative, hnotLonger, or_self, if_false,
    Option.bind_some, Int.toNat_natCast]
  cases b.head? count <;> rfl

theorem take_part {part : Part} (hpart : part.IsSound) (subject : String) :
    take subject (.buffer part.buffer) (.integer part.count) = .ok part.taken := by
  rw [take_buffer hpart.count, hpart.lent.isFilled.head?_eq hpart.shape]
  rfl

/-- Without any dimension there are no rows to take. -/
theorem take_of_dimensionless {b : Buffer} (hshape : b.shape = []) {count : Nat}
    (hcount : count ≤ b.flat.length) (subject : String) :
    take subject (.buffer b) (.integer count) = .error .badType := by
  rw [take_buffer hcount, Buffer.head?, hshape]
  rfl

theorem digest_of_take {s : Settings} {algorithm : Digest.Algorithm} {data length : Datum}
    {bytes : Octets} (hcap : s.isBeyondCap length = .ok false)
    (htake : take "data" data length = .ok bytes) :
    digest s algorithm data length = .ok (algorithm.hash bytes) := by
  rw [digest, hcap, htake]
  rfl

/-- The same bytes are taken, or none for the same reason. -/
def TakenAlike (data length other otherLength : Datum) : Prop :=
  ∀ subject, take subject data length = take subject other otherLength

theorem respond_verifyRsa_congr {s : Settings} {message messageLength sig sigLength exponent
    exponentLength modulus modulusLength message' messageLength' sig' sigLength' exponent'
    exponentLength' modulus' modulusLength' : Datum}
    (hcap : s.isBeyondCap messageLength = s.isBeyondCap messageLength')
    (hmessage : TakenAlike message messageLength message' messageLength')
    (hsig : TakenAlike sig sigLength sig' sigLength')
    (hexponent : TakenAlike exponent exponentLength exponent' exponentLength')
    (hmodulus : TakenAlike modulus modulusLength modulus' modulusLength') :
    respond s .verifyRsa [message, messageLength, sig, sigLength, exponent, exponentLength, modulus,
        modulusLength] =
      respond s .verifyRsa [message', messageLength', sig', sigLength', exponent', exponentLength',
        modulus', modulusLength'] := by
  simp only [respond, verifyRsa, rsaVerdict, hexOctets, hcap, hmessage _, hsig _, hexponent _,
    hmodulus _]

/-- A native host answers for the bytes that it takes of buffers as for these bytes alone, if both
    lengths of the first ones are within its cap. -/
theorem respond_taken {s : Settings} {m : Method} (hmethod : m.takesBytes = true)
    {parts : List Part} (hparts : ∀ part ∈ parts, part.IsSound)
    (hcap : ∀ part ∈ parts.head?, s.isBeyondCap (.integer part.count) = .ok false ∧
      s.isBeyondCap (.integer part.taken.length) = .ok false) (rest : List Datum) :
    respond s m (parts.flatMap Part.arguments ++ rest) =
      respond s m (parts.flatMap (fun part => whole part.taken) ++ rest) := by
  have htake (part : Part) (hpart : part ∈ parts) :
      TakenAlike (.buffer part.buffer) (.integer part.count) (.octets part.taken)
        (.integer part.taken.length) := by
    intro subject
    rw [take_part (hparts part hpart), take_octets]
  obtain _ | ⟨first, more⟩ := parts
  · rfl
  obtain ⟨hcount, htaken⟩ := hcap first rfl
  have hdigest (algorithm : Digest.Algorithm) :
      digest s algorithm (.buffer first.buffer) (.integer first.count) =
        digest s algorithm (.octets first.taken) (.integer first.taken.length) := by
    rw [digest_of_take htaken (take_octets _ _), digest_of_take hcount]
    exact take_part (hparts first List.mem_cons_self) _
  -- Any other number of arguments than the method has is refused for that alone.
  cases m with
  | digest algorithm =>
    obtain _ | ⟨second, more⟩ := more <;> obtain _ | ⟨extra, rest⟩ := rest
    · simp [Part.arguments, whole, respond, hdigest]
    all_goals rfl
  | assertDigest algorithm =>
    obtain _ | ⟨second, more⟩ := more <;> obtain _ | ⟨expected, _ | ⟨extra, rest⟩⟩ := rest
    · rfl
    · simp [Part.arguments, whole, respond, assertDigest, hdigest]
    all_goals rfl
  | verifyRsa =>
    have hcaps := hcount.trans htaken.symm
    obtain _ | ⟨sig, _ | ⟨exponent, _ | ⟨modulus, _ | ⟨extra, more⟩⟩⟩⟩ := more <;>
      obtain _ | ⟨a, _ | ⟨b, _ | ⟨c, _ | ⟨d, _ | ⟨e, _ | ⟨f, _ | ⟨g, rest⟩⟩⟩⟩⟩⟩⟩ := rest
    case nil.cons.cons.cons.cons.cons.cons.nil =>
      exact respond_verifyRsa_congr hcaps (htake first (by simp)) (fun _ => rfl) (fun _ => rfl)
        fun _ => rfl
    case cons.nil.cons.cons.cons.cons.nil =>
      exact respond_verifyRsa_congr hcaps (htake first (by simp)) (htake sig (by simp))
        (fun _ => rfl) fun _ => rfl
    case cons.cons.nil.cons.cons.nil =>
      exact respond_verifyRsa_congr hcaps (htake first (by simp)) (htake sig (by simp))
        (htake exponent (by simp)) fun _ => rfl
    case cons.cons.cons.nil.nil =>
      exact respond_verifyRsa_congr hcaps (htake first (by simp)) (htake sig (by simp))
        (htake exponent (by simp)) (htake modulus (by simp))
    all_goals rfl
  | _ => cases hmethod

end Native

namespace Session

open Procedure

theorem outcome_callHost {session : Session} (hready : session.Ready) (m : Method)
    (arguments : List Datum) :
    (Operation.callHost (.text m.name) arguments).outcome session =
      (session.returned m arguments).map .datum := by
  rw [Operation.outcome, Operation.run, runOn_bind, runOn_callHost hready]
  cases session.returned m arguments <;> rfl

theorem IsNative.outcome_congr {session : Session} {s : Native.Settings}
    (hnative : session.IsNative s) {m : Method} {one other : List Datum}
    (hsame : Native.respond s m one = Native.respond s m other) :
    (Operation.callHost (.text m.name) one).outcome session =
      (Operation.callHost (.text m.name) other).outcome session := by
  have hreturned : session.returned m one = session.returned m other := by
    rw [returned, returned, hnative.answer, hnative.answer, hsame]
  rw [outcome_callHost hnative.ready, outcome_callHost hnative.ready, hreturned]

theorem IsNative.outcome_digest {session : Session} {s : Native.Settings}
    (hnative : session.IsNative s) (algorithm : Digest.Algorithm) (data length : Datum) :
    (Operation.callHost (.text (Method.digest algorithm).name) [data, length]).outcome session =
      ((Native.digest s algorithm data length).mapError
        (atBoundary session.host (Method.digest algorithm).name)).map
          fun bytes => .datum (.octets bytes) := by
  have hanswer : session.answer (.digest algorithm) [data, length] =
      (Native.digest s algorithm data length).map .octets := hnative.answer _ _
  rw [outcome_callHost hnative.ready, returned, hanswer]
  cases Native.digest s algorithm data length <;> rfl

end Session

namespace Native

section Calls

variable {session : Session} {s : Settings} (hnative : session.IsNative s)
include hnative

theorem outcome_taken {m : Method} (hmethod : m.takesBytes = true) {parts : List Part}
    (hparts : ∀ part ∈ parts, part.IsSound)
    (hcap : ∀ part ∈ parts.head?, s.isBeyondCap (.integer part.count) = .ok false)
    (hrows : ∀ part ∈ parts.head?, s.isBeyondCap (.integer part.taken.length) = .ok false)
    (rest : List Datum) :
    (Operation.callHost (.text m.name) (parts.flatMap Part.arguments ++ rest)).outcome session =
      (Operation.callHost (.text m.name)
        (parts.flatMap (fun part => whole part.taken) ++ rest)).outcome session :=
  hnative.outcome_congr <| respond_taken hmethod hparts
    (fun part hpart => ⟨hcap part hpart, hrows part hpart⟩) rest

/-- Where the bytes that are taken are those asked for, the call goes by them. -/
theorem outcome_bytes {m : Method} (hmethod : m.takesBytes = true) {parts : List Part}
    (hparts : ∀ part ∈ parts, part.IsSound)
    (hcap : ∀ part ∈ parts.head?, s.isBeyondCap (.integer part.count) = .ok false)
    (hsame : ∀ part ∈ parts, part.taken = part.bytes) (rest : List Datum) :
    (Operation.callHost (.text m.name) (parts.flatMap Part.arguments ++ rest)).outcome session =
      (Operation.callHost (.text m.name)
        (parts.flatMap (fun part => [.octets part.bytes, .integer part.count]) ++
          rest)).outcome session := by
  have hlength (part : Part) (hpart : part ∈ parts) : part.taken.length = part.count := by
    rw [hsame part hpart, (hparts part hpart).length_bytes]
  have hwhole : parts.flatMap (fun part => whole part.taken) =
      parts.flatMap fun part => [.octets part.bytes, .integer part.count] :=
    List.flatMap_congr fun part hpart => by
      rw [whole, hlength part hpart, hsame part hpart]
  rw [← hwhole]
  refine outcome_taken hnative hmethod hparts hcap (fun part hpart => ?_) rest
  rw [hlength part (List.mem_of_mem_head? hpart)]
  exact hcap part hpart

theorem outcome_digest_part {part : Part} (hpart : part.IsSound)
    (hcap : s.isBeyondCap (.integer part.count) = .ok false) (algorithm : Digest.Algorithm) :
    (Operation.callHost (.text (Method.digest algorithm).name) part.arguments).outcome session =
      .ok (.datum (.octets (algorithm.hash part.taken))) := by
  rw [Part.arguments, hnative.outcome_digest, digest_of_take hcap (take_part hpart "data")]
  rfl

theorem outcome_digest_of_dimensionless {b : Buffer} (hshape : b.shape = []) {count : Nat}
    (hcount : count ≤ b.flat.length) (hcap : s.isBeyondCap (.integer count) = .ok false)
    (algorithm : Digest.Algorithm) :
    ∃ d : Fault, d.IsHostFault ∧
      (Operation.callHost (.text (Method.digest algorithm).name)
        [.buffer b, .integer count]).outcome session = .error (.fault d) := by
  have hdigest : digest s algorithm (.buffer b) (.integer count) = .error .badType := by
    rw [digest, hcap, take_of_dimensionless hshape hcount]
    rfl
  obtain ⟨d, hd, hatBoundary⟩ := Session.atBoundary_of_isBlamed session.host
    (Method.digest algorithm).name (Failure.isBlamed_stray .type "*")
  refine ⟨d, hd, ?_⟩
  rw [hnative.outcome_digest, hdigest, ← hatBoundary]
  rfl

end Calls

/-- The bytes that a native host takes of a buffer are the rows that are asked for, as far as there
    are any. They are the bytes that are asked for just where a row is one byte or where nothing or
    everything is asked for; then every call comes to what it comes to for the bytes alone. In
    general it comes to what it does for the rows, if these are within the cap too, and a digest is
    that of the rows. Of a buffer without dimensions nothing is taken, for which the host is to
    blame. -/
theorem callHost_takes_rows {session : Session} {s : Settings} (hnative : session.IsNative s) :
    let outcome (m : Method) (arguments : List Datum) :=
      (Operation.callHost (.text m.name) arguments).outcome session
    (∀ part : Part, part.IsSound → (part.taken = part.bytes ↔
      part.buffer.rowSize = 1 ∨ part.count = 0 ∨ part.count = part.buffer.flat.length)) ∧
    (∀ m : Method, m.takesBytes = true → ∀ (parts : List Part) (rest : List Datum),
      (∀ part ∈ parts, part.IsSound) →
      (∀ part ∈ parts.head?, s.isBeyondCap (.integer part.count) = .ok false) →
        ((∀ part ∈ parts, part.taken = part.bytes) →
          outcome m (parts.flatMap Part.arguments ++ rest) =
            outcome m
              (parts.flatMap (fun part => [.octets part.bytes, .integer part.count]) ++ rest)) ∧
        ((∀ part ∈ parts.head?, s.isBeyondCap (.integer part.taken.length) = .ok false) →
          outcome m (parts.flatMap Part.arguments ++ rest) =
            outcome m (parts.flatMap (fun part => whole part.taken) ++ rest))) ∧
    ∀ (algorithm : Digest.Algorithm) (b : Buffer) (count : Nat), b.IsLent →
      count ≤ b.flat.length → s.isBeyondCap (.integer count) = .ok false →
        (b.shape ≠ [] → outcome (.digest algorithm) [.buffer b, .integer count] =
          .ok (.datum (.octets (algorithm.hash (b.front count))))) ∧
        (b.shape = [] → ∃ d : Fault, d.IsHostFault ∧
          outcome (.digest algorithm) [.buffer b, .integer count] = .error (.fault d)) := by
  refine ⟨fun part hpart => ?_, fun m hmethod parts rest hparts hcap => ⟨fun hsame => ?_,
    fun hrows => ?_⟩, fun algorithm b count hlent hcount hcap => ⟨fun hshape => ?_,
    fun hshape => ?_⟩⟩
  · exact hpart.lent.isFilled.front_eq_take_iff hpart.shape hpart.count
  · exact outcome_bytes hnative hmethod hparts hcap hsame rest
  · exact outcome_taken hnative hmethod hparts hcap hrows rest
  · have hpart : Part.IsSound ⟨b, count⟩ := ⟨hlent, hshape, hcount⟩
    exact outcome_digest_part hnative hpart hcap algorithm
  · exact outcome_digest_of_dimensionless hnative hshape hcount hcap algorithm

/-- Four bytes of two words of four bytes each are asked for, and all eight are hashed; a verdict
    about all eight is that about the bytes alone. -/
theorem callHost_takes_rows_words :
    let words := Buffer.ofWords [1, 2]
    let outcome (m : Method) (arguments : List Datum) :=
      (Operation.callHost (.text m.name) arguments).outcome .start
    outcome (.digest .sha256) [.buffer words, .integer 4] =
        .ok (.datum (.octets (Digest.Algorithm.sha256.hash [1, 0, 0, 0, 2, 0, 0, 0]))) ∧
      ∀ rest : List Datum, outcome .verifyRsa ([.buffer words, .integer 8] ++ rest) =
        outcome .verifyRsa ([.octets [1, 0, 0, 0, 2, 0, 0, 0], .integer 8] ++ rest) := by
  intro words outcome
  have hnative : Session.start.IsNative (.ofPolicy Session.start.policyInForce) :=
    Session.isNative_of_none rfl
  obtain ⟨-, hcalls, hdigest⟩ := callHost_takes_rows hnative
  refine ⟨(hdigest .sha256 words 4 (.words _) (by decide) rfl).1 (by decide), fun rest => ?_⟩
  have hsound : Part.IsSound ⟨words, 8⟩ := ⟨.words _, by decide, by decide⟩
  refine (hcalls .verifyRsa rfl [⟨words, 8⟩] rest ?_ ?_).1 ?_
  · exact List.forall_mem_singleton.2 hsound
  · rintro part ⟨⟩
    rfl
  · exact List.forall_mem_singleton.2 rfl

/-- The digest of an array of two words by half its bytes is not the digest of that half. -/
theorem digest_ne_of_wide :
    ∃ b, Buffer.ofArray "I" [.integer 1, .integer 2] = .ok b ∧ b.flat.length = 8 ∧
      let outcome (data : Datum) :=
        (Operation.callHost (.text "sha256") [data, .integer 4]).outcome .start
      outcome (.buffer b) ≠ outcome (.octets (b.flat.take 4)) := by
  have hnative : Session.start.IsNative (.ofPolicy Session.start.policyInForce) :=
    Session.isNative_of_none rfl
  refine ⟨_, rfl, rfl, fun hsame => ?_⟩
  have hwide := hnative.outcome_digest .sha256
    (.buffer ⟨.array, "I", 4, [2], true, [1, 0, 0, 0, 2, 0, 0, 0]⟩) (.integer 4)
  have hflat := hnative.outcome_digest .sha256 (.octets [1, 0, 0, 0]) (.integer 4)
  have hhash : Digest.Algorithm.sha256.hash [1, 0, 0, 0, 2, 0, 0, 0] =
      Digest.Algorithm.sha256.hash [1, 0, 0, 0] := by
    rw [digest_of_take rfl rfl] at hwide hflat
    have hanswers := hwide.symm.trans (hsame.trans hflat)
    exact Datum.octets_inj.1 (Answer.datum.inj (Except.ok.inj hanswers))
  exact absurd hhash (by decide +kernel)

end Native

end CryptoIntrinsics
