import CryptoIntrinsics.Proofs.Native.Digest
import CryptoIntrinsics.Proofs.Native.Modulus
import CryptoIntrinsics.Proofs.Text.IntegerLiteral

namespace CryptoIntrinsics

namespace Policy

open Text.IntegerLiteral

section Cap

variable {env other : Environment} {text : String} {n : Int}

theorem leastCap_le_cap (env : Environment) : leastCap ≤ cap env := by
  rw [cap]
  split
  · exact leastCap_le_clamp _
  · decide

theorem cap_le_greatestCap (env : Environment) : cap env ≤ greatestCap := by
  rw [cap]
  split
  · exact clamp_le_greatestCap _
  · decide

theorem cast_clamp (n : Int) : (clamp n : Int) = max 1024 (min n 67108864) := by
  rw [clamp, leastCap, greatestCap]
  omega

theorem cap_of_denotes (hset : setting? env "MAX_INPUT_BYTES" = some text)
    (hdenotes : Denotes text.toList n) : (cap env : Int) = max 1024 (min n 67108864) := by
  rw [cap, hset, Option.bind_some, read?_eq_some_iff.2 hdenotes]
  exact cast_clamp n

theorem cap_of_not_denotes
    (hnone : ∀ text ∈ setting? env "MAX_INPUT_BYTES", ∀ n, ¬ Denotes text.toList n) :
    cap env = defaultCap := by
  rw [cap]
  split
  · next n hread =>
    obtain ⟨text, hset, hdenotes⟩ := Option.bind_eq_some_iff.1 hread
    exact absurd (read?_eq_some_iff.1 hdenotes) (hnone text hset n)
  · rfl

/-- Two environments that differ in the older variable only set a key alike where the current
    variable is set. -/
theorem setting?_congr {key : String}
    (hagree : ∀ name, name ≠ "CC_" ++ key → env.get? name = other.get? name)
    (hset : (env.get? ("CONTRACT_CRYPTO_" ++ key)).isSome = true) {name : String} :
    setting? env name = setting? other name := by
  have hcurrent (name : String) : "CONTRACT_CRYPTO_" ++ name ≠ "CC_" ++ key := by
    intro hsame
    have hsecond := congrArg (fun text => text.toList[1]?) hsame
    simp at hsecond
  rw [setting?, setting?, ← hagree _ (hcurrent name)]
  by_cases hname : name = key
  · subst hname
    obtain ⟨text, htext⟩ := Option.isSome_iff_exists.1 hset
    rw [htext, Option.some_or, Option.some_or]
  · have holder : "CC_" ++ name ≠ "CC_" ++ key := fun hsame =>
      hname ((String.append_right_inj _).1 hsame)
    rw [hagree _ holder]

theorem ofEnvironment_congr {key : String}
    (hagree : ∀ name, name ≠ "CC_" ++ key → env.get? name = other.get? name)
    (hset : (env.get? ("CONTRACT_CRYPTO_" ++ key)).isSome = true) :
    ofEnvironment env = ofEnvironment other := by
  have hsetting {name : String} := @setting?_congr env other key hagree hset name
  simp only [ofEnvironment, flag, cap, hsetting]

end Cap

end Policy

namespace Intrinsic

open Session

section Capped

variable {policy : Policy} {session : Session}

theorem isBeyondCap_ofPolicy (policy : Policy) (m : Message) :
    (Native.Settings.ofPolicy policy).isBeyondCap (.measure m) =
      .ok (decide (policy.maxInputBytes < m.payload.length)) := by
  have hcap : (Native.Settings.ofPolicy policy).maxInputBytes.number? =
      some (.integer policy.maxInputBytes) := rfl
  rw [Native.Settings.isBeyondCap_of_number hcap, Number.precedes_integer, m.length_payload]
  simp only [Nat.cast_lt]

/-- Digests are refused for the size of the message only, by the cap of the policy. -/
theorem outcome_digest_ofPolicy (hnative : session.IsNative (.ofPolicy policy))
    (algorithm : Digest.Algorithm) {data : Datum} {m : Message}
    (hdata : Message.ofDatum data = .ok m) :
    (m.payload.length ≤ policy.maxInputBytes → (digest algorithm data).outcome session =
      .ok (.datum (.checksum algorithm.kind (algorithm.digest m.payload)))) ∧
    (policy.maxInputBytes < m.payload.length → ∃ f : Fault, f.IsHostFault ∧
      (digest algorithm data).outcome session = .error (.fault f)) := by
  have hnone : Native.obstacle? (.ofPolicy policy) algorithm m = none ↔
      m.payload.length ≤ policy.maxInputBytes := by
    rw [Native.obstacle?_eq_none_iff, isBeyondCap_ofPolicy, Except.ok.injEq,
      decide_eq_false_iff_not, Nat.not_lt]
  rw [outcome_digest hnative hdata]
  constructor
  · intro hwithin
    rw [hnone.2 hwithin]
  · intro hbeyond
    cases hobstacle : Native.obstacle? (.ofPolicy policy) algorithm m with
    | none => exact absurd (hnone.1 hobstacle) (Nat.not_le.2 hbeyond)
    | some failure =>
      obtain ⟨d, hd, hblamed⟩ := Native.atBoundary_of_obstacle? session.host
        (Method.digest algorithm).name hobstacle
      exact ⟨d, hd, congrArg Except.error hblamed⟩

/-- Whoever asks for a verdict gets one, which is good just if the message is within the cap of the
    policy and the signature verifies. -/
theorem Asks.exists_verdict_ofPolicy {ask : Datum → Datum → Datum → Intrinsic} (hasks : Asks ask)
    (hnative : session.IsNative (.ofPolicy policy)) {sig exponent modulus : Datum}
    {arguments : List Datum} (hrequest : (ask sig exponent modulus).request = .ok arguments) :
    ∃ m s e n verdict, arguments = crossing m ++ spelled s ++ spelled e ++ spelled n ∧
      (ask sig exponent modulus).outcome session = .ok (.datum (.truth verdict)) ∧
      (verdict = true ↔ m.payload.length ≤ policy.maxInputBytes ∧
        Native.Verifies m.payload s e n) := by
  obtain ⟨message?, hlooked⟩ := hasks.exists_request
  obtain ⟨m, -, hspelled⟩ := Checks.exists_of_bind_eq_ok ((hlooked _ _ _).symm.trans hrequest)
  obtain ⟨s, e, n, -, -, -, rfl⟩ := spells_of_rsaRequest_eq_ok hspelled
  have hcap : (Native.Settings.ofPolicy policy).maxInputBytes.number? =
      some (.integer policy.maxInputBytes) := rfl
  obtain ⟨verdict, houtcome, hiff⟩ :=
    exists_verdict_of_request (hasks.asksVerdict sig exponent modulus) hrequest hcap hnative
  refine ⟨m, s, e, n, verdict, rfl, houtcome, ?_⟩
  rw [hiff, Number.precedes_integer, decide_eq_false_iff_not, Int.not_lt, Nat.cast_le]

end Capped

end Intrinsic

namespace Policy

open Session Text.IntegerLiteral

/-- Whatever an environment says, the cap of the default host is between 1024 and 67108864 bytes:
    the integer that the text denotes, moved into that range, or 1048576 if there is no text or it
    denotes none. So on the default host no message of up to 1024 bytes is refused for its size, and
    every one of more than 67108864 bytes is. What the older variable of a key says counts only
    where the current one is not set. -/
theorem cap_in_range (env : Environment) :
    let policy := ofEnvironment env
    let cap := policy.maxInputBytes
    let text := (env.get? "CONTRACT_CRYPTO_MAX_INPUT_BYTES").or (env.get? "CC_MAX_INPUT_BYTES")
    (1024 ≤ cap ∧ cap ≤ 67108864) ∧
    (∀ t ∈ text, ∀ n, Denotes t.toList n → (cap : Int) = max 1024 (min n 67108864)) ∧
    ((∀ t ∈ text, ∀ n, ¬ Denotes t.toList n) → cap = 1048576) ∧
    (∀ session : Session, session.active = none → session.policy = none →
      session.environment = env →
        (activeHost.runOn session).1 = .ok (Native.host none (.ofCap policy.fastEval cap)) ∧
          session.IsNative (.ofPolicy policy)) ∧
    (∀ session : Session, session.IsNative (.ofPolicy policy) →
      (∀ algorithm data m, Message.ofDatum data = .ok m →
        (m.payload.length ≤ 1024 → (Intrinsic.digest algorithm data).outcome session =
          .ok (.datum (.checksum algorithm.kind (algorithm.digest m.payload)))) ∧
        (67108864 < m.payload.length → ∃ f : Fault, f.IsHostFault ∧
          (Intrinsic.digest algorithm data).outcome session = .error (.fault f))) ∧
      ∀ ask sig exponent modulus arguments, Intrinsic.Asks ask →
        (ask sig exponent modulus).request = .ok arguments →
        ∃ m s e n verdict, arguments = Intrinsic.crossing m ++ Intrinsic.spelled s ++
            Intrinsic.spelled e ++ Intrinsic.spelled n ∧
          (ask sig exponent modulus).outcome session = .ok (.datum (.truth verdict)) ∧
          (m.payload.length ≤ 1024 → (verdict = true ↔ Native.Verifies m.payload s e n)) ∧
          (67108864 < m.payload.length → verdict = false)) ∧
    ∀ key ∈ ["FAST_EVAL", "MAX_INPUT_BYTES", "STRICT_VARINT"], ∀ other : Environment,
      (∀ name, name ≠ "CC_" ++ key → env.get? name = other.get? name) →
      (env.get? ("CONTRACT_CRYPTO_" ++ key)).isSome = true →
        ofEnvironment env = ofEnvironment other := by
  intro policy cap text
  have hleast : 1024 ≤ cap := leastCap_le_cap env
  have hgreatest : cap ≤ 67108864 := cap_le_greatestCap env
  refine ⟨⟨hleast, hgreatest⟩, fun t ht n => cap_of_denotes ht, cap_of_not_denotes, ?_, ?_,
    fun key _ other => ofEnvironment_congr⟩
  · intro session hactive hpolicy henvironment
    have hforce : session.policyInForce = policy := by
      rw [policyInForce, hpolicy, henvironment, Option.getD_none]
    have hnative := isNative_of_none hactive
    rw [hforce] at hnative
    refine ⟨?_, hnative⟩
    rw [runOn_activeHost, host, hactive, hforce]
    rfl
  · intro session hnative
    constructor
    · intro algorithm data m hdata
      obtain ⟨hwithin, hbeyond⟩ := Intrinsic.outcome_digest_ofPolicy hnative algorithm hdata
      exact ⟨fun hsmall => hwithin (hsmall.trans hleast),
        fun hhuge => hbeyond (hgreatest.trans_lt hhuge)⟩
    · intro ask sig exponent modulus arguments hasks hrequest
      obtain ⟨m, s, e, n, verdict, harguments, houtcome, hiff⟩ :=
        hasks.exists_verdict_ofPolicy hnative hrequest
      refine ⟨m, s, e, n, verdict, harguments, houtcome, ?_, ?_⟩
      · intro hsmall
        rw [hiff]
        exact and_iff_right (hsmall.trans hleast)
      · intro hhuge
        rw [← Bool.not_eq_true, hiff]
        rintro ⟨hwithin, -⟩
        exact absurd (hwithin.trans hgreatest) (Nat.not_le.2 hhuge)

/-- A marked literal with an underscore and blanks around it, behind which the older variable is
    not looked at; and one that is below the range. -/
theorem cap_in_range_marked :
    let env (text older : String) : Environment :=
      ⟨[("CONTRACT_CRYPTO_MAX_INPUT_BYTES", text), ("CC_MAX_INPUT_BYTES", older)]⟩
    Denotes "\t0x_8F_0\u3000".toList 0x8f0 ∧ Denotes "-0".toList 0 ∧
      (ofEnvironment (env "\t0x_8F_0\u3000" "5000")).maxInputBytes = 0x8f0 ∧
      (ofEnvironment (env "-0" "5000")).maxInputBytes = 1024 ∧
      ofEnvironment (env "" "5000") = ofEnvironment (env "" "6000") := by
  intro env
  have hmarked : Denotes "\t0x_8F_0\u3000".toList 0x8f0 := read?_eq_some_iff.1 (by decide)
  have hzero : Denotes "-0".toList 0 := read?_eq_some_iff.1 (by decide)
  obtain ⟨-, hcap, -⟩ := cap_in_range (env "\t0x_8F_0\u3000" "5000")
  obtain ⟨-, hleast, -⟩ := cap_in_range (env "-0" "5000")
  obtain ⟨-, -, -, -, -, hkeys⟩ := cap_in_range (env "" "5000")
  refine ⟨hmarked, hzero, by exact_mod_cast hcap _ rfl _ hmarked,
    by exact_mod_cast hleast _ rfl _ hzero,
    hkeys "MAX_INPUT_BYTES" (by decide) (env "" "6000") (fun name hname => ?_) (by decide)⟩
  have hother : (name == "CC_MAX_INPUT_BYTES") = false := by simpa using hname
  simp [env, Environment.get?, List.lookup_cons, hother]

end Policy

end CryptoIntrinsics
