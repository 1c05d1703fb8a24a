import CryptoIntrinsics.Proofs.Session.Trace
import CryptoIntrinsics.Proofs.Session.Boundary
import Mathlib.Tactic.Choose

namespace CryptoIntrinsics

namespace Session

/-- A session in which nothing has happened, in an environment and perhaps with a host. -/
def fresh (environment : Environment) (host : Option Host) : Session :=
  { start with environment, active := host }

/-- The same policy is in force in two sessions, and the next calls reach the same host. -/
structure Alike (session twin : Session) : Prop where
  policyInForce_eq : session.policyInForce = twin.policyInForce
  host_eq : session.host = twin.host

/-- Of environment, policy and host, a later session has what an earlier one had, or what was not
    there yet is filled in with what would have been used. -/
structure Fills (session later : Session) : Prop where
  environment_eq : later.environment = session.environment
  policy_or : later.policy = session.policy ∨ later.policy = some session.policyInForce
  active_or : later.active = session.active ∨
    session.active = none ∧ later.active = some session.host

theorem Fills.refl (session : Session) : session.Fills session := ⟨rfl, .inl rfl, .inl rfl⟩

theorem Fills.policyInForce_eq {session later : Session} (hfills : session.Fills later) :
    later.policyInForce = session.policyInForce := by
  unfold policyInForce
  obtain hpolicy | hpolicy := hfills.policy_or
  · rw [hpolicy, hfills.environment_eq]
  · rw [hpolicy, Option.getD_some, policyInForce]

theorem Fills.host_eq {session later : Session} (hfills : session.Fills later) :
    later.host = session.host := by
  obtain hactive | ⟨-, hactive⟩ := hfills.active_or
  · rw [host, host, hactive, hfills.policyInForce_eq]
  · rw [host, hactive, Option.getD_some]

theorem Fills.alike {session later : Session} (hfills : session.Fills later) :
    session.Alike later := ⟨hfills.policyInForce_eq.symm, hfills.host_eq.symm⟩

theorem Fills.trans {session later last : Session} (hlater : session.Fills later)
    (hlast : later.Fills last) : session.Fills last where
  environment_eq := hlast.environment_eq.trans hlater.environment_eq
  policy_or := by
    obtain hsame | hfilled := hlast.policy_or
    · rw [hsame]
      exact hlater.policy_or
    · rw [hfilled, hlater.policyInForce_eq]
      exact .inr rfl
  active_or := by
    obtain hsame | ⟨hnone, hfilled⟩ := hlast.active_or
    · rw [hsame]
      exact hlater.active_or
    · obtain hactive | ⟨-, hactive⟩ := hlater.active_or
      · exact .inr ⟨hactive ▸ hnone, by rw [hfilled, hlater.host_eq]⟩
      · rw [hactive] at hnone
        cases hnone

theorem fills_remembering (session : Session) : session.Fills session.remembering :=
  ⟨rfl, .inr rfl, .inl rfl⟩

theorem fills_occupied (session : Session) : session.Fills session.occupied := by
  unfold occupied
  cases hactive : session.active with
  | some host => exact .refl session
  | none => exact ⟨rfl, .inr rfl, .inr ⟨hactive, rfl⟩⟩

theorem Alike.symm {session twin : Session} (halike : session.Alike twin) : twin.Alike session :=
  ⟨halike.policyInForce_eq.symm, halike.host_eq.symm⟩

theorem Alike.trans {session twin other : Session} (halike : session.Alike twin)
    (hother : twin.Alike other) : session.Alike other :=
  ⟨halike.policyInForce_eq.trans hother.policyInForce_eq, halike.host_eq.trans hother.host_eq⟩

end Session

namespace Procedure

open Session

variable {α β : Type}

/-- A procedure that comes to a result, whatever the session is, and leaves it as it is. -/
def IsDemand (procedure : Procedure α) : Prop := ∃ result, procedure = demand result

theorem isDemand_demand (result : Except Failure α) : (demand result).IsDemand := ⟨result, rfl⟩

theorem isDemand_pure (value : α) : (pure value : Procedure α).IsDemand := ⟨.ok value, rfl⟩

theorem isDemand_throw (failure : Failure) : (throw failure : Procedure α).IsDemand :=
  ⟨.error failure, rfl⟩

theorem IsDemand.bind {first : Procedure α} {next : α → Procedure β} (hfirst : first.IsDemand)
    (hnext : ∀ value, (next value).IsDemand) : (first >>= next).IsDemand := by
  obtain ⟨result, rfl⟩ := hfirst
  cases result with
  | ok value => exact hnext value
  | error failure => exact isDemand_throw failure

theorem exists_demand_of_forall {γ : Type} {first : γ → Procedure α} {next : α → Procedure β}
    (hnext : ∀ value, (next value).IsDemand) :
    ∃ result : α → Except Failure β, ∀ input,
      first input >>= next = first input >>= fun value => demand (result value) := by
  choose result hresult using hnext
  obtain rfl : next = fun value => demand (result value) := funext hresult
  exact ⟨result, fun _ => rfl⟩

/-- A procedure that goes by the policy in force and the host, and changes neither. -/
structure Steady (procedure : Procedure α) : Prop where
  fills : ∀ session : Session, session.Fills (procedure.runOn session).2
  congr : ∀ {session twin : Session}, session.Alike twin →
    (procedure.runOn session).1 = (procedure.runOn twin).1

theorem steady_demand (result : Except Failure α) : Steady (demand result) where
  fills session := by
    rw [runOn_demand]
    exact .refl session
  congr _ := by rw [runOn_demand, runOn_demand]

theorem IsDemand.steady {procedure : Procedure α} (hdemand : procedure.IsDemand) :
    procedure.Steady := by
  obtain ⟨result, rfl⟩ := hdemand
  exact steady_demand result

theorem steady_pure (value : α) : (pure value : Procedure α).Steady := (isDemand_pure value).steady

theorem steady_throw (failure : Failure) : (throw failure : Procedure α).Steady :=
  (isDemand_throw failure).steady

theorem Steady.bind {first : Procedure α} {next : α → Procedure β} (hfirst : first.Steady)
    (hnext : ∀ value, (next value).Steady) : (first >>= next).Steady where
  fills session := by
    have hfills := hfirst.fills session
    rw [runOn_bind]
    cases hrun : first.runOn session with
    | mk outcome later =>
      rw [hrun] at hfills
      cases outcome with
      | ok value => exact hfills.trans ((hnext value).fills later)
      | error failure => exact hfills
  congr := by
    intro session twin halike
    have hsession := hfirst.fills session
    have htwin := hfirst.fills twin
    have houtcome := hfirst.congr halike
    rw [runOn_bind, runOn_bind]
    cases hrun : first.runOn session with
    | mk outcome later =>
      cases hother : first.runOn twin with
      | mk result last =>
        rw [hrun] at hsession houtcome
        rw [hother] at htwin houtcome
        obtain rfl : outcome = result := houtcome
        cases outcome with
        | error failure => rfl
        | ok value =>
          exact (hnext value).congr ((hsession.alike.symm.trans halike).trans htwin.alike)

theorem Steady.attempt {procedure : Procedure α} (hsteady : procedure.Steady) :
    (attempt procedure).Steady where
  fills := hsteady.fills
  congr halike := congrArg Except.ok (hsteady.congr halike)

end Procedure

namespace Session

open Procedure

theorem steady_currentPolicy : currentPolicy.Steady where
  fills session := by
    rw [runOn_currentPolicy]
    exact fills_remembering session
  congr halike := by
    rw [runOn_currentPolicy, runOn_currentPolicy, halike.policyInForce_eq]

theorem steady_activeHost : activeHost.Steady where
  fills session := by
    rw [runOn_activeHost]
    exact fills_occupied session
  congr halike := by
    rw [runOn_activeHost, runOn_activeHost, halike.host_eq]

theorem steady_record (host : Host) (call : Call) : (record host call).Steady where
  fills _ := ⟨rfl, .inl rfl, .inl rfl⟩
  congr _ := rfl

theorem steady_settle (response : Response) : (settle response).Steady := by
  cases response with
  | now reply => exact steady_pure reply
  | byPolicy reply => exact steady_currentPolicy.bind fun policy => steady_pure (reply policy)

theorem steady_settle_bind {α : Type} (response : Response)
    {next : Except Failure Datum → Procedure α} (hok : ∀ reply, (next (.ok reply)).Steady)
    (herror : ∀ failure, (next (.error failure)).Steady) : (settle response >>= next).Steady := by
  apply (steady_settle response).bind
  intro outcome
  cases outcome with
  | ok reply => exact hok reply
  | error failure => exact herror failure

theorem steady_callHost (name : String) (arguments : List Datum) :
    (callHost name arguments).Steady := by
  unfold callHost
  apply steady_activeHost.bind
  intro host
  split
  · exact steady_throw _
  · split
    · apply (steady_record _ _).bind
      intro _
      exact steady_settle_bind _ (fun _ => steady_pure _) fun _ => steady_throw _
    · exact steady_settle_bind _ (fun _ => steady_pure _) fun _ => steady_throw _

theorem steady_contain {procedure : Procedure Answer} (hsteady : procedure.Steady)
    (raising : Bool) : (contain raising procedure).Steady := by
  unfold contain
  apply hsteady.attempt.bind
  intro outcome
  cases outcome with
  | ok answer => exact steady_pure _
  | error failure =>
    cases failure with
    | fault fault =>
      dsimp only
      split
      · exact steady_throw _
      · split
        · exact steady_throw _
        · exact steady_pure _
    | _ => exact steady_throw _

end Session

namespace Decoding

open Procedure Session

theorem steady_strictness (asked : Datum) : (strictness asked).Steady := by
  cases asked with
  | nothing => exact steady_currentPolicy.bind fun policy => steady_pure _
  | _ =>
    unfold strictness
    dsimp only
    split
    · exact steady_pure _
    · exact steady_throw _

/-- What a variable-length integer is read as goes by whether padded ones are refused, and by
    nothing else that a session keeps. -/
theorem exists_varint (source offset limit : Datum) :
    ∃ read : Bool → Except Failure (Nat × Int), ∀ asked,
      varint source offset limit asked =
        strictness asked >>= fun refusing => demand (read refusing) := by
  unfold varint
  apply exists_demand_of_forall
  intro refusing
  split
  · exact isDemand_throw _
  · exact isDemand_throw _
  · apply (isDemand_demand _).bind
    intro start
    cases start with
    | none => exact isDemand_throw _
    | some start => exact isDemand_demand _

theorem steady_varint (source offset limit asked : Datum) :
    (varint source offset limit asked).Steady := by
  obtain ⟨read, hvarint⟩ := exists_varint source offset limit
  rw [hvarint]
  exact (steady_strictness asked).bind fun refusing => steady_demand _

theorem steady_credential (kind : Credential.Kind) (source : Datum) :
    (credential kind source).Steady :=
  (steady_demand _).bind fun _ => steady_currentPolicy.bind fun _ => steady_demand _

theorem steady_credentialAt (kind : Credential.Kind) (source offset : Datum) :
    (credentialAt kind source offset).Steady := by
  unfold credentialAt
  refine (steady_demand _).bind fun bytes => steady_currentPolicy.bind fun policy => ?_
  apply (steady_demand _).bind
  intro start
  cases start with
  | none => exact steady_throw _
  | some start => exact steady_demand _

theorem steady_credentialOfHex (kind : Credential.Kind) (text : String) :
    (credentialOfHex kind text).Steady :=
  (steady_demand _).bind fun _ => steady_currentPolicy.bind fun _ => steady_demand _

end Decoding

namespace Intrinsics

open Procedure Session

theorem steady_digest (algorithm : Digest.Algorithm) (data : Datum) :
    (digest algorithm data).Steady := by
  unfold digest
  refine (steady_demand _).bind fun message => (steady_callHost _ _).bind fun reply => ?_
  unfold digestOfReply
  split
  · exact steady_pure _
  · exact steady_throw _

theorem steady_assertDigest (algorithm : Digest.Algorithm) (data expected : Datum) :
    (assertDigest algorithm data expected).Steady :=
  (steady_demand _).bind fun _ => (steady_demand _).bind fun _ =>
    (steady_callHost _ _).bind fun _ => steady_pure _

theorem steady_recoverKey (hash sig : Datum) : (recoverKey hash sig).Steady := by
  unfold recoverKey
  refine (steady_demand _).bind fun _ => (steady_demand _).bind fun _ =>
    (steady_callHost _ _).bind fun reply => ?_
  unfold keyOfReply
  dsimp only
  split
  · exact steady_throw _
  · apply steady_currentPolicy.bind
    intro policy
    split
    · exact steady_pure _
    · exact steady_throw _

theorem steady_assertRecoverKey (hash sig expected : Datum) :
    (assertRecoverKey hash sig expected).Steady :=
  (steady_demand _).bind fun _ => (steady_demand _).bind fun _ => (steady_demand _).bind fun _ =>
    (steady_callHost _ _).bind fun _ => steady_pure _

theorem steady_verifyRsaRaw (data length sig exponent modulus : Datum) :
    (verifyRsaRaw data length sig exponent modulus).Steady :=
  (steady_demand _).bind fun _ => (steady_demand _).bind fun _ => (steady_demand _).bind fun _ =>
    (steady_demand _).bind fun _ => (steady_callHost _ _).attempt.bind fun _ => steady_demand _

theorem steady_verifyRsa (data sig exponent modulus : Datum) :
    (verifyRsa data sig exponent modulus).Steady :=
  (steady_demand _).bind fun _ => steady_verifyRsaRaw _ _ _ _ _

end Intrinsics

namespace CommandLine

open Procedure Session

theorem steady_perform (read : String → Except FileFlaw Octets) (command : Command) :
    (perform read command).Steady := by
  cases command with
  | digest algorithm source =>
    cases algorithm with
    | none => exact (steady_demand _).bind fun _ => steady_throw _
    | some algorithm =>
      exact (steady_demand _).bind fun _ =>
        (Intrinsics.steady_digest _ _).bind fun _ => steady_pure _
  | decode kind encoded =>
    exact (Decoding.steady_credentialOfHex _ _).bind fun _ => steady_pure _
  | verifyRsa source sig exponent modulus =>
    exact (steady_demand _).bind fun _ =>
      (Intrinsics.steady_verifyRsa _ _ _ _).bind fun _ => steady_pure _

theorem steady_run (read : String → Except FileFlaw Octets) (words : List String) :
    (run read words).Steady := by
  unfold run
  split
  · exact steady_pure _
  · apply (steady_perform read _).attempt.bind
    intro outcome
    split
    · exact steady_pure _
    · split
      · exact steady_pure _
      · exact steady_throw _
    · exact steady_throw _

end CommandLine

namespace Operation

open Procedure Session

/-- Whether an operation sets a session up: the host, the environment, or what is remembered. -/
def setsUp : Operation → Bool
  | dismissHost | installHost _ | looksLikeHost _ | takeCalls _ | forgetPolicy | setVariables _
  | release _ | forgetRelease => true
  | _ => false

/-- Whether an operation has to do with its arguments only. -/
def isPure : Operation → Bool
  | encodeVarint .. | varintSize _ | dropMarker _ | decodeHex _ | newChecksum .. | zeroChecksum _
  | checksumOfHex .. | readChecksum .. | readChecksumAt .. | newCredential .. | curveOfTag _
  | serialize _ | equals .. | compare .. | sort _ | countDistinct _ | assign .. | message _
  | isMessage _ | describe _ => true
  | _ => false

theorem isDemand_run {operation : Operation} (hpure : operation.isPure = true) :
    operation.run.IsDemand := by
  cases operation with
  | encodeVarint | decodeHex | newChecksum | checksumOfHex | readChecksum | readChecksumAt
  | newCredential | curveOfTag | serialize | equals | compare | assign | message =>
    exact (isDemand_demand _).bind fun _ => isDemand_pure _
  | dropMarker | zeroChecksum | describe => exact isDemand_pure _
  | varintSize value =>
    unfold run
    dsimp only
    split
    · exact isDemand_pure _
    · exact isDemand_throw _
  | sort values =>
    refine (isDemand_demand _).bind fun members => ?_
    cases Datum.sort? members with
    | some sorted => exact isDemand_pure _
    | none => exact isDemand_throw _
  | countDistinct values =>
    exact (isDemand_demand _).bind fun _ => (isDemand_demand _).bind fun _ => isDemand_pure _
  | isMessage source =>
    refine (isDemand_demand _).bind fun _ => ?_
    cases source <;> exact isDemand_pure _
  | _ => cases hpure

/-- An operation that sets up nothing goes by the policy in force and the host, whatever else
    happened before it. -/
theorem steady_run {operation : Operation} (hcall : operation.setsUp = false) :
    operation.run.Steady := by
  cases hpure : operation.isPure with
  | true => exact (isDemand_run hpure).steady
  | false =>
    cases operation with
    | decodeVarint source offset bound strict =>
      exact (Decoding.steady_varint _ _ _ _).bind fun _ => steady_pure _
    | credentialOfHex kind text =>
      exact (Decoding.steady_credentialOfHex _ _).bind fun _ => steady_pure _
    | readCredential kind source =>
      exact (Decoding.steady_credential _ _).bind fun _ => steady_pure _
    | readCredentialAt kind source offset =>
      exact (Decoding.steady_credentialAt _ _ _).bind fun _ => steady_pure _
    | digest algorithm data => exact (Intrinsics.steady_digest _ _).bind fun _ => steady_pure _
    | assertDigest algorithm data expected =>
      exact (Intrinsics.steady_assertDigest _ _ _).bind fun _ => steady_pure _
    | recoverKey hash sig => exact (Intrinsics.steady_recoverKey _ _).bind fun _ => steady_pure _
    | assertRecoverKey hash sig expected =>
      exact (Intrinsics.steady_assertRecoverKey _ _ _).bind fun _ => steady_pure _
    | verifyRsa data sig exponent modulus =>
      exact (Intrinsics.steady_verifyRsa _ _ _ _).bind fun _ => steady_pure _
    | verifyRsaRaw data length sig exponent modulus =>
      exact (Intrinsics.steady_verifyRsaRaw _ _ _ _ _).bind fun _ => steady_pure _
    | callHost name arguments =>
      cases name with
      | text method => exact (steady_callHost _ _).bind fun _ => steady_pure _
      | _ => exact steady_activeHost.bind fun _ => steady_throw _
    | activeHost => exact steady_activeHost.bind fun _ => steady_pure _
    | policy => exact steady_currentPolicy.bind fun _ => steady_pure _
    | tool directory words => exact (CommandLine.steady_run _ _).bind fun _ => steady_pure _
    | dismissHost | installHost | looksLikeHost | takeCalls | forgetPolicy | setVariables | release
    | forgetRelease => cases hcall
    | _ => cases hpure

end Operation

end CryptoIntrinsics
