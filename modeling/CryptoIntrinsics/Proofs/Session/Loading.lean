import CryptoIntrinsics.Proofs.Session.Readiness

namespace CryptoIntrinsics

def Response.asks : Response → Bool
  | now _ => false
  | byPolicy _ => true

namespace Procedure

variable {α β : Type}

theorem IsDemand.snd_runOn {procedure : Procedure α} (hdemand : procedure.IsDemand)
    (session : Session) : (procedure.runOn session).2 = session := by
  obtain ⟨result, rfl⟩ := hdemand
  rw [runOn_demand]

theorem snd_bind_of_isDemand {first : Procedure α} {next : α → Procedure β}
    (hnext : ∀ value, (next value).IsDemand) (session : Session) :
    ((first >>= next).runOn session).2 = (first.runOn session).2 := by
  rw [runOn_bind]
  cases first.runOn session with
  | mk outcome later =>
    cases outcome with
    | error failure => rfl
    | ok value => exact (hnext value).snd_runOn later

theorem fst_bind_pure (first : Procedure α) (make : α → β) (session : Session) :
    ((first >>= fun value => pure (make value)).runOn session).1 =
      (first.runOn session).1.map make := by
  rw [runOn_bind]
  cases first.runOn session with
  | mk outcome later => cases outcome <;> rfl

end Procedure

namespace Session

open Procedure

/-- The policy that is remembered behind an operation, by whether it was asked for. -/
def recalling (session : Session) (asked : Bool) : Option Policy :=
  if asked then some session.policyInForce else session.policy

theorem Fills.recalling {session later : Session} (hfills : session.Fills later) {asked : Bool}
    (hpolicy : later.policy = session.recalling asked) (again : Bool) :
    later.recalling again = session.recalling (asked || again) := by
  cases again with
  | true =>
    rw [Bool.or_true]
    exact congrArg some hfills.policyInForce_eq
  | false =>
    rw [Bool.or_false]
    exact hpolicy

theorem policy_occupied (session : Session) :
    session.occupied.policy = session.recalling session.active.isNone := by
  rw [occupied]
  cases session.active <;> rfl

theorem fills_noted (session : Session) (call : Call) : session.Fills (session.noted call) :=
  have hoccupied := fills_occupied session
  ⟨hoccupied.environment_eq, hoccupied.policy_or, hoccupied.active_or⟩

theorem policy_settle_bind {α : Type} (response : Response)
    {next : Except Failure Datum → Procedure α} (hok : ∀ reply, (next (.ok reply)).IsDemand)
    (herror : ∀ failure, (next (.error failure)).IsDemand) (session : Session) :
    ((settle response >>= next).runOn session).2.policy = session.recalling response.asks := by
  have hnext (outcome : Except Failure Datum) : (next outcome).IsDemand := by
    cases outcome with
    | ok reply => exact hok reply
    | error failure => exact herror failure
  rw [snd_bind_of_isDemand hnext, runOn_settle]
  cases response <;> rfl

/-- Whether a call asks for the policy: to make a host if none is active, or if its host does. -/
def callAsks (session : Session) (name : String) (arguments : List Datum) : Bool :=
  session.active.isNone || (session.host.respond name arguments).asks

theorem policy_callHost (name : String) (arguments : List Datum) (session : Session) :
    ((callHost name arguments).runOn session).2.policy =
      session.recalling (session.callAsks name arguments) := by
  rw [callHost, runOn_bind, runOn_activeHost, callAsks]
  dsimp only
  -- What cannot be called is refused by the host or before it, and no refusal asks for a policy.
  cases hmember : session.host.member name with
  | absent =>
    rw [Host.respond, hmember]
    exact (policy_occupied session).trans (congrArg _ (Bool.or_false _).symm)
  | inert =>
    simp only [Member.isPresent, Member.isMethod, Bool.not_true, Bool.false_eq_true, if_false]
    rw [policy_settle_bind]
    · exact (fills_occupied session).recalling (policy_occupied session) _
    · exact fun reply => isDemand_pure reply
    · exact fun failure => isDemand_throw _
  | method respond =>
    simp only [Member.isPresent, Member.isMethod, Bool.not_true, Bool.false_eq_true, if_false,
      if_true]
    rw [runOn_bind, runOn_record]
    dsimp only
    rw [policy_settle_bind]
    · exact (fills_noted session ⟨name, arguments⟩).recalling (policy_occupied session) _
    · exact fun reply => isDemand_pure reply
    · exact fun failure => isDemand_throw _

end Session

namespace Decoding

open Procedure Session

/-- A flag that is given is not asked of the policy. -/
theorem isDemand_strictness {asked : Datum} (hasked : asked ≠ .nothing) :
    (strictness asked).IsDemand := by
  unfold strictness
  split
  · exact absurd rfl hasked
  · split
    · exact isDemand_pure _
    · exact isDemand_throw _

theorem policy_varint (source offset limit asked : Datum) (session : Session) :
    ((varint source offset limit asked).runOn session).2.policy =
      session.recalling (asked matches .nothing) := by
  obtain ⟨read, hvarint⟩ := exists_varint source offset limit
  rw [hvarint, snd_bind_of_isDemand fun _ => isDemand_demand _]
  cases asked with
  | nothing =>
    rw [strictness, runOn_bind, runOn_currentPolicy]
    rfl
  | _ =>
    rw [(isDemand_strictness (by simp)).snd_runOn]
    rfl

end Decoding

namespace Intrinsic

open Procedure Session

/-- Whether the conclusion reads a key, which it does by the policy. -/
def readsKey : Intrinsic → Except Failure Datum → Bool
  | recoverKey _ _, .ok reply => reply.lent.isOk
  | _, _ => false

/-- Whether an operation asks for the policy: on the way to the host, there, or on the way back. -/
def asks (i : Intrinsic) (session : Session) : Bool :=
  match i.request with
  | .error _ => false
  | .ok arguments =>
    session.callAsks i.method.name arguments ||
      i.readsKey ((callHost i.method.name arguments).runOn session).1

theorem policy_conclude (i : Intrinsic) (outcome : Except Failure Datum) (session : Session) :
    ((i.conclude outcome).runOn session).2.policy = session.recalling (i.readsKey outcome) := by
  cases i with
  | digest algorithm data =>
    rw [conclude, runOn_demand_bind]
    cases outcome with
    | error failure => rfl
    | ok reply =>
      dsimp only
      rw [runOn_bind, Intrinsics.digestOfReply]
      cases Checksum.ofDatum algorithm.kind reply <;> rfl
  | recoverKey hash sig =>
    rw [conclude, runOn_demand_bind]
    cases outcome with
    | error failure => rfl
    | ok reply =>
      dsimp only
      rw [snd_bind_of_isDemand fun _ => isDemand_pure _, Intrinsics.keyOfReply, readsKey]
      cases reply.lent with
      | error failure => rfl
      | ok bytes =>
        dsimp only
        rw [runOn_bind, runOn_currentPolicy]
        dsimp only
        split <;> rfl
  | assertDigest | assertRecoverKey => cases outcome <;> rfl
  | verifyRsa | verifyRsaRaw =>
    rw [conclude, runOn_demand_bind]
    cases Intrinsics.verdictOf outcome <;> rfl

theorem policy_run (i : Intrinsic) (session : Session) :
    (i.operation.run.runOn session).2.policy = session.recalling (i.asks session) := by
  rw [run_operation, runOn_demand_bind, asks]
  cases i.request with
  | error failure => rfl
  | ok arguments =>
    have hfills := (steady_callHost i.method.name arguments).fills session
    dsimp only
    rw [runOn_bind, runOn_attempt]
    dsimp only
    rw [policy_conclude]
    exact hfills.recalling (policy_callHost _ _ session) _

theorem policy_of_run {α : Type} {procedure : Procedure α} {make : α → Answer} (i : Intrinsic)
    (hrun : i.operation.run = procedure >>= fun value => pure (make value)) (session : Session) :
    (procedure.runOn session).2.policy = session.recalling (i.asks session) := by
  rw [← i.policy_run, hrun, snd_bind_of_isDemand fun _ => isDemand_pure _]

end Intrinsic

namespace CommandLine

open Procedure Session

def asks (read : String → Except FileFlaw Octets) : Command → Session → Bool
  | .digest none _, _ => false
  | .digest (some algorithm) source, session =>
    match message read source with
    | .ok payload => (Intrinsic.digest algorithm (.octets payload)).asks session
    | .error _ => false
  | .decode kind encoded, _ => (Credential.settle (Credential.hexOctets kind encoded)).isOk
  | .verifyRsa source sig exponent modulus, session =>
    match message read source with
    | .ok payload =>
      (Intrinsic.verifyRsa (.octets payload) sig.toDatum exponent.toDatum modulus.toDatum).asks
        session
    | .error _ => false

theorem policy_perform (read : String → Except FileFlaw Octets) (command : Command)
    (session : Session) :
    ((perform read command).runOn session).2.policy =
      session.recalling (asks read command session) := by
  cases command with
  | digest algorithm source =>
    cases algorithm with
    | none =>
      rw [perform, runOn_demand_bind]
      cases message read source <;> rfl
    | some algorithm =>
      rw [perform, runOn_demand_bind, asks]
      cases message read source with
      | error failure => rfl
      | ok payload =>
        dsimp only
        rw [snd_bind_of_isDemand fun _ => isDemand_pure _]
        exact (Intrinsic.digest algorithm _).policy_of_run rfl session
  | decode kind encoded =>
    rw [perform, snd_bind_of_isDemand fun _ => isDemand_pure _, Decoding.runOn_credentialOfHex,
      asks]
    cases Credential.settle (Credential.hexOctets kind encoded) <;> rfl
  | verifyRsa source sig exponent modulus =>
    rw [perform, runOn_demand_bind, asks]
    cases message read source with
    | error failure => rfl
    | ok payload =>
      dsimp only
      rw [snd_bind_of_isDemand fun _ => isDemand_pure _]
      exact (Intrinsic.verifyRsa _ _ _ _).policy_of_run rfl session

end CommandLine

namespace Operation

open Procedure Session

def asks : Operation → Session → Bool
  | policy, _ | installHost (.byPolicy _), _ | looksLikeHost (.byPolicy _), _
  | decodeVarint _ _ _ .nothing, _ => true
  | credentialOfHex kind text, _ => (Credential.settle (Credential.hexOctets kind text)).isOk
  | readCredential _ source, _ | readCredentialAt _ source _, _ => source.lent.isOk
  | digest algorithm data, session => (Intrinsic.digest algorithm data).asks session
  | assertDigest algorithm data expected, session =>
    (Intrinsic.assertDigest algorithm data expected).asks session
  | recoverKey hash sig, session => (Intrinsic.recoverKey hash sig).asks session
  | assertRecoverKey hash sig expected, session =>
    (Intrinsic.assertRecoverKey hash sig expected).asks session
  | verifyRsa data sig exponent modulus, session =>
    (Intrinsic.verifyRsa data sig exponent modulus).asks session
  | verifyRsaRaw data length sig exponent modulus, session =>
    (Intrinsic.verifyRsaRaw data length sig exponent modulus).asks session
  | callHost (.text method) arguments, session => session.callAsks method arguments
  | callHost _ _, session | activeHost, session => session.active.isNone
  | tool directory words, session =>
    match CommandLine.Command.ofWords words with
    | .ok command => CommandLine.asks directory.read command session
    | .error _ => false
  | _, _ => false

theorem policy_hostOf (source : HostSource) (session : Session) :
    ((hostOf source).runOn session).2.policy =
      session.recalling (source matches .byPolicy _) := by
  cases source with
  | fresh host => rfl
  | byPolicy label =>
    rw [hostOf, runOn_bind, runOn_currentPolicy]
    rfl
  | named label =>
    rw [hostOf, runOn_bind, runOn_get]
    dsimp only
    cases session.roster.lookup label <;> rfl

def forgets : Operation → Bool
  | forgetPolicy => true
  | _ => false

/-- Of the operations that do not forget the policy, those that ask for it have it remembered, and
    the others leave it as it was. -/
theorem policy_run {operation : Operation} (hkeeps : operation.forgets = false)
    (session : Session) :
    (operation.run.runOn session).2.policy = session.recalling (operation.asks session) := by
  cases operation with
  | encodeVarint | varintSize | dropMarker | decodeHex | newChecksum | zeroChecksum | checksumOfHex
  | readChecksum | readChecksumAt | newCredential | curveOfTag | serialize | equals | compare | sort
  | countDistinct | assign | message | isMessage | describe =>
    exact congrArg Session.policy ((isDemand_run (by rfl)).snd_runOn session)
  | takeCalls | setVariables | release | forgetRelease => exact (keeps_run rfl session).policy_eq
  | dismissHost => rfl
  | forgetPolicy => cases hkeeps
  | policy =>
    rw [run, snd_bind_of_isDemand fun _ => isDemand_pure _, runOn_currentPolicy]
    rfl
  | decodeVarint source offset bound asked =>
    rw [run, snd_bind_of_isDemand fun _ => isDemand_pure _, Decoding.policy_varint]
    cases asked <;> rfl
  | credentialOfHex kind text =>
    rw [run, snd_bind_of_isDemand fun _ => isDemand_pure _, Decoding.runOn_credentialOfHex, asks]
    cases Credential.settle (Credential.hexOctets kind text) <;> rfl
  | readCredential kind source =>
    rw [run, snd_bind_of_isDemand fun _ => isDemand_pure _, Decoding.runOn_credential, asks]
    cases source.lent <;> rfl
  | readCredentialAt kind source offset =>
    rw [run, snd_bind_of_isDemand fun _ => isDemand_pure _, Decoding.runOn_credentialAt, asks]
    cases source.lent <;> rfl
  | digest algorithm data => exact (Intrinsic.digest algorithm data).policy_run session
  | assertDigest algorithm data expected =>
    exact (Intrinsic.assertDigest algorithm data expected).policy_run session
  | recoverKey hash sig => exact (Intrinsic.recoverKey hash sig).policy_run session
  | assertRecoverKey hash sig expected =>
    exact (Intrinsic.assertRecoverKey hash sig expected).policy_run session
  | verifyRsa data sig exponent modulus =>
    exact (Intrinsic.verifyRsa data sig exponent modulus).policy_run session
  | verifyRsaRaw data length sig exponent modulus =>
    exact (Intrinsic.verifyRsaRaw data length sig exponent modulus).policy_run session
  | callHost name arguments =>
    cases name with
    | text method =>
      rw [run, snd_bind_of_isDemand fun _ => isDemand_pure _]
      exact policy_callHost method arguments session
    | _ =>
      unfold run
      dsimp only
      rw [snd_bind_of_isDemand fun _ => isDemand_throw _, runOn_activeHost]
      exact policy_occupied session
  | activeHost =>
    rw [run, snd_bind_of_isDemand fun _ => isDemand_pure _, runOn_activeHost]
    exact policy_occupied session
  | installHost source =>
    have hentered := policy_hostOf source session
    rw [runOn_installHost]
    cases hgiven : (hostOf source).runOn session with
    | mk given entered =>
      rw [hgiven] at hentered
      cases given with
      | error failure => cases source <;> exact hentered
      | ok host =>
        dsimp only
        split <;> cases source <;> exact hentered
  | looksLikeHost source =>
    rw [run, snd_bind_of_isDemand fun _ => isDemand_pure _, policy_hostOf]
    cases source <;> rfl
  | tool directory words =>
    rw [run, snd_bind_of_isDemand fun _ => isDemand_pure _, CommandLine.run, asks]
    cases CommandLine.Command.ofWords words with
    | error refusal => rfl
    | ok command =>
      dsimp only
      rw [snd_bind_of_isDemand, runOn_attempt]
      · exact CommandLine.policy_perform directory.read command session
      · intro outcome
        split
        · exact isDemand_pure _
        · split
          · exact isDemand_pure _
          · exact isDemand_throw _
        · exact isDemand_throw _

/-- What comes of reading something that was not said how to read, by whether padded integers are
    refused. -/
def decoded? (strict : Bool) : Operation → Option (Except Failure Answer)
  | decodeVarint source offset bound .nothing =>
    some ((decodeVarint source offset bound (.truth strict)).run.runOn .start).1
  | readCredential kind source =>
    some <| (source.lent.bind fun bytes =>
      Credential.settle (Credential.deserialize kind strict bytes)).map fun value =>
        .datum value.toDatum
  | readCredentialAt kind source offset =>
    some <| (source.lent.bind fun bytes =>
      Decoding.credentialIn kind strict offset bytes).map fun (value, next) =>
        .placed value.toDatum next
  | credentialOfHex kind text =>
    some <| ((Credential.settle (Credential.hexOctets kind text)).bind fun bytes =>
      Credential.settle (Credential.deserialize kind strict bytes)).map fun value =>
        .datum value.toDatum
  | _ => none

theorem run_of_decoded {operation : Operation} {session : Session} {answer : Except Failure Answer}
    (hdecoded : operation.decoded? session.policyInForce.strictVarint = some answer) :
    (operation.run.runOn session).1 = answer := by
  cases operation with
  | decodeVarint source offset bound asked =>
    obtain ⟨read, hvarint⟩ := Decoding.exists_varint source offset bound
    cases asked with
    | nothing =>
      cases hdecoded
      have htold : Decoding.strictness (.truth session.policyInForce.strictVarint) =
          pure session.policyInForce.strictVarint := rfl
      rw [run, run, fst_bind_pure, fst_bind_pure, hvarint, hvarint, htold, Decoding.strictness,
        runOn_bind, runOn_bind, runOn_bind, runOn_currentPolicy]
      simp only [runOn_pure, runOn_demand]
    | _ => cases hdecoded
  | readCredential kind source =>
    cases hdecoded
    rw [run, fst_bind_pure, Decoding.runOn_credential]
    cases source.lent <;> rfl
  | readCredentialAt kind source offset =>
    cases hdecoded
    rw [run, fst_bind_pure, Decoding.runOn_credentialAt]
    cases source.lent <;> rfl
  | credentialOfHex kind text =>
    cases hdecoded
    rw [run, fst_bind_pure, Decoding.runOn_credentialOfHex]
    cases Credential.settle (Credential.hexOctets kind text) <;> rfl
  | _ => cases hdecoded

end Operation

end CryptoIntrinsics
