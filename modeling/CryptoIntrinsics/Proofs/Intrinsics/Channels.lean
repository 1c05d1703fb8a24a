import CryptoIntrinsics.Proofs.Intrinsics.Reply

namespace CryptoIntrinsics.Intrinsic

open Procedure Session

/-- The end of an operation that is run as a unit of execution. -/
def executed (i : Intrinsic) (raising : Bool) (session : Session) : Except Failure Answer :=
  ((Step.contain (.perform i.operation) raising).run.runOn session).1

/-- Whether an answer is of the type that an operation declares. -/
def Declares : Intrinsic → Answer → Prop
  | digest algorithm _, answer => ∃ c, answer = .datum (.checksum algorithm.kind c)
  | recoverKey _ _, answer => ∃ key, answer = .datum (.publicKey key)
  | assertDigest _ _ _, answer | assertRecoverKey _ _ _, answer => answer = .datum .nothing
  | verifyRsa _ _ _ _, answer | verifyRsaRaw _ _ _ _ _, answer => ∃ b, answer = .datum (.truth b)

/-- How a unit of execution ends that was not told to raise, by what the host answered or failed
    with. -/
inductive Ends (i : Intrinsic) (strict : Bool) :
    Except Failure Datum → Except Failure Answer → Prop where
  /-- A reply that can be used is answered. -/
  | answered {reply answer} (hreads : i.Reads strict reply answer) (hdeclares : i.Declares answer) :
      Ends i strict (.ok reply) (.ok (.contained (.ok answer)))
  /-- Any other reply is the fault of the host. -/
  | unusable {reply d} (hnone : ∀ answer, ¬ i.Reads strict reply answer)
      (hheld : reply ≠ .released) (hd : d.IsHostFault) :
      Ends i strict (.ok reply) (.ok (.contained (.error d)))
  /-- Of a released view, what it fails with escapes. -/
  | released (hnone : ∀ answer, ¬ i.Reads strict .released answer) :
      Ends i strict (.ok .released) (.error (.stray .value "*"))
  /-- The host's own fatal fault is reported as it is. -/
  | aborted {f} (hfatal : f.isFatal = true) :
      Ends i strict (.error (.fault f)) (.ok (.contained (.error f)))
  /-- Rejected input is not verified. -/
  | unverified {f} (hinput : f.family = .invalidInput) (hverdict : i.asksVerdict = true) :
      Ends i strict (.error (.fault f)) (.ok (.contained (.ok (.datum (.truth false)))))
  /-- Where no verdict is asked for, the rejection escapes as it is. -/
  | refused {f} (hinput : f.family = .invalidInput) (hverdict : i.asksVerdict = false) :
      Ends i strict (.error (.fault f)) (.error (.fault f))
  /-- Where there is no message about a failure, that is what escapes. -/
  | untold {name reason} :
      Ends i strict (.error (.untold name reason)) (.error (.stray reason.kind "*"))
  /-- Any other failure is the fault of the host. -/
  | blamed {failure d} (hblamed : failure.IsBlamed) (hd : d.IsHostFault) :
      Ends i strict (.error failure) (.ok (.contained (.error d)))

/-- What escapes a unit of execution, by what the host answered or failed with: a rejection of the
    input where no verdict is asked for, the failure of a released view that is read, and that there
    is no message about the host's failure. -/
inductive Escapes (i : Intrinsic) (strict : Bool) : Except Failure Datum → Failure → Prop where
  | refused {f} (hinput : f.family = .invalidInput) (hverdict : i.asksVerdict = false) :
      Escapes i strict (.error (.fault f)) (.fault f)
  | released (hnone : ∀ answer, ¬ i.Reads strict .released answer) :
      Escapes i strict (.ok .released) (.stray .value "*")
  | untold {name reason} :
      Escapes i strict (.error (.untold name reason)) (.stray reason.kind "*")

theorem Reads.declares {i : Intrinsic} {strict : Bool} {reply : Datum} {answer : Answer}
    (hreads : i.Reads strict reply answer) : i.Declares answer := by
  cases hreads with
  | digest c hreply => exact ⟨c, rfl⟩
  | recoverKey key hreply hkey => exact ⟨key, rfl⟩
  | assertDigest => rfl
  | assertRecoverKey => rfl
  | verifyRsa hreply => exact ⟨_, rfl⟩
  | verifyRsaRaw hreply => exact ⟨_, rfl⟩

theorem Ends.escapes_iff {i : Intrinsic} {strict : Bool} {reply : Except Failure Datum}
    {ended : Except Failure Answer} (hends : i.Ends strict reply ended) (failure : Failure) :
    ended = .error failure ↔ i.Escapes strict reply failure := by
  constructor
  · rintro rfl
    cases hends with
    | released hnone => exact .released hnone
    | refused hinput hverdict => exact .refused hinput hverdict
    | untold => exact .untold
  · intro hescapes
    cases hescapes with
    | refused hinput hverdict =>
      cases hends with
      | aborted hfatal =>
        rw [Fault.isFatal_of_invalidInput hinput] at hfatal
        cases hfatal
      | unverified _ hasks =>
        rw [hverdict] at hasks
        cases hasks
      | refused => rfl
      | blamed hblamed hd => exact absurd hinput (hblamed.not_passing _ rfl).2
    | released hnone =>
      cases hends with
      | answered hreads hdeclares => exact absurd hreads (hnone _)
      | unusable _ hheld hd => exact absurd rfl hheld
      | released => rfl
    | untold =>
      cases hends with
      | untold => rfl
      | blamed hblamed hd => exact absurd rfl (hblamed.isTold _ _)

theorem Ends.isFatal {i : Intrinsic} {strict : Bool} {reply : Except Failure Datum} {d : Fault}
    (hends : i.Ends strict reply (.ok (.contained (.error d)))) : d.isFatal = true := by
  cases hends with
  | unusable hnone hheld hd => exact hd.isFatal
  | aborted hfatal => exact hfatal
  | blamed hblamed hd => exact hd.isFatal

section Execution

variable {i : Intrinsic} {session : Session}

theorem executed_of_ok {answer : Answer} (raising : Bool)
    (hrun : (i.operation.run.runOn session).1 = .ok answer) :
    i.executed raising session = .ok (.contained (.ok answer)) := by
  rw [executed, Step.run, Session.contain, runOn_bind, runOn_attempt]
  dsimp only
  rw [Step.run, hrun]
  rfl

theorem executed_of_fatal {f : Fault} (raising : Bool)
    (hrun : (i.operation.run.runOn session).1 = .error (.fault f)) (hfatal : f.isFatal = true) :
    i.executed raising session =
      if raising then .error (.aborted f) else .ok (.contained (.error f)) := by
  rw [executed, Step.run, Session.contain, runOn_bind, runOn_attempt]
  dsimp only
  rw [Step.run, hrun]
  simp only [hfatal, Bool.not_true, Bool.false_eq_true, if_false]
  cases raising <;> rfl

theorem executed_of_recoverable {failure : Failure} (raising : Bool)
    (hrun : (i.operation.run.runOn session).1 = .error failure)
    (hrecoverable : ∀ f, failure = .fault f → f.isFatal = false) :
    i.executed raising session = .error failure := by
  rw [executed, Step.run, Session.contain, runOn_bind, runOn_attempt]
  dsimp only
  rw [Step.run, hrun]
  cases failure with
  | fault f =>
    simp only [hrecoverable f rfl, Bool.not_false, if_true]
    rfl
  | _ => rfl

end Execution

section Outcome

variable {i : Intrinsic} {arguments : List Datum} {session : Session}

/-- A reply is used for the answer, or else it is seen what is wrong with it. -/
theorem uses_of_reply (hrequest : i.request = .ok arguments) (hready : session.Ready)
    {reply : Datum} (hreply : session.answer i.method arguments = .ok reply) :
    i.Uses session.policyInForce.strictVarint reply (i.operation.run.runOn session).1 := by
  obtain ⟨outcome, later, hrun, -, huses⟩ :=
    i.runOn_conclude_ok reply (session.called i.method arguments)
  rw [runOn_operation_of_ok hrequest hready, returned_of_ok hreply, hrun]
  rw [policyInForce_called] at huses
  exact huses

theorem outcome_of_fatal (hrequest : i.request = .ok arguments) (hready : session.Ready)
    {f : Fault} (hreply : session.answer i.method arguments = .error (.fault f))
    (hfatal : f.isFatal = true) :
    (i.operation.run.runOn session).1 = .error (.fault f) := by
  rw [runOn_operation_of_ok hrequest hready, returned_of_error hreply,
    atBoundary_of_passing _ _ (.inl hfatal), runOn_conclude_fault, if_neg]
  rintro ⟨-, hinput⟩
  rw [Fault.isFatal_of_invalidInput hinput] at hfatal
  cases hfatal

theorem outcome_of_invalidInput (hrequest : i.request = .ok arguments) (hready : session.Ready)
    {f : Fault} (hreply : session.answer i.method arguments = .error (.fault f))
    (hinput : f.family = .invalidInput) :
    (i.operation.run.runOn session).1 =
      if i.asksVerdict = true then .ok (.datum (.truth false)) else .error (.fault f) := by
  rw [runOn_operation_of_ok hrequest hready, returned_of_error hreply,
    atBoundary_of_passing _ _ (.inr hinput), runOn_conclude_fault]
  simp only [hinput, and_true]

/-- A failure without a message leaves only that to be said. -/
theorem outcome_of_untold (hrequest : i.request = .ok arguments) (hready : session.Ready)
    {name : String} {reason : Untold}
    (hreply : session.answer i.method arguments = .error (.untold name reason)) :
    (i.operation.run.runOn session).1 = .error (.stray reason.kind "*") := by
  rw [runOn_operation_of_ok hrequest hready, returned_of_error hreply, atBoundary,
    runOn_conclude_stray]

/-- The host is to blame for a failure of any other kind. -/
theorem outcome_of_isBlamed (hrequest : i.request = .ok arguments) (hready : session.Ready)
    {failure : Failure} (hreply : session.answer i.method arguments = .error failure)
    (hblamed : failure.IsBlamed) :
    ∃ d, d.IsHostFault ∧ (i.operation.run.runOn session).1 = .error (.fault d) := by
  obtain ⟨d, hd, hwrapped⟩ := atBoundary_of_isBlamed session.host i.method.name hblamed
  refine ⟨d, hd, ?_⟩
  rw [runOn_operation_of_ok hrequest hready, returned_of_error hreply, hwrapped,
    runOn_conclude_fault, if_neg]
  rintro ⟨-, hinput⟩
  rw [hd.1] at hinput
  cases hinput

end Outcome

section Execution

variable {i : Intrinsic} {arguments : List Datum} {session : Session}

/-- An operation whose arguments pass their checks ends in one of eight ways. -/
theorem ends_executed (hrequest : i.request = .ok arguments) (hready : session.Ready) :
    i.Ends session.policyInForce.strictVarint (session.answer i.method arguments)
      (i.executed false session) := by
  cases hreply : session.answer i.method arguments with
  | ok reply =>
    have huses := uses_of_reply hrequest hready hreply
    cases hrun : (i.operation.run.runOn session).1 with
    | ok answer =>
      rw [hrun] at huses
      rw [executed_of_ok false hrun]
      exact .answered huses huses.declares
    | error failure =>
      rw [hrun] at huses
      obtain ⟨hnone, hspoils⟩ := huses
      cases hspoils with
      | blamed hheld hd =>
        rw [executed_of_fatal false hrun hd.isFatal]
        exact .unusable hnone hheld hd
      | released =>
        rw [executed_of_recoverable false hrun (by simp)]
        exact .released hnone
  | error failure =>
    obtain ⟨f, rfl, hfatal⟩ | ⟨f, rfl, hinput⟩ | ⟨name, reason, rfl⟩ | hblamed :=
      failure.boundary_cases
    · rw [executed_of_fatal false (outcome_of_fatal hrequest hready hreply hfatal) hfatal]
      exact .aborted hfatal
    · have hrun := outcome_of_invalidInput hrequest hready hreply hinput
      cases hverdict : i.asksVerdict with
      | true =>
        rw [hverdict, if_pos rfl] at hrun
        rw [executed_of_ok false hrun]
        exact .unverified hinput hverdict
      | false =>
        rw [hverdict, if_neg (by decide)] at hrun
        rw [executed_of_recoverable false hrun]
        · exact .refused hinput hverdict
        · rintro _ ⟨⟩
          exact Fault.isFatal_of_invalidInput hinput
    · rw [executed_of_recoverable false (outcome_of_untold hrequest hready hreply) (by simp)]
      exact .untold
    · obtain ⟨d, hd, hrun⟩ := outcome_of_isBlamed hrequest hready hreply hblamed
      rw [executed_of_fatal false hrun hd.isFatal]
      exact .blamed hblamed hd

/-- Told to raise, a unit of execution that would report a fatal fault raises it, and any other one
    ends as it would. -/
theorem executed_raising (hrequest : i.request = .ok arguments) (hready : session.Ready) :
    (∃ d, i.executed false session = .ok (.contained (.error d)) ∧
      i.executed true session = .error (.aborted d)) ∨
    ((∀ d, i.executed false session ≠ .ok (.contained (.error d))) ∧
      (∀ d, i.executed false session ≠ .error (.aborted d)) ∧
      i.executed true session = i.executed false session) := by
  cases hrun : (i.operation.run.runOn session).1 with
  | ok answer =>
    rw [executed_of_ok true hrun, executed_of_ok false hrun]
    exact .inr ⟨nofun, nofun, rfl⟩
  | error failure =>
    by_cases hfatal : ∃ f, failure = .fault f ∧ f.isFatal = true
    · obtain ⟨f, rfl, hfatal⟩ := hfatal
      rw [executed_of_fatal true hrun hfatal, executed_of_fatal false hrun hfatal]
      exact .inl ⟨f, rfl, rfl⟩
    · have hrecoverable (f : Fault) (hf : failure = .fault f) : f.isFatal = false := by
        rw [← Bool.not_eq_true]
        intro hisFatal
        exact hfatal ⟨f, hf, hisFatal⟩
      -- What escapes is never the report of an earlier unit.
      have hended := executed_of_recoverable false hrun hrecoverable
      have hescapes := ((ends_executed hrequest hready).escapes_iff failure).1 hended
      rw [executed_of_recoverable true hrun hrecoverable, hended]
      refine .inr ⟨by simp, ?_, rfl⟩
      rintro d ⟨⟩
      generalize session.answer i.method arguments = reply at hescapes
      cases hescapes

end Execution

/-- Of an operation whose arguments pass their checks, three things escape a unit of execution: a
    rejection of the input, as the host raised it and where no verdict is asked for; the failure of
    a released view that is to be read; and that there is no message about what the host raised.
    Everything else is answered, or reported as a fatal fault: the host's own, or one that the host
    is to blame for. A unit that was told to raise does so exactly where such a fault would be
    reported. -/
theorem ends_and_raises (i : Intrinsic) (session : Session) {arguments : List Datum}
    (hrequest : i.request = .ok arguments) (hready : session.Ready) :
    i.Ends session.policyInForce.strictVarint (session.answer i.method arguments)
      (i.executed false session) ∧
    (∀ failure, i.executed false session = .error failure ↔
      i.Escapes session.policyInForce.strictVarint (session.answer i.method arguments) failure) ∧
    (∀ d, i.executed false session = .ok (.contained (.error d)) → d.isFatal = true) ∧
    (∀ d, i.executed true session = .error (.aborted d) ↔
      i.executed false session = .ok (.contained (.error d))) ∧
    ((∀ d, i.executed false session ≠ .ok (.contained (.error d))) →
      i.executed true session = i.executed false session) := by
  have hends := ends_executed hrequest hready
  refine ⟨hends, hends.escapes_iff, ?_, ?_, ?_⟩
  · intro d hended
    rw [hended] at hends
    exact hends.isFatal
  · intro d
    obtain ⟨e, hended, hraised⟩ | ⟨hnone, hnotAborted, hsame⟩ := executed_raising hrequest hready
    · rw [hended, hraised]
      constructor
      · intro hd
        cases hd
        rfl
      · intro hd
        cases hd
        rfl
    · rw [hsame]
      exact ⟨fun h => absurd h (hnotAborted d), fun h => absurd h (hnone d)⟩
  · intro hnone
    obtain ⟨e, hended, -⟩ | ⟨-, -, hsame⟩ := executed_raising hrequest hready
    · exact absurd hended (hnone e)
    · exact hsame

/-- A host that fails to read its own input is to blame for that, and no caller can go on. -/
theorem ends_and_raises_blamed :
    let session : Session :=
      { Session.start with
        active := some (Host.scripted none fun _ => .error (.fault (.of .decode "short" []))) }
    let i : Intrinsic := digest .sha256 (.text "abc")
    session.Ready ∧ (∃ arguments, i.request = .ok arguments) ∧
      ∃ d : Fault, d.IsHostFault ∧ i.executed true session = .error (.aborted d) := by
  intro session i
  have hready : session.Ready := Session.ready_of_scripted rfl
  have hrequest : i.request = .ok (crossing (.whole .text (Octets.ofText "abc"))) := rfl
  obtain ⟨hends, -, -, hraises, -⟩ := ends_and_raises i session hrequest hready
  refine ⟨hready, ⟨_, hrequest⟩, ?_⟩
  rw [answer_of_scripted rfl] at hends
  generalize hended : i.executed false session = ended at hends
  cases hends with
  | aborted hfatal => cases hfatal
  | unverified hinput => cases hinput
  | refused hinput => cases hinput
  | blamed hblamed hd => exact ⟨_, hd, (hraises _).2 hended⟩

/-- A host that raises an error about an integer of too many digits, and one that answers with a
    released view, make a plain error escape, although neither rejected the input. -/
theorem escapes_without_rejection :
    let under (answer : Except Failure Datum) : Session :=
      { Session.start with active := some (Host.scripted none fun _ => answer) }
    let i : Intrinsic := digest .sha256 (.text "abc")
    (∃ arguments, i.request = .ok arguments) ∧
    ∀ answer, answer = .error (.untold "ValueError" .tooLong) ∨ answer = .ok .released →
      (under answer).Ready ∧ i.executed false (under answer) = .error (.stray .value "*") ∧
        ∀ f arguments, (under answer).answer i.method arguments ≠ .error (.fault f) := by
  intro under i
  refine ⟨⟨crossing (.whole .text (Octets.ofText "abc")), rfl⟩, ?_⟩
  intro answer hanswer
  have hready : (under answer).Ready := Session.ready_of_scripted rfl
  obtain rfl | rfl := hanswer
  · refine ⟨hready, rfl, fun f arguments => ?_⟩
    rw [answer_of_scripted rfl]
    simp
  · refine ⟨hready, rfl, fun f arguments => ?_⟩
    rw [answer_of_scripted rfl]
    simp

end CryptoIntrinsics.Intrinsic
