import CryptoIntrinsics.CommandLine.Tool
import CryptoIntrinsics.Proofs.Credential.Canonical

namespace CryptoIntrinsics.CommandLine

open Procedure Session

def reported : Except Failure (Json × Nat) → Except Failure Ending
  | .ok (document, exitCode) => .ok (.report ⟨exitCode, document.render⟩)
  | .error (.fault f) =>
    match errorDocument? f with
    | some document => .ok (.report ⟨2, document.render⟩)
    | none => .error .badType
  | .error failure => .error failure

section Run

variable {read : String → Except FileFlaw Octets} {words : List String} {command : Command}

theorem runOn_run (hcommand : Command.ofWords words = .ok command) (session : Session) :
    (run read words).runOn session =
      (reported ((perform read command).runOn session).1,
        ((perform read command).runOn session).2) := by
  rw [run, hcommand]
  dsimp only
  rw [runOn_bind, runOn_attempt]
  obtain ⟨outcome, later⟩ := (perform read command).runOn session
  obtain failure | ⟨document, exitCode⟩ := outcome
  · cases failure with
    | fault f =>
      dsimp only [reported]
      cases errorDocument? f <;> rfl
    | _ => rfl
  · rfl

end Run

/-- Every value in the context of a fault has a document. -/
def IsDocumented (f : Fault) : Prop :=
  ∀ entry ∈ f.context, ∃ value, document? entry.2 = some value

def errorOf (f : Fault) (context : List (String × Json)) : Json :=
  .object [("error", .object
    [("code", .text f.code), ("message", .text f.message), ("fatal", .truth f.isFatal),
     ("context", .object context)])]

theorem exists_mapM {α β : Type} {make : α → Option β} {items : List α}
    (hitems : ∀ item ∈ items, ∃ made, make item = some made) :
    ∃ all, items.mapM make = some all := by
  induction items with
  | nil => exact ⟨[], rfl⟩
  | cons item items ih =>
    obtain ⟨hitem, hrest⟩ := List.forall_mem_cons.1 hitems
    obtain ⟨made, hmade⟩ := hitem
    obtain ⟨all, hall⟩ := ih hrest
    refine ⟨made :: all, ?_⟩
    rw [List.mapM_cons, hmade, hall]
    rfl

theorem exists_errorDocument {f : Fault} (hdocumented : IsDocumented f) :
    ∃ context, errorDocument? f = some (errorOf f context) := by
  simp only [errorDocument?, Option.bind_eq_bind, Option.bind_eq_some_iff]
  refine (exists_mapM ?_).imp fun context hcontext => ⟨context, hcontext, rfl⟩
  intro entry hentry
  obtain ⟨value, hvalue⟩ := hdocumented entry hentry
  exact ⟨(entry.1, value), by rw [hvalue]; rfl⟩

theorem reported_of_isDocumented {f : Fault} (hdocumented : IsDocumented f) :
    ∃ context, errorDocument? f = some (errorOf f context) ∧
      reported (.error (.fault f)) = .ok (.report ⟨2, (errorOf f context).render⟩) := by
  obtain ⟨context, hcontext⟩ := exists_errorDocument hdocumented
  refine ⟨context, hcontext, ?_⟩
  rw [reported, hcontext]

/-- What is malformed in the bytes of a key or signature is reported under one code. -/
theorem exists_fault_of_flaw {flaw : Credential.Flaw} (hflaw : flaw ≠ .outOfRange) :
    ∃ f, flaw.failure (.integer 0) = .fault f ∧ f.code = "decode_error" ∧ f.isFatal = false ∧
      IsDocumented f := by
  cases flaw with
  | outOfRange => exact absurd rfl hflaw
  | badHex => exact ⟨_, rfl, rfl, rfl, nofun⟩
  | badTag | truncated | trailing =>
    exact ⟨_, rfl, rfl, rfl, List.forall_mem_singleton.2 ⟨_, rfl⟩⟩
  | width =>
    exact ⟨_, rfl, rfl, rfl,
      List.forall_mem_cons.2 ⟨⟨_, rfl⟩, List.forall_mem_singleton.2 ⟨_, rfl⟩⟩⟩

end CryptoIntrinsics.CommandLine
