import CryptoIntrinsics.Fault
import CryptoIntrinsics.Policy

namespace CryptoIntrinsics

/-- What a method does with its arguments: it answers at once, or by the policy in force. -/
inductive Response where
  | now (reply : Except Failure Datum)
  | byPolicy (reply : Policy → Except Failure Datum)

inductive Member where
  | absent
  | inert
  | method (respond : List Datum → Response)

structure Host where
  /-- The name by which a session refers to it. -/
  label : Option String
  /-- Tells apart hosts of one session. -/
  serial : Nat
  className : String
  shown : String
  /-- Whether it can be asked for the calls it received. -/
  tellsCalls : Bool
  /-- What it has under each name. -/
  member : String → Member

def Member.isPresent : Member → Bool
  | absent => false
  | _ => true

def Member.isMethod : Member → Bool
  | method _ => true
  | _ => false

namespace Host

/-- The boundary methods that cannot be called on the object, in their order. -/
def missing (host : Host) : List Method :=
  Method.all.filter fun m => !(host.member m.name).isMethod

def isComplete (host : Host) : Bool := host.missing.isEmpty

def looksComplete (host : Host) : Bool :=
  Method.all.all fun m => (host.member m.name).isPresent

/-- What one call of an object's method or other member does. -/
def respond (host : Host) (name : String) (args : List Datum) : Response :=
  match host.member name with
  | .method run => run args
  | _ => .now (.error .badType)

/-- A host with a set answer for each method, whatever the arguments. -/
def scripted (label : Option String) (answer : Method → Except Failure Datum) : Host where
  label := label
  serial := 0
  className := "FakeHost"
  shown := "FakeHost"
  tellsCalls := true
  member name :=
    match Method.ofName? name with
    | some m => .method fun _ => .now (answer m)
    | none => .absent

/-- An object with the given methods, which answer nothing, and the given other members. -/
def partially (label : Option String) (methods members : List String) : Host where
  label := label
  serial := 0
  className := "Partial"
  shown := "Partial"
  tellsCalls := false
  member name :=
    if members.contains name then .inert
    else if methods.contains name then .method fun _ => .now (.ok .nothing)
    else .absent

theorem isComplete_iff (host : Host) :
    host.isComplete = true ↔ ∀ m : Method, (host.member m.name).isMethod = true := by
  simp only [isComplete, missing, List.isEmpty_iff, List.filter_eq_nil_iff, Bool.not_eq_true',
    Bool.not_eq_false]
  exact ⟨fun h m => h m (Method.mem_all m), fun h m _ => h m⟩

end Host

end CryptoIntrinsics
