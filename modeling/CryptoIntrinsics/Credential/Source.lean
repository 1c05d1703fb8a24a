import CryptoIntrinsics.Checksum.Source

namespace CryptoIntrinsics

namespace Curve

def ofDatum (tag : Datum) : Except Failure Curve :=
  match tag.number? with
  | none => .error .badType
  | some x =>
    if x.precedes (.integer 0) then .error (.misuse (.negativeTag tag))
    else if x.equal (.integer 0) then .ok k1
    else if x.equal (.integer 1) then .ok r1
    else .ok unknown

end Curve

namespace Credential

variable (kind : Kind)

abbrev Tag := { tag : Nat // tag ≤ Varint.maxTag }

/-- The tag that a value names: a known curve, or an integer of 32 bits. -/
def tagOf (d : Datum) : Except Failure Tag :=
  match d with
  | .curve .k1 => .ok ⟨0, by decide⟩
  | .curve .r1 => .ok ⟨1, by decide⟩
  | .curve .unknown => .error (.misuse .abstractTag)
  | .integer n =>
    if h : 0 ≤ n ∧ n.toNat ≤ Varint.maxTag then .ok ⟨n.toNat, h.2⟩
    else .error (.misuse (.tagOutOfRange n))
  | _ => .error (.misuse (.tagNotInteger d.typeName))

/-- A result whose flaw is a failure of its own, of what was read at an offset. -/
def settleAt {α : Type} (offset : Datum) : Except Flaw α → Except Failure α
  | .ok value => .ok value
  | .error flaw => .error (flaw.failure offset)

def settle {α : Type} : Except Flaw α → Except Failure α := settleAt (.integer 0)

/-- The key or signature with a tag and a payload. The tag is looked at first. -/
def ofData (tag data : Datum) : Except Failure (Credential kind) := do
  let t ← tagOf tag
  match data.bytesLike? with
  | none => .error (data.refusal (.bytesExpected kind.name data.typeName))
  | some bytes => settle (ofParts kind t.1 t.2 bytes)

def toDatum : {kind : Kind} → Credential kind → Datum
  | .publicKey, key => .publicKey key
  | .signature, sig => .signature sig

def signatureOf (argument : String) : Datum → Except Failure Signature
  | .signature s => .ok s
  | d => .error (.misuse (.wrongKind argument Kind.signature.name d.typeName))

def publicKeyOf (argument : String) : Datum → Except Failure PublicKey
  | .publicKey k => .ok k
  | d => .error (.misuse (.wrongKind argument Kind.publicKey.name d.typeName))

end Credential

end CryptoIntrinsics
