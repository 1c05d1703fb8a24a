import CryptoIntrinsics.Proofs.Field.Identity
import Mathlib.Data.Prod.Lex
import Mathlib.Order.RelIso.Basic

namespace CryptoIntrinsics.Field

def Kind.number : Kind → Nat
  | .checksum .empty => 0
  | .checksum .bits160 => 1
  | .checksum .bits256 => 2
  | .checksum .bits512 => 3
  | .credential .publicKey => 4
  | .credential .signature => 5

def tag : Field → Nat
  | credential value => value.tag
  | checksum _ => 0

def data : Field → Octets
  | credential value => value.data
  | checksum value => value.data

def rank (v : Field) : Datum.Rank := ⟨v.kind.number, v.tag, v.data⟩

instance : DecidableEq Field := fun _ _ => decidable_of_iff _ eq_iff_serialize_eq.symm

/-- The tag, as a number, and the data: what tells values of one kind apart. -/
def key (v : Field) : Nat × Octets := (v.tag, v.data)

/-- The value comes before another one in the lexicographic order of tags and data. -/
def Before (v w : Field) : Prop := Prod.Lex (· < ·) (· < ·) v.key w.key

instance (v w : Field) : Decidable (v.Before w) := inferInstanceAs (Decidable (Prod.Lex _ _ _ _))

variable {u v w : Field}

section Rank

theorem Kind.number_inj {kind other : Kind} : kind.number = other.number ↔ kind = other := by
  constructor
  · intro hnumber
    obtain (kind | kind) := kind <;> obtain (other | other) := other <;>
      cases kind <;> cases other <;> first | rfl | cases hnumber
  · rintro rfl
    rfl

theorem rank?_toDatum (v : Field) : v.toDatum.rank? = some v.rank := by
  cases v with
  | @credential kind value => cases kind <;> rfl
  | @checksum kind value => cases kind <;> rfl

theorem number?_toDatum (v : Field) : v.toDatum.number? = none := by
  cases v with
  | @credential kind value => cases kind <;> rfl
  | @checksum kind value => rfl

/-- Of one kind, the tag and the data determine the value. -/
theorem eq_of_key (hkind : v.kind = w.kind) (hkey : v.key = w.key) : v = w := by
  obtain ⟨htag, hdata⟩ := Prod.mk.inj hkey
  cases w with
  | credential d =>
    obtain ⟨c, rfl⟩ := exists_credential hkind
    rw [Credential.ext htag hdata]
  | checksum d =>
    obtain ⟨c, rfl⟩ := exists_checksum hkind
    rw [Checksum.ext hdata]

theorem rank_inj : v.rank = w.rank ↔ v = w := by
  constructor
  · intro hrank
    obtain ⟨hnumber, htag, hdata⟩ := Datum.Rank.mk.inj hrank
    exact eq_of_key (Kind.number_inj.1 hnumber) (Prod.ext htag hdata)
  · rintro rfl
    rfl

theorem precedes_rank : v.rank.precedes w.rank = decide (v.Before w) := by
  rw [Bool.eq_iff_iff, decide_eq_true_eq, Before, Prod.lex_def]
  change (decide (v.tag < w.tag) || v.tag == w.tag && decide (v.data < w.data)) = true ↔ _
  simp only [key, Bool.or_eq_true, Bool.and_eq_true, decide_eq_true_eq, beq_iff_eq]

theorem equal_toDatum (v w : Field) : v.toDatum.equal w.toDatum = decide (v = w) := by
  have hplain : v.toDatum.equal w.toDatum = Datum.equalPlain v.toDatum w.toDatum := by
    cases v with
    | @credential kind value => cases kind <;> rfl
    | @checksum kind value => rfl
  rw [hplain, Datum.equalPlain.eq_def, number?_toDatum, rank?_toDatum, rank?_toDatum,
    Bool.eq_iff_iff, decide_eq_true_eq, ← rank_inj]
  exact beq_iff_eq

theorem before?_toDatum (v w : Field) :
    v.toDatum.before? w.toDatum = if v.kind = w.kind then some (decide (v.Before w)) else none := by
  have hplain : v.toDatum.before? w.toDatum = Datum.beforePlain? v.toDatum w.toDatum := by
    cases v with
    | @credential kind value => cases kind <;> rfl
    | @checksum kind value => rfl
  rw [hplain, Datum.beforePlain?.eq_def, number?_toDatum, rank?_toDatum, rank?_toDatum,
    ← precedes_rank]
  exact if_congr Kind.number_inj rfl rfl

theorem fingerprint_toDatum (v : Field) : v.toDatum.fingerprint = .ok (.rank v.rank) := by
  cases v with
  | @credential kind value => cases kind <;> rfl
  | @checksum kind value => cases kind <;> rfl

end Rank

section Order

instance : IsStrictTotalOrder Octets (· < ·) where

instance : IsStrictTotalOrder (Nat × Octets) (Prod.Lex (· < ·) (· < ·)) where

/-- Of two different values of one kind, one comes before the other. -/
theorem isStrictTotalOrder_before (kind : Kind) :
    IsStrictTotalOrder {v : Field // v.kind = kind} fun v w => v.1.Before w.1 := by
  have hkey : Function.Injective fun v : {v : Field // v.kind = kind} => v.1.key :=
    fun v w hsame => Subtype.ext (eq_of_key (v.2.trans w.2.symm) hsame)
  exact (RelEmbedding.preimage ⟨_, hkey⟩ (Prod.Lex (· < ·) (· < ·))).isStrictTotalOrder

theorem not_before_trans (hfirst : ¬ v.Before u) (hsecond : ¬ w.Before v) : ¬ w.Before u :=
  IsOrderConnected.neg_trans (r := Prod.Lex (· < ·) (· < ·)) hsecond hfirst

theorem Before.asymm (hbefore : v.Before w) : ¬ w.Before v :=
  asymm_of (Prod.Lex (· < ·) (· < ·)) hbefore

theorem eq_of_not_before (hkind : v.kind = w.kind) (hnot : ¬ v.Before w) (hnor : ¬ w.Before v) :
    v = w :=
  eq_of_key hkind (Std.Trichotomous.trichotomous v.key w.key hnot hnor)

def sorted (values : List Field) : List Field := values.mergeSort fun v w => !decide (w.Before v)

variable {values others : List Field}

theorem pairwise_sorted (values : List Field) :
    (sorted values).Pairwise fun v w => ¬ w.Before v := by
  have hpairwise : (sorted values).Pairwise fun v w => (!decide (w.Before v)) = true := by
    apply List.pairwise_mergeSort
    · intro u v w hfirst hsecond
      simp only [Bool.not_eq_true', decide_eq_false_iff_not] at hfirst hsecond ⊢
      exact not_before_trans hfirst hsecond
    · intro v w
      simp only [Bool.or_eq_true, Bool.not_eq_true', decide_eq_false_iff_not]
      exact Decidable.not_or_of_imp fun hbefore => hbefore.asymm
  simpa only [Bool.not_eq_true', decide_eq_false_iff_not] using hpairwise

theorem perm_sorted (values : List Field) : (sorted values).Perm values :=
  List.mergeSort_perm values _

/-- In ascending order there is only one list of the same values. -/
theorem eq_of_pairwise {kind : Kind} (hkinds : ∀ v ∈ values, v.kind = kind)
    (hperm : values.Perm others) (hvalues : values.Pairwise fun v w => ¬ w.Before v)
    (hothers : others.Pairwise fun v w => ¬ w.Before v) : values = others := by
  refine List.Perm.eq_of_pairwise ?_ hvalues hothers hperm
  intro v w hv hw hnor hnot
  exact eq_of_not_before ((hkinds v hv).trans (hkinds w (hperm.mem_iff.2 hw)).symm) hnot hnor

theorem sorted_eq_of_perm {kind : Kind} (hkinds : ∀ v ∈ values, v.kind = kind)
    (hperm : values.Perm others) : sorted values = sorted others := by
  have hkinds' : ∀ v ∈ sorted values, v.kind = kind := fun v hv =>
    hkinds v ((perm_sorted values).mem_iff.1 hv)
  exact eq_of_pairwise hkinds' ((perm_sorted values).trans (hperm.trans (perm_sorted others).symm))
    (pairwise_sorted values) (pairwise_sorted others)

theorem mapM_rank?_toDatum (values : List Field) :
    (values.map toDatum).mapM Datum.rank? = some (values.map rank) := by
  have hranks : Datum.rank? ∘ toDatum = fun v => pure (rank v) := funext rank?_toDatum
  rw [List.mapM_map, hranks, List.mapM_pure]
  rfl

theorem sort?_map_toDatum {kind : Kind} (hkinds : ∀ v ∈ values, v.kind = kind) :
    Datum.sort? (values.map toDatum) = some ((sorted values).map toDatum) := by
  cases values with
  | nil => simp [Datum.sort?, Datum.sameRank, Datum.arrange?, sorted]
  | cons first rest =>
    obtain ⟨hfirst, hrest⟩ := List.forall_mem_cons.1 hkinds
    have hsame : Datum.sameRank ((first :: rest).map toDatum) = true := by
      rw [Datum.sameRank, mapM_rank?_toDatum]
      change (rest.map rank).all (·.kind == first.rank.kind) = true
      rw [List.all_map, List.all_eq_true]
      intro v hv
      exact beq_iff_eq.2 (Kind.number_inj.2 ((hrest v hv).trans hfirst.symm))
    rw [Datum.sort?, if_pos hsame, sorted, List.map_mergeSort]
    intro v hv w hw
    rw [before?_toDatum, if_pos ((hkinds w hw).trans (hkinds v hv).symm)]
    cases decide (w.Before v) <;> rfl

end Order

end CryptoIntrinsics.Field
