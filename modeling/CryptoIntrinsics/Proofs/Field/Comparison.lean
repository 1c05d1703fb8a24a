import CryptoIntrinsics.Proofs.Field.Order
import CryptoIntrinsics.Proofs.Varint.Reading
import Mathlib.Data.Finset.Card

namespace CryptoIntrinsics.Field

variable {v w : Field}

section Distinct

/-- The value with its fingerprint. -/
def marked (v : Field) : Datum.Fingerprint × Datum := (.rank v.rank, v.toDatum)

theorem agrees_rank (v w : Field) :
    Datum.Fingerprint.agrees (.rank v.rank) (.rank w.rank) = decide (v = w) := by
  have hrank : Datum.Fingerprint.rank v.rank = .rank w.rank ↔ v = w := by
    rw [Datum.Fingerprint.rank.injEq, rank_inj]
  have hunique : (Datum.Fingerprint.rank v.rank != .unique) = true := rfl
  rw [Datum.Fingerprint.agrees, hunique, Bool.and_true, Bool.eq_iff_iff, beq_iff_eq,
    decide_eq_true_eq, hrank]

/-- Values with their fingerprints are collected as the values are. -/
theorem collect_marked (seen : List Field) (v : Field) :
    (if (seen.map marked).any fun (other, w) =>
        (marked v).1.agrees other && w.equal (marked v).2
      then seen.map marked else marked v :: seen.map marked) = (seen.insert v).map marked := by
  have hany : ((seen.map marked).any fun (other, w) =>
      (marked v).1.agrees other && w.equal (marked v).2) = seen.elem v := by
    rw [List.any_map, Bool.eq_iff_iff, List.any_eq_true, List.elem_iff]
    simp only [Function.comp, marked, agrees_rank, equal_toDatum, Bool.and_eq_true,
      decide_eq_true_eq]
    constructor
    · rintro ⟨w, hw, rfl, -⟩
      exact hw
    · exact fun hv => ⟨v, hv, rfl, rfl⟩
  rw [hany, List.insert]
  split <;> rfl

/-- The values of a list, each of them once. -/
def distinct (values : List Field) : List Field := values.foldl (fun seen v => seen.insert v) []

theorem card_toFinset (values : List Field) : values.toFinset.card = (distinct values).length := by
  have hunion : distinct values = values.reverse ∪ [] := List.foldl_eq_foldr_reverse
  have hnodup : (distinct values).Nodup := by
    rw [hunion]
    exact List.Nodup.union _ List.nodup_nil
  have hset : values.toFinset = (distinct values).toFinset := by
    rw [hunion, List.toFinset_union, List.toFinset_reverse, List.toFinset_nil, Finset.union_empty]
  rw [hset, List.toFinset_card_of_nodup hnodup]

theorem countDistinct_map_toDatum (values : List Field) :
    Datum.countDistinct (values.map toDatum) = .ok values.toFinset.card := by
  have hmarked : ((values.map toDatum).mapM fun d => do return (← Datum.fingerprint d, d)) =
      (.ok (values.map marked) : Except Failure _) := by
    have hmark : (fun d => do return (← Datum.fingerprint d, d)) ∘ toDatum =
        fun v => (pure (marked v) : Except Failure _) := by
      funext v
      rw [Function.comp, fingerprint_toDatum]
      rfl
    rw [List.mapM_map, hmark, List.mapM_pure]
    rfl
  rw [Datum.countDistinct, hmarked, card_toFinset, ← List.length_map marked]
  change Except.ok (List.length (List.foldl _ ([].map marked) (values.map marked))) = _
  rw [List.foldl_map]
  refine congrArg (fun seen => Except.ok seen.length) (List.foldl_hom (List.map marked) ?_)
  exact collect_marked

end Distinct

section Operations

open Procedure

/-- What comparing two values says. -/
def comparison (v w : Field) : Comparison :=
  let ordered (verdict : Bool) : Option Bool := if v.kind = w.kind then some verdict else none
  ⟨decide (v = w), ordered (decide (v.Before w)), ordered (decide (v.Before w ∨ v = w)),
    ordered (decide (w.Before v)), ordered (decide (w.Before v ∨ v = w)), decide (v = w)⟩

theorem outcome_compare (v w : Field) (session : Session) :
    (Operation.compare v.toDatum w.toDatum).outcome session = .ok (.compared (comparison v w)) := by
  have hcompared : Comparison.of v.toDatum w.toDatum = .ok (comparison v w) := by
    rw [Comparison.of, fingerprint_toDatum, fingerprint_toDatum, before?_toDatum, before?_toDatum,
      equal_toDatum]
    simp only [bind, Except.bind, pure, Except.pure, agrees_rank, comparison, eq_comm (a := w.kind)]
    split <;> simp
  rw [Operation.outcome, Operation.run, runOn_demand_bind, hcompared]
  rfl

theorem beq_eq_decide_credential {kind : Credential.Kind} (c d : Credential kind) :
    (c == d) = decide (credential c = credential d) := by
  rw [Bool.eq_iff_iff, beq_iff_eq, decide_eq_true_eq]
  constructor
  · rintro rfl
    rfl
  · rintro ⟨⟩
    rfl

theorem outcome_equals {kind other : Credential.Kind} (c : Credential kind) (d : Credential other)
    (session : Session) :
    (Operation.equals c.toDatum d.toDatum).outcome session =
      .ok (.datum (.truth (decide (credential c = credential d)))) := by
  have hequals : Operation.equals? c.toDatum d.toDatum =
      .ok (decide (credential c = credential d)) := by
    cases kind with
    | publicKey =>
      cases other with
      | publicKey => exact congrArg Except.ok (beq_eq_decide_credential c d)
      | signature => rfl
    | signature =>
      cases other with
      | publicKey => rfl
      | signature => exact congrArg Except.ok (beq_eq_decide_credential c d)
  rw [Operation.outcome, Operation.run, runOn_demand_bind, hequals]
  rfl

theorem members_list (items : List Datum) : (Datum.list items).members = .ok items := rfl

theorem outcome_sort {kind : Kind} {values : List Field} (hkinds : ∀ v ∈ values, v.kind = kind)
    (session : Session) :
    (Operation.sort (.list (values.map toDatum))).outcome session =
      .ok (.datum (.list ((sorted values).map toDatum))) := by
  rw [Operation.outcome, Operation.run, runOn_demand_bind, members_list]
  dsimp only
  rw [sort?_map_toDatum hkinds]
  rfl

theorem outcome_sort_of_kind_ne (hkinds : v.kind ≠ w.kind) (session : Session) :
    (Operation.sort (.list [v.toDatum, w.toDatum])).outcome session = .error .badType := by
  have hother : Datum.sameRank [v.toDatum, w.toDatum] = false := by
    have hranks : [v.toDatum, w.toDatum].mapM Datum.rank? = some [v.rank, w.rank] :=
      mapM_rank?_toDatum [v, w]
    have hnumber : w.rank.kind ≠ v.rank.kind := fun hsame => hkinds (Kind.number_inj.1 hsame).symm
    rw [Datum.sameRank, hranks]
    simp [hnumber]
  have hnone : w.toDatum.before? v.toDatum = none := by
    rw [before?_toDatum, if_neg (Ne.symm hkinds)]
  have hsort : Datum.sort? [v.toDatum, w.toDatum] = none := by
    rw [Datum.sort?, hother, if_neg Bool.false_ne_true, Datum.arrange?, hnone]
    rfl
  rw [Operation.outcome, Operation.run, runOn_demand_bind, members_list]
  dsimp only
  rw [hsort]
  rfl

theorem outcome_countDistinct (values : List Field) (session : Session) :
    (Operation.countDistinct (.list (values.map toDatum))).outcome session =
      .ok (.datum (.integer values.toFinset.card)) := by
  rw [Operation.outcome, Operation.run, runOn_demand_bind, members_list]
  dsimp only
  rw [runOn_demand_bind, countDistinct_map_toDatum]
  rfl

end Operations

theorem card_map_serialize (values : List Field) :
    (values.map fun v => (v.kind, v.serialize)).toFinset.card = values.toFinset.card := by
  have hinjective : Function.Injective fun v : Field => (v.kind, v.serialize) := fun v w hsame =>
    eq_iff_serialize_eq.2 (Prod.mk.inj hsame)
  rw [List.card_toFinset, List.card_toFinset, List.dedup_map_of_injective hinjective,
    List.length_map]

/-- Two values are equal if they are of one kind and have the same encoding, which `equals` says of
    keys and signatures, too; and their fingerprints agree then. Values of one kind are ordered
    strictly and totally by their tags, as numbers, and then by their data, and lists of them are
    sorted into the only ascending list, however they stood before. Values of different kinds have
    no order. In any list, as many are distinct as there are pairs of a kind and an encoding. -/
theorem compare_coherent (session : Session) :
    (∀ v w : Field, ∃ c : Comparison,
      (Operation.compare v.toDatum w.toDatum).outcome session = .ok (.compared c) ∧
      (c.equal = true ↔ v.kind = w.kind ∧ v.serialize = w.serialize) ∧
      (c.equal = true → c.sameFingerprint = true) ∧
      (v.kind = w.kind →
        c.before = some (decide (v.Before w)) ∧ c.notAfter = some (decide (v.Before w ∨ v = w)) ∧
        c.after = some (decide (w.Before v)) ∧ c.notBefore = some (decide (w.Before v ∨ v = w))) ∧
      (v.kind ≠ w.kind →
        c.before = none ∧ c.notAfter = none ∧ c.after = none ∧ c.notBefore = none ∧
        (Operation.sort (.list [v.toDatum, w.toDatum])).outcome session = .error .badType)) ∧
    (∀ (kind other : Credential.Kind) (c : Credential kind) (d : Credential other), ∃ verdict,
      (Operation.equals c.toDatum d.toDatum).outcome session = .ok (.datum (.truth verdict)) ∧
      (verdict = true ↔ kind = other ∧ c.serialize = d.serialize)) ∧
    (∀ kind : Kind, IsStrictTotalOrder {v : Field // v.kind = kind} fun v w => v.1.Before w.1) ∧
    (∀ (kind : Kind) (values : List Field), (∀ v ∈ values, v.kind = kind) →
      ∃ ascending : List Field, ascending.Perm values ∧
        ascending.Pairwise (fun v w => ¬ w.Before v) ∧
        (∀ others : List Field, others.Perm values → others.Pairwise (fun v w => ¬ w.Before v) →
          others = ascending) ∧
        ∀ reordered : List Field, reordered.Perm values →
          (Operation.sort (.list (reordered.map toDatum))).outcome session =
            .ok (.datum (.list (ascending.map toDatum)))) ∧
    ∀ values : List Field,
      (Operation.countDistinct (.list (values.map toDatum))).outcome session =
        .ok (.datum (.integer (values.map fun v => (v.kind, v.serialize)).toFinset.card)) := by
  refine ⟨fun v w => ⟨comparison v w, outcome_compare v w session, ?_, ?_, ?_, ?_⟩, ?_,
    isStrictTotalOrder_before, ?_, ?_⟩
  · rw [← eq_iff_serialize_eq]
    exact decide_eq_true_iff
  · exact id
  · intro hkind
    simp only [comparison, if_pos hkind, and_self]
  · intro hkind
    simp only [comparison, if_neg hkind, true_and]
    exact outcome_sort_of_kind_ne hkind session
  · intro kind other c d
    refine ⟨_, outcome_equals c d session, ?_⟩
    rw [decide_eq_true_iff, eq_iff_serialize_eq]
    exact and_congr (iff_of_eq (Kind.credential.injEq kind other)) Iff.rfl
  · intro kind values hkinds
    refine ⟨sorted values, perm_sorted values, pairwise_sorted values, ?_, ?_⟩
    · intro others hperm hothers
      exact eq_of_pairwise (fun v hv => hkinds v (hperm.mem_iff.1 hv))
        (hperm.trans (perm_sorted values).symm) hothers (pairwise_sorted values)
    · intro reordered hperm
      rw [sorted_eq_of_perm hkinds hperm.symm]
      exact outcome_sort (fun v hv => hkinds v (hperm.mem_iff.1 hv)) session
  · intro values
    rw [card_map_serialize]
    exact outcome_countDistinct values session

/-- Tags are ordered as numbers, not as they are written. -/
example :
    let one : PublicKey := ⟨130, List.replicate 33 0, by decide, rfl⟩
    let other : PublicKey := ⟨256, List.replicate 33 0, by decide, rfl⟩
    (credential one).Before (credential other) ∧ other.serialize < one.serialize := by
  decide +kernel

end CryptoIntrinsics.Field
