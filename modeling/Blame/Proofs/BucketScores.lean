import Blame.Proofs.Buckets

/-!
# The scores of the buckets

The buckets overlap: an atom is scored in each bucket with a root that explains it, but its share counts all
of its roots, whatever their reasons. So the atom adds to all scores together the number of its reasons over
the number of its roots (`Sound.sum_bucketScores`), which is at most one, and is one iff no two of its roots
have a reason in common.
-/

namespace Blame.Index

open Finset Number

/-- The reason of a root. -/
def reason? (ix : Index) (r : Atom) : Option Text := (ix.diagnostics.find? r).map (·.reason)

/-- The distinct reasons of the roots that explain an atom. -/
def reasonsBehind (ix : Index) (a : Atom) : Finset (Option Text) :=
  (ix.causesOf a).toFinset.image ix.reason?

/-- The atoms by which a bucket is scored: those in source that one of its roots explains. -/
def scoredFor (ix : Index) (reason : Text) : AtomSet :=
  ((ix.jointEffects (ix.rootsFor reason).toList).inter ix.indirect).inter ix.indirectInSource

/-- The indirect atoms in source that have a cause. -/
def explainedInSource (ix : Index) : AtomSet := ix.indirectInSource.filter fun a => 0 < ix.causeCount a

variable {ix : Index} {a : Atom} {reason : Text}

theorem mem_reasonsBehind {o : Option Text} :
    o ∈ ix.reasonsBehind a ↔ ∃ r ∈ ix.causesOf a, ix.reason? r = o := by
  simp [reasonsBehind]

theorem mem_explainedInSource :
    a ∈ ix.explainedInSource ↔ a ∈ ix.indirectInSource ∧ ∃ r, r ∈ ix.causesOf a := by
  rw [explainedInSource, AtomSet.mem_filter, decide_eq_true_eq, Nat.pos_iff_ne_zero,
    ← mem_explained_iff_causeCount, mem_explained]

theorem card_reasonsBehind_le (ix : Index) (a : Atom) : (ix.reasonsBehind a).card ≤ ix.causeCount a :=
  card_image_le.trans_eq (AtomSet.card_toFinset _)

theorem card_reasonsBehind_eq_iff :
    (ix.reasonsBehind a).card = ix.causeCount a ↔
      ∀ r ∈ ix.causesOf a, ∀ q ∈ ix.causesOf a, ix.reason? r = ix.reason? q → r = q := by
  have hcount : ix.causeCount a = (ix.causesOf a).toFinset.card := (AtomSet.card_toFinset _).symm
  rw [hcount, reasonsBehind, card_image_iff]
  simp only [Set.InjOn, mem_coe, AtomSet.mem_toFinset]

namespace Sound

theorem mem_scoredFor (h : ix.Sound) :
    a ∈ ix.scoredFor reason ↔ a ∈ ix.indirectInSource ∧ some reason ∈ ix.reasonsBehind a := by
  rw [scoredFor, h.inter_indirect_jointEffects, AtomSet.mem_inter, mem_jointEffects_rootsFor, and_comm,
    mem_reasonsBehind]
  simp only [h.effect_iff_cause]
  exact and_congr_right fun _ => exists_congr fun r => and_comm

theorem exists_reason (h : ix.Sound) {r : Atom} (hr : r ∈ ix.causesOf a) :
    ∃ d, ix.diagnosticOf r = .ok d ∧ ix.reason? r = some d.reason := by
  obtain ⟨d, hd⟩ := AtomTable.mem_keys_iff.1 (h.root_of_cause hr)
  exact ⟨d, by rw [diagnosticOf, hd], congrArg (Option.map Diagnostic.reason) hd⟩

/-- Every reason behind an atom is one of those in the summary. -/
theorem card_reasons_filter (h : ix.Sound) (a : Atom) :
    (ix.reasons.toFinset.filter fun reason => some reason ∈ ix.reasonsBehind a).card =
      (ix.reasonsBehind a).card := by
  have himage : (ix.reasons.toFinset.filter fun reason => some reason ∈ ix.reasonsBehind a).image some =
      ix.reasonsBehind a := by
    ext o
    simp only [mem_image, mem_filter, List.mem_toFinset]
    constructor
    · rintro ⟨reason, ⟨-, hreason⟩, rfl⟩
      exact hreason
    · intro ho
      obtain ⟨r, hr, rfl⟩ := mem_reasonsBehind.1 ho
      obtain ⟨d, -, hreason⟩ := h.exists_reason hr
      rw [hreason] at ho ⊢
      exact ⟨d.reason, ⟨mem_reasons.2 ⟨r, hreason⟩, ho⟩, rfl⟩
  rw [← himage, card_image_of_injective _ (Option.some_injective Text), himage]

/-- The scores of the buckets, summed by atom instead of by reason. -/
theorem sum_bucketScores (h : ix.Sound) :
    (ix.reasons.map fun reason => ix.atomScoreWith id (ix.scoredFor reason).toList).sum =
      ∑ a ∈ ix.explainedInSource.toFinset, ((ix.reasonsBehind a).card / ix.causeCount a : ℚ) := by
  have hturn : ∀ reason a,
      reason ∈ ix.reasons.toFinset ∧ a ∈ (ix.scoredFor reason).toFinset ↔
      reason ∈ (ix.reasons.toFinset.filter fun reason => some reason ∈ ix.reasonsBehind a) ∧
        a ∈ ix.explainedInSource.toFinset := by
    intro reason a
    simp only [AtomSet.mem_toFinset, mem_filter, h.mem_scoredFor, mem_explainedInSource]
    constructor
    · rintro ⟨hreason, hsource, hbehind⟩
      obtain ⟨r, hr, -⟩ := mem_reasonsBehind.1 hbehind
      exact ⟨⟨hreason, hbehind⟩, hsource, r, hr⟩
    · rintro ⟨⟨hreason, hbehind⟩, hsource, -⟩
      exact ⟨hreason, hsource, hbehind⟩
  rw [← List.sum_toFinset _ (ix.pairwise_reasons.imp ne_of_lt)]
  simp only [atomScoreWith_id_toList]
  rw [sum_comm' hturn]
  refine sum_congr rfl fun a _ => ?_
  rw [sum_const, h.card_reasons_filter, share_eq, nsmul_eq_mul, mul_one_div]

end Sound

/-- An atom adds at most one to the scores of the buckets. -/
theorem reasonRatio_le_one (ix : Index) (a : Atom) : ((ix.reasonsBehind a).card / ix.causeCount a : ℚ) ≤ 1 :=
  div_le_one_of_le₀ (by exact_mod_cast ix.card_reasonsBehind_le a) (Nat.cast_nonneg _)

theorem reasonRatio_eq_one_iff (ha : a ∈ ix.explainedInSource) :
    ((ix.reasonsBehind a).card / ix.causeCount a : ℚ) = 1 ↔
      ∀ r ∈ ix.causesOf a, ∀ q ∈ ix.causesOf a, ix.reason? r = ix.reason? q → r = q := by
  have hcount : (ix.causeCount a : ℚ) ≠ 0 := by
    rw [Nat.cast_ne_zero, ← mem_explained_iff_causeCount, mem_explained]
    exact (mem_explainedInSource.1 ha).2
  rw [div_eq_one_iff_eq hcount, Nat.cast_inj, card_reasonsBehind_eq_iff]

/-- In exact arithmetic the scores of all buckets of an index that comes up add up, over the atoms in source
that something explains, to the number of reasons behind an atom over the number of its causes. That is no
more than there are such atoms, and as much iff no two causes of any of them have a reason in common. -/
theorem bucketScores_total (calls : List Call) :
    let ix := after calls
    let summary := ix.summary
    let total := (summary.buckets.map fun b => ix.atomScoreWith id (ix.scoredFor b.reason).toList).sum
    (∀ b ∈ summary.buckets, b.inSourceScore = ix.atomScoreWith round53 (ix.scoredFor b.reason).toList ∧
      b.inSourceIndirectCount = (ix.scoredFor b.reason).size) ∧
    (∀ a, ∀ r ∈ ix.causesOf a, ∃ d, ix.diagnosticOf r = .ok d ∧ ix.reason? r = some d.reason) ∧
    total = (ix.explainedInSource.toList.map fun a => ((ix.reasonsBehind a).card / ix.causeCount a : ℚ)).sum ∧
    total ≤ ix.explainedInSource.size ∧
    ix.explainedInSource.size ≤ summary.inSourceIndirectCount ∧
    (total = ix.explainedInSource.size ↔ ∀ a ∈ ix.explainedInSource,
      ∀ r ∈ ix.causesOf a, ∀ q ∈ ix.causesOf a, ix.reason? r = ix.reason? q → r = q) := by
  intro ix summary total
  have h : ix.Sound := sound_after calls
  have htotal : total =
      ∑ a ∈ ix.explainedInSource.toFinset, ((ix.reasonsBehind a).card / ix.causeCount a : ℚ) := by
    rw [← h.sum_bucketScores]
    show ((ix.reasons.map ix.bucketFor).map _).sum = _
    rw [List.map_map]
    rfl
  have hsize : (ix.explainedInSource.size : ℚ) = ∑ _a ∈ ix.explainedInSource.toFinset, 1 := by
    rw [← AtomSet.card_toFinset, sum_const, nsmul_eq_mul, mul_one]
  refine ⟨fun b hb => ?_, fun a r hr => h.exists_reason hr, ?_, ?_, ?_, ?_⟩
  · obtain ⟨reason, -, rfl⟩ := List.mem_map.1 hb
    exact ⟨rfl, rfl⟩
  · rw [htotal, AtomSet.sum_toFinset]
  · rw [htotal, hsize]
    exact sum_le_sum fun a _ => ix.reasonRatio_le_one a
  · exact AtomSet.size_le_of_forall_mem fun a ha => (mem_explainedInSource.1 ha).1
  · rw [htotal, hsize, sum_eq_sum_iff_of_le fun a _ => ix.reasonRatio_le_one a]
    refine forall_congr' fun a => ?_
    rw [AtomSet.mem_toFinset]
    exact forall_congr' fun ha => reasonRatio_eq_one_iff ha

end Blame.Index
