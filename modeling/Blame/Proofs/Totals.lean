import Blame.Proofs.Alike
import Blame.Proofs.RoundingError

/-!
# The total of the scores in doubles

In exact arithmetic the scores of the roots add up to the number of explained atoms (`Sound.sum_atomScores`). In
doubles three roundings come one after another: of each share, of the sum for each root and of the total.
Nothing keeps them from pointing the same way, so the total can come out above the number of atoms, but never
by more than two units of its last bit. Where all shares are halves, quarters and so on nothing is rounded.
-/

namespace Blame.Index

open Finset Number

/-- The total of the scores that a report shows. -/
def reportedTotal (ix : Index) (nameOf : Atom → Text) : ℚ :=
  round53 ((ix.rootReport nameOf).entries.map (·.atomsScore)).sum

variable {ix : Index}

theorem reportedTotal_eq (ix : Index) (nameOf : Atom → Text) :
    ix.reportedTotal nameOf = round53 (∑ r ∈ ix.roots.toFinset, ix.atomScore (ix.effectsOf r).toList) := by
  rw [reportedTotal, AtomSet.sum_toFinset, rootReport]
  show _ = round53 ((ix.diagnostics.entries.map Prod.fst).map _).sum
  rw [List.map_map, List.map_map]
  rfl

theorem credit_id_nonneg (k : ℕ) : 0 ≤ credit id k := by
  rw [credit_id]
  positivity

theorem drift_credit (k : ℕ) : Drift 1 (credit id k) (credit round53 k) := by
  rcases Nat.eq_zero_or_pos k with rfl | hk
  · exact ⟨by simp [credit], by simp [credit]⟩
  · have hshare : credit round53 k = round53 (credit id k) := by
      rw [credit, credit, if_neg hk.ne', if_neg hk.ne', id]
    rw [hshare]
    exact (Drift.refl _).round (credit_id_nonneg k)

theorem drift_atomScore (ix : Index) (s : AtomSet) :
    Drift 2 (ix.atomScoreWith id s.toList) (ix.atomScore s.toList) := by
  rw [atomScore, atomScoreWith_eq, atomScoreWith_eq, id]
  exact (Drift.sum fun a _ => drift_credit _).round (sum_nonneg fun a _ => credit_id_nonneg _)

theorem Sound.sum_exact (h : ix.Sound) :
    ∑ r ∈ ix.roots.toFinset, ix.atomScoreWith id (ix.effectsOf r).toList = ix.explained.size := by
  rw [AtomSet.sum_toFinset]
  exact h.sum_atomScores

theorem Sound.drift_total (h : ix.Sound) :
    Drift 2 ix.explained.size (∑ r ∈ ix.roots.toFinset, ix.atomScore (ix.effectsOf r).toList) := by
  rw [← h.sum_exact]
  exact Drift.sum fun r _ => ix.drift_atomScore (ix.effectsOf r)

/-! ### Shares that need no rounding -/

/-- The share is a number of units `2 ^ -t`. -/
theorem credit_two_pow {round : ℚ → ℚ} (hround : ∀ e, round (pow2 e) = pow2 e) {k t : ℕ}
    (h : ∃ j ≤ t, k = 2 ^ j) : credit round k = (2 ^ (t - k.log2) : ℕ) * pow2 (-t) := by
  obtain ⟨j, hj, rfl⟩ := h
  have hne : 2 ^ j ≠ 0 := (Nat.two_pow_pos j).ne'
  rw [credit, if_neg hne, one_div_two_pow, hround, Nat.log2_two_pow, natCast_pow_mul_pow2]
  congr 1
  omega

/-- The shares and their sum are numbers of units `2 ^ -t`, and so few that 53 bits hold them. -/
theorem atomScore_eq_exact {s : AtomSet} {t : ℕ} (h : ∀ a ∈ s, ∃ j ≤ t, ix.causeCount a = 2 ^ j)
    (hsize : s.size * 2 ^ t ≤ 2 ^ 53) : ix.atomScore s.toList = ix.atomScoreWith id s.toList := by
  have hcredit : ∀ round : ℚ → ℚ, (∀ e, round (pow2 e) = pow2 e) →
      ∑ a ∈ s.toFinset, credit round (ix.causeCount a) =
        (∑ a ∈ s.toFinset, 2 ^ (t - (ix.causeCount a).log2) : ℕ) * pow2 (-t) := by
    intro round hround
    rw [Nat.cast_sum, sum_mul]
    exact sum_congr rfl fun a ha => credit_two_pow hround (h a (AtomSet.mem_toFinset.1 ha))
  have hunits : ∑ a ∈ s.toFinset, 2 ^ (t - (ix.causeCount a).log2) ≤ 2 ^ 53 := by
    calc ∑ a ∈ s.toFinset, 2 ^ (t - (ix.causeCount a).log2) ≤ ∑ _a ∈ s.toFinset, 2 ^ t :=
          sum_le_sum fun a _ => Nat.pow_le_pow_right two_pos (Nat.sub_le t _)
      _ = s.size * 2 ^ t := by rw [sum_const_nat fun _ _ => rfl, AtomSet.card_toFinset]
      _ ≤ 2 ^ 53 := hsize
  rw [atomScore, atomScoreWith_eq, atomScoreWith_eq, hcredit round53 round53_pow2, hcredit id fun _ => rfl, id,
    round53_mul_pow2 hunits]

theorem Sound.size_effects_le (h : ix.Sound) (r : Atom) : (ix.effectsOf r).size ≤ ix.explained.size := by
  rw [← AtomSet.card_toFinset, ← AtomSet.card_toFinset]
  refine card_le_card fun a ha => AtomSet.mem_toFinset.2 (mem_explained.2 ⟨r, ?_⟩)
  exact (h.effect_iff_cause r a).1 (AtomSet.mem_toFinset.1 ha)

theorem Sound.total_eq_exact (h : ix.Sound) {t : ℕ}
    (hcount : ∀ a ∈ ix.explained, ∃ j ≤ t, ix.causeCount a = 2 ^ j)
    (hsize : ix.explained.size * 2 ^ t ≤ 2 ^ 53) :
    ∑ r ∈ ix.roots.toFinset, ix.atomScore (ix.effectsOf r).toList = ix.explained.size := by
  rw [← h.sum_exact]
  refine sum_congr rfl fun r _ => ?_
  have heffects : ∀ a ∈ ix.effectsOf r, ∃ j ≤ t, ix.causeCount a = 2 ^ j := fun a ha =>
    hcount a (mem_explained.2 ⟨r, (h.effect_iff_cause r a).1 ha⟩)
  exact atomScore_eq_exact heffects ((Nat.mul_le_mul_right _ (h.size_effects_le r)).trans hsize)

/-- In doubles the total of the reported scores lies within two units of the last bit of the number of explained
atoms, and it is that number if the atoms are shared by two, four, eight roots and so on, up to some `2 ^ t`
that leaves room for all of them. -/
theorem reportedTotal_near (calls : List Call) (nameOf : Atom → Text)
    (hsize : (after calls).explained.size < 2 ^ 53) :
    let ix := after calls
    let exact : ℚ := ix.explained.size
    |ix.reportedTotal nameOf - exact| ≤ 2 * pow2 (lastBit exact) ∧
    ∀ t, ix.explained.size * 2 ^ t ≤ 2 ^ 53 → (∀ a ∈ ix.explained, ∃ j ≤ t, ix.causeCount a = 2 ^ j) →
      ix.reportedTotal nameOf = exact := by
  intro ix exact
  have h : ix.Sound := sound_after calls
  have hbits : round53 exact = exact := round53_natCast hsize.le
  refine ⟨?_, fun t ht hcount => ?_⟩
  · rw [reportedTotal_eq]
    exact abs_round53_sub_le_of_drift (Nat.cast_nonneg _) hbits h.drift_total
  · rw [reportedTotal_eq, h.total_eq_exact hcount ht, hbits]

/-- Five roots force the same three atoms. -/
def fiveRoots : List Call :=
  [1, 2, 3, 4, 5].flatMap fun r => .write (.declareRoot r ⟨"Cast", none, []⟩) ::
    [6, 7, 8].map fun a => .write (.blame r a)

theorem reportedTotal_near_fiveRoots :
    let ix := after fiveRoots
    let exact : ℚ := ix.explained.size
    ix.explained.size < 2 ^ 53 ∧
    |ix.reportedTotal ix.nameOf - exact| ≤ 2 * pow2 (lastBit exact) ∧
    ∀ t, ix.explained.size * 2 ^ t ≤ 2 ^ 53 → (∀ a ∈ ix.explained, ∃ j ≤ t, ix.causeCount a = 2 ^ j) →
      ix.reportedTotal ix.nameOf = exact :=
  ⟨by decide +kernel, reportedTotal_near fiveRoots _ (by decide +kernel)⟩

/-- Each of the five scores is the number after `3 / 5`, and so is their total that after three. -/
theorem reportedTotal_fiveRoots :
    let ix := after fiveRoots
    ix.explained.size = 3 ∧ ix.reportedTotal ix.nameOf = 3 + pow2 (-51) ∧
    ¬ ix.reportedTotal ix.nameOf ≤ ix.explained.size := by
  decide +kernel

end Blame.Index
