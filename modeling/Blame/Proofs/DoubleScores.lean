import Blame.Number.Double
import Blame.Proofs.Credit
import Blame.Proofs.RoundingError
import Blame.Proofs.Verdicts
import Mathlib.Algebra.Order.BigOperators.Group.List

/-!
# Scores in doubles

A score is rounded twice, once at each credit and once at the sum. Rounding keeps the order and leaves powers of two
and small integers alone, so what holds of the exact sum of the credits still holds of the score: it lies between zero
and the number of items, it is zero only if all credits are, and it does not get smaller with more items
(`FairlyScored`). As long as no atom has too many causes the range of the exponents does not matter
(`doubleScore_eq`).
-/

namespace Blame

namespace Number

theorem round53_pos {q : ℚ} (hq : 0 < q) : 0 < round53 q := by
  calc 0 < pow2 (floorLog2 q) := pow2_pos _
    _ = round53 (pow2 (floorLog2 q)) := (round53_pow2 _).symm
    _ ≤ round53 q := round53_mono (pow2_pos _).le (floorLog2_spec hq).1

theorem round53_eq_zero_iff {q : ℚ} (hq : 0 ≤ q) : round53 q = 0 ↔ q = 0 := by
  constructor
  · intro h
    rcases hq.eq_or_lt with rfl | hpos
    · rfl
    · exact absurd h (round53_pos hpos).ne'
  · rintro rfl
    rfl

/-- Between the smallest and the largest exponent a double is what 53 bits make of a number. -/
theorem ofRat_eq_round53 {q : ℚ} (hlow : q = 0 ∨ pow2 (-1022) ≤ q) (hhigh : q ≤ pow2 1023) :
    Double.ofRat false q = .finite (round53 q) := by
  rcases hlow with rfl | hlow
  · rfl
  have hpos : 0 < q := (pow2_pos _).trans_le hlow
  have hround : round53 q < pow2 1024 := by
    calc round53 q ≤ round53 (pow2 1023) := round53_mono hpos.le hhigh
      _ = pow2 1023 := round53_pow2 1023
      _ < pow2 1024 := pow2_lt_pow2.2 (by decide)
  have hexp : -1022 < floorLog2 q + 1 := pow2_lt_pow2.1 (hlow.trans_lt (floorLog2_spec hpos).2)
  have hlast : lastBit q = floorLog2 q - 52 := by rw [lastBit, magnitude, if_neg hpos.not_gt]
  have hnearest : Double.nearestFinite q = round53 q := by
    rw [Double.nearestFinite, round53, if_neg hpos.ne', if_neg hpos.ne', max_eq_left (by omega)]
  have hmagnitude : magnitude (round53 q) = round53 q := if_neg (round53_pos hpos).not_gt
  simp only [Double.ofRat, hnearest, hmagnitude, if_neg (round53_pos hpos).ne', if_neg hround.not_ge]

end Number

open Number

/-! ### Credits -/

theorem credit_pos {k : ℕ} (hk : k ≠ 0) : 0 < credit round53 k := by
  rw [credit, if_neg hk]
  exact round53_pos (by positivity)

theorem one_div_le_one {k : ℕ} (hk : k ≠ 0) : 1 / (k : ℚ) ≤ 1 := by
  rw [div_le_one (by positivity)]
  exact_mod_cast Nat.one_le_iff_ne_zero.2 hk

theorem credit_le_one (k : ℕ) : credit round53 k ≤ 1 := by
  rw [credit]
  split
  · exact zero_le_one
  · rename_i hk
    exact (round53_mono (by positivity) (one_div_le_one hk)).trans_eq (round53_pow2 0)

theorem credit_eq_zero_iff {k : ℕ} : credit round53 k = 0 ↔ k = 0 :=
  ⟨fun h => by_contra fun hk => (credit_pos hk).ne' h, fun h => if_pos h⟩

theorem pow2_le_one_div {k : ℕ} (hk : k ≠ 0) (hlt : k < 2 ^ 53) : pow2 (-53) ≤ 1 / (k : ℚ) := by
  calc pow2 (-53) = 1 / ((2 ^ 53 : ℕ) : ℚ) := (one_div_two_pow 53).symm
    _ ≤ 1 / k := one_div_le_one_div_of_le (by positivity) (by exact_mod_cast hlt.le)

theorem pow2_le_credit {k : ℕ} (hk : k ≠ 0) (hlt : k < 2 ^ 53) : pow2 (-53) ≤ credit round53 k := by
  rw [credit, if_neg hk, ← round53_pow2 (-53)]
  exact round53_mono (pow2_pos _).le (pow2_le_one_div hk hlt)

/-! ### Sums of credits -/

/-- What items with the given numbers of causes score when it is added up in doubles: each is worth the double `1 / k`
if it has `k` causes, and the exact sum of these doubles is made a double. -/
def doubleScore (ks : List ℕ) : Double :=
  Double.ofRat false ((ks.filter (· ≠ 0)).filterMap fun k : ℕ => (Double.ofRat false (1 / k)).toRat?).sum

section
variable {ks ls extra : List ℕ}

theorem forall_credit_nonneg (ks : List ℕ) : ∀ q ∈ ks.map (credit round53), 0 ≤ q :=
  List.forall_mem_map.2 fun k _ => credit_nonneg k

theorem sum_credits_nonneg (ks : List ℕ) : 0 ≤ (ks.map (credit round53)).sum :=
  List.sum_nonneg (forall_credit_nonneg ks)

theorem sum_credits_le (ks : List ℕ) : (ks.map (credit round53)).sum ≤ ks.length := by
  simpa using List.sum_le_card_nsmul (ks.map (credit round53)) 1 (List.forall_mem_map.2 fun k _ => credit_le_one k)

theorem sum_credits_eq_zero_iff : (ks.map (credit round53)).sum = 0 ↔ ∀ k ∈ ks, k = 0 := by
  constructor
  · intro h k hk
    exact credit_eq_zero_iff.1
      (List.all_zero_of_le_zero_le_of_sum_eq_zero (forall_credit_nonneg ks) h (List.mem_map_of_mem hk))
  · intro h
    exact List.sum_eq_zero (List.forall_mem_map.2 fun k hk => credit_eq_zero_iff.2 (h k hk))

theorem creditSum_perm (round : ℚ → ℚ) (h : ks.Perm ls) : creditSum round ks = creditSum round ls := by
  rw [creditSum_eq, creditSum_eq, (h.map _).sum_eq]

theorem creditSum_nonneg (ks : List ℕ) : 0 ≤ creditSum round53 ks := by
  rw [creditSum_eq]
  exact round53_nonneg (sum_credits_nonneg ks)

theorem creditSum_le_length (h : ks.length < 2 ^ 53) : creditSum round53 ks ≤ ks.length := by
  rw [creditSum_eq]
  exact (round53_mono (sum_credits_nonneg ks) (sum_credits_le ks)).trans_eq (round53_natCast h.le)

theorem creditSum_eq_zero_iff : creditSum round53 ks = 0 ↔ ∀ k ∈ ks, k = 0 := by
  rw [creditSum_eq, round53_eq_zero_iff (sum_credits_nonneg ks), sum_credits_eq_zero_iff]

theorem creditSum_le_append (ks extra : List ℕ) : creditSum round53 ks ≤ creditSum round53 (ks ++ extra) := by
  rw [creditSum_eq, creditSum_eq, List.map_append, List.sum_append]
  exact round53_mono (sum_credits_nonneg ks) (le_add_of_nonneg_right (sum_credits_nonneg extra))

theorem sum_doubles_eq (h : ∀ k ∈ ks, k < 2 ^ 53) :
    ((ks.filter (· ≠ 0)).filterMap fun k : ℕ => (Double.ofRat false (1 / k)).toRat?).sum =
      (ks.map (credit round53)).sum := by
  induction ks with
  | nil => rfl
  | cons k ks ih =>
    obtain ⟨hlt, h⟩ := List.forall_mem_cons.1 h
    have hrest := ih h
    by_cases hk : k = 0
    · subst hk
      simpa [credit] using hrest
    · have hlow : pow2 (-1022) ≤ 1 / (k : ℚ) :=
        (pow2_lt_pow2.2 (by decide)).le.trans (pow2_le_one_div hk hlt)
      have hhigh : 1 / (k : ℚ) ≤ pow2 1023 :=
        (one_div_le_one hk).trans (pow2_lt_pow2.2 (by decide : (0 : ℤ) < 1023)).le
      have hterm : (Double.ofRat false (1 / k)).toRat? = some (credit round53 k) := by
        rw [ofRat_eq_round53 (.inr hlow) hhigh, credit, if_neg hk]
        rfl
      rw [List.filter_cons_of_pos (by simpa using hk)]
      simp only [List.filterMap_cons, hterm, List.map_cons, List.sum_cons, hrest]

theorem doubleScore_eq (h : ∀ k ∈ ks, k < 2 ^ 53) (hlength : ks.length < 2 ^ 53) :
    doubleScore ks = .finite (creditSum round53 ks) := by
  rw [doubleScore, sum_doubles_eq h, creditSum_eq]
  refine ofRat_eq_round53 ?_ ?_
  · by_cases hzero : ∀ k ∈ ks, k = 0
    · exact .inl (sum_credits_eq_zero_iff.2 hzero)
    · push Not at hzero
      obtain ⟨k, hk, hne⟩ := hzero
      refine .inr ?_
      calc pow2 (-1022) ≤ pow2 (-53) := (pow2_lt_pow2.2 (by decide)).le
        _ ≤ credit round53 k := pow2_le_credit hne (h k hk)
        _ ≤ (ks.map (credit round53)).sum := List.single_le_sum (forall_credit_nonneg ks) _ (List.mem_map_of_mem hk)
  · calc (ks.map (credit round53)).sum ≤ ks.length := sum_credits_le ks
      _ ≤ ((2 ^ 53 : ℕ) : ℚ) := by exact_mod_cast hlength.le
      _ = pow2 53 := by
        rw [pow2_eq 53]
        norm_cast
      _ ≤ pow2 1023 := (pow2_lt_pow2.2 (by decide)).le

end

/-! ### Scores -/

/-- A score of lists of items, each known by its key, is what doubles make of the numbers of causes. It depends on no
order, lies between zero and the number of items, is zero only if nothing has a cause, and grows with the list. -/
structure FairlyScored {α κ : Type} (key : α → κ) (causesOf : κ → AtomSet) (score : List α → ℚ) (l : List α) :
    Prop where
  inDoubles : doubleScore (l.map fun x => (causesOf (key x)).size) = .finite (score l)
  perm : ∀ m, (m.map key).Perm (l.map key) → score m = score l
  nonneg : 0 ≤ score l
  le_length : score l ≤ l.length
  eq_zero_iff : score l = 0 ↔ ∀ x ∈ l, ∀ r, r ∉ causesOf (key x)
  mono : ∀ m more, (m.map key).Perm (l.map key ++ more) → score l ≤ score m

theorem AtomSet.size_eq_zero_iff {s : AtomSet} : s.size = 0 ↔ ∀ a, a ∉ s := by
  rw [size, List.length_eq_zero_iff, ← List.isEmpty_iff]
  exact AtomSet.isEmpty_iff

theorem fairlyScored_creditSum {α κ : Type} {key : α → κ} {causesOf : κ → AtomSet} {l : List α}
    (hcauses : ∀ x ∈ l, (causesOf (key x)).size < 2 ^ 53) (hlength : l.length < 2 ^ 53) :
    FairlyScored key causesOf (fun l => creditSum round53 (l.map fun x => (causesOf (key x)).size)) l := by
  -- only the keys of the items count
  have hkeys (m : List α) : m.map (fun x => (causesOf (key x)).size) = (m.map key).map fun k => (causesOf k).size := by
    rw [List.map_map]
    rfl
  refine ⟨?_, fun m hm => ?_, creditSum_nonneg _, ?_, ?_, fun m more hm => ?_⟩
  · exact doubleScore_eq (List.forall_mem_map.2 hcauses) (by rwa [List.length_map])
  · rw [hkeys, hkeys]
    exact creditSum_perm round53 (hm.map _)
  · have hsizes : (l.map fun x => (causesOf (key x)).size).length = l.length := List.length_map _
    rw [← hsizes] at hlength ⊢
    exact creditSum_le_length hlength
  · rw [creditSum_eq_zero_iff, List.forall_mem_map]
    exact forall₂_congr fun x _ => AtomSet.size_eq_zero_iff
  · rw [hkeys, hkeys, creditSum_perm round53 (hm.map _), List.map_append]
    exact creditSum_le_append _ _

namespace Index

/-- No atom has more causes than some entry of the table. -/
theorem causeCount_lt {ix : Index} {n : ℕ} (hn : 0 < n) (h : ∀ e ∈ ix.causes.entries, e.2.size < n) (a : Atom) :
    ix.causeCount a < n := by
  rw [causeCount, causesOf, Relation.image]
  cases hfind : ix.causes.find? a with
  | none => exact hn
  | some s => exact h (a, s) (AtomTable.find?_eq_some_iff.1 hfind)

theorem pointerCauseCount_lt {ix : Index} {n : ℕ} (hn : 0 < n) (h : ∀ e ∈ ix.pointerCauses.entries, e.2.size < n)
    (p : PointerId) : ix.pointerCauseCount p < n := by
  rw [pointerCauseCount, pointerCausesOf, PointerRelation.image]
  cases hfind : ix.pointerCauses.entries.find? fun e => e.1.key = p.key with
  | none => exact hn
  | some e => exact h e (List.mem_of_find?_eq_some hfind)

/-- The scores of atoms and of pointer variables depend neither on the order of what is listed nor on the spelling of
ids. They are bounded, vanish only where nothing is explained, and grow with the list. -/
theorem scores_bounded_and_monotone (ix : Index) (hatoms : ∀ a, ix.causeCount a < 2 ^ 53)
    (hpointers : ∀ p, ix.pointerCauseCount p < 2 ^ 53) :
    (∀ as : List Atom, as.length < 2 ^ 53 → FairlyScored id ix.causesOf ix.atomScore as) ∧
    ∀ ps : List PointerId, ps.length < 2 ^ 53 → FairlyScored PointerId.key ix.causesOfKey ix.pointerScore ps := by
  refine ⟨fun as h => ?_, fun ps h => ?_⟩
  · exact fairlyScored_creditSum (fun a _ => hatoms a) h
  · exact fairlyScored_creditSum (fun p _ => hpointers p) h

/-- Three roots share the atom 5, which is the only level of a pointer variable. -/
theorem scores_bounded_and_monotone_threeRoots :
    let ix := after [.write (.declareRoot 1 ⟨"Cast", none, []⟩), .write (.declareRoot 2 ⟨"Cast", none, []⟩),
      .write (.declareRoot 3 ⟨"Macro", none, []⟩), .write (.blame 1 5), .write (.blame 2 5), .write (.blame 3 5),
      .write (.blame 1 6), .write (.join 5 (.int 1)), .write .lift]
    (∀ a, ix.causeCount a < 2 ^ 53) ∧ (∀ p, ix.pointerCauseCount p < 2 ^ 53) ∧
    ix.atomScore [5, 7] = 6004799503160661 / 2 ^ 54 ∧ ix.atomScore [6, 5] ≤ ix.atomScore [5, 6, 5] ∧
    ix.atomScore [6, 5] ≤ 2 ∧
    ix.pointerScore [.scalar (.int 1), .scalar .null] = ix.pointerScore [.scalar .null, .scalar (.bool true)] := by
  intro ix
  have hatoms : ∀ a, ix.causeCount a < 2 ^ 53 := causeCount_lt (by decide) (by decide)
  have hpointers : ∀ p, ix.pointerCauseCount p < 2 ^ 53 := pointerCauseCount_lt (by decide) (by decide)
  obtain ⟨hatomScore, hpointerScore⟩ := scores_bounded_and_monotone ix hatoms hpointers
  refine ⟨hatoms, hpointers, by decide +kernel, ?_, ?_, ?_⟩
  · exact (hatomScore [6, 5] (by decide)).mono [5, 6, 5] [5] (by decide)
  · exact (hatomScore [6, 5] (by decide)).le_length
  · exact (hpointerScore _ (by decide)).perm [.scalar (.int 1), .scalar .null] (by decide)

end Index

end Blame
