import Blame.Proofs.Calls
import Blame.Score
import Mathlib.Algebra.BigOperators.Group.Finset.Sigma
import Mathlib.Algebra.Field.Rat
import Mathlib.Algebra.Order.Field.Rat
import Mathlib.Data.Finset.Card

/-!
# Each explained atom gives one

In exact arithmetic the credits of an explained atom add up to one, so the scores of all roots add up to
the number of explained atoms, and likewise for pointer variables. The score of a root sums over its
effects and weighs by numbers of causes: the sum over all roots is turned around with the two directions
of the relation, which agree in a sound index (`Index.Sound`).
-/

namespace Blame

open Finset

/-- Shares of one, summed by owner instead of by what is shared. -/
theorem sum_sum_inv_card {α β : Type} {owners : Finset α} {items : Finset β} {effects : α → Finset β}
    {causes : β → Finset α}
    (h : ∀ r b, r ∈ owners ∧ b ∈ effects r ↔ r ∈ causes b ∧ b ∈ items)
    (hne : ∀ b ∈ items, (causes b).Nonempty) :
    ∑ r ∈ owners, ∑ b ∈ effects r, ((causes b).card : ℚ)⁻¹ = items.card := by
  rw [sum_comm' h]
  have hone : ∀ b ∈ items, ∑ _r ∈ causes b, ((causes b).card : ℚ)⁻¹ = 1 := by
    intro b hb
    have hc : ((causes b).card : ℚ) ≠ 0 := by simpa using (hne b hb).ne_empty
    rw [sum_const, nsmul_eq_mul, mul_inv_cancel₀ hc]
  rw [sum_congr rfl hone, sum_const, nsmul_eq_mul, mul_one]

theorem credit_id (k : Nat) : credit id k = (k : ℚ)⁻¹ := by
  rw [credit]
  split
  · simp [*]
  · rw [id, one_div]

theorem creditSum_eq (round : ℚ → ℚ) (ks : List ℕ) : creditSum round ks = round (ks.map (credit round)).sum := by
  rw [creditSum, List.sum, List.foldr_map]

theorem creditSum_id (ks : List ℕ) : creditSum id ks = (ks.map fun k : ℕ => (k : ℚ)⁻¹).sum := by
  rw [creditSum_eq, funext credit_id, id]

namespace AtomSet

/-- The members as a finite set. -/
def toFinset (s : AtomSet) : Finset Atom := s.toList.toFinset

@[simp] theorem mem_toFinset {a : Atom} {s : AtomSet} : a ∈ s.toFinset ↔ a ∈ s := List.mem_toFinset

theorem card_toFinset (s : AtomSet) : s.toFinset.card = s.size := List.toFinset_card_of_nodup s.nodup

theorem sum_toFinset {M : Type} [AddCommMonoid M] (s : AtomSet) (f : Atom → M) :
    ∑ a ∈ s.toFinset, f a = (s.toList.map f).sum := List.sum_toFinset f s.nodup

end AtomSet

namespace PointerSet

/-- The keys of the members. -/
def keys (s : PointerSet) : Finset PointerKey := (s.toList.map PointerId.key).toFinset

theorem mem_keys {k : PointerKey} {s : PointerSet} : k ∈ s.keys ↔ ∃ p, p.key = k ∧ s.contains p = true := by
  simp only [keys, List.mem_toFinset, List.mem_map, contains_iff]
  constructor
  · rintro ⟨p, hp, rfl⟩
    exact ⟨p, rfl, p, hp, rfl⟩
  · rintro ⟨p, rfl, q, hq, hk⟩
    exact ⟨q, hq, hk⟩

theorem sum_keys (s : PointerSet) (f : PointerKey → ℚ) :
    ∑ k ∈ s.keys, f k = (s.toList.map fun p => f p.key).sum := by
  rw [keys, List.sum_toFinset f s.distinct, List.map_map]
  rfl

end PointerSet

namespace Index

/-- The pointer variables that some root makes WILD, each by its first id. -/
def explainedPointers (ix : Index) : List PointerId :=
  (ix.pointerCauses.entries.filter fun e => !e.2.isEmpty).map Prod.fst

/-- The roots that make the variable of a key WILD. -/
def causesOfKey (ix : Index) (k : PointerKey) : AtomSet :=
  ((ix.pointerCauses.entries.find? fun e => e.1.key = k).map Prod.snd).getD ∅

theorem atomScoreWith_id (ix : Index) (as : List Atom) :
    ix.atomScoreWith id as = (as.map fun a => ((ix.causesOf a).toFinset.card : ℚ)⁻¹).sum := by
  rw [atomScoreWith, creditSum_id, List.map_map]
  simp only [AtomSet.card_toFinset]
  rfl

/-- The share of an atom that each of its roots is given. -/
def share (ix : Index) (a : Atom) : ℚ := ((ix.causesOf a).toFinset.card : ℚ)⁻¹

theorem share_eq (ix : Index) (a : Atom) : ix.share a = 1 / ix.causeCount a := by
  rw [share, AtomSet.card_toFinset, one_div]
  rfl

theorem atomScoreWith_id_toList (ix : Index) (s : AtomSet) :
    ix.atomScoreWith id s.toList = ∑ a ∈ s.toFinset, ix.share a := by
  rw [atomScoreWith_id, AtomSet.sum_toFinset]
  rfl

theorem pointerScoreWith_id (ix : Index) (ps : List PointerId) :
    ix.pointerScoreWith id ps = (ps.map fun p => ((ix.causesOfKey p.key).toFinset.card : ℚ)⁻¹).sum := by
  rw [pointerScoreWith, creditSum_id, List.map_map]
  simp only [AtomSet.card_toFinset]
  rfl

theorem mem_explained {ix : Index} {a : Atom} : a ∈ ix.explained ↔ ∃ r, r ∈ ix.causesOf a := by
  rw [explained, AtomSet.mem_filter, Bool.not_eq_true', ← Bool.not_eq_true, AtomSet.isEmpty_iff, not_forall_not]
  refine ⟨And.right, fun ⟨r, hr⟩ => ⟨?_, r, hr⟩⟩
  obtain ⟨s, hs, -⟩ := Relation.mem_image_iff.1 hr
  exact AtomTable.mem_keys_iff.2 ⟨s, AtomTable.find?_eq_some_iff.2 hs⟩

theorem mem_explained_iff_causeCount {ix : Index} {a : Atom} : a ∈ ix.explained ↔ ix.causeCount a ≠ 0 := by
  rw [mem_explained, causeCount, ← AtomSet.card_toFinset, card_ne_zero]
  exact exists_congr fun _ => AtomSet.mem_toFinset.symm

theorem exists_key_of_mem_causesOfKey {ix : Index} {r : Atom} {k : PointerKey} (h : r ∈ ix.causesOfKey k) :
    ∃ e ∈ ix.pointerCauses.entries, e.1.key = k ∧ r ∈ e.2 := by
  rw [causesOfKey] at h
  cases he : ix.pointerCauses.entries.find? fun e => e.1.key = k with
  | none => rw [he] at h; exact absurd h AtomSet.not_mem_empty
  | some e =>
    rw [he] at h
    exact ⟨e, List.mem_of_find?_eq_some he, by simpa using List.find?_some he, h⟩

theorem nodup_keys_explainedPointers (ix : Index) : (ix.explainedPointers.map PointerId.key).Nodup := by
  rw [explainedPointers, List.map_map]
  exact ix.pointerCauses.distinct.sublist (List.filter_sublist.map _)

theorem mem_keys_explainedPointers {ix : Index} {k : PointerKey} :
    k ∈ ix.explainedPointers.map PointerId.key ↔ ∃ r, r ∈ ix.causesOfKey k := by
  simp only [explainedPointers, List.mem_map, List.mem_filter, Bool.not_eq_true', ← Bool.not_eq_true,
    AtomSet.isEmpty_iff, not_forall_not]
  constructor
  · rintro ⟨p, ⟨e, ⟨he, r, hr⟩, rfl⟩, rfl⟩
    exact ⟨r, PointerRelation.mem_image_iff.2 ⟨e, he, rfl, hr⟩⟩
  · rintro ⟨r, hr⟩
    obtain ⟨e, he, hk, hr⟩ := exists_key_of_mem_causesOfKey hr
    exact ⟨e.1, ⟨e, ⟨he, r, hr⟩, rfl⟩, hk⟩

namespace Sound

variable {ix : Index}

theorem roots_filter_effects (h : ix.Sound) (a : Atom) :
    (ix.roots.filter fun r => a ∈ ix.effectsOf r) = ix.causesOf a :=
  AtomSet.ext_mem fun r => by
    rw [AtomSet.mem_filter, decide_eq_true_eq, h.effect_iff_cause]
    exact ⟨And.right, fun hr => ⟨h.root_of_cause hr, hr⟩⟩

theorem sum_credits (h : ix.Sound) {a : Atom} (ha : a ∈ ix.explained) :
    ((ix.roots.filter fun r => a ∈ ix.effectsOf r).toList.map fun _ => ix.atomScoreWith id [a]).sum = 1 := by
  obtain ⟨r, hr⟩ := mem_explained.1 ha
  have hc : ((ix.causesOf a).toFinset.card : ℚ) ≠ 0 := by
    rw [Nat.cast_ne_zero]
    exact card_ne_zero_of_mem (AtomSet.mem_toFinset.2 hr)
  rw [h.roots_filter_effects, ← AtomSet.sum_toFinset, atomScoreWith_id, sum_const, nsmul_eq_mul]
  simpa using mul_inv_cancel₀ hc

/-- The edges, seen from the roots and seen from the explained atoms. -/
theorem edge_iff (h : ix.Sound) (r a : Atom) :
    r ∈ ix.roots.toFinset ∧ a ∈ (ix.effectsOf r).toFinset ↔
      r ∈ (ix.causesOf a).toFinset ∧ a ∈ ix.explained.toFinset := by
  simp only [AtomSet.mem_toFinset, mem_explained, ← h.effect_iff_cause]
  exact ⟨fun ⟨_, ha⟩ => ⟨ha, r, ha⟩, fun ⟨ha, _⟩ => ⟨h.cause_root r a ha, ha⟩⟩

theorem sum_atomScores (h : ix.Sound) :
    (ix.roots.toList.map fun r => ix.atomScoreWith id (ix.effectsOf r).toList).sum = ix.explained.size := by
  have hne : ∀ a ∈ ix.explained.toFinset, (ix.causesOf a).toFinset.Nonempty := fun a ha =>
    (mem_explained.1 (AtomSet.mem_toFinset.1 ha)).imp fun _ hr => AtomSet.mem_toFinset.2 hr
  rw [← AtomSet.card_toFinset, ← sum_sum_inv_card h.edge_iff hne, ← AtomSet.sum_toFinset]
  refine sum_congr rfl fun r _ => ?_
  rw [atomScoreWith_id, AtomSet.sum_toFinset]

theorem sum_pointerScores (h : ix.Sound) :
    (ix.roots.toList.map fun r => ix.pointerScoreWith id (ix.pointerEffectsOf r).toList).sum =
      ix.explainedPointers.length := by
  have hturn : ∀ r k, r ∈ ix.roots.toFinset ∧ k ∈ (ix.pointerEffectsOf r).keys ↔
      r ∈ (ix.causesOfKey k).toFinset ∧ k ∈ (ix.explainedPointers.map PointerId.key).toFinset := by
    intro r k
    simp only [AtomSet.mem_toFinset, List.mem_toFinset, mem_keys_explainedPointers, PointerSet.mem_keys]
    constructor
    · rintro ⟨-, p, rfl, hp⟩
      have hr := (h.pointerEffect_iff_cause r p).1 hp
      exact ⟨hr, r, hr⟩
    · rintro ⟨hr, -⟩
      obtain ⟨e, -, rfl, -⟩ := exists_key_of_mem_causesOfKey hr
      have hp := (h.pointerEffect_iff_cause r e.1).2 hr
      exact ⟨h.pointerCause_root r e.1 hp, e.1, rfl, hp⟩
  have hne : ∀ k ∈ (ix.explainedPointers.map PointerId.key).toFinset, (ix.causesOfKey k).toFinset.Nonempty :=
    fun k hk => (mem_keys_explainedPointers.1 (List.mem_toFinset.1 hk)).imp fun _ hr =>
      AtomSet.mem_toFinset.2 hr
  have hcard := List.toFinset_card_of_nodup ix.nodup_keys_explainedPointers
  rw [List.length_map] at hcard
  rw [← hcard, ← sum_sum_inv_card hturn hne, ← AtomSet.sum_toFinset]
  refine sum_congr rfl fun r _ => ?_
  rw [pointerScoreWith_id, PointerSet.sum_keys]

end Sound

/-- In exact arithmetic the scores of the roots add up to the number of explained atoms, the credits of a
single explained atom to one, and the pointer scores to the number of explained pointer variables. -/
theorem partition_of_unity (calls : List Call) :
    let ix := after calls
    (ix.roots.toList.map fun r => ix.atomScoreWith id (ix.effectsOf r).toList).sum = ix.explained.size ∧
    (∀ a ∈ ix.explained,
      ((ix.roots.filter fun r => a ∈ ix.effectsOf r).toList.map fun _ => ix.atomScoreWith id [a]).sum = 1) ∧
    (ix.roots.toList.map fun r => ix.pointerScoreWith id (ix.pointerEffectsOf r).toList).sum =
      ix.explainedPointers.length := by
  intro ix
  have h : ix.Sound := sound_after calls
  exact ⟨h.sum_atomScores, fun a ha => h.sum_credits ha, h.sum_pointerScores⟩

/-- Two roots share the atom 5, and a call that nobody allows comes in between. -/
theorem partition_of_unity_shared :
    let calls : List Call := [.write (.declareRoot 1 ⟨"Cast", none, []⟩),
      .write (.declareRoot 2 ⟨"Macro", none, []⟩), .write (.blame 1 5), .write (.declareRoot 5 ⟨"Cast", none, []⟩),
      .write (.blame 2 5), .write (.blame 1 6)]
    let ix := after calls
    5 ∈ ix.explained ∧
    ((ix.roots.filter fun r => 5 ∈ ix.effectsOf r).toList.map fun _ => ix.atomScoreWith id [5]).sum = 1 :=
  ⟨by decide, (partition_of_unity _).2.1 5 (by decide)⟩

end Index

end Blame
