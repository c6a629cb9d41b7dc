import Blame.Proofs.Atomic
import Blame.Proofs.Credit
import Mathlib.Algebra.BigOperators.Group.Finset.Basic
import Mathlib.Tactic.Ring

/-!
# What one more edge does to the scores

A root that comes to explain one atom more is given a share of it, and the roots that explained the atom
before lose what their shares shrink by. Every other atom keeps its causes and hence its share
(`AddsEdge.share_of_ne`), so a score changes by the share of that one atom (`AddsEdge.sum_share`), and only
for a root that explains it.
-/

namespace Blame.Index

open Finset

/-- The score of a root in exact arithmetic. -/
def exactScore (ix : Index) (r : Atom) : ℚ := ix.atomScoreWith id (ix.effectsOf r).toList

variable {ix ix' : Index} {r a q : Atom}

theorem exactScore_eq_sum (ix : Index) (r : Atom) :
    ix.exactScore r = ∑ b ∈ (ix.effectsOf r).toFinset, ix.share b :=
  ix.atomScoreWith_id_toList (ix.effectsOf r)

namespace AddsEdge

theorem effectsOf_of_ne (h : ix.AddsEdge r a ix') (hq : q ≠ r) : ix'.effectsOf q = ix.effectsOf q :=
  AtomSet.ext_mem fun b => (h.effects q b).trans (or_iff_right fun he => hq he.1)

theorem causesOf_of_ne (h : ix.AddsEdge r a ix') {b : Atom} (hb : b ≠ a) : ix'.causesOf b = ix.causesOf b :=
  AtomSet.ext_mem fun q => (h.causes b q).trans (or_iff_right fun he => hb he.1)

theorem effectsOf_self (h : ix.AddsEdge r a ix') :
    (ix'.effectsOf r).toFinset = insert a (ix.effectsOf r).toFinset := by
  ext b
  simp [h.effects]

theorem causesOf_self (h : ix.AddsEdge r a ix') :
    (ix'.causesOf a).toFinset = insert r (ix.causesOf a).toFinset := by
  ext q
  simp [h.causes]

theorem explained_eq (h : ix.AddsEdge r a ix') : ix'.explained = ix.explained.insert a := by
  refine AtomSet.ext_mem fun b => ?_
  simp only [AtomSet.mem_insert, mem_explained, h.causes]
  constructor
  · rintro ⟨q, ⟨rfl, -⟩ | hq⟩
    · exact .inl rfl
    · exact .inr ⟨q, hq⟩
  · rintro (rfl | ⟨q, hq⟩)
    · exact ⟨r, .inl ⟨rfl, rfl⟩⟩
    · exact ⟨q, .inr hq⟩

theorem share_of_ne (h : ix.AddsEdge r a ix') {b : Atom} (hb : b ≠ a) : ix'.share b = ix.share b := by
  rw [share, h.causesOf_of_ne hb, share]

theorem share_self (h : ix.AddsEdge r a ix') (hnew : r ∉ ix.causesOf a) :
    ix'.share a = 1 / (ix.causeCount a + 1) := by
  have hr : r ∉ (ix.causesOf a).toFinset := by simpa using hnew
  rw [share, h.causesOf_self, card_insert_of_notMem hr, AtomSet.card_toFinset, one_div]
  push_cast
  rfl

/-- All atoms but one keep their share. -/
theorem sum_share (h : ix.AddsEdge r a ix') {s : Finset Atom} (ha : a ∈ s) :
    ∑ b ∈ s, ix'.share b = ∑ b ∈ s, ix.share b - (ix.share a - ix'.share a) := by
  have hrest : ∑ b ∈ s.erase a, ix'.share b = ∑ b ∈ s.erase a, ix.share b :=
    sum_congr rfl fun b hb => h.share_of_ne (ne_of_mem_erase hb)
  rw [← add_sum_erase s ix'.share ha, ← add_sum_erase s ix.share ha, hrest]
  ring

theorem sum_share_of_notMem (h : ix.AddsEdge r a ix') {s : Finset Atom} (ha : a ∉ s) :
    ∑ b ∈ s, ix'.share b = ∑ b ∈ s, ix.share b :=
  sum_congr rfl fun _ hb => h.share_of_ne (ne_of_mem_of_not_mem hb ha)

theorem exactScore_self (h : ix.AddsEdge r a ix') (hnew : a ∉ ix.effectsOf r) :
    ix'.exactScore r = ix.exactScore r + ix'.share a := by
  have ha : a ∉ (ix.effectsOf r).toFinset := by simpa using hnew
  rw [exactScore_eq_sum, exactScore_eq_sum, h.effectsOf_self, sum_insert ha, h.sum_share_of_notMem ha, add_comm]

theorem exactScore_of_mem (h : ix.AddsEdge r a ix') (hq : q ≠ r) (ha : a ∈ ix.effectsOf q) :
    ix'.exactScore q = ix.exactScore q - (ix.share a - ix'.share a) := by
  rw [exactScore_eq_sum, exactScore_eq_sum, h.effectsOf_of_ne hq, h.sum_share (by simpa using ha)]

theorem exactScore_of_notMem (h : ix.AddsEdge r a ix') (hq : q ≠ r) (ha : a ∉ ix.effectsOf q) :
    ix'.exactScore q = ix.exactScore q := by
  rw [exactScore_eq_sum, exactScore_eq_sum, h.effectsOf_of_ne hq, h.sum_share_of_notMem (by simpa using ha)]

end AddsEdge

theorem addsEdge_of_blame (ho : ix.blame r a = .ok (ix', .recorded)) : ix.AddsEdge r a ix' := by
  rcases ix.blame_cases r a with ⟨-, hc⟩ | ⟨-, -, fate, hfate, hc⟩ | ⟨hr, ha, hc⟩
  · cases ho.symm.trans hc
  · cases ho.symm.trans hc
    exact absurd rfl hfate
  · obtain ⟨_, hadded, hedge⟩ := blame_addsEdge hr ha
    cases ho.symm.trans hadded
    exact hedge

/-- Each explained atom gives one in total, so the total grows with the number of these. -/
theorem Sound.sum_exactScore_of_addsEdge (h : ix.Sound) (h' : ix'.Sound) (he : ix.AddsEdge r a ix') :
    (ix'.roots.toList.map ix'.exactScore).sum =
      (ix.roots.toList.map ix.exactScore).sum + if ix.causeCount a = 0 then 1 else 0 := by
  calc (ix'.roots.toList.map ix'.exactScore).sum
      = ix'.explained.size := h'.sum_atomScores
    _ = ix.explained.size + if ix.causeCount a = 0 then 1 else 0 := by
      rw [he.explained_eq, AtomSet.size_insert]
      simp only [mem_explained_iff_causeCount, ite_not]
      push_cast
      rfl
    _ = _ := by rw [← h.sum_atomScores]; rfl

/-- An edge that is new shares the credit for its atom out anew, and nothing else. If `k` roots explained the
atom before, the root is given the share of one in `k + 1`, each of the `k` loses as much as its share
shrinks, and no other score changes; so the total grows, by one, only if nothing explained the atom. -/
theorem newEdge_redistributes (calls : List Call) {r a : Atom} {ix' : Index}
    (ho : (after calls).blame r a = .ok (ix', .recorded)) (hnew : a ∉ (after calls).effectsOf r) :
    let ix := after calls
    let k := ix.causeCount a
    ix'.exactScore r = ix.exactScore r + 1 / (k + 1) ∧
    (∀ q ∈ ix.causesOf a, ix'.exactScore q = ix.exactScore q - (1 / k - 1 / (k + 1))) ∧
    (∀ q, q ≠ r → q ∉ ix.causesOf a → ix'.exactScore q = ix.exactScore q) ∧
    (ix'.roots.toList.map ix'.exactScore).sum =
      (ix.roots.toList.map ix.exactScore).sum + if k = 0 then 1 else 0 := by
  intro ix k
  have h : ix.Sound := sound_after calls
  have he : ix.AddsEdge r a ix' := addsEdge_of_blame ho
  have hcause : r ∉ ix.causesOf a := mt (h.effect_iff_cause r a).2 hnew
  have hshare : ix'.share a = 1 / (k + 1) := he.share_self hcause
  refine ⟨?_, fun q hq => ?_, fun q hqr hq => ?_, h.sum_exactScore_of_addsEdge (h.blame ho) he⟩
  · rw [he.exactScore_self hnew, hshare]
  · have hqr : q ≠ r := fun hqr => hcause (hqr ▸ hq)
    rw [he.exactScore_of_mem hqr ((h.effect_iff_cause q a).2 hq), hshare, share_eq]
  · exact he.exactScore_of_notMem hqr (mt (h.effect_iff_cause q a).1 hq)

/-- Two roots explain the atom 5, the second of them also the atom 6. -/
def twoCauses : List Call :=
  [.write (.declareRoot 1 ⟨"Cast", none, []⟩), .write (.declareRoot 2 ⟨"Macro", none, []⟩),
    .write (.declareRoot 3 ⟨"Cast", none, []⟩), .write (.blame 1 5), .write (.blame 2 5), .write (.blame 2 6)]

/-- A third root comes to explain the atom 5. -/
theorem newEdge_redistributes_twoCauses :
    ∃ ix', (after twoCauses).blame 3 5 = .ok (ix', .recorded) ∧ 5 ∉ (after twoCauses).effectsOf 3 ∧
      ix'.exactScore 3 = (after twoCauses).exactScore 3 + 1 / 3 ∧
      ix'.exactScore 2 = (after twoCauses).exactScore 2 - (1 / 2 - 1 / 3) := by
  have hroot : 3 ∈ (after twoCauses).roots := by decide
  have hindirect : 5 ∉ (after twoCauses).roots := by decide
  have hnew : 5 ∉ (after twoCauses).effectsOf 3 := by decide
  obtain ⟨ix', ho, -⟩ := blame_addsEdge hroot hindirect
  obtain ⟨hroots, hothers, -⟩ := newEdge_redistributes twoCauses ho hnew
  have hcount : (after twoCauses).causeCount 5 = 2 := by decide
  have hthree : ((2 : ℕ) : ℚ) + 1 = 3 := by norm_num
  rw [hcount, hthree] at hroots
  have htwo := hothers 2 (by decide)
  rw [hcount, hthree] at htwo
  exact ⟨ix', ho, hnew, hroots, htwo⟩

end Blame.Index
