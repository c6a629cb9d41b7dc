import Blame.Proofs.Growth
import Blame.Proofs.Transpose

/-!
# How one more pair counts

A relation is counted by adding up the sizes of the sets in its table (`pairCount`, `pointerPairs`). Entering a
set for an atom adds its size and takes away that of the set it replaces (`valueSum_insert`); so one more pair
counts one if it was not there, and nothing otherwise. Hence what a lift counts is by how much the relation of
pointer variables grows.
-/

namespace Blame

universe u

namespace AtomTable
variable {α : Type u}

/-- A measure of the values of a table, added up. -/
def valueSum (f : α → ℕ) (t : AtomTable α) : ℕ := t.entries.foldr (fun e n => f e.2 + n) 0

theorem foldr_insertEntry (f : α → ℕ) (a : Atom) (v : α) {l : List (Atom × α)}
    (hl : (l.map Prod.fst).Pairwise (· < ·)) :
    (insertEntry a v l).foldr (fun e n => f e.2 + n) 0 +
        (((l.find? (·.1 == a)).map Prod.snd).map f).getD 0 =
      l.foldr (fun e n => f e.2 + n) 0 + f v := by
  induction l with
  | nil => simp [insertEntry]
  | cons e rest ih =>
    obtain ⟨hfirst, hrest⟩ := List.pairwise_cons.1 hl
    rcases Int.lt_trichotomy a e.1 with hlt | heq | hgt
    · -- The list is ascending, so the atom has no entry.
      have hnone : (e :: rest).find? (·.1 == a) = none := by
        rw [List.find?_eq_none]
        intro x hx
        have hax : a < x.1 := by
          rcases List.mem_cons.1 hx with rfl | hx
          · exact hlt
          · exact Int.lt_trans hlt (hfirst x.1 (List.mem_map_of_mem hx))
        simpa using Int.ne_of_gt hax
      rw [hnone, insertEntry, if_pos hlt]
      simp only [List.foldr_cons, Option.map_none, Option.getD_none]
      omega
    · subst heq
      simp [insertEntry]
      omega
    · have hhead : (e.1 == a) = false := beq_false_of_ne (Int.ne_of_lt hgt)
      have hsum := ih hrest
      rw [insertEntry, if_neg (Int.not_lt.2 (Int.le_of_lt hgt)), if_neg (Int.ne_of_gt hgt), List.find?_cons, hhead]
      simp only [List.foldr_cons]
      omega

theorem valueSum_insert (f : α → ℕ) (a : Atom) (v : α) (t : AtomTable α) :
    valueSum f (t.insert a v) + ((t.find? a).map f).getD 0 = valueSum f t + f v :=
  foldr_insertEntry f a v t.ascending

end AtomTable

theorem AtomSet.size_insert (s : AtomSet) (a : Atom) :
    (s.insert a).size = s.size + if a ∈ s then 0 else 1 := by
  by_cases h : a ∈ s
  · simp [insert_of_mem h, h]
  · have hset : (s.insert a).toFinset = Insert.insert a s.toFinset := by
      ext b
      simp
    rw [← card_toFinset, hset, Finset.card_insert_of_notMem (by simpa using h), card_toFinset, if_neg h]

theorem PointerSet.size_insert (s : PointerSet) (p : PointerId) :
    (s.insert p).size = s.size + if s.contains p = true then 0 else 1 := by
  by_cases h : s.contains p = true
  · simp [insert_of_contains h, h]
  · have hkey : ¬ p.key ∈ s.toList.map PointerId.key := fun hk => h (decide_eq_true hk)
    show (appendPointer p s.toList).length = s.toList.length + _
    rw [appendPointer, if_neg hkey, if_neg h, List.length_append]
    rfl

theorem Relation.pairCount_add (t : Relation) (a b : Atom) :
    pairCount (add a b t) = pairCount t + if b ∈ image t a then 0 else 1 := by
  have hsum := AtomTable.valueSum_insert AtomSet.size a ((image t a).insert b) t
  have hold : ((t.find? a).map AtomSet.size).getD 0 = (image t a).size := by
    rw [image]
    cases t.find? a <;> rfl
  rw [hold, AtomSet.size_insert] at hsum
  show AtomTable.valueSum AtomSet.size _ = AtomTable.valueSum AtomSet.size t + _
  rw [add]
  omega

theorem Index.pointerPairs_insert (t : AtomTable PointerSet) (r : Atom) (p : PointerId) :
    pointerPairs (t.insert r ((pointersIn t r).insert p)) =
      pointerPairs t + if (pointersIn t r).contains p = true then 0 else 1 := by
  have hsum := AtomTable.valueSum_insert PointerSet.size r ((pointersIn t r).insert p) t
  have hold : ((t.find? r).map PointerSet.size).getD 0 = (pointersIn t r).size := by
    rw [pointersIn]
    cases t.find? r <;> rfl
  rw [hold, PointerSet.size_insert] at hsum
  show AtomTable.valueSum PointerSet.size _ = AtomTable.valueSum PointerSet.size t + _
  omega

namespace Index
variable {ix ix' : Index}

theorem pointerEdges_insert {r : Atom} {p : PointerId} (h : (ix.pointerEffectsOf r).contains p = false)
    (pc : PointerRelation) :
    (stats { ix with
      pointerEffects := ix.pointerEffects.insert r ((ix.pointerEffectsOf r).insert p)
      pointerCauses := pc }).pointerEdges = ix.stats.pointerEdges + 1 := by
  have hnew : ¬ (pointersIn ix.pointerEffects r).contains p = true := Bool.eq_false_iff.1 h
  have hsum := pointerPairs_insert ix.pointerEffects r p
  rwa [if_neg hnew] at hsum

/-- The answer counts the pairs that were not there, and without one nothing was touched. -/
theorem blamePointers_count {n n' : ℕ} {l : List (Atom × PointerId)}
    (h : ix.blamePointers n l = (ix', .ok n')) :
    n ≤ n' ∧ (n' = n → ix' = ix) ∧ ix'.stats.pointerEdges + n = ix.stats.pointerEdges + n' := by
  induction l generalizing ix n with
  | nil =>
    cases h
    exact ⟨le_rfl, fun _ => rfl, rfl⟩
  | cons e rest ih =>
    rw [blamePointers] at h
    rcases ix.blamePointer_cases e.1 e.2 with ⟨-, ho⟩ | ⟨-, -, ho⟩ | ⟨-, hp, ho⟩ <;> rw [ho] at h
    · cases h
    · exact ih h
    · obtain ⟨hle, -, hcount⟩ := ih (n := n + 1) h
      rw [pointerEdges_insert hp] at hcount
      exact ⟨by omega, fun he => by omega, by omega⟩

end Index

end Blame
