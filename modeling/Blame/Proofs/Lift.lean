import Blame.Proofs.Sound
import Mathlib.Data.List.Basic

/-!
# Lifting to pointer variables

`lift` goes through the edges between atoms and records, one by one, what follows for the pointer
variables. In a sound index nothing of that is refused, and afterwards a root explains a variable iff it
did so before or explains one of its levels.
-/

namespace Blame.Index

variable {ix : Index}

/-- Pairs of roots and variables are all recorded, and nothing else is touched. -/
theorem blamePointers_spec (n : Nat) (l : List (Atom × PointerId)) (hl : ∀ e ∈ l, e.1 ∈ ix.roots) :
    ∃ pe pc n', ix.blamePointers n l = ({ ix with pointerEffects := pe, pointerCauses := pc }, .ok n') ∧
      ∀ r p, (pointersIn pe r).contains p = true ↔
        (ix.pointerEffectsOf r).contains p = true ∨ ∃ e ∈ l, e.1 = r ∧ e.2.key = p.key := by
  induction l generalizing ix n with
  | nil => exact ⟨_, _, n, rfl, fun r p => by simp [pointerEffectsOf]⟩
  | cons e rest ih =>
    have hrest : ∀ e ∈ rest, e.1 ∈ ix.roots := fun e he => hl e (List.mem_cons_of_mem _ he)
    rcases ix.blamePointer_cases e.1 e.2 with ⟨hr, -⟩ | ⟨-, hp, ho⟩ | ⟨-, -, ho⟩
    · exact absurd (hl e List.mem_cons_self) hr
    · obtain ⟨pe, pc, n', hrun, hspec⟩ := ih n hrest
      refine ⟨pe, pc, n', by rw [blamePointers, ho]; exact hrun, fun r p => ?_⟩
      rw [hspec, List.exists_mem_cons_iff]
      refine ⟨fun h => h.imp_right .inr, fun h => h.elim .inl ?_⟩
      rintro (⟨rfl, hk⟩ | h)
      · exact .inl (PointerSet.contains_congr _ hk ▸ hp)
      · exact .inr h
    · obtain ⟨pe, pc, n', hrun, hspec⟩ := @ih { ix with
        pointerEffects := ix.pointerEffects.insert e.1 ((ix.pointerEffectsOf e.1).insert e.2)
        pointerCauses := ix.pointerCauses.add e.2 e.1 } (n + 1) hrest
      refine ⟨pe, pc, n', by rw [blamePointers, ho]; exact hrun, fun r p => ?_⟩
      rw [hspec, List.exists_mem_cons_iff, ← or_assoc]
      refine or_congr_left (contains_pointersIn_insert.trans ?_)
      rw [or_comm, @eq_comm _ r, @eq_comm _ p.key]
      rfl

/-- However the recording ends, only the relations of pointer variables are touched. -/
theorem blamePointers_eq (n : Nat) (l : List (Atom × PointerId)) :
    ∃ pe pc, (ix.blamePointers n l).1 = { ix with pointerEffects := pe, pointerCauses := pc } := by
  induction l generalizing ix n with
  | nil => exact ⟨_, _, rfl⟩
  | cons e rest ih =>
    rw [blamePointers]
    rcases ix.blamePointer_cases e.1 e.2 with ⟨-, ho⟩ | ⟨-, -, ho⟩ | ⟨-, -, ho⟩ <;> rw [ho]
    · exact ⟨_, _, rfl⟩
    · exact ih n
    · exact ih (n + 1)

theorem mem_liftedPairs {e : Atom × PointerId} :
    e ∈ ix.liftedPairs ↔ ∃ a, e.1 ∈ ix.causesOf a ∧ e.2 ∈ (ix.membersOf a).toList := by
  simp only [liftedPairs, List.mem_flatMap, List.mem_map]
  constructor
  · rintro ⟨c, hc, r, hr, p, hp, rfl⟩
    exact ⟨c.1, Relation.mem_image_iff.2 ⟨c.2, hc, hr⟩, hp⟩
  · rintro ⟨a, hr, hp⟩
    obtain ⟨s, hs, hr⟩ := Relation.mem_image_iff.1 hr
    exact ⟨(a, s), hs, e.1, hr, e.2, hp, rfl⟩

theorem exists_mem_liftedPairs {r : Atom} {p : PointerId} :
    (∃ e ∈ ix.liftedPairs, e.1 = r ∧ e.2.key = p.key) ↔
      ∃ a, r ∈ ix.causesOf a ∧ (ix.membersOf a).contains p = true := by
  simp only [mem_liftedPairs, PointerSet.contains_iff]
  constructor
  · rintro ⟨e, ⟨a, hr, hp⟩, rfl, hk⟩
    exact ⟨a, hr, e.2, hp, hk⟩
  · rintro ⟨a, hr, q, hq, hk⟩
    exact ⟨(r, q), ⟨a, hr, hq⟩, rfl, hk⟩

theorem Sound.lift_spec (h : ix.Sound) :
    ∃ pe pc n, ix.lift = ({ ix with pointerEffects := pe, pointerCauses := pc }, .ok n) ∧
      ∀ r p, (pointersIn pe r).contains p = true ↔ (ix.pointerEffectsOf r).contains p = true ∨
        ∃ a, r ∈ ix.causesOf a ∧ (ix.membersOf a).contains p = true := by
  have hl : ∀ e ∈ ix.liftedPairs, e.1 ∈ ix.roots := fun e he =>
    let ⟨_, hr, _⟩ := mem_liftedPairs.1 he
    h.root_of_cause hr
  obtain ⟨pe, pc, n, hrun, hspec⟩ := blamePointers_spec 0 ix.liftedPairs hl
  exact ⟨pe, pc, n, hrun, fun r p => by rw [hspec, exists_mem_liftedPairs]⟩

end Blame.Index
