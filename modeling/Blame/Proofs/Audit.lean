import Blame.Index.Audit

/-!
# What an audit finds

`Index.Consistent` says what the tables of an index promise one another, in terms of what they read as.
`Index.violations` goes through the entries of the tables; `violations_eq_nil_iff` says of which promises
it is the decision procedure. One promise is out of its sight: nobody walks through the causes of the
pointer variables, so a cause without its effect is not found.
-/

namespace Blame.Index

/-- The promises between the tables that an audit looks at. -/
structure Audited (ix : Index) : Prop where
  root_not_indirect : ∀ a ∈ ix.roots, a ∉ ix.indirect
  rootsInSource_root : ∀ a ∈ ix.rootsInSource, a ∈ ix.roots
  indirectInSource_indirect : ∀ a ∈ ix.indirectInSource, a ∈ ix.indirect
  effect_iff_cause : ∀ r a, a ∈ ix.effectsOf r ↔ r ∈ ix.causesOf a
  /-- A root is explained by nothing. -/
  root_unexplained : ∀ a ∈ ix.roots, ∀ r, r ∉ ix.causesOf a
  cause_of_pointerEffect : ∀ r p, (ix.pointerEffectsOf r).contains p = true → r ∈ ix.pointerCausesOf p

/-- The promises between the tables. -/
structure Consistent (ix : Index) : Prop extends Audited ix where
  pointerEffect_of_cause : ∀ r p, r ∈ ix.pointerCausesOf p → (ix.pointerEffectsOf r).contains p = true

section
variable {ix : Index}

theorem ifAny_eq_nil_iff {what : AtomSet → Violation} {s : AtomSet} :
    ifAny what s = [] ↔ ∀ a, a ∉ s := by
  rw [ifAny, ← AtomSet.isEmpty_iff]
  cases s.isEmpty <;> simp

theorem contains_pointersIn {t : AtomTable PointerSet} {r : Atom} {p : PointerId} :
    (pointersIn t r).contains p = true ↔ ∃ s, (r, s) ∈ t.entries ∧ s.contains p = true := by
  rw [pointersIn]
  constructor
  · cases h : t.find? r with
    | none => exact fun hp => absurd hp (by simp [PointerSet.contains_empty])
    | some s => exact fun hp => ⟨s, AtomTable.find?_eq_some_iff.1 h, hp⟩
  · rintro ⟨s, hs, hp⟩
    rw [AtomTable.find?_eq_some_iff.2 hs]
    exact hp

theorem checkEffects_eq_nil_iff :
    ix.checkEffects = [] ↔ ∀ r a, a ∈ ix.effectsOf r → r ∈ ix.causesOf a := by
  simp only [checkEffects, List.flatMap_eq_nil_iff, List.map_eq_nil_iff, List.filter_eq_nil_iff,
    decide_eq_true_eq, Decidable.not_not]
  constructor
  · intro h r a ha
    obtain ⟨s, hs, has⟩ := Relation.mem_image_iff.1 ha
    exact h (r, s) hs a has
  · intro h e he a ha
    exact h e.1 a (Relation.mem_image_iff.2 ⟨e.2, he, ha⟩)

theorem checkCauses_eq_nil_iff :
    ix.checkCauses = [] ↔ (∀ a ∈ ix.roots, ∀ r, r ∉ ix.causesOf a) ∧
      ∀ r a, r ∈ ix.causesOf a → a ∈ ix.effectsOf r := by
  have hroot : ∀ e : Atom × AtomSet,
      (if !e.2.isEmpty && ix.isRoot e.1 then [Violation.explainedRoot e.1 e.2] else []) = [] ↔
        (e.1 ∈ ix.roots → ∀ r, r ∉ e.2) := by
    intro e
    rw [← AtomSet.isEmpty_iff, ← isRoot_iff]
    cases e.2.isEmpty <;> cases ix.isRoot e.1 <;> simp
  simp only [checkCauses, List.flatMap_eq_nil_iff, List.append_eq_nil_iff, hroot, List.map_eq_nil_iff,
    List.filter_eq_nil_iff, decide_eq_true_eq, Decidable.not_not]
  constructor
  · intro h
    refine ⟨fun a ha r hr => ?_, fun r a hr => ?_⟩ <;>
      obtain ⟨s, hs, hrs⟩ := Relation.mem_image_iff.1 hr
    · exact (h (a, s) hs).1 ha r hrs
    · exact (h (a, s) hs).2 r hrs
  · rintro ⟨hu, hc⟩ e he
    exact ⟨fun ha r hr => hu e.1 ha r (Relation.mem_image_iff.2 ⟨e.2, he, hr⟩),
      fun r hr => hc r e.1 (Relation.mem_image_iff.2 ⟨e.2, he, hr⟩)⟩

theorem checkPointerEffects_eq_nil_iff :
    ix.checkPointerEffects = [] ↔
      ∀ r p, (ix.pointerEffectsOf r).contains p = true → r ∈ ix.pointerCausesOf p := by
  simp only [checkPointerEffects, List.flatMap_eq_nil_iff, List.map_eq_nil_iff, List.filter_eq_nil_iff,
    decide_eq_true_eq, Decidable.not_not]
  constructor
  · intro h r p hp
    obtain ⟨s, hs, hps⟩ := contains_pointersIn.1 hp
    -- The entry may hold another id of the same variable.
    obtain ⟨q, hq, hqp⟩ := PointerSet.contains_iff.1 hps
    have := h (r, s) hs q hq
    rwa [pointerCausesOf, PointerRelation.image_congr _ hqp] at this
  · intro h e he p hp
    exact h e.1 p (contains_pointersIn.2 ⟨e.2, he, PointerSet.contains_iff.2 ⟨p, hp, rfl⟩⟩)

theorem audited_iff : ix.Audited ↔ ix.violations = [] := by
  simp only [violations, List.append_eq_nil_iff, ifAny_eq_nil_iff, AtomSet.mem_inter, AtomSet.mem_diff,
    checkEffects_eq_nil_iff, checkCauses_eq_nil_iff, checkPointerEffects_eq_nil_iff]
  constructor
  · intro h
    exact ⟨⟨⟨⟨⟨fun a ha => h.root_not_indirect a ha.2 ha.1,
      fun a ha => ha.2 (h.rootsInSource_root a ha.1)⟩,
      fun a ha => ha.2 (h.indirectInSource_indirect a ha.1)⟩,
      fun r a => (h.effect_iff_cause r a).1⟩,
      h.root_unexplained, fun r a => (h.effect_iff_cause r a).2⟩, h.cause_of_pointerEffect⟩
  · rintro ⟨⟨⟨⟨⟨hdis, hrs⟩, his⟩, heff⟩, hun, hcau⟩, hptr⟩
    exact {
      root_not_indirect := fun a hr hi => hdis a ⟨hi, hr⟩
      rootsInSource_root := fun a hs => Decidable.not_not.1 fun hr => hrs a ⟨hs, hr⟩
      indirectInSource_indirect := fun a hs => Decidable.not_not.1 fun hi => his a ⟨hs, hi⟩
      effect_iff_cause := fun r a => ⟨heff r a, hcau r a⟩
      root_unexplained := hun
      cause_of_pointerEffect := hptr }

end

/-- An audit finds nothing iff the promises hold that it looks at, and these are all but one: an index is
consistent iff the audit finds nothing and no pointer variable has a cause without the effect. -/
theorem violations_eq_nil_iff (ix : Index) :
    (ix.violations = [] ↔ ix.Audited) ∧
    (ix.Consistent ↔ ix.violations = [] ∧
      ∀ r p, r ∈ ix.pointerCausesOf p → (ix.pointerEffectsOf r).contains p = true) := by
  refine ⟨audited_iff.symm, ?_⟩
  rw [← audited_iff]
  exact ⟨fun h => ⟨h.toAudited, h.pointerEffect_of_cause⟩, fun ⟨ha, hp⟩ => ⟨ha, hp⟩⟩

/-- A pointer variable with a cause that knows nothing of it. -/
def lonelyCause : Index := { pointerCauses := PointerRelation.empty.add (.scalar (.str "p")) 1 }

theorem violations_lonelyCause : lonelyCause.violations = [] ∧ ¬ lonelyCause.Consistent :=
  ⟨by decide, fun h => absurd (h.pointerEffect_of_cause 1 (.scalar (.str "p")) (by decide)) (by decide)⟩

end Blame.Index
