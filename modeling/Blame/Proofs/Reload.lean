import Blame.Proofs.Growth
import Blame.Proofs.Load

/-!
# Loading a snapshot again

A second load of the same snapshot meets its own records: roots that are roots, edges that are there,
locations that are settled. None of them contradicts the index, and what the records make of it
(`Yields`) is what it holds already. That settles the tables which a load overwrites; the relations, to
which it only adds, are the same because they hold between the same things (`Index.Grows`).
-/

namespace Blame.Snapshot

variable {accepts : Text → Bool} {ix₀ ix ix' : Index} {s : Records} {lists : Bool}

namespace Yields

theorem declared_root (h : Yields accepts ix₀ s lists ix) {a : Atom} (ha : s.Declares a) : a ∈ ix.roots :=
  (h.mem_roots a).2 (.inl ha)

/-- The records do not contradict an index into which they were loaded. -/
theorem not_contradict (h : Yields accepts ix₀ s lists ix) : ¬ s.Contradict ix := by
  rintro (⟨x, hx, hi⟩ | ⟨e, he, hr⟩ | ⟨a, ha, hr⟩)
  · exact h.sound.root_not_indirect x.atom (h.declared_root ⟨x, hx, rfl⟩) hi
  · exact hr (.inr (h.edge_root e he))
  · have hi : a ∈ ix.indirect := (h.indirect a).2 (.inr (.inr ha))
    have hroot : a ∈ ix.roots := hr.elim h.declared_root id
    exact h.sound.root_not_indirect a hroot hi

section
variable (h : Yields accepts ix₀ s lists ix) (h' : Yields accepts ix s lists ix')
include h h'

/-! ### Tables that a load overwrites -/

theorem diagnostics_again : ix'.diagnostics = ix.diagnostics := by
  refine AtomTable.ext_find? fun a => ?_
  rw [h'.diagnostic, h.diagnostic]
  cases s.diagnostic? a <;> rfl

theorem names_again : ix'.names = ix.names := by
  refine AtomTable.ext_find? fun a => ?_
  rw [h'.name, h.name]
  cases s.name? a <;> rfl

theorem roots_again : ix'.roots = ix.roots := by
  rw [Index.roots, Index.roots, h.diagnostics_again h']

theorem indirect_again : ix'.indirect = ix.indirect := by
  refine AtomSet.ext_mem fun a => ?_
  rw [h'.indirect, h.roots_again h']
  refine ⟨fun ha => ha.elim id fun hnew => ?_, .inl⟩
  exact (h.indirect a).2 (.inr hnew)

theorem locations_again : ix'.locations = ix.locations := by
  refine AtomTable.ext_find? fun a => ?_
  have hnew := h'.location a
  have hold := h.location a
  rw [h.roots_again h', h.indirect_again h'] at hnew
  show ix'.locationOf a = ix.locationOf a
  by_cases hw : a ∈ ix.roots ∨ a ∈ ix.indirect
  · rw [if_pos hw] at hnew hold
    rw [hnew, hold]
    cases s.place? a <;> rfl
  · rw [if_neg hw] at hnew hold
    rw [hnew, hold]
    cases ix₀.locationOf a <;> cases s.place? a <;> rfl

theorem rootsInSource_again : ix'.rootsInSource = ix.rootsInSource := by
  refine AtomSet.ext_mem fun a => ?_
  by_cases ha : a ∈ ix.roots
  · have ha' : a ∈ ix'.roots := h.roots_again h' ▸ ha
    rw [h'.rootInSource a ha', h.rootInSource a ha]
  · have ha' : a ∉ ix'.roots := h.roots_again h' ▸ ha
    exact iff_of_false (mt (h'.sound.rootsInSource_root a) ha') (mt (h.sound.rootsInSource_root a) ha)

theorem indirectInSource_again : ix'.indirectInSource = ix.indirectInSource := by
  refine AtomSet.ext_mem fun a => ?_
  by_cases ha : a ∈ ix.indirect
  · have ha' : a ∈ ix'.indirect := h.indirect_again h' ▸ ha
    rw [h'.indirectInSource a ha', h.indirectInSource a ha]
  · have ha' : a ∉ ix'.indirect := h.indirect_again h' ▸ ha
    exact iff_of_false (mt (h'.sound.indirectInSource_indirect a) ha')
      (mt (h.sound.indirectInSource_indirect a) ha)

/-! ### Relations -/

theorem effect_again {r a : Atom} (ha : a ∈ ix'.effectsOf r) : a ∈ ix.effectsOf r := by
  rw [h'.effect, h.roots_again h'] at ha
  refine ha.elim id fun hnew => ?_
  exact (h.effect r a).2 (.inr hnew)

theorem cause_again {r a : Atom} (hr : r ∈ ix'.causesOf a) : r ∈ ix.causesOf a := by
  rw [← h'.sound.effect_iff_cause] at hr
  exact (h.sound.effect_iff_cause r a).1 (h.effect_again h' hr)

theorem member_again {a : Atom} {p : PointerId} (hp : (ix'.membersOf a).contains p = true) :
    (ix.membersOf a).contains p = true := by
  rw [h'.member] at hp
  refine hp.elim id fun hnew => ?_
  exact (h.member a p).2 (.inr hnew)

theorem pointerEffect_again {r : Atom} {p : PointerId} (hp : (ix'.pointerEffectsOf r).contains p = true) :
    (ix.pointerEffectsOf r).contains p = true := by
  rw [h'.pointerEffect] at hp
  rcases hp with hold | ⟨hl, a, hr, ha⟩
  · exact hold
  · exact (h.pointerEffect r p).2 (.inr ⟨hl, a, h.cause_again h' hr, h.member_again h' ha⟩)

theorem pointerCause_again {r : Atom} {p : PointerId} (hr : r ∈ ix'.pointerCausesOf p) :
    r ∈ ix.pointerCausesOf p := by
  rw [← h'.sound.pointerEffect_iff_cause] at hr
  exact (h.sound.pointerEffect_iff_cause r p).1 (h.pointerEffect_again h' hr)

theorem eq_again (hg : Index.Grows ix ix') : ix' = ix := by
  apply Index.ext
  case diagnostics => exact h.diagnostics_again h'
  case locations => exact h.locations_again h'
  case names => exact h.names_again h'
  case rootsInSource => exact h.rootsInSource_again h'
  case indirect => exact h.indirect_again h'
  case indirectInSource => exact h.indirectInSource_again h'
  case effects => exact hg.effects.2 fun _ _ => h.effect_again h'
  case causes => exact hg.causes.2 fun _ _ => h.cause_again h'
  case members => exact hg.members.2 fun _ _ => h.member_again h'
  case pointerEffects => exact hg.pointerEffects.2 fun _ _ => h.pointerEffect_again h'
  case pointerCauses => exact hg.pointerCauses.2 fun _ _ => h.pointerCause_again h'

end

end Yields

/-- A snapshot that was loaded can be loaded again, and no table of the index changes. -/
theorem load_idempotent (calls : List Call) (accepts : Text → Bool) (members : Members) :
    let d := Document.ofMembers members
    let first := load (.ofPred accepts) () (Index.after calls) d
    first.error = none →
      let second := load (.ofPred accepts) () first.progress.index d
      second.error = none ∧ second.progress.index = first.progress.index := by
  intro d first ho second
  have h : Yields accepts (Index.after calls) d.records d.listsPointers first.progress.index :=
    yields_of_load (Index.sound_after calls) ho
  rcases load_yields accepts h.sound (wellFormed_of_load ho) with ⟨hc, -⟩ | ⟨ho', h'⟩
  · exact absurd hc h.not_contradict
  · exact ⟨ho', h.eq_again h' (load_grows _ _ _ d)⟩

/-- An atom of the snapshot has a cause and a location before it is loaded. -/
def earlierCalls : List Call :=
  [.write (.declareRoot 9 ⟨"Extern", none, []⟩), .write (.blame 9 5),
    .write (.locate 5 (some ⟨"b.c", 1, 0, 0⟩))]

theorem load_idempotent_twiceTold :
    let d := Document.ofMembers twiceToldMembers
    let first := load (.ofPred (· == "a.c")) () (Index.after earlierCalls) d
    let second := load (.ofPred (· == "a.c")) () first.progress.index d
    first.error = none ∧ (first.progress.index.causesOf 5).toList = [1, 9] ∧
    second.error = none ∧ second.progress.index = first.progress.index := by
  refine ⟨rfl, ?_, load_idempotent earlierCalls (· == "a.c") twiceToldMembers rfl⟩
  decide +kernel

end Blame.Snapshot
