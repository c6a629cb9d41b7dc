import Blame.Index.Write
import Blame.Proofs.Audit

/-!
# Sound indexes

The promises between the tables (`Index.Consistent`) are not kept by each call for itself: an atom that is
explained could become a root. `Index.Sound` adds what prevents that. An explained atom is indirect, so
`declareRoot` refuses it, and only roots explain. Every call that writes keeps `Sound`, and a sound index
is consistent.
-/

namespace Blame.Index

/-- What every call that writes an index keeps. -/
structure Sound (ix : Index) : Prop where
  effect_iff_cause : ∀ r a, a ∈ ix.effectsOf r ↔ r ∈ ix.causesOf a
  pointerEffect_iff_cause : ∀ r p, (ix.pointerEffectsOf r).contains p = true ↔ r ∈ ix.pointerCausesOf p
  root_not_indirect : ∀ a ∈ ix.roots, a ∉ ix.indirect
  rootsInSource_root : ∀ a ∈ ix.rootsInSource, a ∈ ix.roots
  indirectInSource_indirect : ∀ a ∈ ix.indirectInSource, a ∈ ix.indirect
  explained_indirect : ∀ r a, r ∈ ix.causesOf a → a ∈ ix.indirect
  cause_root : ∀ r a, a ∈ ix.effectsOf r → r ∈ ix.roots
  pointerCause_root : ∀ r p, (ix.pointerEffectsOf r).contains p = true → r ∈ ix.roots

theorem mem_roots_insert {ix : Index} {a b : Atom} {d : Diagnostic} :
    b ∈ roots { ix with diagnostics := ix.diagnostics.insert a d } ↔ b = a ∨ b ∈ ix.roots :=
  AtomTable.mem_keys_insert

theorem contains_pointersIn_insert {t : AtomTable PointerSet} {r x : Atom} {p q : PointerId} :
    (pointersIn (t.insert r ((pointersIn t r).insert p)) x).contains q = true ↔
      (x = r ∧ q.key = p.key) ∨ (pointersIn t x).contains q = true := by
  by_cases h : r = x
  · subst h
    simp [pointersIn, AtomTable.find?_insert, PointerSet.contains_insert]
  · simp [pointersIn, AtomTable.find?_insert, h, Ne.symm h]

theorem mem_image_addPointer {t : PointerRelation} {p q : PointerId} {r x : Atom} :
    x ∈ (t.add p r).image q ↔ (x = r ∧ q.key = p.key) ∨ x ∈ t.image q := by
  rw [PointerRelation.image_add]
  by_cases h : q.key = p.key
  · rw [if_pos h, AtomSet.mem_insert, PointerRelation.image_congr t h]
    simp [h]
  · simp [h]

theorem mem_of_mem_setMembership {s t : AtomSet} {member : Bool} {a : Atom} (hs : ∀ b ∈ s, b ∈ t)
    (ha : a ∈ t) : ∀ b ∈ setMembership member a s, b ∈ t := by
  intro b hb
  cases member with
  | true => exact (AtomSet.mem_insert.1 hb).elim (fun e => e ▸ ha) (hs b)
  | false => exact hs b (AtomSet.mem_erase.1 hb).1

theorem sound_empty : Sound {} where
  effect_iff_cause _ _ := iff_of_false AtomSet.not_mem_empty AtomSet.not_mem_empty
  pointerEffect_iff_cause _ _ := iff_of_false Bool.false_ne_true AtomSet.not_mem_empty
  root_not_indirect _ _ := AtomSet.not_mem_empty
  rootsInSource_root _ h := absurd h AtomSet.not_mem_empty
  indirectInSource_indirect _ h := absurd h AtomSet.not_mem_empty
  explained_indirect _ _ h := absurd h AtomSet.not_mem_empty
  cause_root _ _ h := absurd h AtomSet.not_mem_empty
  pointerCause_root _ _ h := absurd h Bool.false_ne_true

namespace Sound
variable {ix ix' : Index}

theorem root_unexplained (h : ix.Sound) : ∀ a ∈ ix.roots, ∀ r, r ∉ ix.causesOf a :=
  fun a ha r hr => h.root_not_indirect a ha (h.explained_indirect r a hr)

theorem root_of_cause (h : ix.Sound) {r a : Atom} (hr : r ∈ ix.causesOf a) : r ∈ ix.roots :=
  h.cause_root r a ((h.effect_iff_cause r a).2 hr)

theorem consistent (h : ix.Sound) : ix.Consistent where
  root_not_indirect := h.root_not_indirect
  rootsInSource_root := h.rootsInSource_root
  indirectInSource_indirect := h.indirectInSource_indirect
  effect_iff_cause := h.effect_iff_cause
  root_unexplained := h.root_unexplained
  cause_of_pointerEffect := fun r p => (h.pointerEffect_iff_cause r p).1
  pointerEffect_of_cause := fun r p => (h.pointerEffect_iff_cause r p).2

/-- Locations, names and members play no part. -/
theorem aside (h : ix.Sound) (locations : AtomTable Location) (names : AtomTable Text)
    (members : AtomTable PointerSet) : Sound { ix with locations, names, members } :=
  ⟨h.effect_iff_cause, h.pointerEffect_iff_cause, h.root_not_indirect, h.rootsInSource_root,
    h.indirectInSource_indirect, h.explained_indirect, h.cause_root, h.pointerCause_root⟩

theorem refile (h : ix.Sound) {R I : AtomSet} (hR : ∀ a ∈ R, a ∈ ix.roots)
    (hI : ∀ a ∈ I, a ∈ ix.indirect) : Sound { ix with rootsInSource := R, indirectInSource := I } :=
  ⟨h.effect_iff_cause, h.pointerEffect_iff_cause, h.root_not_indirect, hR, hI, h.explained_indirect,
    h.cause_root, h.pointerCause_root⟩

theorem insertRoot (h : ix.Sound) {a : Atom} (d : Diagnostic) (ha : a ∉ ix.indirect) :
    Sound { ix with diagnostics := ix.diagnostics.insert a d } where
  effect_iff_cause := h.effect_iff_cause
  pointerEffect_iff_cause := h.pointerEffect_iff_cause
  root_not_indirect b hb := by
    rcases mem_roots_insert.1 hb with rfl | hb
    · exact ha
    · exact h.root_not_indirect b hb
  rootsInSource_root b hb := mem_roots_insert.2 (.inr (h.rootsInSource_root b hb))
  indirectInSource_indirect := h.indirectInSource_indirect
  explained_indirect := h.explained_indirect
  cause_root r b hb := mem_roots_insert.2 (.inr (h.cause_root r b hb))
  pointerCause_root r p hp := mem_roots_insert.2 (.inr (h.pointerCause_root r p hp))

theorem insertIndirect (h : ix.Sound) {a : Atom} (ha : a ∉ ix.roots) :
    Sound { ix with indirect := ix.indirect.insert a } where
  effect_iff_cause := h.effect_iff_cause
  pointerEffect_iff_cause := h.pointerEffect_iff_cause
  root_not_indirect b hb hi := by
    rcases AtomSet.mem_insert.1 hi with rfl | hi
    · exact ha hb
    · exact h.root_not_indirect b hb hi
  rootsInSource_root := h.rootsInSource_root
  indirectInSource_indirect b hb := AtomSet.mem_insert.2 (.inr (h.indirectInSource_indirect b hb))
  explained_indirect r b hr := AtomSet.mem_insert.2 (.inr (h.explained_indirect r b hr))
  cause_root := h.cause_root
  pointerCause_root := h.pointerCause_root

theorem insertEdge (h : ix.Sound) {r a : Atom} (hr : r ∈ ix.roots) (ha : a ∉ ix.roots) :
    Sound { ix with
      indirect := ix.indirect.insert a
      effects := Relation.add r a ix.effects
      causes := Relation.add a r ix.causes } where
  effect_iff_cause q b := by
    show b ∈ Relation.image (Relation.add r a ix.effects) q ↔
      q ∈ Relation.image (Relation.add a r ix.causes) b
    rw [Relation.mem_image_add, Relation.mem_image_add, and_comm]
    exact or_congr_right (h.effect_iff_cause q b)
  pointerEffect_iff_cause := h.pointerEffect_iff_cause
  root_not_indirect := (h.insertIndirect ha).root_not_indirect
  rootsInSource_root := h.rootsInSource_root
  indirectInSource_indirect := (h.insertIndirect ha).indirectInSource_indirect
  explained_indirect q b hq := by
    rcases Relation.mem_image_add.1 hq with ⟨rfl, -⟩ | hq
    · exact AtomSet.mem_insert.2 (.inl rfl)
    · exact AtomSet.mem_insert.2 (.inr (h.explained_indirect q b hq))
  cause_root q b hb := by
    rcases Relation.mem_image_add.1 hb with ⟨rfl, -⟩ | hb
    · exact hr
    · exact h.cause_root q b hb
  pointerCause_root := h.pointerCause_root

theorem insertPointerEdge (h : ix.Sound) {r : Atom} (p : PointerId) (hr : r ∈ ix.roots) :
    Sound { ix with
      pointerEffects := ix.pointerEffects.insert r ((ix.pointerEffectsOf r).insert p)
      pointerCauses := ix.pointerCauses.add p r } where
  effect_iff_cause := h.effect_iff_cause
  pointerEffect_iff_cause q s :=
    contains_pointersIn_insert.trans
      ((or_congr_right (h.pointerEffect_iff_cause q s)).trans mem_image_addPointer.symm)
  root_not_indirect := h.root_not_indirect
  rootsInSource_root := h.rootsInSource_root
  indirectInSource_indirect := h.indirectInSource_indirect
  explained_indirect := h.explained_indirect
  cause_root := h.cause_root
  pointerCause_root q s hs := by
    rcases contains_pointersIn_insert.1 hs with ⟨rfl, -⟩ | hs
    · exact hr
    · exact h.pointerCause_root q s hs

theorem locate (h : ix.Sound) (a : Atom) (l : Option Location) : (ix.locate a l).Sound := by
  cases l with
  | none => exact h
  | some l => exact h.aside _ _ _

theorem rename (h : ix.Sound) (a : Atom) (name : Text) : (ix.rename a name).Sound := h.aside _ _ _

theorem join (h : ix.Sound) (a : Atom) (p : PointerId) : (ix.join a p).Sound := h.aside _ _ _

theorem fileInSource (h : ix.Sound) (a : Atom) (inSource : Bool) : (ix.fileInSource a inSource).Sound := by
  rw [Index.fileInSource]
  split
  · exact h.refile (mem_of_mem_setMembership h.rootsInSource_root (isRoot_iff.1 ‹_›))
      h.indirectInSource_indirect
  · split
    · exact h.refile h.rootsInSource_root (mem_of_mem_setMembership h.indirectInSource_indirect ‹_›)
    · exact h

theorem classify {σ : Type} (h : ix.Sound) (c : Classifier σ) (memory : σ) (a : Atom)
    (l : Option Location) : (ix.classify c memory a l).index.Sound := by
  rw [Index.classify]
  split
  · exact h.locate a l
  · exact (h.locate a l).fileInSource a _

theorem declareRoot (h : ix.Sound) {a : Atom} {d : Diagnostic} (ho : ix.declareRoot a d = .ok ix') :
    ix'.Sound := by
  rcases ix.declareRoot_cases a d with ⟨-, he⟩ | ⟨ha, he⟩ <;> rw [he] at ho <;> cases ho
  exact h.insertRoot d ha

theorem declareIndirect (h : ix.Sound) {a : Atom} {new : Bool}
    (ho : ix.declareIndirect a = .ok (ix', new)) : ix'.Sound := by
  rcases ix.declareIndirect_cases a with ⟨-, he⟩ | ⟨ha, he⟩ <;> rw [he] at ho <;> cases ho
  exact h.insertIndirect ha

theorem blame (h : ix.Sound) {r a : Atom} {fate : EdgeFate} (ho : ix.blame r a = .ok (ix', fate)) :
    ix'.Sound := by
  rcases ix.blame_cases r a with ⟨-, he⟩ | ⟨-, -, _, -, he⟩ | ⟨hr, ha, he⟩ <;> rw [he] at ho <;> cases ho
  · exact h
  · exact h.insertEdge hr ha

theorem blamePointer (h : ix.Sound) {r : Atom} {p : PointerId} {new : Bool}
    (ho : ix.blamePointer r p = .ok (ix', new)) : ix'.Sound := by
  rcases ix.blamePointer_cases r p with ⟨-, he⟩ | ⟨-, -, he⟩ | ⟨hr, -, he⟩ <;> rw [he] at ho <;> cases ho
  · exact h
  · exact h.insertPointerEdge p hr

theorem blamePointers (h : ix.Sound) (n : Nat) (l : List (Atom × PointerId)) :
    (ix.blamePointers n l).1.Sound := by
  induction l generalizing ix n with
  | nil => exact h
  | cons e rest ih =>
    rw [Index.blamePointers]
    split
    · exact ih (h.blamePointer ‹_›) _
    · exact h

theorem lift (h : ix.Sound) : ix.lift.1.Sound := h.blamePointers 0 _

end Sound

end Blame.Index
