import Blame.Proofs.Alike
import Blame.Proofs.Buckets
import Blame.Proofs.Load
import Blame.Proofs.Rounding
import Mathlib.Algebra.Order.BigOperators.Group.Finset

/-!
# What a classifier decides

A load asks the classifier when the records are written, and writes its answers into the two sets of atoms
in source and nowhere else. So of two loads the one with the wider classifier differs in these sets alone,
and they are wider (`Index.FiledMore`); a report shows it in the flags, the counts and the scores of what is
in source, none of which gets smaller.
-/

namespace Blame

open Number

namespace Index

/-- The second index has at least as much in source as the first and is the same in all else. -/
def FiledMore (ix ix' : Index) : Prop :=
  ∃ R I, ix' = { ix with rootsInSource := R, indirectInSource := I } ∧
    (∀ a ∈ ix.rootsInSource, a ∈ R) ∧ ∀ a ∈ ix.indirectInSource, a ∈ I

instance : Std.Refl FiledMore where
  refl ix := ⟨ix.rootsInSource, ix.indirectInSource, rfl, fun _ h => h, fun _ h => h⟩

theorem mem_setMembership_mono {b b' : Bool} (hb : b = true → b' = true) (x : Atom) {s t : AtomSet}
    (h : ∀ a ∈ s, a ∈ t) : ∀ a ∈ setMembership b x s, a ∈ setMembership b' x t := by
  intro a ha
  rw [mem_setMembership] at ha ⊢
  split
  · rename_i hax
    rw [if_pos hax] at ha
    exact hb ha
  · rename_i hax
    rw [if_neg hax] at ha
    exact h a ha

namespace FiledMore
variable {ix ix' : Index}

theorem locate (h : ix.FiledMore ix') (a : Atom) (l : Option Location) :
    (ix.locate a l).FiledMore (ix'.locate a l) := by
  obtain ⟨R, I, rfl, hR, hI⟩ := h
  cases l with
  | none => exact ⟨R, I, rfl, hR, hI⟩
  | some l => exact ⟨R, I, rfl, hR, hI⟩

theorem fileInSource (h : ix.FiledMore ix') (a : Atom) {b b' : Bool} (hb : b = true → b' = true) :
    (ix.fileInSource a b).FiledMore (ix'.fileInSource a b') := by
  obtain ⟨R, I, rfl, hR, hI⟩ := h
  have hroot : ({ ix with rootsInSource := R, indirectInSource := I } : Index).isRoot a = ix.isRoot a := rfl
  rw [Index.fileInSource, Index.fileInSource, hroot]
  split
  · exact ⟨_, I, rfl, mem_setMembership_mono hb a hR, hI⟩
  · split
    · exact ⟨R, _, rfl, hR, mem_setMembership_mono hb a hI⟩
    · exact ⟨R, I, rfl, hR, hI⟩

theorem sameBlame (h : ix.FiledMore ix') : ix.SameBlame ix' := by
  obtain ⟨R, I, rfl, -, -⟩ := h
  exact ⟨rfl, rfl, rfl, rfl, fun _ => rfl, fun _ => rfl, fun _ _ => rfl, fun _ => rfl⟩

theorem rootsInSource (h : ix.FiledMore ix') : ∀ a ∈ ix.rootsInSource, a ∈ ix'.rootsInSource := by
  obtain ⟨R, I, rfl, hR, -⟩ := h
  exact hR

theorem indirectInSource (h : ix.FiledMore ix') : ∀ a ∈ ix.indirectInSource, a ∈ ix'.indirectInSource := by
  obtain ⟨R, I, rfl, -, hI⟩ := h
  exact hI

end FiledMore

end Index

/-! ### Reports -/

/-- Two entries say the same of a root, but the second may say that it is in source where the first does
not. -/
structure RootEntry.FlaggedMore (e e' : RootEntry) : Prop where
  rest : e' = { e with inSource := e'.inSource }
  flag : e.inSource = true → e'.inSource = true

/-- Two buckets count the same roots and the same atoms, of which the second has at least as many in
source. -/
structure ReasonBucket.FiledMore (b b' : ReasonBucket) : Prop where
  reason : b'.reason = b.reason
  count : b'.count = b.count
  indirectCount : b'.indirectCount = b.indirectCount
  inSourceCount : b.inSourceCount ≤ b'.inSourceCount
  inSourceIndirectCount : b.inSourceIndirectCount ≤ b'.inSourceIndirectCount
  inSourceScore : b.inSourceScore ≤ b'.inSourceScore

theorem credit_nonneg (k : Nat) : 0 ≤ credit round53 k := by
  rw [credit]
  split
  · exact le_refl 0
  · exact round53_nonneg (by positivity)

namespace Index

/-- The exact sum grows with the set, and rounding keeps the order. -/
theorem atomScore_mono (ix : Index) {s t : AtomSet} (h : ∀ a ∈ s, a ∈ t) :
    ix.atomScore s.toList ≤ ix.atomScore t.toList := by
  have hsub : s.toFinset ⊆ t.toFinset := fun a ha => AtomSet.mem_toFinset.2 (h a (AtomSet.mem_toFinset.1 ha))
  have hnonneg : ∀ a, 0 ≤ credit round53 (ix.causeCount a) := fun a => credit_nonneg _
  rw [atomScore, atomScore, atomScoreWith_eq, atomScoreWith_eq]
  refine round53_mono (Finset.sum_nonneg fun a _ => hnonneg a) ?_
  exact Finset.sum_le_sum_of_subset_of_nonneg hsub fun a _ _ => hnonneg a

theorem inter_mono (u : AtomSet) {s t : AtomSet} (h : ∀ a ∈ s, a ∈ t) : ∀ a ∈ u.inter s, a ∈ u.inter t := by
  intro a ha
  rw [AtomSet.mem_inter] at ha ⊢
  exact ⟨ha.1, h a ha.2⟩

namespace FiledMore
variable {ix ix' : Index}

theorem flag (h : ix.FiledMore ix') (r : Atom) (hr : ix.isRootInSource r = true) :
    ix'.isRootInSource r = true := by
  rw [isRootInSource, decide_eq_true_iff] at hr ⊢
  exact h.rootsInSource r hr

theorem entries (h : ix.FiledMore ix') (nameOf : Atom → Text) :
    List.Forall₂ RootEntry.FlaggedMore (ix.rootReport nameOf).entries (ix'.rootReport nameOf).entries := by
  rw [rootReport, rootReport, h.sameBlame.diagnostics]
  dsimp only
  rw [List.forall₂_map_left_iff, List.forall₂_map_right_iff, List.forall₂_same]
  intro e _
  exact ⟨h.sameBlame.entryFor nameOf e.1 e.2, h.flag e.1⟩

theorem macroLocations (h : ix.FiledMore ix') (nameOf : Atom → Text) :
    (ix'.rootReport nameOf).macroLocations = (ix.rootReport nameOf).macroLocations := by
  have hplace : ∀ r d, (ix'.entryFor nameOf r d).macroLocation = (ix.entryFor nameOf r d).macroLocation := by
    intro r d
    rw [h.sameBlame.entryFor]
    rfl
  rw [rootReport, rootReport, h.sameBlame.diagnostics]
  simp only [List.map_map, Function.comp_def, hplace]

theorem bucketFor (h : ix.FiledMore ix') (reason : Text) :
    (ix.bucketFor reason).FiledMore (ix'.bucketFor reason) := by
  have hs := h.sameBlame
  have hatoms := inter_mono ((ix.jointEffects (ix.rootsFor reason).toList).inter ix.indirect) h.indirectInSource
  rw [Index.bucketFor, Index.bucketFor, hs.affected, hs.rootsFor]
  exact {
    reason := rfl
    count := rfl
    indirectCount := rfl
    inSourceCount := AtomSet.size_le_of_forall_mem (inter_mono _ h.rootsInSource)
    inSourceIndirectCount := AtomSet.size_le_of_forall_mem hatoms
    inSourceScore := by
      rw [hs.atomScore]
      exact ix.atomScore_mono hatoms }

theorem buckets (h : ix.FiledMore ix') :
    List.Forall₂ ReasonBucket.FiledMore ix.summary.buckets ix'.summary.buckets := by
  rw [summary, summary, h.sameBlame.reasons]
  dsimp only
  rw [List.forall₂_map_left_iff, List.forall₂_map_right_iff, List.forall₂_same]
  intro reason _
  exact h.bucketFor reason

end FiledMore

end Index

/-! ### Loads -/

namespace Snapshot

open Index Stage

theorem inSource_mono {accepts accepts' : Text → Bool} (h : ∀ f, accepts f = true → accepts' f = true)
    {l : Option Location} (hl : inSource accepts l = true) : inSource accepts' l = true := by
  rw [inSource] at hl ⊢
  cases hvalid : Location.onlyValid l with
  | none =>
    rw [hvalid] at hl
    cases hl
  | some l' =>
    rw [hvalid] at hl
    exact h l'.file hl

section
variable {accepts accepts' : Text → Bool} (h : ∀ f, accepts f = true → accepts' f = true)
  (places : AtomTable (Option Location))
include h

theorem coupled_settleAtoms (l : List Atom) :
    (settleAtoms (.ofPred accepts) places l).Coupled FiledMore (settleAtoms (.ofPred accepts') places l) := by
  intro p q hpq
  induction l generalizing p q with
  | nil => exact ⟨hpq, rfl⟩
  | cons a rest ih =>
    simp only [settleAtoms, classify, askInSource_ofPred]
    exact ih _ _ ((hpq.locate a _).fileInSource a (inSource_mono h))

theorem coupled_settleStage :
    (settleStage (.ofPred accepts) places).Coupled FiledMore (settleStage (.ofPred accepts') places) := by
  intro p q hpq
  have hroots : q.index.roots = p.index.roots := hpq.sameBlame.roots
  have hindirect : q.index.indirect = p.index.indirect := hpq.sameBlame.indirect
  rw [settleStage, settleStage, hroots, hindirect]
  exact coupled_settleAtoms h places _ p q hpq

end

theorem filedMore_fillPlace {ix ix' : Index} (h : ix.FiledMore ix') (e : Atom × Option Location) :
    (fillPlace ix e).FiledMore (fillPlace ix' e) := by
  have hlocation : ix'.locationOf e.1 = ix.locationOf e.1 := by
    rw [locationOf, locationOf, h.sameBlame.locations]
  rw [fillPlace, fillPlace, hlocation]
  split
  · exact h.locate e.1 e.2
  · exact h

theorem coupled_fillStage {σ : Type} (places : AtomTable (Option Location)) :
    (fillStage (σ := σ) places).Coupled FiledMore (fillStage places) := by
  have hfold : ∀ (l : List (Atom × Option Location)) (ix ix' : Index), ix.FiledMore ix' →
      (l.foldl fillPlace ix).FiledMore (l.foldl fillPlace ix') := by
    intro l
    induction l with
    | nil => exact fun _ _ h => h
    | cons e rest ih => exact fun _ _ h => ih _ _ (filedMore_fillPlace h e)
  exact fun p q h => ⟨hfold places.entries p.index q.index h, rfl⟩

/-- Of two loads of one document the one with the wider classifier ends in the same way and files more. -/
theorem load_filedMore {accepts accepts' : Text → Bool} (h : ∀ f, accepts f = true → accepts' f = true)
    (ix : Index) (d : Document) :
    (load (.ofPred accepts) () ix d).progress.index.FiledMore
      (load (.ofPred accepts') () ix d).progress.index ∧
    (load (.ofPred accepts) () ix d).error = (load (.ofPred accepts') () ix d).error := by
  have hend := (coupled_settleStage h d.places).andThen <| (coupled_fillStage d.places).andThen <|
    (coupled_stopAt d.casts.fault).andThen <| (coupled_stopAt d.voids.fault).andThen <|
    (coupled_say (fun _ => unknownCounters d.counts.records) fun _ => unknownCounters d.counts.records).andThen <|
    (coupled_stopAt d.counts.fault).andThen <| coupled_say (fun p => loadedLog p.index) fun p => loadedLog p.index
  have hall := hend.after ((ofSection applyAtom d.atoms).andThen <| (ofSection applyRoot d.roots).andThen <|
    (ofSection applyEdge d.edges).andThen <| (say fun p => ignoredLog d.edges.records p.index).andThen <|
    (ofSection applyIndirect d.indirect).andThen <| (ofSection applyPointer d.pointers).andThen <|
    liftStage d.listsPointers) { index := ix, memory := () }
  simp only [andThen_assoc] at hall
  exact hall

/-- A wider classifier changes nothing but what is in source, and never to less. -/
theorem load_verdicts_monotone (members : Members) {accepts accepts' : Text → Bool}
    (h : ∀ f, accepts f = true → accepts' f = true) :
    let first := load (.ofPred accepts) () {} (Document.ofMembers members)
    let second := load (.ofPred accepts') () {} (Document.ofMembers members)
    let ix := first.progress.index
    let ix' := second.progress.index
    first.error = second.error ∧
    ix.FiledMore ix' ∧
    ix'.causeMap ix'.nameOf = ix.causeMap ix.nameOf ∧
    List.Forall₂ RootEntry.FlaggedMore (ix.rootReport ix.nameOf).entries (ix'.rootReport ix'.nameOf).entries ∧
    (ix'.rootReport ix'.nameOf).macroLocations = (ix.rootReport ix.nameOf).macroLocations ∧
    List.Forall₂ ReasonBucket.FiledMore ix.summary.buckets ix'.summary.buckets := by
  intro first second ix ix'
  obtain ⟨hmore, herr⟩ := load_filedMore h {} (Document.ofMembers members)
  have hname : ix'.nameOf = ix.nameOf := hmore.sameBlame.nameOf
  refine ⟨herr, hmore, ?_, ?_, ?_, hmore.buckets⟩ <;> rw [hname]
  · exact hmore.sameBlame.causeMap ix.nameOf
  · exact hmore.entries ix.nameOf
  · exact hmore.macroLocations ix.nameOf

/-- Two roots of one reason and two atoms, one of each in either file. -/
def twoFilesMembers : Members :=
  [("atoms", .list [
      .obj [("id", .int 5), ("location", .obj [("file", .str "a.c"), ("line", .int 7)])],
      .obj [("id", .int 6), ("location", .obj [("file", .str "b.c"), ("line", .int 8)])]]),
    ("roots", .list [
      .obj [("atom", .int 1), ("reason", .str "Cast"),
        ("location", .obj [("file", .str "a.c"), ("line", .int 3)])],
      .obj [("atom", .int 2), ("reason", .str "Cast"),
        ("location", .obj [("file", .str "b.c"), ("line", .int 4)])]]),
    ("propagation", .list [.list [.int 1, .int 5], .list [.int 2, .int 5], .list [.int 2, .int 6]])]

theorem load_verdicts_monotone_twoFiles :
    let first := load (.ofPred (· == "a.c")) () {} (Document.ofMembers twoFilesMembers)
    let second := load (.ofPred fun f => f == "a.c" || f == "b.c") () {} (Document.ofMembers twoFilesMembers)
    let ix := first.progress.index
    let ix' := second.progress.index
    (∀ f : Text, (f == "a.c") = true → (f == "a.c" || f == "b.c") = true) ∧
    ix.rootsInSource.toList = [1] ∧ ix'.rootsInSource.toList = [1, 2] ∧
    (ix.bucketFor "Cast").inSourceScore = 1 / 2 ∧ (ix'.bucketFor "Cast").inSourceScore = 3 / 2 ∧
    first.error = second.error ∧ ix.FiledMore ix' ∧
    ix'.causeMap ix'.nameOf = ix.causeMap ix.nameOf ∧
    List.Forall₂ RootEntry.FlaggedMore (ix.rootReport ix.nameOf).entries (ix'.rootReport ix'.nameOf).entries ∧
    (ix'.rootReport ix'.nameOf).macroLocations = (ix.rootReport ix.nameOf).macroLocations ∧
    List.Forall₂ ReasonBucket.FiledMore ix.summary.buckets ix'.summary.buckets := by
  have h : ∀ f : Text, (f == "a.c") = true → (f == "a.c" || f == "b.c") = true := fun f hf => by simp [hf]
  refine ⟨h, ?_, ?_, ?_, ?_, load_verdicts_monotone twoFilesMembers h⟩ <;> decide +kernel

end Snapshot

end Blame
