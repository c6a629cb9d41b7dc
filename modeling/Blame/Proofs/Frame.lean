import Blame.Proofs.Calls
import Blame.Proofs.Load

/-!
# Atoms that a snapshot does not name

A load goes through every WILD atom of the index, those of earlier loads too. Whatever it does to an atom
that its records are silent on, it leaves the diagnostic, the name, the location and whether the atom is
indirect, wherever the load ends (`Index.SameAt`). But it files such an atom by the location that this
snapshot gives it, and that is none: once the atoms are settled it counts as not in source.
-/

namespace Blame

/-- The second index holds of an atom what the first one does, but for whether it is in source. -/
structure Index.SameAt (x : Atom) (ix ix' : Index) : Prop where
  diagnostic : ix'.diagnostics.find? x = ix.diagnostics.find? x
  indirect : x ∈ ix'.indirect ↔ x ∈ ix.indirect
  name : ix'.names.find? x = ix.names.find? x
  location : ix'.locationOf x = ix.locationOf x

/-- The atom is filed as in source neither among the roots nor among the indirect atoms. -/
def Index.Unfiled (ix : Index) (x : Atom) : Prop := x ∉ ix.rootsInSource ∧ x ∉ ix.indirectInSource

namespace Index

variable {x : Atom} {ix ix' : Index}

instance : IsPreorder Index (SameAt x) where
  refl _ := ⟨rfl, Iff.rfl, rfl, rfl⟩
  trans _ _ _ h k := ⟨k.diagnostic.trans h.diagnostic, k.indirect.trans h.indirect, k.name.trans h.name,
    k.location.trans h.location⟩

theorem SameAt.root (h : SameAt x ix ix') : x ∈ ix'.roots ↔ x ∈ ix.roots := by
  rw [roots, roots, AtomTable.mem_keys_iff, AtomTable.mem_keys_iff, h.diagnostic]

theorem sameAt_rename {a : Atom} (name : Text) (ha : a ≠ x) : SameAt x ix (ix.rename a name) := by
  refine ⟨rfl, Iff.rfl, ?_, rfl⟩
  rw [rename, AtomTable.find?_insert, if_neg ha]

theorem sameAt_insertIndirect {a : Atom} (ha : a ≠ x) :
    SameAt x ix { ix with indirect := ix.indirect.insert a } := by
  refine ⟨rfl, ?_, rfl, rfl⟩
  rw [AtomSet.mem_insert]
  exact or_iff_right (Ne.symm ha)

theorem sameAt_locate {a : Atom} {l : Option Location} (ha : a = x → l = none) :
    SameAt x ix (ix.locate a l) := by
  obtain ⟨locations, he, hl⟩ := ix.locate_eq a l
  rw [he]
  refine ⟨rfl, Iff.rfl, rfl, (hl x).trans ?_⟩
  by_cases hax : a = x
  · simp [hax, ha hax]
  · simp [hax]

theorem sameAt_fileInSource (a : Atom) (inSource : Bool) : SameAt x ix (ix.fileInSource a inSource) := by
  rcases ix.fileInSource_cases a inSource with ⟨-, ho⟩ | ⟨-, -, ho⟩ | ⟨-, -, ho⟩ <;> rw [ho] <;>
    exact ⟨rfl, Iff.rfl, rfl, rfl⟩

theorem sameAt_lift : SameAt x ix ix.lift.1 := by
  obtain ⟨pe, pc, ho⟩ := ix.blamePointers_eq 0 ix.liftedPairs
  rw [lift, ho]
  exact ⟨rfl, Iff.rfl, rfl, rfl⟩

section
variable {σ : Type} (c : Classifier σ) (memory : σ)

theorem sameAt_classify {a : Atom} {l : Option Location} (ha : a = x → l = none) :
    SameAt x ix (ix.classify c memory a l).index := by
  rw [classify]
  split
  · exact sameAt_locate ha
  · exact trans_of (SameAt x) (sameAt_locate ha) (sameAt_fileInSource a _)

/-- An atom without a location is filed as not in source, and nobody is asked. -/
theorem Sound.classify_unfiled (h : ix.Sound) : (ix.classify c memory x none).index.Unfiled x := by
  show (ix.fileInSource x false).Unfiled x
  rcases ix.fileInSource_cases x false with ⟨hr, ho⟩ | ⟨hr, hi, ho⟩ | ⟨hr, hi, ho⟩ <;> rw [ho]
  · refine ⟨fun hx => ?_, fun hx => h.root_not_indirect x hr (h.indirectInSource_indirect x hx)⟩
    simpa using mem_setMembership.1 hx
  · refine ⟨fun hx => hr (h.rootsInSource_root x hx), fun hx => ?_⟩
    simpa using mem_setMembership.1 hx
  · exact ⟨fun hx => hr (h.rootsInSource_root x hx), fun hx => hi (h.indirectInSource_indirect x hx)⟩

theorem Unfiled.fileInSource (h : ix.Unfiled x) {a : Atom} (ha : a ≠ x) (inSource : Bool) :
    (ix.fileInSource a inSource).Unfiled x := by
  have hother : ∀ s : AtomSet, x ∈ setMembership inSource a s ↔ x ∈ s := fun s => by
    rw [mem_setMembership, if_neg (Ne.symm ha)]
  rcases ix.fileInSource_cases a inSource with ⟨-, ho⟩ | ⟨-, -, ho⟩ | ⟨-, -, ho⟩ <;> rw [ho]
  · exact ⟨mt (hother _).1 h.1, h.2⟩
  · exact ⟨h.1, mt (hother _).1 h.2⟩
  · exact h

theorem Unfiled.classify (h : ix.Unfiled x) {a : Atom} (ha : a ≠ x) (l : Option Location) :
    (ix.classify c memory a l).index.Unfiled x := by
  have hlocate : (ix.locate a l).Unfiled x := by
    cases l <;> exact h
  rw [Index.classify]
  split
  · exact hlocate
  · exact hlocate.fileInSource ha _

end

end Index

namespace Snapshot

open Index Stage

/-- No record names the atom. -/
structure Records.SilentOn (s : Records) (x : Atom) : Prop where
  atom : ∀ r ∈ s.atoms, r.atom ≠ x
  root : ∀ r ∈ s.roots, r.atom ≠ x
  edge : ∀ r ∈ s.edges, r.root ≠ x ∧ r.affected ≠ x
  indirect : x ∉ s.indirect
  pointer : ∀ r ∈ s.pointers, x ∉ r.atoms

section
variable {σ : Type} {c : Classifier σ} {x : Atom} {ix : Index} {d : Document}

theorem Records.SilentOn.place?_eq_none {s : Records} (h : s.SilentOn x) : s.place? x = none := by
  have hatoms : lastSome (fun r : AtomRecord => if r.atom = x then r.location else none) s.atoms = none :=
    lastSome_eq_none_iff.2 fun r hr => if_neg (h.atom r hr)
  have hroots : s.roots.find? (·.atom = x) = none :=
    List.find?_eq_none.2 fun r hr => by simpa using h.root r hr
  rw [Records.place?, hatoms, hroots]
  rfl

theorem Records.SilentOn.ne_indirect {s : Records} (h : s.SilentOn x) {a : Atom} (ha : a ∈ s.indirect) :
    a ≠ x := by
  rintro rfl
  exact h.indirect ha

/-! ### What stays -/

theorem sameAt_applyName {a : Atom} (name : Option Text) (ha : a ≠ x) :
    SameAt x ix (applyName a name ix) := by
  cases name with
  | none => exact refl_of (SameAt x) ix
  | some s => exact sameAt_rename s ha

theorem sameAt_applyAtom {r : AtomRecord} (hr : r.atom ≠ x) {q : Index × List LogLine}
    (ho : applyAtom ix r = .ok q) : SameAt x ix q.1 := by
  cases ho
  exact sameAt_applyName r.name hr

theorem sameAt_applyRoot {r : RootRecord} (hr : r.atom ≠ x) {q : Index × List LogLine}
    (ho : applyRoot ix r = .ok q) : SameAt x ix q.1 := by
  rw [applyRoot] at ho
  rcases ix.declareRoot_cases r.atom r.diagnostic with ⟨-, he⟩ | ⟨-, he⟩ <;> rw [he] at ho <;> cases ho
  have hd : SameAt x ix { ix with diagnostics := ix.diagnostics.insert r.atom r.diagnostic } := by
    refine ⟨?_, Iff.rfl, rfl, rfl⟩
    rw [AtomTable.find?_insert, if_neg hr]
  exact trans_of (SameAt x) hd (sameAt_applyName r.name hr)

theorem sameAt_applyEdge {r : EdgeRecord} (hr : r.affected ≠ x) {q : Index × List LogLine}
    (ho : applyEdge ix r = .ok q) : SameAt x ix q.1 := by
  rw [applyEdge] at ho
  rcases ix.blame_cases r.root r.affected with ⟨-, he⟩ | ⟨-, -, _, -, he⟩ | ⟨-, -, he⟩ <;>
    rw [he] at ho <;> cases ho
  · exact refl_of (SameAt x) ix
  · have hi : SameAt x ix { ix with indirect := ix.indirect.insert r.affected } := sameAt_insertIndirect hr
    exact ⟨hi.diagnostic, hi.indirect, hi.name, hi.location⟩

theorem sameAt_applyIndirect {a : Atom} (ha : a ≠ x) {q : Index × List LogLine}
    (ho : applyIndirect ix a = .ok q) : SameAt x ix q.1 := by
  rw [applyIndirect] at ho
  rcases ix.declareIndirect_cases a with ⟨-, he⟩ | ⟨-, he⟩ <;> rw [he] at ho <;> cases ho
  exact sameAt_insertIndirect ha

theorem sameAt_applyPointer {r : PointerRecord} {q : Index × List LogLine}
    (ho : applyPointer ix r = .ok q) : SameAt x ix q.1 := by
  cases ho
  obtain ⟨members, he, -⟩ := foldl_join_eq r.pointer r.atoms ix
  rw [he]
  exact ⟨rfl, Iff.rfl, rfl, rfl⟩

theorem sameAt_fillPlace {e : Atom × Option Location} (he : e.1 = x → e.2 = none) :
    SameAt x ix (fillPlace ix e) := by
  rw [fillPlace]
  split
  · exact sameAt_locate he
  · exact refl_of (SameAt x) ix

/-- Wherever the load ends. -/
theorem sameAt_stages (c : Classifier σ) (hx : d.records.SilentOn x) : (stages c d).Within (SameAt x) := by
  have hplace : (d.places.find? x).join = none := by
    rw [Document.find?_places, hx.place?_eq_none]
  have hclassify : ∀ ix memory a, SameAt x ix (ix.classify c memory a (d.places.find? a).join).index :=
    fun ix memory a => sameAt_classify c memory fun ha => ha ▸ hplace
  have hfill : ∀ e ∈ d.places.entries, ∀ ix, SameAt x ix (fillPlace ix e) := fun e he ix => by
    refine sameAt_fillPlace fun hex => ?_
    rw [← hex, AtomTable.find?_eq_some_iff.2 he] at hplace
    exact hplace
  exact Stage.within_stages (fun r hr _ _ => sameAt_applyAtom (hx.atom r hr))
    (fun r hr _ _ => sameAt_applyRoot (hx.root r hr)) (fun r hr _ _ => sameAt_applyEdge (hx.edge r hr).2)
    (fun a ha _ _ => sameAt_applyIndirect (hx.ne_indirect ha)) (fun _ _ _ _ => sameAt_applyPointer)
    (fun _ => sameAt_lift) hclassify hfill

/-! ### What does not -/

theorem meets_settleAtoms {places : AtomTable (Option Location)} (hx : (places.find? x).join = none)
    (l : List Atom) :
    Meets (fun ix => ix.Sound ∧ (x ∈ l ∨ ix.Unfiled x)) (settleAtoms c places l) (·.Unfiled x)
      fun _ => True := by
  -- The atom is still to be visited, or it was and nobody files it again.
  induction l with
  | nil => exact fun p hp => hp.2.resolve_left List.not_mem_nil
  | cons a rest ih =>
    rintro p ⟨hs, hl⟩
    have hsound := hs.classify c p.memory a (places.find? a).join
    have hrest : x ∈ rest ∨ (p.index.classify c p.memory a (places.find? a).join).index.Unfiled x := by
      by_cases hax : a = x
      · rw [hax, hx]
        exact .inr (hs.classify_unfiled c p.memory)
      · refine hl.imp (fun hm => (List.mem_cons.1 hm).resolve_left (Ne.symm hax)) fun hu => ?_
        exact hu.classify c p.memory hax _
    unfold settleAtoms
    dsimp only
    cases ho : (p.index.classify c p.memory a (places.find? a).join).inSource with
    | ok _ => exact ih { index := _, memory := _, log := _ } ⟨hsound, hrest⟩
    | error _ => trivial

/-- An atom that is not WILD is not visited, but is not filed either. -/
theorem meets_settleStage {places : AtomTable (Option Location)} (hx : (places.find? x).join = none) :
    Meets Index.Sound (settleStage c places) (·.Unfiled x) fun _ => True := by
  intro p hp
  refine meets_settleAtoms hx _ p ⟨hp, ?_⟩
  by_cases hw : x ∈ p.index.roots.union p.index.indirect
  · exact .inl hw
  · rw [AtomSet.mem_union, not_or] at hw
    exact .inr ⟨mt (hp.rootsInSource_root x) hw.1, mt (hp.indirectInSource_indirect x) hw.2⟩

theorem meets_fillStage (places : AtomTable (Option Location)) :
    Meets (σ := σ) (·.Unfiled x) (fillStage places) (·.Unfiled x) fun _ => True := by
  intro p hp
  obtain ⟨locations, he, -⟩ := foldl_fillPlace_eq places.entries p.index
  rw [fillStage, he]
  exact hp

theorem meets_sound {f : Stage σ} (hf : f.Within Writes) : Meets Index.Sound f Index.Sound fun _ => True :=
  hf.meets fun _ _ h hw => hw.sound h

theorem meets_unfiled (c : Classifier σ) (hx : d.records.SilentOn x) :
    Meets Index.Sound (stages c d) (·.Unfiled x) fun _ => True := by
  have hplace : (d.places.find? x).join = none := by
    rw [Document.find?_places, hx.place?_eq_none]
  have hstop : ∀ fault : Option Fault,
      Meets (σ := σ) (·.Unfiled x) (stopAt fault) (·.Unfiled x) fun _ => True :=
    fun _ => meets_stopAt_of_fault fun _ _ => trivial
  exact (meets_sound (within_ofSection applyAtom_writes _)).andThen <|
    (meets_sound (within_ofSection applyRoot_writes _)).andThen <|
    (meets_sound (within_ofSection applyEdge_writes _)).andThen <|
    (meets_say _).andThen <|
    (meets_sound (within_ofSection applyIndirect_writes _)).andThen <|
    (meets_sound (within_ofSection applyPointer_writes _)).andThen <|
    (meets_sound (within_liftStage lift_writes _)).andThen <|
    (meets_settleStage hplace).andThen <|
    (meets_fillStage _).andThen <|
    (hstop _).andThen <|
    (hstop _).andThen <|
    (meets_say _).andThen <|
    (hstop _).andThen <|
    meets_say _

end

/-- Of an atom that no record names a load changes nothing, even one that fails, except that a load that
goes through leaves it filed as not in source, wherever it was filed before. -/
theorem load_frame {σ : Type} (calls : List Call) (c : Classifier σ) (memory : σ) (members : Members)
    (x : Atom) (hx : (Document.ofMembers members).records.SilentOn x) :
    let ix := Index.after calls
    let l := load c memory ix (Document.ofMembers members)
    (x ∈ l.progress.index.roots ↔ x ∈ ix.roots) ∧ SameAt x ix l.progress.index ∧
    (l.error = none → x ∉ l.progress.index.rootsInSource ∧ x ∉ l.progress.index.indirectInSource) := by
  intro ix l
  have hsame : SameAt x ix l.progress.index := sameAt_stages c hx { index := ix, memory }
  refine ⟨hsame.root, hsame, fun ho => ?_⟩
  exact (meets_unfiled c hx).of_load (sound_after calls) ho

/-- A root in source. -/
def oneRootMembers : Members :=
  [("roots", .list [.obj [("atom", .int 1), ("reason", .str "Cast"),
    ("location", .obj [("file", .str "a.c"), ("line", .int 3)])]])]

theorem load_frame_oneRoot :
    let ix := Index.after [.load (.ofPred (· == "a.c")) () oneRootMembers]
    let d := Document.ofMembers [("roots", .list [])]
    let l := load (.ofPred (· == "a.c")) () ix d
    d.records.SilentOn 1 ∧ l.error = none ∧ SameAt 1 ix l.progress.index ∧
    1 ∉ l.progress.index.rootsInSource := by
  intro ix d l
  have hx : d.records.SilentOn 1 := ⟨by decide, by decide, by decide, by decide, by decide⟩
  have ho : l.error = none := rfl
  obtain ⟨-, hsame, hfiled⟩ := load_frame _ (.ofPred (· == "a.c")) () [("roots", .list [])] 1 hx
  exact ⟨hx, ho, hsame, (hfiled ho).1⟩

/-- A snapshot without records takes the root out of source, though it leaves it its place there. -/
theorem rootsInSource_oneRoot :
    let ix := Index.after [.load (.ofPred (· == "a.c")) () oneRootMembers]
    let l := load (.ofPred (· == "a.c")) () ix (Document.ofMembers [("roots", .list [])])
    l.error = none ∧ 1 ∈ ix.rootsInSource ∧ 1 ∉ l.progress.index.rootsInSource ∧
    ix.locationOf 1 = some ⟨"a.c", 3, 0, 0⟩ ∧ l.progress.index.locationOf 1 = some ⟨"a.c", 3, 0, 0⟩ := by
  refine ⟨rfl, ?_, ?_, ?_, ?_⟩ <;> decide

end Snapshot

end Blame
