import Blame.Proofs.Load

/-!
# Reasons and places after a load

What a load says of the reasons and the places of atoms does not depend on what the classifier answers, as long as
it does answer: only what is in source does. Once the sections are through, nothing writes a diagnostic, and an atom
gets no location but the one that the snapshot gives it (`PlacedFrom`). So a load that goes through leaves an empty
index with the diagnostics and the locations of the records (`Situates`).
-/

namespace Blame

open Snapshot

/-- From the first index to the second no diagnostic has changed, and locations only to those of the table. -/
structure Index.PlacedFrom (places : AtomTable (Option Location)) (ix ix' : Index) : Prop where
  diagnostics : ix'.diagnostics = ix.diagnostics
  location : ∀ a, ix'.locationOf a = ix.locationOf a ∨ ix'.locationOf a = (places.find? a).join

namespace Index
variable {places : AtomTable (Option Location)} {ix : Index}

instance : IsPreorder Index (PlacedFrom places) where
  refl _ := ⟨rfl, fun _ => .inl rfl⟩
  trans _ _ _ h k := by
    refine ⟨k.diagnostics.trans h.diagnostics, fun a => ?_⟩
    rcases k.location a with ha | ha
    · rw [ha]
      exact h.location a
    · exact .inr ha

theorem placedFrom_locate (a : Atom) : PlacedFrom places ix (ix.locate a (places.find? a).join) := by
  obtain ⟨locations, he, hlocations⟩ := ix.locate_eq a (places.find? a).join
  rw [he]
  refine ⟨rfl, fun b => ?_⟩
  have hb : ({ ix with locations } : Index).locationOf b = _ := hlocations b
  rw [hb]
  split
  · rename_i hab
    subst hab
    cases (places.find? a).join with
    | none => exact .inl Option.none_or
    | some l => exact .inr rfl
  · exact .inl Option.none_or

theorem placedFrom_fileInSource (a : Atom) (inSource : Bool) : PlacedFrom places ix (ix.fileInSource a inSource) := by
  rcases ix.fileInSource_cases a inSource with ⟨-, ho⟩ | ⟨-, -, ho⟩ | ⟨-, -, ho⟩ <;> rw [ho] <;>
    exact ⟨rfl, fun _ => .inl rfl⟩

theorem placedFrom_classify {σ : Type} (c : Classifier σ) (memory : σ) (a : Atom) :
    PlacedFrom places ix (ix.classify c memory a (places.find? a).join).index := by
  rw [classify]
  split
  · exact placedFrom_locate a
  · exact trans_of (PlacedFrom places) (placedFrom_locate a) (placedFrom_fileInSource a _)

theorem placedFrom_lift : PlacedFrom places ix ix.lift.1 := by
  obtain ⟨pe, pc, ho⟩ := ix.blamePointers_eq 0 ix.liftedPairs
  rw [lift, ho]
  exact ⟨rfl, fun _ => .inl rfl⟩

end Index

namespace Snapshot

open Stage

/-- The index has the diagnostics of the records, and an atom that has a location has that of the records. -/
structure Situating (s : Records) (ix : Index) : Prop where
  diagnostic : ∀ a, ix.diagnostics.find? a = s.diagnostic? a
  location : ∀ a, ix.locationOf a = none ∨ ix.locationOf a = s.place? a

/-- The index has the diagnostics and the locations of the records. -/
structure Situates (s : Records) (ix : Index) : Prop where
  diagnostic : ∀ a, ix.diagnostics.find? a = s.diagnostic? a
  location : ∀ a, ix.locationOf a = s.place? a

theorem Describes.situates {accepts : Text → Bool} {s : Records} {ix : Index} (h : Describes accepts s ix) :
    Situates s ix :=
  ⟨h.diagnostic, h.location⟩

section
variable {σ : Type} {d : Document} {s : Records} {ix ix' : Index}

theorem Underway.situating (h : Underway {} s ix) : Situating s ix where
  diagnostic a := (h.diagnostic a).trans Option.or_none
  location a := by
    refine .inl ?_
    rw [Index.locationOf, h.kept.1]
    exact AtomTable.find?_empty a

theorem Situating.placedFrom (h : Situating d.records ix) (hp : Index.PlacedFrom d.places ix ix') :
    Situating d.records ix' where
  diagnostic a := by
    rw [hp.diagnostics]
    exact h.diagnostic a
  location a := by
    rw [← d.find?_places]
    rcases hp.location a with ha | ha
    · rw [ha, d.find?_places]
      exact h.location a
    · exact .inr ha

theorem meets_situating {f : Stage σ} (hf : f.Within (Index.PlacedFrom d.places)) :
    Meets (Situating d.records) f (Situating d.records) fun _ => True :=
  hf.meets fun _ _ => Situating.placedFrom

/-- The atoms that have no location yet are those that get theirs last. -/
theorem meets_fillStage_situates (d : Document) :
    Meets (σ := σ) (Situating d.records) (fillStage d.places) (Situates d.records) fun _ => True := by
  intro p hp
  obtain ⟨locations, he, hlocations⟩ := foldl_fillPlace_eq d.places.entries p.index
  rw [fillStage, he]
  refine ⟨hp.diagnostic, fun a => (hlocations a).trans ?_⟩
  rw [findSome?_entries, d.find?_places]
  rcases hp.location a with ha | ha <;> rw [ha]
  · exact Option.none_or
  · exact Option.or_self

theorem within_liftStage_placedFrom (lists : Bool) (places : AtomTable (Option Location)) :
    (liftStage (σ := σ) lists).Within (Index.PlacedFrom places) :=
  within_liftStage (fun _ => Index.placedFrom_lift) lists

theorem within_settleStage_placedFrom (c : Classifier σ) (places : AtomTable (Option Location)) :
    (settleStage c places).Within (Index.PlacedFrom places) := fun p =>
  within_settleAtoms (fun _ memory a => Index.placedFrom_classify c memory a) _ p

theorem meets_situates (c : Classifier σ) (hd : d.WellFormed) :
    Meets (Underway {} {}) (stages c d) (Situates d.records) fun _ => True :=
  (meets_atoms hd.atoms).anyError.andThen <|
  (meets_roots hd.roots).anyError.andThen <|
  (meets_edges hd.edges).anyError.andThen <|
  (meets_say _).andThen <|
  (meets_indirect hd.indirect).anyError.andThen <|
  (meets_pointers hd.pointers).anyError.andThen <|
  ((within_liftStage_placedFrom _ d.places).meets fun _ _ h => h.situating.placedFrom).andThen <|
  (meets_situating (within_settleStage_placedFrom c d.places)).andThen <|
  (meets_fillStage_situates d).andThen <|
  (meets_stopAt hd.casts).andThen <|
  (meets_stopAt hd.voids).andThen <|
  (meets_say _).andThen <|
  (meets_stopAt hd.counts).andThen <|
  meets_say _

theorem situates_of_load {c : Classifier σ} {memory : σ} (ho : (load c memory {} d).error = none) :
    Situates d.records (load c memory {} d).progress.index :=
  (meets_situates c (wellFormed_of_load ho)).of_load
    ⟨recorded_nil Index.sound_empty, rfl, rfl, rfl, rfl, rfl⟩ ho

end

end Snapshot

end Blame
