import Blame.Proofs.Transpose

/-!
# Indexes that read alike

A set of pointer variables keeps the order in which it grew, and a relation may hold an empty set or none.
None of that is seen from outside: of the variables a report shows only how many there are and what they
score, and a score is an exact sum that is rounded once. So indexes of which every question has the same
answer (`Index.Alike`) have the same reports. If they agree on all but what is in source
(`Index.SameBlame`), so do their reports.
-/

namespace Blame

theorem PointerSet.keys_congr {s t : PointerSet} (h : ∀ p, s.contains p = t.contains p) : s.keys = t.keys := by
  ext k
  simp only [mem_keys, h]

theorem PointerSet.size_eq_card (s : PointerSet) : s.size = s.keys.card := by
  rw [keys, List.toFinset_card_of_nodup s.distinct, List.length_map]
  rfl

namespace Index

/-- Every question but those for what is in source has the same answer in both indexes. -/
structure SameBlame (ix ix' : Index) : Prop where
  diagnostics : ix'.diagnostics = ix.diagnostics
  locations : ix'.locations = ix.locations
  names : ix'.names = ix.names
  indirect : ix'.indirect = ix.indirect
  effects : ∀ r, ix'.effectsOf r = ix.effectsOf r
  causes : ∀ a, ix'.causesOf a = ix.causesOf a
  pointerEffects : ∀ r p, (ix'.pointerEffectsOf r).contains p = (ix.pointerEffectsOf r).contains p
  pointerCauses : ∀ p, ix'.pointerCausesOf p = ix.pointerCausesOf p

/-- Every question that a report asks has the same answer in both indexes. -/
structure Alike (ix ix' : Index) : Prop extends SameBlame ix ix' where
  rootsInSource : ix'.rootsInSource = ix.rootsInSource
  indirectInSource : ix'.indirectInSource = ix.indirectInSource

/-- The score of a set of atoms is a sum over its members, in no order. -/
theorem atomScoreWith_eq (round : Rat → Rat) (ix : Index) (s : AtomSet) :
    ix.atomScoreWith round s.toList = round (∑ a ∈ s.toFinset, credit round (ix.causeCount a)) := by
  rw [atomScoreWith, creditSum_eq, AtomSet.sum_toFinset, List.map_map]
  rfl

/-- The score of a set of variables is a sum over their keys, in no order. -/
theorem pointerScoreWith_eq (round : Rat → Rat) (ix : Index) (s : PointerSet) :
    ix.pointerScoreWith round s.toList =
      round (∑ k ∈ s.keys, credit round (ix.causesOfKey k).size) := by
  rw [pointerScoreWith, creditSum_eq, PointerSet.sum_keys, List.map_map]
  rfl

variable {ix ix' : Index}

namespace SameBlame

theorem nameOf (h : ix.SameBlame ix') : ix'.nameOf = ix.nameOf := by
  funext a
  rw [Index.nameOf, Index.nameOf, h.names]

theorem roots (h : ix.SameBlame ix') : ix'.roots = ix.roots := by
  rw [Index.roots, Index.roots, h.diagnostics]

theorem reasons (h : ix.SameBlame ix') : ix'.reasons = ix.reasons := by
  rw [Index.reasons, Index.reasons, h.diagnostics]

theorem rootsFor (h : ix.SameBlame ix') (reason : Text) : ix'.rootsFor reason = ix.rootsFor reason := by
  rw [Index.rootsFor, Index.rootsFor, h.roots, h.diagnostics]

theorem jointEffects (h : ix.SameBlame ix') (l : List Atom) : ix'.jointEffects l = ix.jointEffects l := by
  rw [Index.jointEffects, Index.jointEffects, funext h.effects]

/-- The atoms that a bucket counts. -/
theorem affected (h : ix.SameBlame ix') (reason : Text) :
    (ix'.jointEffects (ix'.rootsFor reason).toList).inter ix'.indirect =
      (ix.jointEffects (ix.rootsFor reason).toList).inter ix.indirect := by
  rw [h.rootsFor, h.jointEffects, h.indirect]

theorem causeCount (h : ix.SameBlame ix') : ix'.causeCount = ix.causeCount := by
  funext a
  rw [Index.causeCount, Index.causeCount, h.causes]

theorem atomScore (h : ix.SameBlame ix') (l : List Atom) : ix'.atomScore l = ix.atomScore l := by
  rw [Index.atomScore, Index.atomScore, atomScoreWith, atomScoreWith, h.causeCount]

theorem pointerScore (h : ix.SameBlame ix') {s s' : PointerSet} (hs : ∀ p, s'.contains p = s.contains p) :
    ix'.pointerScore s'.toList = ix.pointerScore s.toList := by
  rw [Index.pointerScore, Index.pointerScore, pointerScoreWith_eq, pointerScoreWith_eq,
    PointerSet.keys_congr hs]
  congr 1
  refine Finset.sum_congr rfl fun k hk => ?_
  obtain ⟨p, rfl, -⟩ := PointerSet.mem_keys.1 hk
  show credit _ (ix'.pointerCausesOf p).size = credit _ (ix.pointerCausesOf p).size
  rw [h.pointerCauses]

theorem entryFor (h : ix.SameBlame ix') (nameOf : Atom → Text) (r : Atom) (d : Diagnostic) :
    ix'.entryFor nameOf r d = { ix.entryFor nameOf r d with inSource := ix'.isRootInSource r } := by
  have hsize : (ix'.pointerEffectsOf r).size = (ix.pointerEffectsOf r).size := by
    rw [PointerSet.size_eq_card, PointerSet.size_eq_card, PointerSet.keys_congr (h.pointerEffects r)]
  simp only [Index.entryFor, locationOf, h.locations, h.effects, h.atomScore, hsize,
    h.pointerScore (h.pointerEffects r)]

theorem causeNames (h : ix.SameBlame ix') (nameOf : Atom → Text) (l : List Atom) :
    ix'.causeNames nameOf l = ix.causeNames nameOf l := by
  induction l with
  | nil => rfl
  | cons r rest ih =>
    simp only [Index.causeNames, isOpenTypeArgument, diagnosticOf, h.diagnostics, ih]

theorem causeMap (h : ix.SameBlame ix') (nameOf : Atom → Text) :
    ix'.causeMap nameOf = ix.causeMap nameOf := by
  have hexplained : ix'.explained = ix.explained := by
    refine AtomSet.ext_mem fun a => ?_
    rw [mem_explained, mem_explained, h.causes]
  have hentry : ix'.causeEntry nameOf = ix.causeEntry nameOf := by
    funext a
    simp only [causeEntry, h.causes, h.causeNames, locationOf, h.locations]
  rw [Index.causeMap, Index.causeMap, hexplained, hentry]

end SameBlame

namespace Alike

theorem bucketFor (h : ix.Alike ix') (reason : Text) : ix'.bucketFor reason = ix.bucketFor reason := by
  rw [Index.bucketFor, Index.bucketFor, h.affected, h.rootsFor, h.indirectInSource, h.rootsInSource, h.atomScore]

theorem summary (h : ix.Alike ix') : ix'.summary = ix.summary := by
  rw [Index.summary, Index.summary, h.indirect, h.indirectInSource, h.roots, h.rootsInSource, h.reasons,
    funext h.bucketFor]

theorem rootReport (h : ix.Alike ix') (nameOf : Atom → Text) :
    ix'.rootReport nameOf = ix.rootReport nameOf := by
  have hentry : ix'.entryFor nameOf = ix.entryFor nameOf := by
    funext r d
    have hflag : ix'.isRootInSource r = ix.isRootInSource r := by
      rw [isRootInSource, isRootInSource, h.rootsInSource]
    rw [h.entryFor, hflag]
    rfl
  rw [Index.rootReport, Index.rootReport, h.diagnostics, hentry]

end Alike

end Index

end Blame
