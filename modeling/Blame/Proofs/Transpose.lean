import Blame.Proofs.Credit
import Blame.Report.Causes
import Blame.Report.Roots
import Mathlib.Data.List.Infix

/-!
# The report and the map of causes

Two views of the same edges: the report counts them root by root, the map of causes lists them atom by
atom. Neither ever asks for the diagnostic of an atom that has none, since in a sound index only roots
explain. Both lists are ascending, and the numbers of effects and of causes add up to the number of edges.
-/

namespace Blame

theorem Text.occursIn_iff {part cs : List CodePoint} : occursIn part cs = true ↔ part <:+: cs := by
  induction cs with
  | nil => rw [occursIn, List.isEmpty_iff, List.infix_nil]
  | cons c rest ih => rw [occursIn, Bool.or_eq_true, ih, List.isPrefixOf_iff_prefix, List.infix_cons_iff]

theorem mapM_eq_ok {ε α β : Type} {f : α → Except ε β} {g : α → β} {l : List α}
    (h : ∀ x ∈ l, f x = .ok (g x)) : l.mapM f = .ok (l.map g) := by
  induction l with
  | nil => rfl
  | cons x rest ih =>
    rw [List.mapM_cons, h x List.mem_cons_self, ih fun y hy => h y (List.mem_cons_of_mem x hy)]
    rfl

namespace Index

/-- A root that stands for a type argument nothing was put in for: its name contains the marker, and the
location of its diagnostic is absent or invalid. -/
def Unfilled (ix : Index) (nameOf : Atom → Text) (r : Atom) : Prop :=
  typeArgumentMarker.toList <:+: (nameOf r).toList ∧
    Location.onlyValid ((ix.diagnostics.find? r).bind (·.location)) = none

instance (ix : Index) (nameOf : Atom → Text) (r : Atom) : Decidable (ix.Unfilled nameOf r) :=
  inferInstanceAs (Decidable (_ ∧ _))

/-- What the map of causes says of an atom: the names of the roots with an edge to it, in ascending order
of the roots, without those that stand for nothing. -/
def causeEntryFor (ix : Index) (nameOf : Atom → Text) (a : Atom) : CauseEntry where
  atom := a
  name := nameOf a
  location := Location.onlyValid (ix.locationOf a)
  causes := (ix.roots.filter fun r => a ∈ ix.effectsOf r ∧ ¬ ix.Unfilled nameOf r).toList.map nameOf

section
variable {ix : Index} {nameOf : Atom → Text}

/-! ### No question without an answer -/

theorem mapM_rootEntry (ix : Index) (nameOf : Atom → Text) :
    ix.roots.toList.mapM (ix.rootEntry nameOf) = .ok (ix.rootReport nameOf).entries := by
  show (ix.diagnostics.entries.map Prod.fst).mapM (ix.rootEntry nameOf) = _
  rw [List.mapM_map]
  refine mapM_eq_ok fun e he => ?_
  have hd : ix.diagnostics.find? e.1 = some e.2 := AtomTable.find?_eq_some_iff.2 he
  simp only [Function.comp, rootEntry, diagnosticOf, hd]
  rfl

theorem isOpenTypeArgument_eq {r : Atom} (hr : r ∈ ix.roots) :
    ix.isOpenTypeArgument r (nameOf r) = .ok (decide (ix.Unfilled nameOf r)) := by
  obtain ⟨d, hd⟩ := AtomTable.mem_keys_iff.1 hr
  have hname : namesTypeArgument (nameOf r) = true ↔ typeArgumentMarker.toList <:+: (nameOf r).toList :=
    Text.occursIn_iff
  rw [isOpenTypeArgument, diagnosticOf, hd]
  by_cases hn : namesTypeArgument (nameOf r) = true
  · have hu : ix.Unfilled nameOf r ↔ Location.onlyValid d.location = none := by
      rw [Unfilled, hd]
      exact and_iff_right (hname.1 hn)
    rw [if_pos hn]
    show Except.ok _ = _
    cases hl : Location.onlyValid d.location <;> simp [hu, hl]
  · have hu : ¬ ix.Unfilled nameOf r := fun hu => hn (hname.2 hu.1)
    rw [if_neg hn, decide_eq_false hu]

/-- Only the names of roots are asked for, so nothing is refused. -/
theorem causeNames_eq {l : List Atom} (hl : ∀ r ∈ l, r ∈ ix.roots) :
    ix.causeNames nameOf l = .ok ((l.filter fun r => ¬ ix.Unfilled nameOf r).map nameOf) := by
  induction l with
  | nil => rfl
  | cons r rest ih =>
    rw [causeNames, isOpenTypeArgument_eq (hl r List.mem_cons_self),
      ih fun q hq => hl q (List.mem_cons_of_mem r hq)]
    by_cases hr : ix.Unfilled nameOf r <;> simp [hr, Except.map]

theorem Sound.causeEntry_eq (h : ix.Sound) (a : Atom) :
    ix.causeEntry nameOf a = .ok (ix.causeEntryFor nameOf a) := by
  have hl : ∀ r ∈ (ix.causesOf a).toList, r ∈ ix.roots := fun _ hr => h.root_of_cause hr
  have hcauses : (ix.causesOf a).filter (fun r => ¬ ix.Unfilled nameOf r) =
      ix.roots.filter fun r => a ∈ ix.effectsOf r ∧ ¬ ix.Unfilled nameOf r := by
    refine AtomSet.ext_mem fun r => ?_
    rw [← h.roots_filter_effects]
    simp [and_assoc]
  rw [causeEntry, causeNames_eq hl, causeEntryFor, ← hcauses]
  rfl

theorem Sound.causeMap_eq (h : ix.Sound) :
    ix.causeMap nameOf = .ok (ix.explained.toList.map (ix.causeEntryFor nameOf)) :=
  mapM_eq_ok fun a _ => h.causeEntry_eq a

/-! ### One entry for each atom -/

theorem map_atom_rootReport (ix : Index) (nameOf : Atom → Text) :
    (ix.rootReport nameOf).entries.map (·.atom) = ix.roots.toList := by
  rw [rootReport, List.map_map]
  rfl

theorem pairwise_atom_rootReport (ix : Index) (nameOf : Atom → Text) :
    ((ix.rootReport nameOf).entries.map (·.atom)).Pairwise (· < ·) := by
  rw [map_atom_rootReport]
  exact ix.roots.ascending

theorem map_atom_causeEntryFor (ix : Index) (nameOf : Atom → Text) (l : List Atom) :
    (l.map (ix.causeEntryFor nameOf)).map (·.atom) = l := by
  rw [List.map_map]
  exact List.map_id l

/-! ### The number of edges -/

open Finset

/-- The pairs of a relation, counted over any atoms among which are all that it relates to something. -/
theorem pairCount_eq_sum (t : Relation) {s : Finset Atom} (hs : ∀ a b, b ∈ Relation.image t a → a ∈ s) :
    Relation.pairCount t = ∑ a ∈ s, (Relation.image t a).toFinset.card := by
  have hentry : ∀ e ∈ t.entries, e.2.size = (Relation.image t e.1).toFinset.card := by
    intro e he
    rw [AtomSet.card_toFinset, Relation.image, AtomTable.find?_eq_some_iff.2 he]
    rfl
  have hkeys : Relation.pairCount t = ∑ a ∈ t.keys.toFinset, (Relation.image t a).toFinset.card := by
    have hcount : Relation.pairCount t = (t.entries.map fun e => e.2.size).sum := by
      rw [List.sum, List.foldr_map]
      rfl
    rw [hcount, List.map_congr_left hentry, AtomSet.sum_toFinset]
    show _ = ((t.entries.map Prod.fst).map _).sum
    rw [List.map_map]
    rfl
  have hzero : ∀ a, (∀ b, b ∉ Relation.image t a) → (Relation.image t a).toFinset.card = 0 := by
    intro a ha
    rw [card_eq_zero, eq_empty_iff_forall_notMem]
    exact fun b hb => ha b (AtomSet.mem_toFinset.1 hb)
  rw [hkeys]
  -- Keys outside `s` and atoms of `s` that are no keys are related to nothing.
  refine sum_congr_of_eq_on_inter (fun a _ ha => hzero a fun b hb => ha (hs a b hb))
    (fun a _ ha => hzero a fun b hb => ha ?_) fun a _ _ => rfl
  obtain ⟨u, hu, -⟩ := Relation.mem_image_iff.1 hb
  exact AtomSet.mem_toFinset.2 (AtomTable.mem_keys_iff.2 ⟨u, AtomTable.find?_eq_some_iff.2 hu⟩)

theorem Sound.sum_effects (h : ix.Sound) :
    ∑ r ∈ ix.roots.toFinset, (ix.effectsOf r).toFinset.card =
      ∑ a ∈ ix.explained.toFinset, (ix.causesOf a).toFinset.card := by
  simp only [card_eq_sum_ones]
  exact sum_comm' h.edge_iff

theorem Sound.edges_eq (h : ix.Sound) :
    ix.stats.edges = ∑ r ∈ ix.roots.toFinset, (ix.effectsOf r).toFinset.card :=
  pairCount_eq_sum ix.effects fun r a ha => AtomSet.mem_toFinset.2 (h.cause_root r a ha)

theorem Sound.sum_atomsAffected (h : ix.Sound) (nameOf : Atom → Text) :
    ((ix.rootReport nameOf).entries.map (·.atomsAffected)).sum = ix.stats.edges := by
  rw [h.edges_eq, AtomSet.sum_toFinset, rootReport]
  show _ = ((ix.diagnostics.entries.map Prod.fst).map _).sum
  simp only [List.map_map, AtomSet.card_toFinset]
  rfl

theorem Sound.sum_causeCounts (h : ix.Sound) (nameOf : Atom → Text) :
    ((ix.explained.toList.map (ix.causeEntryFor nameOf)).map fun e => ix.causeCount e.atom).sum =
      ix.stats.edges := by
  rw [h.edges_eq, h.sum_effects, AtomSet.sum_toFinset, List.map_map]
  simp only [AtomSet.card_toFinset]
  rfl

end

/-- The report and the map of causes are transposes of each other. Both can be had of every index that comes
up, for any names; each has one entry for each root, or for each explained atom, in ascending order. The
causes of an atom are the roots that list it among their effects, but for those that stand for nothing, and
both views count every edge once. -/
theorem report_causeMap_transpose (calls : List Call) (nameOf : Atom → Text) :
    let ix := after calls
    let report := ix.rootReport nameOf
    ix.roots.toList.mapM (ix.rootEntry nameOf) = .ok report.entries ∧
    report.entries.map (·.atom) = ix.roots.toList ∧
    (report.entries.map (·.atom)).Pairwise (· < ·) ∧
    ∃ entries, ix.causeMap nameOf = .ok entries ∧
      (entries.map (·.atom)).Pairwise (· < ·) ∧
      (∀ a, a ∈ entries.map (·.atom) ↔ ∃ r, r ∈ ix.causesOf a) ∧
      (∀ e ∈ entries, e.atom ∉ ix.roots ∧ e.causes =
        (ix.roots.filter fun r => e.atom ∈ ix.effectsOf r ∧ ¬ ix.Unfilled nameOf r).toList.map nameOf) ∧
      (report.entries.map (·.atomsAffected)).sum = (entries.map fun e => ix.causeCount e.atom).sum ∧
      (entries.map fun e => ix.causeCount e.atom).sum = ix.stats.edges := by
  intro ix report
  have h : ix.Sound := sound_after calls
  have hroots := ix.map_atom_rootReport nameOf
  have hatoms := ix.map_atom_causeEntryFor nameOf ix.explained.toList
  have hsum := h.sum_causeCounts nameOf
  refine ⟨ix.mapM_rootEntry nameOf, hroots, ?_, _, h.causeMap_eq, ?_, fun a => ?_, fun e he => ?_,
    (h.sum_atomsAffected nameOf).trans hsum.symm, hsum⟩
  · rw [hroots]
    exact ix.roots.ascending
  · rw [hatoms]
    exact ix.explained.ascending
  · rw [hatoms]
    exact mem_explained
  · obtain ⟨a, ha, rfl⟩ := List.mem_map.1 he
    obtain ⟨r, hr⟩ := mem_explained.1 ha
    exact ⟨fun hroot => h.root_unexplained a hroot r hr, rfl⟩

end Index

end Blame
