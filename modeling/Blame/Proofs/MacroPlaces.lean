import Blame.Proofs.RetoldRoots
import Blame.Proofs.Transpose
import Mathlib.Data.List.Nodup
import Mathlib.Order.Bounds.Basic

/-!
# The list of macro locations

The report goes through the roots in ascending order and lists the place of a macro root unless it is listed already.
So a place stands where its smallest macro root puts it (`pairwise_collectPlaces`), and a root that comes to the others
can put in or move its own place only: without that place the list is what it was (`filter_collectPlaces`).
-/

namespace Blame

/-! ### Places as they come up -/

section
variable {seen : List Location} {xs ys : List (Option Location)} {place : Option Location} {l : Location}

theorem collectPlaces_append (seen : List Location) (xs ys : List (Option Location)) :
    collectPlaces seen (xs ++ ys) = collectPlaces (collectPlaces seen xs) ys := by
  induction xs generalizing seen with
  | nil => rfl
  | cons x rest ih =>
    cases x with
    | none => exact ih seen
    | some l => exact ih _

theorem collectPlaces_concat (xs : List (Option Location)) (l : Location) :
    collectPlaces [] (xs ++ [some l]) =
      if some l ∈ xs then collectPlaces [] xs else collectPlaces [] xs ++ [l] := by
  have hl : l ∈ collectPlaces [] xs ↔ some l ∈ xs := mem_collectPlaces.trans (or_iff_right List.not_mem_nil)
  rw [collectPlaces_append, collectPlaces]
  simp only [hl]
  rfl

theorem collectPlaces_cons_of_mem (h : place = none ∨ ∃ l ∈ seen, place = some l) :
    collectPlaces seen (place :: xs) = collectPlaces seen xs := by
  rcases h with rfl | ⟨l, hl, rfl⟩
  · rfl
  · rw [collectPlaces, if_pos hl]

theorem nodup_collectPlaces (h : seen.Nodup) (xs : List (Option Location)) : (collectPlaces seen xs).Nodup := by
  induction xs generalizing seen with
  | nil => exact h
  | cons x rest ih =>
    cases x with
    | none => exact ih h
    | some l =>
      refine ih ?_
      split
      · exact h
      · rename_i hl
        exact h.append (List.nodup_singleton l) (List.disjoint_singleton.2 hl)

/-- What is left out of the list may as well be left out of the places. -/
theorem filter_collectPlaces (place : Option Location) (seen : List Location) (xs : List (Option Location)) :
    (collectPlaces seen xs).filter (some · ≠ place) =
      collectPlaces (seen.filter (some · ≠ place)) (xs.filter (· ≠ place)) := by
  induction xs generalizing seen with
  | nil => rfl
  | cons x rest ih =>
    cases x with
    | none =>
      rw [collectPlaces, ih, List.filter_cons]
      split <;> rfl
    | some l =>
      rw [collectPlaces, ih]
      by_cases hplace : some l = place
      · subst hplace
        have hseen : (if l ∈ seen then seen else seen ++ [l]).filter (some · ≠ some l) =
            seen.filter (some · ≠ some l) := by
          split
          · rfl
          · simp
        have hrest : (some l :: rest).filter (· ≠ some l) = rest.filter (· ≠ some l) := by simp
        rw [hseen, hrest]
      · have hmem : l ∈ seen.filter (some · ≠ place) ↔ l ∈ seen := by simp [hplace]
        have hrest : (some l :: rest).filter (· ≠ place) = some l :: rest.filter (· ≠ place) := by simp [hplace]
        rw [hrest]
        show _ = collectPlaces (if l ∈ seen.filter (some · ≠ place) then _ else _) _
        by_cases hl : l ∈ seen
        · rw [if_pos hl, if_pos (hmem.2 hl)]
        · rw [if_neg hl, if_neg (mt hmem.1 hl), List.filter_append, List.filter_singleton]
          simp [hplace]

end

/-! ### The smallest root at a place -/

/-- The macro roots that are shown at a place. -/
def macroRootsAt (entries : List RootEntry) (l : Location) : Set Atom :=
  {a | ∃ e ∈ entries, e.atom = a ∧ e.reason = macroReason ∧ e.location = some l}

section
variable {entries : List RootEntry} {e : RootEntry} {l : Location} {a : Atom}

theorem mem_macroRootsAt : a ∈ macroRootsAt entries l ↔ ∃ e ∈ entries, e.atom = a ∧ e.macroLocation = some l := by
  simp only [RootEntry.macroLocation_eq_some_iff]
  rfl

theorem some_mem_macroLocations_iff :
    some l ∈ entries.map RootEntry.macroLocation ↔ ∃ a, a ∈ macroRootsAt entries l := by
  simp only [mem_macroRootsAt, List.mem_map]
  exact ⟨fun ⟨e, he, hl⟩ => ⟨e.atom, e, he, rfl, hl⟩, fun ⟨_, e, he, _, hl⟩ => ⟨e, he, hl⟩⟩

theorem isLeast_macroRootsAt_concat (h : ∀ f ∈ entries, f.atom < e.atom)
    (ha : IsLeast (macroRootsAt entries l) a) : IsLeast (macroRootsAt (entries ++ [e]) l) a := by
  obtain ⟨⟨f, hf, rfl, hplace⟩, hleast⟩ := ha
  refine ⟨⟨f, List.mem_append_left _ hf, rfl, hplace⟩, fun b hb => ?_⟩
  obtain ⟨g, hg, rfl, hgplace⟩ := hb
  rcases List.mem_append.1 hg with hg | hg
  · exact hleast ⟨g, hg, rfl, hgplace⟩
  · exact List.mem_singleton.1 hg ▸ (h f hf).le

theorem isLeast_macroRootsAt_new (h : some l ∉ entries.map RootEntry.macroLocation)
    (he : e.macroLocation = some l) : IsLeast (macroRootsAt (entries ++ [e]) l) e.atom := by
  refine ⟨⟨e, List.mem_concat_self, rfl, RootEntry.macroLocation_eq_some_iff.1 he⟩, fun b hb => ?_⟩
  obtain ⟨g, hg, rfl, hgplace⟩ := hb
  rcases List.mem_append.1 hg with hg | hg
  · exact absurd (some_mem_macroLocations_iff.2 ⟨g.atom, g, hg, rfl, hgplace⟩) h
  · exact List.mem_singleton.1 hg ▸ le_refl _

/-- Of the roots in ascending order the first at each place is the smallest there. -/
theorem pairwise_collectPlaces (h : (entries.map (·.atom)).Pairwise (· < ·)) :
    (∀ l ∈ collectPlaces [] (entries.map RootEntry.macroLocation), ∃ a, IsLeast (macroRootsAt entries l) a) ∧
    (collectPlaces [] (entries.map RootEntry.macroLocation)).Pairwise fun l m =>
      ∃ a b, IsLeast (macroRootsAt entries l) a ∧ IsLeast (macroRootsAt entries m) b ∧ a < b := by
  induction entries using List.reverseRecOn with
  | nil => exact ⟨fun l hl => absurd hl List.not_mem_nil, .nil⟩
  | append_singleton entries e ih =>
    rw [List.map_append, List.map_singleton, List.pairwise_append] at h
    obtain ⟨hentries, -, hlast⟩ := h
    obtain ⟨hleast, hpairs⟩ := ih hentries
    have hlt : ∀ f ∈ entries, f.atom < e.atom := fun f hf =>
      hlast f.atom (List.mem_map_of_mem hf) e.atom (List.mem_singleton_self _)
    have hleast' : ∀ l ∈ collectPlaces [] (entries.map RootEntry.macroLocation),
        ∃ a, IsLeast (macroRootsAt (entries ++ [e]) l) a := fun l hl =>
      (hleast l hl).imp fun a => isLeast_macroRootsAt_concat hlt
    have hpairs' : (collectPlaces [] (entries.map RootEntry.macroLocation)).Pairwise fun l m =>
        ∃ a b, IsLeast (macroRootsAt (entries ++ [e]) l) a ∧ IsLeast (macroRootsAt (entries ++ [e]) m) b ∧ a < b :=
      hpairs.imp fun ⟨a, b, ha, hb, hab⟩ =>
        ⟨a, b, isLeast_macroRootsAt_concat hlt ha, isLeast_macroRootsAt_concat hlt hb, hab⟩
    rw [List.map_append, List.map_singleton]
    cases he : e.macroLocation with
    | none =>
      rw [collectPlaces_append]
      exact ⟨hleast', hpairs'⟩
    | some m =>
      rw [collectPlaces_concat]
      split
      · exact ⟨hleast', hpairs'⟩
      · rename_i hm
        have hnew := isLeast_macroRootsAt_new hm he
        refine ⟨fun l hl => ?_, List.pairwise_append.2 ⟨hpairs', List.pairwise_singleton _ _, fun l hl k hk => ?_⟩⟩
        · rcases List.mem_append.1 hl with hl | hl
          · exact hleast' l hl
          · exact ⟨e.atom, List.mem_singleton.1 hl ▸ hnew⟩
        · obtain ⟨a, ha⟩ := hleast l hl
          obtain ⟨f, hf, rfl, -⟩ := ha.1
          exact ⟨f.atom, e.atom, isLeast_macroRootsAt_concat hlt ha, List.mem_singleton.1 hk ▸ hnew, hlt f hf⟩

end

/-! ### A root that comes to the others -/

theorem insertEntry_of_notMem {α : Type} {a : Atom} (v : α) {l : List (Atom × α)}
    (hl : (l.map Prod.fst).Pairwise (· < ·)) (ha : a ∉ l.map Prod.fst) :
    ∃ before after, l = before ++ after ∧ insertEntry a v l = before ++ (a, v) :: after ∧
      (∀ e ∈ before, e.1 < a) ∧ ∀ e ∈ after, a < e.1 := by
  induction l with
  | nil => exact ⟨[], [], rfl, rfl, nofun, nofun⟩
  | cons e rest ih =>
    rw [List.map_cons] at hl ha
    obtain ⟨hfirst, hrest⟩ := List.pairwise_cons.1 hl
    obtain ⟨hne, hnotMem⟩ := not_or.1 (mt List.mem_cons.2 ha)
    rw [insertEntry]
    by_cases hlt : a < e.1
    · rw [if_pos hlt]
      refine ⟨[], e :: rest, rfl, rfl, nofun, fun f hf => ?_⟩
      rcases List.mem_cons.1 hf with rfl | hf
      · exact hlt
      · exact hlt.trans (hfirst f.1 (List.mem_map_of_mem hf))
    · obtain ⟨before, after, heq, hinsert, hbefore, hafter⟩ := ih hrest hnotMem
      rw [if_neg hlt, if_neg hne, hinsert]
      refine ⟨e :: before, after, congrArg (e :: ·) heq, rfl, fun f hf => ?_, hafter⟩
      rcases List.mem_cons.1 hf with rfl | hf
      · exact lt_of_le_of_ne (not_lt.1 hlt) (Ne.symm hne)
      · exact hbefore f hf

namespace Index
variable {ix : Index} {a : Atom} {d : Diagnostic}

/-- The entries of the other roots stay, and by whatever names they hand over the same places. -/
theorem rootReport_declared (ha : a ∉ ix.roots) (d : Diagnostic) (nameOf nameOf' : Atom → Text) :
    let report' := ({ ix with diagnostics := ix.diagnostics.insert a d } : Index).rootReport nameOf'
    ∃ before after, (ix.rootReport nameOf).entries = before ++ after ∧
      (∀ f ∈ before, f.atom < a) ∧ (∀ f ∈ after, a < f.atom) ∧
      report'.find? a = some (ix.entryFor nameOf' a d) ∧
      report'.macroLocations = collectPlaces [] (before.map RootEntry.macroLocation ++
        (ix.entryFor nameOf' a d).macroLocation :: after.map RootEntry.macroLocation) := by
  intro report'
  obtain ⟨before, after, hentries, hinsert, hbefore, hafter⟩ :=
    insertEntry_of_notMem d ix.diagnostics.ascending ha
  let entriesOf (names : Atom → Text) (l : List (Atom × Diagnostic)) : List RootEntry :=
    l.map fun e => ix.entryFor names e.1 e.2
  have hreport : report'.entries =
      entriesOf nameOf' before ++ ix.entryFor nameOf' a d :: entriesOf nameOf' after := by
    show (insertEntry a d ix.diagnostics.entries).map (fun e => ix.entryFor nameOf' e.1 e.2) = _
    rw [hinsert, List.map_append, List.map_cons]
  have hplaces : ∀ l, (entriesOf nameOf' l).map RootEntry.macroLocation =
      (entriesOf nameOf l).map RootEntry.macroLocation := by
    intro l
    rw [List.map_map, List.map_map]
    rfl
  refine ⟨entriesOf nameOf before, entriesOf nameOf after, ?_, fun f hf => ?_, fun f hf => ?_, ?_, ?_⟩
  · show ix.diagnostics.entries.map (fun e => ix.entryFor nameOf e.1 e.2) = _
    rw [hentries, List.map_append]
  · obtain ⟨e, he, rfl⟩ := List.mem_map.1 hf
    exact hbefore e he
  · obtain ⟨e, he, rfl⟩ := List.mem_map.1 hf
    exact hafter e he
  · rw [RootReport.find?, hreport, List.find?_append, List.find?_eq_none.2]
    · simp [entryFor]
    · intro f hf
      obtain ⟨e, he, rfl⟩ := List.mem_map.1 hf
      simpa [entryFor] using (hbefore e he).ne
  · show collectPlaces [] (report'.entries.map RootEntry.macroLocation) = _
    rw [hreport, List.map_append, List.map_cons, hplaces, hplaces]

theorem valid_of_location {nameOf : Atom → Text} {e : RootEntry} {l : Location}
    (he : e ∈ (ix.rootReport nameOf).entries) (hl : e.location = some l) : l.valid = true := by
  obtain ⟨a, d, -, rfl⟩ := mem_rootReport.1 he
  rcases Option.or_eq_some_iff.1 hl with h | ⟨-, h⟩ <;> exact (Option.filter_eq_some_iff.1 h).2

/-- The macro locations are the valid places of the macro roots, each once, ordered by the smallest macro root at
each. A root that is declared where there was none, and is not indirect, leaves the list as it was unless it is a
macro root; if it is one, the list without its own place stays, and all of it if the root has no place or a smaller
macro root has the same. -/
theorem macroLocations_by_smallest (ix : Index) (nameOf nameOf' : Atom → Text) :
    let report := ix.rootReport nameOf
    (∀ l ∈ report.macroLocations, l.valid = true) ∧
    report.macroLocations.Nodup ∧
    (∀ l, l ∈ report.macroLocations ↔ ∃ e ∈ report.entries, e.reason = macroReason ∧ e.location = some l) ∧
    (report.macroLocations.Pairwise fun l m => ∃ a b,
      IsLeast (macroRootsAt report.entries l) a ∧ IsLeast (macroRootsAt report.entries m) b ∧ a < b) ∧
    ∀ a d, a ∉ ix.roots → a ∉ ix.indirect → ∃ ix' e, ix.declareRoot a d = .ok ix' ∧
      (ix'.rootReport nameOf').find? a = some e ∧ e.reason = d.reason ∧
      (d.reason ≠ macroReason → (ix'.rootReport nameOf').macroLocations = report.macroLocations) ∧
      (d.reason = macroReason →
        (ix'.rootReport nameOf').macroLocations.filter (some · ≠ e.location) =
          report.macroLocations.filter (some · ≠ e.location) ∧
        ((e.location = none ∨ ∃ f ∈ report.entries,
            f.atom < a ∧ f.reason = macroReason ∧ f.location = e.location) →
          (ix'.rootReport nameOf').macroLocations = report.macroLocations)) := by
  intro report
  refine ⟨fun l hl => ?_, nodup_collectPlaces List.nodup_nil _, fun l => mem_macroLocations,
    (pairwise_collectPlaces (ix.pairwise_atom_rootReport nameOf)).2, fun a d ha hi => ?_⟩
  · obtain ⟨e, he, -, hplace⟩ := mem_macroLocations.1 hl
    exact valid_of_location he hplace
  · obtain ⟨before, after, hentries, hbefore, hafter, hfind, hnew⟩ := rootReport_declared ha d nameOf nameOf'
    have hold : report.macroLocations = collectPlaces (collectPlaces [] (before.map RootEntry.macroLocation))
        (after.map RootEntry.macroLocation) := by
      rw [← collectPlaces_append, ← List.map_append, ← hentries]
      rfl
    refine ⟨_, _, if_neg hi, hfind, rfl, fun hd => ?_, fun hd => ⟨?_, fun hplace => ?_⟩⟩
    · have hnone : (ix.entryFor nameOf' a d).macroLocation = none := if_neg hd
      rw [hnew, hold, hnone, collectPlaces_append, collectPlaces_cons_of_mem (.inl rfl)]
    · have hsome : (ix.entryFor nameOf' a d).macroLocation = (ix.entryFor nameOf' a d).location := if_pos hd
      rw [hnew, hold, hsome, ← collectPlaces_append, filter_collectPlaces, filter_collectPlaces, List.filter_append,
        List.filter_append, List.filter_cons_of_neg (by simp)]
    · have hsome : (ix.entryFor nameOf' a d).macroLocation = (ix.entryFor nameOf' a d).location := if_pos hd
      rw [hnew, hold, hsome, collectPlaces_append, collectPlaces_cons_of_mem]
      rcases hplace with hnone | ⟨f, hf, hlt, hreason, hshared⟩
      · exact .inl hnone
      · refine or_iff_not_imp_left.2 fun hne => ?_
        obtain ⟨l, hl⟩ := Option.ne_none_iff_exists'.1 hne
        have hfbefore : f ∈ before := by
          rw [hentries] at hf
          exact (List.mem_append.1 hf).resolve_right fun hf => lt_asymm hlt (hafter f hf)
        have hfplace : f.macroLocation = some l :=
          RootEntry.macroLocation_eq_some_iff.2 ⟨hreason, hshared.trans hl⟩
        exact ⟨l, mem_collectPlaces.2 (.inr (hfplace ▸ List.mem_map_of_mem hfbefore)), hl⟩

/-- Macro roots at two places, the second place twice, and one without a place. -/
def macroRoots : Index where
  diagnostics := ⟨[(1, ⟨"Macro", some ⟨"b.c", 2, 0, 0⟩, []⟩), (3, ⟨"Macro", some ⟨"a.c", 7, 0, 0⟩, []⟩),
    (5, ⟨"Macro", some ⟨"b.c", 2, 0, 0⟩, []⟩), (6, ⟨"Macro", some ⟨"a.c", 0, 0, 0⟩, []⟩)], by decide⟩

/-- One more macro root at the second place, behind the first there. -/
theorem macroLocations_by_smallest_macroRoots :
    let d : Diagnostic := ⟨"Macro", some ⟨"a.c", 7, 0, 0⟩, []⟩
    (macroRoots.rootReport macroRoots.nameOf).macroLocations = [⟨"b.c", 2, 0, 0⟩, ⟨"a.c", 7, 0, 0⟩] ∧
    4 ∉ macroRoots.roots ∧ 4 ∉ macroRoots.indirect ∧ d.reason = macroReason ∧
    ∃ ix', macroRoots.declareRoot 4 d = .ok ix' ∧
      (ix'.rootReport macroRoots.nameOf).macroLocations = [⟨"b.c", 2, 0, 0⟩, ⟨"a.c", 7, 0, 0⟩] := by
  intro d
  have hlist : (macroRoots.rootReport macroRoots.nameOf).macroLocations = [⟨"b.c", 2, 0, 0⟩, ⟨"a.c", 7, 0, 0⟩] := by
    decide +kernel
  have hroot : 4 ∉ macroRoots.roots := by decide
  have hindirect : 4 ∉ macroRoots.indirect := by decide
  obtain ⟨ix', e, ho, hfind, -, -, hkept⟩ :=
    (macroRoots.macroLocations_by_smallest macroRoots.nameOf macroRoots.nameOf).2.2.2.2 4 d hroot hindirect
  have hplace : e.location = some ⟨"a.c", 7, 0, 0⟩ := by
    cases ho
    cases hfind
    rfl
  refine ⟨hlist, hroot, hindirect, rfl, ix', ho, hlist ▸ (hkept rfl).2 (.inr ?_)⟩
  rw [hplace]
  exact ⟨macroRoots.entryFor macroRoots.nameOf 3 ⟨"Macro", some ⟨"a.c", 7, 0, 0⟩, []⟩, by decide +kernel,
    by decide, rfl, by decide +kernel⟩

end Index

end Blame
