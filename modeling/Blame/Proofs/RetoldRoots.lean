import Blame.Proofs.InSource

/-!
# Roots that are told again

A record of a root replaces the diagnostic of an earlier record of that root, but not the location by which the
index knows it: unless the atoms give one, that is the location of the first record. The report shows a valid
location of the index before that of the diagnostic. So a root can be shown with the reason of its last record at
the place of its first (`Situates.entry_of_unplaced`), and so it gets into the list of macro locations.
-/

namespace Blame

/-! ### Macro locations -/

theorem mem_collectPlaces {l : Location} {seen : List Location} {places : List (Option Location)} :
    l ∈ collectPlaces seen places ↔ l ∈ seen ∨ some l ∈ places := by
  induction places generalizing seen with
  | nil => simp [collectPlaces]
  | cons place rest ih =>
    cases place with
    | none => simp [collectPlaces, ih]
    | some m =>
      rw [collectPlaces, ih, List.mem_cons, Option.some.injEq, ← or_assoc]
      by_cases hm : m ∈ seen
      · rw [if_pos hm]
        refine or_congr_left (or_iff_left_of_imp ?_).symm
        rintro rfl
        exact hm
      · simp [hm]

theorem RootEntry.macroLocation_eq_some_iff {e : RootEntry} {l : Location} :
    e.macroLocation = some l ↔ e.reason = macroReason ∧ e.location = some l := by
  rw [macroLocation]
  split <;> simp [*]

theorem Index.mem_macroLocations {ix : Index} {nameOf : Atom → Text} {l : Location} :
    l ∈ (ix.rootReport nameOf).macroLocations ↔
      ∃ e ∈ (ix.rootReport nameOf).entries, e.reason = macroReason ∧ e.location = some l := by
  simp only [← RootEntry.macroLocation_eq_some_iff]
  show l ∈ collectPlaces [] ((ix.rootReport nameOf).entries.map RootEntry.macroLocation) ↔ _
  rw [mem_collectPlaces, List.mem_map]
  exact or_iff_right List.not_mem_nil

namespace Snapshot

/-! ### The first and the last record of a root -/

namespace Records
variable {s : Records} {a : Atom}

def firstOf? (s : Records) (a : Atom) : Option RootRecord := s.roots.find? (·.atom = a)

def lastOf? (s : Records) (a : Atom) : Option RootRecord := s.roots.reverse.find? (·.atom = a)

/-- No record among the atoms gives the atom a location. -/
def Unplaced (s : Records) (a : Atom) : Prop := ∀ x ∈ s.atoms, x.atom = a → x.location = none

instance (s : Records) (a : Atom) : Decidable (s.Unplaced a) :=
  inferInstanceAs (Decidable (∀ x ∈ s.atoms, x.atom = a → x.location = none))

theorem exists_firstOf? {last : RootRecord} (h : s.lastOf? a = some last) : ∃ first, s.firstOf? a = some first := by
  have hlast : (s.roots.reverse.find? (·.atom = a)).isSome := Option.isSome_of_eq_some h
  obtain ⟨x, hx, ha⟩ := List.find?_isSome.1 hlast
  rw [← Option.isSome_iff_exists, firstOf?, List.find?_isSome]
  exact ⟨x, List.mem_reverse.1 hx, ha⟩

theorem diagnostic?_eq_lastOf? (s : Records) (a : Atom) :
    s.diagnostic? a = (s.lastOf? a).map (·.diagnostic) := by
  rw [diagnostic?, lastSome, lastOf?]
  induction s.roots.reverse with
  | nil => rfl
  | cons x rest ih => by_cases ha : x.atom = a <;> simp [ha, ih]

theorem Unplaced.place?_eq (h : s.Unplaced a) :
    s.place? a = (s.firstOf? a).bind (·.diagnostic.location) := by
  have hatoms : lastSome (fun x : AtomRecord => if x.atom = a then x.location else none) s.atoms = none := by
    rw [lastSome_eq_none_iff]
    intro x hx
    split
    · exact h x hx ‹_›
    · rfl
  rw [place?, hatoms, Option.none_or]
  rfl

end Records

theorem Situates.entry_of_unplaced {s : Records} {ix : Index} {nameOf : Atom → Text} {e : RootEntry}
    (h : Situates s ix) (he : e ∈ (ix.rootReport nameOf).entries) (hs : s.Unplaced e.atom) :
    ∃ first last, s.firstOf? e.atom = some first ∧ s.lastOf? e.atom = some last ∧
      e.reason = last.diagnostic.reason ∧
      e.location = (Location.onlyValid first.diagnostic.location).or
        (Location.onlyValid last.diagnostic.location) := by
  have hplace := h.location_entry he
  obtain ⟨a, d, hd, rfl⟩ := Index.mem_rootReport.1 he
  have hdiagnostic : (s.lastOf? a).map (·.diagnostic) = some d := by
    rw [← s.diagnostic?_eq_lastOf?, ← h.diagnostic, hd]
  obtain ⟨last, hlast, rfl⟩ := Option.map_eq_some_iff.1 hdiagnostic
  obtain ⟨first, hfirst⟩ := Records.exists_firstOf? hlast
  refine ⟨first, last, hfirst, hlast, rfl, hplace.trans ?_⟩
  show Option.or (Location.onlyValid (s.place? a)) (Location.onlyValid ((s.diagnostic? a).bind _)) = _
  have hfirstPlace : s.place? a = (s.firstOf? a).bind (·.diagnostic.location) := Records.Unplaced.place?_eq hs
  rw [hfirstPlace, hfirst, s.diagnostic?_eq_lastOf?, hlast]
  rfl

/-- The first of two locations that is valid is the second iff the first is not valid or the same. -/
theorem onlyValid_or_eq_iff {first : Option Location} {l : Location} (hl : l.valid = true) :
    (Location.onlyValid first).or (Location.onlyValid (some l)) = some l ↔
      ∀ m, first = some m → m.valid = true → m = l := by
  have hsecond : Location.onlyValid (some l) = some l := Option.filter_some_pos hl
  rw [hsecond]
  cases first with
  | none => simp [Location.onlyValid]
  | some m =>
    cases hm : m.valid with
    | true =>
      have hfirst : Location.onlyValid (some m) = some m := Option.filter_some_pos hm
      simp [hfirst, hm]
    | false =>
      have hfirst : Location.onlyValid (some m) = none := Option.filter_some_neg hm
      simp [hfirst, hm]

/-- Whatever the classifier, a root that no record among the atoms places is shown with the reason of its last
record, at the valid location of its first record or else of its last. So a valid location of the last record is
shown iff the first record has no other valid one. The macro locations are the places so shown for macro roots. -/
theorem retoldRoot_shown {σ : Type} (c : Classifier σ) (memory : σ) (members : Members) (nameOf : Atom → Text)
    (ho : (load c memory {} (Document.ofMembers members)).error = none) :
    let s := (Document.ofMembers members).records
    let report := (load c memory {} (Document.ofMembers members)).progress.index.rootReport nameOf
    (∀ e ∈ report.entries, s.Unplaced e.atom → ∃ first last,
      s.firstOf? e.atom = some first ∧ s.lastOf? e.atom = some last ∧
      e.reason = last.diagnostic.reason ∧
      e.location = (Location.onlyValid first.diagnostic.location).or
        (Location.onlyValid last.diagnostic.location) ∧
      ∀ l, last.diagnostic.location = some l → l.valid = true →
        (e.location = some l ↔ ∀ m, first.diagnostic.location = some m → m.valid = true → m = l)) ∧
    ∀ m, m ∈ report.macroLocations ↔
      ∃ e ∈ report.entries, e.reason = macroReason ∧ e.location = some m := by
  intro s report
  refine ⟨fun e he hs => ?_, fun m => Index.mem_macroLocations⟩
  obtain ⟨first, last, hfirst, hlast, hreason, hplace⟩ := (situates_of_load ho).entry_of_unplaced he hs
  refine ⟨first, last, hfirst, hlast, hreason, hplace, fun l hl hvalid => ?_⟩
  rw [hplace, hl]
  exact onlyValid_or_eq_iff hvalid

/-- A root with two records, each with a location of its own. -/
def twoPlacesMembers : Members :=
  [("roots", .list [
    .obj [("atom", .int 1), ("reason", .str "Cast"),
      ("location", .obj [("file", .str "a.c"), ("line", .int 3)])],
    .obj [("atom", .int 1), ("reason", .str "Macro"),
      ("location", .obj [("file", .str "b.c"), ("line", .int 5)])]])]

theorem retoldRoot_shown_twoPlaces :
    let l := load (.ofPred (· == "a.c")) () {} (Document.ofMembers twoPlacesMembers)
    l.error = none ∧ (Document.ofMembers twoPlacesMembers).records.Unplaced 1 ∧
    ∀ e ∈ (l.progress.index.rootReport l.progress.index.nameOf).entries, e.atom = 1 →
      e.reason = "Macro" ∧ e.location = some ⟨"a.c", 3, 0, 0⟩ := by
  have ho : (load (.ofPred (· == "a.c")) () {} (Document.ofMembers twoPlacesMembers)).error = none := rfl
  have hs : (Document.ofMembers twoPlacesMembers).records.Unplaced 1 := by decide
  refine ⟨ho, hs, fun e he ha => ?_⟩
  obtain ⟨first, last, hfirst, hlast, hreason, hplace, -⟩ :=
    (retoldRoot_shown _ () twoPlacesMembers _ ho).1 e he (ha ▸ hs)
  rw [ha] at hfirst hlast
  cases hfirst
  cases hlast
  exact ⟨hreason, hplace⟩

/-- The last record of the root, which gives the reason shown, has another valid location than the one shown. -/
theorem stalePlace_twoPlaces :
    let l := load (.ofPred (· == "a.c")) () {} (Document.ofMembers twoPlacesMembers)
    let s := (Document.ofMembers twoPlacesMembers).records
    let report := l.progress.index.rootReport l.progress.index.nameOf
    l.error = none ∧ s.Unplaced 1 ∧
    (s.lastOf? 1).map (·.diagnostic) = some ⟨"Macro", some ⟨"b.c", 5, 0, 0⟩, []⟩ ∧
    report.entries.map (fun e => (e.reason, e.location)) = [(("Macro" : Text), some ⟨"a.c", 3, 0, 0⟩)] ∧
    report.macroLocations = [⟨"a.c", 3, 0, 0⟩] :=
  ⟨rfl, by decide, by decide, by decide, by decide⟩

end Snapshot

end Blame
