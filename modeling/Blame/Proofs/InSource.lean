import Blame.Proofs.Situated
import Blame.Report.Roots

/-!
# The flag of a root and the place shown for it

A load files a root by the one location that the snapshot gives it, be it valid or not; a later record of
the same root does not change that location. The report goes by valid locations only: where the root has
none it shows that of the diagnostic, which is the one of the last record. So a root in source is shown at
a place in source, and the converse fails for exactly those roots that `Records.Overlooks` describes.
-/

namespace Blame

theorem Index.mem_rootReport {ix : Index} {nameOf : Atom → Text} {e : RootEntry} :
    e ∈ (ix.rootReport nameOf).entries ↔
      ∃ a d, ix.diagnostics.find? a = some d ∧ ix.entryFor nameOf a d = e := by
  simp only [rootReport, List.mem_map, AtomTable.find?_eq_some_iff, Prod.exists]

namespace Snapshot

/-- The location by which the root is filed names no place, but its diagnostic does, and in a file that is
accepted. -/
def Records.Overlooks (s : Records) (accepts : Text → Bool) (a : Atom) : Prop :=
  Location.onlyValid (s.place? a) = none ∧ inSource accepts ((s.diagnostic? a).bind (·.location)) = true

instance (s : Records) (accepts : Text → Bool) (a : Atom) : Decidable (s.Overlooks accepts a) :=
  inferInstanceAs (Decidable (_ ∧ _))

section
variable {accepts : Text → Bool} {s : Records} {ix : Index} {nameOf : Atom → Text} {e : RootEntry}

theorem Describes.inSource_entry (h : Describes accepts s ix) (he : e ∈ (ix.rootReport nameOf).entries) :
    e.inSource = inSource accepts (s.place? e.atom) := by
  obtain ⟨a, d, hd, rfl⟩ := Index.mem_rootReport.1 he
  have hroot : s.Declares a := by
    rw [← h.root]
    exact AtomTable.mem_keys_iff.2 ⟨d, hd⟩
  rw [Bool.eq_iff_iff]
  show ix.isRootInSource a = true ↔ inSource accepts (s.place? a) = true
  rw [Index.isRootInSource, decide_eq_true_iff, h.rootInSource]
  exact and_iff_right hroot

theorem Situates.location_entry (h : Situates s ix) (he : e ∈ (ix.rootReport nameOf).entries) :
    e.location = (Location.onlyValid (s.place? e.atom)).or
      (Location.onlyValid ((s.diagnostic? e.atom).bind (·.location))) := by
  obtain ⟨a, d, hd, rfl⟩ := Index.mem_rootReport.1 he
  show Option.or (Location.onlyValid (ix.locationOf a)) (Location.onlyValid d.location) = Option.or _ _
  rw [h.location]
  show _ = Option.or (Location.onlyValid (s.place? a)) (Location.onlyValid ((s.diagnostic? a).bind _))
  rw [← h.diagnostic, hd]
  rfl

/-- Whether the root is filed by the place that is shown decides whether flag and place agree. -/
theorem Describes.entry_cases (h : Describes accepts s ix) (he : e ∈ (ix.rootReport nameOf).entries) :
    (¬ s.Overlooks accepts e.atom ∧ e.inSource = e.location.any fun l => accepts l.file) ∨
    (s.Overlooks accepts e.atom ∧ e.inSource = false ∧ (e.location.any fun l => accepts l.file) = true) := by
  rw [h.inSource_entry he, h.situates.location_entry he, Records.Overlooks, inSource, inSource]
  cases hplace : Location.onlyValid (s.place? e.atom) with
  | some l => exact .inl ⟨fun ho => Option.some_ne_none l ho.1, rfl⟩
  | none =>
    rw [Option.none_or]
    cases ha : (Location.onlyValid ((s.diagnostic? e.atom).bind (·.location))).any fun l => accepts l.file with
    | true => exact .inr ⟨⟨rfl, rfl⟩, rfl, rfl⟩
    | false => exact .inl ⟨fun ho => Bool.false_ne_true ho.2, rfl⟩

end

/-- After a load into an empty index a root that is flagged is shown at a place in source, and the flag and
the place agree for exactly those roots that the load does not overlook. -/
theorem inSource_iff_shown (accepts : Text → Bool) (members : Members) (nameOf : Atom → Text)
    (ho : (load (.ofPred accepts) () {} (Document.ofMembers members)).error = none) :
    let s := (Document.ofMembers members).records
    let ix := (load (.ofPred accepts) () {} (Document.ofMembers members)).progress.index
    ∀ e ∈ (ix.rootReport nameOf).entries,
      (e.inSource = true → ∃ l, e.location = some l ∧ accepts l.file = true) ∧
      ((e.inSource = true ↔ ∃ l, e.location = some l ∧ accepts l.file = true) ↔
        ¬ s.Overlooks accepts e.atom) := by
  intro s ix e he
  have hany : (∃ l, e.location = some l ∧ accepts l.file = true) ↔
      (e.location.any fun l => accepts l.file) = true := by
    cases e.location <;> simp
  rw [hany]
  rcases (describes_of_load ho).entry_cases he with ⟨hs, hflag⟩ | ⟨hs, hflag, hshown⟩
  · rw [hflag]
    exact ⟨id, iff_of_true Iff.rfl hs⟩
  · rw [hflag, hshown]
    exact ⟨fun hf => absurd hf Bool.false_ne_true, iff_of_false (by decide) (not_not_intro hs)⟩

/-- A root with a blank location among the atoms and a good one in its own record. -/
def blankPlaceMembers : Members :=
  [("atoms", .list [.obj [("id", .int 1), ("location", .obj [("file", .str ""), ("line", .int 0)])]]),
    ("roots", .list [.obj [("atom", .int 1), ("reason", .str "Cast"),
      ("location", .obj [("file", .str "a.c"), ("line", .int 3)])]])]

theorem inSource_iff_shown_blankPlace :
    let l := load (.ofPred (· == "a.c")) () {} (Document.ofMembers blankPlaceMembers)
    l.error = none ∧ (Document.ofMembers blankPlaceMembers).records.Overlooks (· == "a.c") 1 ∧
    ∀ e ∈ (l.progress.index.rootReport l.progress.index.nameOf).entries, e.atom = 1 →
      ¬ (e.inSource = true ↔ ∃ p, e.location = some p ∧ (p.file == "a.c") = true) := by
  have ho : (load (.ofPred (· == "a.c")) () {} (Document.ofMembers blankPlaceMembers)).error = none := rfl
  have hs : (Document.ofMembers blankPlaceMembers).records.Overlooks (· == "a.c") 1 := by decide
  refine ⟨ho, hs, fun e he ha hagree => ?_⟩
  have hn := (inSource_iff_shown _ blankPlaceMembers _ ho e he).2.1 hagree
  rw [ha] at hn
  exact hn hs

theorem unflagged_blankPlace :
    let l := load (.ofPred (· == "a.c")) () {} (Document.ofMembers blankPlaceMembers)
    l.error = none ∧ ∃ e ∈ (l.progress.index.rootReport l.progress.index.nameOf).entries,
      e.inSource = false ∧ ∃ p, e.location = some p ∧ (p.file == "a.c") = true := by
  refine ⟨rfl, _, List.mem_cons_self, ?_, ⟨"a.c", 3, 0, 0⟩, ?_, rfl⟩
  · decide
  · decide

end Snapshot

end Blame
