import Blame.Page.Terminal
import Blame.Proofs.LocationForms
import Blame.Proofs.RetoldRoots
import Blame.Proofs.Transpose
import Blame.Snapshot.Load

/-!
# The roots that a page shows

The ranks of the roots are a strict order, for no two roots are one atom; so sorting puts them into the one list that
is ordered by it (`pairwise_mergeSort`), and a limit cuts that list in two (`cutOff_cases`). What a page says before
and after the blocks of the roots is about all of them. A block tells its root by the atom behind the last number sign
of its first line (`titleText_inj`).
-/

namespace Blame.Page

open Number

/-- One root is shown before another: its score is higher, or the same and its atom is smaller. -/
def Outranks (e f : RootEntry) : Prop :=
  f.atomsScore < e.atomsScore ∨ (e.atomsScore = f.atomsScore ∧ e.atom < f.atom)

instance (e f : RootEntry) : Decidable (Outranks e f) :=
  inferInstanceAs (Decidable (f.atomsScore < e.atomsScore ∨ (e.atomsScore = f.atomsScore ∧ e.atom < f.atom)))

section
variable {e f g : RootEntry}

/-! ### Ranks -/

theorem ranksBefore_iff :
    ranksBefore e f = true ↔ f.atomsScore < e.atomsScore ∨ (e.atomsScore = f.atomsScore ∧ e.atom ≤ f.atom) := by
  rw [ranksBefore, Bool.or_eq_true, Bool.and_eq_true, beq_iff_eq, decide_eq_true_eq, decide_eq_true_eq]

theorem ranksBefore_trans (hef : ranksBefore e f = true) (hfg : ranksBefore f g = true) :
    ranksBefore e g = true := by
  rw [ranksBefore_iff] at hef hfg ⊢
  rcases hef with hef | ⟨hef, hatom⟩ <;> rcases hfg with hfg | ⟨hfg, hatom'⟩
  · exact .inl (hfg.trans hef)
  · exact .inl (hfg ▸ hef)
  · exact .inl (hef ▸ hfg)
  · exact .inr ⟨hef.trans hfg, hatom.trans hatom'⟩

theorem ranksBefore_total (e f : RootEntry) : (ranksBefore e f || ranksBefore f e) = true := by
  rw [Bool.or_eq_true, ranksBefore_iff, ranksBefore_iff]
  rcases lt_trichotomy e.atomsScore f.atomsScore with h | h | h
  · exact .inr (.inl h)
  · rcases Int.le_total e.atom f.atom with hatom | hatom
    · exact .inl (.inr ⟨h, hatom⟩)
    · exact .inr (.inr ⟨h.symm, hatom⟩)
  · exact .inl (.inl h)

theorem Outranks.of_ranksBefore (h : ranksBefore e f = true) (hne : e.atom ≠ f.atom) : Outranks e f :=
  (ranksBefore_iff.1 h).imp_right fun ⟨hscore, hatom⟩ => ⟨hscore, Int.lt_iff_le_and_ne.2 ⟨hatom, hne⟩⟩

theorem Outranks.asymm (h : Outranks e f) : ¬ Outranks f e := by
  rintro (h' | ⟨heq, hatom⟩) <;> rcases h with h | ⟨heq', hatom'⟩
  · exact h.asymm h'
  · exact h'.ne heq'
  · exact h.ne heq
  · exact hatom.asymm hatom'

/-- There is only one way to rank roots. -/
theorem eq_of_pairwise_outranks {l m : List RootEntry} (h : l.Perm m) (hl : l.Pairwise Outranks)
    (hm : m.Pairwise Outranks) : l = m :=
  h.eq_of_pairwise (fun _ _ _ _ hef hfe => absurd hfe hef.asymm) hl hm

theorem pairwise_mergeSort {entries : List RootEntry} (h : (entries.map (·.atom)).Pairwise (· < ·)) :
    (entries.mergeSort ranksBefore).Pairwise Outranks := by
  have hsorted : (entries.mergeSort ranksBefore).Pairwise fun e f => ranksBefore e f = true := by
    refine List.pairwise_mergeSort (fun e f g hef hfg => ?_) (fun e f => ?_) entries
    · exact ranksBefore_trans hef hfg
    · exact ranksBefore_total e f
  have hatoms : entries.Pairwise fun e f => e.atom ≠ f.atom := (List.pairwise_map.1 h).imp fun hlt => hlt.ne
  have hdistinct := ((entries.mergeSort_perm ranksBefore).pairwise_iff fun hne => hne.symm).2 hatoms
  exact (hsorted.and hdistinct).imp fun ⟨hrank, hne⟩ => .of_ranksBefore hrank hne

/-! ### The limit -/

/-- How many of `length` items a limit shows and leaves out. -/
def Cuts (limit : Option Int) (length shown omitted : Nat) : Prop :=
  match limit with
  | none => shown = length ∧ omitted = 0
  | some n => if 0 ≤ n then shown = min n.toNat length else omitted = min (-n).toNat length

theorem cutOff_cases {α : Type} (n : Int) (l : List α) :
    ∃ omitted, l = cutOff n l ++ omitted ∧ Cuts (some n) l.length (cutOff n l).length omitted.length := by
  unfold cutOff Cuts
  by_cases hn : 0 ≤ n
  · simp only [if_pos hn]
    exact ⟨l.drop n.toNat, (List.take_append_drop _ _).symm, List.length_take⟩
  · simp only [if_neg hn]
    refine ⟨l.drop (l.length - n.natAbs), (List.take_append_drop _ _).symm, ?_⟩
    rw [List.length_drop]
    omega

theorem shownRoots_cases (limit : Option Int) (entries : List RootEntry) :
    ∃ omitted, entries.mergeSort ranksBefore = shownRoots limit entries ++ omitted ∧
      Cuts limit entries.length (shownRoots limit entries).length omitted.length := by
  cases limit with
  | none => exact ⟨[], (List.append_nil _).symm, List.length_mergeSort entries, rfl⟩
  | some n =>
    obtain ⟨omitted, hsplit, hcuts⟩ := cutOff_cases n (entries.mergeSort ranksBefore)
    rw [List.length_mergeSort] at hcuts
    exact ⟨omitted, hsplit, hcuts⟩

end

/-! ### The text of a report -/

/-- A text in a style as a page shows it. -/
def marked (painter : Option Painter) (style : Style) (s : Text) : Text :=
  match painter with
  | some paint => Text.ofList (paint style s.toList)
  | none => s

section
variable (mark : Style → Text → Text)

/-- The line about a note. -/
def noteText (n : Note) : Text :=
  "  = " ++ mark ⟨some .cyan, [.bold]⟩ "note" ++ ": " ++ n.reason
    ++ ((Location.shownIn n.location).elim ("" : Text) fun l => " [" ++ l ++ "]") ++ "\n"

/-- What a block starts with: its reason, name and atom, and whether the root lies outside the project. -/
def titleText (e : RootEntry) : Text :=
  mark ⟨some .red, [.bold]⟩ e.reason ++ " " ++ e.name ++ " (#" ++ intText e.atom ++ ")"
    ++ (if e.inSource then ("" : Text) else mark ⟨none, [.dark]⟩ " [not in source]")

/-- The block of a root: its title, where it is, what it affects, and all its notes. -/
def blockText (e : RootEntry) : Text :=
  titleText mark e ++ "\n"
    ++ "  " ++ mark ⟨some .blue, [.bold]⟩ "-->" ++ " " ++ placeText e.location ++ "\n"
    ++ "  affects " ++ natText e.atomsAffected ++ " atoms (score " ++ scoreText e.atomsScore ++ "), "
    ++ natText e.pointersAffected ++ " pointers (score " ++ scoreText e.pointersScore ++ ")" ++ "\n"
    ++ Text.join (e.notes.map (noteText mark))

/-- The warning about the places of macro roots, with a line for each. -/
def warningText (ls : List Location) : Text :=
  if ls = [] then ""
  else
    "\n" ++ mark ⟨some .yellow, [.bold]⟩ ("warning: " ++ macroWarning ls.length) ++ "\n"
      ++ Text.join (ls.map fun l => "  " ++ mark ⟨some .blue, [.bold]⟩ "-->" ++ " " ++ l.text ++ "\n")

end

/-- A span as a page shows it. -/
def Span.markedBy (painter : Option Painter) (s : Span) : Text :=
  s.style.elim s.text fun style => marked painter style s.text

/-- A line as a page shows it. -/
def lineText (painter : Option Painter) (l : Line) : Text := Text.join (l.map (Span.markedBy painter)) ++ "\n"

theorem ofList_flatMap {α : Type} (f : α → List CodePoint) (l : List α) :
    Text.ofList (l.flatMap f) = Text.join (l.map fun x => Text.ofList (f x)) := by
  induction l with
  | nil => rfl
  | cons x rest ih => rw [List.flatMap_cons, Text.ofList_append, ih, List.map_cons, Text.join_cons]

theorem ofList_chars (painter : Option Painter) (s : Span) : Text.ofList (s.chars painter) = s.markedBy painter := by
  obtain ⟨text, _ | style⟩ := s <;> cases painter <;> rfl

theorem linesText_eq (painter : Option Painter) (lines : List Line) :
    linesText painter lines = Text.join (lines.map (lineText painter)) := by
  rw [linesText, ofList_flatMap]
  congr 1
  refine List.map_congr_left fun l _ => ?_
  have hend : Text.ofList [.char '\n'] = "\n" := by decide
  rw [Text.ofList_append, ofList_flatMap, lineText, hend]
  simp only [ofList_chars]

theorem lineText_noteLine (painter : Option Painter) (n : Note) :
    lineText painter (noteLine n) = noteText (marked painter) n := by
  rw [lineText, noteLine, noteText]
  cases Location.shownIn n.location <;>
    simp only [List.map, Text.join_cons, Text.join_nil, Span.markedBy, plainSpan, Option.elim, Text.append_assoc,
      Text.append_empty]

theorem join_rootLines (painter : Option Painter) (e : RootEntry) :
    Text.join ((rootLines e).map (lineText painter)) = blockText (marked painter) e := by
  have hnotes : (e.notes.map noteLine).map (lineText painter) = e.notes.map (noteText (marked painter)) := by
    rw [List.map_map]
    exact List.map_congr_left fun n _ => lineText_noteLine painter n
  rw [rootLines, List.map_append, hnotes]
  unfold blockText titleText
  cases e.inSource <;>
    simp only [List.map, lineText, List.cons_append, List.nil_append, Text.join_cons, Text.join_nil, Span.markedBy,
      plainSpan, arrow, Option.elim, Text.append_assoc, Text.append_empty, Bool.false_eq_true, if_true, if_false]

theorem join_warningLines (painter : Option Painter) (ls : List Location) :
    Text.join ((warningLines ls).map (lineText painter)) = warningText (marked painter) ls := by
  rw [warningLines, warningText]
  simp only [List.isEmpty_iff]
  split
  · rfl
  · simp only [List.map_map, List.map, lineText, List.cons_append, List.nil_append, Text.join_cons, Text.join_nil,
      Span.markedBy, plainSpan, arrow, Option.elim, Text.append_assoc, Text.append_empty, Text.empty_append,
      Function.comp_def]

theorem join_flatMap {α : Type} (f : α → List Text) (l : List α) :
    Text.join (l.flatMap f) = Text.join (l.map fun x => Text.join (f x)) := by
  induction l with
  | nil => rfl
  | cons x rest ih => rw [List.flatMap_cons, Text.join_append, ih, List.map_cons, Text.join_cons]

theorem linesText_reportLines (painter : Option Painter) (limit : Option Int) (r : RootReport) :
    linesText painter (reportLines limit r) =
      marked painter ⟨some .white, [.bold]⟩ ("Root causes (" ++ natText r.entries.length ++ " total)") ++ "\n" ++
        Text.join ((shownRoots limit r.entries).map (blockText (marked painter))) ++
        warningText (marked painter) r.macroLocations := by
  have hblocks : Text.join (((shownRoots limit r.entries).flatMap rootLines).map (lineText painter)) =
      Text.join ((shownRoots limit r.entries).map (blockText (marked painter))) := by
    rw [List.map_flatMap, join_flatMap]
    simp only [join_rootLines]
  rw [linesText_eq, reportLines, List.map_append, Text.join_append, join_warningLines, List.map_cons, Text.join_cons,
    hblocks]
  simp [lineText, heading, Span.markedBy]

/-! ### Blocks -/

/-- The title of a root takes up one line. -/
def OneLine (e : RootEntry) : Prop := .char '\n' ∉ e.reason.toList ∧ .char '\n' ∉ e.name.toList

instance (e : RootEntry) : Decidable (OneLine e) :=
  inferInstanceAs (Decidable (.char '\n' ∉ e.reason.toList ∧ .char '\n' ∉ e.name.toList))

theorem notMem_titleText {e : RootEntry} (h : OneLine e) : .char '\n' ∉ (titleText (marked none) e).toList := by
  obtain ⟨hreason, hname⟩ := h
  have hatom : .char '\n' ∉ intChars e.atom := notMem_intChars (by decide) (by decide) e.atom
  unfold titleText
  cases e.inSource <;> simp [marked, intText, hreason, hname, hatom]

/-- The atom stands behind the last number sign of a title. -/
theorem titleText_inj {e f : RootEntry} (h : titleText (marked none) e = titleText (marked none) f) :
    e.atom = f.atom := by
  have hsplit (g : RootEntry) : ∃ name, (titleText (marked none) g).toList =
      name ++ .char '#' ::
        (intChars g.atom ++ .char ')' :: if g.inSource then [] else (Text.toList " [not in source]")) := by
    refine ⟨g.reason.toList ++ (Text.toList " ") ++ g.name.toList ++ (Text.toList " ("), ?_⟩
    unfold titleText
    cases g.inSource <;> simp [marked, intText]
  have hrest (g : RootEntry) :
      .char '#' ∉ intChars g.atom ++ .char ')' :: if g.inSource then [] else (Text.toList " [not in source]") := by
    have hatom : .char '#' ∉ intChars g.atom := notMem_intChars (by decide) (by decide) g.atom
    cases g.inSource <;> simp [hatom]
  have hparen (g : RootEntry) : .char ')' ∉ intChars g.atom := notMem_intChars (by decide) (by decide) g.atom
  obtain ⟨name, he⟩ := hsplit e
  obtain ⟨name', hf⟩ := hsplit f
  rw [h, hf, Text.append_sep_inj (hrest f) (hrest e)] at he
  exact (intChars_inj.1 ((Text.sep_append_inj (hparen f) (hparen e)).1 he.2).1).symm

theorem atom_eq_of_blockText {e f : RootEntry} (he : OneLine e) (hf : OneLine f)
    (h : blockText (marked none) e = blockText (marked none) f) : e.atom = f.atom := by
  have hsplit (g : RootEntry) : ∃ rest, (blockText (marked none) g).toList =
      (titleText (marked none) g).toList ++ .char '\n' :: rest := by
    unfold blockText
    simp only [Text.append_assoc, Text.toList_append]
    exact ⟨_, rfl⟩
  obtain ⟨rest, hrest⟩ := hsplit e
  obtain ⟨rest', hrest'⟩ := hsplit f
  rw [h, hrest', Text.sep_append_inj (notMem_titleText hf) (notMem_titleText he)] at hrest
  exact (titleText_inj (Text.toList_inj.1 hrest.1)).symm

theorem eq_of_atom_eq {entries : List RootEntry} (h : (entries.map (·.atom)).Pairwise (· < ·)) {e f : RootEntry}
    (he : e ∈ entries) (hf : f ∈ entries) (hatom : e.atom = f.atom) : e = f :=
  List.inj_on_of_nodup_map (h.imp fun hlt => hlt.ne) he hf hatom

/-- A report shows the roots by their ranks, as many of them as its limit allows, each with its own block and all its
notes in their order; those that it leaves out rank behind all that it shows. No two roots have the same block, unless
their texts run over several lines. The report counts all roots, and warns of the places of all macro roots, whatever
the limit. -/
theorem report_shows_first_ranks (ix : Index) (nameOf : Atom → Text) (painter : Option Painter)
    (limit : Option Int) :
    let report := ix.rootReport nameOf
    let mark := marked painter
    (∃ shown omitted : List RootEntry,
      (shown ++ omitted).Perm report.entries ∧ (shown ++ omitted).Pairwise Outranks ∧
      Cuts limit ix.roots.size shown.length omitted.length ∧
      linesText painter (reportLines limit report) =
        mark ⟨some .white, [.bold]⟩ ("Root causes (" ++ natText ix.roots.size ++ " total)") ++ "\n" ++
          Text.join (shown.map (blockText mark)) ++ warningText mark report.macroLocations) ∧
    (∀ e ∈ report.entries, ∀ f ∈ report.entries, OneLine e → OneLine f →
      blockText (marked none) e = blockText (marked none) f → e = f) ∧
    ∀ l, l ∈ report.macroLocations ↔ ∃ e ∈ report.entries, e.reason = macroReason ∧ e.location = some l := by
  intro report mark
  have hlength : report.entries.length = ix.roots.size := by
    rw [AtomSet.size, ← ix.map_atom_rootReport nameOf, List.length_map]
  obtain ⟨omitted, hsplit, hcuts⟩ := shownRoots_cases limit report.entries
  refine ⟨⟨shownRoots limit report.entries, omitted, ?_, ?_, hlength ▸ hcuts, ?_⟩, fun e he f hf hline hline' h => ?_,
    fun l => Index.mem_macroLocations⟩
  · rw [← hsplit]
    exact List.mergeSort_perm ..
  · rw [← hsplit]
    exact pairwise_mergeSort (ix.pairwise_atom_rootReport nameOf)
  · rw [linesText_reportLines, hlength]
  · exact eq_of_atom_eq (ix.pairwise_atom_rootReport nameOf) he hf (atom_eq_of_blockText hline hline' h)

/-- A snapshot with three roots: one with a note, one from a macro, and one outside the project. -/
def threeRootsMembers : Snapshot.Members := [
  ("roots", .list [
    .obj [("atom", .int 2), ("reason", .str "Union"), ("name", .str "u")],
    .obj [("atom", .int 5), ("reason", .str "Macro"), ("name", .str "m"),
      ("location", .obj [("file", .str "m.h"), ("line", .int 3)])],
    .obj [("atom", .int 7), ("reason", .str "Cast"), ("name", .str "p"),
      ("location", .obj [("file", .str "a.c"), ("line", .int 1)]),
      ("notes", .list [.obj [("reason", .str "via q")]])]]),
  ("propagation", .list [.list [.int 7, .int 8], .list [.int 7, .int 9], .list [.int 2, .int 8]])]

def threeRoots : Index :=
  let loaded := Snapshot.load (Classifier.ofPred (· == "a.c")) () {} (Snapshot.Document.ofMembers threeRootsMembers)
  loaded.progress.index

/-- Its roots by their ranks. -/
def rankedThreeRoots : List RootEntry := [
  { atom := 7, name := "p", reason := "Cast", inSource := true, location := some ⟨"a.c", 1, 0, 0⟩
    atomsAffected := 2, atomsScore := 3 / 2, pointersAffected := 0, pointersScore := 0, notes := [⟨"via q", none⟩] },
  { atom := 2, name := "u", reason := "Union", inSource := false, location := none
    atomsAffected := 1, atomsScore := 1 / 2, pointersAffected := 0, pointersScore := 0, notes := [] },
  { atom := 5, name := "m", reason := "Macro", inSource := false, location := some ⟨"m.h", 3, 0, 0⟩
    atomsAffected := 0, atomsScore := 0, pointersAffected := 0, pointersScore := 0, notes := [] }]

theorem report_shows_first_ranks_threeRoots :
    let report := threeRoots.rootReport threeRoots.nameOf
    linesText none (reportLines (some 2) report) =
      "Root causes (3 total)\n"
        ++ "Cast p (#7)\n"
        ++ "  --> a.c:1:0:0\n"
        ++ "  affects 2 atoms (score 1.50), 0 pointers (score 0.00)\n"
        ++ "  = note: via q\n"
        ++ "Union u (#2) [not in source]\n"
        ++ "  --> <no location>\n"
        ++ "  affects 1 atoms (score 0.50), 0 pointers (score 0.00)\n"
        ++ "\n"
        ++ "warning: 1 macro expansion is hiding root causes that textual inspection will not reveal\n"
        ++ "  --> m.h:3:0:0\n" ∧
    ∀ e ∈ report.entries, ∀ f ∈ report.entries,
      blockText (marked none) e = blockText (marked none) f → e = f := by
  intro report
  have hline : ∀ e ∈ report.entries, OneLine e := by decide +kernel
  obtain ⟨⟨shown, omitted, hperm, hranks, hcuts, htext⟩, hblocks, -⟩ :=
    report_shows_first_ranks threeRoots threeRoots.nameOf none (some 2)
  have hranked : shown ++ omitted = rankedThreeRoots :=
    eq_of_pairwise_outranks (hperm.trans (by decide +kernel)) hranks (by decide +kernel)
  have hshown : shown = rankedThreeRoots.take 2 := by
    have hlength : shown.length = 2 := hcuts.trans (by decide +kernel)
    rw [← hranked, ← hlength, List.take_left]
  refine ⟨?_, fun e he f hf => hblocks e he f hf (hline e he) (hline f hf)⟩
  rw [htext, hshown]
  decide +kernel

end Blame.Page
