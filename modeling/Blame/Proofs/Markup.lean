import Blame.Page.Html
import Mathlib.Data.List.Infix
import Mathlib.Tactic.SplitIfs

/-!
# Texts are no markup

The pieces of a page are as many as its parts, rows and list items ask for. Whoever looks at them and cannot read texts
sees the same on two pages of one shape, but for the parentheses around the locations of notes (`flatMap_pieces`). Such
a look is that for the characters of which tags are made, since an escaped text has none of them
(`filter_chars`), and that for the markup between the texts.
-/

namespace Blame.Page

/-- How many of everything a page shows. -/
structure Shape where
  buckets : Option Nat
  /-- The number of notes of each root, and the number of macro locations. -/
  roots : Option (List Nat × Nat)
  causes : Option Nat
  deriving DecidableEq, Repr

namespace Parts

def shape (p : Parts) : Shape where
  buckets := p.summary.map (·.buckets.length)
  roots := p.report.map fun r => (r.entries.map (·.notes.length), r.macroLocations.length)
  causes := p.causes.map (·.length)

/-- Which notes of which roots are shown with a location. -/
def placedNotes (p : Parts) : Option (List (List Bool)) :=
  p.report.map fun r => r.entries.map fun e => e.notes.map fun n => (Location.shownIn n.location).isSome

end Parts

namespace Html

/-- Tags are made of these characters. -/
def isStructural (c : CodePoint) : Bool := c = .char '<' || c = .char '>' || c = .char '"'

/-- A document text as it stands in a page. -/
def escaped (s : Text) : List CodePoint := s.toList.flatMap escapeChar

/-- The markup of a piece; a text is a hole. -/
def Piece.markup? : Piece → Option Text
  | markup s => some s
  | text _ => none

/-! ### The texts of a page -/

def noteTexts (n : Note) : List Text := n.reason :: (Location.shownIn n.location).toList

def rootTexts (e : RootEntry) : List Text :=
  e.name :: e.reason :: (Location.shownIn e.location).toList ++ e.notes.flatMap noteTexts

def causeTexts (e : CauseEntry) : List Text := e.name :: (Location.shownIn e.location).toList ++ e.causes

/-- The texts of the document that a page shows. -/
def shownTexts (p : Parts) : List Text :=
  (p.summary.map fun s => s.buckets.map (·.reason)).getD []
    ++ (p.report.map fun r => r.entries.flatMap rootTexts ++ (listedLocations r).map Location.text).getD []
    ++ (p.causes.map (·.flatMap causeTexts)).getD []

/-! ### Looking at pieces -/

theorem filter_escapeChar (c : CodePoint) : (escapeChar c).filter isStructural = [] := by
  unfold escapeChar
  split_ifs with hamp hless hgreater hsingle hdouble
  · decide
  · decide
  · decide
  · decide
  · decide
  · simp [isStructural, hless, hgreater, hdouble]

theorem filter_escaped (s : Text) : (escaped s).filter isStructural = [] := by
  rw [escaped, List.filter_flatMap, List.flatMap_eq_nil_iff]
  exact fun c _ => filter_escapeChar c

section
variable {α β γ : Type} {φ : Piece → List β}

/-- What is a function of `n` is the same along lists on which `n` is. -/
theorem map_congr_of_map {n : α → γ} {k : α → β} (hk : ∀ x y, n x = n y → k x = k y) {l m : List α}
    (h : l.map n = m.map n) : l.map k = m.map k := by
  induction l generalizing m with
  | nil =>
    obtain rfl := List.map_eq_nil_iff.1 h.symm
    rfl
  | cons x l ih =>
    obtain ⟨y, m, rfl, hy, hm⟩ := List.map_eq_cons_iff.1 h.symm
    rw [List.map_cons, List.map_cons, hk x y hy.symm, ih hm.symm]

/-- Rows look alike if they do so one by one. -/
theorem flatMap_rows {f : α → List Piece} {n : α → γ} (hf : ∀ x y, n x = n y → (f x).flatMap φ = (f y).flatMap φ)
    {l m : List α} (h : l.map n = m.map n) : (l.flatMap f).flatMap φ = (m.flatMap f).flatMap φ := by
  rw [List.flatMap_assoc, List.flatMap_assoc, List.flatMap_def, List.flatMap_def, map_congr_of_map hf h]

theorem flatMap_rows_of_length {f : α → List Piece} (hf : ∀ x y, (f x).flatMap φ = (f y).flatMap φ) {l m : List α}
    (h : l.length = m.length) : (l.flatMap f).flatMap φ = (m.flatMap f).flatMap φ := by
  refine flatMap_rows (n := fun _ => ()) (fun x y _ => hf x y) ?_
  rw [List.map_const', List.map_const', h]

theorem isEmpty_congr {l m : List α} (h : l.length = m.length) : l.isEmpty = m.isEmpty := by
  rw [Bool.eq_iff_iff, List.isEmpty_iff_length_eq_zero, List.isEmpty_iff_length_eq_zero, h]

/-- A part that is absent looks like nothing. -/
theorem flatMap_part {f : α → List Piece} {n : α → γ} (hf : ∀ x y, n x = n y → (f x).flatMap φ = (f y).flatMap φ)
    {x y : Option α} (h : x.map n = y.map n) :
    ((x.map f).getD []).flatMap φ = ((y.map f).getD []).flatMap φ := by
  cases x with
  | none =>
    cases y with
    | none => rfl
    | some b => cases h
  | some a =>
    cases y with
    | none => cases h
    | some b => exact hf a b (Option.some.inj h)

/-- What one sees of the notes of a root. -/
def seenNotes (φ : Piece → List β) (e : RootEntry) : List β := (e.notes.flatMap notePieces).flatMap φ

variable {hole : List β} (hφ : ∀ s, φ (.text s) = hole)
include hφ

theorem flatMap_bucketPieces (b c : ReasonBucket) : (bucketPieces b).flatMap φ = (bucketPieces c).flatMap φ := by
  simp only [bucketPieces, countPiece, scorePiece, List.flatMap_cons, hφ]

theorem flatMap_summaryPieces {s t : Summary} (h : s.buckets.length = t.buckets.length) :
    (summaryPieces s).flatMap φ = (summaryPieces t).flatMap φ := by
  simp only [summaryPieces, countPiece, List.flatMap_append, List.flatMap_cons, hφ,
    flatMap_rows_of_length (flatMap_bucketPieces hφ) h]

theorem flatMap_rootPieces {e f : RootEntry} (h : seenNotes φ e = seenNotes φ f) :
    (rootPieces e).flatMap φ = (rootPieces f).flatMap φ := by
  rw [seenNotes, seenNotes] at h
  simp only [rootPieces, placePiece, countPiece, scorePiece, List.flatMap_append, List.flatMap_cons, hφ, h]

theorem flatMap_rootTablePieces {l m : List RootEntry} (h : l.map (seenNotes φ) = m.map (seenNotes φ)) :
    (rootTablePieces l).flatMap φ = (rootTablePieces m).flatMap φ := by
  have hrows := flatMap_rows (fun e f => flatMap_rootPieces hφ) h
  have hempty : l.isEmpty = m.isEmpty := isEmpty_congr (by simpa using congrArg List.length h)
  unfold rootTablePieces
  rw [hempty]
  split
  · rfl
  · simp only [List.cons_append, List.flatMap_cons, List.flatMap_append, hrows]

theorem flatMap_macroPieces {l m : List Location} (h : l.length = m.length) :
    (macroPieces l).flatMap φ = (macroPieces m).flatMap φ := by
  have hempty := isEmpty_congr h
  have hitem (x y : Location) : [Piece.markup "<li class=\"loc\">", .text x.text, .markup "</li>"].flatMap φ =
      [Piece.markup "<li class=\"loc\">", .text y.text, .markup "</li>"].flatMap φ := by
    simp only [List.flatMap_cons, hφ]
  have hrows := flatMap_rows_of_length hitem h
  unfold macroPieces
  rw [hempty]
  split
  · rfl
  · simp only [List.cons_append, List.nil_append, List.flatMap_cons, List.flatMap_append, hφ, hrows]

theorem flatMap_causePieces (e f : CauseEntry) : (causePieces e).flatMap φ = (causePieces f).flatMap φ := by
  simp only [causePieces, placePiece, List.flatMap_cons, hφ]

theorem flatMap_causeTablePieces {l m : List CauseEntry} (h : l.length = m.length) :
    (causeTablePieces l).flatMap φ = (causeTablePieces m).flatMap φ := by
  have hempty := isEmpty_congr h
  have hrows := flatMap_rows_of_length (flatMap_causePieces hφ) h
  unfold causeTablePieces
  rw [hempty]
  split
  · rfl
  · simp only [List.cons_append, List.flatMap_cons, List.flatMap_append, hrows]

theorem flatMap_reportPieces {r s : RootReport} (hmacros : r.macroLocations.length = s.macroLocations.length)
    (hentries : r.entries.map (seenNotes φ) = s.entries.map (seenNotes φ)) :
    (rootTablePieces r.entries).flatMap φ = (rootTablePieces s.entries).flatMap φ ∧
      (macroPieces (listedLocations r)).flatMap φ = (macroPieces (listedLocations s)).flatMap φ := by
  refine ⟨flatMap_rootTablePieces hφ hentries, flatMap_macroPieces hφ ?_⟩
  have hempty : r.entries.isEmpty = s.entries.isEmpty := isEmpty_congr (by simpa using congrArg List.length hentries)
  unfold listedLocations
  rw [hempty]
  split
  · rfl
  · exact hmacros

/-- Without reading texts one sees the same on two pages of one shape, if one does so at the notes. -/
theorem flatMap_pieces {p q : Parts} (h : p.shape = q.shape)
    (hnotes : ∀ r ∈ p.report, ∀ s ∈ q.report, r.entries.map (seenNotes φ) = s.entries.map (seenNotes φ)) :
    (pieces p).flatMap φ = (pieces q).flatMap φ := by
  obtain ⟨summary, report, causes⟩ := p
  obtain ⟨summary', report', causes'⟩ := q
  obtain ⟨hbuckets, hroots, hcauses⟩ := Shape.mk.inj h
  have hsummary := flatMap_part (fun _ _ => flatMap_summaryPieces hφ) hbuckets
  have hcauses := flatMap_part (fun _ _ => flatMap_causeTablePieces hφ) hcauses
  unfold pieces
  simp only [List.flatMap_append, hsummary, hcauses]
  cases report with
  | none =>
    cases report' with
    | none => rfl
    | some s => cases hroots
  | some r =>
    cases report' with
    | none => cases hroots
    | some s =>
      have hmacros := (Prod.mk.inj (Option.some.inj hroots)).2
      obtain ⟨htable, hlist⟩ := flatMap_reportPieces hφ hmacros (hnotes r rfl s rfl)
      simp only [Option.map_some, Option.getD_some, htable, hlist]

end

/-! ### The characters of tags -/

/-- The characters of tags in a piece. -/
def Piece.tags (x : Piece) : List CodePoint := x.chars.filter isStructural

theorem tags_text (s : Text) : (Piece.text s).tags = [] := filter_escaped s

/-- The parentheses around the location of a note are no tags. -/
theorem tags_notePieces (n m : Note) : (notePieces n).flatMap Piece.tags = (notePieces m).flatMap Piece.tags := by
  have hopen : (Piece.markup " (").tags = [] := by decide
  have hclose : (Piece.markup ")").tags = [] := by decide
  unfold notePieces
  simp only [List.flatMap_append, List.flatMap_cons, tags_text]
  split <;> split <;> simp [tags_text, hopen, hclose]

theorem filter_text {p q : Parts} (h : p.shape = q.shape) :
    (text p).toList.filter isStructural = (text q).toList.filter isStructural := by
  rw [text, text, Text.toList_ofList, Text.toList_ofList, List.filter_flatMap, List.filter_flatMap]
  refine flatMap_pieces tags_text h fun r hr s hs => ?_
  have hlengths : r.entries.map (·.notes.length) = s.entries.map (·.notes.length) := by
    have hroots := (Shape.mk.inj h).2.1
    rw [Option.mem_def.1 hr, Option.mem_def.1 hs] at hroots
    exact (Prod.mk.inj (Option.some.inj hroots)).1
  exact map_congr_of_map (fun e f => flatMap_rows_of_length tags_notePieces) hlengths

/-! ### The markup between the texts -/

theorem markup_notePieces {n m : Note}
    (h : (Location.shownIn n.location).isSome = (Location.shownIn m.location).isSome) :
    (notePieces n).flatMap (fun x => [x.markup?]) = (notePieces m).flatMap fun x => [x.markup?] := by
  unfold notePieces
  cases hn : Location.shownIn n.location <;> cases hm : Location.shownIn m.location <;> rw [hn, hm] at h
  · rfl
  · cases h
  · cases h
  · rfl

theorem markup_pieces {p q : Parts} (h : p.shape = q.shape) (hnotes : p.placedNotes = q.placedNotes) :
    (pieces p).map Piece.markup? = (pieces q).map Piece.markup? := by
  rw [List.map_eq_flatMap, List.map_eq_flatMap]
  have htext (t : Text) : (fun x : Piece => [x.markup?]) (.text t) = [none] := rfl
  refine flatMap_pieces htext h fun r hr s hs => ?_
  rw [Parts.placedNotes, Parts.placedNotes, Option.mem_def.1 hr, Option.mem_def.1 hs] at hnotes
  refine map_congr_of_map (fun e f => ?_) (Option.some.inj hnotes)
  exact flatMap_rows fun _ _ => markup_notePieces

/-! ### The texts of the document -/

/-- One of the pieces is a text with the given one in it. -/
def Holds (l : List Piece) (t : Text) : Prop := ∃ u, .text u ∈ l ∧ t.toList <:+: u.toList

section
variable {l m : List Piece} {t : Text}

theorem Holds.of_mem (h : .text t ∈ l) : Holds l t := ⟨t, h, List.infix_rfl⟩

theorem Holds.mono (h : Holds l t) (hsub : l ⊆ m) : Holds m t :=
  let ⟨u, hu, hheld⟩ := h
  ⟨u, hsub hu, hheld⟩

theorem Holds.infix_chars (h : Holds l t) : escaped t <:+: l.flatMap Piece.chars := by
  obtain ⟨u, hu, hheld⟩ := h
  have hpiece : (Piece.text u).chars <:+: l.flatMap Piece.chars := by
    simpa using ((List.singleton_infix_iff _ _).2 hu).flatMap Piece.chars
  exact (hheld.flatMap escapeChar).trans hpiece

theorem infix_intercalate {sep : Text} {l : List Text} (h : t ∈ l) : t.toList <:+: (sep.intercalate l).toList := by
  induction l with
  | nil => cases h
  | cons u l ih =>
    cases l with
    | nil => rw [List.mem_singleton.1 h, Text.intercalate_singleton]
    | cons v l =>
      rw [Text.intercalate_cons_cons, Text.toList_append, Text.toList_append]
      rcases List.mem_cons.1 h with rfl | h
      · exact (List.prefix_append _ _).isInfix.trans (List.prefix_append _ _).isInfix
      · exact (ih h).trans (List.suffix_append _ _).isInfix

theorem holds_placePiece {l : Option Location} (h : t ∈ (Location.shownIn l).toList) : placePiece l = .text t := by
  rw [placePiece, Option.mem_toList.1 h, Option.getD_some]

theorem holds_notePieces {n : Note} (h : t ∈ noteTexts n) : Holds (notePieces n) t := by
  refine .of_mem ?_
  unfold notePieces
  rcases List.mem_cons.1 h with rfl | h
  · simp
  · rw [Option.mem_toList.1 h]
    simp

theorem holds_rootPieces {e : RootEntry} (h : t ∈ rootTexts e) : Holds (rootPieces e) t := by
  simp only [rootTexts, List.cons_append, List.mem_cons, List.mem_append, List.mem_flatMap] at h
  unfold rootPieces
  rcases h with rfl | rfl | h | ⟨n, hn, h⟩
  · exact .of_mem (by simp)
  · exact .of_mem (by simp)
  · exact .of_mem (by simp [holds_placePiece h])
  · refine (holds_notePieces h).mono fun x hx => ?_
    exact List.mem_append_left _ (List.mem_append_right _ (List.mem_flatMap_of_mem hn hx))

theorem holds_causePieces {e : CauseEntry} (h : t ∈ causeTexts e) : Holds (causePieces e) t := by
  simp only [causeTexts, List.cons_append, List.mem_cons, List.mem_append] at h
  unfold causePieces
  rcases h with rfl | h | h
  · exact .of_mem (by simp)
  · exact .of_mem (by simp [holds_placePiece h])
  · exact ⟨Text.intercalate ", " e.causes, by simp, infix_intercalate h⟩

theorem holds_summaryPieces {s : Summary} (h : t ∈ s.buckets.map (·.reason)) : Holds (summaryPieces s) t := by
  obtain ⟨b, hb, rfl⟩ := List.mem_map.1 h
  have hreason : Holds (bucketPieces b) b.reason := .of_mem (by simp [bucketPieces])
  refine hreason.mono fun x hx => ?_
  exact List.mem_append_left _ (List.mem_append_right _ (List.mem_flatMap_of_mem hb hx))

theorem holds_rootTablePieces {l : List RootEntry} (h : t ∈ l.flatMap rootTexts) : Holds (rootTablePieces l) t := by
  obtain ⟨e, he, h⟩ := List.mem_flatMap.1 h
  refine (holds_rootPieces h).mono fun x hx => ?_
  rw [rootTablePieces, if_neg (by simp [List.ne_nil_of_mem he])]
  exact List.mem_append_left _ (List.mem_cons_of_mem _ (List.mem_flatMap_of_mem he hx))

theorem holds_macroPieces {l : List Location} (h : t ∈ l.map Location.text) : Holds (macroPieces l) t := by
  obtain ⟨place, hplace, rfl⟩ := List.mem_map.1 h
  refine .of_mem ?_
  rw [macroPieces, if_neg (by simp [List.ne_nil_of_mem hplace])]
  exact List.mem_append_left _ (List.mem_append_right _ (List.mem_flatMap_of_mem hplace (by simp)))

theorem holds_causeTablePieces {l : List CauseEntry} (h : t ∈ l.flatMap causeTexts) :
    Holds (causeTablePieces l) t := by
  obtain ⟨e, he, h⟩ := List.mem_flatMap.1 h
  refine (holds_causePieces h).mono fun x hx => ?_
  rw [causeTablePieces, if_neg (by simp [List.ne_nil_of_mem he])]
  exact List.mem_append_left _ (List.mem_cons_of_mem _ (List.mem_flatMap_of_mem he hx))

theorem holds_pieces {p : Parts} (h : t ∈ shownTexts p) : Holds (pieces p) t := by
  obtain ⟨summary, report, causes⟩ := p
  unfold shownTexts at h
  unfold pieces
  rcases List.mem_append.1 h with h | h
  · rcases List.mem_append.1 h with h | h
    · cases summary with
      | none => cases h
      | some s => exact (holds_summaryPieces h).mono fun x hx => by simp [hx]
    · cases report with
      | none => cases h
      | some r =>
        rcases List.mem_append.1 h with h | h
        · exact (holds_rootTablePieces h).mono fun x hx => by simp [hx]
        · exact (holds_macroPieces h).mono fun x hx => by simp [hx]
  · cases causes with
    | none => cases h
    | some l => exact (holds_causeTablePieces h).mono fun x hx => by simp [hx]

end

/-- Pages of one shape have the same characters of tags one after another, whatever texts they show and whichever
locations are absent. If the same notes have locations, all the markup between the texts is the same. Every text that
is shown stands in the page escaped. -/
theorem texts_keep_structure {p q : Parts} (h : p.shape = q.shape) :
    (text p).toList.filter isStructural = (text q).toList.filter isStructural ∧
    (p.placedNotes = q.placedNotes → (pieces p).map Piece.markup? = (pieces q).map Piece.markup?) ∧
    ∀ t ∈ shownTexts p, escaped t <:+: (text p).toList := by
  refine ⟨filter_text h, markup_pieces h, fun t ht => ?_⟩
  rw [text, Text.toList_ofList]
  exact (holds_pieces ht).infix_chars

/-- A page of one root with a note, whose texts are given. -/
def oneRootPage (t : Text) : Parts where
  report := some
    { entries :=
        [{ atom := 1, name := t, reason := t, inSource := true, location := some ⟨t, 3, 1, 4⟩, atomsAffected := 1,
           atomsScore := 1, pointersAffected := 0, pointersScore := 0, notes := [⟨t, some ⟨t, 2, 1, 4⟩⟩] }]
      macroLocations := [⟨t, 3, 1, 4⟩] }
  causes := some [{ atom := 5, name := t, location := none, causes := [t, t] }]

theorem texts_keep_structure_oneRootPage :
    let p := oneRootPage "</td><script>alert(\"x\" && 'y')</script>"
    let q := oneRootPage "a.c"
    p.shape = q.shape ∧ p.placedNotes = q.placedNotes ∧
    (text p).toList.filter isStructural = (text q).toList.filter isStructural ∧
    (pieces p).map Piece.markup? = (pieces q).map Piece.markup? ∧
    (Text.toList "&lt;/td&gt;&lt;script&gt;alert(&#34;x&#34; &amp;&amp; &#39;y&#39;)&lt;/script&gt;") <:+:
      (text p).toList := by
  intro p q
  have hshape : p.shape = q.shape := by decide
  have hnotes : p.placedNotes = q.placedNotes := by decide +kernel
  obtain ⟨htags, hmarkup, htexts⟩ := texts_keep_structure hshape
  have hname := htexts "</td><script>alert(\"x\" && 'y')</script>" (by decide +kernel)
  exact ⟨hshape, hnotes, htags, hmarkup hnotes, hname⟩

end Html

end Blame.Page
