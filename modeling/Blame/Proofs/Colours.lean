import Blame.Proofs.ShownRoots
import Mathlib.Data.List.Basic

/-!
# Pages in colour

Painting puts sequences of an escape character, digits and a letter around the spans that have a style. What is left
when they are all taken out again does not depend on what comes behind (`Shows`), neither at a sequence nor at a text
without escape characters, so it is the same for spans, lines and pages. No character of a page is an escape character
unless the document has one (`bareLine_lines`): what the page says besides is made of fixed words, digits and signs.
-/

namespace Blame.Page

open Number

/-! ### Sequences -/

/-- A sequence that switches a style on or off. -/
def IsSequence (cs : List CodePoint) : Prop :=
  ∃ digits, digits ≠ [] ∧ (∀ d ∈ digits, d.isDigit = true) ∧ cs = escape :: .char '[' :: (digits ++ [.char 'm'])

/-- What is left behind the sequence that a text starts with. -/
def afterSequence? : List CodePoint → Option (List CodePoint)
  | c :: .char '[' :: rest =>
    match rest.takeWhile CodePoint.isDigit, rest.dropWhile CodePoint.isDigit with
    | _ :: _, .char 'm' :: later => if c = escape then some later else none
    | _, _ => none
  | _ => none

theorem afterSequence?_length_lt {cs later : List CodePoint} (h : afterSequence? cs = some later) :
    later.length < cs.length := by
  unfold afterSequence? at h
  split at h
  · rename_i rest
    split at h
    · rename_i hdrop
      have hlength := (rest.dropWhile_sublist CodePoint.isDigit).length_le
      split at h
      · obtain rfl := Option.some.inj h
        rw [hdrop, List.length_cons] at hlength
        rw [List.length_cons, List.length_cons]
        omega
      · cases h
    · cases h
  · cases h

theorem afterSequence?_of_ne {c : CodePoint} (h : c ≠ escape) (rest : List CodePoint) :
    afterSequence? (c :: rest) = none := by
  unfold afterSequence?
  split
  · rename_i heq
    obtain ⟨rfl, -⟩ := List.cons.inj heq
    split
    · exact if_neg h
    · rfl
  · rfl

/-- A text without its sequences. -/
def withoutSequences : List CodePoint → List CodePoint
  | [] => []
  | c :: rest =>
    match _h : afterSequence? (c :: rest) with
    | some later => withoutSequences later
    | none => c :: withoutSequences rest
termination_by cs => cs.length
decreasing_by
  · exact afterSequence?_length_lt _h
  · exact Nat.lt_succ_self _

theorem withoutSequences_of_afterSequence? {cs later : List CodePoint} (h : afterSequence? cs = some later) :
    withoutSequences cs = withoutSequences later := by
  cases cs with
  | nil => cases h
  | cons c rest =>
    rw [withoutSequences]
    split
    · rename_i hlater
      rw [Option.some.inj (h.symm.trans hlater)]
    · rename_i hnone
      cases h.symm.trans hnone

theorem withoutSequences_cons {c : CodePoint} (h : c ≠ escape) (rest : List CodePoint) :
    withoutSequences (c :: rest) = c :: withoutSequences rest := by
  rw [withoutSequences]
  split
  · rename_i hlater
    cases (afterSequence?_of_ne h rest).symm.trans hlater
  · rfl

/-- Without its sequences a painted text is a plain one, whatever comes behind it. -/
def Shows (painted plain : List CodePoint) : Prop :=
  ∀ rest, withoutSequences (painted ++ rest) = plain ++ withoutSequences rest

namespace Shows
variable {painted painted' plain plain' : List CodePoint}

theorem withoutSequences_eq (h : Shows painted plain) : withoutSequences painted = plain := by
  have hend := h []
  rwa [List.append_nil, withoutSequences, List.append_nil] at hend

theorem nil : Shows [] [] := fun _ => rfl

theorem append (h : Shows painted plain) (h' : Shows painted' plain') :
    Shows (painted ++ painted') (plain ++ plain') := by
  intro rest
  rw [List.append_assoc, h, h', List.append_assoc]

theorem flatMap {α : Type} {f g : α → List CodePoint} {l : List α} (h : ∀ x ∈ l, Shows (f x) (g x)) :
    Shows (l.flatMap f) (l.flatMap g) := by
  induction l with
  | nil => exact nil
  | cons x rest ih => exact (h x List.mem_cons_self).append (ih fun y hy => h y (List.mem_cons_of_mem x hy))

theorem of_notMem {text : List CodePoint} (h : escape ∉ text) : Shows text text := by
  intro rest
  induction text with
  | nil => rfl
  | cons c text ih =>
    have hc : c ≠ escape := fun hc => h (hc ▸ List.mem_cons_self)
    rw [List.cons_append, withoutSequences_cons hc, ih fun ht => h (List.mem_cons_of_mem c ht), List.cons_append]

theorem of_isSequence {cs : List CodePoint} (h : IsSequence cs) : Shows cs [] := by
  intro rest
  obtain ⟨digits, hne, hdigits, rfl⟩ := h
  have htake : (digits ++ .char 'm' :: rest).takeWhile CodePoint.isDigit = digits := by
    rw [List.takeWhile_append_of_pos hdigits, List.takeWhile_cons_of_neg (by decide), List.append_nil]
  have hdrop : (digits ++ .char 'm' :: rest).dropWhile CodePoint.isDigit = .char 'm' :: rest := by
    rw [List.dropWhile_append_of_pos hdigits, List.dropWhile_cons_of_neg (by decide)]
  have hafter : afterSequence? (escape :: .char '[' :: (digits ++ .char 'm' :: rest)) = some rest := by
    obtain ⟨d, ds, rfl⟩ := List.exists_cons_of_ne_nil hne
    simp only [afterSequence?, htake, hdrop, if_true]
  rw [List.cons_append, List.cons_append, List.append_assoc, List.singleton_append]
  exact withoutSequences_of_afterSequence? hafter

theorem of_flatten {starts : List (List CodePoint)} (h : ∀ s ∈ starts, IsSequence s) : Shows starts.flatten [] := by
  induction starts with
  | nil => exact nil
  | cons s starts ih =>
    exact (of_isSequence (h s List.mem_cons_self)).append (ih fun t ht => h t (List.mem_cons_of_mem s ht))

end Shows

theorem isSequence_sequenceChars (code : Nat) : IsSequence (sequenceChars code) :=
  ⟨natDigits code, natDigits_ne_nil code, fun _ hd => isDigit_of_mem_natDigits hd, rfl⟩

/-! ### Painters -/

/-- All that a painter does to a text, if anything, is to put sequences before it and a reset behind it. -/
def AddsSequences (paint : Painter) : Prop :=
  ∀ style text, paint style text = text ∨
    ∃ starts : List (List CodePoint), (∀ s ∈ starts, IsSequence s) ∧
      paint style text = starts.flatten ++ text ++ sequenceChars 0

/-- The codes that a style switches on, in the order of their sequences. -/
def Style.codes (s : Style) : List Nat := (s.emphasis.map Emphasis.code).reverse ++ s.colour.toList.map Colour.code

theorem foldl_emphasis (emphasis : List Emphasis) (text : List CodePoint) :
    emphasis.foldl (fun t e => sequenceChars e.code ++ t) text =
      ((emphasis.map Emphasis.code).reverse.map sequenceChars).flatten ++ text := by
  induction emphasis generalizing text with
  | nil => rfl
  | cons e rest ih =>
    rw [List.foldl_cons, ih]
    simp

theorem Style.paint_eq (s : Style) (text : List CodePoint) :
    s.paint text = (s.codes.map sequenceChars).flatten ++ text ++ sequenceChars 0 := by
  simp only [paint, codes, foldl_emphasis, List.map_append, List.flatten_append]
  cases s.colour <;> simp

theorem terminalPainter_addsSequences (env : Environment) (stdoutIsTerminal : Bool) :
    AddsSequences (terminalPainter env stdoutIsTerminal) := by
  intro style text
  unfold terminalPainter
  split
  · refine .inr ⟨style.codes.map sequenceChars, ?_, style.paint_eq text⟩
    exact List.forall_mem_map.2 fun code _ => isSequence_sequenceChars code
  · exact .inl rfl

theorem AddsSequences.shows {paint : Painter} (h : AddsSequences paint) (style : Style)
    {text : List CodePoint} (htext : escape ∉ text) : Shows (paint style text) text := by
  rcases h style text with heq | ⟨starts, hstarts, heq⟩
  · rw [heq]
    exact .of_notMem htext
  · rw [heq]
    have hreset : Shows (sequenceChars 0) [] := .of_isSequence (isSequence_sequenceChars 0)
    simpa using ((Shows.of_flatten hstarts).append (.of_notMem htext)).append hreset

/-! ### Texts without escape characters -/

/-- No character of the text is an escape character. -/
def Bare (s : Text) : Prop := escape ∉ s.toList

instance (s : Text) : Decidable (Bare s) := inferInstanceAs (Decidable (escape ∉ s.toList))

section
variable {s t : Text}

@[simp]
theorem bare_append : Bare (s ++ t) ↔ Bare s ∧ Bare t := by
  rw [Bare, Text.toList_append, List.mem_append, not_or]
  rfl

theorem escape_notMem_natDigits (n : Nat) : escape ∉ natDigits n := notMem_natDigits (by decide) n

theorem escape_notMem_intChars (n : Int) : escape ∉ intChars n := notMem_intChars (by decide) (by decide) n

@[simp]
theorem bare_natText (n : Nat) : Bare (natText n) := escape_notMem_natDigits n

@[simp]
theorem bare_intText (n : Int) : Bare (intText n) := by
  rw [Bare, intText, Text.toList_ofList]
  exact escape_notMem_intChars n

@[simp]
theorem bare_scoreText (q : Rat) : Bare (scoreText q) := by
  unfold Bare scoreText fixedText
  simp only
  generalize (roundEven (magnitude q * (Nat.pow 10 2 : Rat))).toNat = scaled
  have hdigits : escape ∉ zeroFilled 3 (natDigits scaled) := fun h => by
    rcases List.mem_append.1 h with h | h
    · exact absurd (List.eq_of_mem_replicate h) (by decide)
    · exact escape_notMem_natDigits scaled h
  generalize zeroFilled 3 (natDigits scaled) = ds at hdigits ⊢
  have hwhole : escape ∉ ds.take (ds.length - 2) := mt List.mem_of_mem_take hdigits
  have hrest : escape ∉ ds.drop (ds.length - 2) := mt List.mem_of_mem_drop hdigits
  have hpoint : escape ≠ .char '.' := by decide
  have hsign : escape ≠ .char '-' := by decide
  split <;> simp [hpoint, hsign, hwhole, hrest]

theorem Bare.padRight (h : Bare s) (width : Nat) : Bare (padRight width s) := by
  rw [Bare, Page.padRight, Text.toList_ofList, List.mem_append, not_or]
  exact ⟨h, fun hblank => absurd (List.eq_of_mem_replicate hblank) (by decide)⟩

theorem Bare.padLeft (h : Bare s) (width : Nat) : Bare (padLeft width s) := by
  rw [Bare, Page.padLeft, Text.toList_ofList, List.mem_append, not_or]
  exact ⟨fun hblank => absurd (List.eq_of_mem_replicate hblank) (by decide), h⟩

theorem Bare.intercalate (h : Bare s) {l : List Text} (hl : ∀ t ∈ l, Bare t) : Bare (s.intercalate l) := by
  induction l with
  | nil =>
    rw [Text.intercalate_nil]
    decide
  | cons t rest ih =>
    have ht := hl t List.mem_cons_self
    cases rest with
    | nil => rwa [Text.intercalate_singleton]
    | cons u rest =>
      have hrest := ih fun v hv => hl v (List.mem_cons_of_mem t hv)
      rw [Text.intercalate_cons_cons, bare_append, bare_append]
      exact ⟨⟨ht, h⟩, hrest⟩

theorem bare_locationText {l : Location} (h : Bare l.file) : Bare l.text := by
  have hcolon : escape ≠ .char ':' := by decide
  rw [Bare, Location.text, Text.toList_ofList, Location.chars]
  simp [hcolon, escape_notMem_intChars, show escape ∉ l.file.toList from h]

theorem bare_of_shownIn {l : Option Location} {text : Text} (h : ∀ p ∈ l, Bare p.file)
    (htext : Location.shownIn l = some text) : Bare text := by
  obtain ⟨p, hp, rfl⟩ := Option.map_eq_some_iff.1 htext
  exact bare_locationText (h p (Option.mem_filter_iff.1 hp).1)

theorem bare_placeText {l : Option Location} (h : ∀ p ∈ l, Bare p.file) : Bare (placeText l) := by
  unfold placeText
  cases hshown : Location.shownIn l with
  | none => decide
  | some text => exact bare_of_shownIn h hshown

/-! ### Lines without escape characters -/

/-- The texts that a list of locations takes from its document. -/
def placeTexts (ls : List Location) : List Text := ls.map (·.file)

def noteTexts (n : Note) : List Text := n.reason :: placeTexts n.location.toList

def rootTexts (e : RootEntry) : List Text :=
  e.name :: e.reason :: placeTexts e.location.toList ++ e.notes.flatMap noteTexts

def causeTexts (e : CauseEntry) : List Text := e.name :: placeTexts e.location.toList ++ e.causes

/-- The texts that the parts of a page take from the document. -/
def Parts.texts (p : Parts) : List Text :=
  (p.summary.map fun s => s.buckets.map (·.reason)).getD []
    ++ (p.report.map fun r => r.entries.flatMap rootTexts ++ placeTexts r.macroLocations).getD []
    ++ (p.causes.map (·.flatMap causeTexts)).getD []

/-- No span of the line has an escape character. -/
def BareLine (l : Line) : Prop := ∀ s ∈ l, Bare s.text

theorem bareLine_heading (h : Bare s) : BareLine (heading s) := List.forall_mem_singleton.2 h

theorem bareLine_bucketLine {b : ReasonBucket} (h : Bare b.reason) : BareLine (bucketLine b) := by
  simp +decide [BareLine, bucketLine, plainSpan, h.padRight, Bare.padLeft]

theorem bareLine_summaryLines {sum : Summary} (h : ∀ b ∈ sum.buckets, Bare b.reason) :
    ∀ l ∈ summaryLines sum, BareLine l := by
  unfold summaryLines
  rw [List.forall_mem_append, List.forall_mem_map]
  refine ⟨?_, fun b hb => bareLine_bucketLine (h b hb)⟩
  simp +decide [BareLine, plainSpan, heading]

theorem forall_mem_placeTexts {l : Option Location} :
    (∀ t ∈ placeTexts l.toList, Bare t) ↔ ∀ p ∈ l, Bare p.file := by
  simp [placeTexts]

theorem bareLine_noteLine {n : Note} (h : ∀ t ∈ noteTexts n, Bare t) : BareLine (noteLine n) := by
  obtain ⟨hreason, hplace⟩ := List.forall_mem_cons.1 h
  rw [forall_mem_placeTexts] at hplace
  unfold noteLine
  cases hshown : Location.shownIn n.location with
  | none => simp +decide [BareLine, plainSpan, hreason]
  | some place =>
    have hplace := bare_of_shownIn hplace hshown
    simp +decide [BareLine, plainSpan, hreason, hplace]

theorem bareLine_rootLines {e : RootEntry} (h : ∀ t ∈ rootTexts e, Bare t) : ∀ l ∈ rootLines e, BareLine l := by
  unfold rootTexts at h
  rw [List.forall_mem_append, List.forall_mem_cons, List.forall_mem_cons, forall_mem_placeTexts] at h
  obtain ⟨⟨hname, hreason, hplace⟩, hnotes⟩ := h
  have hplace := bare_placeText hplace
  unfold rootLines
  rw [List.forall_mem_append, List.forall_mem_map]
  refine ⟨?_, fun n hn => bareLine_noteLine fun t ht => hnotes t (List.mem_flatMap_of_mem hn ht)⟩
  cases e.inSource <;> simp +decide [BareLine, plainSpan, arrow, hname, hreason, hplace]

theorem bareLine_warningLines {ls : List Location} (h : ∀ t ∈ placeTexts ls, Bare t) :
    ∀ l ∈ warningLines ls, BareLine l := by
  unfold warningLines
  split
  · exact List.forall_mem_nil _
  · rw [List.forall_mem_append, List.forall_mem_map]
    refine ⟨?_, fun l hl => ?_⟩
    · have hwarning : Bare (macroWarning ls.length) := by
        unfold macroWarning
        split <;> simp +decide
      simp +decide [BareLine, hwarning]
    · have hl := bare_locationText (h l.file (List.mem_map_of_mem hl))
      simp +decide [BareLine, plainSpan, arrow, hl]

theorem bareLine_reportLines {r : RootReport} (hentries : ∀ t ∈ r.entries.flatMap rootTexts, Bare t)
    (hmacros : ∀ t ∈ placeTexts r.macroLocations, Bare t) (limit : Option Int) :
    ∀ l ∈ reportLines limit r, BareLine l := by
  obtain ⟨omitted, hsplit, -⟩ := shownRoots_cases limit r.entries
  unfold reportLines
  rw [List.forall_mem_append, List.forall_mem_cons]
  refine ⟨⟨bareLine_heading (by simp +decide), fun l hl => ?_⟩, bareLine_warningLines hmacros⟩
  obtain ⟨e, he, hl⟩ := List.mem_flatMap.1 hl
  have he : e ∈ r.entries := List.mem_mergeSort.1 (hsplit ▸ List.mem_append_left omitted he)
  exact bareLine_rootLines (fun t ht => hentries t (List.mem_flatMap_of_mem he ht)) l hl

theorem bareLine_causeLine {e : CauseEntry} (h : ∀ t ∈ causeTexts e, Bare t) : BareLine (causeLine e) := by
  unfold causeTexts at h
  rw [List.forall_mem_append, List.forall_mem_cons, forall_mem_placeTexts] at h
  obtain ⟨⟨hname, hplace⟩, hcauses⟩ := h
  have hplace := bare_placeText hplace
  have hnames := Bare.intercalate (show Bare ", " by decide) hcauses
  unfold causeLine
  split <;> simp +decide [BareLine, plainSpan, hname, hplace, hnames]

theorem bareLine_causeLines {entries : List CauseEntry} (h : ∀ t ∈ entries.flatMap causeTexts, Bare t) :
    ∀ l ∈ causeLines entries, BareLine l := by
  unfold causeLines
  rw [List.forall_mem_cons, List.forall_mem_map]
  exact ⟨bareLine_heading (by simp +decide),
    fun e he => bareLine_causeLine fun t ht => h t (List.mem_flatMap_of_mem he ht)⟩

theorem bareLine_lines {p : Parts} (h : ∀ t ∈ p.texts, Bare t) (limit : Option Int) :
    ∀ l ∈ p.lines limit, BareLine l := by
  obtain ⟨summary, report, causes⟩ := p
  unfold Parts.texts at h
  rw [List.forall_mem_append, List.forall_mem_append] at h
  obtain ⟨⟨hsummary, hreport⟩, hcauses⟩ := h
  unfold Parts.lines
  rw [List.forall_mem_append, List.forall_mem_append]
  refine ⟨⟨?_, ?_⟩, ?_⟩
  · cases summary with
    | none => exact List.forall_mem_nil _
    | some sum => exact bareLine_summaryLines (List.forall_mem_map.1 hsummary)
  · cases report with
    | none => exact List.forall_mem_nil _
    | some r =>
      obtain ⟨hentries, hmacros⟩ := List.forall_mem_append.1 hreport
      exact bareLine_reportLines hentries hmacros limit
  · cases causes with
    | none => exact List.forall_mem_nil _
    | some entries => exact bareLine_causeLines hcauses

end

/-! ### Pages -/

theorem AddsSequences.shows_linesText {paint : Painter} (h : AddsSequences paint) {lines : List Line}
    (hlines : ∀ l ∈ lines, BareLine l) :
    Shows (linesText (some paint) lines).toList (linesText none lines).toList := by
  rw [linesText, linesText, Text.toList_ofList, Text.toList_ofList]
  refine .flatMap fun l hl => .append (.flatMap fun s hs => ?_) (.of_notMem (by decide))
  have htext := hlines l hl s hs
  unfold Span.chars
  cases s.style with
  | none => exact .of_notMem htext
  | some style => exact h.shows style htext

/-- A page under any painter is the page without colour once its sequences are taken out, if the texts of its document
have no escape character; and it is that page as it stands when the painter leaves the texts alone. The painter of the
terminal is one of them. -/
theorem colour_only_adds_sequences {colored : Environment → Bool → Painter} {parts : Parts}
    (hcolored : ∀ env stdoutIsTerminal, AddsSequences (colored env stdoutIsTerminal))
    (htexts : ∀ t ∈ parts.texts, Bare t) (limit : Option Int) (env : Environment) (stdoutIsTerminal : Bool) :
    let plain := linesText none (parts.lines limit)
    let painted := linesText (some (colored env stdoutIsTerminal)) (parts.lines limit)
    withoutSequences painted.toList = plain.toList ∧
      ((∀ style text, colored env stdoutIsTerminal style text = text) → painted = plain) ∧
      withoutSequences (linesText (some (terminalPainter env stdoutIsTerminal)) (parts.lines limit)).toList =
        plain.toList := by
  intro plain painted
  have hlines := bareLine_lines htexts limit
  refine ⟨?_, fun hdeclined => ?_, ?_⟩
  · exact ((hcolored env stdoutIsTerminal).shows_linesText hlines).withoutSequences_eq
  · have hspan : Span.chars (some (colored env stdoutIsTerminal)) = Span.chars none := by
      funext s
      unfold Span.chars
      cases s.style with
      | none => rfl
      | some style => exact hdeclined style _
    exact congrArg (fun f => Text.ofList ((parts.lines limit).flatMap fun l => l.flatMap f ++ [.char '\n'])) hspan
  · exact ((terminalPainter_addsSequences env stdoutIsTerminal).shows_linesText hlines).withoutSequences_eq

/-- A page with one root, which has a note and comes from a macro. -/
def macroRootPage : Parts where
  report := some
    { entries :=
        [{ atom := 4, name := "q_4", reason := macroReason, inSource := false, location := some ⟨"src/m.h", 10, 1, 8⟩,
           atomsAffected := 2, atomsScore := 3 / 2, pointersAffected := 0, pointersScore := 0,
           notes := [⟨"Cast", some ⟨"src/a.c", 3, 1, 4⟩⟩] }]
      macroLocations := [⟨"src/m.h", 10, 1, 8⟩] }

theorem colour_only_adds_sequences_macroRootPage :
    linesText (some (terminalPainter [("FORCE_COLOR", "1")] false)) (macroRootPage.lines (some 1)) ≠
        linesText none (macroRootPage.lines (some 1)) ∧
      withoutSequences
          (linesText (some (terminalPainter [("FORCE_COLOR", "1")] false)) (macroRootPage.lines (some 1))).toList =
        (linesText none (macroRootPage.lines (some 1))).toList :=
  ⟨by decide +kernel, (colour_only_adds_sequences terminalPainter_addsSequences (by decide) (some 1)
    [("FORCE_COLOR", "1")] false).1⟩

end Blame.Page
