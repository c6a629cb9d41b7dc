import Blame.Page.Paint
import Blame.Page.Parts

/-!
# Pages for a terminal

The parts of a page as lines of spans. The report shows the roots with the highest scores first and can
be cut off; what it says about all roots does not depend on the cut.
-/

namespace Blame.Page

open Number

def plainSpan (s : Text) : Span := { text := s }

def heading (s : Text) : Line := [⟨s, some ⟨some .white, [.bold]⟩⟩]

def arrow : Span := ⟨"-->", some ⟨some .blue, [.bold]⟩⟩

def scoreText (q : Rat) : Text := fixedText 2 q

def bucketLine (b : ReasonBucket) : Line :=
  [plainSpan "  ", ⟨padRight 24 b.reason, some ⟨some .cyan, []⟩⟩,
    plainSpan (" " ++ padLeft 7 (natText b.count) ++ " " ++ padLeft 7 (natText b.inSourceCount)
      ++ " " ++ padLeft 9 (natText b.indirectCount)
      ++ " " ++ padLeft 7 (natText b.inSourceIndirectCount) ++ " "),
    ⟨padLeft 9 (scoreText b.inSourceScore), some ⟨some .yellow, [.bold]⟩⟩]

def summaryLines (s : Summary) : List Line :=
  [heading "WILD pointer summary",
    [plainSpan ("  root causes      : " ++ natText s.rootCount ++ " (" ++ natText s.inSourceRootCount
      ++ " in source)")],
    [plainSpan ("  indirect atoms   : " ++ natText s.indirectCount ++ " ("
      ++ natText s.inSourceIndirectCount ++ " in source)")],
    [],
    [plainSpan ("  " ++ padRight 24 "reason" ++ " " ++ padLeft 7 "roots" ++ " " ++ padLeft 7 "in src"
      ++ " " ++ padLeft 9 "indirect" ++ " " ++ padLeft 7 "in src" ++ " " ++ padLeft 9 "score")]]
    ++ s.buckets.map bucketLine

/-- A location, or that there is none. -/
def placeText (l : Option Location) : Text := (Location.shownIn l).getD "<no location>"

def noteLine (n : Note) : Line :=
  let suffix := match Location.shownIn n.location with
    | some l => " [" ++ l ++ "]"
    | none => ""
  [plainSpan "  = ", ⟨"note", some ⟨some .cyan, [.bold]⟩⟩, plainSpan (": " ++ n.reason ++ suffix)]

/-- The lines about one root. -/
def rootLines (e : RootEntry) : List Line :=
  [[⟨e.reason, some ⟨some .red, [.bold]⟩⟩, plainSpan (" " ++ e.name ++ " (#" ++ intText e.atom ++ ")")]
      ++ (if e.inSource then [] else [⟨" [not in source]", some ⟨none, [.dark]⟩⟩]),
    [plainSpan "  ", arrow, plainSpan (" " ++ placeText e.location)],
    [plainSpan ("  affects " ++ natText e.atomsAffected ++ " atoms (score " ++ scoreText e.atomsScore
      ++ "), " ++ natText e.pointersAffected ++ " pointers (score " ++ scoreText e.pointersScore ++ ")")]]
    ++ e.notes.map noteLine

/-- Whether one root comes before another: the higher score first, then the smaller atom. -/
def ranksBefore (e f : RootEntry) : Bool :=
  decide (f.atomsScore < e.atomsScore) || (e.atomsScore == f.atomsScore && decide (e.atom ≤ f.atom))

/-- Cuts a list off after `limit` items, or before its last `-limit` ones. -/
def cutOff {α : Type} (limit : Int) (l : List α) : List α :=
  if 0 ≤ limit then l.take limit.toNat else l.take (l.length - limit.natAbs)

/-- The roots that a report shows, in its order. -/
def shownRoots (limit : Option Int) (entries : List RootEntry) : List RootEntry :=
  let ranked := entries.mergeSort ranksBefore
  match limit with
  | some n => cutOff n ranked
  | none => ranked

def warningLines (ls : List Location) : List Line :=
  if ls.isEmpty then []
  else
    [[], [⟨"warning: " ++ macroWarning ls.length, some ⟨some .yellow, [.bold]⟩⟩]]
      ++ ls.map fun l => [plainSpan "  ", arrow, plainSpan (" " ++ l.text)]

def reportLines (limit : Option Int) (r : RootReport) : List Line :=
  heading ("Root causes (" ++ natText r.entries.length ++ " total)")
    :: (shownRoots limit r.entries).flatMap rootLines ++ warningLines r.macroLocations

def causeLine (e : CauseEntry) : Line :=
  [plainSpan ("  " ++ e.name ++ " (#" ++ intText e.atom ++ ") "),
    ⟨placeText e.location, some ⟨some .blue, []⟩⟩,
    plainSpan (" <- " ++ (if e.causes.isEmpty then ("-" : Text) else Text.intercalate ", " e.causes))]

def causeLines (entries : List CauseEntry) : List Line :=
  heading ("RC map (" ++ natText entries.length ++ " explained atoms)") :: entries.map causeLine

/-- All lines of a page. -/
def Parts.lines (p : Parts) (limit : Option Int) : List Line :=
  (p.summary.map summaryLines).getD [] ++ (p.report.map (reportLines limit)).getD []
    ++ (p.causes.map causeLines).getD []

end Blame.Page
