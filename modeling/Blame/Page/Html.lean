import Blame.Page.Terminal
import Blame.Text.Lines

/-!
# HTML pages

A page is a row of pieces, each either markup of the page itself or a text of the document. Texts are
escaped, so that no text of a document can be taken for markup.
-/

namespace Blame.Page.Html

open Number

/-- A piece of a page. -/
inductive Piece where
  | markup (s : Text)
  | text (s : Text)
  deriving DecidableEq, Repr

/-- A character of a document text as it stands in a page. -/
def escapeChar (c : CodePoint) : List CodePoint :=
  if c = .char '&' then (Text.toList "&amp;")
  else if c = .char '<' then (Text.toList "&lt;")
  else if c = .char '>' then (Text.toList "&gt;")
  else if c = .char '\'' then (Text.toList "&#39;")
  else if c = .char '"' then (Text.toList "&#34;")
  else [c]

def Piece.chars : Piece → List CodePoint
  | markup s => s.toList
  | text s => s.toList.flatMap escapeChar

/-- A number between markup. -/
def countPiece (n : Nat) : Piece := .text (natText n)

def scorePiece (q : Rat) : Piece := .text (scoreText q)

/-- A location, empty if there is none. -/
def placePiece (l : Option Location) : Piece := .text ((Location.shownIn l).getD "")

/-- The page down to the start of its body. -/
def headLines : List Text := [
  "<!DOCTYPE html>",
  "<html lang=\"en\">",
  "<head>",
  "  <meta charset=\"utf-8\">",
  "  <title>WILD Pointer Root Causes</title>",
  "  <style>",
  "    :root \x7b --bg: #1e1e2e; --fg: #cdd6f4; --surface: #313244;",
  "            --red: #f38ba8; --yellow: #f9e2af; --cyan: #89dceb;",
  "            --blue: #89b4fa; --border: #45475a; \x7d",
  "    body \x7b font-family: 'Fira Code', monospace; background: var(--bg);",
  "           color: var(--fg); padding: 2rem; \x7d",
  "    table \x7b border-collapse: collapse; margin-bottom: 2rem; \x7d",
  "    th, td \x7b border: 1px solid var(--border); padding: 4px 10px; \x7d",
  "    th \x7b background: var(--surface); \x7d",
  "    .reason \x7b color: var(--cyan); \x7d",
  "    .score \x7b color: var(--yellow); text-align: right; \x7d",
  "    .loc \x7b color: var(--blue); \x7d",
  "    .note \x7b color: var(--cyan); font-size: 0.9em; \x7d",
  "    .warn \x7b color: var(--yellow); font-weight: bold; \x7d",
  "  </style>",
  "</head>",
  "<body>"]

def bucketPieces (b : ReasonBucket) : List Piece :=
  [.markup "\n    <tr><td class=\"reason\">", .text b.reason,
    .markup "</td><td>", countPiece b.count,
    .markup "</td><td>", countPiece b.inSourceCount,
    .markup "</td>\n        <td>", countPiece b.indirectCount,
    .markup "</td><td>", countPiece b.inSourceIndirectCount,
    .markup "</td>\n        <td class=\"score\">", scorePiece b.inSourceScore,
    .markup "</td></tr>\n    "]

def summaryPieces (s : Summary) : List Piece :=
  [.markup "\n  <h1>WILD pointer summary</h1>\n  <p>", countPiece s.rootCount,
    .markup " root causes (", countPiece s.inSourceRootCount,
    .markup " in source),\n     ", countPiece s.indirectCount,
    .markup " indirect atoms (", countPiece s.inSourceIndirectCount,
    .markup (" in source).</p>\n  <table>\n    <tr><th>Reason</th><th>Roots</th><th>In source</th>"
      ++ "<th>Indirect</th><th>In-source indirect</th><th>Score</th></tr>\n    ")]
    ++ s.buckets.flatMap bucketPieces ++ [.markup "\n  </table>\n  "]

def notePieces (n : Note) : List Piece :=
  [.markup "\n    <tr><td></td><td colspan=\"7\" class=\"note\">note: ", .text n.reason]
    ++ (match Location.shownIn n.location with
      | some l => [.markup " (", .text l, .markup ")"]
      | none => [])
    ++ [.markup "</td></tr>\n    "]

def rootPieces (e : RootEntry) : List Piece :=
  [.markup "\n    <tr><td>", .text (intText e.atom),
    .markup "</td><td>", .text e.name,
    .markup "</td><td class=\"reason\">", .text e.reason,
    .markup "</td>\n        <td class=\"loc\">", placePiece e.location,
    .markup "</td><td>", countPiece e.atomsAffected,
    .markup "</td>\n        <td class=\"score\">", scorePiece e.atomsScore,
    .markup "</td><td>", countPiece e.pointersAffected,
    .markup "</td>\n        <td class=\"score\">", scorePiece e.pointersScore,
    .markup "</td></tr>\n    "]
    ++ e.notes.flatMap notePieces ++ [.markup "\n    "]

/-- The table of roots; without roots there is none. -/
def rootTablePieces (entries : List RootEntry) : List Piece :=
  if entries.isEmpty then []
  else
    .markup ("\n  <h1>Root causes</h1>\n  <table>\n    <tr><th>Key</th><th>Name</th><th>Reason</th>"
      ++ "<th>Location</th><th>Atoms</th><th>Atom score</th><th>Pointers</th>"
      ++ "<th>Pointer score</th></tr>\n    ")
      :: entries.flatMap rootPieces ++ [.markup "\n  </table>\n  "]

/-- The macro locations that a page lists; without roots it lists none. -/
def listedLocations (r : RootReport) : List Location :=
  if r.entries.isEmpty then [] else r.macroLocations

/-- The list of macro locations; without any there is none. -/
def macroPieces (ls : List Location) : List Piece :=
  if ls.isEmpty then []
  else
    [.markup "\n  <p class=\"warn\">", .text (macroWarning ls.length), .markup "</p>\n  <ul>"]
      ++ ls.flatMap (fun l => [.markup "<li class=\"loc\">", .text l.text, .markup "</li>"])
      ++ [.markup "</ul>\n  "]

def causePieces (e : CauseEntry) : List Piece :=
  [.markup "\n    <tr><td>", .text (intText e.atom),
    .markup "</td><td>", .text e.name,
    .markup "</td><td class=\"loc\">", placePiece e.location,
    .markup "</td>\n        <td>", .text (Text.intercalate ", " e.causes),
    .markup "</td></tr>\n    "]

/-- The table of causes; without explained atoms there is none. -/
def causeTablePieces (entries : List CauseEntry) : List Piece :=
  if entries.isEmpty then []
  else
    .markup ("\n  <h1>RC map</h1>\n  <table>\n    <tr><th>Key</th><th>Name</th><th>Location</th>"
      ++ "<th>Explained by</th></tr>\n    ")
      :: entries.flatMap causePieces ++ [.markup "\n  </table>\n  "]

/-- The pieces of a page. -/
def pieces (p : Parts) : List Piece :=
  [.markup (Text.intercalate "\n" headLines ++ "\n  ")]
    ++ (p.summary.map summaryPieces).getD []
    ++ [.markup "\n  "]
    ++ (p.report.map fun r => rootTablePieces r.entries).getD []
    ++ [.markup "\n  "]
    ++ (p.report.map fun r => macroPieces (listedLocations r)).getD []
    ++ [.markup "\n  "]
    ++ (p.causes.map causeTablePieces).getD []
    ++ [.markup "\n</body>\n</html>"]

/-- Why a custom template does not give a page: the system refuses a file that it asks for, or it fails otherwise. -/
inductive TemplateFault where
  | refused (message : Text)
  | failed (message : Text)
  deriving DecidableEq, Repr

/-- How a custom template is filled in with the parts of a page. -/
abbrev Renderer := List CodePoint → Parts → Except TemplateFault Text

/-- A template without any of the marks at which something is filled in, or something is left out. -/
def IsLiteral (template : List CodePoint) : Prop :=
  .char '\r' ∉ template ∧
    ∀ c ∈ ['\x7b', '%', '#'], Text.occursIn [.char '\x7b', .char c] template = false

instance (template : List CodePoint) : Decidable (IsLiteral template) := inferInstanceAs (Decidable (_ ∧ _))

/-- The page of a literal template, which loses one line feed at its end. -/
def literalPage (template : List CodePoint) : Text :=
  Text.ofList (if template.getLast? = some (.char '\n') then template.dropLast else template)

/-- What any way to fill in templates is relied on for: a literal template is shown as it is. -/
def ShowsLiterals (render : Renderer) : Prop :=
  ∀ template parts, IsLiteral template → render template parts = .ok (literalPage template)

/-- The page as a text. -/
def text (p : Parts) : Text := Text.ofList ((pieces p).flatMap Piece.chars)

end Blame.Page.Html
