import Blame.Json.Writer
import Blame.Report.Causes
import Blame.Report.Roots

/-!
# Parts of a page

What a page may show, and the page as a JSON document: one part stands for itself, any other number of
parts makes a list.
-/

namespace Blame.Page

/-- The parts to be shown. -/
structure Parts where
  summary : Option Summary := none
  report : Option RootReport := none
  causes : Option (List CauseEntry) := none
  deriving DecidableEq

namespace Parts

/-- The parts as JSON values, in their order. -/
def values (p : Parts) : List Json :=
  (p.summary.map Summary.toJson).toList ++ (p.report.map RootReport.toJson).toList
    ++ (p.causes.map causeMapJson).toList

/-- The page as a JSON document. -/
def json (p : Parts) (layout : Json.Layout) : Text :=
  match p.values with
  | [v] => v.write layout
  | vs => (Json.list vs).write layout

end Parts

/-- The warning about roots that the text of the program does not show. -/
def macroWarning (n : Nat) : Text :=
  if n = 1 then "1 macro expansion is hiding root causes that textual inspection will not reveal"
  else (Number.natText n ++ " macro expansions are hiding root causes that textual inspection will not reveal")

end Blame.Page
