import Blame.Json.Shown

/-!
# Source locations

A place in a source file. A location without a file or without a line is not valid: it is an ordinary
value, but reports show it as absent.
-/

namespace Blame

open Number

/-- A file, a line and a range of columns; zero stands for an unknown line or column. -/
structure Location where
  file : Text := ""
  line : Int := 0
  colStart : Int := 0
  colEnd : Int := 0
  deriving DecidableEq, Repr, Inhabited

/-- A coordinate of a location that is not an integer. -/
structure CoordinateError where
  key : Text
  value : Json

def CoordinateError.message (e : CoordinateError) : Text :=
  (e.key ++ " must be an integer, got " ++ e.value.shown)

namespace Location

/-- Whether the location names a place. -/
def valid (l : Location) : Bool := !l.file.isEmpty && decide (0 < l.line)

/-- The location in one line of text. -/
def chars (l : Location) : List CodePoint :=
  l.file.toList ++ .char ':' :: intChars l.line ++ .char ':' :: intChars l.colStart ++ .char ':' :: intChars l.colEnd

/-- The location in one line of text. -/
def text (l : Location) : Text := Text.ofList l.chars

/-- The location as members of an object. -/
def toMembers (l : Location) : List (Text × Json) :=
  [("file", .str l.file), ("line", .int l.line), ("colstart", .int l.colStart), ("colend", .int l.colEnd)]

/-- The first of the keys that is present decides a coordinate; null stands for an unknown one. -/
def coordinate (members : List (Text × Json)) : List Text → Except CoordinateError Int
  | [] => .ok 0
  | key :: keys =>
    match Json.member? key members with
    | none => coordinate members keys
    | some .null => .ok 0
    | some (.int n) => .ok n
    | some v => .error ⟨key, v⟩

/-- Reads a location off the members of an object; the columns have two spellings each. -/
def ofMembers (members : List (Text × Json)) : Except CoordinateError Location := do
  let file := match Json.member? "file" members with
    | none | some .null => ""
    | some v => v.asText
  let line ← coordinate members ["line"]
  let colStart ← coordinate members ["colstart", "col_start"]
  let colEnd ← coordinate members ["colend", "col_end"]
  return { file, line, colStart, colEnd }

/-- The order of locations: by file, line and columns. -/
def before (l m : Location) : Bool :=
  if l.file ≠ m.file then decide (l.file < m.file)
  else if l.line ≠ m.line then decide (l.line < m.line)
  else if l.colStart ≠ m.colStart then decide (l.colStart < m.colStart)
  else decide (l.colEnd < m.colEnd)

/-- Absent and invalid locations are one and the same to a report. -/
def onlyValid (l : Option Location) : Option Location := l.filter valid

/-- How a report shows a location. -/
def shownIn (l : Option Location) : Option Text := (onlyValid l).map text

end Location

end Blame
