import Blame.Report.Summary
import Blame.Text.Lines

/-!
# Map of causes

For every explained atom, in ascending order, the names of the roots that explain it. A root that stands
for a type argument nothing was put in for is left out: its name has the marker of type arguments, and
its diagnostic names no place.
-/

namespace Blame

/-- The causes of one atom. -/
structure CauseEntry where
  atom : Atom
  name : Text
  location : Option Location
  causes : List Text
  deriving DecidableEq, Repr

def CauseEntry.toJson (e : CauseEntry) : Json :=
  .obj [
    ("Key", .int e.atom),
    ("Name", .str e.name),
    ("Location", .optionalText (Location.shownIn e.location)),
    ("Reasons", .list (e.causes.map .str))]

/-- A map of causes as an object. -/
def causeMapJson (entries : List CauseEntry) : Json :=
  .obj [("RCMap", .list (entries.map CauseEntry.toJson))]

/-- What the names of type arguments contain. -/
def typeArgumentMarker : Text := "_tyarg_"

def namesTypeArgument (name : Text) : Bool := Text.occursIn typeArgumentMarker.toList name.toList

namespace Index

/-- Whether a cause is a type argument nothing was put in for; the diagnostic is read only if the name
asks for it. -/
def isOpenTypeArgument (ix : Index) (root : Atom) (name : Text) : Except Inconsistency Bool :=
  if namesTypeArgument name then
    (ix.diagnosticOf root).map fun d => (Location.onlyValid d.location).isNone
  else .ok false

/-- The names of those roots of a list that are to be shown. -/
def causeNames (ix : Index) (nameOf : Atom → Text) : List Atom → Except Inconsistency (List Text)
  | [] => .ok []
  | r :: rest =>
    match ix.isOpenTypeArgument r (nameOf r) with
    | .error e => .error e
    | .ok isOpen =>
      (causeNames ix nameOf rest).map fun names => if isOpen then names else nameOf r :: names

/-- The entry of one explained atom. -/
def causeEntry (ix : Index) (nameOf : Atom → Text) (a : Atom) : Except Inconsistency CauseEntry :=
  (ix.causeNames nameOf (ix.causesOf a).toList).map fun names =>
    { atom := a, name := nameOf a, location := Location.onlyValid (ix.locationOf a), causes := names }

/-- The causes of all explained atoms. -/
def causeMap (ix : Index) (nameOf : Atom → Text) : Except Inconsistency (List CauseEntry) :=
  ix.explained.toList.mapM (ix.causeEntry nameOf)

end Index

end Blame
