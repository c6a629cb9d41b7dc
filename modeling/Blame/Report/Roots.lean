import Blame.Report.Summary

/-!
# Report of the roots

All there is to say about each root, in ascending order of the roots, and the distinct places of those
roots that only a macro expansion brings to light, in the order of the first root found there.
-/

namespace Blame

/-- What the report says about one root. -/
structure RootEntry where
  atom : Atom
  name : Text
  reason : Text
  inSource : Bool
  location : Option Location
  atomsAffected : Nat
  atomsScore : Rat
  pointersAffected : Nat
  pointersScore : Rat
  notes : List Note
  deriving DecidableEq, Repr

/-- The report of all roots. -/
structure RootReport where
  entries : List RootEntry
  macroLocations : List Location
  deriving DecidableEq, Repr

def Note.toJson (n : Note) : Json :=
  .obj [("Rsn", .str n.reason), ("Location", .optionalText (Location.shownIn n.location))]

namespace RootEntry

def toJson (e : RootEntry) : Json :=
  .obj [
    ("ConstraintKey", .int e.atom),
    ("Name", .str e.name),
    ("Reason", .str e.reason),
    ("InSrc", .bool e.inSource),
    ("Location", .optionalText (Location.shownIn e.location)),
    ("AtomsAffected", .count e.atomsAffected),
    ("AtomsScore", .score e.atomsScore),
    ("PtrsAffected", .count e.pointersAffected),
    ("PtrsScore", .score e.pointersScore),
    ("SubReasons", .list (e.notes.map Note.toJson))]

/-- The place a root hands to the list of macro locations; other reasons hand over none. -/
def macroLocation (e : RootEntry) : Option Location :=
  if e.reason = macroReason then e.location else none

end RootEntry

namespace RootReport

/-- The entry of an atom. -/
def find? (r : RootReport) (a : Atom) : Option RootEntry := r.entries.find? (·.atom == a)

def toJson (r : RootReport) : Json :=
  .obj [("RootCauseStats", .list (r.entries.map RootEntry.toJson))]

/-- What there is to say about a finished report. -/
def log (r : RootReport) : List LogLine :=
  [⟨.info, .report,
    ("Reported " ++ Number.natText r.entries.length ++ " roots, " ++ Number.natText r.macroLocations.length ++ " distinct macro locations")⟩]

end RootReport

/-- Locations as a list of objects. -/
def locationsJson (ls : List Location) : Json := .list (ls.map fun l => .obj l.toMembers)

/-- Adds the places that are not yet listed, in order. -/
def collectPlaces (seen : List Location) : List (Option Location) → List Location
  | [] => seen
  | some l :: rest => collectPlaces (if l ∈ seen then seen else seen ++ [l]) rest
  | none :: rest => collectPlaces seen rest

namespace Index

/-- The entry of a root with a given diagnostic. A valid location of the atom itself comes before that of
the diagnostic. -/
def entryFor (ix : Index) (nameOf : Atom → Text) (root : Atom) (d : Diagnostic) : RootEntry :=
  let affected := ix.effectsOf root
  let pointers := ix.pointerEffectsOf root
  { atom := root
    name := nameOf root
    reason := d.reason
    inSource := ix.isRootInSource root
    location := (Location.onlyValid (ix.locationOf root)).or (Location.onlyValid d.location)
    atomsAffected := affected.size
    atomsScore := ix.atomScore affected.toList
    pointersAffected := pointers.size
    pointersScore := ix.pointerScore pointers.toList
    notes := d.notes }

/-- The entry of an atom, which has to be a root. -/
def rootEntry (ix : Index) (nameOf : Atom → Text) (root : Atom) : Except Inconsistency RootEntry :=
  (ix.diagnosticOf root).map (ix.entryFor nameOf root)

/-- The report of all roots, called by the given names. -/
def rootReport (ix : Index) (nameOf : Atom → Text) : RootReport :=
  let entries := ix.diagnostics.entries.map fun (a, d) => ix.entryFor nameOf a d
  { entries, macroLocations := collectPlaces [] (entries.map RootEntry.macroLocation) }

end Index

end Blame
