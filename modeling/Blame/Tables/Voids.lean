import Blame.Location

/-!
# Void declarations

Declarations of void type with the kind of thing they declare. A declaration is known by its location;
its kind is unknown at first and found out once.
-/

namespace Blame

/-- What a void declaration declares. -/
inductive VoidKind where
  | «local»
  | param
  | result
  | member
  | «global»
  | typedef
  | unknown
  deriving DecidableEq, Repr

namespace VoidKind

def all : List VoidKind := [«local», param, result, member, «global», typedef, unknown]

def name : VoidKind → Text
  | «local» => "Local"
  | param => "Param"
  | result => "Return"
  | member => "Member"
  | «global» => "Global"
  | typedef => "Typedef"
  | unknown => "Unknown"

def ofName? (s : Text) : Option VoidKind := all.find? (·.name == s)

end VoidKind

/-- A void declaration. -/
structure VoidDecl where
  location : Location
  name : Text
  kind : VoidKind := .unknown
  generic : Bool := false
  deriving DecidableEq, Repr

/-- The void declarations of a program. -/
abbrev VoidTable := List VoidDecl

namespace VoidTable

/-- Adds a declaration unless its location is known. -/
def add (l : Location) (name : Text) (t : VoidTable) : VoidTable :=
  if t.any (·.location == l) then t else t ++ [{ location := l, name }]

/-- Whether a declaration stands at a valid location and its kind is still unknown. -/
def awaitsKind (l : Location) (d : VoidDecl) : Bool :=
  d.location == l && d.kind == .unknown && l.valid

/-- Gives the first typedef of a name whose place is not known its kind, and its place if that is valid
now. -/
def nameTypedef (l : Location) (name : Text) : VoidTable → VoidTable
  | [] => []
  | d :: rest =>
    if !d.location.valid && d.name == name && d.kind == .unknown then
      { d with kind := .typedef, location := if l.valid then l else d.location } :: rest
    else d :: nameTypedef l name rest

/-- Sets the kind of the declarations at a location whose kind is unknown. If there are none, a typedef is
looked up by its name, since its place is often not known when it is first seen. -/
def setKind (l : Location) (kind : VoidKind) (name : Text) (t : VoidTable) : VoidTable :=
  if t.any (awaitsKind l) then t.map fun d => if awaitsKind l d then { d with kind } else d
  else if kind = .typedef then nameTypedef l name t
  else t

/-- Tells whether the first declaration at a location is generic. -/
def setGeneric (l : Location) (generic : Bool) : VoidTable → VoidTable
  | [] => []
  | d :: rest => if d.location = l then { d with generic } :: rest else d :: setGeneric l generic rest

def toJson (t : VoidTable) : List Json :=
  t.map fun d => .obj (d.location.toMembers ++
    ([("type", .str d.kind.name), ("name", .str d.name), ("generic", .bool d.generic)] : List (Text × Json)))

end VoidTable

end Blame
