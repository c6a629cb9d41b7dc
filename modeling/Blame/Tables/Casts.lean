import Blame.Location

/-!
# Invalid casts

The places of invalid casts, grouped by the two types of the cast. Groups stand in the order of their
first cast, and places in the order in which they were added.
-/

namespace Blame

/-- The places of the casts between two types. -/
structure CastGroup where
  dst : Text
  src : Text
  locations : List Location
  deriving DecidableEq, Repr

/-- The casts of a program. -/
abbrev CastTable := List CastGroup

namespace CastTable

/-- Adds the place of a cast to its group. -/
def add (dst src : Text) (l : Location) : CastTable → CastTable
  | [] => [⟨dst, src, [l]⟩]
  | g :: rest =>
    if g.dst = dst ∧ g.src = src then { g with locations := g.locations ++ [l] } :: rest
    else g :: add dst src l rest

def toJson (t : CastTable) : List Json :=
  t.map fun g => .obj [
    ("Dst", .str g.dst),
    ("Src", .str g.src),
    ("Locs", .list (g.locations.map fun l => .obj l.toMembers))]

end CastTable

end Blame
