import Blame.Number.Double
import Blame.Text.Basic

/-!
# JSON values

A decoded document. Integers are unbounded and apart from doubles; the members of an object stand in the
order of the first occurrence of their keys.
-/

namespace Blame

open Number

/-- A decoded JSON document. -/
inductive Json where
  | null
  | bool (value : Bool)
  | int (value : Int)
  | float (value : Double)
  | str (value : Text)
  | list (items : List Json)
  | obj (members : List (Text × Json))
  deriving Inhabited, Repr

namespace Json

/-- Sets a member: a known key keeps its place, a new one comes last. -/
def setMember (key : Text) (value : Json) : List (Text × Json) → List (Text × Json)
  | [] => [(key, value)]
  | (k, v) :: rest => if k = key then (k, value) :: rest else (k, v) :: setMember key value rest

/-- The member with a given key. -/
def member? (key : Text) : List (Text × Json) → Option Json
  | [] => none
  | (k, v) :: rest => if k = key then some v else member? key rest

/-- Whether a value counts as true: all but null, false, zero, and empty texts, lists and objects. -/
def isTruthy : Json → Bool
  | null => false
  | bool b => b
  | int n => n ≠ 0
  | float x => !x.isZero
  | str s => !s.isEmpty
  | list items => !items.isEmpty
  | obj members => !members.isEmpty

end Json

end Blame
