import Blame.Location

/-!
# Root diagnostics

Why an atom was forced WILD by the program text itself: a short reason, the place, and notes that explain
it further in the order in which they were added.
-/

namespace Blame

/-- A finer explanation that belongs to a diagnostic. -/
structure Note where
  reason : Text
  location : Option Location := none
  deriving DecidableEq, Repr

/-- Why a root was forced WILD. -/
structure Diagnostic where
  reason : Text
  location : Option Location := none
  notes : List Note := []
  deriving DecidableEq, Repr

/-- The reason of roots that only a macro expansion brings to light. -/
def macroReason : Text := "Macro"

/-- The diagnostic with one more note at the end. -/
def Diagnostic.withNote (d : Diagnostic) (reason : Text) (location : Option Location) : Diagnostic :=
  { d with notes := d.notes ++ [⟨reason, location⟩] }

end Blame
