import Blame.Atom.Table
import Blame.Diagnostic
import Blame.Pointer

/-!
# The attribution index

Who explains which WILD atom. A root is forced WILD by the program text and carries a diagnostic; an
indirect atom is WILD because roots force it. `effects` leads from a root to the atoms it forces and
`causes` back again; both are stored, and so are the two directions for pointer variables.
-/

namespace Blame

/-- The tables of one analysis run. -/
@[ext]
structure Index where
  /-- The diagnostic of every root. -/
  diagnostics : AtomTable Diagnostic := ∅
  locations : AtomTable Location := ∅
  names : AtomTable Text := ∅
  rootsInSource : AtomSet := ∅
  indirect : AtomSet := ∅
  indirectInSource : AtomSet := ∅
  /-- The atoms that a root forces. -/
  effects : Relation := ∅
  /-- The roots that force an atom. -/
  causes : Relation := ∅
  /-- The pointer variables of which an atom is a level. -/
  members : AtomTable PointerSet := ∅
  /-- The pointer variables that a root makes WILD. -/
  pointerEffects : AtomTable PointerSet := ∅
  /-- The roots that make a pointer variable WILD. -/
  pointerCauses : PointerRelation := ∅
  deriving DecidableEq

/-- How a call can contradict what the index holds about an atom. -/
inductive Contradiction where
  | indirectAsRoot
  | rootAsIndirect
  | causeIsNoRoot
  | pointerCauseIsNoRoot
  | noDiagnostic
  deriving DecidableEq, Repr

def Contradiction.message : Contradiction → Text
  | indirectAsRoot => "already classified as indirect, cannot become a root"
  | rootAsIndirect => "is a root, cannot be classified as indirect"
  | causeIsNoRoot => "propagation source is not a recorded root"
  | pointerCauseIsNoRoot => "pointer propagation source is not a recorded root"
  | noDiagnostic => "diagnostic requested for a non-root atom"

/-- A contradiction about one atom. -/
structure Inconsistency where
  atom : Atom
  what : Contradiction
  deriving DecidableEq, Repr

def Inconsistency.message (i : Inconsistency) : Text :=
  ("atom " ++ Number.intText i.atom ++ ": " ++ i.what.message)

namespace Index

/-- The pointer variables that a table holds for an atom. -/
def pointersIn (t : AtomTable PointerSet) (a : Atom) : PointerSet := (t.find? a).getD ∅

/-- The number of pairs in a table of pointer variables. -/
def pointerPairs (t : AtomTable PointerSet) : Nat := t.entries.foldr (fun e n => e.2.size + n) 0

def roots (ix : Index) : AtomSet := ix.diagnostics.keys

def isRoot (ix : Index) (a : Atom) : Bool := ix.diagnostics.contains a

theorem isRoot_iff {ix : Index} {a : Atom} : ix.isRoot a = true ↔ a ∈ ix.roots :=
  ix.diagnostics.contains_eq a

def isRootInSource (ix : Index) (a : Atom) : Bool := decide (a ∈ ix.rootsInSource)

/-- The diagnostic of an atom, which has to be a root. -/
def diagnosticOf (ix : Index) (a : Atom) : Except Inconsistency Diagnostic :=
  match ix.diagnostics.find? a with
  | some d => .ok d
  | none => .error ⟨a, .noDiagnostic⟩

def locationOf (ix : Index) (a : Atom) : Option Location := ix.locations.find? a

/-- The name of an atom; one without a name is called after its number. -/
def nameOf (ix : Index) (a : Atom) : Text :=
  (ix.names.find? a).getD ("q_" ++ Number.intText a)

/-- The roots that force an atom. -/
def causesOf (ix : Index) (a : Atom) : AtomSet := Relation.image ix.causes a

/-- The atoms that a root forces. -/
def effectsOf (ix : Index) (r : Atom) : AtomSet := Relation.image ix.effects r

def causeCount (ix : Index) (a : Atom) : Nat := (ix.causesOf a).size

/-- The atoms that some atom of a list forces. -/
def jointEffects (ix : Index) (rs : List Atom) : AtomSet :=
  rs.foldr (fun r s => (ix.effectsOf r).union s) ∅

def pointerCausesOf (ix : Index) (p : PointerId) : AtomSet := ix.pointerCauses.image p

def pointerEffectsOf (ix : Index) (r : Atom) : PointerSet := pointersIn ix.pointerEffects r

def pointerCauseCount (ix : Index) (p : PointerId) : Nat := (ix.pointerCausesOf p).size

def membersOf (ix : Index) (a : Atom) : PointerSet := pointersIn ix.members a

/-- The atoms that some root forces. -/
def explained (ix : Index) : AtomSet := ix.causes.keys.filter fun a => !(ix.causesOf a).isEmpty

/-- The size of an index. -/
structure Stats where
  roots : Nat
  rootsInSource : Nat
  indirect : Nat
  indirectInSource : Nat
  edges : Nat
  pointerEdges : Nat
  deriving DecidableEq, Repr

def stats (ix : Index) : Stats where
  roots := ix.diagnostics.size
  rootsInSource := ix.rootsInSource.size
  indirect := ix.indirect.size
  indirectInSource := ix.indirectInSource.size
  edges := Relation.pairCount ix.effects
  pointerEdges := pointerPairs ix.pointerEffects

/-- The index in one line. -/
def shown (ix : Index) : Text :=
  let s := ix.stats
  ("AttributionIndex(roots=" ++ Number.natText s.roots ++ ", indirect=" ++ Number.natText s.indirect ++ ", edges=" ++ Number.natText s.edges ++ ")")

end Index

end Blame
