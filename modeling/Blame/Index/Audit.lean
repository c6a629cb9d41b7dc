import Blame.Index.Basic

/-!
# Checking an index

What can be wrong with the tables of an index, found by going through them one after the other.
-/

namespace Blame

/-- A breach of the rules that the tables keep. -/
inductive Violation where
  | rootsAndIndirect (both : AtomSet)
  | strayRootsInSource (stray : AtomSet)
  | strayIndirectInSource (stray : AtomSet)
  | effectWithoutCause (root affected : Atom)
  | explainedRoot (root : Atom) (causes : AtomSet)
  | causeWithoutEffect (affected root : Atom)
  | pointerEffectWithoutCause (root : Atom) (pointer : PointerId)
  deriving DecidableEq

/-- Atoms as a message lists them. -/
def AtomSet.shown (s : AtomSet) : Text :=
  "[" ++ Text.intercalate ", " (s.toList.map Number.intText) ++ "]"

def Violation.message : Violation → Text
  | rootsAndIndirect both => ("roots and indirect overlap: " ++ both.shown)
  | strayRootsInSource stray => ("in-source roots that are not roots: " ++ stray.shown)
  | strayIndirectInSource stray =>
    ("in-source indirect atoms that are not indirect: " ++ stray.shown)
  | effectWithoutCause root affected =>
    ("forward " ++ Number.intText root ++ "->" ++ Number.intText affected ++ " has no reverse entry")
  | explainedRoot root causes => ("root " ++ Number.intText root ++ " has reverse causes " ++ causes.shown)
  | causeWithoutEffect affected root =>
    ("reverse " ++ Number.intText affected ++ "<-" ++ Number.intText root ++ " has no forward entry")
  | pointerEffectWithoutCause root pointer =>
    ("pointer forward " ++ Number.intText root ++ "->" ++ pointer.shown ++ " has no reverse entry")

namespace Index

/-- A breach that concerns a set of atoms, if there are any. -/
def ifAny (what : AtomSet → Violation) (s : AtomSet) : List Violation :=
  if s.isEmpty then [] else [what s]

/-- The effects that are not recorded as causes. -/
def checkEffects (ix : Index) : List Violation :=
  ix.effects.entries.flatMap fun (r, as) =>
    (as.toList.filter fun a => r ∉ ix.causesOf a).map (.effectWithoutCause r)

/-- The roots that are explained, and the causes that are not recorded as effects. -/
def checkCauses (ix : Index) : List Violation :=
  ix.causes.entries.flatMap fun (a, rs) =>
    (if !rs.isEmpty && ix.isRoot a then [.explainedRoot a rs] else [])
      ++ (rs.toList.filter fun r => a ∉ ix.effectsOf r).map (.causeWithoutEffect a)

/-- The pointer variables of a root that it is not recorded to explain. -/
def checkPointerEffects (ix : Index) : List Violation :=
  ix.pointerEffects.entries.flatMap fun (r, ps) =>
    (ps.toList.filter fun p => r ∉ ix.pointerCausesOf p).map (.pointerEffectWithoutCause r)

/-- Every breach of the rules. -/
def violations (ix : Index) : List Violation :=
  ifAny .rootsAndIndirect (ix.indirect.inter ix.roots)
    ++ ifAny .strayRootsInSource (ix.rootsInSource.diff ix.roots)
    ++ ifAny .strayIndirectInSource (ix.indirectInSource.diff ix.indirect)
    ++ ix.checkEffects ++ ix.checkCauses ++ ix.checkPointerEffects

end Index

end Blame
