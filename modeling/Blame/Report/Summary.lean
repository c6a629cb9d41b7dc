import Blame.Log
import Blame.Score

/-!
# Summary by reason

The numbers of a whole index, and the same numbers for the roots of each reason. Reasons stand in
ascending order.
-/

namespace Blame

open Number

/-- The numbers of the roots that share a reason. -/
structure ReasonBucket where
  reason : Text
  count : Nat
  inSourceCount : Nat
  indirectCount : Nat
  inSourceIndirectCount : Nat
  inSourceScore : Rat
  deriving DecidableEq, Repr

/-- The numbers of an index. -/
structure Summary where
  indirectCount : Nat
  inSourceIndirectCount : Nat
  rootCount : Nat
  inSourceRootCount : Nat
  buckets : List ReasonBucket
  deriving DecidableEq, Repr

/-- A number of a report. -/
def Json.count (n : Nat) : Json := .int (n : Int)

/-- A score of a report. -/
def Json.score (q : Rat) : Json := .float (.finite q)

/-- A text, or null if there is none. -/
def Json.optionalText (s : Option Text) : Json := (s.map Json.str).getD .null

def ReasonBucket.toJson (b : ReasonBucket) : Json :=
  .obj [(b.reason, .obj [
    ("Num", .count b.count),
    ("InSrcNum", .count b.inSourceCount),
    ("TotalIndirect", .count b.indirectCount),
    ("InSrcIndirect", .count b.inSourceIndirectCount),
    ("InSrcScore", .score b.inSourceScore)])]

namespace Summary

/-- The bucket of a reason. -/
def bucket? (s : Summary) (reason : Text) : Option ReasonBucket :=
  s.buckets.find? (·.reason == reason)

def toJson (s : Summary) : Json :=
  .obj [("WildPtrInfo", .obj [
    ("InDirectWildPtrNum", .count s.indirectCount),
    ("InSrcInDirectWildPtrNum", .count s.inSourceIndirectCount),
    ("DirectWildPtrs", .obj [
      ("Num", .count s.rootCount),
      ("InSrcNum", .count s.inSourceRootCount),
      ("Reasons", .list (s.buckets.map ReasonBucket.toJson))])])]

/-- What there is to say about a finished summary. -/
def log (s : Summary) : List LogLine :=
  [⟨.info, .summary, ("Summarised " ++ natText s.rootCount ++ " roots into " ++ natText s.buckets.length ++ " reason buckets")⟩]

end Summary

/-- Puts a reason at its place in an ascending list, unless it is there. -/
def insertReason (r : Text) : List Text → List Text
  | [] => [r]
  | s :: rest =>
    if r < s then r :: s :: rest
    else if r = s then s :: rest
    else s :: insertReason r rest

theorem mem_insertReason {r x : Text} {l : List Text} : x ∈ insertReason r l ↔ x = r ∨ x ∈ l := by
  induction l with
  | nil => simp [insertReason]
  | cons s rest ih => grind [insertReason]

namespace Index

/-- The reasons of the roots, ascending and each of them once. -/
def reasons (ix : Index) : List Text :=
  (ix.diagnostics.entries.map fun e => e.2.reason).foldr insertReason []

/-- The roots with a given reason. -/
def rootsFor (ix : Index) (reason : Text) : AtomSet :=
  ix.roots.filter fun a => (ix.diagnostics.find? a).any (·.reason == reason)

/-- The numbers of the roots with a given reason. -/
def bucketFor (ix : Index) (reason : Text) : ReasonBucket :=
  let members := ix.rootsFor reason
  let affected := (ix.jointEffects members.toList).inter ix.indirect
  let affectedInSource := affected.inter ix.indirectInSource
  { reason := reason
    count := members.size
    inSourceCount := (members.inter ix.rootsInSource).size
    indirectCount := affected.size
    inSourceIndirectCount := affectedInSource.size
    inSourceScore := ix.atomScore affectedInSource.toList }

/-- The summary of an index. -/
def summary (ix : Index) : Summary where
  indirectCount := ix.indirect.size
  inSourceIndirectCount := ix.indirectInSource.size
  rootCount := ix.roots.size
  inSourceRootCount := ix.rootsInSource.size
  buckets := ix.reasons.map ix.bucketFor

end Index

end Blame
