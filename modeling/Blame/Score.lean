import Blame.Index.Basic
import Blame.Number.Rounding

/-!
# Scores

An atom that `k` roots explain gives each of them a credit of `1 / k`, so that it gives one in total.
Atoms that nothing explains give nothing. Reports use doubles: each credit is rounded, and the exact sum
of the credits is rounded once. With the identity in place of rounding the same definition is the exact
score.
-/

namespace Blame

open Number

/-- The credit an atom with `k` causes gives to each of them. -/
def credit (round : Rat → Rat) (k : Nat) : Rat := if k = 0 then 0 else round (1 / (k : Rat))

/-- The sum of the credits for a list of numbers of causes. -/
def creditSum (round : Rat → Rat) (causeCounts : List Nat) : Rat :=
  round (causeCounts.foldr (fun k total => credit round k + total) 0)

namespace Index

/-- The score of a list of atoms; an atom counts as often as it is listed. -/
def atomScoreWith (round : Rat → Rat) (ix : Index) (as : List Atom) : Rat :=
  creditSum round (as.map ix.causeCount)

/-- The score of a list of pointer variables. -/
def pointerScoreWith (round : Rat → Rat) (ix : Index) (ps : List PointerId) : Rat :=
  creditSum round (ps.map ix.pointerCauseCount)

/-- The score of a list of atoms in doubles. -/
def atomScore (ix : Index) (as : List Atom) : Rat := ix.atomScoreWith round53 as

/-- The score of a list of pointer variables in doubles. -/
def pointerScore (ix : Index) (ps : List PointerId) : Rat := ix.pointerScoreWith round53 ps

end Index

end Blame
