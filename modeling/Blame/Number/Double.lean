import Blame.Number.Rounding

/-!
# Double precision numbers as values

A finite double is kept as the rational it stands for, so that equality, sums and printed digits are
all facts of exact arithmetic. Negative zero is a value of its own, for it prints differently.
-/

namespace Blame.Number

/-- A double; `finite` holds every finite one but negative zero. -/
inductive Double where
  | finite (value : Rat)
  | negZero
  | infinite (negative : Bool)
  | nan
  deriving DecidableEq, Repr, Inhabited

namespace Double

/-- The rational nearest to `q` among those a double can hold, without a limit on its size. -/
def nearestFinite (q : Rat) : Rat :=
  if q = 0 then 0 else roundTo (max (lastBit q) (-1074)) q

/-- Zero with the given sign. -/
def zero (negative : Bool) : Double := if negative then negZero else finite 0

/-- The double nearest to `q`; a result of zero takes the given sign. -/
def ofRat (negative : Bool) (q : Rat) : Double :=
  let r := nearestFinite q
  if r = 0 then zero negative
  else if pow2 1024 ≤ magnitude r then infinite (decide (r < 0))
  else finite r

/-- The double nearest to `± digits · 10 ^ exponent`. A size far outside the range is decided by counting
digits, so that no large power is formed. -/
def ofDecimal (negative : Bool) (digits : Nat) (exponent : Int) : Double :=
  let places : Int := ((Nat.toDigits 10 digits).length : Int)
  if digits = 0 then zero negative
  else if 400 < places + exponent then infinite negative
  else if places + exponent < -400 then zero negative
  else
    let size : Rat :=
      if 0 ≤ exponent then ((digits * Nat.pow 10 exponent.toNat : Nat) : Rat)
      else (digits : Rat) / (Nat.pow 10 (-exponent).toNat : Rat)
    ofRat negative (if negative then -size else size)

/-- The rational a double stands for; infinities and nan have none. -/
def toRat? : Double → Option Rat
  | finite q => some q
  | negZero => some 0
  | _ => none

def neg : Double → Double
  | finite q => if q = 0 then negZero else finite (-q)
  | negZero => finite 0
  | infinite s => infinite (!s)
  | nan => nan

/-- The sum rounded once. Two negative zeros give a negative zero, any other sum of zero is positive. -/
def add : Double → Double → Double
  | nan, _ => nan
  | _, nan => nan
  | infinite s, infinite t => if s = t then infinite s else nan
  | infinite s, _ => infinite s
  | _, infinite t => infinite t
  | negZero, negZero => negZero
  | negZero, finite q => finite q
  | finite p, negZero => finite p
  | finite p, finite q => ofRat false (p + q)

/-- The difference rounded once. -/
def sub (x y : Double) : Double := add x (neg y)

instance : Add Double := ⟨add⟩
instance : Sub Double := ⟨sub⟩
instance : Zero Double := ⟨finite 0⟩

/-- Only the two zeros count as false. -/
def isZero : Double → Bool
  | finite q => q = 0
  | negZero => true
  | _ => false

end Double

end Blame.Number
