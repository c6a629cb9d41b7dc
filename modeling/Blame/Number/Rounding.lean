/-!
# Rounding to 53 significant bits

A double is treated as the rational it stands for. `round53` sends a rational to the nearest one with
53 significant bits, a tie going to the even neighbour; the size of the exponent is not limited here.
-/

namespace Blame.Number

-- Powers are spelled out: `^` would mean another operation under an import that brings algebra.
/-- Two to an integer power. -/
def pow2 (e : Int) : Rat :=
  if 0 ≤ e then (Nat.pow 2 e.toNat : Rat) else 1 / (Nat.pow 2 (-e).toNat : Rat)

/-- The largest `e` with `2 ^ e ≤ q`, for a positive `q`. -/
def floorLog2 (q : Rat) : Int :=
  let e : Int := (q.num.natAbs.log2 : Int) - (q.den.log2 : Int)
  if pow2 e ≤ q then e else e - 1

/-- The nearest integer; a half goes to the even neighbour. -/
def roundEven (q : Rat) : Int :=
  let f := q.floor
  let r := q - (f : Rat)
  if r < 1 / 2 then f
  else if 1 / 2 < r then f + 1
  else if f % 2 = 0 then f else f + 1

/-- The nearest multiple of `2 ^ e`; a half goes to the even multiple. -/
def roundTo (e : Int) (q : Rat) : Rat :=
  (roundEven (q / pow2 e) : Rat) * pow2 e

/-- The absolute value. -/
def magnitude (q : Rat) : Rat := if q < 0 then -q else q

/-- The exponent of the last of the 53 bits of `q`. -/
def lastBit (q : Rat) : Int := floorLog2 (magnitude q) - 52

/-- The nearest rational with 53 significant bits; a half goes to the even neighbour. -/
def round53 (q : Rat) : Rat :=
  if q = 0 then 0 else roundTo (lastBit q) q

end Blame.Number
