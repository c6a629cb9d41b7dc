import Blame.Number.Rounding

/-!
# Shortest digits

Among the decimals that round to a given double, those with the fewest digits are shortest; of several
equally short ones the nearest is taken, and of two equally near the even one. The search goes through
the grids of one, two, up to seventeen digits and looks at the two neighbours of the value on each.
-/

namespace Blame.Number

/-- The decimal `digits · 10 ^ exponent`. -/
structure Decimal where
  digits : Nat
  exponent : Int
  deriving DecidableEq, Repr

/-- Ten to an integer power. -/
def pow10 (e : Int) : Rat :=
  if 0 ≤ e then (Nat.pow 10 e.toNat : Rat) else 1 / (Nat.pow 10 (-e).toNat : Rat)

/-- The value of a decimal. -/
def Decimal.value (d : Decimal) : Rat := (d.digits : Rat) * pow10 d.exponent

/-- The reals that round to one double: the bounds, and whether they belong to it. -/
structure RoundingRange where
  low : Rat
  high : Rat
  closed : Bool

/-- Whether the range holds `x`. -/
def RoundingRange.holds (r : RoundingRange) (x : Rat) : Bool :=
  if r.closed then r.low ≤ x && x ≤ r.high else r.low < x && x < r.high

/-- The reals that round to the positive double `q`. Below a power of two the gap is half as wide. -/
def roundingRange (q : Rat) : RoundingRange :=
  let e := max (lastBit q) (-1074)
  let m := (q / pow2 e).floor
  let below : Int := if m = Int.pow 2 52 ∧ -1074 < e then e - 1 else e
  { low := q - pow2 (below - 1), high := q + pow2 (e - 1), closed := m % 2 = 0 }

/-- The exponent `e` with `10 ^ (e - 1) ≤ q < 10 ^ e`, for a positive `q`, found from a first guess that
is at most one too small. -/
def decimalPlaces (q : Rat) : Int :=
  let guess : Int := (floorLog2 q * 30103).fdiv 100000
  if q < pow10 guess then guess
  else if q < pow10 (guess + 1) then guess + 1 else guess + 2

/-- Of two neighbours of `q` the nearer one; halfway between them the one with an even last digit. -/
def nearer (q : Rat) (lower upper : Decimal) : Decimal :=
  let below := q - lower.value
  let above := upper.value - q
  if below < above then lower
  else if above < below then upper
  else if lower.digits % 2 = 0 then lower else upper

/-- The neighbour of `q` on the grid of multiples of `10 ^ e` that lies in the range, the nearer of two. -/
def onGrid (r : RoundingRange) (q : Rat) (e : Int) : Option Decimal :=
  let step := pow10 e
  let f := (q / step).floor.toNat
  let lower : Decimal := ⟨f, e⟩
  let upper : Decimal := ⟨f + 1, e⟩
  match r.holds lower.value, r.holds upper.value with
  | true, true => some (nearer q lower upper)
  | true, false => some lower
  | false, true => some upper
  | false, false => none

/-- Tries the grids of `n`, `n + 1`, … digits, `left` of them, and falls back on the last. -/
def searchGrids (r : RoundingRange) (q : Rat) (places : Int) : Nat → Nat → Decimal
  | n, 0 => ⟨(roundEven (q / pow10 (places - (n : Int)))).toNat, places - (n : Int)⟩
  | n, left + 1 =>
    match onGrid r q (places - (n : Int)) with
    | some d => d
    | none => searchGrids r q places (n + 1) left

/-- Moves the zeros at the end of the digits into the exponent; `fuel` bounds their number. -/
def Decimal.trim : Nat → Decimal → Decimal
  | 0, d => d
  | fuel + 1, d =>
    if d.digits ≠ 0 ∧ d.digits % 10 = 0 then Decimal.trim fuel ⟨d.digits / 10, d.exponent + 1⟩ else d

/-- The shortest decimal that rounds to the positive double `q`. -/
def shortest (q : Rat) : Decimal :=
  (searchGrids (roundingRange q) q (decimalPlaces q) 1 17).trim 20

end Blame.Number
