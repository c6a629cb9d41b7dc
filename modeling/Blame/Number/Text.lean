import Blame.Number.Double
import Blame.Number.Shortest
import Blame.Text.Basic

/-!
# Numbers as text

Doubles are written with their shortest digits, positionally while the decimal exponent lies between
`-4` and `15`; scores in tables have two places, rounded from the exact value.
-/

namespace Blame.Number

/-- The decimal digits of a natural number. -/
def natDigits (n : Nat) : List CodePoint := (Nat.toDigits 10 n).map .char

/-- A natural number in full. -/
def natText (n : Nat) : Text := Text.ofList (natDigits n)

/-- An integer in full. -/
def intChars (n : Int) : List CodePoint :=
  if n < 0 then .char '-' :: natDigits n.natAbs else natDigits n.natAbs

/-- An integer in full. -/
def intText (n : Int) : Text := Text.ofList (intChars n)

theorem natDigits_ne_nil (n : Nat) : natDigits n ≠ [] := mt List.map_eq_nil_iff.1 Nat.toDigits_ne_nil

theorem natDigits_inj {m n : Nat} : natDigits m = natDigits n ↔ m = n := by
  refine ⟨fun h => ?_, congrArg natDigits⟩
  rw [natDigits, natDigits, List.map_inj_right fun _ _ h => CodePoint.char.inj h] at h
  rw [← Nat.ofDigitChars_ten_toDigits (n := m), ← Nat.ofDigitChars_ten_toDigits (n := n)]
  exact congrArg (Nat.ofDigitChars 10 · 0) h

theorem isDigit_of_mem_natDigits {c : CodePoint} {n : Nat} (h : c ∈ natDigits n) : c.isDigit = true := by
  obtain ⟨d, hd, rfl⟩ := List.mem_map.1 h
  exact Nat.isDigit_of_mem_toDigits (by decide) (by decide) hd

theorem notMem_natDigits {c : CodePoint} (hc : c.isDigit = false) (n : Nat) : c ∉ natDigits n := fun h =>
  Bool.false_ne_true (hc.symm.trans (isDigit_of_mem_natDigits h))

/-- A sign is no digit, so it is read off the first character. -/
theorem intChars_inj {m n : Int} : intChars m = intChars n ↔ m = n := by
  refine ⟨fun h => ?_, congrArg intChars⟩
  unfold intChars at h
  split at h <;> split at h
  · rw [List.cons.injEq, natDigits_inj] at h
    omega
  · exact absurd (h ▸ List.mem_cons_self) (notMem_natDigits (by decide) n.natAbs)
  · exact absurd (h ▸ List.mem_cons_self) (notMem_natDigits (by decide) m.natAbs)
  · rw [natDigits_inj] at h
    omega

theorem notMem_intChars {c : CodePoint} (hc : c.isDigit = false) (hsign : c ≠ .char '-') (n : Int) : c ∉ intChars n := by
  unfold intChars
  split
  · exact List.not_mem_cons_of_ne_of_not_mem hsign (notMem_natDigits hc _)
  · exact notMem_natDigits hc _

/-- At least `width` digits, filled up with zeros on the left. -/
def zeroFilled (width : Nat) (digits : List CodePoint) : List CodePoint :=
  List.replicate (width - digits.length) (.char '0') ++ digits

/-- How doubles are written: the decimal exponents written positionally, and the least number of digits
of a written exponent. -/
structure FloatFormat where
  leastPositional : Int
  mostPositional : Int
  exponentDigits : Nat

/-- Positional from `0.0001` up to below `10 ^ 16`; an exponent has a sign and at least two digits. -/
def standardFormat : FloatFormat := ⟨-4, 15, 2⟩

/-- A positive decimal in the given format; `exponent` is that of its first digit. -/
def FloatFormat.write (f : FloatFormat) (d : Decimal) : List CodePoint :=
  let ds := natDigits d.digits
  let exponent : Int := d.exponent + (ds.length : Int) - 1
  if f.leastPositional ≤ exponent ∧ exponent ≤ f.mostPositional then
    if exponent < 0 then
      .char '0' :: .char '.' :: (List.replicate (-exponent - 1).toNat (.char '0') ++ ds)
    else
      let whole := exponent.toNat + 1
      let padded := ds ++ List.replicate (whole - ds.length) (.char '0')
      let rest := padded.drop whole
      padded.take whole ++ .char '.' :: (if rest.isEmpty then [.char '0'] else rest)
  else
    let tail := ds.drop 1
    let mantissa := ds.take 1 ++ (if tail.isEmpty then [] else .char '.' :: tail)
    let sign := if exponent < 0 then .char '-' else .char '+'
    mantissa ++ .char 'e' :: sign :: zeroFilled f.exponentDigits (natDigits exponent.natAbs)

/-- A finite double other than negative zero, in shortest digits. -/
def rationalChars (q : Rat) : List CodePoint :=
  if q = 0 then [.char '0', .char '.', .char '0']
  else if q < 0 then .char '-' :: standardFormat.write (shortest (-q))
  else standardFormat.write (shortest q)

/-- A double in shortest digits, as JSON documents and reports show it. -/
def rationalText (q : Rat) : Text := Text.ofList (rationalChars q)

/-- A double in shortest digits, the exceptional ones spelled `inf`, `-inf` and `nan`. -/
def Double.text : Double → Text
  | .finite q => rationalText q
  | .negZero => "-0.0"
  | .infinite false => "inf"
  | .infinite true => "-inf"
  | .nan => "nan"

/-- A rational with a fixed number of places, rounded from its exact value with a half going to even. -/
def fixedText (places : Nat) (q : Rat) : Text :=
  let scaled := (roundEven (magnitude q * (Nat.pow 10 places : Rat))).toNat
  let ds := zeroFilled (places + 1) (natDigits scaled)
  let whole := ds.take (ds.length - places)
  let rest := ds.drop (ds.length - places)
  let body := if places = 0 then whole else whole ++ .char '.' :: rest
  Text.ofList (if q < 0 then .char '-' :: body else body)

end Blame.Number
