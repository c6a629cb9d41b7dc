import Blame.Number.Rounding
import Mathlib.Algebra.Order.Field.Power
import Mathlib.Data.Rat.Floor
import Mathlib.Tactic.FieldSimp
import Mathlib.Tactic.Linarith
import Mathlib.Tactic.Positivity

/-!
# Rounding keeps the order

Rounding to the multiples of one power of two keeps the order. Two positive numbers may be rounded to
multiples of different powers, but then a power of two lies between them that both roundings leave
alone (`round53_mono`).
-/

namespace Blame.Number

theorem pow2_eq (e : Int) : pow2 e = (2 : ℚ) ^ e := by
  rw [pow2]
  split
  · rename_i h
    obtain ⟨n, rfl⟩ := Int.eq_ofNat_of_zero_le h
    simp
  · rename_i h
    obtain ⟨n, hn⟩ := Int.eq_ofNat_of_zero_le (Int.neg_nonneg.2 (Int.le_of_not_le h))
    obtain rfl : e = -(n : Int) := by omega
    simp

theorem pow2_pos (e : Int) : 0 < pow2 e := by
  rw [pow2_eq]
  positivity

theorem two_zpow_log2 {n : ℕ} (hn : n ≠ 0) : (2 : ℚ) ^ (n.log2 : ℤ) ≤ n ∧ (n : ℚ) < 2 ^ ((n.log2 : ℤ) + 1) := by
  have hle := Nat.log2_self_le hn
  have hlt := Nat.lt_log2_self (n := n)
  constructor
  · exact_mod_cast hle
  · exact_mod_cast hlt

theorem floorLog2_spec {q : ℚ} (hq : 0 < q) :
    pow2 (floorLog2 q) ≤ q ∧ q < pow2 (floorLog2 q + 1) := by
  have hnum : q.num.natAbs ≠ 0 := by simpa using (Rat.num_pos.2 hq).ne'
  have hden : (0 : ℚ) < q.den := by exact_mod_cast q.den_pos
  have hmul : q * q.den = q.num.natAbs := by
    have habs : (q.num.natAbs : ℤ) = q.num := Int.natAbs_of_nonneg (Rat.num_nonneg.2 hq.le)
    rw [Rat.mul_den_eq_num, ← habs]
    rfl
  obtain ⟨hn, hn'⟩ := two_zpow_log2 hnum
  obtain ⟨hd, hd'⟩ := two_zpow_log2 q.den_pos.ne'
  rw [floorLog2]
  generalize (q.num.natAbs.log2 : ℤ) = a at *
  generalize (q.den.log2 : ℤ) = b at *
  -- The difference of the two logarithms is the exponent, or one more than it.
  have hlow : (2 : ℚ) ^ (a - b - 1) < q := by
    refine lt_of_mul_lt_mul_right ?_ hden.le
    calc (2 : ℚ) ^ (a - b - 1) * q.den < 2 ^ (a - b - 1) * 2 ^ (b + 1) :=
          mul_lt_mul_of_pos_left hd' (by positivity)
      _ = 2 ^ a := by
          rw [← zpow_add₀ two_ne_zero]
          congr 1
          omega
      _ ≤ q * q.den := hmul ▸ hn
  have hhigh : q < (2 : ℚ) ^ (a - b + 1) := by
    refine lt_of_mul_lt_mul_right ?_ (zpow_nonneg zero_le_two b)
    calc q * (2 : ℚ) ^ b ≤ q * q.den := mul_le_mul_of_nonneg_left hd hq.le
      _ < 2 ^ (a + 1) := hmul ▸ hn'
      _ = 2 ^ (a - b + 1) * 2 ^ b := by
          rw [← zpow_add₀ two_ne_zero]
          congr 1
          omega
  split
  · rename_i h
    exact ⟨h, by rwa [pow2_eq]⟩
  · rename_i h
    refine ⟨?_, ?_⟩
    · rw [pow2_eq]
      exact hlow.le
    · rw [sub_add_cancel]
      exact not_le.1 h

/-! ### Integers -/

theorem floor_le_roundEven (q : ℚ) : q.floor ≤ roundEven q := by
  rw [roundEven]
  split_ifs <;> omega

theorem roundEven_le_floor (q : ℚ) : roundEven q ≤ q.floor + 1 := by
  rw [roundEven]
  split_ifs <;> omega

theorem roundEven_mono {p q : ℚ} (h : p ≤ q) : roundEven p ≤ roundEven q := by
  have hfloor : p.floor ≤ q.floor := Rat.floor_monotone h
  rcases hfloor.lt_or_eq with hlt | heq
  · calc roundEven p ≤ p.floor + 1 := roundEven_le_floor p
      _ ≤ q.floor := hlt
      _ ≤ roundEven q := floor_le_roundEven q
  · have hpart : p - (p.floor : ℚ) ≤ q - (q.floor : ℚ) := by
      rw [heq]
      linarith
    rw [roundEven, roundEven, ← heq]
    rw [← heq] at hpart
    split_ifs <;> first | omega | linarith

theorem roundEven_intCast (n : ℤ) : roundEven (n : ℚ) = n := by
  rw [roundEven, Rat.floor_intCast]
  simp

/-! ### Multiples of a power of two -/

theorem roundTo_mono (e : ℤ) {p q : ℚ} (h : p ≤ q) : roundTo e p ≤ roundTo e q := by
  have hdiv : p / pow2 e ≤ q / pow2 e := div_le_div_of_nonneg_right h (pow2_pos e).le
  have hcast : (roundEven (p / pow2 e) : ℚ) ≤ roundEven (q / pow2 e) := by
    exact_mod_cast roundEven_mono hdiv
  exact mul_le_mul_of_nonneg_right hcast (pow2_pos e).le

theorem roundTo_multiple (e n : ℤ) : roundTo e (n * pow2 e) = n * pow2 e := by
  rw [roundTo, mul_div_cancel_right₀ _ (pow2_pos e).ne', roundEven_intCast]

/-- A power of two is a multiple of every smaller one. -/
theorem roundTo_pow2 {e k : ℤ} (h : e ≤ k) : roundTo e (pow2 k) = pow2 k := by
  obtain ⟨n, hn⟩ := Int.eq_ofNat_of_zero_le (Int.sub_nonneg.2 h)
  have hk : pow2 k = ((2 ^ n : ℤ) : ℚ) * pow2 e := by
    obtain rfl : k = n + e := by omega
    rw [pow2_eq, pow2_eq, zpow_add₀ two_ne_zero]
    simp
  rw [hk]
  exact roundTo_multiple e (2 ^ n)

/-! ### 53 bits -/

theorem round53_of_pos {q : ℚ} (hq : 0 < q) : round53 q = roundTo (floorLog2 q - 52) q := by
  rw [round53, if_neg hq.ne', lastBit, magnitude, if_neg hq.not_gt]

theorem round53_nonneg {q : ℚ} (hq : 0 ≤ q) : 0 ≤ round53 q := by
  rcases hq.eq_or_lt with rfl | hpos
  · rfl
  · rw [round53_of_pos hpos]
    calc (0 : ℚ) = roundTo (floorLog2 q - 52) ((0 : ℤ) * pow2 (floorLog2 q - 52)) := by
          rw [roundTo_multiple, Int.cast_zero, zero_mul]
      _ ≤ roundTo (floorLog2 q - 52) q := roundTo_mono _ (by simpa using hq)

theorem round53_mono {p q : ℚ} (hp : 0 ≤ p) (h : p ≤ q) : round53 p ≤ round53 q := by
  rcases hp.eq_or_lt with rfl | hpos
  · exact round53_nonneg h
  have hqpos : 0 < q := hpos.trans_le h
  rw [round53_of_pos hpos, round53_of_pos hqpos]
  obtain ⟨hp₁, hp₂⟩ := floorLog2_spec hpos
  obtain ⟨hq₁, hq₂⟩ := floorLog2_spec hqpos
  rcases lt_trichotomy (floorLog2 p) (floorLog2 q) with hlt | heq | hgt
  -- a power of two lies between the two numbers
  · calc roundTo (floorLog2 p - 52) p ≤ roundTo (floorLog2 p - 52) (pow2 (floorLog2 q)) := by
          refine roundTo_mono _ (hp₂.le.trans ?_)
          rw [pow2_eq, pow2_eq]
          exact zpow_le_zpow_right₀ one_le_two hlt
      _ = pow2 (floorLog2 q) := roundTo_pow2 (by omega)
      _ = roundTo (floorLog2 q - 52) (pow2 (floorLog2 q)) := (roundTo_pow2 (by omega)).symm
      _ ≤ roundTo (floorLog2 q - 52) q := roundTo_mono _ hq₁
  · rw [heq]
    exact roundTo_mono _ h
  · have hle : pow2 (floorLog2 q + 1) ≤ pow2 (floorLog2 p) := by
      rw [pow2_eq, pow2_eq]
      exact zpow_le_zpow_right₀ one_le_two hgt
    exact absurd (hq₂.trans_le (hle.trans (hp₁.trans h))) (lt_irrefl q)

end Blame.Number
