import Blame.Proofs.Rounding
import Mathlib.Algebra.BigOperators.Ring.Finset
import Mathlib.Algebra.Order.BigOperators.Group.Finset
import Mathlib.Algebra.Order.Ring.Abs

/-!
# How far rounding moves a number

Rounding to 53 bits moves a number by half a unit of its last bit at most, and so by one part in `2 ^ 53`
(`abs_round53_sub_le`). A number that has only 53 bits stays where it is (`round53_mul_pow2`). To find what
a number is rounded to, it is enough to know the power of two below it (`round53_of_binade`). Where sums of
rounded numbers are rounded again the errors multiply (`Drift`); after two roundings a third one still comes
within two units of the last bit (`abs_round53_sub_le_of_drift`).
-/

namespace Blame.Number

/-! ### Integers -/

theorem abs_roundEven_sub_le (q : ℚ) : |(roundEven q : ℚ) - q| ≤ 1 / 2 := by
  have hlow : (q.floor : ℚ) ≤ q := Rat.floor_le q
  have hhigh : q < q.floor + 1 := by exact_mod_cast Rat.lt_floor_add_one q
  rw [roundEven, abs_le]
  split_ifs <;> push_cast <;> constructor <;> linarith

/-- An integer nearer than a half is the one that is rounded to. -/
theorem roundEven_eq_of_abs_lt {q : ℚ} {n : ℤ} (h : |q - n| < 1 / 2) : roundEven q = n := by
  have hnear : |((roundEven q - n : ℤ) : ℚ)| < 1 := by
    calc |((roundEven q - n : ℤ) : ℚ)| = |((roundEven q : ℚ) - q) + (q - n)| := by
          push_cast
          congr 1
          ring
      _ ≤ |(roundEven q : ℚ) - q| + |q - n| := abs_add_le _ _
      _ < 1 / 2 + 1 / 2 := add_lt_add_of_le_of_lt (abs_roundEven_sub_le q) h
      _ = 1 := by norm_num
  have hzero : |roundEven q - n| < 1 := by exact_mod_cast hnear
  exact sub_eq_zero.1 (Int.abs_lt_one_iff.1 hzero)

/-- An even integer wins at a half as well. -/
theorem roundEven_eq_of_even {q : ℚ} {n : ℤ} (hn : n % 2 = 0) (h : |q - n| ≤ 1 / 2) :
    roundEven q = n := by
  rcases h.lt_or_eq with hlt | heq
  · exact roundEven_eq_of_abs_lt hlt
  rcases eq_or_eq_neg_of_abs_eq heq with habove | hbelow
  · have hfloor : ⌊q⌋ = n := Int.floor_eq_iff.2 ⟨by linarith, by linarith⟩
    rw [roundEven, show q.floor = n from hfloor, habove]
    simp [hn]
  · have hfloor : ⌊q⌋ = n - 1 := Int.floor_eq_iff.2 ⟨by push_cast; linarith, by push_cast; linarith⟩
    have hpart : q - ((n - 1 : ℤ) : ℚ) = 1 / 2 := by
      push_cast
      linarith
    have hodd : ¬ (n - 1) % 2 = 0 := by omega
    rw [roundEven, show q.floor = n - 1 from hfloor, hpart]
    simp [hodd]

/-! ### Multiples of a power of two -/

theorem abs_roundTo_sub_le (e : ℤ) (q : ℚ) : |roundTo e q - q| ≤ pow2 e / 2 := by
  have hscale : roundTo e q - q = ((roundEven (q / pow2 e) : ℚ) - q / pow2 e) * pow2 e := by
    rw [roundTo, sub_mul, div_mul_cancel₀ _ (pow2_pos e).ne']
  calc |roundTo e q - q| = |(roundEven (q / pow2 e) : ℚ) - q / pow2 e| * pow2 e := by
        rw [hscale, abs_mul, abs_of_pos (pow2_pos e)]
    _ ≤ 1 / 2 * pow2 e := mul_le_mul_of_nonneg_right (abs_roundEven_sub_le _) (pow2_pos e).le
    _ = pow2 e / 2 := by ring

theorem abs_sub_mul_pow2 {e n : ℤ} {q : ℚ} : |q - n * pow2 e| / pow2 e = |q / pow2 e - n| := by
  rw [← abs_of_pos (pow2_pos e), ← abs_div, abs_of_pos (pow2_pos e), sub_div,
    mul_div_cancel_right₀ _ (pow2_pos e).ne']

theorem pow2_add (d e : ℤ) : pow2 (d + e) = pow2 d * pow2 e := by
  rw [pow2_eq, pow2_eq, pow2_eq, zpow_add₀ two_ne_zero]

theorem natCast_pow_mul_pow2 (n : ℕ) (e : ℤ) : ((2 ^ n : ℕ) : ℚ) * pow2 e = pow2 (n + e) := by
  rw [pow2_add, pow2_eq n, zpow_natCast]
  push_cast
  rfl

theorem one_div_two_pow (n : ℕ) : 1 / ((2 ^ n : ℕ) : ℚ) = pow2 (-n) := by
  rw [pow2_eq, zpow_neg, zpow_natCast, one_div]
  push_cast
  rfl

theorem pow2_lt_pow2 {d e : ℤ} : pow2 d < pow2 e ↔ d < e := by
  rw [pow2_eq, pow2_eq, zpow_lt_zpow_iff_right₀ one_lt_two]

theorem roundTo_of_near {e n : ℤ} {q : ℚ} (h : |q - n * pow2 e| < pow2 e / 2) :
    roundTo e q = n * pow2 e := by
  have hdiv : |q / pow2 e - n| < 1 / 2 := by
    rw [← abs_sub_mul_pow2, div_lt_iff₀ (pow2_pos e)]
    linarith
  rw [roundTo, roundEven_eq_of_abs_lt hdiv]

theorem roundTo_of_even {e n : ℤ} {q : ℚ} (hn : n % 2 = 0) (h : |q - n * pow2 e| ≤ pow2 e / 2) :
    roundTo e q = n * pow2 e := by
  have hdiv : |q / pow2 e - n| ≤ 1 / 2 := by
    rw [← abs_sub_mul_pow2, div_le_iff₀ (pow2_pos e)]
    linarith
  rw [roundTo, roundEven_eq_of_even hn hdiv]

/-! ### 53 bits -/

/-- Only one exponent has the number between its power and the next. -/
theorem floorLog2_eq {q : ℚ} {e : ℤ} (hlow : pow2 e ≤ q) (hhigh : q < pow2 (e + 1)) : floorLog2 q = e := by
  obtain ⟨hlow', hhigh'⟩ := floorLog2_spec ((pow2_pos e).trans_le hlow)
  have hle : floorLog2 q < e + 1 := pow2_lt_pow2.1 (hlow'.trans_lt hhigh)
  have hge : e < floorLog2 q + 1 := pow2_lt_pow2.1 (hlow.trans_lt hhigh')
  omega

theorem round53_of_binade {q : ℚ} {e : ℤ} (hlow : pow2 e ≤ q) (hhigh : q < pow2 (e + 1)) :
    round53 q = roundTo (e - 52) q := by
  rw [round53_of_pos ((pow2_pos e).trans_le hlow), floorLog2_eq hlow hhigh]

theorem abs_round53_sub_le {q : ℚ} (hq : 0 ≤ q) : |round53 q - q| ≤ q * pow2 (-53) := by
  rcases hq.eq_or_lt with rfl | hpos
  · rw [round53, if_pos rfl, sub_zero, abs_zero, zero_mul]
  calc |round53 q - q| = |roundTo (floorLog2 q - 52) q - q| := by rw [round53_of_pos hpos]
    _ ≤ pow2 (floorLog2 q - 52) / 2 := abs_roundTo_sub_le _ q
    _ = pow2 (floorLog2 q) * pow2 (-53) := by
        rw [div_eq_mul_inv, show (2 : ℚ)⁻¹ = pow2 (-1) by rw [pow2_eq]; rfl, ← pow2_add, ← pow2_add]
        congr 1
        omega
    _ ≤ q * pow2 (-53) := mul_le_mul_of_nonneg_right (floorLog2_spec hpos).1 (pow2_pos _).le

theorem round53_pow2 (e : ℤ) : round53 (pow2 e) = pow2 e := by
  rw [round53_of_binade le_rfl (pow2_lt_pow2.2 (lt_add_one e)), roundTo_pow2 (by omega)]

/-- A number of 53 bits, wherever they stand, is left alone. -/
theorem round53_mul_pow2 {m : ℕ} (hm : m ≤ 2 ^ 53) (e : ℤ) : round53 (m * pow2 e) = m * pow2 e := by
  rcases Nat.eq_zero_or_pos m with rfl | hpos
  · rw [Nat.cast_zero, zero_mul, round53, if_pos rfl]
  rcases hm.eq_or_lt with rfl | hlt
  · have hpow : ((2 ^ 53 : ℕ) : ℚ) * pow2 e = pow2 (53 + e) := by
      rw [pow2_add, pow2_eq 53]
      norm_cast
    rw [hpow, round53_pow2]
  have hq : 0 < (m : ℚ) * pow2 e := mul_pos (by exact_mod_cast hpos) (pow2_pos e)
  have hexp : floorLog2 (m * pow2 e) < 53 + e := by
    refine pow2_lt_pow2.1 ((floorLog2_spec hq).1.trans_lt ?_)
    rw [pow2_add, pow2_eq 53]
    exact mul_lt_mul_of_pos_right (by exact_mod_cast hlt) (pow2_pos e)
  -- The last bit stands no higher than `e`, so the number is a multiple of it.
  obtain ⟨n, hn⟩ := Int.eq_ofNat_of_zero_le (show 0 ≤ e - (floorLog2 (m * pow2 e) - 52) by omega)
  have hmultiple : (m : ℚ) * pow2 e = ((m * 2 ^ n : ℤ) : ℚ) * pow2 (floorLog2 (m * pow2 e) - 52) := by
    have he : e = n + (floorLog2 (m * pow2 e) - 52) := by omega
    generalize floorLog2 (m * pow2 e) - 52 = d at he ⊢
    rw [he, pow2_add, pow2_eq n]
    push_cast
    rw [zpow_natCast, mul_assoc]
  rw [round53_of_pos hq]
  calc roundTo (floorLog2 (m * pow2 e) - 52) (m * pow2 e)
      = roundTo (floorLog2 (m * pow2 e) - 52)
          (((m * 2 ^ n : ℤ) : ℚ) * pow2 (floorLog2 (m * pow2 e) - 52)) := congrArg _ hmultiple
    _ = m * pow2 e := by rw [roundTo_multiple, ← hmultiple]

theorem round53_natCast {n : ℕ} (h : n ≤ 2 ^ 53) : round53 n = n := by
  have hn := round53_mul_pow2 h 0
  rwa [show pow2 0 = 1 from rfl, mul_one] at hn

/-- A rounded number has 53 bits. -/
theorem round53_round53 {q : ℚ} (hq : 0 ≤ q) : round53 (round53 q) = round53 q := by
  rcases hq.eq_or_lt with rfl | hpos
  · rfl
  have hround := round53_of_pos hpos
  have hlt : q / pow2 (floorLog2 q - 52) ≤ ((2 ^ 53 : ℤ) : ℚ) := by
    rw [div_le_iff₀ (pow2_pos _)]
    calc q ≤ pow2 (floorLog2 q + 1) := (floorLog2_spec hpos).2.le
      _ = pow2 53 * pow2 (floorLog2 q - 52) := by
          rw [← pow2_add]
          congr 1
          omega
      _ = ((2 ^ 53 : ℤ) : ℚ) * pow2 (floorLog2 q - 52) := by
          rw [pow2_eq 53]
          norm_cast
  have hbits : roundEven (q / pow2 (floorLog2 q - 52)) ≤ 2 ^ 53 :=
    (roundEven_mono hlt).trans_eq (roundEven_intCast _)
  have hnonneg : 0 ≤ roundEven (q / pow2 (floorLog2 q - 52)) :=
    (roundEven_intCast 0).symm.le.trans
      (roundEven_mono (by rw [Int.cast_zero]; exact div_nonneg hq (pow2_pos _).le))
  obtain ⟨m, hm⟩ := Int.eq_ofNat_of_zero_le hnonneg
  rw [hround, roundTo, hm]
  exact round53_mul_pow2 (by exact_mod_cast hm ▸ hbits) _

/-! ### Rounding again and again -/

/-- What may have become of `x` by `n` roundings one after another, with exact sums in between. -/
structure Drift (n : ℕ) (x y : ℚ) : Prop where
  low : x * (1 - pow2 (-53)) ^ n ≤ y
  high : y ≤ x * (1 + pow2 (-53)) ^ n

theorem pow2_neg_53_lt_one : pow2 (-53) < 1 := pow2_lt_pow2.2 (by decide : (-53 : ℤ) < 0)

namespace Drift
variable {n : ℕ} {x y : ℚ}

theorem refl (x : ℚ) : Drift 0 x x := ⟨by simp, by simp⟩

theorem nonneg (h : Drift n x y) (hx : 0 ≤ x) : 0 ≤ y := by
  have hpow : 0 ≤ (1 - pow2 (-53)) ^ n := pow_nonneg (by linarith [pow2_neg_53_lt_one]) n
  exact (mul_nonneg hx hpow).trans h.low

theorem round (h : Drift n x y) (hx : 0 ≤ x) : Drift (n + 1) x (round53 y) := by
  obtain ⟨hlow, hhigh⟩ := abs_le.1 (abs_round53_sub_le (h.nonneg hx))
  have hu : 0 < pow2 (-53) := pow2_pos _
  have hu' := pow2_neg_53_lt_one
  constructor
  · calc x * (1 - pow2 (-53)) ^ (n + 1) = x * (1 - pow2 (-53)) ^ n * (1 - pow2 (-53)) := by ring
      _ ≤ y * (1 - pow2 (-53)) := mul_le_mul_of_nonneg_right h.low (by linarith)
      _ ≤ round53 y := by linarith
  · calc round53 y ≤ y * (1 + pow2 (-53)) := by linarith
      _ ≤ x * (1 + pow2 (-53)) ^ n * (1 + pow2 (-53)) := mul_le_mul_of_nonneg_right h.high (by linarith)
      _ = x * (1 + pow2 (-53)) ^ (n + 1) := by ring

theorem sum {ι : Type} {s : Finset ι} {f g : ι → ℚ} (h : ∀ i ∈ s, Drift n (f i) (g i)) :
    Drift n (∑ i ∈ s, f i) (∑ i ∈ s, g i) := by
  constructor <;> rw [Finset.sum_mul]
  · exact Finset.sum_le_sum fun i hi => (h i hi).low
  · exact Finset.sum_le_sum fun i hi => (h i hi).high

end Drift

/-- The first number of units that is none of 53 bits stands in the middle, and the even neighbour is below it. -/
theorem round53_two_pow_53_add_one (e : ℤ) : round53 ((2 ^ 53 + 1 : ℕ) * pow2 e) = 2 ^ 53 * pow2 e := by
  have hunit : 0 < pow2 e := pow2_pos e
  have hpow : pow2 (e + 53) = 2 ^ 53 * pow2 e := by
    rw [add_comm, pow2_add, pow2_eq 53]
    norm_cast
  have hnext : pow2 (e + 53 + 1) = 2 * (2 ^ 53 * pow2 e) := by
    rw [pow2_add, hpow, mul_comm]
    rfl
  have hlast : pow2 (e + 53 - 52) = 2 * pow2 e := by
    rw [show e + 53 - 52 = 1 + e by omega, pow2_add]
    rfl
  have hlow : pow2 (e + 53) ≤ ((2 ^ 53 + 1 : ℕ) : ℚ) * pow2 e := by
    rw [hpow]
    push_cast
    linarith
  have hhigh : ((2 ^ 53 + 1 : ℕ) : ℚ) * pow2 e < pow2 (e + 53 + 1) := by
    rw [hnext]
    push_cast
    linarith
  have hnear : |((2 ^ 53 + 1 : ℕ) : ℚ) * pow2 e - ((2 ^ 52 : ℤ) : ℚ) * pow2 (e + 53 - 52)| ≤
      pow2 (e + 53 - 52) / 2 := by
    rw [hlast, abs_le]
    push_cast
    constructor <;> linarith
  rw [round53_of_binade hlow hhigh, roundTo_of_even (by decide) hnear, hlast]
  push_cast
  ring

/-- The bound need not be a number of 53 bits itself if it is the first that is none. -/
theorem round53_le_of_le {x : ℚ} (hx : 0 ≤ x) {m : ℕ} (hm : m ≤ 2 ^ 53 + 1) {e : ℤ}
    (h : x ≤ m * pow2 e) : round53 x ≤ m * pow2 e := by
  have hmono := round53_mono hx h
  rcases Nat.lt_or_ge (2 ^ 53) m with hgt | hle
  · obtain rfl : m = 2 ^ 53 + 1 := by omega
    rw [round53_two_pow_53_add_one] at hmono
    have hunit := pow2_pos e
    push_cast
    linarith
  · rwa [round53_mul_pow2 hle] at hmono

/-- A positive number of 53 bits, with the last of them for unit. -/
theorem exists_eq_mul_lastBit {x : ℚ} (hx : 0 < x) (hbits : round53 x = x) :
    ∃ m : ℕ, 2 ^ 52 ≤ m ∧ m < 2 ^ 53 ∧ x = m * pow2 (lastBit x) := by
  have hlast : lastBit x = floorLog2 x - 52 := by rw [lastBit, magnitude, if_neg hx.not_gt]
  have hunit := pow2_pos (lastBit x)
  obtain ⟨hlow, hhigh⟩ := floorLog2_spec hx
  have hpow : pow2 (floorLog2 x) = 2 ^ 52 * pow2 (lastBit x) := by
    rw [show floorLog2 x = 52 + lastBit x by omega, pow2_add, pow2_eq 52]
    norm_cast
  have hnext : pow2 (floorLog2 x + 1) = 2 ^ 53 * pow2 (lastBit x) := by
    rw [show floorLog2 x + 1 = 53 + lastBit x by omega, pow2_add, pow2_eq 53]
    norm_cast
  have heq : x = (roundEven (x / pow2 (lastBit x)) : ℚ) * pow2 (lastBit x) := by
    conv_lhs => rw [← hbits, round53_of_pos hx, roundTo, ← hlast]
  have hge : (2 ^ 52 : ℚ) ≤ roundEven (x / pow2 (lastBit x)) := by
    refine le_of_mul_le_mul_right ?_ hunit
    rwa [← heq, ← hpow]
  have hlt : (roundEven (x / pow2 (lastBit x)) : ℚ) < 2 ^ 53 := by
    refine lt_of_mul_lt_mul_right ?_ hunit.le
    rwa [← heq, ← hnext]
  have hge' : 2 ^ 52 ≤ roundEven (x / pow2 (lastBit x)) := by exact_mod_cast hge
  obtain ⟨m, hm⟩ := Int.eq_ofNat_of_zero_le (le_trans (by decide) hge')
  rw [hm] at hge hlt heq
  exact ⟨m, by exact_mod_cast hge, by exact_mod_cast hlt, heq⟩

/-- Each rounding moves a number of fewer than `2 ^ 53` units by less than one of them. -/
theorem Drift.units {m : ℕ} (hm : m < 2 ^ 53) {e : ℤ} {y : ℚ} (h : Drift 2 (m * pow2 e) y) :
    (m - 2) * pow2 e ≤ y ∧ y ≤ (m + 2) * pow2 e := by
  have hu : 0 < pow2 (-53) := pow2_pos _
  have hm' : (m : ℚ) + 1 ≤ 2 ^ 53 := by exact_mod_cast hm
  have hone : (2 ^ 53 : ℚ) * pow2 (-53) = 1 := by
    rw [pow2_eq]
    norm_num
  have hnonneg : 0 ≤ (m : ℚ) * pow2 (-53) := by positivity
  have hstep : (m : ℚ) * pow2 (-53) ≤ 1 - pow2 (-53) := by nlinarith
  have hdown : (m - 2 : ℚ) ≤ m * (1 - pow2 (-53)) ^ 2 := by nlinarith
  have hup : (m : ℚ) * (1 + pow2 (-53)) ^ 2 ≤ m + 2 := by nlinarith
  constructor
  · calc (m - 2) * pow2 e ≤ m * (1 - pow2 (-53)) ^ 2 * pow2 e :=
          mul_le_mul_of_nonneg_right hdown (pow2_pos e).le
      _ = m * pow2 e * (1 - pow2 (-53)) ^ 2 := by ring
      _ ≤ y := h.low
  · calc y ≤ m * pow2 e * (1 + pow2 (-53)) ^ 2 := h.high
      _ = m * (1 + pow2 (-53)) ^ 2 * pow2 e := by ring
      _ ≤ (m + 2) * pow2 e := mul_le_mul_of_nonneg_right hup (pow2_pos e).le

/-- Two roundings and a third one move a number of 53 bits by two units of its last bit at most. -/
theorem abs_round53_sub_le_of_drift {x y : ℚ} (hx : 0 ≤ x) (hbits : round53 x = x) (h : Drift 2 x y) :
    |round53 y - x| ≤ 2 * pow2 (lastBit x) := by
  rcases hx.eq_or_lt with rfl | hpos
  · have hy : y = 0 := le_antisymm (by simpa using h.high) (by simpa using h.low)
    rw [hy, hbits, sub_zero, abs_zero]
    exact mul_nonneg zero_le_two (pow2_pos _).le
  obtain ⟨m, hge, hlt, heq⟩ := exists_eq_mul_lastBit hpos hbits
  have hunits : Drift 2 (m * pow2 (lastBit x)) y := heq ▸ h
  generalize lastBit x = e at heq hunits ⊢
  obtain ⟨hlow, hhigh⟩ := hunits.units hlt
  have hadd : ((m + 2 : ℕ) : ℚ) = m + 2 := Nat.cast_add m 2
  have hsub : ((m - 2 : ℕ) : ℚ) = m - 2 := Nat.cast_sub (by omega)
  rw [← hsub] at hlow
  rw [← hadd] at hhigh
  have hup : round53 y ≤ (m + 2 : ℕ) * pow2 e := round53_le_of_le (h.nonneg hx) (by omega) hhigh
  have hdown : (m - 2 : ℕ) * pow2 e ≤ round53 y := by
    rw [← round53_mul_pow2 (by omega : m - 2 ≤ 2 ^ 53)]
    exact round53_mono (mul_nonneg (Nat.cast_nonneg _) (pow2_pos e).le) hlow
  rw [hsub] at hdown
  rw [hadd] at hup
  rw [heq, abs_le]
  constructor <;> linarith

end Blame.Number
