import Blame.Proofs.Credit
import Blame.Proofs.RoundingError
import Mathlib.Data.Nat.Prime.Basic

/-!
# What the shares of one atom add up to in doubles

An atom with `k` causes gives each of them `1 / k`, rounded to 53 bits, and the `k` shares are added up exactly
and rounded once. The rounding of a share comes `k` times, which is less than the unit of the last bit below
one. So too much is always lost again in the last rounding, for above one the numbers lie twice as far apart;
too little may not be, and then the sum is the last number below one. Which of the two it is can be read off
a remainder (`FallsShort`). The first to fall short is `k = 49`.
-/

namespace Blame

open Number

/-- The value of the last of the 53 bits of `1 / k`, for a `k` that is no power of two. -/
def shareUnit (k : ℕ) : ℚ := pow2 (-(k.log2 + 53))

/-- How much `k` shares lose together if `1 / k` is rounded down, in units of the last bit. -/
def shareRest (k : ℕ) : ℕ := 2 ^ (k.log2 + 53) % k

/-- A share is rounded down, and `k` of them lose more than half of the step below one. -/
def FallsShort (k : ℕ) : Prop := 2 ^ k.log2 < 2 * shareRest k ∧ 2 * shareRest k < k

instance (k : ℕ) : Decidable (FallsShort k) := inferInstanceAs (Decidable (_ ∧ _))

namespace Number

/-! ### Near one -/

theorem pow2_zero : pow2 0 = 1 := rfl

theorem pow2_neg_52 : ((2 ^ 52 : ℤ) : ℚ) * pow2 (-52) = 1 := by
  rw [pow2_eq]
  norm_num

theorem pow2_neg_53 : ((2 ^ 53 : ℤ) : ℚ) * pow2 (-53) = 1 := by
  rw [pow2_eq]
  norm_num

theorem two_mul_pow2 (e : ℤ) : 2 * pow2 e = pow2 (e + 1) := by
  rw [pow2_eq, pow2_eq, zpow_add_one₀ two_ne_zero, mul_comm]

theorem round53_one_add {t : ℚ} (h₀ : 0 ≤ t) (h : t < pow2 (-53)) : round53 (1 + t) = 1 := by
  have hunit : 2 * pow2 (-53) = pow2 (-52) := two_mul_pow2 (-53)
  have hone : pow2 (-53) < pow2 0 := pow2_lt_pow2.2 (by decide)
  have htwo : 2 * pow2 0 = pow2 (0 + 1) := two_mul_pow2 0
  rw [pow2_zero] at hone htwo
  rw [round53_of_binade (pow2_zero.trans_le (by linarith)) (by linarith : 1 + t < pow2 (0 + 1))]
  have hnear : |1 + t - ((2 ^ 52 : ℤ) : ℚ) * pow2 (-52)| < pow2 (-52) / 2 := by
    rw [pow2_neg_52, add_sub_cancel_left, abs_of_nonneg h₀]
    linarith
  exact (roundTo_of_near hnear).trans pow2_neg_52

section
variable {t : ℚ} (h₀ : 0 < t) (h : t < pow2 (-53))
include h₀ h

theorem round53_one_sub : round53 (1 - t) = roundTo (-53) (1 - t) := by
  have hhalf : 2 * pow2 (-1) = pow2 (-1 + 1) := two_mul_pow2 (-1)
  have hone : pow2 (-1 + 1) = 1 := pow2_zero
  have hsmall : pow2 (-53) < pow2 (-1) := pow2_lt_pow2.2 (by decide)
  have hlow : pow2 (-1) ≤ 1 - t := by linarith
  have hhigh : 1 - t < pow2 (-1 + 1) := by linarith
  rw [round53_of_binade hlow hhigh, show (-1 - 52 : ℤ) = -53 from rfl]

/-- Of the two numbers at the same distance one is the even multiple. -/
theorem round53_one_sub_of_le (hle : t ≤ pow2 (-54)) : round53 (1 - t) = 1 := by
  have hunit : 2 * pow2 (-54) = pow2 (-53) := two_mul_pow2 (-54)
  have hnear : |1 - t - ((2 ^ 53 : ℤ) : ℚ) * pow2 (-53)| ≤ pow2 (-53) / 2 := by
    rw [pow2_neg_53, sub_sub_cancel_left, abs_neg, abs_of_pos h₀]
    linarith
  rw [round53_one_sub h₀ h, roundTo_of_even (by decide) hnear, pow2_neg_53]

theorem round53_one_sub_of_gt (hgt : pow2 (-54) < t) : round53 (1 - t) = 1 - pow2 (-53) := by
  have hunit : 2 * pow2 (-54) = pow2 (-53) := two_mul_pow2 (-54)
  have hbelow : ((2 ^ 53 - 1 : ℤ) : ℚ) * pow2 (-53) = 1 - pow2 (-53) := by
    rw [← pow2_neg_53]
    push_cast
    ring
  have hnear : |1 - t - ((2 ^ 53 - 1 : ℤ) : ℚ) * pow2 (-53)| < pow2 (-53) / 2 := by
    rw [hbelow, abs_lt]
    constructor <;> linarith
  rw [round53_one_sub h₀ h, roundTo_of_near hnear, hbelow]

end

/-! ### Quotients -/

theorem natCast_div_eq {n d : ℕ} (hd : d ≠ 0) : (n : ℚ) / d = (n / d : ℕ) + (n % d : ℕ) / (d : ℚ) := by
  have hd' : (d : ℚ) ≠ 0 := by exact_mod_cast hd
  have hn : (n : ℚ) = d * (n / d : ℕ) + (n % d : ℕ) := by exact_mod_cast (Nat.div_add_mod n d).symm
  field_simp
  linarith

theorem roundEven_div_down {n d : ℕ} (h : 2 * (n % d) < d) : roundEven ((n : ℚ) / d) = (n / d : ℕ) := by
  have hd : d ≠ 0 := by omega
  have hd' : (0 : ℚ) < d := by exact_mod_cast Nat.pos_of_ne_zero hd
  have hrest : 2 * ((n % d : ℕ) : ℚ) < d := by exact_mod_cast h
  refine roundEven_eq_of_abs_lt ?_
  rw [natCast_div_eq hd, Int.cast_natCast, add_sub_cancel_left, abs_of_nonneg (by positivity),
    div_lt_iff₀ hd']
  linarith

theorem roundEven_div_up {n d : ℕ} (hd : d ≠ 0) (h : d < 2 * (n % d)) :
    roundEven ((n : ℚ) / d) = ((n / d : ℕ) : ℤ) + 1 := by
  have hd' : (0 : ℚ) < d := by exact_mod_cast Nat.pos_of_ne_zero hd
  have hlow : (d : ℚ) < 2 * (n % d : ℕ) := by exact_mod_cast h
  have hhigh : ((n % d : ℕ) : ℚ) < d := by exact_mod_cast Nat.mod_lt n (Nat.pos_of_ne_zero hd)
  have hpart : ((n % d : ℕ) : ℚ) / d * d = (n % d : ℕ) := div_mul_cancel₀ _ hd'.ne'
  refine roundEven_eq_of_abs_lt ?_
  rw [natCast_div_eq hd, abs_lt, Int.cast_add, Int.cast_natCast, Int.cast_one]
  constructor <;> nlinarith

/-! ### The shares of `k` -/

theorem mul_shareUnit (k : ℕ) : ((2 ^ (k.log2 + 53) : ℕ) : ℚ) * shareUnit k = 1 := by
  rw [shareUnit, natCast_pow_mul_pow2, ← pow2_zero]
  congr 1
  omega

theorem mul_shareUnit_step (k : ℕ) : ((2 ^ k.log2 : ℕ) : ℚ) * shareUnit k = pow2 (-53) := by
  rw [shareUnit, natCast_pow_mul_pow2]
  congr 1
  omega

theorem shareUnit_pos (k : ℕ) : 0 < shareUnit k := pow2_pos _

/-- Less than `k / 2` units are less than the step below one. -/
theorem natCast_mul_shareUnit_lt {k n : ℕ} (h : 2 * n < k) : n * shareUnit k < pow2 (-53) := by
  have hk : k < 2 * 2 ^ k.log2 := by
    rw [← pow_succ']
    exact Nat.lt_log2_self
  have hn : (n : ℚ) < (2 ^ k.log2 : ℕ) := by
    have hn' : n < 2 ^ k.log2 := by omega
    exact_mod_cast hn'
  rw [← mul_shareUnit_step k]
  exact mul_lt_mul_of_pos_right hn (shareUnit_pos k)

section
variable {k : ℕ} (hk : ∀ j, k ≠ 2 ^ j)
include hk

theorem not_dvd_two_pow (n : ℕ) : ¬ k ∣ 2 ^ n := by
  intro hdvd
  obtain ⟨j, -, hj⟩ := (Nat.dvd_prime_pow Nat.prime_two).1 hdvd
  exact hk j hj

theorem shareRest_pos : 0 < shareRest k := by
  rcases Nat.eq_zero_or_pos (shareRest k) with hzero | hpos
  · exact absurd (Nat.dvd_of_mod_eq_zero hzero) (not_dvd_two_pow hk _)
  · exact hpos

/-- There are no ties. -/
theorem two_mul_shareRest_ne : 2 * shareRest k ≠ k := by
  intro hhalf
  have hdiv : k * (2 ^ (k.log2 + 53) / k) + shareRest k = 2 ^ (k.log2 + 53) := Nat.div_add_mod _ k
  have hdvd : k ∣ 2 ^ (k.log2 + 53 + 1) := by
    refine ⟨2 * (2 ^ (k.log2 + 53) / k) + 1, ?_⟩
    rw [pow_succ]
    linarith
  exact not_dvd_two_pow hk _ hdvd

variable (h₀ : k ≠ 0)
include h₀

theorem round53_one_div :
    round53 (1 / k) = roundEven (((2 ^ (k.log2 + 53) : ℕ) : ℚ) / k) * shareUnit k := by
  have hpos : (0 : ℚ) < k := by exact_mod_cast Nat.pos_of_ne_zero h₀
  have hle : ((2 ^ k.log2 : ℕ) : ℚ) < k := by
    exact_mod_cast lt_of_le_of_ne (Nat.log2_self_le h₀) (hk _).symm
  have hlt : (k : ℚ) < (2 ^ (k.log2 + 1) : ℕ) := by exact_mod_cast Nat.lt_log2_self
  have hlow : pow2 (-(k.log2 + 1)) ≤ 1 / k := by
    rw [le_div_iff₀ hpos]
    calc pow2 (-(k.log2 + 1)) * k ≤ pow2 (-(k.log2 + 1)) * (2 ^ (k.log2 + 1) : ℕ) :=
          mul_le_mul_of_nonneg_left hlt.le (pow2_pos _).le
      _ = 1 := by
          rw [mul_comm, natCast_pow_mul_pow2, ← pow2_zero]
          congr 1
          omega
  have hhigh : 1 / k < pow2 (-(k.log2 + 1) + 1) := by
    rw [div_lt_iff₀ hpos]
    calc (1 : ℚ) = (2 ^ k.log2 : ℕ) * pow2 (-(k.log2 + 1) + 1) := by
          rw [natCast_pow_mul_pow2, ← pow2_zero]
          congr 1
          omega
      _ < pow2 (-(k.log2 + 1) + 1) * k := by
          rw [mul_comm]
          exact mul_lt_mul_of_pos_left hle (pow2_pos _)
  have hscale : 1 / k / shareUnit k = ((2 ^ (k.log2 + 53) : ℕ) : ℚ) / k := by
    rw [div_div, div_eq_div_iff (mul_pos hpos (shareUnit_pos k)).ne' hpos.ne', one_mul, ← mul_assoc,
      mul_right_comm, mul_shareUnit, one_mul]
  have hunit : pow2 (-(k.log2 + 1) - 52) = shareUnit k := by
    rw [shareUnit, show (-(k.log2 + 1) - 52 : ℤ) = -(k.log2 + 53) by omega]
  rw [round53_of_binade hlow hhigh, roundTo, hunit, hscale]

omit hk h₀ in
/-- The quotient that `1 / k` is rounded to or above, `k` times. -/
theorem mul_quotient_mul_shareUnit :
    (k : ℚ) * (2 ^ (k.log2 + 53) / k : ℕ) * shareUnit k = 1 - shareRest k * shareUnit k := by
  have hdiv : (k : ℚ) * (2 ^ (k.log2 + 53) / k : ℕ) + shareRest k = (2 ^ (k.log2 + 53) : ℕ) := by
    exact_mod_cast Nat.div_add_mod (2 ^ (k.log2 + 53)) k
  rw [eq_sub_iff_add_eq, ← add_mul, hdiv, mul_shareUnit]

theorem mul_round53_of_down (h : 2 * shareRest k < k) :
    k * round53 (1 / k) = 1 - shareRest k * shareUnit k := by
  rw [round53_one_div hk h₀, roundEven_div_down h, Int.cast_natCast, ← mul_assoc, mul_quotient_mul_shareUnit]

theorem mul_round53_of_up (h : k < 2 * shareRest k) :
    k * round53 (1 / k) = 1 + (k - shareRest k : ℕ) * shareUnit k := by
  have hle : shareRest k ≤ k := (Nat.mod_lt _ (Nat.pos_of_ne_zero h₀)).le
  rw [round53_one_div hk h₀, roundEven_div_up h₀ h, Int.cast_add, Int.cast_natCast, Int.cast_one, ← mul_assoc,
    mul_add, add_mul, mul_quotient_mul_shareUnit, Nat.cast_sub hle]
  ring

end

theorem shareRest_two_pow (j : ℕ) : shareRest (2 ^ j) = 0 := by
  rw [shareRest, Nat.log2_two_pow]
  exact Nat.mod_eq_zero_of_dvd (pow_dvd_pow 2 (Nat.le_add_right j 53))

theorem two_pow_mul_round53 (j : ℕ) : (2 ^ j : ℕ) * round53 (1 / (2 ^ j : ℕ)) = 1 := by
  rw [one_div_two_pow, round53_pow2, natCast_pow_mul_pow2, add_neg_cancel, pow2_zero]

/-- `k` shares of an atom come to one, or to the number before it. -/
theorem round53_mul_one_div {k : ℕ} (h₀ : k ≠ 0) :
    round53 (k * round53 (1 / k)) = if FallsShort k then 1 - pow2 (-53) else 1 := by
  have hone : round53 1 = 1 := round53_pow2 0
  by_cases hpow : ∃ j, k = 2 ^ j
  · obtain ⟨j, rfl⟩ := hpow
    have hfull : ¬ FallsShort (2 ^ j) := by simp [FallsShort, shareRest_two_pow]
    rw [if_neg hfull, two_pow_mul_round53, hone]
  have hk : ∀ j, k ≠ 2 ^ j := fun j hj => hpow ⟨j, hj⟩
  rcases lt_trichotomy (2 * shareRest k) k with hdown | htie | hup
  · have hpos : 0 < shareRest k * shareUnit k :=
      mul_pos (by exact_mod_cast shareRest_pos hk) (shareUnit_pos k)
    have hlt := natCast_mul_shareUnit_lt hdown
    have hhalf : 2 * pow2 (-54) = (2 ^ k.log2 : ℕ) * shareUnit k := by
      rw [mul_shareUnit_step]
      exact two_mul_pow2 (-54)
    rw [mul_round53_of_down hk h₀ hdown]
    split
    · rename_i hshort
      have hrest : ((2 ^ k.log2 : ℕ) : ℚ) < 2 * shareRest k := by exact_mod_cast hshort.1
      refine round53_one_sub_of_gt hpos hlt ?_
      nlinarith [mul_lt_mul_of_pos_right hrest (shareUnit_pos k)]
    · rename_i hfull
      have hrest : 2 * (shareRest k : ℚ) ≤ (2 ^ k.log2 : ℕ) := by
        exact_mod_cast not_lt.1 fun h => hfull ⟨h, hdown⟩
      refine round53_one_sub_of_le hpos hlt ?_
      nlinarith [mul_le_mul_of_nonneg_right hrest (shareUnit_pos k).le]
  · exact absurd htie (two_mul_shareRest_ne hk)
  · have hlt : shareRest k < k := Nat.mod_lt _ (Nat.pos_of_ne_zero h₀)
    have hfull : ¬ FallsShort k := fun h => absurd h.2 (by omega)
    rw [if_neg hfull, mul_round53_of_up hk h₀ hup]
    exact round53_one_add (mul_nonneg (Nat.cast_nonneg _) (shareUnit_pos k).le)
      (natCast_mul_shareUnit_lt (by omega))

end Number

namespace Index

/-- The shares that an atom gives to the roots that explain it, added up. -/
def sharesTotal (ix : Index) (a : Atom) : ℚ :=
  round53 ((ix.causesOf a).toList.map fun _ => ix.atomScore [a]).sum

variable {ix : Index} {a : Atom}

/-- A share on its own is rounded twice, the second time to no effect. -/
theorem atomScore_singleton (h : ix.causeCount a ≠ 0) :
    ix.atomScore [a] = round53 (1 / ix.causeCount a) := by
  have hnonneg : (0 : ℚ) ≤ 1 / ix.causeCount a := by positivity
  rw [atomScore, atomScoreWith, creditSum_eq]
  simp only [List.map_cons, List.map_nil, List.sum_cons, List.sum_nil, add_zero]
  rw [credit, if_neg h, round53_round53 hnonneg]

theorem sharesTotal_eq (h : ix.causeCount a ≠ 0) :
    ix.sharesTotal a = round53 (ix.causeCount a * round53 (1 / ix.causeCount a)) := by
  rw [sharesTotal, atomScore_singleton h, List.map_const', List.sum_replicate, nsmul_eq_mul]
  rfl

/-- The same is the score of the atom listed once for each of its causes. -/
theorem sharesTotal_eq_atomScore (h : ix.causeCount a ≠ 0) :
    ix.sharesTotal a = ix.atomScore (List.replicate (ix.causeCount a) a) := by
  rw [sharesTotal_eq h, atomScore, atomScoreWith, creditSum_eq, List.map_replicate, List.map_replicate,
    List.sum_replicate, nsmul_eq_mul, credit, if_neg h]

theorem not_fallsShort_of_lt : ∀ k < 49, ¬ FallsShort k := by decide +kernel

/-- In doubles the shares of an explained atom add up to one or to the last number below one, and a remainder of
the number of causes tells which. Up to 48 causes it is one. -/
theorem sharesTotal_explained (calls : List Call) {a : Atom} (ha : a ∈ (after calls).explained) :
    let ix := after calls
    (ix.sharesTotal a = if FallsShort (ix.causeCount a) then 1 - pow2 (-53) else 1) ∧
    (ix.causeCount a < 49 → ix.sharesTotal a = 1) ∧
    ix.sharesTotal a = ix.atomScore (List.replicate (ix.causeCount a) a) := by
  intro ix
  have hk : ix.causeCount a ≠ 0 := mem_explained_iff_causeCount.1 ha
  have htotal : ix.sharesTotal a = if FallsShort (ix.causeCount a) then 1 - pow2 (-53) else 1 := by
    rw [sharesTotal_eq hk, round53_mul_one_div hk]
  refine ⟨htotal, fun hlt => ?_, sharesTotal_eq_atomScore hk⟩
  rw [htotal, if_neg (not_fallsShort_of_lt _ hlt)]

/-- The atom 100 with the given number of causes. -/
def manyCauses (k : ℕ) : List Call :=
  (List.range k).flatMap fun r => [.write (.declareRoot r ⟨"Cast", none, []⟩), .write (.blame r 100)]

theorem sharesTotal_explained_six :
    let ix := after (manyCauses 6)
    100 ∈ ix.explained ∧ ix.causeCount 100 = 6 ∧
    (ix.sharesTotal 100 = if FallsShort (ix.causeCount 100) then 1 - pow2 (-53) else 1) ∧
    (ix.causeCount 100 < 49 → ix.sharesTotal 100 = 1) ∧
    ix.sharesTotal 100 = ix.atomScore (List.replicate (ix.causeCount 100) 100) :=
  ⟨by decide, by decide, sharesTotal_explained _ (by decide)⟩

theorem sharesTotal_fortyNine :
    let ix := after (manyCauses 49)
    100 ∈ ix.explained ∧ ix.causeCount 100 = 49 ∧ ix.sharesTotal 100 = 1 - pow2 (-53) ∧
    ix.sharesTotal 100 ≠ 1 := by
  decide +kernel

end Index

end Blame
