/-
  Inspector/Proofs/Floating/Rounding.lean
  =======================================
  **Rounding a fraction is rounding the number that it is.**

  What a number rounded to some significant digits should be is said in rational numbers:
  the multiple of the last place that is nearest to it, and the even one of two that are
  equally near (`roundSignificant`).  The arithmetic of fractions on whole numbers is
  then shown to do exactly this.

    * one step each: a power of two or ten (`ofBinary_value`, `scale_value`), the nearest
      whole number (`round_eq`), the place of the first digit (`exponent_eq_log`);
    * `roundTo_eq`: the digits and the place that are found spell the rounded number;
    * `round_scale_roundTo`: rounded once more, at the place that the digits end at after
      a carry, the number has the same digits.
-/
import Inspector.Floating.Rounding
import Mathlib.Algebra.Order.Field.Power
import Mathlib.Data.Int.Log
import Mathlib.Data.Rat.Floor
import Mathlib.Tactic.FieldSimp
import Mathlib.Tactic.Linarith
import Mathlib.Tactic.NormNum
import Mathlib.Tactic.Positivity
import Mathlib.Tactic.Ring

namespace Inspector

/-! ### The nearest whole number -/

/-- The whole number nearest to a rational; of two the even one. -/
def roundEven (x : ℚ) : ℤ :=
  if Int.fract x < 1 / 2 ∨ (Int.fract x = 1 / 2 ∧ Even ⌊x⌋) then ⌊x⌋ else ⌊x⌋ + 1

/-- A whole number is at most a half away, and even if it is a half away. -/
def IsNearest (x : ℚ) (n : ℤ) : Prop :=
  |x - n| ≤ 1 / 2 ∧ (|x - n| = 1 / 2 → Even n)

theorem isNearest_roundEven (x : ℚ) : IsNearest x (roundEven x) := by
  have hx : x = ⌊x⌋ + Int.fract x := (Int.floor_add_fract x).symm
  have hnonneg : 0 ≤ Int.fract x := Int.fract_nonneg x
  have hlt : Int.fract x < 1 := Int.fract_lt_one x
  by_cases h : Int.fract x < 1 / 2 ∨ (Int.fract x = 1 / 2 ∧ Even ⌊x⌋)
  · have hdist : |x - (⌊x⌋ : ℤ)| = Int.fract x := by
      rw [Int.self_sub_floor, abs_of_nonneg hnonneg]
    rw [roundEven, if_pos h, IsNearest, hdist]
    rcases h with h | ⟨h, heven⟩
    · exact ⟨h.le, fun heq => absurd heq h.ne⟩
    · exact ⟨h.le, fun _ => heven⟩
  · have hdist : |x - (⌊x⌋ + 1 : ℤ)| = 1 - Int.fract x := by
      rw [abs_sub_comm, abs_of_nonneg] <;> push_cast <;> linarith
    obtain ⟨hge, hodd⟩ := not_or.mp h
    rw [roundEven, if_neg h, IsNearest, hdist]
    refine ⟨by linarith, ?_⟩
    intro heq
    have hhalf : Int.fract x = 1 / 2 := by linarith
    exact Int.even_add_one.mpr fun heven => hodd ⟨hhalf, heven⟩

/-- No other whole number is as near. -/
theorem IsNearest.unique {x : ℚ} {a b : ℤ} (ha : IsNearest x a) (hb : IsNearest x b) :
    a = b := by
  have hab : |(a : ℚ) - b| ≤ |x - a| + |x - b| := by
    rw [← abs_neg (x - a)]
    refine le_trans (le_of_eq ?_) (abs_add_le _ _)
    congr 1
    ring
  have hle : |a - b| ≤ 1 := by
    have hone : |(a : ℚ) - b| ≤ 1 := by linarith [ha.1, hb.1]
    exact_mod_cast hone
  by_contra hne
  -- Two whole numbers next to each other: both are a half away, and both even.
  have hfar : |a - b| = 1 := le_antisymm hle (Int.one_le_abs (sub_ne_zero.mpr hne))
  have hone : |(a : ℚ) - b| = 1 := by exact_mod_cast hfar
  have haEven : Even a := ha.2 (le_antisymm ha.1 (by linarith [hb.1]))
  have hbEven : Even b := hb.2 (le_antisymm hb.1 (by linarith [ha.1]))
  have heven : Even |a - b| := even_abs.mpr (haEven.sub hbEven)
  rw [hfar] at heven
  exact absurd heven (by decide)

theorem eq_roundEven {x : ℚ} {n : ℤ} (h : IsNearest x n) : n = roundEven x :=
  h.unique (isNearest_roundEven x)

theorem roundEven_neg (x : ℚ) : roundEven (-x) = -roundEven x := by
  refine (eq_roundEven ?_).symm
  obtain ⟨hdist, heven⟩ := isNearest_roundEven x
  have hneg : |-x - ((-roundEven x : ℤ) : ℚ)| = |x - roundEven x| := by
    rw [← abs_neg]
    congr 1
    push_cast
    ring
  rw [IsNearest, hneg]
  exact ⟨hdist, fun h => (heven h).neg⟩

/-- Between two whole numbers lies the nearest one too. -/
theorem le_roundEven {x : ℚ} {n : ℤ} (h : (n : ℚ) ≤ x) : n ≤ roundEven x := by
  have hfloor : n ≤ ⌊x⌋ := Int.le_floor.mpr h
  rw [roundEven]
  split <;> omega

theorem roundEven_le {x : ℚ} {n : ℤ} (h : x ≤ n) : roundEven x ≤ n := by
  have hle : -n ≤ roundEven (-x) := le_roundEven (by push_cast; linarith)
  rw [roundEven_neg] at hle
  omega

/-! ### Significant digits -/

/-- The unit of the last of `digits` significant digits of a number. -/
def lastPlace (digits : ℕ) (x : ℚ) : ℚ :=
  10 ^ (Int.log 10 |x| - ((digits : ℤ) - 1))

def roundSignificant (digits : ℕ) (x : ℚ) : ℚ :=
  roundEven (x / lastPlace digits x) * lastPlace digits x

theorem lastPlace_pos (digits : ℕ) (x : ℚ) : 0 < lastPlace digits x :=
  zpow_pos (by norm_num) _

theorem lastPlace_neg (digits : ℕ) (x : ℚ) : lastPlace digits (-x) = lastPlace digits x := by
  rw [lastPlace, lastPlace, abs_neg]

theorem roundSignificant_neg (digits : ℕ) (x : ℚ) :
    roundSignificant digits (-x) = -roundSignificant digits x := by
  rw [roundSignificant, roundSignificant, lastPlace_neg, neg_div, roundEven_neg]
  push_cast
  ring

/-- In units of its last place a number has as many digits as asked for. -/
theorem div_lastPlace_bounds (digits : ℕ) {x : ℚ} (hx : 0 < x) :
    (10 : ℚ) ^ ((digits : ℤ) - 1) ≤ x / lastPlace digits x
      ∧ x / lastPlace digits x < (10 : ℚ) ^ (digits : ℤ) := by
  have hlow : (10 : ℚ) ^ Int.log 10 x ≤ x := Int.zpow_log_le_self (b := 10) (by norm_num) hx
  have hhigh : x < (10 : ℚ) ^ (Int.log 10 x + 1) :=
    Int.lt_zpow_succ_log_self (b := 10) (by norm_num) x
  have hten : (10 : ℚ) ≠ 0 := by norm_num
  have hfirst : (digits : ℤ) - 1 + (Int.log 10 x - ((digits : ℤ) - 1)) = Int.log 10 x := by
    ring
  have hnext : (digits : ℤ) + (Int.log 10 x - ((digits : ℤ) - 1)) = Int.log 10 x + 1 := by
    ring
  rw [le_div_iff₀ (lastPlace_pos digits x), div_lt_iff₀ (lastPlace_pos digits x), lastPlace,
    abs_of_pos hx, ← zpow_add₀ hten, ← zpow_add₀ hten, hfirst, hnext]
  exact ⟨hlow, hhigh⟩

namespace Fraction

/-! ### The number that a fraction is -/

def value (x : Fraction) : ℚ :=
  x.num / x.den

theorem value_pos {x : Fraction} (hnum : 0 < x.num) (hden : 0 < x.den) : 0 < x.value := by
  rw [value]
  positivity

/-- A power that is split into a numerator and a denominator. -/
theorem pow_toNat_div {b : ℚ} (hb : b ≠ 0) (k : ℤ) :
    b ^ k.toNat / b ^ (-k).toNat = b ^ k := by
  rw [← zpow_natCast, ← zpow_natCast, ← zpow_sub₀ hb, Int.toNat_sub_toNat_neg]

theorem ofBinary_value (m : ℕ) (q : ℤ) : (ofBinary m q).value = m * 2 ^ q := by
  rw [← pow_toNat_div two_ne_zero q, value, ofBinary, Nat.pow_eq, Nat.pow_eq]
  push_cast
  ring

theorem ofBinary_den_pos (m : ℕ) (q : ℤ) : 0 < (ofBinary m q).den :=
  Nat.pow_pos (by norm_num)

theorem scale_value (x : Fraction) (k : ℤ) : (x.scale k).value = x.value * 10 ^ k := by
  rw [← pow_toNat_div (by norm_num : (10 : ℚ) ≠ 0) k, value, value, scale, Nat.pow_eq,
    Nat.pow_eq]
  push_cast
  rw [mul_div_mul_comm]

theorem scale_den_pos {x : Fraction} (hden : 0 < x.den) (k : ℤ) : 0 < (x.scale k).den :=
  Nat.mul_pos hden (Nat.pow_pos (by norm_num))

/-! ### One step each -/

theorem floor_value (x : Fraction) : ⌊x.value⌋ = ((x.num / x.den : ℕ) : ℤ) := by
  rw [value, Rat.floor_natCast_div_natCast, Int.natCast_div]

theorem fract_value {x : Fraction} (hden : 0 < x.den) :
    Int.fract x.value = ((x.num % x.den : ℕ) : ℚ) / x.den := by
  have hne : (x.den : ℚ) ≠ 0 := by exact_mod_cast hden.ne'
  have hsplit : ((x.den * (x.num / x.den) + x.num % x.den : ℕ) : ℚ) = x.num := by
    rw [Nat.div_add_mod]
  rw [Int.fract, floor_value, Int.cast_natCast, eq_div_iff hne, value, sub_mul,
    div_mul_cancel₀ _ hne, ← hsplit, Nat.cast_add, Nat.cast_mul]
  ring

theorem round_eq {x : Fraction} (hden : 0 < x.den) : (x.round : ℤ) = roundEven x.value := by
  have hden' : (0 : ℚ) < x.den := by exact_mod_cast hden
  have hlt : Int.fract x.value < 1 / 2 ↔ 2 * (x.num % x.den) < x.den := by
    rw [fract_value hden, div_lt_div_iff₀ hden' two_pos]
    norm_cast
    omega
  have hhalf : Int.fract x.value = 1 / 2 ↔ 2 * (x.num % x.den) = x.den := by
    rw [fract_value hden, div_eq_div_iff hden'.ne' two_ne_zero]
    norm_cast
    omega
  have heven : Even ⌊x.value⌋ ↔ x.num / x.den % 2 = 0 := by
    rw [floor_value, Int.even_coe_nat, Nat.even_iff]
  rw [roundEven, round]
  simp only [hlt, hhalf, heven]
  rw [floor_value]
  split
  · rfl
  · rw [Nat.cast_add, Nat.cast_one]

theorem digitCount_bounds {n : ℕ} (hn : 0 < n) :
    (10 : ℚ) ^ ((digitCount n : ℤ) - 1) ≤ n ∧ (n : ℚ) < 10 ^ (digitCount n : ℤ) := by
  have hpos : 0 < digitCount n := Nat.length_toDigits_pos
  have hlt : n < 10 ^ digitCount n :=
    (Nat.length_toDigits_le_iff (by norm_num) hpos).mp (Nat.le_refl _)
  have hle : 10 ^ (digitCount n - 1) ≤ n := by
    rcases Nat.eq_zero_or_pos (digitCount n - 1) with hzero | hrest
    · rw [hzero]
      exact hn
    · by_contra hgt
      have hshort : digitCount n ≤ digitCount n - 1 :=
        (Nat.length_toDigits_le_iff (by norm_num) hrest).mpr (Nat.not_le.mp hgt)
      omega
  constructor
  · have hcast : ((digitCount n : ℤ) - 1) = ((digitCount n - 1 : ℕ) : ℤ) := by omega
    rw [hcast, zpow_natCast]
    exact_mod_cast hle
  · rw [zpow_natCast]
    exact_mod_cast hlt

/-- The place between two powers of ten. -/
theorem log_eq {x : ℚ} {e : ℤ} (hlow : (10 : ℚ) ^ e ≤ x) (hhigh : x < 10 ^ (e + 1)) :
    Int.log 10 x = e := by
  have hx : 0 < x := lt_of_lt_of_le (zpow_pos (by norm_num) e) hlow
  apply le_antisymm
  · exact Int.lt_add_one_iff.mp ((Int.lt_zpow_iff_log_lt (by norm_num) hx).mp hhigh)
  · exact (Int.zpow_le_iff_le_log (by norm_num) hx).mp hlow

/-- The lengths of numerator and denominator leave two places for the first digit. -/
theorem value_bounds {x : Fraction} (hnum : 0 < x.num) (hden : 0 < x.den) :
    10 ^ ((digitCount x.num : ℤ) - digitCount x.den - 1) ≤ x.value
      ∧ x.value < 10 ^ ((digitCount x.num : ℤ) - digitCount x.den + 1) := by
  have hten : (10 : ℚ) ≠ 0 := by norm_num
  obtain ⟨hnumLow, hnumHigh⟩ := digitCount_bounds hnum
  obtain ⟨hdenLow, hdenHigh⟩ := digitCount_bounds hden
  have hden' : (0 : ℚ) < x.den := by exact_mod_cast hden
  constructor
  · rw [value, le_div_iff₀ hden']
    calc (10 : ℚ) ^ ((digitCount x.num : ℤ) - digitCount x.den - 1) * x.den
        ≤ 10 ^ ((digitCount x.num : ℤ) - digitCount x.den - 1) * 10 ^ (digitCount x.den : ℤ) :=
          mul_le_mul_of_nonneg_left hdenHigh.le (zpow_pos (by norm_num) _).le
      _ = 10 ^ ((digitCount x.num : ℤ) - 1) := by
        rw [← zpow_add₀ hten]
        congr 1
        ring
      _ ≤ x.num := hnumLow
  · rw [value, div_lt_iff₀ hden']
    calc (x.num : ℚ) < 10 ^ (digitCount x.num : ℤ) := hnumHigh
      _ = 10 ^ ((digitCount x.num : ℤ) - digitCount x.den + 1)
          * 10 ^ ((digitCount x.den : ℤ) - 1) := by
        rw [← zpow_add₀ hten]
        congr 1
        ring
      _ ≤ _ := mul_le_mul_of_nonneg_left hdenLow (zpow_pos (by norm_num) _).le

theorem scale_den_le_num_iff {x : Fraction} (hden : 0 < x.den) (e : ℤ) :
    (x.scale (-e)).den ≤ (x.scale (-e)).num ↔ (10 : ℚ) ^ e ≤ x.value := by
  have hpos : (0 : ℚ) < (x.scale (-e)).den := by exact_mod_cast scale_den_pos hden (-e)
  rw [← Nat.cast_le (α := ℚ), ← one_le_div₀ hpos, ← value, scale_value, zpow_neg,
    ← div_eq_mul_inv, one_le_div₀ (zpow_pos (by norm_num) e)]

theorem exponent_eq_log {x : Fraction} (hnum : 0 < x.num) (hden : 0 < x.den) :
    x.exponent = Int.log 10 x.value := by
  obtain ⟨hlow, hhigh⟩ := value_bounds hnum hden
  rw [exponent]
  generalize (digitCount x.num : ℤ) - digitCount x.den = e at hlow hhigh
  have hcompare := scale_den_le_num_iff hden e
  -- one comparison decides between the two places that are left
  by_cases h : (10 : ℚ) ^ e ≤ x.value
  · simp only [if_pos (hcompare.mpr h)]
    exact (log_eq h hhigh).symm
  · simp only [if_neg (mt hcompare.mp h)]
    refine (log_eq hlow ?_).symm
    rw [sub_add_cancel]
    exact lt_of_not_ge h

/-! ### Significant digits of a fraction -/

structure Rounded.HasDigits (r : Rounded) (digits : ℕ) : Prop where
  digits_pos : 0 < digits
  low : 10 ^ (digits - 1) ≤ r.spelled
  high : r.spelled < 10 ^ digits

variable {x : Fraction} {digits : ℕ}

/-- What is rounded to find the digits is the number in units of its last place. -/
theorem scale_last_value (hnum : 0 < x.num) (hden : 0 < x.den) :
    (x.scale ((digits : ℤ) - 1 - x.exponent)).value = x.value / lastPlace digits x.value := by
  rw [scale_value, exponent_eq_log hnum hden, lastPlace, abs_of_pos (value_pos hnum hden),
    div_eq_mul_inv, ← zpow_neg]
  congr 2
  ring

theorem round_last (hnum : 0 < x.num) (hden : 0 < x.den) :
    ((x.scale ((digits : ℤ) - 1 - x.exponent)).round : ℤ)
      = roundEven (x.value / lastPlace digits x.value) := by
  rw [round_eq (scale_den_pos hden _), scale_last_value hnum hden]

theorem round_last_bounds (hnum : 0 < x.num) (hden : 0 < x.den) (hdigits : 0 < digits) :
    10 ^ (digits - 1) ≤ (x.scale ((digits : ℤ) - 1 - x.exponent)).round
      ∧ (x.scale ((digits : ℤ) - 1 - x.exponent)).round ≤ 10 ^ digits := by
  obtain ⟨hlow, hhigh⟩ := div_lastPlace_bounds digits (value_pos hnum hden)
  have hcast : (digits : ℤ) - 1 = ((digits - 1 : ℕ) : ℤ) := by omega
  rw [hcast, zpow_natCast] at hlow
  rw [zpow_natCast] at hhigh
  constructor
  · have hle : ((10 ^ (digits - 1) : ℕ) : ℤ) ≤ roundEven (x.value / lastPlace digits x.value) :=
      le_roundEven (by exact_mod_cast hlow)
    rw [← round_last hnum hden] at hle
    exact_mod_cast hle
  · have hle : roundEven (x.value / lastPlace digits x.value) ≤ ((10 ^ digits : ℕ) : ℤ) :=
      roundEven_le (by exact_mod_cast hhigh.le)
    rw [← round_last hnum hden] at hle
    exact_mod_cast hle

/-- The digits found are those of the rounded number in units of its last place, unless
    the rounding carries. -/
theorem roundTo_cases (hnum : 0 < x.num) (hden : 0 < x.den) (hdigits : 0 < digits) :
    ((x.scale ((digits : ℤ) - 1 - x.exponent)).round < 10 ^ digits
        ∧ x.roundTo digits = ⟨(x.scale ((digits : ℤ) - 1 - x.exponent)).round, x.exponent⟩)
      ∨ ((x.scale ((digits : ℤ) - 1 - x.exponent)).round = 10 ^ digits
        ∧ x.roundTo digits = ⟨10 ^ (digits - 1), x.exponent + 1⟩) := by
  rw [roundTo, Nat.pow_eq, Nat.pow_eq]
  by_cases h : (x.scale ((digits : ℤ) - 1 - x.exponent)).round = 10 ^ digits
  · exact Or.inr ⟨h, if_pos h⟩
  · have hle := (round_last_bounds hnum hden hdigits).2
    exact Or.inl ⟨lt_of_le_of_ne hle h, if_neg h⟩

theorem hasDigits_roundTo (hnum : 0 < x.num) (hden : 0 < x.den) (hdigits : 0 < digits) :
    (x.roundTo digits).HasDigits digits := by
  rcases roundTo_cases hnum hden hdigits with ⟨hlt, heq⟩ | ⟨_, heq⟩
  · rw [heq]
    exact ⟨hdigits, (round_last_bounds hnum hden hdigits).1, hlt⟩
  · rw [heq]
    exact ⟨hdigits, Nat.le_refl _, Nat.pow_lt_pow_right (by norm_num) (by omega)⟩

/-- The digits and the place found spell the rounded number. -/
theorem roundTo_eq (hnum : 0 < x.num) (hden : 0 < x.den) (hdigits : 0 < digits) :
    ((x.roundTo digits).spelled : ℚ) * 10 ^ ((x.roundTo digits).exponent - ((digits : ℤ) - 1))
      = roundSignificant digits x.value := by
  rw [roundSignificant, ← round_last hnum hden, lastPlace, abs_of_pos (value_pos hnum hden),
    ← exponent_eq_log hnum hden, Int.cast_natCast]
  rcases roundTo_cases hnum hden hdigits with ⟨_, heq⟩ | ⟨hcarry, heq⟩
  · rw [heq]
  · -- a power of ten, spelled with the same number of digits from the next place on
    have hcast : ((digits - 1 : ℕ) : ℤ) = (digits : ℤ) - 1 := by omega
    rw [heq, hcarry, Nat.cast_pow, Nat.cast_pow, ← zpow_natCast, ← zpow_natCast, hcast,
      Nat.cast_ofNat, ← zpow_add₀ (by norm_num), ← zpow_add₀ (by norm_num)]
    congr 1
    ring

theorem log_roundSignificant (hnum : 0 < x.num) (hden : 0 < x.den) (hdigits : 0 < digits) :
    Int.log 10 (roundSignificant digits x.value) = (x.roundTo digits).exponent := by
  obtain ⟨_, hlow, hhigh⟩ := hasDigits_roundTo hnum hden hdigits
  have hcast : ((digits - 1 : ℕ) : ℤ) = (digits : ℤ) - 1 := by omega
  have hten : (10 : ℚ) ≠ 0 := by norm_num
  have hunit : (0 : ℚ) < 10 ^ ((x.roundTo digits).exponent - ((digits : ℤ) - 1)) :=
    zpow_pos (by norm_num) _
  rw [← roundTo_eq hnum hden hdigits]
  apply log_eq
  · calc (10 : ℚ) ^ (x.roundTo digits).exponent
        = 10 ^ (digits - 1) * 10 ^ ((x.roundTo digits).exponent - ((digits : ℤ) - 1)) := by
          rw [← zpow_natCast, hcast, ← zpow_add₀ hten]
          congr 1
          ring
      _ ≤ _ := mul_le_mul_of_nonneg_right (by exact_mod_cast hlow) hunit.le
  · calc ((x.roundTo digits).spelled : ℚ)
          * 10 ^ ((x.roundTo digits).exponent - ((digits : ℤ) - 1))
        < 10 ^ digits * 10 ^ ((x.roundTo digits).exponent - ((digits : ℤ) - 1)) :=
          mul_lt_mul_of_pos_right (by exact_mod_cast hhigh) hunit
      _ = _ := by
          rw [← zpow_natCast, ← zpow_add₀ hten]
          congr 1
          ring

/-- Rounded at the last place that its digits have after a carry, a number has the same
    digits. -/
theorem round_scale_roundTo (hnum : 0 < x.num) (hden : 0 < x.den) (hdigits : 0 < digits) :
    (x.scale ((digits : ℤ) - 1 - (x.roundTo digits).exponent)).round
      = (x.roundTo digits).spelled := by
  rcases roundTo_cases hnum hden hdigits with ⟨_, heq⟩ | ⟨hcarry, heq⟩
  · rw [heq]
  · rw [heq, ← Nat.cast_inj (R := ℤ), round_eq (scale_den_pos hden _), scale_value]
    refine (eq_roundEven ?_).symm
    -- A tenth of a number that is at most a half away from a power of ten.
    have hnear : |x.value / lastPlace digits x.value - (10 ^ digits : ℕ)| ≤ 1 / 2 := by
      rw [← hcarry, ← Int.cast_natCast, round_last hnum hden]
      exact (isNearest_roundEven _).1
    have hscaled : x.value * 10 ^ ((digits : ℤ) - 1 - (x.exponent + 1))
        = x.value / lastPlace digits x.value / 10 := by
      rw [exponent_eq_log hnum hden, lastPlace, abs_of_pos (value_pos hnum hden),
        div_eq_mul_inv x.value, ← zpow_neg, mul_div_assoc, div_eq_mul_inv _ (10 : ℚ),
        ← zpow_sub_one₀ (by norm_num)]
      congr 2
      ring
    have hpower : ((10 ^ digits : ℕ) : ℚ) = 10 * (10 ^ (digits - 1) : ℕ) := by
      rw [← Nat.sub_add_cancel hdigits, pow_succ, Nat.add_sub_cancel]
      push_cast
      ring
    have htenth : |x.value * 10 ^ ((digits : ℤ) - 1 - (x.exponent + 1))
        - ((10 ^ (digits - 1) : ℕ) : ℤ)| ≤ 1 / 20 := by
      rw [hscaled, Int.cast_natCast, abs_le]
      rw [hpower, abs_le] at hnear
      constructor <;> linarith
    exact ⟨by linarith, fun h => by linarith⟩

end Fraction

end Inspector
