/-
  Inspector/Proofs/Floating/Pattern.lean
  ======================================
  **Bit patterns and numbers.**

  A number of a binary format has one bit pattern, a zero one for each sign.  The pattern
  is put together again from the sign, the significand and the exponent
  (`toBits?_ofBits`), and these are known from the number: the significand has the
  hidden bit unless the exponent is the least one, so no number has two of them
  (`eq_of_value_eq`).
-/
import Inspector.Floating.Binary
import Mathlib.Algebra.Order.Field.Power
import Mathlib.Data.Rat.Cast.Order
import Mathlib.Tactic.Linarith
import Mathlib.Tactic.NormNum
import Mathlib.Tactic.Positivity
import Mathlib.Tactic.Ring

namespace Inspector

namespace BinaryFormat

/-- The weight of the hidden bit, which is one more than the greatest fraction. -/
def hidden (f : BinaryFormat) : ℕ :=
  Nat.pow 2 f.fractionBits

/-- How many values the exponent bits can have. -/
def exponents (f : BinaryFormat) : ℕ :=
  Nat.pow 2 f.exponentBits

theorem hidden_pos (f : BinaryFormat) : 0 < f.hidden :=
  Nat.pow_pos (by norm_num)

theorem exponents_pos (f : BinaryFormat) : 0 < f.exponents :=
  Nat.pow_pos (by norm_num)

end BinaryFormat

namespace Floating

variable {f : BinaryFormat}

/-! ### The pattern of a number -/

def signBit (f : BinaryFormat) (negative : Bool) : ℕ :=
  if negative then f.exponents * f.hidden else 0

/-- The bit pattern of a number of a format. A NaN has no pattern of its own. -/
def toBits? (f : BinaryFormat) : Floating → Option ℕ
  | nan => none
  | infinite negative => some (signBit f negative + (f.exponents - 1) * f.hidden)
  | finite negative m q =>
    some (signBit f negative + ((q - leastExponent f).toNat * f.hidden + m))

/-- The sign, the exponent bits and the fraction make up the pattern. -/
theorem fields_eq {bits : ℕ} (hbits : bits < 2 * (f.exponents * f.hidden)) :
    signBit f (bits / f.hidden / f.exponents % 2 == 1)
      + (bits / f.hidden % f.exponents * f.hidden + bits % f.hidden) = bits := by
  have hsign : bits / f.hidden / f.exponents < 2 := by
    rw [Nat.div_div_eq_div_mul, Nat.mul_comm f.hidden, Nat.div_lt_iff_lt_mul
      (Nat.mul_pos f.exponents_pos f.hidden_pos)]
    exact hbits
  have hbit : signBit f (bits / f.hidden / f.exponents % 2 == 1)
      = bits / f.hidden / f.exponents * (f.exponents * f.hidden) := by
    rw [signBit]
    generalize bits / f.hidden / f.exponents = sign at hsign ⊢
    obtain rfl | rfl : sign = 0 ∨ sign = 1 := by omega
    · rw [Nat.zero_mul]
      rfl
    · rw [Nat.one_mul]
      rfl
  calc signBit f (bits / f.hidden / f.exponents % 2 == 1)
        + (bits / f.hidden % f.exponents * f.hidden + bits % f.hidden)
      = (f.exponents * (bits / f.hidden / f.exponents) + bits / f.hidden % f.exponents) * f.hidden
        + bits % f.hidden := by
        rw [hbit]
        ring
    _ = bits := by
        rw [Nat.div_add_mod, Nat.mul_comm, Nat.div_add_mod]

theorem toBits?_ofBits {bits : ℕ} (hbits : bits < 2 * (f.exponents * f.hidden))
    (hnan : ofBits f bits ≠ nan) : toBits? f (ofBits f bits) = some bits := by
  have hfields := fields_eq hbits
  simp only [ofBits] at hnan ⊢
  rw [← BinaryFormat.hidden, ← BinaryFormat.exponents] at hnan ⊢
  split
  · next htop =>
    rw [if_pos htop] at hnan
    split
    · next hfraction =>
      rw [toBits?, ← htop]
      rw [hfraction, Nat.add_zero] at hfields
      rw [hfields]
    · next hfraction =>
      rw [if_neg hfraction] at hnan
      exact absurd rfl hnan
  · split
    · next hbiased =>
      rw [hbiased, Nat.zero_mul] at hfields
      rw [toBits?, Int.sub_self, Int.toNat_zero, Nat.zero_mul, hfields]
    · next hbiased =>
      -- the hidden bit stands for one more of the exponent
      have hexponent : (leastExponent f + ((bits / f.hidden % f.exponents - 1 : ℕ) : ℤ)
          - leastExponent f).toNat = bits / f.hidden % f.exponents - 1 := by omega
      have hmantissa : (bits / f.hidden % f.exponents - 1) * f.hidden
          + (f.hidden + bits % f.hidden)
          = bits / f.hidden % f.exponents * f.hidden + bits % f.hidden := by
        rw [← Nat.add_assoc, ← Nat.succ_mul, Nat.succ_eq_add_one, Nat.sub_add_cancel
          (Nat.pos_of_ne_zero hbiased)]
      rw [toBits?, hexponent, hmantissa, hfields]

/-! ### The significand of a number -/

/-- The numbers of a format. Only with the least exponent may the hidden bit be missing. -/
def Fits (f : BinaryFormat) : Floating → Prop
  | finite _ m q =>
    m < 2 * f.hidden ∧ leastExponent f ≤ q ∧ (q = leastExponent f ∨ f.hidden ≤ m)
  | infinite _ | nan => True

theorem fits_ofBits (f : BinaryFormat) (bits : ℕ) : Fits f (ofBits f bits) := by
  have hfraction : bits % f.hidden < f.hidden := Nat.mod_lt _ f.hidden_pos
  simp only [ofBits]
  rw [← BinaryFormat.hidden, ← BinaryFormat.exponents]
  split
  · split <;> trivial
  · split
    · exact ⟨by omega, le_rfl, Or.inl rfl⟩
    · exact ⟨by omega, by omega, Or.inr (by omega)⟩

variable {a b : Bool} {m n : ℕ} {q r : ℤ}

/-- A greater exponent would take the hidden bit past the greatest significand. -/
theorem exponent_le_of_value_eq (hx : Fits f (finite a m q)) (hy : Fits f (finite b n r))
    (h : (m : ℚ) * 2 ^ q = n * 2 ^ r) : q ≤ r := by
  obtain ⟨-, -, hm⟩ := hx
  obtain ⟨hn, hr, -⟩ := hy
  by_contra hlt
  have hhidden : f.hidden ≤ m := by
    rcases hm with rfl | hm
    · omega
    · exact hm
  obtain ⟨k, rfl⟩ : ∃ k : ℕ, q = r + ((k + 1 : ℕ) : ℤ) := ⟨(q - r - 1).toNat, by omega⟩
  have hpos : (0 : ℚ) < 2 ^ r := zpow_pos (by norm_num) r
  have hshift : m * 2 ^ (k + 1) = n := by
    rw [zpow_add₀ (by norm_num), zpow_natCast] at h
    have hcast : (m : ℚ) * 2 ^ (k + 1) = n := by
      apply mul_right_cancel₀ hpos.ne'
      rw [← h]
      ring
    exact_mod_cast hcast
  have hgrow : m * 2 ≤ m * 2 ^ (k + 1) :=
    Nat.mul_le_mul_left m (Nat.le_self_pow (Nat.succ_ne_zero k) 2)
  omega

/-- A number has one significand and one exponent. -/
theorem eq_of_value_eq (hx : Fits f (finite a m q)) (hy : Fits f (finite b n r))
    (h : (m : ℚ) * 2 ^ q = n * 2 ^ r) : m = n ∧ q = r := by
  have hexponent : q = r :=
    le_antisymm (exponent_le_of_value_eq hx hy h) (exponent_le_of_value_eq hy hx h.symm)
  subst hexponent
  have hpos : (0 : ℚ) < 2 ^ q := zpow_pos (by norm_num) q
  have hcast : (m : ℚ) = n := mul_right_cancel₀ hpos.ne' h
  exact ⟨by exact_mod_cast hcast, rfl⟩

end Floating

end Inspector
