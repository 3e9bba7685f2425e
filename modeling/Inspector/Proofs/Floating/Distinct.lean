/-
  Inspector/Proofs/Floating/Distinct.lean
  =======================================
  **Enough digits tell all numbers apart.**

  Rounding to significant digits moves a number by a small part of itself, so two numbers
  that round to the same digits are near to each other (`near_of_roundSignificant_eq`).
  Two numbers of a binary format that are not the same are one unit of the smaller
  exponent apart at least, which is not near if the digits spell more numbers than a
  significand has (`eq_of_near`).  Then the text of a number says which number it is, with
  the sign of a zero, and by `toBits?_ofBits` which bit pattern.  Seventeen digits are
  enough for double precision and nine for single precision (`general_faithful`).
-/
import Inspector.Proofs.Bytes.Buffer
import Inspector.Proofs.Floating.General
import Inspector.Proofs.Floating.Pattern
import Inspector.Scalar

namespace Inspector

/-! ### How far rounding moves a number -/

theorem roundEven_zero : roundEven 0 = 0 := by
  refine (eq_roundEven ?_).symm
  simp [IsNearest]

theorem roundSignificant_zero (digits : ℕ) : roundSignificant digits 0 = 0 := by
  rw [roundSignificant, zero_div, roundEven_zero, Int.cast_zero, zero_mul]

variable {digits : ℕ}

theorem lastPlace_mul_le (hdigits : 0 < digits) {x : ℚ} (hx : x ≠ 0) :
    10 ^ (digits - 1) * lastPlace digits x ≤ |x| := by
  have hcast : ((digits - 1 : ℕ) : ℤ) = (digits : ℤ) - 1 := by omega
  have hfirst : (digits : ℤ) - 1 + (Int.log 10 |x| - ((digits : ℤ) - 1)) = Int.log 10 |x| := by
    ring
  rw [lastPlace, ← zpow_natCast, hcast, ← zpow_add₀ (by norm_num), hfirst]
  exact Int.zpow_log_le_self (b := 10) (by norm_num) (abs_pos.mpr hx)

theorem abs_sub_roundSignificant_le (digits : ℕ) (x : ℚ) :
    |x - roundSignificant digits x| ≤ 1 / 2 * lastPlace digits x := by
  have hpos := lastPlace_pos digits x
  have hscaled : x - roundSignificant digits x
      = (x / lastPlace digits x - roundEven (x / lastPlace digits x)) * lastPlace digits x := by
    rw [sub_mul, div_mul_cancel₀ _ hpos.ne', roundSignificant]
  rw [hscaled, abs_mul, abs_of_pos hpos]
  exact mul_le_mul_of_nonneg_right (isNearest_roundEven _).1 hpos.le

/-- A number moves by no more than half of the part that `10 ^ (digits - 1)` makes of it. -/
theorem near_roundSignificant (hdigits : 0 < digits) (x : ℚ) :
    2 * 10 ^ (digits - 1) * |x - roundSignificant digits x| ≤ |x| := by
  by_cases hx : x = 0
  · rw [hx, roundSignificant_zero, sub_zero, abs_zero, mul_zero]
  · calc 2 * 10 ^ (digits - 1) * |x - roundSignificant digits x|
        ≤ 2 * 10 ^ (digits - 1) * (1 / 2 * lastPlace digits x) :=
          mul_le_mul_of_nonneg_left (abs_sub_roundSignificant_le digits x) (by positivity)
      _ = 10 ^ (digits - 1) * lastPlace digits x := by ring
      _ ≤ |x| := lastPlace_mul_le hdigits hx

theorem near_of_roundSignificant_eq (hdigits : 0 < digits) {x y : ℚ}
    (h : roundSignificant digits x = roundSignificant digits y) :
    2 * 10 ^ (digits - 1) * |x - y| ≤ |x| + |y| := by
  have hx := near_roundSignificant hdigits x
  have hy := near_roundSignificant hdigits y
  have hxy : |x - y| ≤ |x - roundSignificant digits x| + |y - roundSignificant digits y| := by
    rw [← h, abs_sub_comm y]
    exact abs_sub_le _ _ _
  calc 2 * 10 ^ (digits - 1) * |x - y|
      ≤ 2 * 10 ^ (digits - 1)
          * (|x - roundSignificant digits x| + |y - roundSignificant digits y|) :=
        mul_le_mul_of_nonneg_left hxy (by positivity)
    _ ≤ |x| + |y| := by
        rw [mul_add]
        exact add_le_add hx hy

/-! ### How far apart numbers of a format are -/

/-- In units of the smaller exponent both numbers are whole, and the first one is small. -/
theorem eq_of_near_of_le {bound m n : ℕ} {q r : ℤ} (hqr : q ≤ r) (hm : m < bound)
    (h : 2 * (bound : ℚ) * |(m : ℚ) * 2 ^ q - n * 2 ^ r|
      ≤ (m : ℚ) * 2 ^ q + n * 2 ^ r) :
    (m : ℚ) * 2 ^ q = n * 2 ^ r := by
  obtain ⟨k, rfl⟩ : ∃ k : ℕ, r = q + k := ⟨(r - q).toNat, by omega⟩
  have hunit : (0 : ℚ) < 2 ^ q := zpow_pos (by norm_num) q
  have hwhole : (n : ℚ) * 2 ^ (q + (k : ℤ)) = (n * 2 ^ k : ℕ) * 2 ^ q := by
    rw [zpow_add₀ (by norm_num), zpow_natCast]
    push_cast
    ring
  rw [hwhole] at h ⊢
  generalize n * 2 ^ k = n' at h ⊢
  have hdist : 2 * (bound : ℤ) * |(m : ℤ) - n'| ≤ m + n' := by
    rw [← sub_mul, ← add_mul, abs_mul, abs_of_pos hunit, ← mul_assoc] at h
    exact_mod_cast le_of_mul_le_mul_right h hunit
  have hle : (n' : ℤ) ≤ m + |(m : ℤ) - n'| := by
    have := neg_abs_le ((m : ℤ) - n')
    omega
  by_contra hne
  have hone : 1 ≤ |(m : ℤ) - n'| := by
    apply Int.one_le_abs
    intro hzero
    exact hne (by rw [show m = n' by omega])
  have hgap : (2 * bound - 1 : ℤ) * 1 ≤ (2 * bound - 1) * |(m : ℤ) - n'| :=
    mul_le_mul_of_nonneg_left hone (by omega)
  have hbound : (m : ℤ) + 1 ≤ bound := by omega
  linarith

theorem eq_of_near {bound m n : ℕ} {q r : ℤ} (hm : m < bound) (hn : n < bound)
    (h : 2 * (bound : ℚ) * |(m : ℚ) * 2 ^ q - n * 2 ^ r|
      ≤ (m : ℚ) * 2 ^ q + n * 2 ^ r) :
    (m : ℚ) * 2 ^ q = n * 2 ^ r := by
  rcases le_total q r with hqr | hrq
  · exact eq_of_near_of_le hqr hm h
  · rw [abs_sub_comm, add_comm] at h
    exact (eq_of_near_of_le hrq hn h).symm

namespace Floating

variable {f : BinaryFormat} {x y : Floating}

/-! ### Texts without their sign -/

def isNegative : Floating → Bool
  | infinite negative | finite negative _ _ => negative
  | nan => false

/-- The general notation of a number without its sign. -/
def magnitudeText (digits : ℕ) : Floating → List Char
  | nan => ['n', 'a', 'n']
  | infinite _ => ['i', 'n', 'f']
  | finite _ m q => if m = 0 then ['0'] else positive (.ofBinary m q) digits

theorem toList_general (hx : x ≠ nan) (hdigits : 0 < digits) :
    (general x digits).toList = signChars x.isNegative ++ magnitudeText digits x := by
  cases x with
  | nan => exact absurd rfl hx
  | infinite negative => rw [general, String.toList_ofList]; rfl
  | finite negative m q =>
    rw [general, String.toList_ofList, Nat.max_eq_left hdigits]
    rfl

theorem textValue?_infinite (digits : ℕ) (negative : Bool) :
    textValue? (magnitudeText digits (infinite negative)) = none := rfl

theorem isGeneral_magnitudeText (hdigits : 0 < digits) (negative : Bool) {m : ℕ} (hm : m ≠ 0)
    (q : ℤ) : IsGeneral digits (m * 2 ^ q) (magnitudeText digits (finite negative m q)) := by
  have hnum : 0 < (Fraction.ofBinary m q).num :=
    Nat.mul_pos (Nat.pos_of_ne_zero hm) (Nat.pow_pos (by norm_num))
  rw [magnitudeText, if_neg hm, ← Fraction.ofBinary_value]
  exact isGeneral_positive hnum (Fraction.ofBinary_den_pos m q) hdigits false

theorem textValue?_finite (hdigits : 0 < digits) (negative : Bool) (m : ℕ) (q : ℤ) :
    textValue? (magnitudeText digits (finite negative m q))
      = some (roundSignificant digits (m * 2 ^ q)) := by
  by_cases hm : m = 0
  · rw [hm, magnitudeText, if_pos rfl, Nat.cast_zero, zero_mul, roundSignificant_zero]
    have hread : read? ['0'] = some ⟨false, 0, 0⟩ := by decide
    rw [textValue?, hread, Option.map_some, Reading.value, signed, if_neg Bool.false_ne_true,
      Nat.cast_zero, zero_mul]
  · exact (isGeneral_magnitudeText hdigits negative hm q).value

/-- Only a sign puts a minus in front. -/
theorem head?_magnitudeText (hdigits : 0 < digits) (x : Floating) :
    (magnitudeText digits x).head? ≠ some '-' := by
  cases x with
  | nan =>
    rw [magnitudeText]
    decide
  | infinite negative =>
    rw [magnitudeText]
    decide
  | finite negative m q =>
    by_cases hm : m = 0
    · rw [magnitudeText, if_pos hm]
      decide
    · rw [Ne, (isGeneral_magnitudeText hdigits negative hm q).sign, not_lt]
      positivity

/-- A text falls apart into the sign and the text without it in one way. -/
theorem signChars_append_inj {a b : Bool} {cs ds : List Char} (hcs : cs.head? ≠ some '-')
    (hds : ds.head? ≠ some '-') (h : signChars a ++ cs = signChars b ++ ds) :
    a = b ∧ cs = ds := by
  have hsign : a = b := by
    rw [Bool.eq_iff_iff, ← head?_signChars hcs, ← head?_signChars hds, h]
  subst hsign
  exact ⟨rfl, List.append_cancel_left h⟩

/-! ### One text, one number -/

/-- Numbers of a format that are shown alike, apart from their signs, are alike, if there
    are at least as many digit strings of full length as significands. -/
theorem eq_of_magnitudeText_eq (hdigits : 0 < digits)
    (enough : 2 * f.hidden ≤ 10 ^ (digits - 1)) (hx : x ≠ nan) (hy : y ≠ nan) (fitsX : Fits f x)
    (fitsY : Fits f y) (hsign : x.isNegative = y.isNegative)
    (h : magnitudeText digits x = magnitudeText digits y) : x = y := by
  have hvalue := congrArg textValue? h
  cases x with
  | nan => exact absurd rfl hx
  | infinite a =>
    cases y with
    | nan => exact absurd rfl hy
    | infinite b => exact congrArg infinite hsign
    | finite b n r =>
      rw [textValue?_infinite, textValue?_finite hdigits] at hvalue
      cases hvalue
  | finite a m q =>
    cases y with
    | nan => exact absurd rfl hy
    | infinite b =>
      rw [textValue?_infinite, textValue?_finite hdigits] at hvalue
      cases hvalue
    | finite b n r =>
      rw [textValue?_finite hdigits, textValue?_finite hdigits, Option.some_inj] at hvalue
      have hnear := near_of_roundSignificant_eq hdigits hvalue
      have hm : m < 10 ^ (digits - 1) := fitsX.1.trans_le enough
      have hn : n < 10 ^ (digits - 1) := fitsY.1.trans_le enough
      have hsame : (m : ℚ) * 2 ^ q = n * 2 ^ r := by
        apply eq_of_near hm hn
        rw [abs_of_nonneg (by positivity : (0 : ℚ) ≤ m * 2 ^ q),
          abs_of_nonneg (by positivity : (0 : ℚ) ≤ n * 2 ^ r)] at hnear
        push_cast
        exact hnear
      obtain ⟨rfl, rfl⟩ := eq_of_value_eq fitsX fitsY hsame
      obtain rfl : a = b := hsign
      rfl

theorem eq_of_general_eq (enough : 2 * f.hidden ≤ 10 ^ (digits - 1)) (hx : x ≠ nan) (hy : y ≠ nan)
    (fitsX : Fits f x) (fitsY : Fits f y) (h : general x digits = general y digits) : x = y := by
  have hdigits : 0 < digits := by
    by_contra hzero
    rw [show digits = 0 by omega] at enough
    have := f.hidden_pos
    omega
  have hlist := congrArg String.toList h
  rw [toList_general hx hdigits, toList_general hy hdigits] at hlist
  obtain ⟨hsign, hmagnitude⟩ := signChars_append_inj (head?_magnitudeText hdigits x)
    (head?_magnitudeText hdigits y) hlist
  exact eq_of_magnitudeText_eq hdigits enough hx hy fitsX fitsY hsign hmagnitude

theorem bits_eq_of_general_eq {a b : ℕ} (enough : 2 * f.hidden ≤ 10 ^ (digits - 1))
    (ha : a < 2 * (f.exponents * f.hidden)) (hb : b < 2 * (f.exponents * f.hidden))
    (hanan : ofBits f a ≠ nan) (hbnan : ofBits f b ≠ nan)
    (h : general (ofBits f a) digits = general (ofBits f b) digits) : a = b := by
  have hsame : ofBits f a = ofBits f b :=
    eq_of_general_eq enough hanan hbnan (fits_ofBits f a) (fits_ofBits f b) h
  have hpattern := toBits?_ofBits ha hanan
  rw [hsame, toBits?_ofBits hb hbnan] at hpattern
  exact (Option.some.inj hpattern).symm

/-! ### Double and single precision -/

theorem enough_double (h : 17 ≤ digits) : 2 * BinaryFormat.double.hidden ≤ 10 ^ (digits - 1) :=
  calc 2 * BinaryFormat.double.hidden ≤ 10 ^ 16 := by decide +kernel
    _ ≤ 10 ^ (digits - 1) := Nat.pow_le_pow_right (by norm_num) (by omega)

theorem enough_single (h : 9 ≤ digits) : 2 * BinaryFormat.single.hidden ≤ 10 ^ (digits - 1) :=
  calc 2 * BinaryFormat.single.hidden ≤ 10 ^ 8 := by decide +kernel
    _ ≤ 10 ^ (digits - 1) := Nat.pow_le_pow_right (by norm_num) (by omega)

theorem lt_patterns_double (a : UInt64) :
    a.toNat < 2 * (BinaryFormat.double.exponents * BinaryFormat.double.hidden) :=
  a.toNat_lt

theorem lt_patterns_single (a : UInt32) :
    a.toNat < 2 * (BinaryFormat.single.exponents * BinaryFormat.single.hidden) :=
  a.toNat_lt

theorem text_float32 (o : Options) (escape : Bool) (a : UInt32) :
    (Scalar.read? .float32 (Bytes.ofNat 4 a.toNat)).map (·.map (Scalar.text o escape))
      = some (.ok (general (ofBits .single a.toNat) o.float32Digits)) := by
  have hlt : a.toNat < Bytes.limit 4 := by
    rw [Bytes.limit_four]
    exact a.toNat_lt
  rw [Scalar.read?, Bytes.word_ofNat hlt]
  rfl

/-- **Different numbers have different texts**, given seventeen digits for double precision
    and nine for single precision.  The two zeros are different numbers here, and so are the
    two infinities. -/
theorem general_faithful :
    (∀ digits, 17 ≤ digits → ∀ a b : UInt64,
      ofBits .double a.toNat ≠ nan → ofBits .double b.toNat ≠ nan → a ≠ b →
      general (ofBits .double a.toNat) digits ≠ general (ofBits .double b.toNat) digits)
    ∧ ∀ (o : Options) (escape : Bool), 9 ≤ o.float32Digits → ∀ a b : UInt32,
      ofBits .single a.toNat ≠ nan → ofBits .single b.toNat ≠ nan → a ≠ b →
      ∃ s t, s ≠ t
        ∧ (Scalar.read? .float32 (Bytes.ofNat 4 a.toNat)).map (·.map (Scalar.text o escape))
          = some (.ok s)
        ∧ (Scalar.read? .float32 (Bytes.ofNat 4 b.toNat)).map (·.map (Scalar.text o escape))
          = some (.ok t) := by
  constructor
  · intro digits hdigits a b ha hb hne heq
    apply hne
    exact UInt64.toNat_inj.mp (bits_eq_of_general_eq (enough_double hdigits)
      (lt_patterns_double a) (lt_patterns_double b) ha hb heq)
  · intro o escape hdigits a b ha hb hne
    refine ⟨_, _, ?_, text_float32 o escape a, text_float32 o escape b⟩
    intro heq
    apply hne
    exact UInt32.toNat_inj.mp (bits_eq_of_general_eq (enough_single hdigits)
      (lt_patterns_single a) (lt_patterns_single b) ha hb heq)

/-- One tenth and the number above it, in both precisions: the last digit tells them apart. -/
theorem general_faithful_neighbours :
    (ofBits .double 0x3fb999999999999a ≠ nan ∧ ofBits .double 0x3fb999999999999b ≠ nan
      ∧ general (ofBits .double 0x3fb999999999999a) 17
        ≠ general (ofBits .double 0x3fb999999999999b) 17)
    ∧ ofBits .single 0x3dcccccd ≠ nan ∧ ofBits .single 0x3dccccce ≠ nan
      ∧ ∃ s t, s ≠ t
        ∧ (Scalar.read? .float32 (Bytes.ofNat 4 0x3dcccccd)).map
            (·.map (Scalar.text { float32Digits := 9 } false)) = some (.ok s)
        ∧ (Scalar.read? .float32 (Bytes.ofNat 4 0x3dccccce)).map
            (·.map (Scalar.text { float32Digits := 9 } false)) = some (.ok t) := by
  have hdouble : ofBits .double 0x3fb999999999999a ≠ nan := by decide +kernel
  have hdouble' : ofBits .double 0x3fb999999999999b ≠ nan := by decide +kernel
  have hsingle : ofBits .single 0x3dcccccd ≠ nan := by decide +kernel
  have hsingle' : ofBits .single 0x3dccccce ≠ nan := by decide +kernel
  exact ⟨⟨hdouble, hdouble', general_faithful.1 17 le_rfl 0x3fb999999999999a 0x3fb999999999999b
      hdouble hdouble' (by decide)⟩,
    hsingle, hsingle', general_faithful.2 { float32Digits := 9 } false le_rfl 0x3dcccccd
      0x3dccccce hsingle hsingle' (by decide)⟩

end Floating

end Inspector
