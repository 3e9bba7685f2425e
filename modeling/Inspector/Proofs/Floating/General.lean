/-
  Inspector/Proofs/Floating/General.lean
  ======================================
  **General notation is the correctly rounded number.**

  The text of a number, read back without rounding, is the number rounded to the
  significant digits that were asked for (`general_rounded`).  The place of the rounded
  number's first digit decides between the two notations.  The notation with a point
  rounds a second time, at a place that depends on the first rounding; both notations
  still stand for the same number.

  The file goes from digit strings to texts to numbers: what zeros at either end of a
  digit string weigh, what the two notations look like and say, and last how that fits
  the rounding of fractions.
-/
import Inspector.Floating.Reading
import Inspector.Proofs.Floating.Rounding
import Inspector.Proofs.Text.Digits
import Mathlib.Data.List.DropRight

namespace Inspector.Floating

open Text

/-! ### Digits with zeros at an end -/

/-- What digits behind a point weigh. -/
def fractionValue (cs : List Char) : ℚ :=
  Nat.ofDigitChars 10 cs 0 / 10 ^ cs.length

theorem ofDigitChars_pointed_value (whole fraction : List Char) :
    (Nat.ofDigitChars 10 (whole ++ fraction) 0 : ℚ) / 10 ^ fraction.length
      = Nat.ofDigitChars 10 whole 0 + fractionValue fraction := by
  have hpow : (10 : ℚ) ^ fraction.length ≠ 0 := pow_ne_zero _ (by norm_num)
  rw [ofDigitChars_append_zero, fractionValue, div_eq_iff hpow, add_mul,
    div_mul_cancel₀ _ hpow]
  push_cast
  ring

theorem trimZeros_eq (cs : List Char) : trimZeros cs = cs.rdropWhile (· == '0') := rfl

theorem trimZeros_append_zeros (cs : List Char) :
    ∃ n, cs = trimZeros cs ++ List.replicate n '0' := by
  refine ⟨(cs.rtakeWhile (· == '0')).length, ?_⟩
  have hzeros : cs.rtakeWhile (· == '0')
      = List.replicate (cs.rtakeWhile (· == '0')).length '0' := by
    apply List.eq_replicate_of_mem
    intro c hc
    have hzero : (c == '0') = true := List.mem_rtakeWhile_imp (p := (· == '0')) hc
    exact eq_of_beq hzero
  rw [← hzeros, trimZeros_eq, List.rdropWhile_append_rtakeWhile]

theorem fractionValue_trimZeros (cs : List Char) :
    fractionValue (trimZeros cs) = fractionValue cs := by
  obtain ⟨n, hn⟩ := trimZeros_append_zeros cs
  have hpow : (10 : ℚ) ^ n ≠ 0 := pow_ne_zero _ (by norm_num)
  conv_rhs => rw [hn]
  rw [fractionValue, fractionValue, ofDigitChars_append_zero, List.length_append,
    List.length_replicate, Nat.ofDigitChars_replicate_zero, Nat.mul_zero, Nat.add_zero,
    Nat.cast_mul, Nat.cast_pow, Nat.cast_ofNat, pow_add, mul_comm ((10 : ℚ) ^ n) _,
    mul_div_mul_right _ _ hpow]

theorem getLast?_trimZeros (cs : List Char) : (trimZeros cs).getLast? ≠ some '0' := by
  intro hlast
  have hne : trimZeros cs ≠ [] := by
    intro hnil
    rw [hnil] at hlast
    cases hlast
  have hkept := List.rdropWhile_last_not (· == '0') cs hne
  rw [List.getLast?_eq_some_getLast hne] at hlast
  exact hkept (beq_iff_eq.mpr (Option.some.inj hlast))

theorem allDigits_trimZeros {cs : List Char} (h : AllDigits cs) : AllDigits (trimZeros cs) :=
  h.mono (List.rdropWhile_prefix _ cs).subset

theorem length_trimZeros_le (cs : List Char) : (trimZeros cs).length ≤ cs.length :=
  (List.rdropWhile_prefix _ cs).length_le

/-- Zeros in front do not count as digits of a number. -/
theorem length_dropWhile_zero_le {cs : List Char} (h : AllDigits cs) {n : ℕ}
    (hlt : Nat.ofDigitChars 10 cs 0 < 10 ^ n) : (cs.dropWhile (· == '0')).length ≤ n := by
  induction cs with
  | nil => exact Nat.zero_le n
  | cons c cs ih =>
    by_cases hzero : c = '0'
    · subst hzero
      rw [List.dropWhile_cons_of_pos (by decide)]
      exact ih (fun d hd => h d (List.mem_cons_of_mem _ hd)) hlt
    · rw [List.dropWhile_cons_of_neg (by simpa using hzero), List.length_cons]
      have hdigit : 1 ≤ c.toNat - '0'.toNat := by
        have hc := h c List.mem_cons_self
        rw [Char.isDigit, Bool.and_eq_true, decide_eq_true_eq, decide_eq_true_eq] at hc
        have hge : 48 ≤ c.toNat := hc.1
        have hne : c.toNat ≠ 48 := fun heq => hzero (Char.toNat_inj.mp heq)
        show 1 ≤ c.toNat - 48
        omega
      rw [Nat.ofDigitChars_cons, Nat.ofDigitChars_eq_ofDigitChars_zero, Nat.mul_zero,
        Nat.zero_add] at hlt
      have hpow : 10 ^ cs.length < 10 ^ n := by
        have hle : 10 ^ cs.length * 1 ≤ 10 ^ cs.length * (c.toNat - '0'.toNat) :=
          Nat.mul_le_mul_left _ hdigit
        omega
      exact (Nat.pow_lt_pow_iff_right (by norm_num)).mp hpow

/-! ### Digits filled up with zeros -/

theorem allDigits_paddedDigits (width n : ℕ) : AllDigits (paddedDigits width n) :=
  allDigits_leftpad (allDigits_toDigits n) width

theorem ofDigitChars_paddedDigits (width n : ℕ) :
    Nat.ofDigitChars 10 (paddedDigits width n) 0 = n := by
  rw [paddedDigits, ofDigitChars_leftpad, Nat.ofDigitChars_ten_toDigits]

theorem le_length_paddedDigits (width n : ℕ) : width ≤ (paddedDigits width n).length := by
  rw [paddedDigits, List.length_leftpad]
  exact Nat.le_max_left _ _

theorem length_paddedDigits {width n : ℕ} (hpos : 0 < width) (hn : n < 10 ^ width) :
    (paddedDigits width n).length = width := by
  rw [paddedDigits, List.length_leftpad]
  exact Nat.max_eq_left ((Nat.length_toDigits_le_iff (by norm_num) hpos).mpr hn)

theorem fractionValue_paddedDigits {width n : ℕ} (hn : n < 10 ^ width) :
    fractionValue (paddedDigits width n) = n / 10 ^ width := by
  rcases Nat.eq_zero_or_pos width with rfl | hpos
  · have hzero : n = 0 := by omega
    rw [hzero, fractionValue, ofDigitChars_paddedDigits, Nat.cast_zero, zero_div, zero_div]
  · rw [fractionValue, ofDigitChars_paddedDigits, length_paddedDigits hpos hn]

/-- No digits are kept of a fraction without places, though it is written with a zero. -/
theorem length_trimZeros_paddedDigits_le {width n : ℕ} (hn : n < 10 ^ width) :
    (trimZeros (paddedDigits width n)).length ≤ width := by
  rcases Nat.eq_zero_or_pos width with rfl | hpos
  · have hzero : n = 0 := by omega
    rw [hzero]
    decide
  · exact (length_trimZeros_le _).trans (length_paddedDigits hpos hn).le

/-! ### Reading -/

def signed (negative : Bool) (x : ℚ) : ℚ :=
  if negative then -x else x

def Reading.value (r : Reading) : ℚ :=
  signed r.negative (r.spelled * 10 ^ r.exponent)

/-- The number that the text of a finite number stands for. -/
def textValue? (cs : List Char) : Option ℚ :=
  (read? cs).map Reading.value

theorem joinFraction_eq (whole fraction : List Char) :
    joinFraction whole fraction = pointed whole (trimZeros fraction) := by
  rw [joinFraction]
  split
  · next h => rw [h, pointed_nil]
  · next h => rw [pointed_of_ne_nil _ h]

/-- Digits around a point, and perhaps a power of ten behind them. -/
theorem textValue?_pointed (negative : Bool) {whole kept suffix : List Char} {exponent : ℤ}
    (hne : whole ≠ []) (hwhole : AllDigits whole) (hkept : AllDigits kept)
    (hsuffix : ∀ c ∈ suffix.head?, c = 'e') (hexp : readExponent? suffix = some exponent) :
    textValue? (signChars negative ++ (pointed whole kept ++ suffix))
      = some (signed negative
          ((Nat.ofDigitChars 10 whole 0 + fractionValue kept) * 10 ^ exponent)) := by
  have hmantissa : ∀ c ∈ pointed whole kept, (c != 'e') = true :=
    fun c hc => bne_iff_ne.mpr (ne_of_mem_pointed hwhole hkept rfl (by decide) c hc)
  have htake : suffix.takeWhile (· != 'e') = [] := by
    cases suffix with
    | nil => rfl
    | cons c _ => exact List.takeWhile_cons_of_neg (by simp [hsuffix c rfl])
  have hdrop : suffix.dropWhile (· != 'e') = suffix := by
    cases suffix with
    | nil => rfl
    | cons c _ => exact List.dropWhile_cons_of_neg (by simp [hsuffix c rfl])
  have hsign : readSign (signChars negative ++ (pointed whole kept ++ suffix))
      = (negative, pointed whole kept ++ suffix) := by
    rw [pointed, List.append_assoc]
    exact readSign_sign negative hne hwhole
  have hread : read? (signChars negative ++ (pointed whole kept ++ suffix))
      = some ⟨negative, Nat.ofDigitChars 10 (whole ++ kept) 0, exponent - kept.length⟩ := by
    simp only [read?, hsign, List.takeWhile_append_of_pos hmantissa,
      List.dropWhile_append_of_pos hmantissa, htake, hdrop, List.append_nil,
      readPlaces?_pointed hne hwhole hkept, hexp]
    rfl
  have hten : (10 : ℚ) ≠ 0 := by norm_num
  rw [textValue?, hread, Option.map_some, Reading.value, ← ofDigitChars_pointed_value,
    zpow_sub₀ hten, zpow_natCast]
  congr 2
  ring

/-! ### What the two notations look like -/

/-- Digits around a point, with no zero that could be left out, and with a limit on the
    digits behind the zeros in front. -/
structure IsMantissa (digits : ℕ) (whole kept : List Char) : Prop where
  whole_ne_nil : whole ≠ []
  whole_digits : AllDigits whole
  kept_digits : AllDigits kept
  leading : whole = ['0'] ∨ whole.head? ≠ some '0'
  trailing : kept.getLast? ≠ some '0'
  significant : ((whole ++ kept).dropWhile (· == '0')).length ≤ digits

def IsFixed (digits : ℕ) (cs : List Char) : Prop :=
  ∃ whole kept, IsMantissa digits whole kept ∧ cs = pointed whole kept

def IsScientific (digits : ℕ) (exponent : ℤ) (cs : List Char) : Prop :=
  ∃ first kept power, IsMantissa digits [first] kept ∧ first ≠ '0'
    ∧ AllDigits power ∧ 2 ≤ power.length ∧ Nat.ofDigitChars 10 power 0 = exponent.natAbs
    ∧ cs = pointed [first] kept ++ 'e' :: (if exponent < 0 then '-' else '+') :: power

/-! ### Fixed notation -/

/-- The digits in front of the point if the last `places` digits stand behind it. -/
def wholePart (n places : ℕ) : List Char :=
  Nat.toDigits 10 (n / 10 ^ places)

def keptPart (n places : ℕ) : List Char :=
  trimZeros (paddedDigits places (n % 10 ^ places))

theorem fixed_eq (x : Fraction) (places : ℕ) :
    fixed x places
      = pointed (wholePart (x.scale places).round places)
          (keptPart (x.scale places).round places) := by
  rw [fixed, joinFraction_eq, Nat.pow_eq, wholePart, keptPart]

theorem wholePart_ne_nil (n places : ℕ) : wholePart n places ≠ [] :=
  Nat.toDigits_ne_nil

theorem allDigits_wholePart (n places : ℕ) : AllDigits (wholePart n places) :=
  allDigits_toDigits _

theorem allDigits_keptPart (n places : ℕ) : AllDigits (keptPart n places) :=
  allDigits_trimZeros (allDigits_paddedDigits _ _)

/-- The whole digits and the digits kept of the fraction are the number. -/
theorem parts_value (n places : ℕ) :
    (Nat.ofDigitChars 10 (wholePart n places) 0 : ℚ) + fractionValue (keptPart n places)
      = n / 10 ^ places := by
  have hpow : (10 : ℚ) ^ places ≠ 0 := pow_ne_zero _ (by norm_num)
  have hlt : n % 10 ^ places < 10 ^ places := Nat.mod_lt _ (Nat.pow_pos (by norm_num))
  have hsplit : (n : ℚ) = 10 ^ places * (n / 10 ^ places : ℕ) + (n % 10 ^ places : ℕ) := by
    exact_mod_cast (Nat.div_add_mod n (10 ^ places)).symm
  rw [wholePart, keptPart, Nat.ofDigitChars_ten_toDigits, fractionValue_trimZeros,
    fractionValue_paddedDigits hlt, eq_div_iff hpow, add_mul, div_mul_cancel₀ _ hpow, hsplit]
  ring

/-- Without the zeros at its end, the number that all digits spell is no larger. -/
theorem ofDigitChars_parts_le (n places : ℕ) :
    Nat.ofDigitChars 10 (wholePart n places ++ keptPart n places) 0 ≤ n := by
  have hten : (10 : ℚ) ≠ 0 := by norm_num
  have hlt : n % 10 ^ places < 10 ^ places := Nat.mod_lt _ (Nat.pow_pos (by norm_num))
  have hlength : (keptPart n places).length ≤ places := length_trimZeros_paddedDigits_le hlt
  have hvalue := ofDigitChars_pointed_value (wholePart n places) (keptPart n places)
  rw [parts_value, div_eq_div_iff (pow_ne_zero _ hten) (pow_ne_zero _ hten)] at hvalue
  have hcross : Nat.ofDigitChars 10 (wholePart n places ++ keptPart n places) 0 * 10 ^ places
      = n * 10 ^ (keptPart n places).length := by exact_mod_cast hvalue
  have hpow : 0 < 10 ^ places := Nat.pow_pos (by norm_num)
  -- both numbers with the same places behind the point
  refine Nat.le_of_mul_le_mul_right ?_ hpow
  rw [hcross]
  exact Nat.mul_le_mul_left _ (Nat.pow_le_pow_right (by norm_num) hlength)

theorem isFixed_fixed {x : Fraction} {places digits : ℕ}
    (hlt : (x.scale places).round < 10 ^ digits) : IsFixed digits (fixed x places) := by
  refine ⟨_, _, ?_, fixed_eq x places⟩
  generalize (x.scale places).round = n at hlt
  exact {
    whole_ne_nil := wholePart_ne_nil n places
    whole_digits := allDigits_wholePart n places
    kept_digits := allDigits_keptPart n places
    leading := toDigits_eq_zero_or_head? (by decide) (by decide) _
    trailing := getLast?_trimZeros _
    significant := by
      apply length_dropWhile_zero_le
      · exact allDigits_append.mpr ⟨allDigits_wholePart n places, allDigits_keptPart n places⟩
      · exact (ofDigitChars_parts_le n places).trans_lt hlt }

theorem textValue?_fixed (negative : Bool) (x : Fraction) (places : ℕ) :
    textValue? (signChars negative ++ fixed x places)
      = some (signed negative ((x.scale places).round / 10 ^ places)) := by
  rw [fixed_eq]
  generalize (x.scale places).round = n
  have hread : textValue? (signChars negative
      ++ (pointed (wholePart n places) (keptPart n places) ++ [])) = _ :=
    textValue?_pointed negative (wholePart_ne_nil n places) (allDigits_wholePart n places)
      (allDigits_keptPart n places) (by simp) rfl
  rw [List.append_nil, parts_value, zpow_zero, mul_one] at hread
  exact hread

/-! ### Scientific notation -/

theorem readExponent?_written (exponent : ℤ) (width : ℕ) :
    readExponent? ('e' :: (if exponent < 0 then '-' else '+')
      :: paddedDigits width exponent.natAbs) = some exponent := by
  have hne : paddedDigits width exponent.natAbs ≠ [] := by
    rw [paddedDigits, List.leftpad]
    exact List.append_ne_nil_of_right_ne_nil _ Nat.toDigits_ne_nil
  have hdigits := readDigits?_eq hne (allDigits_paddedDigits width exponent.natAbs)
  rw [ofDigitChars_paddedDigits] at hdigits
  by_cases h : exponent < 0
  · rw [if_pos h]
    show (readDigits? _).map (-Int.ofNat ·) = _
    rw [hdigits, Option.map_some]
    congr 1
    show -(exponent.natAbs : ℤ) = exponent
    omega
  · rw [if_neg h]
    show (readDigits? _).map Int.ofNat = _
    rw [hdigits, Option.map_some]
    congr 1
    show (exponent.natAbs : ℤ) = exponent
    omega

variable {r : Fraction.Rounded} {digits : ℕ}

/-- The first digit and the digits kept of the others. -/
theorem scientific_eq (h : r.HasDigits digits) :
    ∃ first kept, IsMantissa digits [first] kept ∧ first ≠ '0'
      ∧ (Nat.ofDigitChars 10 [first] 0 : ℚ) + fractionValue kept
          = r.spelled / 10 ^ (digits - 1)
      ∧ scientific r = pointed [first] kept
          ++ 'e' :: (if r.exponent < 0 then '-' else '+')
            :: paddedDigits 2 r.exponent.natAbs := by
  obtain ⟨hpos, hlow, hhigh⟩ := h
  have hlength := length_toDigits hpos hlow hhigh
  have hall := allDigits_toDigits r.spelled
  have hspelled := Nat.ofDigitChars_ten_toDigits (n := r.spelled)
  have hhead : (Nat.toDigits 10 r.spelled).head? ≠ some '0' := by
    apply head?_toDigits_ne_zero (by decide) (by decide)
    have := Nat.pow_pos (n := digits - 1) (by norm_num : 0 < 10)
    omega
  rw [scientific, joinFraction_eq]
  cases hdigits : Nat.toDigits 10 r.spelled with
  | nil => exact absurd hdigits Nat.toDigits_ne_nil
  | cons first rest =>
    rw [hdigits] at hlength hall hspelled hhead
    have hfirst : first ≠ '0' := fun h => hhead (by rw [h, List.head?_cons])
    have hrest : AllDigits rest := fun c hc => hall c (List.mem_cons_of_mem _ hc)
    have hplaces : rest.length = digits - 1 := by
      rw [List.length_cons] at hlength
      omega
    refine ⟨first, trimZeros rest, ?_, hfirst, ?_, rfl⟩
    · exact {
        whole_ne_nil := List.cons_ne_nil _ _
        whole_digits := by
          intro c hc
          rw [List.mem_singleton.mp hc]
          exact hall first List.mem_cons_self
        kept_digits := allDigits_trimZeros hrest
        leading := Or.inr hhead
        trailing := getLast?_trimZeros rest
        significant := by
          rw [List.singleton_append, List.dropWhile_cons_of_neg (by simpa using hfirst),
            List.length_cons]
          have := length_trimZeros_le rest
          omega }
    · rw [fractionValue_trimZeros, ← ofDigitChars_pointed_value, hplaces,
        List.singleton_append, hspelled]

theorem isScientific_scientific (h : r.HasDigits digits) :
    IsScientific digits r.exponent (scientific r) := by
  obtain ⟨first, kept, hmantissa, hfirst, _, htext⟩ := scientific_eq h
  exact ⟨first, kept, paddedDigits 2 r.exponent.natAbs, hmantissa, hfirst,
    allDigits_paddedDigits _ _, le_length_paddedDigits _ _, ofDigitChars_paddedDigits _ _,
    htext⟩

theorem textValue?_scientific (negative : Bool) (h : r.HasDigits digits) :
    textValue? (signChars negative ++ scientific r)
      = some (signed negative (r.spelled * 10 ^ (r.exponent - ((digits : ℤ) - 1)))) := by
  obtain ⟨first, kept, hmantissa, _, hvalue, htext⟩ := scientific_eq h
  have hread := textValue?_pointed negative hmantissa.whole_ne_nil hmantissa.whole_digits
    hmantissa.kept_digits (by simp) (readExponent?_written r.exponent 2)
  have hcast : ((digits - 1 : ℕ) : ℤ) = (digits : ℤ) - 1 := by
    have := h.digits_pos
    omega
  rw [htext, hread, hvalue, ← hcast, zpow_sub₀ (by norm_num), zpow_natCast]
  congr 2
  ring

/-! ### Rounded fractions -/

section Rounded

open Fraction

variable {y : Fraction} (hnum : 0 < y.num) (hden : 0 < y.den) (hdigits : 0 < digits)

include hnum hden hdigits

theorem textValue?_scientific_roundTo (negative : Bool) :
    textValue? (signChars negative ++ scientific (y.roundTo digits))
      = some (signed negative (roundSignificant digits y.value)) := by
  rw [textValue?_scientific negative (hasDigits_roundTo hnum hden hdigits),
    roundTo_eq hnum hden hdigits]

/-- The second rounding finds the digits of the first. -/
theorem round_places (he : (y.roundTo digits).exponent < digits) :
    (y.scale ((digits : ℤ) - 1 - (y.roundTo digits).exponent).toNat).round
      = (y.roundTo digits).spelled := by
  rw [Int.toNat_of_nonneg (by omega), round_scale_roundTo hnum hden hdigits]

theorem isFixed_roundTo (he : (y.roundTo digits).exponent < digits) :
    IsFixed digits (fixed y ((digits : ℤ) - 1 - (y.roundTo digits).exponent).toNat) := by
  apply isFixed_fixed
  rw [round_places hnum hden hdigits he]
  exact (hasDigits_roundTo hnum hden hdigits).high

theorem textValue?_fixed_roundTo (negative : Bool) (he : (y.roundTo digits).exponent < digits) :
    textValue? (signChars negative
        ++ fixed y ((digits : ℤ) - 1 - (y.roundTo digits).exponent).toNat)
      = some (signed negative (roundSignificant digits y.value)) := by
  have hplaces : (((digits : ℤ) - 1 - (y.roundTo digits).exponent).toNat : ℤ)
      = -((y.roundTo digits).exponent - ((digits : ℤ) - 1)) := by omega
  rw [textValue?_fixed, round_places hnum hden hdigits he, ← roundTo_eq hnum hden hdigits,
    ← zpow_natCast, hplaces, zpow_neg, div_inv_eq_mul]

theorem roundSignificant_pos : 0 < roundSignificant digits y.value := by
  rw [← roundTo_eq hnum hden hdigits]
  have hspelled : 0 < (y.roundTo digits).spelled :=
    (Nat.pow_pos (by norm_num)).trans_le (hasDigits_roundTo hnum hden hdigits).low
  have hunit : (0 : ℚ) < 10 ^ ((y.roundTo digits).exponent - ((digits : ℤ) - 1)) :=
    zpow_pos (by norm_num) _
  exact mul_pos (by exact_mod_cast hspelled) hunit

end Rounded

/-! ### Signs -/

theorem abs_signed (negative : Bool) (x : ℚ) : |signed negative x| = |x| := by
  cases negative with
  | false => rfl
  | true => exact abs_neg x

theorem roundSignificant_signed (digits : ℕ) (negative : Bool) (x : ℚ) :
    roundSignificant digits (signed negative x)
      = signed negative (roundSignificant digits x) := by
  cases negative with
  | false => rfl
  | true => exact roundSignificant_neg digits x

theorem signed_lt_zero_iff {negative : Bool} {x : ℚ} (hx : 0 < x) :
    signed negative x < 0 ↔ negative = true := by
  cases negative with
  | false => simpa [signed] using hx.le
  | true => simpa [signed] using hx

/-! ### General notation -/

/-- The number that a finite float is. -/
def value? : Floating → Option ℚ
  | finite negative m q => some (signed negative (m * 2 ^ q))
  | _ => none

/-- The place of the first digit of a rounded number. -/
def roundedExponent (digits : ℕ) (x : ℚ) : ℤ :=
  Int.log 10 |roundSignificant digits x|

/-- Whether a rounded number is written without a power of ten. -/
def IsPlain (digits : ℕ) (exponent : ℤ) : Prop :=
  -4 ≤ exponent ∧ exponent < digits

/-- The general notation of a number that is rounded to significant digits. -/
structure IsGeneral (digits : ℕ) (x : ℚ) (text : List Char) : Prop where
  value : textValue? text = some (roundSignificant digits x)
  sign : text.head? = some '-' ↔ x < 0
  plain : 'e' ∉ text ↔ IsPlain digits (roundedExponent digits x)
  body : ∃ body, text = signChars (decide (x < 0)) ++ body
    ∧ (IsPlain digits (roundedExponent digits x) → IsFixed digits body)
    ∧ (¬IsPlain digits (roundedExponent digits x)
      → IsScientific digits (roundedExponent digits x) body)

theorem isScientific_iff {exponent : ℤ} {digits : ℕ} :
    isScientific exponent digits = true ↔ ¬IsPlain digits exponent := by
  rw [isScientific, IsPlain, Bool.or_eq_true, decide_eq_true_eq, decide_eq_true_eq]
  omega

theorem IsFixed.head? {cs : List Char} (h : IsFixed digits cs) : cs.head? ≠ some '-' := by
  obtain ⟨whole, kept, hmantissa, rfl⟩ := h
  rw [pointed, List.head?_append_of_ne_nil _ hmantissa.whole_ne_nil]
  intro hhead
  exact hmantissa.whole_digits.ne rfl _ (List.mem_of_mem_head? hhead) rfl

theorem IsFixed.not_mem {cs : List Char} (h : IsFixed digits cs) : 'e' ∉ cs := by
  obtain ⟨whole, kept, hmantissa, rfl⟩ := h
  intro hmem
  exact ne_of_mem_pointed hmantissa.whole_digits hmantissa.kept_digits rfl (by decide) _ hmem rfl

theorem IsScientific.head? {exponent : ℤ} {cs : List Char}
    (h : IsScientific digits exponent cs) : cs.head? ≠ some '-' := by
  obtain ⟨first, kept, power, hmantissa, _, _, _, _, rfl⟩ := h
  rw [pointed, List.singleton_append, List.cons_append, List.head?_cons]
  intro hhead
  exact hmantissa.whole_digits.ne rfl first List.mem_cons_self (Option.some.inj hhead)

theorem IsScientific.mem {exponent : ℤ} {cs : List Char}
    (h : IsScientific digits exponent cs) : 'e' ∈ cs := by
  obtain ⟨first, kept, power, _, _, _, _, _, rfl⟩ := h
  exact List.mem_append_right _ List.mem_cons_self

theorem head?_signChars {negative : Bool} {body : List Char} (h : body.head? ≠ some '-') :
    (signChars negative ++ body).head? = some '-' ↔ negative = true := by
  cases negative with
  | false =>
    show body.head? = some '-' ↔ _
    simp [h]
  | true => simp [signChars]

theorem mem_signChars {negative : Bool} {body : List Char} :
    'e' ∈ signChars negative ++ body ↔ 'e' ∈ body := by
  cases negative <;> simp [signChars]

theorem isGeneral_positive {y : Fraction} (hnum : 0 < y.num) (hden : 0 < y.den)
    (hdigits : 0 < digits) (negative : Bool) :
    IsGeneral digits (signed negative y.value) (signChars negative ++ positive y digits) := by
  have hpos := y.value_pos hnum hden
  have hrounded := roundSignificant_pos hnum hden hdigits
  have hexponent : roundedExponent digits (signed negative y.value)
      = (y.roundTo digits).exponent := by
    rw [roundedExponent, roundSignificant_signed, abs_signed, abs_of_pos hrounded,
      Fraction.log_roundSignificant hnum hden hdigits]
  have hsign : decide (signed negative y.value < 0) = negative := by
    rw [Bool.eq_iff_iff, decide_eq_true_eq]
    exact signed_lt_zero_iff hpos
  by_cases h : IsPlain digits (y.roundTo digits).exponent
  · have hbody := isFixed_roundTo hnum hden hdigits h.2
    have htext : positive y digits
        = fixed y ((digits : ℤ) - 1 - (y.roundTo digits).exponent).toNat := by
      rw [positive, if_neg (mt isScientific_iff.mp (not_not.mpr h))]
    rw [htext]
    constructor
    · rw [textValue?_fixed_roundTo hnum hden hdigits negative h.2, roundSignificant_signed]
    · rw [head?_signChars hbody.head?, signed_lt_zero_iff hpos]
    · rw [mem_signChars, hexponent]
      exact iff_of_true hbody.not_mem h
    · rw [hsign, hexponent]
      exact ⟨_, rfl, fun _ => hbody, fun hplain => absurd h hplain⟩
  · have hbody := isScientific_scientific (Fraction.hasDigits_roundTo hnum hden hdigits)
    have htext : positive y digits = scientific (y.roundTo digits) := by
      rw [positive, if_pos (isScientific_iff.mpr h)]
    rw [htext]
    constructor
    · rw [textValue?_scientific_roundTo hnum hden hdigits, roundSignificant_signed]
    · rw [head?_signChars hbody.head?, signed_lt_zero_iff hpos]
    · rw [mem_signChars, hexponent]
      exact iff_of_false (not_not.mpr hbody.mem) h
    · rw [hsign, hexponent]
      exact ⟨_, rfl, fun hplain => absurd hplain h, fun _ => hbody⟩

/-- **The general notation of a number is the number rounded to its significant digits.**
    Rounded again at the place where these digits end, or spelled with a power of ten, the
    number is the same, also where the first rounding carries. -/
theorem general_rounded {x : Floating} {v : ℚ} (hx : x.value? = some v) (hv : v ≠ 0)
    (digits : ℕ) :
    let p := max digits 1
    IsGeneral p v (general x digits).toList
      ∧ ∀ y : Fraction, 0 < y.den → y.value = |v| → roundedExponent p v < p →
        textValue? (fixed y (p - 1 - roundedExponent p v).toNat) = some |roundSignificant p v|
          ∧ textValue? (scientific (y.roundTo p)) = some |roundSignificant p v| := by
  intro p
  have hp : 0 < p := Nat.lt_of_lt_of_le Nat.zero_lt_one (Nat.le_max_right digits 1)
  constructor
  · cases x with
    | nan => cases hx
    | infinite negative => cases hx
    | finite negative m q =>
      obtain rfl : signed negative (m * 2 ^ q) = v := Option.some.inj hx
      have hm : m ≠ 0 := by
        rintro rfl
        apply hv
        cases negative <;> simp [signed]
      have hnum : 0 < (Fraction.ofBinary m q).num :=
        Nat.mul_pos (Nat.pos_of_ne_zero hm) (Nat.pow_pos (by norm_num))
      have htext : (general (.finite negative m q) digits).toList
          = signChars negative ++ positive (.ofBinary m q) p := by
        rw [general, if_neg hm, String.toList_ofList]
      rw [htext, ← Fraction.ofBinary_value]
      exact isGeneral_positive hnum (Fraction.ofBinary_den_pos m q) hp negative
  · intro y hden hy he
    have hnum : 0 < y.num := by
      apply Nat.pos_of_ne_zero
      intro hzero
      rw [Fraction.value, hzero, Nat.cast_zero, zero_div] at hy
      exact hv (abs_eq_zero.mp hy.symm)
    have habs : |roundSignificant p v| = roundSignificant p y.value := by
      rw [← abs_of_pos (roundSignificant_pos hnum hden hp), hy]
      rcases abs_choice v with h | h
      · rw [h]
      · rw [h, roundSignificant_neg, abs_neg]
    have hexponent : roundedExponent p v = (y.roundTo p).exponent := by
      rw [roundedExponent, habs, Fraction.log_roundSignificant hnum hden hp]
    rw [hexponent] at he ⊢
    rw [habs]
    exact ⟨textValue?_fixed_roundTo hnum hden hp false he,
      textValue?_scientific_roundTo hnum hden hp false⟩

/-- One half below a hundred thousand: five digits carry into a sixth. -/
theorem general_rounded_carrying :
    (ofBits .double 0x40f869f800000000).value? = some (199999 / 2) ∧ (199999 / 2 : ℚ) ≠ 0
      ∧ IsGeneral (max 5 1) (199999 / 2) (general (ofBits .double 0x40f869f800000000) 5).toList
      ∧ ∀ y : Fraction, 0 < y.den → y.value = |(199999 / 2 : ℚ)| →
        roundedExponent (max 5 1) (199999 / 2) < (max 5 1 : ℕ) →
        textValue? (fixed y ((max 5 1 : ℕ) - 1 - roundedExponent (max 5 1) (199999 / 2)).toNat)
            = some |roundSignificant (max 5 1) (199999 / 2)|
          ∧ textValue? (scientific (y.roundTo (max 5 1)))
            = some |roundSignificant (max 5 1) (199999 / 2)| := by
  have hbits : ofBits .double 0x40f869f800000000 = finite false 6871913313861632 (-36) := by
    decide +kernel
  have hx : (ofBits .double 0x40f869f800000000).value? = some (199999 / 2) := by
    rw [hbits, value?, signed, if_neg Bool.false_ne_true]
    norm_num
  have hv : (199999 / 2 : ℚ) ≠ 0 := by norm_num
  exact ⟨hx, hv, general_rounded hx hv 5⟩

end Inspector.Floating
