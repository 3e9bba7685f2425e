/-
  Inspector/Proofs/Text/Digits.lean
  =================================
  **Digit strings, written and read.**

  Decimals and floating-point numbers share one form of text: whole digits, and perhaps
  a point with more digits behind it.  This file says which number such a text spells
  (`readPlaces?_pointed`), that zeros in front change nothing (`ofDigitChars_leftpad`),
  and that the core numerals have no zero in front (`head?_toDigits_ne_zero`).
-/
import Inspector.Text.Numeral
import Mathlib.Data.List.Basic
import Mathlib.Data.List.TakeWhile
import Mathlib.Tactic.Ring

namespace Inspector.Text

/-! ### Digits -/

/-- A string of decimal digits and nothing else. -/
def AllDigits (cs : List Char) : Prop :=
  ∀ c ∈ cs, c.isDigit = true

theorem allDigits_append {xs ys : List Char} :
    AllDigits (xs ++ ys) ↔ AllDigits xs ∧ AllDigits ys := by
  simp only [AllDigits, List.mem_append, or_imp, forall_and]

theorem AllDigits.mono {xs ys : List Char} (h : AllDigits ys) (hsub : xs ⊆ ys) :
    AllDigits xs :=
  fun c hc => h c (hsub hc)

theorem AllDigits.ne {cs : List Char} (h : AllDigits cs) {x : Char} (hx : x.isDigit = false) :
    ∀ c ∈ cs, c ≠ x := by
  rintro c hc rfl
  have hdigit := h c hc
  rw [hx] at hdigit
  cases hdigit

theorem allDigits_toDigits (n : Nat) : AllDigits (Nat.toDigits 10 n) :=
  fun _ hc => Nat.isDigit_of_mem_toDigits (by decide) (by decide) hc

theorem allDigits_leftpad {cs : List Char} (h : AllDigits cs) (width : Nat) :
    AllDigits (cs.leftpad width '0') := by
  rw [List.leftpad, allDigits_append]
  refine ⟨?_, h⟩
  intro c hc
  rw [List.eq_of_mem_replicate hc]
  rfl

/-! ### The numbers that digits spell -/

theorem ofDigitChars_leftpad (cs : List Char) (width : Nat) :
    Nat.ofDigitChars 10 (cs.leftpad width '0') 0 = Nat.ofDigitChars 10 cs 0 := by
  rw [List.leftpad, Nat.ofDigitChars_append, Nat.ofDigitChars_replicate_zero, Nat.mul_zero]

/-- Digits in front weigh as many tens as there are digits behind them. -/
theorem ofDigitChars_append_zero (xs ys : List Char) :
    Nat.ofDigitChars 10 (xs ++ ys) 0
      = 10 ^ ys.length * Nat.ofDigitChars 10 xs 0 + Nat.ofDigitChars 10 ys 0 := by
  rw [Nat.ofDigitChars_append, Nat.ofDigitChars_eq_ofDigitChars_zero]

theorem digitChar_ne_zero : ∀ d < 16, d ≠ 0 → Nat.digitChar d ≠ '0' := by
  decide

theorem head?_toDigits_ne_zero {base n : Nat} (hbase : 1 < base) (hle : base ≤ 16) (hn : n ≠ 0) :
    (Nat.toDigits base n).head? ≠ some '0' := by
  induction n using Nat.strong_induction_on with
  | _ n ih =>
    by_cases hlt : n < base
    · rw [Nat.toDigits_of_lt_base hlt, List.head?_cons]
      exact mt Option.some.inj (digitChar_ne_zero n (by omega) hn)
    · have hlt' := Nat.div_lt_self (Nat.pos_of_ne_zero hn) hbase
      have hpos := Nat.div_pos (Nat.not_lt.mp hlt) (by omega)
      rw [Nat.toDigits_of_base_le hbase (by omega),
        List.head?_append_of_ne_nil _ Nat.toDigits_ne_nil]
      exact ih (n / base) hlt' (by omega)

/-- A numeral starts with a zero only if it is the numeral zero. -/
theorem toDigits_eq_zero_or_head? {base : Nat} (hbase : 1 < base) (hle : base ≤ 16) (n : Nat) :
    Nat.toDigits base n = ['0'] ∨ (Nat.toDigits base n).head? ≠ some '0' := by
  by_cases hn : n = 0
  · exact Or.inl (by rw [hn, Nat.toDigits_zero])
  · exact Or.inr (head?_toDigits_ne_zero hbase hle hn)

/-- A numeral is as long as its number is large. -/
theorem length_toDigits {n width : Nat} (hpos : 0 < width) (hlow : 10 ^ (width - 1) ≤ n)
    (hhigh : n < 10 ^ width) : (Nat.toDigits 10 n).length = width := by
  apply Nat.le_antisymm ((Nat.length_toDigits_le_iff (by decide) hpos).mpr hhigh)
  by_cases hone : width = 1
  · rw [hone]
    exact Nat.length_toDigits_pos
  · have hlong : ¬(Nat.toDigits 10 n).length ≤ width - 1 := by
      rw [Nat.length_toDigits_le_iff (by decide) (by omega)]
      exact Nat.not_lt.mpr hlow
    omega

/-! ### Readers -/

theorem readDigits?_eq {cs : List Char} (hne : cs ≠ []) (h : AllDigits cs) :
    readDigits? cs = some (Nat.ofDigitChars 10 cs 0) := by
  have hall : cs.all Char.isDigit = true := List.all_eq_true.mpr h
  simp only [readDigits?, hall, and_true, if_pos hne]

theorem readDigits?_toDigits (n : Nat) : readDigits? (Nat.toDigits 10 n) = some n := by
  rw [readDigits?_eq Nat.toDigits_ne_nil (allDigits_toDigits n), Nat.ofDigitChars_ten_toDigits]

theorem readSign_of_allDigits {cs rest : List Char} (hne : cs ≠ []) (h : AllDigits cs) :
    readSign (cs ++ rest) = (false, cs ++ rest) := by
  cases cs with
  | nil => exact absurd rfl hne
  | cons c cs =>
    have hc : c ≠ '-' := h.ne rfl c List.mem_cons_self
    rw [List.cons_append, readSign]
    rintro _ ⟨rfl, _⟩
    exact hc rfl

theorem readSign_sign {cs rest : List Char} (negative : Bool) (hne : cs ≠ [])
    (h : AllDigits cs) :
    readSign ((if negative then ['-'] else []) ++ (cs ++ rest)) = (negative, cs ++ rest) := by
  cases negative with
  | false =>
    show readSign (cs ++ rest) = (false, cs ++ rest)
    exact readSign_of_allDigits hne h
  | true => rfl

/-! ### Digits around a point -/

/-- Whole digits with a fraction behind a point. Without a fraction there is no point. -/
def pointed (whole fraction : List Char) : List Char :=
  whole ++ if fraction = [] then [] else '.' :: fraction

theorem pointed_nil (whole : List Char) : pointed whole [] = whole := by
  rw [pointed, if_pos rfl, List.append_nil]

theorem pointed_of_ne_nil (whole : List Char) {fraction : List Char} (h : fraction ≠ []) :
    pointed whole fraction = whole ++ '.' :: fraction := by
  rw [pointed, if_neg h]

theorem pointed_ne_nil {whole : List Char} (h : whole ≠ []) (fraction : List Char) :
    pointed whole fraction ≠ [] :=
  List.append_ne_nil_of_left_ne_nil h _

/-- Neither the digits nor the point are any other character. -/
theorem ne_of_mem_pointed {whole fraction : List Char} (hw : AllDigits whole)
    (hf : AllDigits fraction) {x : Char} (hdigit : x.isDigit = false) (hpoint : x ≠ '.') :
    ∀ c ∈ pointed whole fraction, c ≠ x := by
  intro c hc
  rw [pointed, List.mem_append] at hc
  rcases hc with hc | hc
  · exact hw.ne hdigit c hc
  · by_cases hnil : fraction = []
    · rw [if_pos hnil] at hc
      cases hc
    · rw [if_neg hnil, List.mem_cons] at hc
      rcases hc with rfl | hc
      · exact hpoint.symm
      · exact hf.ne hdigit c hc

theorem readPlaces?_pointed {whole fraction : List Char} (hne : whole ≠ [])
    (hw : AllDigits whole) (hf : AllDigits fraction) :
    readPlaces? (pointed whole fraction)
      = some (Nat.ofDigitChars 10 (whole ++ fraction) 0, fraction.length) := by
  have hpoint : ∀ c ∈ whole, (c != '.') = true := fun c hc => bne_iff_ne.mpr (hw.ne rfl c hc)
  by_cases hnil : fraction = []
  · subst hnil
    rw [pointed_nil, readPlaces?, List.takeWhile_eq_self_iff.mpr hpoint,
      List.dropWhile_eq_nil_iff.mpr hpoint, readDigits?_eq hne hw, List.append_nil]
    rfl
  · rw [pointed_of_ne_nil whole hnil, readPlaces?,
      List.takeWhile_append_of_pos hpoint, List.dropWhile_append_of_pos hpoint,
      List.takeWhile_cons_of_neg (by decide), List.dropWhile_cons_of_neg (by decide),
      List.append_nil]
    simp only [readDigits?_eq hne hw, readDigits?_eq hnil hf]
    rfl

end Inspector.Text
