/-
  Inspector/Proofs/Decimal/Text.lean
  ==================================
  **The text of a decimal is exact and canonical.**

  A decimal is written without any loss: its text has the digits of the magnitude, all
  of them, with the point before the last `scale` digits.  These digits are the core
  numeral of the magnitude (`Magnitude.digits_eq_toDigits`).  Where they are split at the
  point, three cases meet, since a magnitude can have more digits than the scale, just as
  many, or fewer.  This gives the form of the text, what it denotes, and that two decimals
  share a text only if they agree in magnitude, scale and sign (`text_exact`).
-/
import Inspector.Decimal.Basic
import Inspector.Proofs.Decimal.Magnitude
import Inspector.Proofs.Text.Digits

namespace Inspector

namespace Decimal

open Text

/-! ### Digits around the point -/

/-- The digits of the magnitude, with zeros in front until one of them is left of the
    point. -/
def paddedDigits (d : Decimal) : List Char :=
  d.magnitude.digits.leftpad (d.scale + 1) '0'

def wholeDigits (d : Decimal) : List Char :=
  d.paddedDigits.take (d.paddedDigits.length - d.scale)

def fractionDigits (d : Decimal) : List Char :=
  d.paddedDigits.drop (d.paddedDigits.length - d.scale)

theorem wholeDigits_append_fractionDigits (d : Decimal) :
    d.wholeDigits ++ d.fractionDigits = d.paddedDigits :=
  List.take_append_drop _ _

theorem length_paddedDigits (d : Decimal) :
    d.paddedDigits.length = max (d.scale + 1) (Nat.toDigits 10 d.magnitude.toNat).length := by
  rw [paddedDigits, List.length_leftpad, Magnitude.digits_eq_toDigits]

theorem length_fractionDigits (d : Decimal) : d.fractionDigits.length = d.scale := by
  have hlen := d.length_paddedDigits
  rw [fractionDigits, List.length_drop]
  omega

theorem wholeDigits_ne_nil (d : Decimal) : d.wholeDigits ≠ [] := by
  have hlen := d.length_paddedDigits
  apply List.ne_nil_of_length_pos
  rw [wholeDigits, List.length_take]
  omega

theorem allDigits_paddedDigits (d : Decimal) : AllDigits d.paddedDigits := by
  apply allDigits_leftpad
  rw [Magnitude.digits_eq_toDigits]
  exact allDigits_toDigits _

theorem ofDigitChars_paddedDigits (d : Decimal) :
    Nat.ofDigitChars 10 d.paddedDigits 0 = d.magnitude.toNat := by
  rw [paddedDigits, ofDigitChars_leftpad, Magnitude.digits_eq_toDigits,
    Nat.ofDigitChars_ten_toDigits]

/-- Zeros are put in front only to reach the single digit left of the point, and the
    numeral itself has none. -/
theorem wholeDigits_eq_zero_or_head? (d : Decimal) :
    d.wholeDigits = ['0'] ∨ d.wholeDigits.head? ≠ some '0' := by
  have hlen := d.length_paddedDigits
  have hwhole : d.wholeDigits.length = d.paddedDigits.length - d.scale := by
    rw [wholeDigits, List.length_take]
    omega
  by_cases hle : (Nat.toDigits 10 d.magnitude.toNat).length ≤ d.scale + 1
  · -- one digit is left of the point, padded or not
    obtain ⟨c, hc⟩ := List.length_eq_one_iff.mp (show d.wholeDigits.length = 1 by omega)
    rw [hc, List.head?_cons]
    by_cases hzero : c = '0'
    · exact Or.inl (by rw [hzero])
    · exact Or.inr (fun h => hzero (Option.some.inj h))
  · -- more digits than places: nothing is padded
    have hpad : d.paddedDigits = Nat.toDigits 10 d.magnitude.toNat := by
      rw [paddedDigits, List.leftpad, Magnitude.digits_eq_toDigits,
        Nat.sub_eq_zero_of_le (by omega), List.replicate_zero, List.nil_append]
    have hm : d.magnitude.toNat ≠ 0 := by
      intro hzero
      rw [hzero, Nat.toDigits_zero] at hle
      exact hle (Nat.le_add_left 1 _)
    right
    rw [wholeDigits, List.head?_take, if_neg (by omega), hpad]
    exact head?_toDigits_ne_zero (by decide) (by decide) hm

/-! ### The text and its parts -/

theorem chars_eq (d : Decimal) :
    d.chars = (if d.isNegative then ['-'] else []) ++ pointed d.wholeDigits d.fractionDigits := by
  have hlen := d.length_fractionDigits
  have hif : (if d.scale = 0 then [] else '.' :: d.fractionDigits)
      = if d.fractionDigits = [] then [] else '.' :: d.fractionDigits := by
    by_cases hnil : d.fractionDigits = []
    · rw [if_pos hnil, if_pos (by rw [← hlen, hnil, List.length_nil])]
    · have hpos := List.length_pos_iff.mpr hnil
      rw [if_neg hnil, if_neg (by omega)]
  rw [pointed, ← hif, ← List.append_assoc]
  rfl

theorem read?_chars (d : Decimal) :
    read? d.chars = some ⟨d.isNegative, d.magnitude.toNat, d.scale⟩ := by
  have hdigits : AllDigits (d.wholeDigits ++ d.fractionDigits) := by
    rw [wholeDigits_append_fractionDigits]
    exact d.allDigits_paddedDigits
  obtain ⟨hwhole, hfraction⟩ := allDigits_append.mp hdigits
  have hsign : readSign d.chars
      = (d.isNegative, pointed d.wholeDigits d.fractionDigits) := by
    rw [chars_eq, pointed]
    exact readSign_sign d.isNegative d.wholeDigits_ne_nil hwhole
  simp only [read?, hsign, readPlaces?_pointed d.wholeDigits_ne_nil hwhole hfraction,
    wholeDigits_append_fractionDigits, ofDigitChars_paddedDigits, length_fractionDigits,
    Option.map_some]

/-- The text has nothing of the four words but magnitude, scale and sign. -/
theorem chars_eq_of_parts {d d' : Decimal} (hm : d.magnitude.toNat = d'.magnitude.toNat)
    (hs : d.scale = d'.scale) (hn : d.isNegative = d'.isNegative) : d.chars = d'.chars := by
  simp only [chars, Magnitude.digits_eq_toDigits, hm, hs, hn]

theorem text_eq_iff {d d' : Decimal} :
    d.text = d'.text ↔ d.magnitude.toNat = d'.magnitude.toNat ∧ d.scale = d'.scale
      ∧ d.isNegative = d'.isNegative := by
  constructor
  · intro h
    have hchars : d.chars = d'.chars := String.ofList_injective h
    have hread : read? d.chars = read? d'.chars := by rw [hchars]
    rw [read?_chars, read?_chars, Option.some.injEq, Reading.mk.injEq] at hread
    exact ⟨hread.2.1, hread.2.2, hread.1⟩
  · rintro ⟨hm, hs, hn⟩
    rw [text, text, chars_eq_of_parts hm hs hn]

/-! ### Flag bits -/

theorem scale_eq_shift (d : Decimal) : d.scale = (d.flags.toNat >>> 16) % 2 ^ 8 := by
  rw [Nat.shiftRight_eq_div_pow]
  rfl

theorem isNegative_eq_testBit (d : Decimal) : d.isNegative = d.flags.toNat.testBit 31 := by
  have hlt : d.flags.toNat < 2 ^ 32 := d.flags.toNat_lt
  rw [Nat.testBit_eq_decide_div_mod_eq, isNegative]
  apply decide_eq_decide.mpr
  omega

theorem toNat_magnitude (d : Decimal) :
    d.magnitude.toNat = d.hi.toNat * 2 ^ 64 + d.mid.toNat * 2 ^ 32 + d.lo.toNat := by
  simp only [magnitude, Magnitude.toNat]
  omega

/-! ### The form of the text -/

/-- The canonical form of a decimal text: a minus sign for a negative number, whole digits
    without a zero in front of others, and exactly `scale` digits behind a point, which is
    absent if there are none. All digits together spell `magnitude`. -/
structure IsCanonical (negative : Bool) (magnitude scale : Nat) (cs whole fraction : List Char) :
    Prop where
  parts : cs = (if negative then ['-'] else [])
    ++ (whole ++ if scale = 0 then [] else '.' :: fraction)
  whole_ne_nil : whole ≠ []
  digits : AllDigits (whole ++ fraction)
  leading : whole = ['0'] ∨ whole.head? ≠ some '0'
  places : fraction.length = scale
  spelled : Nat.ofDigitChars 10 (whole ++ fraction) 0 = magnitude

theorem isCanonical_chars (d : Decimal) :
    IsCanonical d.isNegative d.magnitude.toNat d.scale d.chars d.wholeDigits
      d.fractionDigits where
  parts := List.append_assoc _ _ _
  whole_ne_nil := d.wholeDigits_ne_nil
  digits := by
    rw [wholeDigits_append_fractionDigits]
    exact d.allDigits_paddedDigits
  leading := d.wholeDigits_eq_zero_or_head?
  places := d.length_fractionDigits
  spelled := by rw [wholeDigits_append_fractionDigits, ofDigitChars_paddedDigits]

/-- The number that a reading denotes. -/
def Reading.value (r : Reading) : ℚ :=
  (-1) ^ r.negative.toNat * r.magnitude * 10 ^ (-(r.scale : ℤ))

/-- Whatever the four words are, the text is canonical, it is read back as the magnitude,
    the scale and the sign in them, and no decimal that differs in one of the three has the
    same text. -/
theorem text_exact (d : Decimal) :
    let m := d.hi.toNat * 2 ^ 64 + d.mid.toNat * 2 ^ 32 + d.lo.toNat
    let s := (d.flags.toNat >>> 16) % 2 ^ 8
    let negative := d.flags.toNat.testBit 31
    let t := d.text
    (∃ whole fraction, IsCanonical negative m s t.toList whole fraction)
      ∧ read? t.toList = some ⟨negative, m, s⟩
      ∧ (read? t.toList).map Reading.value
          = some ((-1) ^ negative.toNat * (m : ℚ) * 10 ^ (-(s : ℤ)))
      ∧ ∀ d' : Decimal, d'.text = t
          ↔ d'.magnitude.toNat = m ∧ d'.scale = s ∧ d'.isNegative = negative := by
  intro m s negative t
  have hm : d.magnitude.toNat = m := d.toNat_magnitude
  have hs : d.scale = s := d.scale_eq_shift
  have hn : d.isNegative = negative := d.isNegative_eq_testBit
  have hlist : t.toList = d.chars := String.toList_ofList
  have hread : read? t.toList = some ⟨negative, m, s⟩ := by
    rw [hlist, read?_chars, hm, hs, hn]
  refine ⟨⟨d.wholeDigits, d.fractionDigits, ?_⟩, hread, ?_, ?_⟩
  · rw [hlist, ← hm, ← hs, ← hn]
    exact d.isCanonical_chars
  · rw [hread]
    rfl
  · intro d'
    rw [← hm, ← hs, ← hn]
    exact text_eq_iff

end Decimal

end Inspector
