/-
  Inspector/Proofs/Decimal/Magnitude.lean
  =======================================
  **Division and digits of a 96-bit number.**

  A magnitude is divided in three steps of 64 bits, each of which keeps 32 bits of its
  quotient.  The invariant from one step to the next is that the remainder is below the
  divisor: so it leaves room for the word behind it, and the quotient of the two has no more
  than 32 bits (`exactStep_divWord`).  Hence no step loses a bit, and the whole division is
  exact (`divMod_exact`).

  The digits come from a loop that divides by ten and only then looks whether anything is
  left.  `EndsAfter` runs this loop and counts its divisions.  What a division keeps are the
  digits of the words that are left, followed by the digits found so far; so the loop ends
  with all digits of the magnitude and needs one division for each (`endsAfter_iff`).  They
  are the standard numeral, so there are at most 29 of them (`text_standardNumeral`).
-/
import Inspector.Decimal.Magnitude
import Inspector.Proofs.Text.Numerals

namespace Inspector.Magnitude

open Text

/-! ### Steps of a division -/

/-- The next word behind the remainder so far, in 64 bits. -/
def joined (remainder : UInt64) (word : UInt32) : UInt64 :=
  remainder <<< 32 ||| word.toUInt64

/-- A step of long division that loses nothing. The remainder and the word have room in 64
    bits, their quotient has room in 32 bits, and so has the next remainder, which is below
    the divisor. -/
structure ExactStep (divisor : UInt32) (remainder : UInt64) (word quotient : UInt32)
    (next : UInt64) : Prop where
  room : remainder.toNat * 2 ^ 32 + word.toNat < 2 ^ 64
  joined_eq : (joined remainder word).toNat = remainder.toNat * 2 ^ 32 + word.toNat
  fits : (joined remainder word / divisor.toUInt64).toNat < 2 ^ 32
  quotient_eq : quotient.toNat = (joined remainder word / divisor.toUInt64).toNat
  next_eq : next = joined remainder word % divisor.toUInt64
  next_lt : next.toNat < divisor.toNat

/-- The shifted remainder keeps its bits and has none where the word has one. -/
theorem toNat_joined {remainder : UInt64} (word : UInt32) (h : remainder.toNat < 2 ^ 32) :
    (joined remainder word).toNat = remainder.toNat * 2 ^ 32 + word.toNat := by
  have hshift : remainder.toNat <<< 32 < 2 ^ 64 := by
    rw [Nat.shiftLeft_eq]
    omega
  rw [joined, UInt64.toNat_or, UInt64.toNat_shiftLeft, UInt32.toNat_toUInt64]
  show remainder.toNat <<< 32 % 2 ^ 64 ||| word.toNat = _
  rw [Nat.mod_eq_of_lt hshift, ← Nat.shiftLeft_add_eq_or_of_lt word.toNat_lt, Nat.shiftLeft_eq]

theorem divWord_eq {remainder : UInt64} (divisor word : UInt32) (h : remainder.toNat < 2 ^ 32) :
    divWord divisor remainder word = ((joined remainder word / divisor.toUInt64).toUInt32,
      joined remainder word % divisor.toUInt64) := by
  have hw : word.toNat < 2 ^ 32 := word.toNat_lt
  have hjoined : joined remainder word = remainder * 0x100000000 + word.toUInt64 := by
    apply UInt64.toNat_inj.mp
    rw [toNat_joined word h, UInt64.toNat_add, UInt64.toNat_mul, UInt32.toNat_toUInt64]
    simp only [UInt64.reduceToNat]
    omega
  rw [divWord, hjoined]

theorem exactStep_divWord {divisor : UInt32} {remainder : UInt64} (word : UInt32)
    (h : remainder.toNat < divisor.toNat) :
    ExactStep divisor remainder word (divWord divisor remainder word).1
      (divWord divisor remainder word).2 := by
  have hd : divisor.toNat < 2 ^ 32 := divisor.toNat_lt
  have hw : word.toNat < 2 ^ 32 := word.toNat_lt
  have hstep := divWord_eq divisor word (h.trans hd)
  have hjoined := toNat_joined word (h.trans hd)
  have hfits : (joined remainder word / divisor.toUInt64).toNat < 2 ^ 32 := by
    rw [UInt64.toNat_div, UInt32.toNat_toUInt64, hjoined]
    -- a word behind a remainder below the divisor makes less than 2 ^ 32 divisors
    apply Nat.div_lt_of_lt_mul
    omega
  exact {
    room := by omega
    joined_eq := hjoined
    fits := hfits
    quotient_eq := by rw [hstep, UInt64.toNat_toUInt32, Nat.mod_eq_of_lt hfits]
    next_eq := by rw [hstep]
    next_lt := (toNat_divWord word h).2 }

/-- Whatever the words and the divisor are, the quotient and the remainder are those of the
    numbers, and they come from three steps, from the highest word down, none of which loses
    a bit. Nor does the last remainder when it is narrowed to a word. -/
theorem divMod_exact (m : Magnitude) {divisor : UInt32} (h : divisor ≠ 0) :
    let q := (m.divMod divisor).1
    let r := (m.divMod divisor).2
    m.toNat = divisor.toNat * q.toNat + r.toNat
      ∧ r.toNat < divisor.toNat
      ∧ ∃ afterHi afterMid afterLo : UInt64,
        ExactStep divisor 0 m.hi q.hi afterHi
          ∧ ExactStep divisor afterHi m.mid q.mid afterMid
          ∧ ExactStep divisor afterMid m.lo q.lo afterLo
          ∧ r = afterLo.toUInt32 ∧ r.toNat = afterLo.toNat := by
  intro q r
  have hpos : 0 < divisor.toNat := by
    apply Nat.pos_of_ne_zero
    exact fun hzero => h (UInt32.toNat_inj.mp hzero)
  obtain ⟨hvalue, hlt⟩ := toNat_divMod m hpos
  -- each step leaves a remainder below the divisor, which the next one relies on
  have hi := exactStep_divWord m.hi (show (0 : UInt64).toNat < divisor.toNat from hpos)
  have mid := exactStep_divWord m.mid hi.next_lt
  have lo := exactStep_divWord m.lo mid.next_lt
  refine ⟨hvalue.symm, hlt, _, _, _, hi, mid, lo, rfl, ?_⟩
  exact (UInt64.toNat_toUInt32 _).trans (Nat.mod_eq_of_lt (lo.next_lt.trans divisor.toNat_lt))

/-- The largest divisor, and words that leave the largest remainders: two steps join 64 bits
    that are nearly all set and have quotients of 32 bits that are all set. -/
theorem divMod_exact_largest :
    let m : Magnitude := ⟨0xFFFFFFFF, 0xFFFFFFFF, 0xFFFFFFFE⟩
    let divisor : UInt32 := 0xFFFFFFFF
    let q : Magnitude := ⟨0xFFFFFFFF, 0xFFFFFFFF, 0⟩
    let r : UInt32 := 0xFFFFFFFE
    divisor ≠ 0 ∧ m.divMod divisor = (q, r)
      ∧ m.toNat = divisor.toNat * q.toNat + r.toNat
      ∧ r.toNat < divisor.toNat
      ∧ ∃ afterHi afterMid afterLo : UInt64,
        ExactStep divisor 0 m.hi q.hi afterHi
          ∧ ExactStep divisor afterHi m.mid q.mid afterMid
          ∧ ExactStep divisor afterMid m.lo q.lo afterLo
          ∧ r = afterLo.toUInt32 ∧ r.toNat = afterLo.toNat := by
  intro m divisor q r
  have hne : divisor ≠ 0 := by decide
  have hdiv : m.divMod divisor = (q, r) := by decide
  have hexact := divMod_exact m hne
  rw [hdiv] at hexact
  exact ⟨hne, hdiv, hexact⟩

/-! ### Digits -/

theorem toNat_eq (m : Magnitude) :
    m.toNat = m.lo.toNat + 2 ^ 32 * m.mid.toNat + 2 ^ 64 * m.hi.toNat := by
  simp only [toNat]
  omega

theorem toNat_lt (m : Magnitude) : m.toNat < 2 ^ 96 := by
  have hlo : m.lo.toNat < 2 ^ 32 := m.lo.toNat_lt
  have hmid : m.mid.toNat < 2 ^ 32 := m.mid.toNat_lt
  have hhi : m.hi.toNat < 2 ^ 32 := m.hi.toNat_lt
  rw [toNat_eq]
  omega

theorem toNat_divMod_ten (m : Magnitude) :
    10 * (m.divMod 10).1.toNat + (m.divMod 10).2.toNat = m.toNat
      ∧ (m.divMod 10).2.toNat < 10 :=
  toNat_divMod m (show 0 < (10 : UInt32).toNat by decide)

theorem digits_of_zero {m : Magnitude} (h : (m.divMod 10).1 = zero) :
    m.digits = [Nat.digitChar (m.divMod 10).2.toNat] := by
  rw [digits, dif_pos h]

theorem digits_of_ne_zero {m : Magnitude} (h : (m.divMod 10).1 ≠ zero) :
    m.digits = (m.divMod 10).1.digits ++ [Nat.digitChar (m.divMod 10).2.toNat] := by
  rw [digits, dif_neg h]

theorem digits_eq_toDigits (m : Magnitude) : m.digits = Nat.toDigits 10 m.toNat := by
  induction m using digits.induct with
  | case1 m hzero =>
    obtain ⟨hdiv, hlt⟩ := toNat_divMod_ten m
    have hnum : m.toNat = (m.divMod 10).2.toNat := by
      rw [← hdiv, hzero]
      exact Nat.zero_add _
    rw [digits_of_zero hzero, hnum, Nat.toDigits_of_lt_base hlt]
  | case2 m hne _ ih =>
    obtain ⟨hdiv, hlt⟩ := toNat_divMod_ten m
    have hpos : 0 < (m.divMod 10).1.toNat :=
      Nat.pos_of_ne_zero (fun h => hne (toNat_eq_zero h))
    calc
      m.digits = (m.divMod 10).1.digits ++ [Nat.digitChar (m.divMod 10).2.toNat] :=
        digits_of_ne_zero hne
      _ = Nat.toDigits 10 (m.divMod 10).1.toNat ++ Nat.toDigits 10 (m.divMod 10).2.toNat := by
        rw [ih, Nat.toDigits_of_lt_base hlt]
      _ = Nat.toDigits 10 (10 * (m.divMod 10).1.toNat + (m.divMod 10).2.toNat) :=
        Nat.toDigits_append_toDigits (by decide) hpos hlt
      _ = Nat.toDigits 10 m.toNat := by rw [hdiv]

/-! ### The digit loop -/

/-- What the loop holds between two divisions: the words that are left to divide, and the
    digits found so far, the last one in front. -/
structure DigitLoop where
  rest : Magnitude
  found : List Char

namespace DigitLoop

def start (m : Magnitude) : DigitLoop :=
  ⟨m, []⟩

/-- One division: the words give way to their quotient, and the remainder is a digit. -/
def divide (s : DigitLoop) : DigitLoop :=
  ⟨(s.rest.divMod 10).1, Nat.digitChar (s.rest.divMod 10).2.toNat :: s.found⟩

/-- The loop comes to its end after a number of divisions. It looks at the words only behind
    a division, so there is always one, and ends when they are zero. -/
inductive EndsAfter : DigitLoop → Nat → DigitLoop → Prop where
  | last {s : DigitLoop} (done : s.divide.rest = zero) : EndsAfter s 1 s.divide
  | again {s t : DigitLoop} {n : Nat} (more : s.divide.rest ≠ zero)
      (others : EndsAfter s.divide n t) : EndsAfter s (n + 1) t

variable {s t : DigitLoop} {n : Nat}

/-- The step of the loop: a digit found is one less to come. -/
theorem divide_of_ne_zero (h : s.divide.rest ≠ zero) :
    s.divide.rest.digits ++ s.divide.found = s.rest.digits ++ s.found
      ∧ s.rest.digits.length = s.divide.rest.digits.length + 1 := by
  rw [digits_of_ne_zero h, List.append_assoc, List.length_append]
  exact ⟨rfl, rfl⟩

theorem divide_of_zero (h : s.divide.rest = zero) :
    s.divide = ⟨zero, s.rest.digits ++ s.found⟩ ∧ s.rest.digits.length = 1 := by
  rw [digits_of_zero h, ← h]
  exact ⟨rfl, rfl⟩

/-- The run of the loop: it finds all digits that are to come, one in each division. -/
theorem EndsAfter.finds (h : EndsAfter s n t) :
    n = s.rest.digits.length ∧ t = ⟨zero, s.rest.digits ++ s.found⟩ := by
  induction h with
  | last done =>
    obtain ⟨hend, hlength⟩ := divide_of_zero done
    exact ⟨hlength.symm, hend⟩
  | again more _ ih =>
    obtain ⟨hkeeps, hlength⟩ := divide_of_ne_zero more
    rw [hlength, ← hkeeps]
    exact ⟨congrArg (· + 1) ih.1, ih.2⟩

/-- Each division makes the number in the words smaller, though not every word. -/
theorem exists_endsAfter (s : DigitLoop) : ∃ n t, EndsAfter s n t := by
  induction hk : s.rest.toNat using Nat.strong_induction_on generalizing s with
  | _ k ih =>
    by_cases h : s.divide.rest = zero
    · exact ⟨1, s.divide, .last h⟩
    · obtain ⟨n, t, hrun⟩ := ih _ (hk ▸ toNat_divMod_ten_lt h) s.divide rfl
      exact ⟨n + 1, t, .again h hrun⟩

example : (divMod ⟨0, 0, 1⟩ 10).1 = ⟨0x99999999, 0x19999999, 0⟩ := by decide

theorem endsAfter_iff :
    EndsAfter s n t ↔ n = s.rest.digits.length ∧ t = ⟨zero, s.rest.digits ++ s.found⟩ := by
  constructor
  · exact EndsAfter.finds
  · rintro ⟨rfl, rfl⟩
    obtain ⟨n, t, hrun⟩ := s.exists_endsAfter
    obtain ⟨rfl, rfl⟩ := hrun.finds
    exact hrun

end DigitLoop

/-! ### The text -/

theorem toList_text (m : Magnitude) : m.text.toList = Nat.toDigits 10 m.toNat := by
  rw [text, String.toList_ofList, digits_eq_toDigits]

theorem text_eq_repr (m : Magnitude) : m.text = m.toNat.repr := by
  apply String.toList_inj.mp
  rw [toList_text, Nat.toList_repr]

theorem readDigits?_text (m : Magnitude) : readDigits? m.text.toList = some m.toNat := by
  rw [toList_text, readDigits?_toDigits]

theorem text_inj {m m' : Magnitude} : m.text = m'.text ↔ m = m' := by
  constructor
  · intro h
    have hread : some m.toNat = some m'.toNat := by
      rw [← readDigits?_text, ← readDigits?_text, h]
    exact toNat_inj.mp (Option.some.inj hread)
  · rintro rfl
    rfl

theorem text_eq_zero_iff {m : Magnitude} : m.text = "0" ↔ m.toNat = 0 := by
  have hzero : zero.text = "0" := zero.text_eq_repr
  rw [← hzero, text_inj]
  exact toNat_inj.symm

theorem length_digits_le (m : Magnitude) : m.digits.length ≤ 29 := by
  rw [digits_eq_toDigits, Nat.length_toDigits_le_iff (by decide) (by decide)]
  exact m.toNat_lt.trans (by decide)

example : (digits ⟨0xFFFFFFFF, 0xFFFFFFFF, 0xFFFFFFFF⟩).length = 29 := by cbv

/-- Whatever the three words are, the digit loop ends, after at most 29 divisions and in one
    way only, with the standard numeral of their number: digits and nothing else, with a zero
    in front only if the number is zero, which are read back as the number. So no other words
    have the same text. -/
theorem text_standardNumeral (m : Magnitude) :
    let n := m.lo.toNat + 2 ^ 32 * m.mid.toNat + 2 ^ 64 * m.hi.toNat
    let t := m.text
    (∃ divisions ≤ 29, ∀ k s, DigitLoop.EndsAfter (.start m) k s
        ↔ k = divisions ∧ s = ⟨zero, t.toList⟩)
      ∧ t = n.repr
      ∧ HasDigitsOnly Char.isDigit t.toList
      ∧ (t = "0" ↔ n = 0)
      ∧ readDigits? t.toList = some n
      ∧ ∀ m' : Magnitude, m'.text = t ↔ m' = m := by
  intro n t
  have hn : m.toNat = n := m.toNat_eq
  have hloop : ∀ k s, DigitLoop.EndsAfter (.start m) k s
      ↔ k = m.digits.length ∧ s = ⟨zero, t.toList⟩ := by
    intro k s
    rw [DigitLoop.endsAfter_iff, DigitLoop.start, List.append_nil]
    show _ ↔ k = m.digits.length ∧ s = ⟨zero, (String.ofList m.digits).toList⟩
    rw [String.toList_ofList]
  have hdigits : HasDigitsOnly Char.isDigit t.toList := by
    rw [show t.toList = _ from m.toList_text]
    exact hasDigitsOnly_toDigits _
  rw [← hn]
  exact ⟨⟨_, m.length_digits_le, hloop⟩, m.text_eq_repr, hdigits, text_eq_zero_iff,
    m.readDigits?_text, fun _ => text_inj⟩

end Inspector.Magnitude
