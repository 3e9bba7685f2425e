/-
  Inspector/Decimal/Magnitude.lean
  ================================
  **Whole numbers of 96 bits.**

  The magnitude of a decimal fills three 32-bit words and fits no machine integer.  It
  is divided as on paper, a word at a time from the most significant one, with the
  remainder so far in front of the next word.  `toNat_divMod` says that this is exact:
  the remainder stays below the divisor, so no quotient word and no 64-bit
  intermediate result overflows.  Dividing by ten again and again gives the digits, and
  the same law shows that it ends.
-/

namespace Inspector

structure Magnitude where
  lo : UInt32
  mid : UInt32
  hi : UInt32
deriving DecidableEq, Repr

namespace Magnitude

def zero : Magnitude := ⟨0, 0, 0⟩

def toNat (m : Magnitude) : Nat :=
  (m.hi.toNat * 0x100000000 + m.mid.toNat) * 0x100000000 + m.lo.toNat

theorem toNat_inj {m m' : Magnitude} : m.toNat = m'.toNat ↔ m = m' := by
  constructor
  · intro h
    obtain ⟨lo, mid, hi⟩ := m
    obtain ⟨lo', mid', hi'⟩ := m'
    have := lo.toNat_lt
    have := lo'.toNat_lt
    have := mid.toNat_lt
    have := mid'.toNat_lt
    simp only [toNat] at h
    simp only [mk.injEq, ← UInt32.toNat_inj]
    omega
  · rintro rfl
    rfl

theorem toNat_eq_zero {m : Magnitude} (h : m.toNat = 0) : m = zero :=
  toNat_inj.mp h

/-! ### Long division -/

/-- Divide one word with the remainder of the words before it in front of it. -/
def divWord (divisor : UInt32) (remainder : UInt64) (word : UInt32) : UInt32 × UInt64 :=
  let joined := remainder * 0x100000000 + word.toUInt64
  ((joined / divisor.toUInt64).toUInt32, joined % divisor.toUInt64)

def divMod (m : Magnitude) (divisor : UInt32) : Magnitude × UInt32 :=
  let hi := divWord divisor 0 m.hi
  let mid := divWord divisor hi.2 m.mid
  let lo := divWord divisor mid.2 m.lo
  (⟨lo.1, mid.1, hi.1⟩, lo.2.toUInt32)

theorem toNat_divWord {divisor : UInt32} {remainder : UInt64} (word : UInt32)
    (h : remainder.toNat < divisor.toNat) :
    divisor.toNat * (divWord divisor remainder word).1.toNat
        + (divWord divisor remainder word).2.toNat
      = remainder.toNat * 0x100000000 + word.toNat
    ∧ (divWord divisor remainder word).2.toNat < divisor.toNat := by
  have hw : word.toNat < 0x100000000 := word.toNat_lt
  have hd : divisor.toNat < 0x100000000 := divisor.toNat_lt
  have hjoined : (remainder * 4294967296 + word.toUInt64).toNat
      = remainder.toNat * 0x100000000 + word.toNat := by
    simp only [UInt64.toNat_add, UInt64.toNat_mul, UInt32.toNat_toUInt64, UInt64.reduceToNat]
    omega
  have hlt : remainder.toNat * 0x100000000 + word.toNat < divisor.toNat * 0x100000000 := by omega
  have hq : (remainder.toNat * 0x100000000 + word.toNat) / divisor.toNat < 0x100000000 :=
    Nat.div_lt_of_lt_mul hlt
  simp only [divWord, UInt64.toNat_toUInt32, UInt64.toNat_div, UInt64.toNat_mod,
    UInt32.toNat_toUInt64, hjoined, Nat.mod_eq_of_lt hq]
  exact ⟨Nat.div_add_mod _ _, Nat.mod_lt _ (by omega)⟩

theorem toNat_divMod (m : Magnitude) {divisor : UInt32} (h : 0 < divisor.toNat) :
    divisor.toNat * (m.divMod divisor).1.toNat + (m.divMod divisor).2.toNat = m.toNat
    ∧ (m.divMod divisor).2.toNat < divisor.toNat := by
  have hd : divisor.toNat < 0x100000000 := divisor.toNat_lt
  obtain ⟨eh, lh⟩ := toNat_divWord m.hi (show (0 : UInt64).toNat < divisor.toNat from h)
  obtain ⟨em, lm⟩ := toNat_divWord m.mid lh
  obtain ⟨el, ll⟩ := toNat_divWord m.lo lm
  have hr : (m.divMod divisor).2.toNat = (divWord divisor
      (divWord divisor (divWord divisor 0 m.hi).2 m.mid).2 m.lo).2.toNat := by
    simp only [divMod, UInt64.toNat_toUInt32]
    omega
  refine ⟨?_, hr ▸ ll⟩
  rw [hr]
  simp only [divMod, toNat, Nat.mul_add, ← Nat.mul_assoc]
  simp only [UInt64.toNat_zero, Nat.zero_mul, Nat.zero_add] at eh
  omega

/-! ### Digits -/

theorem toNat_divMod_ten_lt {m : Magnitude} (h : (m.divMod 10).1 ≠ zero) :
    (m.divMod 10).1.toNat < m.toNat := by
  have hm := (toNat_divMod m (show 0 < (10 : UInt32).toNat by decide)).1
  have hq : (m.divMod 10).1.toNat ≠ 0 := fun h0 => h (toNat_eq_zero h0)
  simp only [UInt32.reduceToNat] at hm
  omega

/-- The decimal digits, from the last division to the first. -/
def digits (m : Magnitude) : List Char :=
  let digit := [Nat.digitChar (m.divMod 10).2.toNat]
  if h : (m.divMod 10).1 = zero then digit
  else
    have := toNat_divMod_ten_lt h
    digits (m.divMod 10).1 ++ digit
termination_by m.toNat

def text (m : Magnitude) : String :=
  String.ofList m.digits

end Magnitude

end Inspector
