/-
  Inspector/Proofs/Text/Utf16.lean
  ================================
  **UTF-16 loses no text.**

  A character has one unit or two.  One unit alone is never a surrogate, and of two units
  the first is a high and the second a low surrogate, so decoding takes off the front
  exactly the units of one character (`decode_encodeChar_append`).  Decoding the units of
  a text therefore gives the text back, character by character (`decode_encode`).
-/
import Inspector.Text.Utf16

namespace Inspector.Text.Utf16

/-! ### Surrogates -/

theorem isHigh_iff {u : UInt16} : isHigh u = true ↔ 0xD800 ≤ u.toNat ∧ u.toNat < 0xDC00 := by
  rw [isHigh, decide_eq_true_eq, UInt16.le_iff_toNat_le, UInt16.lt_iff_toNat_lt]
  rfl

theorem isLow_iff {u : UInt16} : isLow u = true ↔ 0xDC00 ≤ u.toNat ∧ u.toNat < 0xE000 := by
  rw [isLow, decide_eq_true_eq, UInt16.le_iff_toNat_le, UInt16.lt_iff_toNat_lt]
  rfl

theorem toNat_ofNat_unit {n : Nat} (h : n < 0x10000) : (UInt16.ofNat n).toNat = n := by
  rw [UInt16.toNat_ofNat']
  exact Nat.mod_eq_of_lt h

/-! ### One unit, two units -/

/-- Only a high surrogate can belong together with the unit after it. -/
theorem decode_cons_of_not_high {u : UInt16} (h : isHigh u = false) (rest : List UInt16) :
    decode (u :: rest) = ofUnit u :: decode rest := by
  cases rest with
  | nil => rfl
  | cons v rest => rw [decode, h, Bool.false_and, if_neg Bool.false_ne_true]

theorem decode_pair {u v : UInt16} (hu : isHigh u = true) (hv : isLow v = true)
    (rest : List UInt16) : decode (u :: v :: rest) = ofPair u v :: decode rest := by
  rw [decode, hu, hv, Bool.and_self, if_pos rfl]

/-- The numbers of characters leave out those of the surrogates. -/
theorem not_surrogate {c : Char} (hsmall : c.toNat < 0x10000) :
    isHigh (UInt16.ofNat c.toNat) = false ∧ isLow (UInt16.ofNat c.toNat) = false := by
  have hvalid : c.toNat < 0xD800 ∨ 0xDFFF < c.toNat ∧ c.toNat < 0x110000 := c.valid
  rw [← Bool.not_eq_true, ← Bool.not_eq_true, isHigh_iff, isLow_iff, toNat_ofNat_unit hsmall]
  omega

theorem ofUnit_ofNat {c : Char} (hsmall : c.toNat < 0x10000) :
    ofUnit (UInt16.ofNat c.toNat) = c := by
  obtain ⟨hhigh, hlow⟩ := not_surrogate hsmall
  rw [ofUnit, hhigh, hlow, Bool.or_self, if_neg Bool.false_ne_true, toNat_ofNat_unit hsmall,
    Char.ofNat_toNat]

/-- What a character past the first plane exceeds it by has twenty bits, ten for each unit. -/
theorem decode_encodeChar_large {c : Char} (hlarge : ¬c.toNat < 0x10000) (rest : List UInt16) :
    decode (UInt16.ofNat (0xD800 + (c.toNat - 0x10000) / 0x400)
        :: UInt16.ofNat (0xDC00 + (c.toNat - 0x10000) % 0x400) :: rest)
      = c :: decode rest := by
  have hvalid : c.toNat < 0xD800 ∨ 0xDFFF < c.toNat ∧ c.toNat < 0x110000 := c.valid
  have hhigh := toNat_ofNat_unit (n := 0xD800 + (c.toNat - 0x10000) / 0x400) (by omega)
  have hlow := toNat_ofNat_unit (n := 0xDC00 + (c.toNat - 0x10000) % 0x400) (by omega)
  have hsum : 0x10000 + (0xD800 + (c.toNat - 0x10000) / 0x400 - 0xD800) * 0x400
      + (0xDC00 + (c.toNat - 0x10000) % 0x400 - 0xDC00) = c.toNat := by omega
  rw [decode_pair, ofPair, hhigh, hlow, hsum, Char.ofNat_toNat]
  · rw [isHigh_iff, hhigh]
    omega
  · rw [isLow_iff, hlow]
    omega

/-! ### Texts -/

theorem decode_encodeChar_append (c : Char) (rest : List UInt16) :
    decode (encodeChar c ++ rest) = c :: decode rest := by
  by_cases hsmall : c.toNat < 0x10000
  · rw [encodeChar, if_pos hsmall, List.singleton_append,
      decode_cons_of_not_high (not_surrogate hsmall).1, ofUnit_ofNat hsmall]
  · rw [encodeChar, if_neg hsmall]
    exact decode_encodeChar_large hsmall rest

theorem decode_encode (cs : List Char) : decode (encode cs) = cs := by
  induction cs with
  | nil => rfl
  | cons c cs ih => rw [encode, List.flatMap_cons, decode_encodeChar_append, ← encode, ih]

end Inspector.Text.Utf16
