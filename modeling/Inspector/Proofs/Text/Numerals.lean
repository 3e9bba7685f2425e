/-
  Inspector/Proofs/Text/Numerals.lean
  ===================================
  **Numerals are canonical.**

  A whole number is shown in base ten, with a minus sign if it is negative, and an address in
  base sixteen.  `IsNumeral` and `IsAddress` say what is canonical about such a text: it has
  no sign and no digit that it could do without, and it is read back as its number, so no two
  numbers share a text.
-/
import Inspector.Proofs.Text.Digits

namespace Inspector.Text

/-! ### Readers -/

/-- A whole number in base ten, behind a minus sign if it is negative. -/
def readInt? (cs : List Char) : Option Int :=
  let (negative, digits) := readSign cs
  (readDigits? digits).map (fun n : Nat => if negative then -(n : Int) else n)

/-- A number in base sixteen behind `0x`. -/
def readAddress? : List Char → Option Nat
  | '0' :: 'x' :: digits => readHex? digits
  | _ => none

/-! ### Canonical texts -/

/-- A digit string of a numeral: there are digits, nothing else, and no zero in front of
    other digits. -/
structure HasDigitsOnly (isDigit : Char → Bool) (digits : List Char) : Prop where
  ne_nil : digits ≠ []
  all : ∀ c ∈ digits, isDigit c = true
  leading : digits = ['0'] ∨ digits.head? ≠ some '0'

def isLowerHex (c : Char) : Bool :=
  c.isDigit || ('a' ≤ c && c ≤ 'f')

/-- The canonical numeral of a whole number. -/
structure IsNumeral (n : Int) (cs : List Char) : Prop where
  parts : ∃ digits, cs = (if n < 0 then ['-'] else []) ++ digits
    ∧ HasDigitsOnly Char.isDigit digits
  read : readInt? cs = some n

/-- The canonical text of an address, with lowercase digits. -/
structure IsAddress (n : Nat) (cs : List Char) : Prop where
  parts : ∃ digits, cs = '0' :: 'x' :: digits
    ∧ HasDigitsOnly isLowerHex digits
  read : readAddress? cs = some n

/-! ### Base ten -/

theorem hasDigitsOnly_toDigits (n : Nat) : HasDigitsOnly Char.isDigit (Nat.toDigits 10 n) where
  ne_nil := Nat.toDigits_ne_nil
  all := allDigits_toDigits n
  leading := toDigits_eq_zero_or_head? (by decide) (by decide) n

theorem toList_repr (n : Int) :
    n.repr.toList = (if n < 0 then ['-'] else []) ++ Nat.toDigits 10 n.natAbs := by
  rw [Int.repr_eq_if]
  by_cases h : 0 ≤ n
  · have habs : n.toNat = n.natAbs := by omega
    rw [if_pos h, if_neg (by omega), Nat.toList_repr, habs]
    rfl
  · have habs : (-n).toNat = n.natAbs := by omega
    rw [if_neg h, if_pos (by omega), String.toList_append, Nat.toList_repr, habs]
    rfl

theorem readInt?_repr (n : Int) : readInt? n.repr.toList = some n := by
  have hsign : readSign ((if n < 0 then ['-'] else []) ++ Nat.toDigits 10 n.natAbs)
      = (decide (n < 0), Nat.toDigits 10 n.natAbs) := by
    have h := @readSign_sign _ [] (decide (n < 0)) Nat.toDigits_ne_nil
      (allDigits_toDigits n.natAbs)
    simpa only [List.append_nil, decide_eq_true_eq] using h
  rw [readInt?, toList_repr, hsign]
  show (readDigits? (Nat.toDigits 10 n.natAbs)).map _ = _
  rw [readDigits?_toDigits, Option.map_some]
  simp only [decide_eq_true_eq]
  congr 1
  split <;> omega

theorem isNumeral_repr (n : Int) : IsNumeral n n.repr.toList where
  parts := ⟨_, toList_repr n, hasDigitsOnly_toDigits _⟩
  read := readInt?_repr n

/-! ### Base sixteen -/

theorem hexDigit?_digitChar : ∀ d < 16, hexDigit? (Nat.digitChar d) = some d := by
  decide

theorem isLowerHex_digitChar : ∀ d < 16, isLowerHex (Nat.digitChar d) = true := by
  decide

theorem isLowerHex_of_mem_toDigits {n : Nat} {c : Char} (h : c ∈ Nat.toDigits 16 n) :
    isLowerHex c = true := by
  induction n using Nat.strong_induction_on with
  | _ n ih =>
    by_cases hlt : n < 16
    · rw [Nat.toDigits_of_lt_base hlt, List.mem_singleton] at h
      rw [h]
      exact isLowerHex_digitChar n hlt
    · rw [Nat.toDigits_of_base_le (by decide) (by omega), List.mem_append, List.mem_singleton] at h
      rcases h with h | rfl
      · exact ih (n / 16) (by omega) h
      · exact isLowerHex_digitChar (n % 16) (by omega)

theorem readHex?_toDigits (n : Nat) : readHex? (Nat.toDigits 16 n) = some n := by
  induction n using Nat.strong_induction_on with
  | _ n ih =>
    by_cases hlt : n < 16
    · rw [Nat.toDigits_of_lt_base hlt]
      simp [readHex?, hexDigit?_digitChar n hlt]
    · have hfront : (Nat.toDigits 16 (n / 16)).foldlM
          (fun n c => (hexDigit? c).map (16 * n + ·)) 0 = some (n / 16) := ih (n / 16) (by omega)
      rw [Nat.toDigits_of_base_le (by decide) (by omega), readHex?, List.foldlM_append, hfront]
      simp [hexDigit?_digitChar (n % 16) (by omega)]
      omega

theorem isAddress_address (n : Nat) : IsAddress n (address n).toList := by
  have hlist : (address n).toList = '0' :: 'x' :: Nat.toDigits 16 n := by
    rw [address, hex, String.toList_append]
    simp
  rw [hlist]
  exact ⟨⟨_, rfl, Nat.toDigits_ne_nil, fun _ => isLowerHex_of_mem_toDigits,
    toDigits_eq_zero_or_head? (by decide) (by decide) n⟩, readHex?_toDigits n⟩

theorem address_inj {m n : Nat} (h : address m = address n) : m = n := by
  have hread := (isAddress_address m).read
  rw [h, (isAddress_address n).read] at hread
  exact (Option.some.inj hread).symm

end Inspector.Text
