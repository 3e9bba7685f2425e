/-
  Inspector/Proofs/Bytes/Integers.lean
  ====================================
  **Integers and their words.**

  The numbers of an integer type follow each other without a gap and are as many as the
  words of its width, so each word is congruent to exactly one of them.  That one is what
  the type reads (`ofWord_eq_iff`), with a sign or without: the sign decides where the
  numbers start and nothing else.  A number of the type is therefore read back from its
  bytes (`read_bytes_append`), and types of one width read congruent numbers from one word.
-/
import Inspector.Proofs.Bytes.Buffer
import Mathlib.Data.Int.ModEq

namespace Inspector

theorem Bytes.limit_eq_two_pow (width : Nat) : limit width = 2 ^ (8 * width) :=
  (Nat.pow_mul 2 8 width).symm

theorem Bytes.limit_cast (width : Nat) : (limit width : Int) = 2 ^ (8 * width) := by
  rw [limit_eq_two_pow]
  exact Int.natCast_pow 2 _

/-! ### Words of items -/

namespace ItemType

theorem toWord_lt (t : ItemType) (n : Int) : t.toWord n < Bytes.limit t.width := by
  have hpos : 0 < (Bytes.limit t.width : Int) := by
    rw [Bytes.limit_cast]
    exact Int.pow_pos (by decide)
  have hlt := Int.emod_lt_of_pos n hpos
  rw [toWord]
  omega

theorem toWord_modEq (t : ItemType) (n : Int) : n ≡ t.toWord n [ZMOD 2 ^ (8 * t.width)] := by
  have hne : (Bytes.limit t.width : Int) ≠ 0 := by
    rw [Bytes.limit_cast]
    exact pow_ne_zero _ (by decide)
  rw [toWord, Int.toNat_of_nonneg (Int.emod_nonneg n hne), Bytes.limit_cast]
  exact (Int.mod_modEq n _).symm

end ItemType

namespace IntegerType

variable {t : IntegerType} {n m : Int} {word : Nat}

/-! ### The numbers of a type -/

def least (t : IntegerType) : Int :=
  if t.isSigned then -2 ^ (8 * t.width - 1) else 0

/-- The numbers that a type can hold. -/
def InRange (t : IntegerType) (n : Int) : Prop :=
  t.least ≤ n ∧ n < t.least + 2 ^ (8 * t.width)

instance (t : IntegerType) (n : Int) : Decidable (t.InRange n) :=
  inferInstanceAs (Decidable (_ ∧ _))

theorem two_mul_least (signed : t.isSigned = true) :
    2 * t.least = -2 ^ (8 * t.width) := by
  cases t <;> cases signed <;> rfl

theorem InRange.eq_of_modEq (hn : t.InRange n) (hm : t.InRange m)
    (h : n ≡ m [ZMOD 2 ^ (8 * t.width)]) : n = m := by
  have hlt : |m - n| < 2 ^ (8 * t.width) := by
    obtain ⟨hn, hn'⟩ := hn
    obtain ⟨hm, hm'⟩ := hm
    rw [abs_lt]
    omega
  have hzero := Int.eq_zero_of_abs_lt_dvd h.dvd hlt
  omega

/-! ### What a type reads -/

theorem ofWord_modEq (t : IntegerType) (word : Nat) :
    t.ofWord word ≡ word [ZMOD 2 ^ (8 * t.width)] := by
  unfold ofWord twosComplement
  split
  · split
    · exact Int.ModEq.refl _
    · rw [Bytes.limit_cast]
      exact Int.modEq_iff_dvd.mpr ⟨1, by omega⟩
  · exact Int.ModEq.refl _

theorem inRange_ofWord (h : word < Bytes.limit t.width) : t.InRange (t.ofWord word) := by
  have hlimit := Bytes.limit_cast t.width
  cases signed : t.isSigned with
  | false =>
    simp only [InRange, ofWord, least, signed, Bool.false_eq_true, if_false]
    omega
  | true =>
    have hleast := two_mul_least signed
    simp only [InRange, ofWord, signed, if_true, twosComplement]
    split <;> omega

/-- A type reads a word as its one number that is congruent to the word. -/
theorem ofWord_eq_iff (h : word < Bytes.limit t.width) :
    t.ofWord word = n ↔ t.InRange n ∧ n ≡ word [ZMOD 2 ^ (8 * t.width)] := by
  constructor
  · rintro rfl
    exact ⟨inRange_ofWord h, t.ofWord_modEq word⟩
  · rintro ⟨hn, hmod⟩
    exact (inRange_ofWord h).eq_of_modEq hn ((t.ofWord_modEq word).trans hmod.symm)

/-! ### Round trip -/

/-- A number of a type is what the type reads from the word of the number. -/
theorem ofWord_toWord (h : t.InRange n) : t.ofWord ((ItemType.integer t).toWord n) = n :=
  (ofWord_eq_iff (ItemType.toWord_lt (.integer t) n)).mpr
    ⟨h, ItemType.toWord_modEq (.integer t) n⟩

/-- A number of a type is read back from its bytes, whatever follows them. -/
theorem read_bytes_append (h : t.InRange n) (rest : Bytes) :
    t.read ((ItemType.integer t).bytes n ++ rest) = .ok n := by
  have hword : Bytes.word t.width ((ItemType.integer t).bytes n ++ rest)
      = .ok ((ItemType.integer t).toWord n) :=
    Bytes.word_ofNat_append (ItemType.toWord_lt (.integer t) n) rest
  rw [read, hword]
  exact congrArg Except.ok (ofWord_toWord h)

end IntegerType

end Inspector
