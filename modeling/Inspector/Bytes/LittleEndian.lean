/-
  Inspector/Bytes/LittleEndian.lean
  =================================
  **Little-endian words.**

  The contents of a value arrive as plain bytes, the least significant first.  Every
  reader and writer of the inspector goes through the two functions here: the number
  that bytes denote, and the bytes of a given width that denote a number.  They are
  inverse to each other up to the width (`toNat_ofNat`, `ofNat_toNat`).
-/
import Inspector.Error

namespace Inspector

/-- The contents of a value, or a part of them. -/
abbrev Bytes := List UInt8

namespace Bytes

/-! ### Numbers and their bytes -/

def toNat : Bytes → Nat
  | [] => 0
  | b :: rest => b.toNat + 256 * toNat rest

/-- The bytes of a number. What does not fit the width is dropped. -/
def ofNat : (width : Nat) → Nat → Bytes
  | 0, _ => []
  | width + 1, n => UInt8.ofNat n :: ofNat width (n / 256)

def limit (width : Nat) : Nat :=
  Nat.pow 256 width

theorem limit_succ (width : Nat) : limit (width + 1) = 256 * limit width :=
  Nat.mul_comm _ _

theorem length_ofNat (width n : Nat) : (ofNat width n).length = width := by
  induction width generalizing n with
  | zero => rfl
  | succ w ih => simp [ofNat, ih]

theorem toNat_lt (data : Bytes) : toNat data < limit data.length := by
  induction data with
  | nil => exact Nat.one_pos
  | cons b rest ih =>
    have hb : b.toNat < 256 := b.toNat_lt
    rw [toNat, List.length_cons, limit_succ]
    omega

theorem toNat_ofNat (width n : Nat) : toNat (ofNat width n) = n % limit width := by
  induction width generalizing n with
  | zero => exact (Nat.mod_one n).symm
  | succ w ih =>
    rw [ofNat, toNat, ih, limit_succ, Nat.mod_mul, UInt8.toNat_ofNat']

theorem ofNat_toNat (data : Bytes) : ofNat data.length (toNat data) = data := by
  induction data with
  | nil => rfl
  | cons b rest ih =>
    have hb : b.toNat < 256 := b.toNat_lt
    have hdiv : (b.toNat + 256 * toNat rest) / 256 = toNat rest := by omega
    have hmod : UInt8.ofNat (b.toNat + 256 * toNat rest) = b := by
      apply UInt8.toNat_inj.mp
      rw [UInt8.toNat_ofNat']
      omega
    rw [List.length_cons, ofNat, toNat, hdiv, hmod, ih]

/-! ### Words at the front of a buffer -/

/-- The word that the first `width` bytes denote. -/
def word (width : Nat) (data : Bytes) : Except Error Nat :=
  if width ≤ data.length then .ok (toNat (data.take width)) else .error .outOfBounds

/-- A word of an address takes eight bytes if there are as many, and four otherwise: the
    width is that of the debuggee, whatever machine the inspector runs on. -/
def nativeWidth (data : Bytes) : Nat :=
  if 8 ≤ data.length then 8 else 4

def nativeWord (data : Bytes) : Except Error Nat :=
  word (nativeWidth data) data

end Bytes

end Inspector
