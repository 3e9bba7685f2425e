/-
  Inspector/Proofs/Bytes/NativeWord.lean
  ======================================
  **Words of the size of an address.**

  An address-sized word has the width that its contents allow: eight bytes if there are
  as many, else four.  So it can be read from four bytes on, and not from fewer.  Read in
  two's complement it is a signed number, and that number modulo the limit of the width
  is the word again (`twosComplement_emod`).
-/
import Inspector.Proofs.Bytes.Buffer
import Mathlib.Tactic.Ring

namespace Inspector.Bytes

theorem nativeWidth_le_iff (data : Bytes) :
    nativeWidth data ≤ data.length ↔ 4 ≤ data.length := by
  unfold nativeWidth
  split <;> omega

theorem nativeWord_of_short {data : Bytes} (h : data.length < 4) :
    nativeWord data = .error .outOfBounds := by
  have hshort : ¬nativeWidth data ≤ data.length := by
    rw [nativeWidth_le_iff]
    omega
  rw [nativeWord, word, if_neg hshort]

theorem nativeWord_of_long {data : Bytes} (h : 4 ≤ data.length) :
    nativeWord data = .ok (toNat (data.take (nativeWidth data))) := by
  rw [nativeWord, word, if_pos ((nativeWidth_le_iff data).mpr h)]

/-- A number is read back from its four or eight bytes. -/
theorem nativeWord_ofNat {width n : Nat} (hwidth : width = 4 ∨ width = 8) (h : n < limit width) :
    nativeWord (ofNat width n) = .ok n := by
  have hnative : nativeWidth (ofNat width n) = width := by
    rcases hwidth with rfl | rfl
    · rw [nativeWidth, length_ofNat, if_neg (by decide)]
    · rw [nativeWidth, length_ofNat, if_pos (by decide)]
  rw [nativeWord, hnative, word_ofNat h]

theorem nativeWord_ofNat_uint64 (n : UInt64) : nativeWord (ofNat 8 n.toNat) = .ok n.toNat :=
  nativeWord_ofNat (.inr rfl) (by rw [limit_eight]; exact n.toNat_lt)

/-- Reading a word in two's complement and taking the number modulo the limit of its width
    gives the word back. -/
theorem twosComplement_emod {width word : Nat} (h : word < limit width) :
    (twosComplement width word % (limit width : Nat)).toNat = word := by
  unfold twosComplement
  split
  · rw [Int.emod_eq_of_lt (by omega) (by omega), Int.toNat_natCast]
  · rw [Int.sub_emod_right, Int.emod_eq_of_lt (by omega) (by omega), Int.toNat_natCast]

def nativeBits (data : Bytes) : Nat :=
  if 8 ≤ data.length then 64 else 32

theorem limit_nativeWidth (data : Bytes) :
    (limit (nativeWidth data) : Int) = 2 ^ nativeBits data := by
  unfold nativeWidth nativeBits
  split <;> decide

end Inspector.Bytes
