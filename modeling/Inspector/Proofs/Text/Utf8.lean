/-
  Inspector/Proofs/Text/Utf8.lean
  ===============================
  **UTF-8 loses no text.**

  The decoder accepts any bytes, so it has a case for every way in which bytes can be
  wrong.  On the bytes of a text none of these is taken: `decode_encode` says that the
  receiver gets back what the sender encoded.  A character is encoded in one of four
  lengths; for each of them the first byte opens a range that its second byte meets, and
  the payload bits of all bytes add up to the code point again.
-/
import Inspector.Text.Utf8
import Mathlib.Tactic.IntervalCases

namespace Inspector.Text.Utf8

/-! ### The machine, a byte at a time -/

theorem decodeFrom_cons (begun : Option Begun) (b : UInt8) (rest : List UInt8) :
    decodeFrom begun (b :: rest) = (step begun b).1 ++ decodeFrom (step begun b).2 rest := by
  rw [decodeFrom]

theorem decodeFrom_opening {b : UInt8} {begun : Begun} (h : opening b = ([], some begun))
    (rest : List UInt8) : decodeFrom none (b :: rest) = decodeFrom (some begun) rest := by
  rw [decodeFrom_cons, step, h, List.nil_append]

/-- A byte in the range that is awaited adds its six payload bits. -/
theorem step_awaited {low high : UInt8} {payload : Nat} (more value : Nat)
    (hlow : low.toNat ≤ payload + 0x80) (hhigh : payload + 0x80 ≤ high.toNat) :
    step (some ⟨more, low, high, value⟩) (UInt8.ofNat (payload + 0x80))
      = if more = 0 then ([Char.ofNat (value * 64 + payload)], none)
        else ([], some ⟨more - 1, 0x80, 0xBF, value * 64 + payload⟩) := by
  have hbyte : (UInt8.ofNat (payload + 0x80)).toNat = payload + 0x80 := by
    have hlt := high.toNat_lt
    rw [UInt8.toNat_ofNat']
    omega
  have hrange : low ≤ UInt8.ofNat (payload + 0x80) ∧ UInt8.ofNat (payload + 0x80) ≤ high := by
    rw [UInt8.le_iff_toNat_le, UInt8.le_iff_toNat_le, hbyte]
    exact ⟨hlow, hhigh⟩
  rw [step, if_pos hrange, hbyte, Nat.add_sub_cancel]

theorem decodeFrom_more {low high : UInt8} {payload : Nat} (more value : Nat)
    (hlow : low.toNat ≤ payload + 0x80) (hhigh : payload + 0x80 ≤ high.toNat)
    (rest : List UInt8) :
    decodeFrom (some ⟨more + 1, low, high, value⟩) (UInt8.ofNat (payload + 0x80) :: rest)
      = decodeFrom (some ⟨more, 0x80, 0xBF, value * 64 + payload⟩) rest := by
  rw [decodeFrom_cons, step_awaited (more + 1) value hlow hhigh, if_neg (Nat.succ_ne_zero more),
    List.nil_append, Nat.add_sub_cancel]

theorem decodeFrom_last {payload : Nat} (value : Nat) (h : payload < 0x40)
    (rest : List UInt8) :
    decodeFrom (some ⟨0, 0x80, 0xBF, value⟩) (UInt8.ofNat (payload + 0x80) :: rest)
      = Char.ofNat (value * 64 + payload) :: decodeFrom none rest := by
  have hlow : (0x80 : UInt8).toNat ≤ payload + 0x80 := Nat.le_add_left _ _
  have hhigh : payload + 0x80 ≤ (0xBF : UInt8).toNat := by
    simp only [UInt8.reduceToNat]
    omega
  rw [decodeFrom_cons, step_awaited 0 value hlow hhigh, if_pos rfl, List.singleton_append]

/-! ### Leading bytes

The second byte of a three- or four-byte character has a narrower range behind some
leading bytes; `second` names it by the value that the leading byte carries. -/

theorem opening_ascii {n : Nat} (h : n < 0x80) :
    opening (UInt8.ofNat n) = ([Char.ofNat n], none) := by
  have hbyte : (UInt8.ofNat n).toNat = n := by
    rw [UInt8.toNat_ofNat']
    omega
  simp only [opening, hbyte, if_pos h]

theorem opening_two {n : Nat} (hlow : 2 ≤ n) (hhigh : n < 0x20) :
    opening (UInt8.ofNat (n + 0xC0)) = ([], some ⟨0, 0x80, 0xBF, n⟩) := by
  have hbyte : (UInt8.ofNat (n + 0xC0)).toNat = n + 0xC0 := by
    rw [UInt8.toNat_ofNat']
    omega
  simp only [opening, hbyte]
  rw [if_neg (by omega), if_pos (by omega), Nat.add_sub_cancel]

theorem opening_three {n : Nat} (h : n < 0x10) :
    opening (UInt8.ofNat (n + 0xE0))
      = ([], some ⟨1, if n = 0 then 0xA0 else 0x80, if n = 0x0D then 0x9F else 0xBF, n⟩) := by
  interval_cases n <;> rfl

theorem opening_four {n : Nat} (h : n < 5) :
    opening (UInt8.ofNat (n + 0xF0))
      = ([], some ⟨2, if n = 0 then 0x90 else 0x80, if n = 4 then 0x8F else 0xBF, n⟩) := by
  interval_cases n <;> rfl

/-! ### Whole characters, by the number of their bytes -/

theorem decodeFrom_two {v : Nat} (hlow : 0x7F < v) (hhigh : v ≤ 0x7FF) (rest : List UInt8) :
    decodeFrom none
        (UInt8.ofNat (v / 64 % 0x20 + 0xC0) :: UInt8.ofNat (v % 0x40 + 0x80) :: rest)
      = Char.ofNat v :: decodeFrom none rest := by
  have hsum : v / 64 % 0x20 * 64 + v % 0x40 = v := by omega
  rw [decodeFrom_opening (opening_two (by omega) (by omega)),
    decodeFrom_last _ (by omega), hsum]

/-- Behind the leading byte of zero the second byte starts higher, which excludes overlong
    forms, and behind that of `0xD000` it ends lower, which excludes surrogates. -/
theorem second_of_three {v : Nat} (hlow : 0x7FF < v) (hhigh : v ≤ 0xFFFF)
    (hvalid : v < 0xD800 ∨ 0xDFFF < v) :
    (if v / 4096 % 0x10 = 0 then 0xA0 else 0x80 : UInt8).toNat ≤ v / 64 % 0x40 + 0x80
      ∧ v / 64 % 0x40 + 0x80 ≤ (if v / 4096 % 0x10 = 0x0D then 0x9F else 0xBF : UInt8).toNat := by
  constructor <;> split <;> simp only [UInt8.reduceToNat] <;> omega

theorem decodeFrom_three {v : Nat} (hlow : 0x7FF < v) (hhigh : v ≤ 0xFFFF)
    (hvalid : v < 0xD800 ∨ 0xDFFF < v) (rest : List UInt8) :
    decodeFrom none
        (UInt8.ofNat (v / 4096 % 0x10 + 0xE0) :: UInt8.ofNat (v / 64 % 0x40 + 0x80)
          :: UInt8.ofNat (v % 0x40 + 0x80) :: rest)
      = Char.ofNat v :: decodeFrom none rest := by
  obtain ⟨hsecond, hsecond'⟩ := second_of_three hlow hhigh hvalid
  have hsum : (v / 4096 % 0x10 * 64 + v / 64 % 0x40) * 64 + v % 0x40 = v := by omega
  rw [decodeFrom_opening (opening_three (by omega)), decodeFrom_more 0 _ hsecond hsecond',
    decodeFrom_last _ (by omega), hsum]

/-- The narrower ranges exclude overlong forms and what lies behind the last code point. -/
theorem second_of_four {v : Nat} (hlow : 0xFFFF < v) (hhigh : v < 0x110000) :
    (if v / 262144 % 0x08 = 0 then 0x90 else 0x80 : UInt8).toNat ≤ v / 4096 % 0x40 + 0x80
      ∧ v / 4096 % 0x40 + 0x80 ≤ (if v / 262144 % 0x08 = 4 then 0x8F else 0xBF : UInt8).toNat := by
  constructor <;> split <;> simp only [UInt8.reduceToNat] <;> omega

theorem decodeFrom_four {v : Nat} (hlow : 0xFFFF < v) (hhigh : v < 0x110000)
    (rest : List UInt8) :
    decodeFrom none
        (UInt8.ofNat (v / 262144 % 0x08 + 0xF0) :: UInt8.ofNat (v / 4096 % 0x40 + 0x80)
          :: UInt8.ofNat (v / 64 % 0x40 + 0x80) :: UInt8.ofNat (v % 0x40 + 0x80) :: rest)
      = Char.ofNat v :: decodeFrom none rest := by
  obtain ⟨hsecond, hsecond'⟩ := second_of_four hlow hhigh
  have hthird : v / 64 % 0x40 + 0x80 ≤ (0xBF : UInt8).toNat := by
    simp only [UInt8.reduceToNat]
    omega
  have hsum : ((v / 262144 % 0x08 * 64 + v / 4096 % 0x40) * 64 + v / 64 % 0x40) * 64
      + v % 0x40 = v := by omega
  rw [decodeFrom_opening (opening_four (by omega)), decodeFrom_more 1 _ hsecond hsecond',
    decodeFrom_more 0 _ (Nat.le_add_left _ _) hthird, decodeFrom_last _ (by omega), hsum]

theorem decodeFrom_encodeChar (c : Char) (rest : List UInt8) :
    decodeFrom none (String.utf8EncodeChar c ++ rest) = c :: decodeFrom none rest := by
  have hchar : Char.ofNat c.val.toNat = c := Char.ofNat_toNat c
  have hvalid : c.val.toNat < 0xD800 ∨ 0xDFFF < c.val.toNat ∧ c.val.toNat < 0x110000 := c.valid
  simp only [String.utf8EncodeChar]
  by_cases h1 : c.val.toNat ≤ 0x7F
  · rw [if_pos h1, List.singleton_append, decodeFrom_cons, step, opening_ascii (by omega), hchar]
    rfl
  · rw [if_neg h1]
    by_cases h2 : c.val.toNat ≤ 0x7FF
    · rw [if_pos h2]
      exact (decodeFrom_two (by omega) h2 rest).trans (by rw [hchar])
    · rw [if_neg h2]
      by_cases h3 : c.val.toNat ≤ 0xFFFF
      · rw [if_pos h3]
        exact (decodeFrom_three (by omega) h3 (by omega) rest).trans (by rw [hchar])
      · rw [if_neg h3]
        exact (decodeFrom_four (by omega) (by omega) rest).trans (by rw [hchar])

theorem decode_encode (cs : List Char) : decode (encode cs) = cs := by
  induction cs with
  | nil => rfl
  | cons c cs ih =>
    rw [decode, encode, List.flatMap_cons, decodeFrom_encodeChar]
    exact congrArg (c :: ·) ih

theorem encode_eq_nil_iff {cs : List Char} : encode cs = [] ↔ cs = [] := by
  constructor
  · intro h
    have hback := decode_encode cs
    rw [h] at hback
    exact hback.symm
  · rintro rfl
    rfl

theorem length_encode (s : String) : (encode s.toList).length = s.utf8ByteSize := by
  have hbytes : s.toByteArray = (encode s.toList).toByteArray := by
    conv_lhs => rw [← String.ofList_toList (s := s)]
    exact String.toByteArray_ofList
  rw [String.utf8ByteSize, hbytes, List.size_toByteArray]

end Inspector.Text.Utf8
