/-
  Inspector/Proofs/Text/Surrogates.lean
  =====================================
  **What decoding repairs.**

  Decoding takes any sequence of units, well formed or not.  Which surrogates are paired
  is a matter of position alone: a pair is a high surrogate with a low one behind it, and
  since no unit is both, two pairs never overlap (`IsPairAt`, `IsUnpaired`).  Encoding a
  decoded sequence therefore gives as many units as it had, and gives every unit back but
  the unpaired surrogates, each of which has become the unit of the replacement character
  (`repairs_encode_decode`).  Nothing is repaired exactly in the sequences that the
  grammar of UTF-16 allows (`encode_decode_eq_iff`).
-/
import Inspector.Proofs.Text.Utf16
import Mathlib

namespace Inspector.Text.Utf16

/-! ### Pairs by position -/

def isSurrogate (u : UInt16) : Bool :=
  isHigh u || isLow u

/-- A pair begins at a position: a high surrogate with a low one behind it. -/
def IsPairAt (units : List UInt16) (i : Nat) : Prop :=
  units[i]?.any isHigh = true ∧ units[i + 1]?.any isLow = true

instance (units : List UInt16) (i : Nat) : Decidable (IsPairAt units i) :=
  inferInstanceAs (Decidable (_ ∧ _))

/-- A surrogate that neither begins a pair nor ends one. -/
structure IsUnpaired (units : List UInt16) (i : Nat) : Prop where
  surrogate : units[i]?.any isSurrogate = true
  notFirst : ¬IsPairAt units i
  notSecond : ∀ j, i = j + 1 → ¬IsPairAt units j

theorem isUnpaired_iff (units : List UInt16) (i : Nat) :
    IsUnpaired units i ↔ units[i]?.any isSurrogate = true ∧ ¬IsPairAt units i
      ∧ ¬(0 < i ∧ IsPairAt units (i - 1)) := by
  constructor
  · rintro ⟨hsurrogate, hfirst, hsecond⟩
    exact ⟨hsurrogate, hfirst, fun ⟨hpos, hpair⟩ => hsecond (i - 1) (by omega) hpair⟩
  · rintro ⟨hsurrogate, hfirst, hsecond⟩
    refine ⟨hsurrogate, hfirst, ?_⟩
    rintro j rfl hpair
    exact hsecond ⟨Nat.succ_pos j, hpair⟩

instance (units : List UInt16) (i : Nat) : Decidable (IsUnpaired units i) :=
  decidable_of_iff' _ (isUnpaired_iff units i)

/-! Of two high surrogates and two low ones behind them, the middle two are a pair. -/

example : (List.range 4).filter (IsUnpaired [0xD83D, 0xD83D, 0xDE00, 0xDE00]) = [0, 3] := by decide

theorem not_isHigh_of_isLow {u : UInt16} (h : isLow u = true) : isHigh u = false := by
  rw [← Bool.not_eq_true, isHigh_iff]
  rw [isLow_iff] at h
  omega

section Positions

variable {u v : UInt16} {rest units : List UInt16} {i : Nat}

@[simp] theorem isPairAt_singleton : ¬IsPairAt [u] 0 := by
  simp [IsPairAt]

@[simp] theorem isPairAt_zero :
    IsPairAt (u :: v :: rest) 0 ↔ isHigh u = true ∧ isLow v = true := by
  simp [IsPairAt]

@[simp] theorem isPairAt_succ : IsPairAt (u :: rest) (i + 1) ↔ IsPairAt rest i := by
  simp [IsPairAt]

theorem not_isPairAt_zero_of_isLow (h : isLow u = true) : ¬IsPairAt (u :: rest) 0 := by
  cases rest with
  | nil => exact isPairAt_singleton
  | cons v rest => simp [not_isHigh_of_isLow h]

theorem isUnpaired_zero :
    IsUnpaired (u :: rest) 0 ↔ isSurrogate u = true ∧ ¬IsPairAt (u :: rest) 0 := by
  constructor
  · intro h
    exact ⟨by simpa using h.surrogate, h.notFirst⟩
  · rintro ⟨hsurrogate, hfirst⟩
    exact ⟨by simpa using hsurrogate, hfirst, fun j hj => absurd hj (by omega)⟩

/-- Further on, only the unit right before a position has a say in it. -/
theorem isUnpaired_succ_succ :
    IsUnpaired (u :: rest) (i + 2) ↔ IsUnpaired rest (i + 1) := by
  constructor
  · intro h
    refine ⟨by simpa using h.surrogate, by simpa using h.notFirst, ?_⟩
    intro j hj
    have hsecond := h.notSecond (j + 1) (by omega)
    simpa using hsecond
  · intro h
    refine ⟨by simpa using h.surrogate, by simpa using h.notFirst, ?_⟩
    intro j hj
    obtain rfl : j = i + 1 := by omega
    simpa using h.notSecond i rfl

/-- A unit that begins no pair does not change which of the units behind it are unpaired. -/
theorem isUnpaired_succ (h : ¬IsPairAt (u :: rest) 0) :
    IsUnpaired (u :: rest) (i + 1) ↔ IsUnpaired rest i := by
  cases i with
  | succ i => exact isUnpaired_succ_succ
  | zero =>
    constructor
    · intro hunpaired
      refine ⟨by simpa using hunpaired.surrogate, by simpa using hunpaired.notFirst, ?_⟩
      intro j hj
      omega
    · intro hunpaired
      refine ⟨by simpa using hunpaired.surrogate, by simpa using hunpaired.notFirst, ?_⟩
      intro j hj
      obtain rfl : j = 0 := by omega
      exact h

end Positions

/-! ### The units of a decoded character -/

theorem isValidChar_of_not_surrogate {u : UInt16} (h : isSurrogate u = false) :
    u.toNat.isValidChar := by
  rw [isSurrogate, Bool.or_eq_false_iff, ← Bool.not_eq_true, ← Bool.not_eq_true, isHigh_iff,
    isLow_iff] at h
  have hlt : u.toNat < 0x10000 := u.toNat_lt
  rw [Nat.isValidChar]
  omega

theorem encodeChar_ofUnit (u : UInt16) :
    encodeChar (ofUnit u) = [if isSurrogate u then 0xFFFD else u] := by
  cases hsurrogate : isSurrogate u with
  | true =>
    rw [ofUnit, ← isSurrogate, hsurrogate]
    rfl
  | false =>
    have hlt : u.toNat < 0x10000 := u.toNat_lt
    rw [ofUnit, ← isSurrogate, hsurrogate, if_neg Bool.false_ne_true, if_neg Bool.false_ne_true]
    simp only [encodeChar, Char.toNat_ofNat, isValidChar_of_not_surrogate hsurrogate, if_true, hlt,
      UInt16.ofNat_toNat]

/-- The two halves of twenty bits are taken apart as they were put together. -/
theorem encodeChar_ofPair {u v : UInt16} (hu : isHigh u = true) (hv : isLow v = true) :
    encodeChar (ofPair u v) = [u, v] := by
  rw [isHigh_iff] at hu
  rw [isLow_iff] at hv
  have hvalid : (0x10000 + (u.toNat - 0xD800) * 0x400 + (v.toNat - 0xDC00)).isValidChar := by
    rw [Nat.isValidChar]
    omega
  have hhigh : 0xD800 + (0x10000 + (u.toNat - 0xD800) * 0x400 + (v.toNat - 0xDC00) - 0x10000)
      / 0x400 = u.toNat := by omega
  have hlow : 0xDC00 + (0x10000 + (u.toNat - 0xD800) * 0x400 + (v.toNat - 0xDC00) - 0x10000)
      % 0x400 = v.toNat := by omega
  rw [encodeChar, ofPair, Char.toNat_ofNat, if_pos hvalid, if_neg (by omega), hhigh, hlow,
    UInt16.ofNat_toNat, UInt16.ofNat_toNat]

theorem encode_cons (c : Char) (cs : List Char) : encode (c :: cs) = encodeChar c ++ encode cs :=
  List.flatMap_cons

/-! ### Repair -/

/-- A sequence with its unpaired surrogates replaced, and nothing else. -/
structure Repairs (repaired units : List UInt16) : Prop where
  length : repaired.length = units.length
  replaced : ∀ i, IsUnpaired units i → repaired[i]? = some 0xFFFD
  kept : ∀ i, ¬IsUnpaired units i → repaired[i]? = units[i]?

section Repair

variable {u v : UInt16} {rest repaired units : List UInt16} {i : Nat}

theorem repairs_nil : Repairs [] [] where
  length := rfl
  replaced _ h := absurd h.surrogate (by simp)
  kept _ _ := rfl

/-- A unit that begins no pair is kept or replaced by what it is alone. -/
theorem Repairs.cons (h : Repairs repaired rest) (hpair : ¬IsPairAt (u :: rest) 0) :
    Repairs ((if isSurrogate u then 0xFFFD else u) :: repaired) (u :: rest) where
  length := by simp [h.length]
  replaced i hi := by
    cases i with
    | zero => simp [(isUnpaired_zero.mp hi).1]
    | succ i => simpa using h.replaced i ((isUnpaired_succ hpair).mp hi)
  kept i hi := by
    cases i with
    | zero =>
      have hplain : ¬isSurrogate u = true := fun hs => hi (isUnpaired_zero.mpr ⟨hs, hpair⟩)
      simp [hplain]
    | succ i => simpa using h.kept i (fun hu => hi ((isUnpaired_succ hpair).mpr hu))

theorem Repairs.pair (h : Repairs repaired rest) (hu : isHigh u = true) (hv : isLow v = true) :
    Repairs (u :: v :: repaired) (u :: v :: rest) where
  length := by simp [h.length]
  replaced i hi := by
    match i with
    | 0 => exact absurd (isPairAt_zero.mpr ⟨hu, hv⟩) hi.notFirst
    | 1 => exact absurd (isPairAt_zero.mpr ⟨hu, hv⟩) (hi.notSecond 0 rfl)
    | i + 2 =>
      -- the low surrogate begins no pair of its own
      have htail := (isUnpaired_succ (not_isPairAt_zero_of_isLow hv)).mp
        (isUnpaired_succ_succ.mp hi)
      simpa using h.replaced i htail
  kept i hi := by
    match i with
    | 0 => rfl
    | 1 => rfl
    | i + 2 =>
      have htail : ¬IsUnpaired rest i := fun hu =>
        hi (isUnpaired_succ_succ.mpr ((isUnpaired_succ (not_isPairAt_zero_of_isLow hv)).mpr hu))
      simpa using h.kept i htail

/-- Decoding and encoding replaces the unpaired surrogates, each by one unit. The induction
    is on the scan, which takes one unit or a pair at a time. -/
theorem repairs_encode_decode (units : List UInt16) : Repairs (encode (decode units)) units := by
  induction units using decode.induct with
  | case1 => exact repairs_nil
  | case2 u =>
    rw [decode, encode_cons, encodeChar_ofUnit]
    exact repairs_nil.cons isPairAt_singleton
  | case3 u v rest hpair ih =>
    obtain ⟨hu, hv⟩ := Bool.and_eq_true_iff.mp hpair
    rw [decode_pair hu hv, encode_cons, encodeChar_ofPair hu hv]
    exact ih.pair hu hv
  | case4 u v rest hpair ih =>
    rw [decode, if_neg hpair, encode_cons, encodeChar_ofUnit]
    refine ih.cons ?_
    rwa [isPairAt_zero, ← Bool.and_eq_true_iff]

/-- The unit of the replacement character is no surrogate, so what is replaced is changed. -/
theorem Repairs.differs_iff (h : Repairs repaired units) (i : Nat) :
    repaired[i]? ≠ units[i]? ↔ IsUnpaired units i := by
  constructor
  · intro hne
    by_contra hpaired
    exact hne (h.kept i hpaired)
  · intro hunpaired heq
    have hsurrogate := hunpaired.surrogate
    rw [← heq, h.replaced i hunpaired] at hsurrogate
    exact absurd hsurrogate (by decide)

end Repair

/-! ### Well-formed sequences -/

/-- The grammar of UTF-16: units that are no surrogates, and pairs. -/
inductive IsWellFormed : List UInt16 → Prop where
  | nil : IsWellFormed []
  | unit {u : UInt16} {rest : List UInt16} (plain : isSurrogate u = false)
      (wellFormed : IsWellFormed rest) : IsWellFormed (u :: rest)
  | pair {u v : UInt16} {rest : List UInt16} (high : isHigh u = true) (low : isLow v = true)
      (wellFormed : IsWellFormed rest) : IsWellFormed (u :: v :: rest)

theorem isWellFormed_encodeChar_append (c : Char) {rest : List UInt16} (h : IsWellFormed rest) :
    IsWellFormed (encodeChar c ++ rest) := by
  have hvalid : c.toNat < 0xD800 ∨ 0xDFFF < c.toNat ∧ c.toNat < 0x110000 := c.valid
  by_cases hsmall : c.toNat < 0x10000
  · obtain ⟨hhigh, hlow⟩ := not_surrogate hsmall
    rw [encodeChar, if_pos hsmall]
    exact .unit (by rw [isSurrogate, hhigh, hlow, Bool.or_self]) h
  · rw [encodeChar, if_neg hsmall]
    refine .pair ?_ ?_ h
    · rw [isHigh_iff, toNat_ofNat_unit (by omega)]
      omega
    · rw [isLow_iff, toNat_ofNat_unit (by omega)]
      omega

theorem isWellFormed_encode (cs : List Char) : IsWellFormed (encode cs) := by
  induction cs with
  | nil => exact .nil
  | cons c cs ih =>
    rw [encode_cons]
    exact isWellFormed_encodeChar_append c ih

theorem IsWellFormed.encode_decode {units : List UInt16} (h : IsWellFormed units) :
    encode (decode units) = units := by
  induction h with
  | nil => rfl
  | @unit u rest plain _ ih =>
    have hhigh : isHigh u = false := (Bool.or_eq_false_iff.mp plain).1
    rw [decode_cons_of_not_high hhigh, encode_cons, encodeChar_ofUnit, plain, ih]
    rfl
  | pair high low _ ih =>
    rw [decode_pair high low, encode_cons, encodeChar_ofPair high low, ih]
    rfl

theorem encode_decode_eq_iff {units : List UInt16} :
    encode (decode units) = units ↔ IsWellFormed units := by
  constructor
  · intro h
    rw [← h]
    exact isWellFormed_encode _
  · exact IsWellFormed.encode_decode

/-! ### Decoded texts -/

/-- A text that has a unit for each unit of its source, and the same one wherever the source
    is well-formed. -/
structure IsTextOf (s : String) (source : List UInt16) : Prop where
  decoded : s.toList = decode source
  length : (encode s.toList).length = source.length
  differs : ∀ i, (encode s.toList)[i]? ≠ source[i]? ↔ IsUnpaired source i
  replaced : ∀ i, IsUnpaired source i → (encode s.toList)[i]? = some 0xFFFD
  whole : encode s.toList = source ↔ IsWellFormed source

theorem isTextOf_decode (source : List UInt16) :
    IsTextOf (String.ofList (decode source)) source := by
  have hlist : (String.ofList (decode source)).toList = decode source := String.toList_ofList
  have hrepairs := repairs_encode_decode source
  constructor
  · exact hlist
  · rw [hlist]
    exact hrepairs.length
  · rw [hlist]
    exact hrepairs.differs_iff
  · rw [hlist]
    exact hrepairs.replaced
  · rw [hlist]
    exact encode_decode_eq_iff

end Inspector.Text.Utf16
