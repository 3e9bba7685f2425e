/-
  Inspector/Proofs/Enumeration/Widening.lean
  ==========================================
  **Widening keeps what is stored.**

  An enum stores its constants in one to eight bytes, and they are compared as 64-bit words.
  A signed word is extended by its sign, so up to fifty-six bits are set that no byte of
  the storage holds.  All of them are copies of one stored bit, and otherwise zero
  (`hasBit_widen`): equality, common bits, cleared bits and the order of two words can be
  read off the stored bits alone, and a word has the number that was stored.

  `KeepsWords` lists this for a storage type as it is read from bytes, and every type that
  has a width of its own satisfies it (`keepsWords_of_integerWidth?`).
-/
import Inspector.Proofs.Bytes.Integers
import Inspector.Proofs.Debuggee.Answers
import Inspector.Proofs.Enumeration.Flags

namespace Inspector

/-- Whether a tag announces numbers with a sign. -/
def ElementType.isSigned : ElementType → Bool
  | .int8 | .int16 | .int32 | .int64 => true
  | _ => false

namespace Enumeration

/-! ### Stored words -/

/-- The word in the first bytes of a buffer. -/
def storedWord (width : Nat) (data : Bytes) : BitVec (8 * width) :=
  BitVec.ofNat _ (Bytes.toNat (data.take width))

/-- The bytes that store a word. -/
def storedBytes {width : Nat} (word : BitVec (8 * width)) : Bytes :=
  Bytes.ofNat width word.toNat

def readStored (width : Nat) (data : Bytes) : Except Error (BitVec (8 * width)) :=
  if width ≤ data.length then .ok (storedWord width data) else .error .outOfBounds

theorem toNat_storedWord (width : Nat) (data : Bytes) :
    (storedWord width data).toNat = Bytes.toNat (data.take width) := by
  have hlt : Bytes.toNat (data.take width) < Bytes.limit width :=
    Nat.lt_of_lt_of_le (Bytes.toNat_lt _)
      (Nat.pow_le_pow_right (by decide) (List.length_take_le width data))
  rw [storedWord, BitVec.toNat_ofNat, ← Bytes.limit_eq_two_pow, Nat.mod_eq_of_lt hlt]

theorem toInt_storedWord (width : Nat) (data : Bytes) :
    (storedWord width data).toInt = twosComplement width (Bytes.toNat (data.take width)) := by
  rw [BitVec.toInt_eq_toNat_cond, toNat_storedWord, twosComplement, Bytes.limit_eq_two_pow]

theorem storedWord_take (width : Nat) (data : Bytes) :
    storedWord width (data.take width) = storedWord width data := by
  rw [storedWord, storedWord, List.take_take, Nat.min_self]

theorem readStored_storedBytes {width : Nat} (word : BitVec (8 * width)) :
    readStored width (storedBytes word) = .ok word := by
  have hlen : (storedBytes word).length = width := Bytes.length_ofNat _ _
  have hlt : word.toNat < Bytes.limit width := by
    rw [Bytes.limit_eq_two_pow]
    exact word.isLt
  rw [readStored, if_pos (Nat.le_of_eq hlen.symm)]
  congr 1
  apply BitVec.eq_of_toNat_eq
  rw [toNat_storedWord, List.take_of_length_le (Nat.le_of_eq hlen), storedBytes,
    Bytes.toNat_ofNat, Nat.mod_eq_of_lt hlt]

/-! ### Widening -/

/-- The 64-bit word of a stored word: extended by its sign, or by zeros. -/
def widen {n : Nat} (signed : Bool) (word : BitVec n) : UInt64 :=
  .ofBitVec (if signed then word.signExtend 64 else word.setWidth 64)

section Widening

variable {n : Nat} {signed : Bool} {a b : BitVec n}

/-- The bits of a widened word: those that are stored, and copies of the sign above them. -/
theorem hasBit_widen (h : n ≤ 64) (signed : Bool) (word : BitVec n) (i : Nat) :
    hasBit (widen signed word) i
      = if i < n then word.getLsbD i else decide (i < 64) && signed && word.msb := by
  cases signed with
  | true =>
    rw [hasBit, widen, if_pos rfl, BitVec.getLsbD_signExtend]
    split
    · next hi => rw [decide_eq_true (Nat.lt_of_lt_of_le hi h), Bool.true_and]
    · rw [Bool.and_true]
  | false =>
    rw [hasBit, widen, if_neg Bool.false_ne_true, BitVec.getLsbD_setWidth]
    split
    · next hi => rw [decide_eq_true (Nat.lt_of_lt_of_le hi h), Bool.true_and]
    · next hi =>
      rw [BitVec.getLsbD_of_ge _ _ (Nat.le_of_not_lt hi)]
      simp

theorem widen_inj (h : n ≤ 64) : widen signed a = widen signed b ↔ a = b := by
  constructor
  · intro heq
    apply BitVec.eq_of_getLsbD_eq
    intro i hi
    have hbit : hasBit (widen signed a) i = hasBit (widen signed b) i := by rw [heq]
    rwa [hasBit_widen h, hasBit_widen h, if_pos hi, if_pos hi] at hbit
  · exact congrArg (widen signed)

theorem widen_zero (h : n ≤ 64) (signed : Bool) : widen signed (0 : BitVec n) = 0 := by
  rw [eq_zero_iff]
  intro i
  rw [hasBit_widen h]
  simp

theorem widen_eq_zero_iff (h : n ≤ 64) : widen signed a = 0 ↔ a = 0 := by
  rw [← widen_zero h signed, widen_inj h]

theorem widen_and (h : n ≤ 64) (signed : Bool) (a b : BitVec n) :
    widen signed (a &&& b) = widen signed a &&& widen signed b := by
  apply eq_of_hasBit
  intro i
  rw [hasBit_and, hasBit_widen h, hasBit_widen h, hasBit_widen h, BitVec.getLsbD_and,
    BitVec.msb_and]
  split
  · rfl
  · cases decide (i < 64) <;> cases signed <;> rfl

/-- A bit that is cleared is cleared in all its copies. -/
theorem widen_and_not (h : n ≤ 64) (signed : Bool) (a b : BitVec n) :
    widen signed (a &&& ~~~b) = widen signed a &&& ~~~widen signed b := by
  apply eq_of_hasBit
  intro i
  rw [hasBit_and_not, hasBit_widen h, hasBit_widen h, hasBit_widen h, BitVec.getLsbD_and,
    BitVec.getLsbD_not, BitVec.msb_and, BitVec.msb_not]
  by_cases hi : i < n
  · rw [if_pos hi, if_pos hi, if_pos hi, decide_eq_true hi, Bool.true_and]
  · rw [if_neg hi, if_neg hi, if_neg hi]
    rcases Nat.eq_zero_or_pos n with rfl | hpos
    · rw [BitVec.of_length_zero (x := a)]
      simp
    · rw [decide_eq_true hpos, Bool.true_and]
      cases decide (i < 64) <;> cases signed <;> rfl

theorem toNat_widen (h : n ≤ 64) (signed : Bool) (word : BitVec n) :
    (widen signed word).toNat
      = word.toNat + if signed ∧ 2 ^ n ≤ 2 * word.toNat then 2 ^ 64 - 2 ^ n else 0 := by
  cases signed with
  | true =>
    have hsign : word.msb = true ↔ 2 ^ n ≤ 2 * word.toNat := BitVec.msb_eq_true_iff_two_mul_ge
    show (word.signExtend 64).toNat = _
    simp only [BitVec.toNat_signExtend, BitVec.toNat_setWidth_of_le h, hsign, true_and]
  | false =>
    show (word.setWidth 64).toNat = _
    simp [BitVec.toNat_setWidth_of_le h]

/-- The words with a sign come last, as they are stored and as they are widened. -/
theorem widen_le_iff (h : n ≤ 64) : widen signed a ≤ widen signed b ↔ a ≤ b := by
  have hpow : 2 ^ n ≤ 2 ^ 64 := Nat.pow_le_pow_right (by decide) h
  have ha : a.toNat < 2 ^ n := a.isLt
  have hb : b.toNat < 2 ^ n := b.isLt
  rw [UInt64.le_iff_toNat_le, toNat_widen h, toNat_widen h, BitVec.le_def]
  cases signed with
  | true =>
    simp only [true_and]
    split <;> split <;> omega
  | false => simp

theorem toNat_ofInt (i : Int) : (UInt64.ofInt i).toNat = (i % 2 ^ 64).toNat := by
  have hrange : (i % 2 ^ 64).toNat < 2 ^ 64 := by omega
  rw [UInt64.ofInt, UInt64.toNat_ofNat', Nat.mod_eq_of_lt hrange]

theorem toBitVec_ofInt (i : Int) : (UInt64.ofInt i).toBitVec = BitVec.ofInt 64 i := by
  apply BitVec.eq_of_toNat_eq
  rw [UInt64.toNat_toBitVec, toNat_ofInt, BitVec.toNat_ofInt]
  rfl

/-- Widening keeps the number that a word denotes, as far as 64 bits do. -/
theorem widen_true (word : BitVec n) : widen true word = UInt64.ofInt word.toInt := by
  apply UInt64.eq_of_toBitVec_eq
  rw [toBitVec_ofInt]
  rfl

theorem widen_false (word : BitVec n) : widen false word = UInt64.ofInt word.toNat := by
  apply UInt64.eq_of_toBitVec_eq
  rw [toBitVec_ofInt, BitVec.ofInt_natCast]
  apply BitVec.eq_of_toNat_eq
  rw [BitVec.toNat_ofNat, widen, if_neg Bool.false_ne_true, BitVec.toNat_setWidth]

end Widening

/-! ### Reading a stored word -/

theorem widen_storedWord (t : IntegerType) (data : Bytes) :
    widen t.isSigned (storedWord t.width data)
      = UInt64.ofInt (t.ofWord (Bytes.toNat (data.take t.width))) := by
  rw [IntegerType.ofWord]
  cases t.isSigned with
  | true => rw [widen_true, toInt_storedWord, if_pos rfl]
  | false => rw [widen_false, toNat_storedWord, if_neg Bool.false_ne_true]

theorem read_eq_readStored (t : IntegerType) (data : Bytes) :
    (t.read data).map UInt64.ofInt = (readStored t.width data).map (widen t.isSigned) := by
  rw [IntegerType.read, Bytes.word, readStored]
  split
  · simp only [answer_ok_map, widen_storedWord]
  · rfl

variable {storage : ElementType} {width n : Nat}

/-- A tag with a width of its own is read as the stored word, which is then widened. -/
theorem storageWord_eq_readStored (h : storage.integerWidth? = some width) (data : Bytes) :
    storageWord storage data = (readStored width data).map (widen storage.isSigned) := by
  cases storage <;> cases h
  case int8 => exact read_eq_readStored .int8 data
  case uint8 => exact read_eq_readStored .uint8 data
  case int16 => exact read_eq_readStored .int16 data
  case uint16 => exact read_eq_readStored .uint16 data
  case char => exact read_eq_readStored .uint16 data
  case int32 => exact read_eq_readStored .int32 data
  case uint32 => exact read_eq_readStored .uint32 data
  case int64 => exact read_eq_readStored .int64 data
  case uint64 => exact read_eq_readStored .uint64 data

theorem storageWord_storedBytes (h : storage.integerWidth? = some width)
    (word : BitVec (8 * width)) :
    storageWord storage (storedBytes word) = .ok (widen storage.isSigned word) := by
  rw [storageWord_eq_readStored h, readStored_storedBytes, answer_ok_map]

theorem storageWord_eq_ok (h : storage.integerWidth? = some width) {data : Bytes}
    {value : UInt64} (hvalue : storageWord storage data = .ok value) :
    value = widen storage.isSigned (storedWord width data) := by
  rw [storageWord_eq_readStored h, readStored] at hvalue
  split at hvalue <;> cases hvalue
  rfl

theorem bits_le_of_integerWidth? (h : storage.integerWidth? = some width) : 8 * width ≤ 64 := by
  cases storage <;> cases h <;> decide

/-! ### What widening keeps -/

/-- A storage type keeps the words of its width: it is read from the first bytes alone, the
    64-bit word has the number that is stored, and words are compared, intersected and
    cleared of bits alike before and after widening. -/
structure KeepsWords (storage : ElementType) (width : Nat) : Prop where
  error_iff : ∀ data e, storageWord storage data = .error e
    ↔ data.length < width ∧ e = .outOfBounds
  front : ∀ data, storageWord storage (data.take width) = storageWord storage data
  number : ∀ data value, storageWord storage data = .ok value → (value.toNat : Int)
    = if storage.isSigned then (storedWord width data).toInt % 2 ^ 64
      else ((storedWord width data).toNat : Int)
  eq_iff : ∀ a b wideA wideB, storageWord storage a = .ok wideA →
    storageWord storage b = .ok wideB → (wideA = wideB ↔ storedWord width a = storedWord width b)
  eq_zero_iff : ∀ a wideA, storageWord storage a = .ok wideA →
    (wideA = 0 ↔ storedWord width a = 0)
  common : ∀ a b wideA wideB, storageWord storage a = .ok wideA →
    storageWord storage b = .ok wideB →
    storageWord storage (storedBytes (storedWord width a &&& storedWord width b))
      = .ok (wideA &&& wideB)
  clear : ∀ a b wideA wideB, storageWord storage a = .ok wideA →
    storageWord storage b = .ok wideB →
    storageWord storage (storedBytes (storedWord width a &&& ~~~storedWord width b))
      = .ok (wideA &&& ~~~wideB)

theorem readStored_take (width : Nat) (data : Bytes) :
    readStored width (data.take width) = readStored width data := by
  rw [readStored, readStored, storedWord_take, List.length_take]
  simp only [Nat.le_min, Nat.le_refl, true_and]

theorem toNat_widen_eq_number (h : n ≤ 64) (signed : Bool) (word : BitVec n) :
    ((widen signed word).toNat : Int)
      = if signed then word.toInt % 2 ^ 64 else (word.toNat : Int) := by
  cases signed with
  | true =>
    have hnonneg : 0 ≤ word.toInt % 2 ^ 64 := Int.emod_nonneg _ (by decide)
    rw [widen_true, toNat_ofInt, Int.toNat_of_nonneg hnonneg, if_pos rfl]
  | false => rw [toNat_widen h, if_neg (by simp), Nat.add_zero, if_neg Bool.false_ne_true]

theorem keepsWords_of_integerWidth? (h : storage.integerWidth? = some width) :
    KeepsWords storage width := by
  have hbits : 8 * width ≤ 64 := bits_le_of_integerWidth? h
  constructor
  · intro data e
    rw [storageWord_eq_readStored h, answer_map_eq_error, readStored]
    split
    · next hle => simp [Nat.not_lt_of_le hle]
    · next hshort => simp [Nat.lt_of_not_le hshort, eq_comm]
  · intro data
    rw [storageWord_eq_readStored h, storageWord_eq_readStored h, readStored_take]
  · intro data value hvalue
    rw [storageWord_eq_ok h hvalue, toNat_widen_eq_number hbits]
  · intro a b wideA wideB ha hb
    rw [storageWord_eq_ok h ha, storageWord_eq_ok h hb, widen_inj hbits]
  · intro a wideA ha
    rw [storageWord_eq_ok h ha, widen_eq_zero_iff hbits]
  · intro a b wideA wideB ha hb
    rw [storageWord_eq_ok h ha, storageWord_eq_ok h hb, storageWord_storedBytes h,
      widen_and hbits]
  · intro a b wideA wideB ha hb
    rw [storageWord_eq_ok h ha, storageWord_eq_ok h hb, storageWord_storedBytes h,
      widen_and_not hbits]

end Enumeration

end Inspector
