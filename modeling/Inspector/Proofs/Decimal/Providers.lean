/-
  Inspector/Proofs/Decimal/Providers.lean
  =======================================
  **Each word of a decimal comes from its last provider.**

  A field provides a word by its name, and the field of both low words provides two of
  them (`Provides`).  One field that is taken in changes the words that it provides and
  no others (`takeField_word`), so after all fields a word is that of its last provider,
  and is as it was before if it has none (`foldlM_takeField_word`).
-/
import Inspector.Proofs.Decimal.Fields

namespace Inspector

namespace Decimal

/-! ### Words and their providers -/

/-- The four words, in the order in which missing ones are listed. -/
inductive Word where
  | hi | mid | lo | flags
deriving DecidableEq, Repr

namespace Word

def all : List Word := [hi, mid, lo, flags]

def name : Word → String
  | hi => "hi"
  | mid => "mid"
  | lo => "lo"
  | flags => "flags"

/-- The names of the fields that hold a word and nothing else. -/
def fieldNames : Word → List String
  | hi => ["hi", "_hi32"]
  | mid => ["mid"]
  | lo => ["lo"]
  | flags => ["flags", "_flags"]

/-- The name of the field that holds both low words. -/
def lowHalvesName : String := "_lo64"

end Word

def word (p : Decimal) : Word → UInt32
  | .hi => p.hi
  | .mid => p.mid
  | .lo => p.lo
  | .flags => p.flags

section Providing

variable {V : Type} (d : Debuggee V) (limit : Nat) (object : ObjectFacet V) (ty : TypeDesc)

/-- The value of a field is read as a number of a type. -/
def HoldsNumber (field : Field) (t : IntegerType) (number : Nat) : Prop :=
  ∃ x, object.fieldValue ty field.token = .ok x ∧ d.readInteger limit t x = .ok number

/-- A field of the instance that can be read, and as a number of its width if its name says
    that it holds one word or two. -/
structure CanBeRead (field : Field) : Prop where
  value : ∃ x, object.fieldValue ty field.token = .ok x
  word : ∀ w : Word, field.name ∈ w.fieldNames →
    ∃ number, HoldsNumber d limit object ty field .uint32 number
  lowHalves : field.name = Word.lowHalvesName →
    ∃ number, HoldsNumber d limit object ty field .uint64 number

/-- A field that is neither static nor literal provides a word: all of its number, or one
    half of it. -/
inductive Provides (field : Field) : Word → UInt32 → Prop where
  | whole {w : Word} {n : UInt32} (candidate : isCandidate field = true)
      (named : field.name ∈ w.fieldNames)
      (holds : HoldsNumber d limit object ty field .uint32 n.toNat) : Provides field w n
  | upper {number : Nat} {n : UInt32} (candidate : isCandidate field = true)
      (named : field.name = Word.lowHalvesName)
      (holds : HoldsNumber d limit object ty field .uint64 number)
      (half : n.toNat = number / 0x100000000) : Provides field .mid n
  | lower {number : Nat} {n : UInt32} (candidate : isCandidate field = true)
      (named : field.name = Word.lowHalvesName)
      (holds : HoldsNumber d limit object ty field .uint64 number)
      (half : n.toNat = number % 0x100000000) : Provides field .lo n

def NoneProvides (fields : List Field) (w : Word) : Prop :=
  ∀ field ∈ fields, ∀ n, ¬Provides d limit object ty field w n

/-- Of the fields that provide a word the last one provides it as `n`. -/
def LastProvides (fields : List Field) (w : Word) (n : UInt32) : Prop :=
  ∃ before field after, fields = before ++ field :: after
    ∧ Provides d limit object ty field w n ∧ NoneProvides d limit object ty after w

/-- One field provides a word, and none before or behind it does. -/
def OneProvides (fields : List Field) (w : Word) : Prop :=
  ∃ before field after, fields = before ++ field :: after
    ∧ (∃ n, Provides d limit object ty field w n)
    ∧ NoneProvides d limit object ty (before ++ after) w

end Providing

/-! ### Words that were found -/

def Found.word (found : Found) : Word → Option UInt32
  | .hi => found.hi
  | .mid => found.mid
  | .lo => found.lo
  | .flags => found.flags

/-- The word that a part with a number fills in. -/
def Part.word? (part : Part) (number : Nat) (w : Word) : Option UInt32 :=
  match part, w with
  | .hi, .hi | .mid, .mid | .lo, .lo | .flags, .flags => some (UInt32.ofNat number)
  | .lowHalves, .mid => some (UInt32.ofNat (number / 0x100000000))
  | .lowHalves, .lo => some (UInt32.ofNat number)
  | _, _ => none

theorem Found.word_put (found : Found) (part : Part) (number : Nat) (w : Word) :
    (found.put part number).word w = (part.word? number w).or (found.word w) := by
  cases part <;> cases w <;> rfl

theorem Found.ext_word {found found' : Found} (h : ∀ w, found'.word w = found.word w) :
    found' = found := by
  obtain ⟨hi, mid, lo, flags⟩ := found
  have hhi : found'.hi = hi := h .hi
  have hmid : found'.mid = mid := h .mid
  have hlo : found'.lo = lo := h .lo
  have hflags : found'.flags = flags := h .flags
  rw [← hhi, ← hmid, ← hlo, ← hflags]

theorem Found.missing_eq (found : Found) :
    found.missing = (Word.all.filter (fun w => (found.word w).isNone)).map Word.name := by
  obtain ⟨hi, mid, lo, flags⟩ := found
  cases hi <;> cases mid <;> cases lo <;> cases flags <;> rfl

/-- What was found is a decimal with these words, or lacks some of them. -/
theorem Found.complete_cases (found : Found) :
    (∃ p : Decimal, found.complete = .ok p ∧ ∀ w, found.word w = some (p.word w))
      ∨ (∃ w, found.word w = none) ∧ found.complete = .error (.malformedDecimal found.missing) := by
  match found with
  | ⟨some hi, some mid, some lo, some flags⟩ =>
    refine .inl ⟨⟨flags, hi, mid, lo⟩, rfl, ?_⟩
    intro w
    cases w <;> rfl
  | ⟨none, _, _, _⟩ => exact .inr ⟨⟨.hi, rfl⟩, rfl⟩
  | ⟨some _, none, _, _⟩ => exact .inr ⟨⟨.mid, rfl⟩, rfl⟩
  | ⟨some _, some _, none, _⟩ => exact .inr ⟨⟨.lo, rfl⟩, rfl⟩
  | ⟨some _, some _, some _, none⟩ => exact .inr ⟨⟨.flags, rfl⟩, rfl⟩

/-! ### Names and parts -/

/-- The part of a decimal that is a word by itself. -/
def Word.part : Word → Part
  | hi => .hi
  | mid => .mid
  | lo => .lo
  | flags => .flags

theorem Word.mem_fieldNames_iff {name : String} {w : Word} :
    name ∈ w.fieldNames ↔ Part.ofName? name = some w.part := by
  constructor
  · intro h
    cases w <;> simp only [fieldNames, List.mem_cons, List.not_mem_nil, or_false] at h
    · rcases h with rfl | rfl <;> rfl
    · subst h; rfl
    · subst h; rfl
    · rcases h with rfl | rfl <;> rfl
  · intro h
    unfold Part.ofName? at h
    split at h <;> cases w <;> cases h <;> decide

theorem Word.eq_lowHalvesName_iff {name : String} :
    name = lowHalvesName ↔ Part.ofName? name = some .lowHalves := by
  constructor
  · rintro rfl
    rfl
  · intro h
    unfold Part.ofName? at h
    split at h <;> cases h
    rfl

section Taking

variable {V : Type} {d : Debuggee V} {limit : Nat} {object : ObjectFacet V} {ty : TypeDesc}
  {field : Field} {fields : List Field} {found : Found} {w : Word} {n m : UInt32}

theorem HoldsNumber.unique {t : IntegerType} {k k' : Nat}
    (h : HoldsNumber d limit object ty field t k) (h' : HoldsNumber d limit object ty field t k') :
    k = k' := by
  obtain ⟨x, hx, hk⟩ := h
  obtain ⟨x', hx', hk'⟩ := h'
  cases hx.symm.trans hx'
  have hint : (k : Int) = k' := Except.ok.inj (hk.symm.trans hk')
  exact Int.ofNat_inj.mp hint

theorem HoldsNumber.lt {t : IntegerType} {k : Nat} (hunsigned : t.isSigned = false)
    (h : HoldsNumber d limit object ty field t k) : k < Bytes.limit t.width := by
  obtain ⟨x, _, hk⟩ := h
  obtain ⟨n, hn, hlt⟩ := Debuggee.readInteger_unsigned hunsigned hk
  rwa [Int.ofNat_inj.mp hn]

theorem Word.word?_part (w : Word) (number : Nat) :
    w.part.word? number w = some (UInt32.ofNat number) := by
  cases w <;> rfl

/-- A part fills in the word that it is, or a half of its number. -/
theorem Part.word?_cases {part : Part} {number : Nat} (h : part.word? number w = some n) :
    (part = w.part ∧ n = UInt32.ofNat number)
      ∨ (part = .lowHalves ∧ w = .mid ∧ n = UInt32.ofNat (number / 0x100000000))
      ∨ part = .lowHalves ∧ w = .lo ∧ n = UInt32.ofNat number := by
  cases part <;> cases w <;> cases h <;> simp [Word.part]

/-- A field provides the words that its part fills in with its number. -/
theorem provides_iff : Provides d limit object ty field w n ↔ isCandidate field = true
    ∧ ∃ part number, Part.ofName? field.name = some part
      ∧ HoldsNumber d limit object ty field part.integerType number
      ∧ part.word? number w = some n := by
  have hwhole (w : Word) : w.part.integerType = .uint32 := by cases w <;> rfl
  constructor
  · rintro (⟨candidate, named, holds⟩ | ⟨candidate, named, holds, half⟩
      | ⟨candidate, named, holds, half⟩)
    · refine ⟨candidate, w.part, n.toNat, Word.mem_fieldNames_iff.mp named, ?_, ?_⟩
      · rwa [hwhole]
      · rw [Word.word?_part, UInt32.ofNat_toNat]
    · refine ⟨candidate, .lowHalves, _, Word.eq_lowHalvesName_iff.mp named, holds, ?_⟩
      rw [Part.word?, ← half, UInt32.ofNat_toNat]
    · refine ⟨candidate, .lowHalves, _, Word.eq_lowHalvesName_iff.mp named, holds, ?_⟩
      rw [Part.word?, Option.some.injEq, ← UInt32.toNat_inj, UInt32.toNat_ofNat', half]
  · rintro ⟨candidate, part, number, hpart, holds, hword⟩
    have hlt := holds.lt (by cases part <;> rfl)
    rcases Part.word?_cases hword with ⟨rfl, rfl⟩ | ⟨rfl, rfl, rfl⟩ | ⟨rfl, rfl, rfl⟩
    · rw [hwhole, IntegerType.width, Bytes.limit_four] at hlt
      refine .whole candidate (Word.mem_fieldNames_iff.mpr hpart) ?_
      rw [hwhole] at holds
      rwa [UInt32.toNat_ofNat', Nat.mod_eq_of_lt hlt]
    · simp only [Part.integerType, IntegerType.width, Bytes.limit_eight] at hlt
      refine .upper candidate (Word.eq_lowHalvesName_iff.mpr hpart) holds ?_
      rw [UInt32.toNat_ofNat']
      omega
    · refine .lower candidate (Word.eq_lowHalvesName_iff.mpr hpart) holds ?_
      rw [UInt32.toNat_ofNat']

/-! ### Taking fields in -/

theorem CanBeRead.number (h : CanBeRead d limit object ty field) {part : Part}
    (hpart : Part.ofName? field.name = some part) :
    ∃ number, HoldsNumber d limit object ty field part.integerType number := by
  cases part with
  | lowHalves => exact h.lowHalves (Word.eq_lowHalvesName_iff.mpr hpart)
  | hi => exact h.word .hi (Word.mem_fieldNames_iff.mpr hpart)
  | mid => exact h.word .mid (Word.mem_fieldNames_iff.mpr hpart)
  | lo => exact h.word .lo (Word.mem_fieldNames_iff.mpr hpart)
  | flags => exact h.word .flags (Word.mem_fieldNames_iff.mpr hpart)

/-- A field provides no word that its name does not say. -/
theorem noneProvides_of_names (h : ∀ field ∈ fields, isCandidate field = true →
    field.name ∉ w.fieldNames ∧ (field.name = Word.lowHalvesName → w ≠ .mid ∧ w ≠ .lo)) :
    NoneProvides d limit object ty fields w := by
  rintro field hfield n (⟨candidate, named, _⟩ | ⟨candidate, named, _, _⟩
    | ⟨candidate, named, _, _⟩)
  · exact (h field hfield candidate).1 named
  · exact ((h field hfield candidate).2 named).1 rfl
  · exact ((h field hfield candidate).2 named).2 rfl

theorem provides_unique (h : Provides d limit object ty field w n)
    (h' : Provides d limit object ty field w m) : n = m := by
  obtain ⟨_, part, number, hpart, holds, hword⟩ := provides_iff.mp h
  obtain ⟨_, part', number', hpart', holds', hword'⟩ := provides_iff.mp h'
  cases hpart.symm.trans hpart'
  cases holds.unique holds'
  exact Option.some.inj (hword.symm.trans hword')

/-- One field fills in the words that it provides and leaves all others alone. -/
theorem takeField_word (readable : isCandidate field = true → CanBeRead d limit object ty field)
    (found : Found) :
    ∃ found', takeField d limit object ty found field = .ok found'
      ∧ ∀ w, (∃ n, Provides d limit object ty field w n ∧ found'.word w = some n)
        ∨ (∀ n, ¬Provides d limit object ty field w n) ∧ found'.word w = found.word w := by
  by_cases candidate : isCandidate field = true
  · have canBeRead := readable candidate
    obtain ⟨x, hx⟩ := canBeRead.value
    rw [takeField, if_pos candidate, hx, answer_ok_bind]
    cases hpart : Part.ofName? field.name with
    | none =>
      refine ⟨found, rfl, fun w => .inr ⟨?_, rfl⟩⟩
      intro n provides
      obtain ⟨_, part, _, hsome, _⟩ := provides_iff.mp provides
      cases hpart.symm.trans hsome
    | some part =>
      obtain ⟨number, holds⟩ := canBeRead.number hpart
      obtain ⟨x', hx', hnumber⟩ := id holds
      cases hx.symm.trans hx'
      refine ⟨found.put part number, by simp only [hnumber]; rfl, fun w => ?_⟩
      rw [Found.word_put]
      cases hword : part.word? number w with
      | some n =>
        exact .inl ⟨n, provides_iff.mpr ⟨candidate, part, number, hpart, holds, hword⟩, rfl⟩
      | none =>
        refine .inr ⟨?_, Option.none_or⟩
        intro n provides
        obtain ⟨_, part', number', hpart', holds', hsome⟩ := provides_iff.mp provides
        cases hpart.symm.trans hpart'
        cases holds.unique holds'
        cases hword.symm.trans hsome
  · rw [takeField, if_neg candidate]
    refine ⟨found, rfl, fun w => .inr ⟨?_, rfl⟩⟩
    intro n provides
    exact candidate (provides_iff.mp provides).1

theorem noneProvides_cons : NoneProvides d limit object ty (field :: fields) w
    ↔ (∀ n, ¬Provides d limit object ty field w n) ∧ NoneProvides d limit object ty fields w := by
  simp only [NoneProvides, List.forall_mem_cons]

theorem lastProvides_cons : LastProvides d limit object ty (field :: fields) w n
    ↔ LastProvides d limit object ty fields w n
      ∨ Provides d limit object ty field w n ∧ NoneProvides d limit object ty fields w := by
  constructor
  · rintro ⟨before, last, after, hfields, provides, unprovided⟩
    cases before with
    | nil =>
      cases hfields
      exact .inr ⟨provides, unprovided⟩
    | cons first before =>
      cases hfields
      exact .inl ⟨before, last, after, rfl, provides, unprovided⟩
  · rintro (⟨before, last, after, rfl, provides, unprovided⟩ | ⟨provides, unprovided⟩)
    · exact ⟨field :: before, last, after, rfl, provides, unprovided⟩
    · exact ⟨[], field, fields, rfl, provides, unprovided⟩

theorem LastProvides.mem (h : LastProvides d limit object ty fields w n) :
    ∃ field ∈ fields, Provides d limit object ty field w n := by
  obtain ⟨before, field, after, rfl, provides, _⟩ := h
  exact ⟨field, by simp, provides⟩

theorem LastProvides.unique (h : LastProvides d limit object ty fields w n)
    (h' : LastProvides d limit object ty fields w m) : n = m := by
  induction fields with
  | nil =>
    obtain ⟨field, hfield, _⟩ := h.mem
    cases hfield
  | cons field fields ih =>
    rcases lastProvides_cons.mp h with h | ⟨provides, unprovided⟩
    · rcases lastProvides_cons.mp h' with h' | ⟨_, unprovided'⟩
      · exact ih h h'
      · obtain ⟨other, hother, provides⟩ := h.mem
        exact absurd provides (unprovided' other hother n)
    · rcases lastProvides_cons.mp h' with h' | ⟨provides', _⟩
      · obtain ⟨other, hother, provides'⟩ := h'.mem
        exact absurd provides' (unprovided other hother m)
      · exact provides_unique provides provides'

/-- All fields together leave each word as its last provider filled it in. The induction is on
    the fields, with what was found before them. -/
theorem foldlM_takeField_word
    (readable : ∀ field ∈ fields, isCandidate field = true → CanBeRead d limit object ty field)
    (found : Found) :
    ∃ found', fields.foldlM (takeField d limit object ty) found = .ok found'
      ∧ ∀ w, (∃ n, LastProvides d limit object ty fields w n ∧ found'.word w = some n)
        ∨ NoneProvides d limit object ty fields w ∧ found'.word w = found.word w := by
  induction fields generalizing found with
  | nil => exact ⟨found, rfl, fun w => .inr ⟨by simp [NoneProvides], rfl⟩⟩
  | cons field fields ih =>
    obtain ⟨hfield, hfields⟩ := List.forall_mem_cons.mp readable
    obtain ⟨found₁, htake, hstep⟩ := takeField_word hfield found
    obtain ⟨found', hfold, hrest⟩ := ih hfields found₁
    refine ⟨found', by rw [List.foldlM_cons, htake, answer_ok_bind, hfold], fun w => ?_⟩
    rcases hrest w with ⟨n, last, hword⟩ | ⟨unprovided, hword⟩
    · exact .inl ⟨n, lastProvides_cons.mpr (.inl last), hword⟩
    · -- no field behind this one provides the word
      rcases hstep w with ⟨n, provides, hword₁⟩ | ⟨not, hword₁⟩
      · exact .inl ⟨n, lastProvides_cons.mpr (.inr ⟨provides, unprovided⟩), hword.trans hword₁⟩
      · exact .inr ⟨noneProvides_cons.mpr ⟨not, unprovided⟩, hword.trans hword₁⟩

/-- If only one field provides a word, all that provide it do so with the same number. -/
theorem OneProvides.unique (h : OneProvides d limit object ty fields w) {other other' : Field}
    (hmem : other ∈ fields) (hmem' : other' ∈ fields)
    (provides : Provides d limit object ty other w n)
    (provides' : Provides d limit object ty other' w m) : n = m := by
  obtain ⟨before, field, after, rfl, _, unprovided⟩ := h
  have hfield : ∀ other ∈ before ++ field :: after, ∀ n,
      Provides d limit object ty other w n → other = field := by
    intro other hother n provides
    by_contra hne
    refine unprovided other ?_ n provides
    simp only [List.mem_append, List.mem_cons] at hother ⊢
    tauto
  cases hfield other hmem n provides
  cases hfield other' hmem' m provides'
  exact provides_unique provides provides'

end Taking

end Decimal

end Inspector
