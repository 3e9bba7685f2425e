/-
  Inspector/Proofs/Debuggee/Integer.lean
  ======================================
  **When a value is an integer.**

  Reading an integer asks for the end of the chain, the size, the tag and the contents of a
  value, in this order, and compares each answer with the width of the type before it asks
  on.  `HoldsInteger` has the answers with which this ends well and `NoInteger` the nine
  causes for which it does not, each with what went well before it.  Nothing else can happen
  (`readInteger_cases`), so the answers alone decide what a value is read as.

  Of the type only the width is compared.  The two types of a width therefore read the same
  values, as numbers that differ by their sign, and fail for the same cause.
-/
import Inspector.Debuggee.Recording
import Inspector.Proofs.Bytes.Integers
import Inspector.Proofs.Debuggee.Chain
import Inspector.Proofs.Debuggee.Display

namespace Inspector

/-! ### Tags of integers -/

namespace ElementType

/-- The tags under which integers of a width are stored: those of that very width, and those
    of the size of an address if an address can have the width. A character is no integer. -/
def IsIntegerOf (tag : ElementType) (width : Nat) : Prop :=
  (tag = .nativeInt ∨ tag = .nativeUInt) ∧ (width = 4 ∨ width = 8)
    ∨ tag ≠ .char ∧ tag.integerWidth? = some width

theorem isInteger_iff {tag : ElementType} {width : Nat} :
    tag.isInteger width = true ↔ tag.IsIntegerOf width := by
  cases tag <;> simp [isInteger, IsIntegerOf, integerWidth?]

end ElementType

namespace Debuggee

variable {V : Type}

/-! ### Answers -/

/-- The chain of `v` ends in `target`, which is not null and has a size of `width` bytes. -/
structure HasWidth (d : Debuggee V) (limit width : Nat) (v target : V) : Prop where
  resolved : d.resolve limit v = .ok ⟨target, false⟩
  sized : ∃ size, (d.facets target).size = .ok size ∧ size.toNat = width

structure HasKind (d : Debuggee V) (limit width : Nat) (v target : V) : Prop
    extends d.HasWidth limit width v target where
  tagged : ∃ tag, (d.facets target).elementType = .ok tag ∧ tag.IsIntegerOf width

structure HoldsInteger (d : Debuggee V) (limit width : Nat) (v target : V) (data : Bytes) : Prop
    extends d.HasKind limit width v target where
  contents : (d.facets target).contents? = some (.ok data)
  enough : width ≤ data.length

/-- The causes for which a value is not read as an integer of type `t`, in the order of the
    questions. -/
inductive NoInteger (d : Debuggee V) (limit : Nat) (t : IntegerType) (v : V) : Error → Prop where
  | chain {e : Error} (failed : d.resolve limit v = .error e) : NoInteger d limit t v e
  | null {target : V} (resolved : d.resolve limit v = .ok ⟨target, true⟩) :
      NoInteger d limit t v .nullValue
  | size {target : V} {e : Error} (resolved : d.resolve limit v = .ok ⟨target, false⟩)
      (failed : (d.facets target).size = .error e) : NoInteger d limit t v e
  | otherSize {target : V} {size : UInt32} (resolved : d.resolve limit v = .ok ⟨target, false⟩)
      (sized : (d.facets target).size = .ok size) (other : size.toNat ≠ t.width) :
      NoInteger d limit t v (.typeMismatch t.name (size.toNat.repr ++ " byte value"))
  | tag {target : V} {e : Error} (width : d.HasWidth limit t.width v target)
      (failed : (d.facets target).elementType = .error e) : NoInteger d limit t v e
  | otherKind {target : V} {tag : ElementType} (width : d.HasWidth limit t.width v target)
      (tagged : (d.facets target).elementType = .ok tag) (other : ¬tag.IsIntegerOf t.width) :
      NoInteger d limit t v (.typeMismatch t.name tag.shortName)
  | noContents {target : V} (kind : d.HasKind limit t.width v target)
      (absent : (d.facets target).contents? = none) :
      NoInteger d limit t v (.unsupportedShape .integralWithoutContents)
  | contents {target : V} {e : Error} (kind : d.HasKind limit t.width v target)
      (failed : (d.facets target).contents? = some (.error e)) : NoInteger d limit t v e
  | short {target : V} {data : Bytes} (kind : d.HasKind limit t.width v target)
      (contents : (d.facets target).contents? = some (.ok data)) (short : data.length < t.width) :
      NoInteger d limit t v .outOfBounds

variable {d : Debuggee V} {limit : Nat} {t s : IntegerType} {v target : V} {data : Bytes}
  {n : Int} {e : Error}

/-! ### What follows from the answers -/

theorem HasWidth.readInteger (h : d.HasWidth limit t.width v target) :
    d.readInteger limit t v = (do
      let tag ← (d.facets target).elementType
      if !tag.isInteger t.width then throw (.typeMismatch t.name tag.shortName)
      match (d.facets target).contents? with
      | none => throw (.unsupportedShape .integralWithoutContents)
      | some contents => t.read (← contents)) := by
  obtain ⟨size, hsize, hwidth⟩ := h.sized
  rw [Debuggee.readInteger, resolveNonNull_of_value h.resolved rfl, answer_ok_bind]
  dsimp only
  rw [hsize, answer_ok_bind]
  exact if_neg (not_not_intro hwidth)

theorem HasKind.readInteger (h : d.HasKind limit t.width v target) :
    d.readInteger limit t v
      = match (d.facets target).contents? with
        | none => .error (.unsupportedShape .integralWithoutContents)
        | some contents => contents >>= t.read := by
  obtain ⟨tag, htag, hkind⟩ := h.tagged
  rw [h.toHasWidth.readInteger, htag, answer_ok_bind, ElementType.isInteger_iff.mpr hkind]
  rfl

theorem HoldsInteger.readInteger (h : d.HoldsInteger limit t.width v target data) :
    d.readInteger limit t v = .ok (t.ofWord (Bytes.toNat (data.take t.width))) := by
  rw [h.toHasKind.readInteger, h.contents]
  show t.read data = _
  rw [IntegerType.read, Bytes.word, if_pos h.enough, answer_ok_map]

theorem HoldsInteger.word_lt (h : d.HoldsInteger limit t.width v target data) :
    Bytes.toNat (data.take t.width) < Bytes.limit t.width := by
  have hlt := Bytes.toNat_lt (data.take t.width)
  rwa [List.length_take, Nat.min_eq_left h.enough] at hlt

theorem NoInteger.readInteger (h : d.NoInteger limit t v e) :
    d.readInteger limit t v = .error e := by
  cases h with
  | chain failed => rw [Debuggee.readInteger, resolveNonNull_of_error failed, answer_error_bind]
  | null resolved =>
    rw [Debuggee.readInteger, resolveNonNull_of_null resolved rfl, answer_error_bind]
  | size resolved failed =>
    rw [Debuggee.readInteger, resolveNonNull_of_value resolved rfl, answer_ok_bind]
    simp only [failed, answer_error_bind]
  | otherSize resolved sized other =>
    rw [Debuggee.readInteger, resolveNonNull_of_value resolved rfl, answer_ok_bind]
    simp only [sized, answer_ok_bind, if_pos other]
    rfl
  | tag width failed => rw [width.readInteger, failed, answer_error_bind]
  | otherKind width tagged other =>
    have hkind := Bool.eq_false_iff.mpr (mt ElementType.isInteger_iff.mp other)
    rw [width.readInteger, tagged, answer_ok_bind, hkind]
    rfl
  | noContents kind absent => rw [kind.readInteger, absent]
  | contents kind failed =>
    rw [kind.readInteger, failed]
    rfl
  | short kind contents short =>
    rw [kind.readInteger, contents]
    show t.read _ = _
    rw [IntegerType.read, Bytes.word, if_neg (Nat.not_le.mpr short), answer_error_map]

/-! ### All values -/

theorem HasKind.holds_or (h : d.HasKind limit t.width v target) :
    (∃ data, d.HoldsInteger limit t.width v target data) ∨ ∃ e, d.NoInteger limit t v e := by
  cases contents : (d.facets target).contents? with
  | none => exact .inr ⟨_, .noContents h contents⟩
  | some answer =>
    cases answer with
    | error e => exact .inr ⟨e, .contents h contents⟩
    | ok data =>
      by_cases enough : t.width ≤ data.length
      · exact .inl ⟨data, h, contents, enough⟩
      · exact .inr ⟨_, .short h contents (Nat.not_le.mp enough)⟩

theorem HasWidth.holds_or (h : d.HasWidth limit t.width v target) :
    (∃ data, d.HoldsInteger limit t.width v target data) ∨ ∃ e, d.NoInteger limit t v e := by
  cases tagged : (d.facets target).elementType with
  | error e => exact .inr ⟨e, .tag h tagged⟩
  | ok tag =>
    by_cases kind : tag.IsIntegerOf t.width
    · exact HasKind.holds_or ⟨h, tag, tagged, kind⟩
    · exact .inr ⟨_, .otherKind h tagged kind⟩

/-- A value gives the answers of an integer, or there is a cause why it is none. -/
theorem readInteger_cases (d : Debuggee V) (limit : Nat) (t : IntegerType) (v : V) :
    (∃ target data, d.HoldsInteger limit t.width v target data)
      ∨ ∃ e, d.NoInteger limit t v e := by
  cases resolved : d.resolve limit v with
  | error e => exact .inr ⟨e, .chain resolved⟩
  | ok r =>
    obtain ⟨target, isNull⟩ := r
    cases isNull with
    | true => exact .inr ⟨_, .null resolved⟩
    | false =>
      cases sized : (d.facets target).size with
      | error e => exact .inr ⟨e, .size resolved sized⟩
      | ok size =>
        by_cases width : size.toNat = t.width
        · exact (HasWidth.holds_or ⟨resolved, size, sized, width⟩).imp_left (fun h => ⟨target, h⟩)
        · exact .inr ⟨_, .otherSize resolved sized width⟩

theorem readInteger_eq_ok_iff :
    d.readInteger limit t v = .ok n ↔ ∃ target data, d.HoldsInteger limit t.width v target data
      ∧ t.ofWord (Bytes.toNat (data.take t.width)) = n := by
  constructor
  · intro h
    obtain ⟨target, data, holds⟩ | ⟨e, none⟩ := readInteger_cases d limit t v
    · exact ⟨target, data, holds, Except.ok.inj (holds.readInteger.symm.trans h)⟩
    · cases none.readInteger.symm.trans h
  · rintro ⟨target, data, holds, rfl⟩
    exact holds.readInteger

theorem readInteger_eq_error_iff :
    d.readInteger limit t v = .error e ↔ d.NoInteger limit t v e := by
  constructor
  · intro h
    obtain ⟨target, data, holds⟩ | ⟨e', none⟩ := readInteger_cases d limit t v
    · cases holds.readInteger.symm.trans h
    · cases none.readInteger.symm.trans h
      exact none
  · exact NoInteger.readInteger

theorem readInteger_unsigned (hunsigned : t.isSigned = false)
    (h : d.readInteger limit t v = .ok n) : ∃ k : Nat, n = k ∧ k < Bytes.limit t.width := by
  obtain ⟨target, data, holds, rfl⟩ := readInteger_eq_ok_iff.mp h
  refine ⟨Bytes.toNat (data.take t.width), ?_, holds.word_lt⟩
  simp [IntegerType.ofWord, hunsigned]

/-! ### Types of one width -/

/-- Two failures for one cause: they differ at most by the name of the type asked for. -/
def AreAlike (t s : IntegerType) (e e' : Error) : Prop :=
  e' = e ∨ ∃ found, e = .typeMismatch t.name found ∧ e' = .typeMismatch s.name found

theorem NoInteger.of_width (h : d.NoInteger limit t v e) (same : s.width = t.width) :
    ∃ e', d.NoInteger limit s v e' ∧ AreAlike t s e e' := by
  cases h with
  | chain failed => exact ⟨_, .chain failed, .inl rfl⟩
  | null resolved => exact ⟨_, .null resolved, .inl rfl⟩
  | size resolved failed => exact ⟨_, .size resolved failed, .inl rfl⟩
  | otherSize resolved sized other =>
    exact ⟨_, .otherSize resolved sized (by rwa [same]), .inr ⟨_, rfl, rfl⟩⟩
  | tag width failed => exact ⟨_, .tag (by rwa [same]) failed, .inl rfl⟩
  | otherKind width tagged other =>
    exact ⟨_, .otherKind (by rwa [same]) tagged (by rwa [same]), .inr ⟨_, rfl, rfl⟩⟩
  | noContents kind absent => exact ⟨_, .noContents (by rwa [same]) absent, .inl rfl⟩
  | contents kind failed => exact ⟨_, .contents (by rwa [same]) failed, .inl rfl⟩
  | short kind contents short =>
    exact ⟨_, .short (by rwa [same]) contents (by rwa [same]), .inl rfl⟩

theorem HoldsInteger.modEq (h : d.HoldsInteger limit t.width v target data)
    (same : s.width = t.width) :
    ∃ m, d.readInteger limit s v = .ok m
      ∧ m ≡ t.ofWord (Bytes.toNat (data.take t.width)) [ZMOD 2 ^ (8 * t.width)] := by
  have holds : d.HoldsInteger limit s.width v target data := by rwa [same]
  refine ⟨_, holds.readInteger, ?_⟩
  have hs := s.ofWord_modEq (Bytes.toNat (data.take s.width))
  rw [same] at hs
  rw [same]
  exact hs.trans (t.ofWord_modEq _).symm

/-! ### On display -/

theorem contentsText_of_integerType? {o : Options} {escape : Bool} {tag : ElementType}
    (h : tag.integerType? = some t) :
    d.contentsText o escape v tag data = (t.read data).map Int.repr := by
  have hshown : d.contentsText o escape v tag data
      = ((t.read data).map Scalar.integer).map (Scalar.text o escape) := by
    cases tag <;> cases h <;> rfl
  rw [hshown, answer_map_map]
  rfl

theorem HoldsInteger.valueText {o : Options} {escape : Bool} {tag : ElementType}
    (h : d.HoldsInteger o.maxDepth t.width v target data)
    (tagged : (d.facets target).elementType = .ok tag) (typed : tag.integerType? = some t) :
    d.valueText o escape v
      = .ok (t.ofWord (Bytes.toNat (data.take t.width))).repr := by
  obtain ⟨hstring, harray⟩ : tag ≠ .string ∧ tag.isArray = false := by
    cases tag <;> cases typed <;> decide
  rw [valueText_of_terminal h.resolved rfl,
    terminalText_contents tagged hstring harray (contents_eq_ok_iff.mpr h.contents),
    contentsText_of_integerType? typed, IntegerType.read, Bytes.word, if_pos h.enough]
  rfl

/-! ### Every value -/

/-- **A value is read as an integer exactly if its answers are those of an integer.**  The
    number is the one of the type that is congruent to the first bytes. Otherwise the first
    cause decides how the reading fails. Types of one width agree about both, and a value
    with the very tag of the type is shown as the number that is read. -/
theorem readInteger_exact (d : Debuggee V) (limit : Nat) (t : IntegerType) (v : V) :
    (∀ n, d.readInteger limit t v = .ok n ↔
        ∃ target data, d.HoldsInteger limit t.width v target data ∧ t.InRange n
          ∧ n ≡ Bytes.toNat (data.take t.width) [ZMOD 2 ^ (8 * t.width)])
      ∧ (∀ e, d.readInteger limit t v = .error e ↔ d.NoInteger limit t v e)
      ∧ (∀ s : IntegerType, s.width = t.width →
        (∀ n, d.readInteger limit t v = .ok n →
            ∃ m, d.readInteger limit s v = .ok m ∧ m ≡ n [ZMOD 2 ^ (8 * t.width)])
          ∧ ∀ e, d.readInteger limit t v = .error e →
            ∃ e', d.readInteger limit s v = .error e' ∧ AreAlike t s e e')
      ∧ ∀ n target tag, d.readInteger limit t v = .ok n →
        d.resolve limit v = .ok ⟨target, false⟩ → (d.facets target).elementType = .ok tag →
        tag.integerType? = some t → ∀ (o : Options) (escape : Bool), o.maxDepth = limit →
          d.valueText o escape v = .ok n.repr := by
  refine ⟨?_, fun e => readInteger_eq_error_iff, ?_, ?_⟩
  · intro n
    rw [readInteger_eq_ok_iff]
    constructor
    · rintro ⟨target, data, holds, hn⟩
      exact ⟨target, data, holds, (IntegerType.ofWord_eq_iff holds.word_lt).mp hn⟩
    · rintro ⟨target, data, holds, hn⟩
      exact ⟨target, data, holds, (IntegerType.ofWord_eq_iff holds.word_lt).mpr hn⟩
  · intro s same
    constructor
    · intro n h
      obtain ⟨target, data, holds, rfl⟩ := readInteger_eq_ok_iff.mp h
      exact holds.modEq same
    · intro e h
      obtain ⟨e', none, alike⟩ := (readInteger_eq_error_iff.mp h).of_width same
      exact ⟨e', none.readInteger, alike⟩
  · rintro n target tag h resolved tagged typed o escape rfl
    obtain ⟨target', data, holds, rfl⟩ := readInteger_eq_ok_iff.mp h
    cases holds.resolved.symm.trans resolved
    exact holds.valueText tagged typed

/-- Minus two in two bytes, with a third one behind them, inside a box behind a reference: the
    unsigned type of the width reads another number, and a wider type none. -/
theorem readInteger_exact_boxed :
    let d := (Recording.ofLists
      [{ elementType := .ok .object, reference := some { target := some (.ok 1) } },
       { elementType := .ok .object, boxed := some (.ok 2) },
       { elementType := .ok .int16, size := some (.ok 2), contents := some (.ok [0xFE, 0xFF, 7]) }]
      []).debuggee
    d.HoldsInteger 64 IntegerType.int16.width 0 2 [0xFE, 0xFF, 7] ∧ IntegerType.int16.InRange (-2)
      ∧ -2 ≡ Bytes.toNat [0xFE, 0xFF] [ZMOD 2 ^ 16]
      ∧ d.readInteger 64 .int16 0 = .ok (-2)
      ∧ d.NoInteger 64 .int32 0 (.typeMismatch "i32" "2 byte value")
      ∧ d.readInteger 64 .int32 0 = .error (.typeMismatch "i32" "2 byte value")
      ∧ IntegerType.uint16.width = IntegerType.int16.width
      ∧ (∃ m, d.readInteger 64 .uint16 0 = .ok m ∧ m ≡ -2 [ZMOD 2 ^ 16])
      ∧ d.resolve 64 0 = .ok ⟨2, false⟩ ∧ (d.facets 2).elementType = .ok .int16
      ∧ ElementType.int16.integerType? = some .int16 ∧ ({} : Options).maxDepth = 64
      ∧ d.valueText {} true 0 = .ok (-2 : Int).repr := by
  intro d
  have resolved : d.resolve 64 0 = .ok ⟨2, false⟩ := rfl
  have tagged : (d.facets 2).elementType = .ok .int16 := rfl
  have kind : ElementType.int16.IsIntegerOf 2 := .inr ⟨nofun, rfl⟩
  have holds : d.HoldsInteger 64 IntegerType.int16.width 0 2 [0xFE, 0xFF, 7] :=
    ⟨⟨⟨resolved, 2, rfl, rfl⟩, .int16, tagged, kind⟩, rfl, by decide⟩
  have none : d.NoInteger 64 .int32 0 (.typeMismatch "i32" "2 byte value") :=
    .otherSize resolved rfl (by decide)
  have inRange : IntegerType.int16.InRange (-2) := by decide
  have congruent : -2 ≡ Bytes.toNat [0xFE, 0xFF] [ZMOD 2 ^ 16] := by decide
  obtain ⟨ok_iff, -, same, shown⟩ := readInteger_exact d 64 .int16 0
  have read : d.readInteger 64 .int16 0 = .ok (-2) :=
    (ok_iff (-2)).mpr ⟨2, [0xFE, 0xFF, 7], holds, inRange, congruent⟩
  exact ⟨holds, inRange, congruent, read, none, ((readInteger_exact d 64 .int32 0).2.1 _).mpr none,
    rfl, (same .uint16 rfl).1 (-2) read, resolved, tagged, rfl, rfl,
    shown (-2) 2 .int16 read resolved tagged rfl {} true rfl⟩

end Debuggee

end Inspector
