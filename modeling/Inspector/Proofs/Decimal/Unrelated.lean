/-
  Inspector/Proofs/Decimal/Unrelated.lean
  =======================================
  **Fields that are no part of a decimal.**

  A type may declare fields that have nothing to do with the number, anywhere among those
  that have.  Such a field fills in no word, so once it has been taken in everything goes on
  as if it were not there (`takeField_neutral`), whatever its value is.  It must have a
  value, though: every field of the instance is read before its name is looked at, and one
  that cannot be read ends the reading if no field in front of it did
  (`decimal_unaffected`, `decimal_unreadable_extra`).
-/
import Inspector.Proofs.Debuggee.Display
import Inspector.Proofs.Decimal.Extraction

namespace Inspector

namespace Decimal

/-! ### Fields one by one -/

section Taking

variable {V : Type} {d d' : Debuggee V} {limit : Nat} {object object' : ObjectFacet V}
  {ty : TypeDesc} {field : Field} {fields : List Field} {e : Error}

theorem takeField_neutral (unrelated : field.name ∉ backingNames)
    (readable : isCandidate field = true → ∃ x, object.fieldValue ty field.token = .ok x)
    (found : Found) : takeField d limit object ty found field = .ok found := by
  have hpart : Part.ofName? field.name = none := by
    cases h : Part.ofName? field.name with
    | none => rfl
    | some part => exact absurd (mem_backingNames h) unrelated
  by_cases candidate : isCandidate field = true
  · obtain ⟨x, hx⟩ := readable candidate
    rw [takeField, if_pos candidate, hx, answer_ok_bind, hpart]
    rfl
  · rw [takeField, if_neg candidate]

theorem takeField_unreadable (candidate : isCandidate field = true)
    (failed : object.fieldValue ty field.token = .error e) (found : Found) :
    takeField d limit object ty found field = .error e := by
  rw [takeField, if_pos candidate, failed, answer_error_bind]

/-- Whether a field can be taken in does not depend on what was found before it. -/
theorem takeField_isOk_iff (found : Found) :
    (∃ found', takeField d limit object ty found field = .ok found')
      ↔ (isCandidate field = true → CanBeRead d limit object ty field) := by
  constructor
  · rintro ⟨found', h⟩ candidate
    rw [takeField, if_pos candidate] at h
    obtain ⟨x, hx, h⟩ := answer_bind_eq_ok.mp h
    have holds : ∀ part, Part.ofName? field.name = some part →
        ∃ number, HoldsNumber d limit object ty field part.integerType number := by
      intro part hpart
      rw [hpart] at h
      obtain ⟨n, hn, _⟩ := answer_bind_eq_ok.mp h
      obtain ⟨number, rfl, _⟩ := Debuggee.readInteger_unsigned (by cases part <;> rfl) hn
      exact ⟨number, x, hx, hn⟩
    refine ⟨⟨x, hx⟩, ?_, ?_⟩
    · intro w named
      have hword := holds w.part (Word.mem_fieldNames_iff.mp named)
      rwa [show w.part.integerType = .uint32 by cases w <;> rfl] at hword
    · intro named
      exact holds .lowHalves (Word.eq_lowHalvesName_iff.mp named)
  · intro readable
    obtain ⟨found', h, _⟩ := takeField_word readable found
    exact ⟨found', h⟩

theorem foldlM_takeField_isOk_iff (found : Found) :
    (∃ found', fields.foldlM (takeField d limit object ty) found = .ok found')
      ↔ ∀ field ∈ fields, isCandidate field = true → CanBeRead d limit object ty field := by
  induction fields generalizing found with
  | nil => exact iff_of_true ⟨found, rfl⟩ (by simp)
  | cons field fields ih =>
    rw [List.forall_mem_cons, List.foldlM_cons, ← takeField_isOk_iff found]
    constructor
    · rintro ⟨found', h⟩
      obtain ⟨next, hnext, h⟩ := answer_bind_eq_ok.mp h
      exact ⟨⟨next, hnext⟩, (ih next).mp ⟨found', h⟩⟩
    · rintro ⟨⟨next, hnext⟩, hfields⟩
      obtain ⟨found', h⟩ := (ih next).mpr hfields
      exact ⟨found', answer_bind_eq_ok.mpr ⟨next, hnext, h⟩⟩

/-- Fields with the same values are taken in alike. -/
theorem foldlM_takeField_congr (same : Debuggee.SameButFields d d')
    (values : ∀ field ∈ fields,
      object'.fieldValue ty field.token = object.fieldValue ty field.token) (found : Found) :
    fields.foldlM (takeField d' limit object' ty) found
      = fields.foldlM (takeField d limit object ty) found := by
  induction fields generalizing found with
  | nil => rfl
  | cons field fields ih =>
    obtain ⟨hfield, hfields⟩ := List.forall_mem_cons.mp values
    have hfirst : takeField d' limit object' ty found field
        = takeField d limit object ty found field := by
      simp only [takeField, hfield, same.readInteger]
    rw [List.foldlM_cons, List.foldlM_cons, hfirst]
    congr 1
    funext next
    exact ih hfields next

end Taking

end Decimal

namespace Debuggee

open Decimal

variable {V : Type} {d d' : Debuggee V} {o : Options} {limit : Nat} {ty : TypeDesc}
  {before after : List Field} {extra : Field} {v w : V} {e : Error}

/-! ### One more field -/

/-- The debuggee `d'` knows of one field of a type more than `d` does: of `extra`, which is
    declared somewhere among the others. About everything else the two agree; nothing is
    said of what a value holds in `extra`. -/
structure DeclaresAlso (d d' : Debuggee V) (ty : TypeDesc) (before : List Field) (extra : Field)
    (after : List Field) : Prop where
  fields : d.fields ty = .ok (before ++ after)
  fields' : d'.fields ty = .ok (before ++ extra :: after)
  baseType : d'.baseType = d.baseType
  typeName : d'.typeName = d.typeName
  facets : SameButFields d d'
  values : ∀ v, Option.Rel
    (fun object' object => ∀ field ∈ before ++ after,
      object'.fieldValue ty field.token = object.fieldValue ty field.token)
    (d'.facets v).object? (d.facets v).object?

namespace DeclaresAlso

section

variable (also : d.DeclaresAlso d' ty before extra after)
include also

theorem exactType (v : V) : (d'.facets v).exactType = (d.facets v).exactType := by
  obtain ⟨object?, h⟩ := also.facets v
  rw [h]

theorem isEnum (v : V) : d'.isEnum v = d.isEnum v := by
  simp only [Debuggee.isEnum, also.exactType, also.baseType, also.typeName]

theorem compositeName (v : V) : d'.compositeName v = d.compositeName v := by
  simp only [Debuggee.compositeName, exactTypeName, also.exactType, also.typeName]

/-- The instance of a value answers alike for the fields that both know of. -/
theorem object_cases (v : V) :
    ((d.facets v).object? = none ∧ (d'.facets v).object? = none)
      ∨ ∃ object object', (d.facets v).object? = some object
        ∧ (d'.facets v).object? = some object'
        ∧ ∀ field ∈ before ++ after,
          object'.fieldValue ty field.token = object.fieldValue ty field.token := by
  have hvalues := also.values v
  cases hobject : (d.facets v).object? <;> cases hobject' : (d'.facets v).object?
    <;> rw [hobject, hobject'] at hvalues <;> cases hvalues
  · exact .inl ⟨rfl, rfl⟩
  · next values => exact .inr ⟨_, _, rfl, rfl, values⟩

/-- A field that changes nothing where it stands changes nothing at all. -/
theorem decimalOf_of_neutral (typed : (d.facets v).exactType = .ok ty)
    (neutral : ∀ object, (d'.facets v).object? = some object → ∀ found,
      takeField d' limit object ty found extra = .ok found) :
    d'.decimalOf limit v = d.decimalOf limit v := by
  simp only [decimalOf, also.exactType, typed, answer_ok_bind, also.fields, also.fields']
  obtain ⟨hobject, hobject'⟩ | ⟨object, object', hobject, hobject', values⟩ := also.object_cases v
  · rw [hobject, hobject']
  · obtain ⟨hbefore, hafter⟩ := List.forall_mem_append.mp values
    simp only [hobject, hobject', List.foldlM_append, List.foldlM_cons, neutral object' hobject',
      answer_ok_bind, foldlM_takeField_congr also.facets hbefore,
      foldlM_takeField_congr also.facets hafter]

/-- A field that cannot be read is what the reading fails for, unless it failed before. -/
theorem decimalOf_of_unreadable (limit : Nat) (typed : (d.facets v).exactType = .ok ty)
    {object : ObjectFacet V} (hobject : (d'.facets v).object? = some object)
    (candidate : isCandidate extra = true) (failed : object.fieldValue ty extra.token = .error e) :
    ((∀ field ∈ before, isCandidate field = true → CanBeRead d' limit object ty field) →
        d'.decimalOf limit v = .error e)
      ∧ ((∃ field ∈ before, isCandidate field = true ∧ ¬CanBeRead d' limit object ty field) →
        d'.decimalOf limit v = d.decimalOf limit v) := by
  obtain ⟨_, hnone⟩ | ⟨object₀, _, hobject₀, hsome, values⟩ := also.object_cases v
  · cases hobject.symm.trans hnone
  cases hobject.symm.trans hsome
  have hbefore : before.foldlM (takeField d' limit object ty) {}
      = before.foldlM (takeField d limit object₀ ty) {} :=
    foldlM_takeField_congr also.facets (List.forall_mem_append.mp values).1 {}
  have hread : (∃ found, before.foldlM (takeField d' limit object ty) {} = .ok found)
      ↔ ∀ field ∈ before, isCandidate field = true → CanBeRead d' limit object ty field :=
    foldlM_takeField_isOk_iff {}
  simp only [decimalOf, also.exactType, typed, answer_ok_bind, also.fields, also.fields',
    hobject, hobject₀, List.foldlM_append, List.foldlM_cons, ← hbefore,
    takeField_unreadable candidate failed]
  cases hfold : before.foldlM (takeField d' limit object ty) {} with
  | ok found =>
    have readable := hread.mp ⟨found, hfold⟩
    refine ⟨fun _ => rfl, ?_⟩
    rintro ⟨field, hfield, candidate, unreadable⟩
    exact absurd (readable field hfield candidate) unreadable
  | error e₀ =>
    refine ⟨?_, fun _ => rfl⟩
    intro readable
    obtain ⟨found, hok⟩ := hread.mpr readable
    cases hfold.symm.trans hok

end

end DeclaresAlso

/-! ### Decimals on display -/

/-- The chain of `w` ends at `v`, which is shown as a decimal. -/
structure ShowsDecimal (d : Debuggee V) (limit : Nat) (w v : V) (tag : ElementType) : Prop where
  resolved : d.resolve limit w = .ok ⟨v, false⟩
  tagged : (d.facets v).elementType = .ok tag
  composite : tag.isComposite = true
  plain : d.isEnum v = false
  named : d.compositeName v = decimalName

theorem ShowsDecimal.valueText {tag : ElementType} (shows : d.ShowsDecimal o.maxDepth w v tag)
    (escape : Bool) :
    d.valueText o escape w
      = d.contents tag v >>= fun _ => (d.decimalOf o.maxDepth v).map Decimal.text := by
  rw [valueText_of_terminal shows.resolved rfl,
    terminalText_decimal shows.tagged shows.composite shows.plain shows.named]

theorem DeclaresAlso.contents (also : d.DeclaresAlso d' ty before extra after) (tag : ElementType)
    (v : V) : d'.contents tag v = d.contents tag v := by
  obtain ⟨object?, h⟩ := also.facets v
  simp only [Debuggee.contents, h]

theorem DeclaresAlso.showsDecimal (also : d.DeclaresAlso d' ty before extra after)
    {tag : ElementType} (shows : d.ShowsDecimal limit w v tag) :
    d'.ShowsDecimal limit w v tag where
  resolved := (also.facets.resolve limit w).trans shows.resolved
  tagged := by
    obtain ⟨object?, h⟩ := also.facets v
    rw [h]
    exact shows.tagged
  composite := shows.composite
  plain := (also.isEnum v).trans shows.plain
  named := (also.compositeName v).trans shows.named

/-- The reading of `v` as a decimal comes out the same for both, and so does every display. -/
structure SameDecimal (d d' : Debuggee V) (o : Options) (v : V) : Prop where
  decimalOf : d'.decimalOf o.maxDepth v = d.decimalOf o.maxDepth v
  valueText : ∀ w tag escape, d.ShowsDecimal o.maxDepth w v tag →
    d'.valueText o escape w = d.valueText o escape w

theorem DeclaresAlso.sameDecimal (also : d.DeclaresAlso d' ty before extra after)
    (h : d'.decimalOf o.maxDepth v = d.decimalOf o.maxDepth v) : SameDecimal d d' o v where
  decimalOf := h
  valueText w tag escape shows := by
    rw [shows.valueText, (also.showsDecimal shows).valueText, also.contents, h]

/-- **A decimal does not depend on fields that are no part of it.**  A field without a backing
    name changes neither the outcome of reading an instance nor what is shown for it,
    wherever it is declared, if it is static or literal or has a value, be it what it may. If
    the field counts and has no value, this is what the reading fails for, unless a field in
    front of it cannot be read: then the outcome is as without the field. -/
theorem decimal_unaffected (also : d.DeclaresAlso d' ty before extra after)
    (unrelated : extra.name ∉ backingNames) (typed : (d.facets v).exactType = .ok ty) :
    ((∀ object, (d'.facets v).object? = some object → isCandidate extra = true →
        ∃ x, object.fieldValue ty extra.token = .ok x) → SameDecimal d d' o v)
      ∧ ∀ object e, (d'.facets v).object? = some object → isCandidate extra = true →
        object.fieldValue ty extra.token = .error e →
        ((∀ field ∈ before, isCandidate field = true →
            CanBeRead d' o.maxDepth object ty field) →
          d'.decimalOf o.maxDepth v = .error e
            ∧ ∀ w tag escape, d.ShowsDecimal o.maxDepth w v tag →
              d'.valueText o escape w = d.contents tag v >>= fun _ => .error e)
        ∧ ((∃ field ∈ before, isCandidate field = true
            ∧ ¬CanBeRead d' o.maxDepth object ty field) → SameDecimal d d' o v) := by
  constructor
  · intro readable
    refine also.sameDecimal (also.decimalOf_of_neutral typed ?_)
    exact fun object hobject => takeField_neutral unrelated (readable object hobject)
  · intro object e hobject candidate failed
    obtain ⟨hfirst, hlater⟩ :=
      also.decimalOf_of_unreadable o.maxDepth typed hobject candidate failed
    refine ⟨?_, fun unreadable => also.sameDecimal (hlater unreadable)⟩
    intro readable
    refine ⟨hfirst readable, ?_⟩
    intro w tag escape shows
    rw [(also.showsDecimal shows).valueText, also.contents, hfirst readable]
    rfl

/-! ### Recorded types -/

/-- Two recordings of a type, one with a field more than the other. -/
theorem declaresAlso_setType (r : Recording) (t : RecordedType) (hty : t.token = ty.token) :
    (r.setType { t with fields := .ok (before ++ after) }).debuggee.DeclaresAlso
      (r.setType { t with fields := .ok (before ++ extra :: after) }).debuggee
      ty before extra after where
  fields := by simp [Recording.debuggee, Recording.type, Recording.setType, hty, Except.bind]
  fields' := by simp [Recording.debuggee, Recording.type, Recording.setType, hty, Except.bind]
  baseType := by
    funext other
    by_cases h : t.token = other.token <;>
      simp [Recording.debuggee, Recording.type, Recording.setType, h, Except.bind]
  typeName := by
    funext other
    by_cases h : t.token = other.token <;>
      simp [Recording.debuggee, Recording.typeName, Recording.type, Recording.setType, h,
        Except.bind]
  facets := sameButFields_of_facets rfl
  values v := by
    change Option.Rel _ ((r.value v).facets.object?) ((r.value v).facets.object?)
    cases (r.value v).facets.object? with
    | none => exact .none
    | some object => exact .some fun field _ => rfl

/-! ### A decimal with a hash -/

namespace HashedDecimal

def type : TypeDesc := .declared 1 ⟨0x02000004⟩ .valueType

def first : List Field :=
  [.ofInstance ⟨0x04000001⟩ "_flags" .uint32, .ofInstance ⟨0x04000002⟩ "_lo64" .uint64]

def hash : Field := .ofInstance ⟨0x04000004⟩ "hash" .int32

def last : List Field := [.ofInstance ⟨0x04000003⟩ "_hi32" .uint32]

/-- The values of the fields, by their tokens. The `hash` has the given answer. -/
def parts (answer : Answer Nat) : List RecordedField :=
  [{ field := ⟨0x04000001⟩, value := .ok 1 }, { field := ⟨0x04000002⟩, value := .ok 2 },
   { field := ⟨0x04000003⟩, value := .ok 3 }, { field := ⟨0x04000004⟩, value := answer }]

def values (answer : Answer Nat) : Recording :=
  .ofLists
    [{ elementType := .ok .valueType, contents := some (.ok []), exactType := some (.ok type),
       object := some (parts answer) },
     { elementType := .ok .uint32, contents := some (.ok [0, 0, 2, 128]) },
     { elementType := .ok .uint64, contents := some (.ok [3, 0, 0, 0, 2, 0, 0, 0]) },
     { elementType := .ok .int32, contents := some (.ok [1, 0, 0, 0]) }]
    []

def row : RecordedType where
  token := ⟨0x02000004⟩
  name := .ok decimalName
  base := .ok (some (.declared 1 ⟨0x02000002⟩ .object))

def unhashed (answer : Answer Nat) : Debuggee Nat :=
  ((values answer).setType { row with fields := .ok (first ++ last) }).debuggee

def hashed (answer : Answer Nat) : Debuggee Nat :=
  ((values answer).setType { row with fields := .ok (first ++ hash :: last) }).debuggee

theorem declaresAlso (answer : Answer Nat) :
    (unhashed answer).DeclaresAlso (hashed answer) type first hash last :=
  declaresAlso_setType (values answer) row rfl

theorem showsDecimal (answer : Answer Nat) : (unhashed answer).ShowsDecimal 64 0 0 .valueType :=
  ⟨rfl, rfl, rfl, rfl, rfl⟩

theorem canBeRead (answer : Answer Nat) : ∀ field ∈ first, isCandidate field = true →
    CanBeRead (hashed answer) 64 (RecordedField.facet (parts answer)) type field := by
  simp only [first, List.forall_mem_cons, List.not_mem_nil, false_imp_iff, implies_true, and_true]
  constructor
  · intro _
    exact ⟨⟨1, rfl⟩, fun _ _ => ⟨0x80020000, 1, rfl, rfl⟩, fun named => absurd named (by decide)⟩
  · intro _
    exact ⟨⟨2, rfl⟩, fun w named => absurd named (by cases w <;> decide),
      fun _ => ⟨0x200000003, 2, rfl, rfl⟩⟩

end HashedDecimal

open HashedDecimal

/-- A `hash` in front of the last field: with a value that is no number, and without one. -/
theorem decimal_unaffected_hash :
    (unhashed (.ok 9)).DeclaresAlso (hashed (.ok 9)) type first hash last
      ∧ hash.name ∉ backingNames
      ∧ ((unhashed (.ok 9)).facets 0).exactType = .ok type
      ∧ (hashed (.ok 9)).decimalOf 64 0 = .ok ⟨0x80020000, 1, 2, 3⟩
      ∧ (hashed (.ok 9)).valueText {} false 0 = .ok (text ⟨0x80020000, 1, 2, 3⟩)
      ∧ (hashed (.error .nullValue)).decimalOf 64 0 = .error .nullValue
      ∧ (hashed (.error .nullValue)).valueText {} false 0 = .error .nullValue := by
  have unrelated : hash.name ∉ backingNames := by decide
  obtain ⟨harmless, _⟩ := decimal_unaffected (o := {}) (v := 0) (declaresAlso (.ok 9))
    unrelated rfl
  obtain ⟨_, failing⟩ := decimal_unaffected (o := {}) (v := 0) (declaresAlso (.error .nullValue))
    unrelated rfl
  have same := harmless (by rintro object ⟨⟩ _; exact ⟨9, rfl⟩)
  obtain ⟨hdecimal, htext⟩ := (failing _ .nullValue rfl rfl rfl).1 (canBeRead (.error .nullValue))
  exact ⟨declaresAlso _, unrelated, rfl, same.decimalOf.trans rfl,
    (same.valueText 0 .valueType false (showsDecimal _)).trans rfl,
    hdecimal, (htext 0 .valueType false (showsDecimal _)).trans rfl⟩

/-- A field that is no part of the decimal and has no value is the end of the reading. -/
theorem decimal_unreadable_extra :
    (unhashed (.error .nullValue)).DeclaresAlso (hashed (.error .nullValue)) type first hash last
      ∧ hash.name ∉ backingNames
      ∧ (unhashed (.error .nullValue)).ShowsDecimal 64 0 0 .valueType
      ∧ (unhashed (.error .nullValue)).decimalOf 64 0 = .ok ⟨0x80020000, 1, 2, 3⟩
      ∧ (hashed (.error .nullValue)).decimalOf 64 0 = .error .nullValue
      ∧ (unhashed (.error .nullValue)).valueText {} false 0 = .ok (text ⟨0x80020000, 1, 2, 3⟩)
      ∧ (hashed (.error .nullValue)).valueText {} false 0 = .error .nullValue :=
  ⟨declaresAlso _, by decide, showsDecimal _, rfl, rfl, rfl, rfl⟩

end Debuggee

end Inspector
