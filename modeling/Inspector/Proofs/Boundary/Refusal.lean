/-
  Inspector/Proofs/Boundary/Refusal.lean
  ======================================
  **Why a value does not cross.**

  Packing and display put the same questions to a value, up to its contents.  A question
  that fails ends both of them with the same cause (`Unread`).  Of the values that answer
  all questions packing refuses four kinds, and `Refused` lists them with the cause that
  each one has.  There is no other way to fail (`packTerminal_eq_error_iff`), so a value
  that does not cross fails to be shown as well or is one of the four kinds.
-/
import Inspector.Debuggee.Recording
import Inspector.Proofs.Boundary.Packing
import Inspector.Proofs.Decimal.Memory

namespace Inspector

/-- An allocator that provides all the memory that it is asked for. -/
structure Allocator.NeverFails (alloc : Allocator) : Prop where
  text : ∀ s, ∃ copy, alloc.text s = .ok copy
  block : ∀ data, ∃ copy, alloc.block data = .ok copy

theorem Allocator.neverFails_heap : Allocator.heap.NeverFails where
  text s := ⟨s, rfl⟩
  block data := ⟨data, rfl⟩

namespace ElementType

theorem isArray_eq_false {tag : ElementType} (harray : tag ≠ .array) (hvector : tag ≠ .vector) :
    tag.isArray = false := by
  cases tag
  case array => exact absurd rfl harray
  case vector => exact absurd rfl hvector
  all_goals rfl

/-- A tag for which there is neither a tag to cross under nor a way to be packed. -/
structure IsForeign (tag : ElementType) : Prop where
  notString : tag ≠ .string
  notArray : tag.isArray = false
  notComposite : tag.isComposite = false
  notAnyObject : tag ≠ .anyObject
  noScalar : Tag.ofElementType? tag = none

end ElementType

namespace Debuggee

variable {V : Type}

/-- The causes for which a value cannot be looked at, by the question that fails. An array
    is asked for nothing but its tag. -/
inductive Unread (d : Debuggee V) (v : V) : Error → Prop where
  | tag {e : Error} (failed : (d.facets v).elementType = .error e) : Unread d v e
  | text {e : Error} (tagged : (d.facets v).elementType = .ok .string)
      (failed : d.stringText v = .error e) : Unread d v e
  | contents {tag : ElementType} {e : Error} (tagged : (d.facets v).elementType = .ok tag)
      (notString : tag ≠ .string) (notArray : tag.isArray = false)
      (failed : d.contents tag v = .error e) : Unread d v e

/-- The values that do not cross though they give a tag and contents, with the cause. -/
inductive Refused (d : Debuggee V) (v : V) : ElementType → Bytes → Error → Prop where
  | enum {tag : ElementType} {data : Bytes} (composite : tag.isComposite = true)
      (isEnum : d.isEnum v = true) :
      Refused d v tag data (.unsupportedShape .unformattedEnum)
  | shortDecimal {tag : ElementType} {data : Bytes} (composite : tag.isComposite = true)
      (plain : d.isEnum v = false) (named : d.compositeName v = decimalName)
      (short : data.length < 16) : Refused d v tag data .outOfBounds
  | bareObject {data : Bytes} : Refused d v .anyObject data (.unsupportedShape .bareObject)
  | foreign {tag : ElementType} {data : Bytes} (foreign : tag.IsForeign) :
      Refused d v tag data (.unsupportedShape (.unmarshallable tag))

variable {d : Debuggee V} {o : Options} {escape : Bool} {alloc : Allocator} {source v : V}
  {tag : ElementType} {data : Bytes} {e : Error}

/-! ### Packing with enough memory -/

theorem packText_ne_error (never : alloc.NeverFails) (s : String) :
    packText (V := V) alloc s ≠ .error e := by
  obtain ⟨copy, hcopy⟩ := never.text s
  unfold packText
  intro h
  split at h
  · cases h
  · rw [hcopy] at h
    cases h

theorem packDecimal_eq_error_iff (never : alloc.NeverFails) :
    packDecimal (V := V) alloc data = .error e ↔ data.length < 16 ∧ e = .outOfBounds := by
  rw [packDecimal, answer_bind_eq_error, Decimal.ofBytes_eq_error_iff]
  constructor
  · rintro (h | ⟨decimal, -, h⟩)
    · exact h
    · obtain ⟨copy, hcopy⟩ := never.block decimal.toBytes
      rw [hcopy] at h
      cases h
  · exact Or.inl

/-! ### By the tag and the contents -/

theorem Refused.reads (h : d.Refused v tag data e) : tag ≠ .string ∧ tag.isArray = false := by
  cases h with
  | enum composite => exact ElementType.not_string_of_isComposite composite
  | shortDecimal composite => exact ElementType.not_string_of_isComposite composite
  | bareObject => decide
  | foreign foreign => exact ⟨foreign.notString, foreign.notArray⟩

theorem refused_of_packContents (never : alloc.NeverFails) (hstring : tag ≠ .string)
    (harray : tag.isArray = false) (h : d.packContents alloc source v tag data = .error e) :
    d.Refused v tag data e := by
  cases composite : tag.isComposite with
  | true =>
    rw [packContents_composite composite] at h
    split at h
    · next isEnum =>
      cases h
      exact Refused.enum composite isEnum
    · next hplain =>
      split at h
      · next named =>
        obtain ⟨short, rfl⟩ := (packDecimal_eq_error_iff never).mp h
        exact Refused.shortDecimal composite (Bool.eq_false_iff.mpr hplain) named short
      · cases h
  | false =>
    unfold packContents at h
    split at h
    · cases composite
    · cases composite
    · cases h
    · cases h
      exact Refused.bareObject
    · next hobject =>
      split at h
      · cases h
      · next hnone =>
        cases h
        exact Refused.foreign ⟨hstring, harray, composite, hobject, hnone⟩

theorem packContents_foreign (foreign : tag.IsForeign) :
    d.packContents alloc source v tag data = .error (.unsupportedShape (.unmarshallable tag)) := by
  have hcomposite := foreign.notComposite
  have hscalar := foreign.noScalar
  unfold packContents
  split
  · cases hcomposite
  · cases hcomposite
  · cases hscalar
  · exact absurd rfl foreign.notAnyObject
  · rw [hscalar]

theorem packContents_eq_error_iff (never : alloc.NeverFails) (hstring : tag ≠ .string)
    (harray : tag.isArray = false) :
    d.packContents alloc source v tag data = .error e ↔ d.Refused v tag data e := by
  constructor
  · exact refused_of_packContents never hstring harray
  · intro h
    cases h with
    | enum composite isEnum => rw [packContents_composite composite, if_pos isEnum]
    | shortDecimal composite plain named short =>
      rw [packContents_composite composite, plain, if_neg Bool.false_ne_true, if_pos named]
      exact (packDecimal_eq_error_iff never).mpr ⟨short, rfl⟩
    | bareObject => rfl
    | foreign foreign => exact packContents_foreign foreign

/-! ### At the end of a chain -/

/-- The end of a chain is not packed if a question fails or the value is refused, and in no
    other case. -/
theorem packTerminal_eq_error_iff (never : alloc.NeverFails) :
    d.packTerminal alloc source v = .error e
      ↔ d.Unread v e
        ∨ ∃ tag data, (d.facets v).elementType = .ok tag
          ∧ (d.facets v).contents? = some (.ok data) ∧ d.Refused v tag data e := by
  constructor
  · intro h
    obtain htag | ⟨tag, htag, h⟩ := answer_bind_eq_error.mp h
    · exact Or.inl (Unread.tag htag)
    · split at h
      · obtain htext | ⟨s, -, h⟩ := answer_bind_eq_error.mp h
        · exact Or.inl (Unread.text htag htext)
        · exact absurd h (packText_ne_error never s)
      · cases h
      · cases h
      · next hstring harray hvector =>
        have notArray : tag.isArray = false := ElementType.isArray_eq_false harray hvector
        obtain hdata | ⟨data, hdata, h⟩ := answer_bind_eq_error.mp h
        · exact Or.inl (Unread.contents htag hstring notArray hdata)
        · exact Or.inr ⟨tag, data, htag, contents_eq_ok_iff.mp hdata,
            refused_of_packContents never hstring notArray h⟩
  · rintro (h | ⟨tag, data, htag, hdata, h⟩)
    · cases h with
      | tag failed => rw [packTerminal, failed, answer_error_bind]
      | text tagged failed =>
        rw [packTerminal, tagged, answer_ok_bind]
        show d.stringText v >>= _ = _
        rw [failed, answer_error_bind]
      | contents tagged notString notArray failed =>
        rw [packTerminal_eq_bind tagged notString notArray, failed, answer_error_bind]
    · obtain ⟨hstring, harray⟩ := h.reads
      rw [packTerminal_eq_bind htag hstring harray, contents_eq_ok_iff.mpr hdata, answer_ok_bind]
      exact (packContents_eq_error_iff never hstring harray).mpr h

/-- A display fails at the same question, for the same cause. -/
theorem Unread.terminalText (h : d.Unread v e) : d.terminalText o escape v = .error e := by
  cases h with
  | tag failed => rw [Debuggee.terminalText, failed, answer_error_bind]
  | text tagged failed => rw [terminalText_string tagged, failed, answer_error_map]
  | contents tagged notString notArray failed =>
    rw [terminalText_eq_bind tagged notString notArray, failed, answer_error_bind]

/-! ### What is shown instead -/

theorem contentsText_foreign (foreign : tag.IsForeign) :
    d.contentsText o escape v tag data = .ok (unhandledText tag) := by
  obtain ⟨-, -, hcomposite, hobject, hscalar⟩ := foreign
  cases tag <;> cases hcomposite <;> cases hscalar
  case anyObject.refl.refl => exact absurd rfl hobject
  all_goals rfl

/-! ### Every value -/

/-- **A value that does not cross cannot be shown either, or packing refuses it.**  What is
    refused never crosses, and a bare object or a foreign tag is still shown. -/
theorem marshal_error_explained (never : alloc.NeverFails) :
    (∀ e, d.marshal o alloc v = .error e →
      d.valueText o true v = .error e
        ∨ ∃ t tag data, d.EndsIn o.maxDepth v t tag data ∧ d.Refused t tag data e)
      ∧ ∀ t tag data e, d.EndsIn o.maxDepth v t tag data → d.Refused t tag data e →
        d.marshal o alloc v = .error e
          ∧ (tag = .anyObject → ∀ escape, d.valueText o escape v = .ok "object")
          ∧ (tag.IsForeign → ∀ escape, d.valueText o escape v = .ok (unhandledText tag)) := by
  constructor
  · intro e h
    obtain hchain | ⟨⟨t, isNull⟩, hchain, h⟩ := answer_bind_eq_error.mp h
    · left
      rw [Debuggee.valueText, hchain, answer_error_bind]
    · cases isNull with
      | true => cases h
      | false =>
        obtain hunread | ⟨tag, data, htag, hdata, hrefused⟩ :=
          (packTerminal_eq_error_iff never).mp h
        · left
          rw [valueText_of_terminal hchain rfl]
          exact hunread.terminalText
        · exact Or.inr ⟨t, tag, data, ⟨hchain, htag, hdata⟩, hrefused⟩
  · intro t tag data e hend hrefused
    obtain ⟨hstring, harray⟩ := hrefused.reads
    refine ⟨?_, ?_, ?_⟩
    · rw [marshal, hend.resolved, answer_ok_bind]
      exact (packTerminal_eq_error_iff never).mpr
        (Or.inr ⟨tag, data, hend.tagged, hend.contents, hrefused⟩)
    · rintro rfl escape
      exact hend.valueText hstring harray
    · intro foreign escape
      rw [hend.valueText hstring harray, contentsText_foreign foreign]

/-- A typed reference inside a box: no tag to cross under, but a text that names the byte of
    the tag. -/
theorem marshal_error_explained_typedReference :
    let d := (Recording.ofLists
      [{ elementType := .ok .object, boxed := some (.ok 1) },
       { elementType := .ok .typedReference, contents := some (.ok []) }]
      []).debuggee
    let e : Error := .unsupportedShape (.unmarshallable .typedReference)
    Allocator.heap.NeverFails ∧ d.marshal {} .heap 0 = .error e
      ∧ (d.valueText {} true 0 = .error e
        ∨ ∃ t tag data, d.EndsIn 64 0 t tag data ∧ d.Refused t tag data e)
      ∧ d.EndsIn 64 0 1 .typedReference [] ∧ d.Refused 1 .typedReference [] e
      ∧ d.valueText {} true 0 = .ok "(Unhandled CorElementType: 0x16)" := by
  intro d e
  have hend : d.EndsIn 64 0 1 .typedReference [] := ⟨rfl, rfl, rfl⟩
  have foreign : ElementType.typedReference.IsForeign := by
    constructor <;> decide
  have hrefused : d.Refused 1 .typedReference [] e := Refused.foreign foreign
  obtain ⟨only, always⟩ := marshal_error_explained (d := d) (o := {}) (v := 0)
    Allocator.neverFails_heap
  obtain ⟨packed, -, shown⟩ := always 1 .typedReference [] e hend hrefused
  exact ⟨Allocator.neverFails_heap, packed, only e packed, hend, hrefused,
    (shown foreign true).trans (congrArg Except.ok (by decide +kernel))⟩

end Debuggee

end Inspector
