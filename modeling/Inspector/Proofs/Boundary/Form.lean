/-
  Inspector/Proofs/Boundary/Form.lean
  ===================================
  **The forms of a parcel.**

  A receiver knows nothing but a tag and a payload, so the two have to fit together and
  have to say the same about every value.  There are six forms in which they do.
  `marshal_wellFormed` says that each packed value has exactly one of them, and what the
  form says about the end of the chain from which the parcel was made.
-/
import Inspector.Debuggee.Recording
import Inspector.Proofs.Boundary.Packing
import Inspector.Proofs.Debuggee.Display
import Inspector.Proofs.Decimal.Memory
import Inspector.Proofs.Text.Utf8
import Mathlib.Logic.ExistsUnique

namespace Inspector

/-- The ways in which tag and payload go together. -/
inductive Form where
  | null | emptyText | text | handle | decimal | scalar
deriving DecidableEq, Repr

namespace Debuggee

variable {V : Type} (d : Debuggee V)

/-- What a form says of a parcel that was made from `source`, with the chain of `source`
    ending in `r`. -/
def HasForm (o : Options) (source : V) (r : ChainEnd V) (p : Parcel V) : Form → Prop
  | .null => p = ⟨.nullReference, .empty⟩ ∧ r.isNull = true
  | .emptyText =>
    p = ⟨.string, .empty⟩ ∧ r.isNull = false
      ∧ (d.facets r.value).elementType = .ok .string ∧ d.stringText r.value = .ok ""
  | .text =>
    ∃ s, p = ⟨.string, .text s⟩ ∧ s ≠ "" ∧ r.isNull = false
      ∧ (d.facets r.value).elementType = .ok .string ∧ d.valueText o false source = .ok s
  | .handle =>
    ∃ tag, p = ⟨.liveHandle, .handle source⟩ ∧ r.isNull = false
      ∧ (d.facets r.value).elementType = .ok tag
      ∧ (tag.isArray = true
        ∨ tag.isComposite = true ∧ d.isEnum r.value = false
          ∧ d.compositeName r.value ≠ decimalName)
  | .decimal =>
    ∃ tag data, p = ⟨.decimal, .block (data.take 16)⟩ ∧ 16 ≤ data.length ∧ r.isNull = false
      ∧ (d.facets r.value).elementType = .ok tag
      ∧ tag.isComposite = true ∧ d.isEnum r.value = false
      ∧ d.compositeName r.value = decimalName
      ∧ (d.facets r.value).contents? = some (.ok data)
  | .scalar =>
    ∃ tag kind data, p = ⟨kind, .inline data⟩ ∧ r.isNull = false
      ∧ (d.facets r.value).elementType = .ok tag ∧ Tag.ofElementType? tag = some kind
      ∧ if tag = .functionPointer then data = Bytes.ofNat 8 (d.functionAddress r.value).toNat
        else (d.facets r.value).contents? = some (.ok data)

variable {d} {alloc : Allocator} {o : Options} {source : V} {r : ChainEnd V} {p : Parcel V}

/-! ### At most one form -/

/-- The form that a parcel shows by its tag and the kind of its payload. -/
def Form.ofParcel (p : Parcel V) : Form :=
  match p.payload with
  | .empty => if p.tag = .nullReference then .null else .emptyText
  | .text _ => .text
  | .handle _ => .handle
  | .block _ => .decimal
  | .inline _ => .scalar

theorem HasForm.eq_ofParcel {form : Form} (h : d.HasForm o source r p form) :
    form = Form.ofParcel p := by
  cases form with
  | null | emptyText =>
    obtain ⟨rfl, -⟩ := h
    rfl
  | text | handle =>
    obtain ⟨_, rfl, -⟩ := h
    rfl
  | decimal =>
    obtain ⟨_, _, rfl, -⟩ := h
    rfl
  | scalar =>
    obtain ⟨_, _, _, rfl, -⟩ := h
    rfl

/-! ### At least one form -/

theorem hasForm_of_packedAs {tag : ElementType} (faithful : alloc.IsFaithful)
    (hr : d.resolve o.maxDepth source = .ok r) (hnull : r.isNull = false)
    (htag : (d.facets r.value).elementType = .ok tag)
    (h : d.PackedAs alloc source r.value tag p) : ∃ form, d.HasForm o source r p form := by
  cases h with
  | emptyText asked => exact ⟨.emptyText, rfl, hnull, htag, asked⟩
  | @text s copy asked nonempty copied =>
    obtain rfl := faithful.text _ _ copied
    refine ⟨.text, copy, rfl, nonempty, hnull, htag, ?_⟩
    rw [valueText_of_terminal hr hnull, terminalText_string htag, asked]
    rfl
  | array isArray => exact ⟨.handle, tag, rfl, hnull, htag, .inl isArray⟩
  | «instance» composite _ plain named =>
    exact ⟨.handle, tag, rfl, hnull, htag, .inr ⟨composite, plain, named⟩⟩
  | @decimal _ data copy _ composite asked plain named words copied =>
    -- the words are decoded and encoded again, which gives back the bytes in front
    obtain ⟨hlen, hbytes⟩ := Decimal.toBytes_of_ofBytes words
    obtain rfl := faithful.block _ _ copied
    refine ⟨.decimal, tag, data, ?_, hlen, hnull, htag, composite, plain, named,
      contents_eq_ok_iff.mp asked⟩
    rw [hbytes]
    rfl
  | functionAddress =>
    exact ⟨.scalar, .functionPointer, .nativeInt, _, rfl, hnull, htag, rfl, rfl⟩
  | @contents _ kind data other crosses asked =>
    refine ⟨.scalar, tag, kind, data, rfl, hnull, htag, crosses, ?_⟩
    rw [if_neg other]
    exact contents_eq_ok_iff.mp asked

/-! ### Tags and bytes -/

theorem HasForm.isNull_of_tag {form : Form} (h : d.HasForm o source r p form)
    (htag : p.tag = .nullReference) : r.isNull = true := by
  cases form with
  | null => exact h.2
  | emptyText =>
    obtain ⟨rfl, -⟩ := h
    cases htag
  | text | handle =>
    obtain ⟨_, rfl, -⟩ := h
    cases htag
  | decimal =>
    obtain ⟨_, _, rfl, -⟩ := h
    cases htag
  | scalar =>
    -- no element type crosses under the tag of nulls
    obtain ⟨tag, _, _, rfl, -, -, crosses, -⟩ := h
    cases htag
    cases tag <;> cases crosses

/-- Nothing crosses for a null, an empty text, a handle, and a scalar without contents. -/
theorem HasForm.bytes_eq_nil_iff {form : Form} (h : d.HasForm o source r p form) :
    p.payload.bytes = []
      ↔ p.payload = .empty ∨ (∃ w, p.payload = .handle w) ∨ p.payload = .inline [] := by
  cases form with
  | null | emptyText =>
    obtain ⟨rfl, -⟩ := h
    simp [Payload.bytes]
  | text =>
    obtain ⟨s, rfl, nonempty, -⟩ := h
    simp [Payload.bytes, Text.Utf8.encode_eq_nil_iff, nonempty]
  | handle =>
    obtain ⟨_, rfl, -⟩ := h
    simp [Payload.bytes]
  | decimal =>
    obtain ⟨_, data, rfl, hlen, -⟩ := h
    have hne : data ≠ [] := List.ne_nil_of_length_pos (by omega)
    simp [Payload.bytes, hne]
  | scalar =>
    obtain ⟨_, _, data, rfl, -⟩ := h
    simp [Payload.bytes]

/-! ### Every parcel -/

/-- **A packed value has exactly one form.**  Only a null has the tag of nulls, the number
    of a tag stands for no other tag, and the payload says whether any bytes cross. -/
theorem marshal_wellFormed (faithful : alloc.IsFaithful)
    (packed : d.marshal o alloc source = .ok p) :
    (∃ r, d.resolve o.maxDepth source = .ok r
        ∧ (∃! form, d.HasForm o source r p form)
        ∧ (p.tag = .nullReference → r.isNull = true))
      ∧ Tag.ofId p.tag.id = .ok p.tag
      ∧ (p.payload.bytes = []
        ↔ p.payload = .empty ∨ (∃ w, p.payload = .handle w) ∨ p.payload = .inline []) := by
  have some_form : ∃ r, d.resolve o.maxDepth source = .ok r
      ∧ ∃ form, d.HasForm o source r p form := by
    obtain ⟨r, hr, ⟨hnull, rfl⟩ | ⟨hnull, tag, htag, hpacked⟩⟩ := marshal_eq_ok packed
    · exact ⟨r, hr, .null, rfl, hnull⟩
    · exact ⟨r, hr, hasForm_of_packedAs faithful hr hnull htag hpacked⟩
  obtain ⟨r, hr, form, hform⟩ := some_form
  refine ⟨⟨r, hr, ⟨form, hform, ?_⟩, hform.isNull_of_tag⟩, Tag.ofId_id p.tag,
    hform.bytes_eq_nil_iff⟩
  intro other hother
  rw [hother.eq_ofParcel, hform.eq_ofParcel]

/-- A decimal with a byte too many behind a reference, packed with room for sixteen bytes and
    no more. -/
theorem marshal_wellFormed_decimal :
    let number : Bytes := [0, 0, 2, 128, 0, 0, 0, 0, 57, 48, 0, 0, 0, 0, 0, 0]
    let d := (Recording.ofLists
      [{ elementType := .ok .object, reference := some { target := some (.ok 1) } },
       { elementType := .ok .valueType, contents := some (.ok (number ++ [7])),
         exactType := some (.ok (.declared 1 ⟨0x02000004⟩ .valueType)) }]
      []).debuggee
    let p : Parcel Nat := ⟨.decimal, .block number⟩
    (Allocator.limited 16).IsFaithful ∧ d.marshal {} (.limited 16) 0 = .ok p
      ∧ (∃ r, d.resolve 64 0 = .ok r ∧ (∃! form, d.HasForm {} 0 r p form)
        ∧ (p.tag = .nullReference → r.isNull = true))
      ∧ Tag.ofId p.tag.id = .ok p.tag
      ∧ (p.payload.bytes = []
        ↔ p.payload = .empty ∨ (∃ w, p.payload = .handle w) ∨ p.payload = .inline []) := by
  intro number d p
  have packed : d.marshal {} (.limited 16) 0 = .ok p := by decide +kernel
  exact ⟨Allocator.isFaithful_limited 16, packed,
    marshal_wellFormed (Allocator.isFaithful_limited 16) packed⟩

end Debuggee

end Inspector
