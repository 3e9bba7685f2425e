/-
  Inspector/Proofs/Boundary/Decimals.lean
  =======================================
  **A decimal is the same on both sides.**

  A live decimal is read from its fields, a packed one from its contents in memory.  The two
  have nothing in common but the number: the fields have names, any order and two layouts,
  the contents have a fixed order of words.  `decimal_sameOnBothSides` says that where both
  hold the same decimal, both are shown as that decimal.
-/
import Inspector.Debuggee.Recording
import Inspector.Proofs.Boundary.Packing
import Inspector.Proofs.Debuggee.Display
import Inspector.Proofs.Decimal.Fields
import Inspector.Proofs.Decimal.Memory

namespace Inspector.Debuggee

variable {V : Type} {d : Debuggee V} {o : Options} {alloc : Allocator} {p : Decimal} {v t : V}

/-- An instance of the decimal type that holds a decimal twice, in its contents and in its
    fields. -/
structure IsDecimal (d : Debuggee V) (limit : Nat) (p : Decimal) (t : V) : Prop where
  tagged : ∃ tag, (d.facets t).elementType = .ok tag ∧ tag.isComposite = true
  plain : d.isEnum t = false
  contents : ∃ data, (d.facets t).contents? = some (.ok data) ∧ p.toBytes <+: data
  typed : ∃ ty, (d.facets t).exactType = .ok ty ∧ d.typeName ty = .ok "decimal"
    ∧ ∃ object fields layout, (d.facets t).object? = some object ∧ d.fields ty = .ok fields
      ∧ Decimal.IsBackedBy d limit p layout object ty fields

theorem IsDecimal.compositeName {limit : Nat} (h : d.IsDecimal limit p t) :
    d.compositeName t = decimalName := by
  obtain ⟨ty, htype, hname, -⟩ := h.typed
  exact compositeName_eq htype hname

/-! ### The live side -/

theorem IsDecimal.terminalText (h : d.IsDecimal o.maxDepth p t) (escape : Bool) :
    d.terminalText o escape t = .ok p.text := by
  obtain ⟨tag, htag, composite⟩ := h.tagged
  obtain ⟨data, hdata, -⟩ := h.contents
  obtain ⟨ty, htype, -, object, fields, layout, hobject, hfields, backed⟩ := h.typed
  rw [terminalText_decimal htag composite h.plain h.compositeName, contents_eq_ok_iff.mpr hdata,
    answer_ok_bind, Decimal.decimalOf_of_isBackedBy htype hobject hfields backed, answer_ok_map]

/-! ### The packed side -/

theorem IsDecimal.packTerminal (h : d.IsDecimal o.maxDepth p t) (source : V) :
    d.packTerminal alloc source t = (alloc.block p.toBytes).map (⟨.decimal, .block ·⟩) := by
  obtain ⟨tag, htag, composite⟩ := h.tagged
  obtain ⟨data, hdata, rest, rfl⟩ := h.contents
  -- whatever stands behind the sixteen bytes is not decoded
  rw [packTerminal_decimal htag composite hdata h.plain h.compositeName, packDecimal,
    p.ofBytes_toBytes_append, answer_ok_bind]

theorem received_decimal (o : Options) (p : Decimal) :
    received o .decimal p.toBytes = .ok ⟨"decimal", p.text⟩ := by
  rw [received, receivedText, p.ofBytes_toBytes]
  rfl

/-! ### Both sides -/

/-- **A decimal crosses as it is shown.**  The tag and a block of its sixteen bytes are all
    that crosses, and a receiver who only knows these two shows the text that the live
    value has. -/
theorem decimal_sameOnBothSides (hr : d.resolve o.maxDepth v = .ok ⟨t, false⟩)
    (holds : d.IsDecimal o.maxDepth p t) (faithful : alloc.IsFaithful)
    (allocated : ∃ block, alloc.block p.toBytes = .ok block) :
    let parcel : Parcel V := ⟨.decimal, .block p.toBytes⟩
    let shown : Labelled := ⟨"decimal", p.text⟩
    d.marshal o alloc v = .ok parcel
      ∧ p.toBytes.length = 16
      ∧ (∀ receiver : Options,
        (Tag.ofId parcel.tag.id).bind (received receiver · parcel.payload.bytes) = .ok shown)
      ∧ d.parcelText o parcel = .ok shown
      ∧ ∀ escape, d.valueText o escape v = .ok p.text := by
  intro parcel shown
  obtain ⟨block, hblock⟩ := allocated
  obtain rfl := faithful.block _ _ hblock
  refine ⟨?_, p.length_toBytes, ?_, received_decimal o p, ?_⟩
  · rw [marshal, hr, answer_ok_bind]
    show d.packTerminal alloc v t = .ok parcel
    rw [holds.packTerminal, hblock, answer_ok_map]
  · intro receiver
    simp only [Tag.ofId_id, Except.bind]
    exact received_decimal receiver p
  · intro escape
    rw [valueText_of_terminal hr rfl, holds.terminalText]

/-- A decimal behind a reference, in the joined layout. Its low words stand behind a reference
    and a box, and its type also declares a static `hi` and an unrelated field. -/
theorem decimal_sameOnBothSides_joined :
    let p : Decimal := ⟨0x80020000, 1, 2, 3⟩
    let ty : TypeDesc := .declared 1 ⟨0x02000004⟩ .valueType
    let fields : List Field :=
      [.ofInstance ⟨0x04000001⟩ "_flags" .uint32, ⟨⟨0x04000002⟩, "hi", .static, .uint32, []⟩,
       .ofInstance ⟨0x04000003⟩ "hash" .int32, .ofInstance ⟨0x04000004⟩ "_lo64" .uint64,
       .ofInstance ⟨0x04000005⟩ "_hi32" .uint32]
    let parts : List RecordedField :=
      [{ field := ⟨0x04000001⟩, value := .ok 2 }, { field := ⟨0x04000003⟩, value := .ok 0 },
       { field := ⟨0x04000004⟩, value := .ok 3 }, { field := ⟨0x04000005⟩, value := .ok 6 }]
    let d := (Recording.ofLists
      [{ elementType := .ok .object, reference := some { target := some (.ok 1) } },
       { elementType := .ok .valueType, exactType := some (.ok ty),
         contents := some (.ok (p.toBytes ++ [7])),
         object := some parts },
       { elementType := .ok .uint32, contents := some (.ok [0, 0, 2, 128]) },
       { elementType := .ok .object, reference := some { target := some (.ok 4) } },
       { elementType := .ok .object, boxed := some (.ok 5) },
       { elementType := .ok .uint64, contents := some (.ok [3, 0, 0, 0, 2, 0, 0, 0]) },
       { elementType := .ok .int32, contents := some (.ok [1, 0, 0, 0]) }]
      [{ token := ⟨0x02000004⟩, name := .ok "decimal", fields := .ok fields,
         base := .ok (some (.declared 1 ⟨0x02000002⟩ .object)) }]).debuggee
    let parcel : Parcel Nat := ⟨.decimal, .block p.toBytes⟩
    let shown : Labelled := ⟨"decimal", p.text⟩
    d.resolve 64 0 = .ok ⟨1, false⟩ ∧ d.IsDecimal 64 p 1
      ∧ (Allocator.limited 16).IsFaithful
      ∧ (∃ block, (Allocator.limited 16).block p.toBytes = .ok block)
      ∧ d.marshal {} (.limited 16) 0 = .ok parcel
      ∧ p.toBytes.length = 16
      ∧ (∀ receiver : Options,
        (Tag.ofId parcel.tag.id).bind (received receiver · parcel.payload.bytes) = .ok shown)
      ∧ d.parcelText {} parcel = .ok shown
      ∧ ∀ escape, d.valueText {} escape 0 = .ok p.text := by
  intro p ty fields parts d parcel shown
  have hr : d.resolve 64 0 = .ok ⟨1, false⟩ := rfl
  have hflags : d.HoldsWord 64 4 p.flags.toNat 2 :=
    ⟨2, .uint32, _, rfl, rfl, rfl, rfl, rfl, [], by decide⟩
  have hlow : d.HoldsWord 64 8 (p.mid.toNat * 0x100000000 + p.lo.toNat) 3 :=
    ⟨5, .uint64, _, rfl, rfl, rfl, rfl, rfl, [], by decide⟩
  have hhi : d.HoldsWord 64 4 p.hi.toNat 6 := ⟨6, .int32, _, rfl, rfl, rfl, rfl, rfl, [], by decide⟩
  have backed : Decimal.IsBackedBy d 64 p .joined
      (RecordedField.facet parts) ty fields := by
    constructor
    · decide
    · simp only [fields, List.forall_mem_cons, List.not_mem_nil, false_imp_iff, implies_true]
      refine ⟨?_, ?_, ?_, ?_, ?_, trivial⟩ <;> intro hcandidate
      · exact ⟨2, rfl, by simpa [Decimal.Layout.slots, Field.ofInstance] using hflags⟩
      · exact absurd hcandidate (by decide)
      · exact ⟨0, rfl, by simp [Decimal.Layout.slots, Field.ofInstance]⟩
      · exact ⟨3, rfl, by simpa [Decimal.Layout.slots, Field.ofInstance] using hlow⟩
      · exact ⟨6, rfl, by simpa [Decimal.Layout.slots, Field.ofInstance] using hhi⟩
  have holds : d.IsDecimal 64 p 1 :=
    { tagged := ⟨.valueType, rfl, rfl⟩
      plain := by decide +kernel
      contents := ⟨p.toBytes ++ [7], rfl, [7], rfl⟩
      typed := ⟨ty, rfl, by decide +kernel, _, fields, .joined, rfl, rfl, backed⟩ }
  have allocated : ∃ block, (Allocator.limited 16).block p.toBytes = .ok block :=
    ⟨p.toBytes, by decide +kernel⟩
  exact ⟨hr, holds, Allocator.isFaithful_limited 16, allocated,
    decimal_sameOnBothSides hr holds (Allocator.isFaithful_limited 16) allocated⟩

end Inspector.Debuggee
