/-
  Inspector/Proofs/Boundary/Packing.lean
  ======================================
  **What a packed value can be.**

  Packing asks many questions on its way to a parcel.  `PackedAs` lists the seven ways in
  which it can end well for a value that is not null, each with the answers that led
  there, and `marshal_eq_ok` says that there is no other way.  What is proved about
  parcels is proved way by way, without a further look at how packing decides.

  All this decides by the end of the chain.  The value that was passed and the memory for a
  copy come in when the parcel is finished (`marshal_finished`), and nothing that could
  fail comes after that.
-/
import Inspector.Boundary.Marshal
import Inspector.Proofs.Debuggee.Display

namespace Inspector

/-- An allocator that copies exactly what it is given whenever it provides the memory. -/
structure Allocator.IsFaithful (alloc : Allocator) : Prop where
  text : ∀ s t, alloc.text s = .ok t → t = s
  block : ∀ data copy, alloc.block data = .ok copy → copy = data

theorem Allocator.isFaithful_heap : Allocator.heap.IsFaithful where
  text _ _ h := (Except.ok.inj h).symm
  block _ _ h := (Except.ok.inj h).symm

theorem Allocator.isFaithful_limited (limit : Nat) : (Allocator.limited limit).IsFaithful where
  text s t h := by
    simp only [Allocator.limited, Allocator.bounded] at h
    split at h
    · cases h
    · exact (Except.ok.inj h).symm
  block data copy h := by
    simp only [Allocator.limited, Allocator.bounded] at h
    split at h
    · cases h
    · exact (Except.ok.inj h).symm

theorem ElementType.not_string_of_isComposite {tag : ElementType}
    (composite : tag.isComposite = true) : tag ≠ .string ∧ tag.isArray = false := by
  cases tag <;> cases composite <;> decide

namespace Debuggee

variable {V : Type} (d : Debuggee V)

/-- The ways in which the end `v` of a chain that starts at `source` is packed, by its tag. -/
inductive PackedAs (alloc : Allocator) (source v : V) : ElementType → Parcel V → Prop where
  | emptyText (asked : d.stringText v = .ok "") :
      PackedAs alloc source v .string ⟨.string, .empty⟩
  | text {s copy : String} (asked : d.stringText v = .ok s) (nonempty : s ≠ "")
      (copied : alloc.text s = .ok copy) :
      PackedAs alloc source v .string ⟨.string, .text copy⟩
  | array {tag : ElementType} (isArray : tag.isArray = true) :
      PackedAs alloc source v tag ⟨.liveHandle, .handle source⟩
  | instance {tag : ElementType} {data : Bytes} (composite : tag.isComposite = true)
      (asked : d.contents tag v = .ok data) (plain : d.isEnum v = false)
      (named : d.compositeName v ≠ decimalName) :
      PackedAs alloc source v tag ⟨.liveHandle, .handle source⟩
  | decimal {tag : ElementType} {data copy : Bytes} {decimal : Decimal}
      (composite : tag.isComposite = true)
      (asked : d.contents tag v = .ok data) (plain : d.isEnum v = false)
      (named : d.compositeName v = decimalName) (words : Decimal.ofBytes data = .ok decimal)
      (copied : alloc.block decimal.toBytes = .ok copy) :
      PackedAs alloc source v tag ⟨.decimal, .block copy⟩
  | functionAddress {data : Bytes} (asked : d.contents .functionPointer v = .ok data) :
      PackedAs alloc source v .functionPointer
        ⟨.nativeInt, .inline (Bytes.ofNat 8 (d.functionAddress v).toNat)⟩
  | contents {tag : ElementType} {kind : Tag} {data : Bytes} (other : tag ≠ .functionPointer)
      (crosses : Tag.ofElementType? tag = some kind) (asked : d.contents tag v = .ok data) :
      PackedAs alloc source v tag ⟨kind, .inline data⟩

variable {d} {alloc : Allocator} {source v : V} {p : Parcel V}

theorem packText_eq_ok {s : String} (asked : d.stringText v = .ok s)
    (h : packText alloc s = .ok p) : d.PackedAs alloc source v .string p := by
  unfold packText at h
  split at h
  · next hempty =>
    subst hempty
    cases h
    exact PackedAs.emptyText asked
  · next hne =>
    obtain ⟨copy, hcopy, rfl⟩ := answer_map_eq_ok.mp h
    exact PackedAs.text asked hne hcopy

theorem packDecimal_eq_ok {data : Bytes} (h : packDecimal alloc data = .ok p) :
    ∃ decimal copy, Decimal.ofBytes data = .ok decimal
      ∧ alloc.block decimal.toBytes = .ok copy ∧ p = ⟨.decimal, .block copy⟩ := by
  obtain ⟨decimal, hwords, h⟩ := answer_bind_eq_ok.mp h
  obtain ⟨copy, hcopy, rfl⟩ := answer_map_eq_ok.mp h
  exact ⟨decimal, copy, hwords, hcopy, rfl⟩

theorem packContents_composite {tag : ElementType} (composite : tag.isComposite = true)
    (data : Bytes) :
    d.packContents alloc source v tag data
      = if d.isEnum v then .error (.unsupportedShape .unformattedEnum)
        else if d.compositeName v = decimalName then packDecimal alloc data
        else .ok ⟨.liveHandle, .handle source⟩ := by
  cases tag <;> cases composite <;> rfl

theorem packComposite_eq_ok {tag : ElementType} {data : Bytes} (composite : tag.isComposite = true)
    (asked : d.contents tag v = .ok data)
    (h : d.packContents alloc source v tag data = .ok p) : d.PackedAs alloc source v tag p := by
  rw [packContents_composite composite] at h
  split at h
  · cases h
  · next hplain =>
    have plain : d.isEnum v = false := Bool.eq_false_iff.mpr hplain
    split at h
    · next hnamed =>
      obtain ⟨decimal, copy, hwords, hcopy, rfl⟩ := packDecimal_eq_ok h
      exact PackedAs.decimal composite asked plain hnamed hwords hcopy
    · next hnamed =>
      cases h
      exact PackedAs.instance composite asked plain hnamed

theorem packContents_eq_ok {tag : ElementType} {data : Bytes}
    (asked : d.contents tag v = .ok data)
    (h : d.packContents alloc source v tag data = .ok p) : d.PackedAs alloc source v tag p := by
  cases composite : tag.isComposite with
  | true => exact packComposite_eq_ok composite asked h
  | false =>
    unfold packContents at h
    split at h
    · cases composite
    · cases composite
    · cases h
      exact PackedAs.functionAddress asked
    · cases h
    · next hother _ =>
      -- every other tag crosses with its contents or not at all
      split at h
      · next kind hkind =>
        cases h
        exact PackedAs.contents hother hkind asked
      · cases h

theorem packTerminal_eq_bind {tag : ElementType} (htag : (d.facets v).elementType = .ok tag)
    (hstring : tag ≠ .string) (harray : tag.isArray = false) :
    d.packTerminal alloc source v = d.contents tag v >>= d.packContents alloc source v tag := by
  rw [packTerminal, htag, answer_ok_bind]
  split
  · exact absurd rfl hstring
  · cases harray
  · cases harray
  · rfl

theorem packTerminal_decimal {tag : ElementType} {data : Bytes}
    (htag : (d.facets v).elementType = .ok tag) (composite : tag.isComposite = true)
    (hdata : (d.facets v).contents? = some (.ok data)) (plain : d.isEnum v = false)
    (named : d.compositeName v = decimalName) :
    d.packTerminal alloc source v = packDecimal alloc data := by
  have hcontents : d.contents tag v = .ok data := contents_eq_ok_iff.mpr hdata
  obtain ⟨hstring, harray⟩ := ElementType.not_string_of_isComposite composite
  rw [packTerminal_eq_bind htag hstring harray, hcontents, answer_ok_bind,
    packContents_composite composite, plain, if_neg Bool.false_ne_true, if_pos named]

theorem packTerminal_eq_ok (h : d.packTerminal alloc source v = .ok p) :
    ∃ tag, (d.facets v).elementType = .ok tag ∧ d.PackedAs alloc source v tag p := by
  obtain ⟨tag, htag, h⟩ := answer_bind_eq_ok.mp h
  refine ⟨tag, htag, ?_⟩
  split at h
  · obtain ⟨s, hs, h⟩ := answer_bind_eq_ok.mp h
    exact packText_eq_ok hs h
  · cases h
    exact PackedAs.array rfl
  · cases h
    exact PackedAs.array rfl
  · obtain ⟨data, hdata, h⟩ := answer_bind_eq_ok.mp h
    exact packContents_eq_ok hdata h

/-- A value that packs is null, or its chain ends in a value that is packed in one of the
    seven ways. -/
theorem marshal_eq_ok {o : Options} (h : d.marshal o alloc source = .ok p) :
    ∃ r, d.resolve o.maxDepth source = .ok r
      ∧ ((r.isNull = true ∧ p = ⟨.nullReference, .empty⟩)
        ∨ (r.isNull = false ∧ ∃ tag, (d.facets r.value).elementType = .ok tag
          ∧ d.PackedAs alloc source r.value tag p)) := by
  obtain ⟨r, hr, h⟩ := answer_bind_eq_ok.mp h
  refine ⟨r, hr, ?_⟩
  cases hnull : r.isNull with
  | true =>
    rw [hnull] at h
    cases h
    exact Or.inl ⟨rfl, rfl⟩
  | false =>
    rw [hnull] at h
    exact Or.inr ⟨rfl, packTerminal_eq_ok h⟩

/-! ### Values with contents -/

/-- The chain of `v` ends in `t`, which is not null and gives a tag and contents. -/
structure EndsIn (d : Debuggee V) (limit : Nat) (v t : V) (tag : ElementType) (data : Bytes) :
    Prop where
  resolved : d.resolve limit v = .ok ⟨t, false⟩
  tagged : (d.facets t).elementType = .ok tag
  contents : (d.facets t).contents? = some (.ok data)

section

variable {o : Options} {escape : Bool} {t : V} {tag : ElementType} {data : Bytes}

theorem EndsIn.valueText (h : d.EndsIn o.maxDepth v t tag data) (hstring : tag ≠ .string)
    (harray : tag.isArray = false) :
    d.valueText o escape v = d.contentsText o escape t tag data := by
  rw [valueText_of_terminal h.resolved rfl]
  exact terminalText_contents h.tagged hstring harray (contents_eq_ok_iff.mpr h.contents)

theorem EndsIn.marshal (h : d.EndsIn o.maxDepth v t tag data) (hstring : tag ≠ .string)
    (harray : tag.isArray = false) :
    d.marshal o alloc v = d.packContents alloc v t tag data := by
  rw [Debuggee.marshal, h.resolved, answer_ok_bind]
  show d.packTerminal alloc v t = _
  rw [packTerminal_eq_bind h.tagged hstring harray, contents_eq_ok_iff.mpr h.contents,
    answer_ok_bind]

end

/-! ### What a payload says about its value -/

variable {o : Options} {w : V}

/-- The handle is that of the value that was passed, not of the end of its chain. -/
theorem marshal_handle (packed : d.marshal o alloc v = .ok p) (h : p.payload = .handle w) :
    p = ⟨.liveHandle, .handle v⟩ ∧ w = v := by
  obtain ⟨r, -, ⟨-, rfl⟩ | ⟨-, tag, -, hpacked⟩⟩ := marshal_eq_ok packed
  · cases h
  · cases hpacked with
    | array | «instance» =>
      cases h
      exact ⟨rfl, rfl⟩
    | emptyText | text | decimal | functionAddress | contents => cases h

theorem marshal_block (faithful : alloc.IsFaithful) (packed : d.marshal o alloc v = .ok p)
    {b : Bytes} (h : p.payload = .block b) :
    ∃ r data decimal, d.resolve o.maxDepth v = .ok r
      ∧ (d.facets r.value).contents? = some (.ok data) ∧ Decimal.ofBytes data = .ok decimal
      ∧ p = ⟨.decimal, .block decimal.toBytes⟩ ∧ b = decimal.toBytes := by
  obtain ⟨r, hr, ⟨-, rfl⟩ | ⟨-, tag, -, hpacked⟩⟩ := marshal_eq_ok packed
  · cases h
  · cases hpacked with
    | @decimal _ data copy decimal _ asked _ _ words copied =>
      obtain rfl := faithful.block _ _ copied
      cases h
      exact ⟨r, data, decimal, hr, contents_eq_ok_iff.mp asked, words, rfl, rfl⟩
    | emptyText | text | array | «instance» | functionAddress | contents => cases h

end Debuggee

/-! ### Source and memory come last

Packing decides by the end of the chain alone.  What it is given besides, the value to keep
in a handle and the memory to copy into, it uses on the finished parcel. -/

variable {V : Type}

/-- The same payload with `v` as the handle, if it is a handle at all. -/
def Payload.retaining (v : V) : Payload V → Payload V
  | handle _ => handle v
  | payload => payload

def Parcel.retaining (v : V) (p : Parcel V) : Parcel V :=
  { p with payload := p.payload.retaining v }

/-- The parcel with its payload copied, if the receiver is to own it. -/
def Parcel.copied (alloc : Allocator) (p : Parcel V) : Answer (Parcel V) :=
  match p.payload with
  | .text s => (alloc.text s).map (⟨p.tag, .text ·⟩)
  | .block data => (alloc.block data).map (⟨p.tag, .block ·⟩)
  | .empty | .inline _ | .handle _ => .ok p

def Parcel.finished (alloc : Allocator) (source : V) (p : Parcel V) : Answer (Parcel V) :=
  (p.retaining source).copied alloc

theorem Parcel.copied_heap (p : Parcel V) : p.copied .heap = .ok p := by
  obtain ⟨tag, payload⟩ := p
  cases payload <;> rfl

theorem Parcel.finished_map_retaining (alloc : Allocator) (v w : V) (p : Parcel V) :
    (p.finished alloc v).map (retaining w) = p.finished alloc w := by
  obtain ⟨tag, payload⟩ := p
  cases payload with
  | empty | inline | handle => rfl
  | text s => exact answer_map_map (alloc.text s) _ _
  | block data => exact answer_map_map (alloc.block data) _ _

namespace Debuggee

variable {d : Debuggee V} {o : Options} {alloc : Allocator} {source other v w : V}

theorem packText_finished (s : String) :
    packText alloc s = packText .heap s >>= Parcel.finished alloc source := by
  unfold packText
  split <;> rfl

theorem packDecimal_finished (data : Bytes) :
    packDecimal alloc data = packDecimal .heap data >>= Parcel.finished alloc source := by
  unfold packDecimal
  cases Decimal.ofBytes data <;> rfl

theorem packContents_finished (tag : ElementType) (data : Bytes) :
    d.packContents alloc source v tag data
      = d.packContents .heap other v tag data >>= Parcel.finished alloc source := by
  unfold packContents
  split
  -- the two tags of an instance
  case h_1 | h_2 =>
    split
    · rfl
    · split
      · exact packDecimal_finished data
      · rfl
  case h_3 | h_4 => rfl
  case h_5 => split <;> rfl

theorem packTerminal_finished :
    d.packTerminal alloc source v
      = d.packTerminal .heap other v >>= Parcel.finished alloc source := by
  unfold packTerminal
  cases (d.facets v).elementType with
  | error e => rfl
  | ok tag =>
    simp only [answer_ok_bind]
    split
    · cases d.stringText v with
      | error e => rfl
      | ok s => exact packText_finished s
    · rfl
    · rfl
    · cases d.contents tag v with
      | error e => rfl
      | ok data => exact packContents_finished tag data

/-- Values with one end are packed from one parcel. -/
theorem marshal_finished {r : ChainEnd V} (hv : d.resolve o.maxDepth v = .ok r)
    (hw : d.resolve o.maxDepth w = .ok r) :
    d.marshal o alloc v = d.marshal o .heap w >>= Parcel.finished alloc v := by
  rw [marshal, marshal, hv, hw, answer_ok_bind, answer_ok_bind]
  cases r.isNull with
  | true => rfl
  | false => exact packTerminal_finished

/-- Whatever the memory, packing is packing with memory for everything and then copying. -/
theorem marshal_eq_copied :
    d.marshal o alloc v = d.marshal o .heap v >>= Parcel.copied alloc := by
  cases hv : d.resolve o.maxDepth v with
  | error e => rw [marshal, marshal, hv, answer_error_bind, answer_error_bind, answer_error_bind]
  | ok r =>
    rw [marshal_finished hv hv]
    cases hp : d.marshal o .heap v with
    | error e => rfl
    | ok p =>
      -- a parcel of `v` has no other handle than `v`
      have hself : p.retaining v = p := by
        have hp' : d.marshal o .heap v = d.marshal o .heap v >>= Parcel.finished .heap v :=
          marshal_finished hv hv
        rw [hp, answer_ok_bind, Parcel.finished, Parcel.copied_heap] at hp'
        exact (Except.ok.inj hp').symm
      rw [answer_ok_bind, answer_ok_bind, Parcel.finished, hself]

end Debuggee

end Inspector
