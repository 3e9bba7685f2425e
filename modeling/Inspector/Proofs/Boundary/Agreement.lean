/-
  Inspector/Proofs/Boundary/Agreement.lean
  ========================================
  **A parcel is shown as the live value is.**

  A live value is shown by its tag and what the debuggee answers, a parcel by its own tag
  and its bytes.  The two dispatchers share the table of scalars and nothing else, so
  that they agree is proved tag by tag, over the seven ways in which a value is packed.
  A text survives the crossing because UTF-8 loses nothing.  Numbers of the size of an
  address and pointers are the exception: the receiver shows their word in base sixteen,
  and `Agrees` says for each of them how that word goes with the live text.
-/
import Inspector.Debuggee.Recording
import Inspector.Proofs.Boundary.Packing
import Inspector.Proofs.Bytes.NativeWord
import Inspector.Proofs.Debuggee.Display
import Inspector.Proofs.Text.Utf8

namespace Inspector

/-! ### Tags of the size of an address -/

namespace ElementType

/-- Tags whose contents cross as a word of the size of an address. -/
def isAddressSized : ElementType → Bool
  | nativeInt | nativeUInt | pointer | functionPointer => true
  | _ => false

variable {tag : ElementType}

theorem isAddressSized_of_isArray (h : tag.isArray = true) : tag.isAddressSized = false := by
  cases tag <;> cases h <;> rfl

theorem isAddressSized_of_isComposite (h : tag.isComposite = true) :
    tag.isAddressSized = false := by
  cases tag <;> cases h <;> rfl

theorem isAddressSized_iff {kind : Tag} (crosses : Tag.ofElementType? tag = some kind) :
    tag.isAddressSized = true ↔ kind = .nativeInt ∨ kind = .nativeUInt := by
  cases tag <;> cases crosses <;> decide

theorem not_string_of_crosses {kind : Tag} (crosses : Tag.ofElementType? tag = some kind) :
    tag ≠ .string ∧ tag.isArray = false := by
  cases tag <;> cases crosses <;> decide

end ElementType

namespace Debuggee

variable {V : Type} {d : Debuggee V} {o : Options} {v : V}

/-! ### The seven ways, one by one -/

/-- The bytes of a scalar that is not address-sized are shown by the table of scalars on
    both sides. -/
theorem receivedText_eq_contentsText {tag : ElementType} {kind : Tag} (data : Bytes)
    (crosses : Tag.ofElementType? tag = some kind) (hsize : tag.isAddressSized = false) :
    receivedText o kind data = d.contentsText o true v tag data := by
  cases tag <;> cases hsize <;> cases crosses <;> rfl

/-- How the text that a receiver shows for a value goes with the live text, by the tag of
    the value. -/
def Agrees (d : Debuggee V) (v : V) (tag : ElementType) (live shown : Answer String) : Prop :=
  match tag with
  | .functionPointer =>
    ∃ s, shown = .ok s ∧ live = .ok ("<function pointer " ++ s ++ ">")
  | .nativeUInt =>
    ∃ data, d.contents .nativeUInt v = .ok data
      ∧ ((data.length < 4 ∧ live = .error .outOfBounds ∧ shown = .error .outOfBounds)
        ∨ (4 ≤ data.length ∧ ∃ n : Nat, live = .ok n.repr ∧ shown = .ok (Text.address n)))
  | .nativeInt =>
    ∃ data, d.contents .nativeInt v = .ok data
      ∧ ((data.length < 4 ∧ live = .error .outOfBounds ∧ shown = .error .outOfBounds)
        ∨ (4 ≤ data.length ∧ ∃ n : Int, live = .ok n.repr
          ∧ shown = .ok (Text.address (n % 2 ^ Bytes.nativeBits data).toNat)))
  | .pointer =>
    ∃ data, d.contents .pointer v = .ok data ∧ live = .ok "<pointer>"
      ∧ ((data.length < 4 ∧ shown = .error .outOfBounds)
        ∨ (4 ≤ data.length
          ∧ shown = .ok (Text.address (Bytes.toNat (data.take (Bytes.nativeWidth data))))))
  | _ => shown = live

/-- Only a tag of the size of an address is shown differently. -/
theorem agrees_iff_eq {tag : ElementType} {live shown : Answer String}
    (hsize : tag.isAddressSized = false) : d.Agrees v tag live shown ↔ shown = live := by
  cases tag <;> cases hsize <;> exact Iff.rfl

theorem agrees_functionPointer (htag : (d.facets v).elementType = .ok .functionPointer)
    {data : Bytes} (hdata : d.contents .functionPointer v = .ok data) :
    d.Agrees v .functionPointer (d.terminalText o true v)
      (receivedText o .nativeInt (Bytes.ofNat 8 (d.functionAddress v).toNat)) := by
  refine ⟨Text.address (d.functionAddress v).toNat, ?_, ?_⟩
  · rw [receivedText, Bytes.nativeWord_ofNat_uint64]
    rfl
  · rw [terminalText_contents htag (by decide) rfl hdata]
    rfl

theorem agrees_nativeUInt (htag : (d.facets v).elementType = .ok .nativeUInt)
    {data : Bytes} (hdata : d.contents .nativeUInt v = .ok data) :
    d.Agrees v .nativeUInt (d.terminalText o true v) (receivedText o .nativeUInt data) := by
  have hlive : d.terminalText o true v
      = (Bytes.nativeWord data).map (Int.repr ∘ Int.ofNat) := by
    rw [terminalText_contents htag (by decide) rfl hdata]
    exact answer_map_map _ _ _
  refine ⟨data, hdata, ?_⟩
  rw [hlive, receivedText]
  by_cases hlong : 4 ≤ data.length
  · rw [Bytes.nativeWord_of_long hlong]
    exact Or.inr ⟨hlong, _, rfl, rfl⟩
  · rw [Bytes.nativeWord_of_short (by omega)]
    exact Or.inl ⟨by omega, rfl, rfl⟩

theorem agrees_nativeInt (htag : (d.facets v).elementType = .ok .nativeInt)
    {data : Bytes} (hdata : d.contents .nativeInt v = .ok data) :
    d.Agrees v .nativeInt (d.terminalText o true v) (receivedText o .nativeInt data) := by
  have hlive : d.terminalText o true v = (Bytes.signedNativeWord data).map Int.repr := by
    rw [terminalText_contents htag (by decide) rfl hdata]
    exact answer_map_map _ _ _
  refine ⟨data, hdata, ?_⟩
  rw [hlive, receivedText, Bytes.signedNativeWord]
  by_cases hlong : 4 ≤ data.length
  · have hlt := Bytes.toNat_lt (data.take (Bytes.nativeWidth data))
    rw [List.length_take, min_eq_left ((Bytes.nativeWidth_le_iff data).mpr hlong)] at hlt
    have hword := Bytes.twosComplement_emod hlt
    rw [Bytes.limit_nativeWidth] at hword
    rw [Bytes.nativeWord_of_long hlong]
    refine Or.inr ⟨hlong, _, rfl, ?_⟩
    rw [hword]
    rfl
  · rw [Bytes.nativeWord_of_short (by omega)]
    exact Or.inl ⟨by omega, rfl, rfl⟩

theorem agrees_pointer (htag : (d.facets v).elementType = .ok .pointer)
    {data : Bytes} (hdata : d.contents .pointer v = .ok data) :
    d.Agrees v .pointer (d.terminalText o true v) (receivedText o .nativeInt data) := by
  refine ⟨data, hdata, ?_, ?_⟩
  · rw [terminalText_contents htag (by decide) rfl hdata]
    rfl
  · rw [receivedText]
    by_cases hlong : 4 ≤ data.length
    · rw [Bytes.nativeWord_of_long hlong]
      exact Or.inr ⟨hlong, rfl⟩
    · rw [Bytes.nativeWord_of_short (by omega)]
      exact Or.inl ⟨by omega, rfl⟩

theorem agrees_contents {tag : ElementType} {kind : Tag} {data : Bytes}
    (other : tag ≠ .functionPointer) (crosses : Tag.ofElementType? tag = some kind)
    (hsize : tag.isAddressSized = true) (htag : (d.facets v).elementType = .ok tag)
    (hdata : d.contents tag v = .ok data) :
    d.Agrees v tag (d.terminalText o true v) (receivedText o kind data) := by
  cases tag <;> cases hsize <;> cases crosses
  case nativeInt.refl.refl => exact agrees_nativeInt htag hdata
  case nativeUInt.refl.refl => exact agrees_nativeUInt htag hdata
  case pointer.refl.refl => exact agrees_pointer htag hdata
  case functionPointer.refl.refl => exact absurd rfl other

/-! ### All parcels -/

variable {alloc : Allocator} {source : V} {tag : ElementType} {p : Parcel V}

def shownText (d : Debuggee V) (o : Options) (p : Parcel V) : Answer String :=
  (d.parcelText o p).map Labelled.text

/-- Without a handle nothing is asked of the debuggee. -/
theorem parcelText_of_bytes (h : ∀ w, p.payload ≠ .handle w) :
    d.parcelText o p = received o p.tag p.payload.bytes := by
  unfold parcelText
  split
  · next w hpayload => exact absurd hpayload (h w)
  · rfl

theorem shownText_of_bytes {payload : Payload V} (kind : Tag)
    (h : ∀ w, payload ≠ .handle w) :
    d.shownText o ⟨kind, payload⟩ = receivedText o kind payload.bytes := by
  rw [shownText, parcelText_of_bytes h, received, answer_map_map]
  cases receivedText o kind payload.bytes <;> rfl

theorem shownText_handle (kind : Tag) (w : V) :
    d.shownText o ⟨kind, .handle w⟩ = d.valueText o true w := by
  unfold shownText parcelText
  dsimp only
  cases d.valueText o true w with
  | error e => rfl
  | ok text =>
    rw [answer_ok_bind]
    split <;> rfl

theorem receivedText_text (s : String) :
    receivedText o .string (Text.Utf8.encode s.toList) = .ok (Text.quoted s) := by
  rw [receivedText, Text.Utf8.decode_encode, String.ofList_toList]

theorem PackedAs.isAddressSized_iff (h : d.PackedAs alloc source v tag p) :
    tag.isAddressSized = true ↔ p.tag = .nativeInt ∨ p.tag = .nativeUInt := by
  cases h with
  | emptyText | text | functionAddress => simp [ElementType.isAddressSized]
  | array isArray => simp [ElementType.isAddressSized_of_isArray isArray]
  | «instance» composite | decimal composite =>
    simp [ElementType.isAddressSized_of_isComposite composite]
  | contents other crosses => exact ElementType.isAddressSized_iff crosses

theorem agrees_of_packedAs (faithful : alloc.IsFaithful)
    (htag : (d.facets v).elementType = .ok tag) (h : d.PackedAs alloc source v tag p)
    (noBlock : ∀ b, p.payload ≠ .block b)
    (hlive : d.valueText o true source = d.terminalText o true v) :
    d.Agrees v tag (d.valueText o true source) (d.shownText o p) := by
  cases h with
  | emptyText asked =>
    rw [agrees_iff_eq rfl, hlive, terminalText_string htag, asked,
      shownText_of_bytes .string (fun _ h => by cases h)]
    exact receivedText_text ""
  | text asked nonempty copied =>
    rw [agrees_iff_eq rfl, hlive, terminalText_string htag, asked,
      shownText_of_bytes .string (fun _ h => by cases h), faithful.text _ _ copied]
    exact receivedText_text _
  | array isArray =>
    rw [agrees_iff_eq (ElementType.isAddressSized_of_isArray isArray), shownText_handle]
  | «instance» composite =>
    rw [agrees_iff_eq (ElementType.isAddressSized_of_isComposite composite), shownText_handle]
  | decimal => exact absurd rfl (noBlock _)
  | functionAddress asked =>
    rw [hlive, shownText_of_bytes .nativeInt (fun _ h => by cases h)]
    exact agrees_functionPointer htag asked
  | @contents _ kind data other crosses asked =>
    rw [hlive, shownText_of_bytes kind (fun _ h => by cases h)]
    cases hsize : tag.isAddressSized with
    | false =>
      obtain ⟨hstring, harray⟩ := ElementType.not_string_of_crosses crosses
      rw [agrees_iff_eq hsize, terminalText_contents htag hstring harray asked]
      exact receivedText_eq_contentsText data crosses hsize
    | true => exact agrees_contents other crosses hsize htag asked

/-- **What is shown for a parcel is what is shown for the value**, or the same failure, if
    the value is not packed as an address-sized number.  If it is, `Agrees` says how the
    two texts go together.  A block is the payload of a decimal and of nothing else. -/
theorem parcelText_agrees (faithful : alloc.IsFaithful)
    (packed : d.marshal o alloc source = .ok p) (noBlock : ∀ b, p.payload ≠ .block b) :
    let live := d.valueText o true source
    let shown := d.shownText o p
    (p.tag ≠ .nativeInt → p.tag ≠ .nativeUInt → shown = live)
      ∧ ∃ r, d.resolve o.maxDepth source = .ok r
        ∧ ((r.isNull = true ∧ shown = live)
          ∨ (r.isNull = false ∧ ∃ tag, (d.facets r.value).elementType = .ok tag
            ∧ d.Agrees r.value tag live shown)) := by
  intro live shown
  obtain ⟨r, hr, ⟨hnull, rfl⟩ | ⟨hnull, tag, htag, hpacked⟩⟩ := marshal_eq_ok packed
  · have heq : shown = live := (valueText_of_null hr hnull).symm
    exact ⟨fun _ _ => heq, r, hr, Or.inl ⟨hnull, heq⟩⟩
  · have hagrees : d.Agrees r.value tag live shown :=
      agrees_of_packedAs faithful htag hpacked noBlock (valueText_of_terminal hr hnull)
    refine ⟨?_, r, hr, Or.inr ⟨hnull, tag, htag, hagrees⟩⟩
    intro hint huint
    have hsize : tag.isAddressSized = false := by
      rw [← Bool.not_eq_true, hpacked.isAddressSized_iff]
      rintro (h | h)
      · exact hint h
      · exact huint h
    exact (agrees_iff_eq hsize).mp hagrees

/-- A signed word of four bytes behind a reference: live it is `-2`, at the receiver
    `0xfffffffe`. -/
theorem parcelText_agrees_negative_word :
    let d := (Recording.ofLists
      [{ elementType := .ok .object, reference := some { target := some (.ok 1) } },
       { elementType := .ok .nativeInt, contents := some (.ok [0xFE, 0xFF, 0xFF, 0xFF]) }]
      []).debuggee
    let p : Parcel Nat := ⟨.nativeInt, .inline [0xFE, 0xFF, 0xFF, 0xFF]⟩
    let live := d.valueText {} true 0
    let shown := d.shownText {} p
    Allocator.heap.IsFaithful ∧ d.marshal {} .heap 0 = .ok p ∧ (∀ b, p.payload ≠ .block b)
      ∧ ∃ r, d.resolve 64 0 = .ok r
        ∧ ((r.isNull = true ∧ shown = live)
          ∨ (r.isNull = false ∧ ∃ tag, (d.facets r.value).elementType = .ok tag
            ∧ d.Agrees r.value tag live shown)) := by
  intro d p live shown
  have packed : d.marshal {} .heap 0 = .ok p := rfl
  have noBlock : ∀ b, p.payload ≠ .block b := by
    intro b h
    cases h
  exact ⟨Allocator.isFaithful_heap, packed, noBlock,
    (parcelText_agrees Allocator.isFaithful_heap packed noBlock).2⟩

end Debuggee

end Inspector
