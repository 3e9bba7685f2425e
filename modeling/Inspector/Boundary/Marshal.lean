/-
  Inspector/Boundary/Marshal.lean
  ===============================
  **Packing a live value, and showing what was packed.**

  Packing follows references and boxes and then decides by the tag, as a display does.
  A value with a text that only its metadata can give does not cross by its bytes: an
  instance crosses as a handle, and an enum or a bare object does not cross at all.
  On the other side the tag and the bytes are enough to show a value; only a handle is
  shown by asking the debuggee again.
-/
import Inspector.Boundary.Parcel
import Inspector.Display

namespace Inspector

/-! ### Showing received bytes -/

/-- The text of received bytes. Nothing is asked of the debuggee. -/
def receivedText (o : Options) (tag : Tag) (data : Bytes) : Except Error String :=
  match tag with
  | .liveHandle | .nullReference => .ok "null"
  | .nativeInt | .nativeUInt => (Bytes.nativeWord data).map Text.address
  | .decimal => (Decimal.ofBytes data).map Decimal.text
  | .string => .ok (Text.quoted (String.ofList (Text.Utf8.decode data)))
  | tag =>
    match tag.elementType?.bind (Scalar.read? · data) with
    | some scalar => scalar.map (Scalar.text o true)
    | none => .ok ""

def received (o : Options) (tag : Tag) (data : Bytes) : Except Error Labelled :=
  (receivedText o tag data).map (⟨tag.typeName, ·⟩)

namespace Debuggee

variable {V : Type} (d : Debuggee V)

/-! ### Packing -/

/-- Pack a text. An empty one needs no memory. -/
def packText (alloc : Allocator) (s : String) : Answer (Parcel V) :=
  if s = "" then .ok ⟨.string, .empty⟩
  else (alloc.text s).map (⟨.string, .text ·⟩)

/-- Pack a decimal from its contents, as a block of exactly its size. -/
def packDecimal (alloc : Allocator) (data : Bytes) : Answer (Parcel V) := do
  let decimal ← Decimal.ofBytes data
  (alloc.block decimal.toBytes).map (⟨.decimal, .block ·⟩)

/-- Pack a value by its tag and its contents. `source` is the value that the caller
    passed, `v` the end of its chain. -/
def packContents (alloc : Allocator) (source v : V) (tag : ElementType) (data : Bytes) :
    Answer (Parcel V) :=
  match tag with
  | .valueType | .object =>
    if d.isEnum v then .error (.unsupportedShape .unformattedEnum)
    else if d.compositeName v = decimalName then packDecimal alloc data
    else .ok ⟨.liveHandle, .handle source⟩
  | .functionPointer =>
    .ok ⟨.nativeInt, .inline (Bytes.ofNat 8 (d.functionAddress v).toNat)⟩
  | .anyObject => .error (.unsupportedShape .bareObject)
  | tag =>
    match Tag.ofElementType? tag with
    | some t => .ok ⟨t, .inline data⟩
    | none => .error (.unsupportedShape (.unmarshallable tag))

def packTerminal (alloc : Allocator) (source v : V) : Answer (Parcel V) := do
  let tag ← (d.facets v).elementType
  match tag with
  | .string => packText alloc (← d.stringText v)
  | .array | .vector => return ⟨.liveHandle, .handle source⟩
  | tag => d.packContents alloc source v tag (← d.contents tag v)

def marshal (o : Options) (alloc : Allocator) (v : V) : Answer (Parcel V) := do
  let r ← d.resolve o.maxDepth v
  if r.isNull then return ⟨.nullReference, .empty⟩
  d.packTerminal alloc v r.value

/-! ### Showing a parcel -/

/-- Show a parcel on the side of the receiver. A handle is named by the exact type of its
    value, if it has a name. -/
def parcelText (o : Options) (p : Parcel V) : Answer Labelled :=
  match p.payload with
  | .handle v => do
    let text ← d.valueText o true v
    match d.exactTypeName v with
    | .ok name => return ⟨name, text⟩
    | .error _ => return ⟨p.tag.typeName, text⟩
  | payload => received o p.tag payload.bytes

end Debuggee

end Inspector
