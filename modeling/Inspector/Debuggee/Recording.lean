/-
  Inspector/Debuggee/Recording.lean
  =================================
  **Recorded debuggees.**

  A recording is a table of answers: what each value answered, and what is known of each
  type.  It stands in for a running debuggee, with numbers for handles, so values can
  refer to each other and to themselves.  What a recording leaves out has a default that
  agrees with the rest of it: the size of a value is that of its contents, a reference
  is null if it has neither a target nor an address, a string has the length of its
  units.  The four types at the root of every hierarchy are always known.
-/
import Inspector.Debuggee.Basic
import Inspector.Metadata.RootType
import Inspector.Text.Utf16

namespace Inspector

/-! ### Recorded answers -/

structure RecordedReference where
  target : Option (Answer Nat) := none
  address : Option (Answer UInt64) := none
  isNull : Option (Answer Bool) := none

/-- A recorded string. A reader that offers room for fewer than `minBuffer` units is turned
    away. -/
structure RecordedString where
  units : List UInt16
  length : Option (Answer UInt32) := none
  returned : Option (Answer UInt32) := none
  minBuffer : Nat := 0

structure RecordedArray where
  dimensions : Answer (List UInt32)
  rank : Option (Answer UInt32) := none
  count : Answer UInt32 := .ok 0
  baseIndices : Option (Answer (List UInt32)) := none
  hasBaseIndices : Option (Answer Bool) := none
  elementType : Option (Answer TypeDesc) := none

/-- A recorded field value. Without an owner it answers for every declaring type. -/
structure RecordedField where
  field : Token
  owner : Option Token := none
  value : Answer Nat

structure RecordedValue where
  elementType : Answer ElementType := .ok .endMark
  size : Option (Answer UInt32) := none
  exactType : Option (Answer TypeDesc) := none
  contents : Option (Answer Bytes) := none
  reference : Option RecordedReference := none
  boxed : Option (Answer Nat) := none
  string : Option RecordedString := none
  array : Option RecordedArray := none
  object : Option (List RecordedField) := none

structure RecordedType where
  token : Token
  name : Answer String
  base : Answer (Option TypeDesc) := .ok none
  fields : Answer (List Field) := .ok []
  attributes : Answer (List Attribute) := .ok []

/-- The values by their numbers and the types. Of two entries for one value or one token
    the first counts. -/
structure Recording where
  values : List (Nat × RecordedValue)
  types : List RecordedType

/-! ### Facets of recorded values -/

/-- A recorded address counts as one that is not zero when it cannot be read. -/
def RecordedReference.looksNull (r : RecordedReference) : Bool :=
  match r.target, r.address with
  | none, none => true
  | none, some (.ok address) => address == 0
  | _, _ => false

def RecordedReference.facet (r : RecordedReference) : ReferenceFacet Nat where
  isNull := r.isNull.getD (.ok r.looksNull)
  dereference := r.target.getD (.error (.target "dereference of null"))
  address := r.address.getD (.ok 0)

def RecordedString.facet (s : RecordedString) : StringFacet where
  length := s.length.getD (.ok (UInt32.ofNat s.units.length))
  read room := do
    if room < s.minBuffer then throw (.target "buffer too small")
    let copied := s.units.take room
    let count ← s.returned.getD (.ok (UInt32.ofNat copied.length))
    return (copied, count)

/-- The number of recorded dimensions, none if they cannot be read. -/
def RecordedArray.dimensionCount (a : RecordedArray) : UInt32 :=
  match a.dimensions with
  | .ok extents => UInt32.ofNat extents.length
  | .error _ => 0

def RecordedArray.facet (a : RecordedArray) : ArrayFacet where
  rank := a.rank.getD (.ok a.dimensionCount)
  count := a.count
  dimensions := a.dimensions
  hasBaseIndices := a.hasBaseIndices.getD (.ok a.baseIndices.isSome)
  baseIndices := a.baseIndices.getD (.ok [])
  elementType :=
    a.elementType.getD (.error (.metadataUnavailable (.reported "array element type")))

def RecordedField.answers (r : RecordedField) (owner : TypeDesc) (field : Token) : Bool :=
  r.field == field && (r.owner.isNone || r.owner == some owner.token)

def RecordedField.facet (fields : List RecordedField) : ObjectFacet Nat where
  fieldValue owner field :=
    match fields.find? (·.answers owner field) with
    | some r => r.value
    | none => .error (.target ("no value for field " ++ field.text))

/-- The size of the contents, and of an address if there are none. -/
def RecordedValue.defaultSize (v : RecordedValue) : UInt32 :=
  match v.contents with
  | some (.ok data) => UInt32.ofNat data.length
  | _ => 8

def RecordedValue.facets (v : RecordedValue) : Facets Nat where
  elementType := v.elementType
  size := v.size.getD (.ok v.defaultSize)
  exactType := v.exactType.getD (.error (.metadataUnavailable (.reported "exact type")))
  reference? := v.reference.map RecordedReference.facet
  boxed? := v.boxed
  contents? := v.contents
  string? := v.string.map RecordedString.facet
  array? := v.array.map RecordedArray.facet
  object? := v.object.map RecordedField.facet

/-! ### Types -/

def rootTypes : List RecordedType :=
  let object : Token := ⟨0x02000001⟩
  let valueType : Token := ⟨0x02000002⟩
  let derived (base : Token) : Answer (Option TypeDesc) :=
    .ok (some (.declared 1 base .object))
  [{ token := object, name := .ok RootType.objects.displayName },
   { token := valueType, name := .ok RootType.valueTypes.displayName, base := derived object },
   { token := ⟨0x02000003⟩, name := .ok RootType.enums.displayName, base := derived valueType },
   { token := ⟨0x02000004⟩, name := .ok decimalName, base := derived valueType }]

/-- The names of the types that have a tag of their own. -/
def primitiveName? : ElementType → Option String
  | .boolean => some "bool"
  | .char => some "char"
  | .int8 => some "sbyte"
  | .uint8 => some "byte"
  | .int16 => some "short"
  | .uint16 => some "ushort"
  | .int32 => some "int"
  | .uint32 => some "uint"
  | .int64 => some "long"
  | .uint64 => some "ulong"
  | .float32 => some "float"
  | .float64 => some "double"
  | .string => some "string"
  | .anyObject => some "object"
  | _ => none

/-- The name of a type without a token. -/
def primitiveName (tag : ElementType) : Answer String :=
  match primitiveName? tag with
  | some name => .ok name
  | none =>
    .error (.metadataUnavailable
      (.reported ("no name for element type " ++ Text.address tag.code.toNat)))

namespace Recording

/-- The recording of the given values, numbered from zero, and types, of which a later
    one replaces an earlier one. -/
def ofLists (values : List RecordedValue) (types : List RecordedType) : Recording :=
  ⟨values.zipIdx.map (fun (v, i) => (i, v)), types.reverse ++ rootTypes⟩

def setValue (r : Recording) (i : Nat) (v : RecordedValue) : Recording :=
  { r with values := (i, v) :: r.values }

def setType (r : Recording) (t : RecordedType) : Recording :=
  { r with types := t :: r.types }

/-- A value. A number without an entry stands for a value that answers nothing. -/
def value (r : Recording) (i : Nat) : RecordedValue :=
  (r.values.lookup i).getD {}

def type (r : Recording) (token : Token) : Answer RecordedType :=
  match r.types.find? (·.token == token) with
  | some t => .ok t
  | none => .error (.metadataUnavailable (.reported ("unknown type " ++ token.text)))

def typeName (r : Recording) (ty : TypeDesc) : Answer String :=
  if ty.token.isNil then primitiveName ty.elementType
  else (r.type ty.token).bind RecordedType.name

def debuggee (r : Recording) : Debuggee Nat where
  facets i := (r.value i).facets
  baseType ty := (r.type ty.token).bind RecordedType.base
  fields ty := (r.type ty.token).bind RecordedType.fields
  attributes ty := (r.type ty.token).bind RecordedType.attributes
  typeName := r.typeName

end Recording

end Inspector
