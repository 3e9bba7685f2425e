/-
  Inspector/Metadata/ElementType.lean
  ===================================
  **Element-type tags.**

  The runtime describes every value by a one-byte tag, and the tag decides how the
  value is read.  Twenty-nine codes have an assigned meaning; any other byte can still
  arrive, and the inspector has to be able to report it.  So the type names the
  assigned tags one by one and keeps an unassigned byte together with the fact that
  it is unassigned: a tag and its byte then determine each other (`ofCode_code`,
  `code_ofCode`), and a case split on tags is exhaustive.
-/

namespace Inspector

/-- The bytes with an assigned meaning, in ascending order. -/
def assignedCodes : List UInt8 :=
  [0x00, 0x01, 0x02, 0x03, 0x04, 0x05, 0x06, 0x07, 0x08, 0x09, 0x0a, 0x0b, 0x0c, 0x0d, 0x0e,
   0x0f, 0x10, 0x11, 0x12, 0x13, 0x14, 0x15, 0x16, 0x18, 0x19, 0x1b, 0x1c, 0x1d, 0x1e]

/-- The tag of a value. `array` covers several dimensions or custom lower bounds and
    `vector` one dimension from zero; `nativeInt` and `nativeUInt` have the width of
    an address. -/
inductive ElementType where
  | endMark | void | boolean | char
  | int8 | uint8 | int16 | uint16 | int32 | uint32 | int64 | uint64
  | float32 | float64 | string
  | pointer | byReference | valueType | object | typeVariable
  | array | genericInstance | typedReference
  | nativeInt | nativeUInt | functionPointer | anyObject | vector | methodVariable
  | unassigned (code : UInt8) (free : code ∉ assignedCodes)
deriving DecidableEq, Repr

namespace ElementType

/-! ### Tags and their bytes -/

def code : ElementType → UInt8
  | endMark => 0x00
  | void => 0x01
  | boolean => 0x02
  | char => 0x03
  | int8 => 0x04
  | uint8 => 0x05
  | int16 => 0x06
  | uint16 => 0x07
  | int32 => 0x08
  | uint32 => 0x09
  | int64 => 0x0a
  | uint64 => 0x0b
  | float32 => 0x0c
  | float64 => 0x0d
  | string => 0x0e
  | pointer => 0x0f
  | byReference => 0x10
  | valueType => 0x11
  | object => 0x12
  | typeVariable => 0x13
  | array => 0x14
  | genericInstance => 0x15
  | typedReference => 0x16
  | nativeInt => 0x18
  | nativeUInt => 0x19
  | functionPointer => 0x1b
  | anyObject => 0x1c
  | vector => 0x1d
  | methodVariable => 0x1e
  | unassigned c _ => c

/-- The tags with an assigned byte, in the order of `assignedCodes`. -/
def assigned : List ElementType :=
  [endMark, void, boolean, char, int8, uint8, int16, uint16, int32, uint32, int64, uint64,
   float32, float64, string, pointer, byReference, valueType, object, typeVariable, array,
   genericInstance, typedReference, nativeInt, nativeUInt, functionPointer, anyObject, vector,
   methodVariable]

theorem map_code_assigned : assigned.map code = assignedCodes := rfl

def ofCode (c : UInt8) : ElementType :=
  match h : assigned.find? (fun t => t.code == c) with
  | some t => t
  | none => unassigned c (by
      rw [← map_code_assigned, List.mem_map]
      rintro ⟨t, ht, rfl⟩
      simpa using List.find?_eq_none.mp h t ht)

theorem code_ofCode (c : UInt8) : (ofCode c).code = c := by
  unfold ofCode
  split
  · next t h => simpa using List.find?_some h
  · rfl

theorem ofCode_code (t : ElementType) : ofCode t.code = t := by
  cases t with
  | unassigned c free =>
    unfold ofCode
    split
    · next t h =>
      have hc : t.code = c := by simpa [code] using List.find?_some h
      exact absurd (map_code_assigned ▸ hc ▸ List.mem_map_of_mem (List.mem_of_find?_eq_some h)) free
    · rfl
  | _ => rfl

theorem code_injective {s t : ElementType} (h : s.code = t.code) : s = t := by
  rw [← ofCode_code s, h, ofCode_code]

/-! ### Families of tags -/

def isArray : ElementType → Bool
  | array | vector => true
  | _ => false

/-- Instances whose text needs the metadata of their type. -/
def isComposite : ElementType → Bool
  | valueType | object => true
  | _ => false

/-- The size in bytes of a fixed-width integral tag. An address-sized integer has no
    width of its own. -/
def integerWidth? : ElementType → Option Nat
  | int8 | uint8 => some 1
  | int16 | uint16 | char => some 2
  | int32 | uint32 => some 4
  | int64 | uint64 => some 8
  | _ => none

/-- The short name that messages use for a tag. -/
def shortName : ElementType → String
  | endMark => "END"
  | void => "VOID"
  | boolean => "BOOLEAN"
  | char => "CHAR"
  | int8 => "I1"
  | uint8 => "U1"
  | int16 => "I2"
  | uint16 => "U2"
  | int32 => "I4"
  | uint32 => "U4"
  | int64 => "I8"
  | uint64 => "U8"
  | float32 => "R4"
  | float64 => "R8"
  | string => "STRING"
  | pointer => "PTR"
  | byReference => "BYREF"
  | valueType => "VALUETYPE"
  | object => "CLASS"
  | typeVariable => "VAR"
  | array => "ARRAY"
  | genericInstance => "GENERICINST"
  | typedReference => "TYPEDBYREF"
  | nativeInt => "I"
  | nativeUInt => "U"
  | functionPointer => "FNPTR"
  | anyObject => "OBJECT"
  | vector => "SZARRAY"
  | methodVariable => "MVAR"
  | unassigned .. => "UNKNOWN"

end ElementType

end Inspector
