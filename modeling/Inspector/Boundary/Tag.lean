/-
  Inspector/Boundary/Tag.lean
  ===========================
  **Tags of values that cross the boundary.**

  The receiver of a value sees a small number and some bytes.  The number says how the
  bytes are to be read; it is fixed between sender and receiver, so the tags and their
  numbers are a table here, and `ofId_id` says that no number stands for two tags.
-/
import Inspector.Error

namespace Inspector

/-- How the bytes of a value that crossed are to be read. A live handle and a null
    reference have no bytes. -/
inductive Tag where
  | liveHandle | nullReference
  | boolean | uint8 | int8 | char | float64 | float32
  | int32 | uint32 | int64 | uint64 | int16 | uint16
  | nativeInt | nativeUInt | decimal | string
deriving DecidableEq, Repr

namespace Tag

/-! ### Numbers -/

def id : Tag → Int
  | liveHandle => -1
  | nullReference => 0
  | boolean => 1
  | uint8 => 2
  | int8 => 3
  | char => 4
  | float64 => 5
  | float32 => 6
  | int32 => 7
  | uint32 => 8
  | int64 => 9
  | uint64 => 10
  | int16 => 11
  | uint16 => 12
  | nativeInt => 13
  | nativeUInt => 14
  | decimal => 15
  | string => 16

/-- All tags, in the order of their numbers. -/
def all : List Tag :=
  [liveHandle, nullReference, boolean, uint8, int8, char, float64, float32, int32, uint32,
   int64, uint64, int16, uint16, nativeInt, nativeUInt, decimal, string]

theorem mem_all (t : Tag) : t ∈ all := by
  cases t <;> decide

def ofId (n : Int) : Except Error Tag :=
  match all.find? (fun t => t.id == n) with
  | some t => .ok t
  | none => .error (.unsupportedShape (.unknownTag n))

theorem ofId_id (t : Tag) : ofId t.id = .ok t := by
  cases t <;> rfl

/-! ### Tags and element types -/

/-- The type name that is shown beside a value. -/
def typeName : Tag → String
  | liveHandle | nullReference => "object"
  | boolean => "bool"
  | uint8 => "byte"
  | int8 => "sbyte"
  | char => "char"
  | float64 => "double"
  | float32 => "float"
  | int32 => "int"
  | uint32 => "uint"
  | int64 => "long"
  | uint64 => "ulong"
  | int16 => "short"
  | uint16 => "ushort"
  | nativeInt => "IntPtr"
  | nativeUInt => "UIntPtr"
  | decimal => "decimal"
  | string => "string"

/-- The tag under which the contents of a live value cross. Addresses cross as
    address-sized integers. -/
def ofElementType? : ElementType → Option Tag
  | .boolean => some boolean
  | .char => some char
  | .int8 => some int8
  | .uint8 => some uint8
  | .int16 => some int16
  | .uint16 => some uint16
  | .int32 => some int32
  | .uint32 => some uint32
  | .int64 => some int64
  | .uint64 => some uint64
  | .float32 => some float32
  | .float64 => some float64
  | .nativeInt | .pointer | .functionPointer => some nativeInt
  | .nativeUInt => some nativeUInt
  | _ => none

/-- The element type as which the bytes of a tag are read. -/
def elementType? : Tag → Option ElementType
  | boolean => some .boolean
  | uint8 => some .uint8
  | int8 => some .int8
  | char => some .char
  | float64 => some .float64
  | float32 => some .float32
  | int32 => some .int32
  | uint32 => some .uint32
  | int64 => some .int64
  | uint64 => some .uint64
  | int16 => some .int16
  | uint16 => some .uint16
  | nativeInt => some .nativeInt
  | nativeUInt => some .nativeUInt
  | liveHandle | nullReference | decimal | string => none

end Tag

end Inspector
