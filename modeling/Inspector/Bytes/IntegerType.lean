/-
  Inspector/Bytes/IntegerType.lean
  ================================
  **Machine integers.**

  Eight integer types, given by a width and a sign.  All of them read the same word;
  a signed type reads it in two's complement.
-/
import Inspector.Bytes.LittleEndian

namespace Inspector

/-- The number that a word of `width` bytes denotes in two's complement. -/
def twosComplement (width word : Nat) : Int :=
  if 2 * word < Bytes.limit width then word else (word : Int) - Bytes.limit width

def Bytes.signedNativeWord (data : Bytes) : Except Error Int :=
  (Bytes.nativeWord data).map (twosComplement (Bytes.nativeWidth data))

inductive IntegerType where
  | uint8 | int8 | uint16 | int16 | uint32 | int32 | uint64 | int64
deriving DecidableEq, Repr

namespace IntegerType

/-- The size in bytes. -/
def width : IntegerType → Nat
  | uint8 | int8 => 1
  | uint16 | int16 => 2
  | uint32 | int32 => 4
  | uint64 | int64 => 8

def isSigned : IntegerType → Bool
  | int8 | int16 | int32 | int64 => true
  | uint8 | uint16 | uint32 | uint64 => false

/-- The name that messages use for a type. -/
def name : IntegerType → String
  | uint8 => "u8"
  | int8 => "i8"
  | uint16 => "u16"
  | int16 => "i16"
  | uint32 => "u32"
  | int32 => "i32"
  | uint64 => "u64"
  | int64 => "i64"

def ofWord (t : IntegerType) (word : Nat) : Int :=
  if t.isSigned then twosComplement t.width word else word

/-- Read a number from the front of a buffer. -/
def read (t : IntegerType) (data : Bytes) : Except Error Int :=
  (Bytes.word t.width data).map t.ofWord

end IntegerType

/-- The integer type that a fixed-width integer tag announces. A character is no integer. -/
def ElementType.integerType? : ElementType → Option IntegerType
  | .int8 => some .int8
  | .uint8 => some .uint8
  | .int16 => some .int16
  | .uint16 => some .uint16
  | .int32 => some .int32
  | .uint32 => some .uint32
  | .int64 => some .int64
  | .uint64 => some .uint64
  | _ => none

end Inspector
