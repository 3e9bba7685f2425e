/-
  Inspector/Metadata/Field.lean
  =============================
  **Declared fields and attributes of a type.**

  The flag bits and names of ECMA-335 that decide how a value is read: which fields
  belong to an instance, which are enum constants, and which attribute turns an enum
  into a set of flags.
-/
import Inspector.Metadata.ElementType
import Inspector.Metadata.Token

namespace Inspector

/-! ### Fields -/

/-- The flag bits of a field. Bits without a meaning here are kept. -/
structure FieldFlags where
  bits : UInt32
deriving DecidableEq, Repr

namespace FieldFlags

def privateAccess : FieldFlags := ⟨0x0001⟩

def static : FieldFlags := ⟨0x0010⟩

def literal : FieldFlags := ⟨0x0040⟩

/-- What every named constant of an enum carries: public, static, literal, with a default. -/
def enumConstant : FieldFlags := ⟨0x8056⟩

def contains (flags part : FieldFlags) : Bool :=
  flags.bits &&& part.bits == part.bits

def isInstance (flags : FieldFlags) : Bool :=
  !flags.contains static

def isEnumConstant (flags : FieldFlags) : Bool :=
  flags.contains enumConstant

end FieldFlags

/-- A declared field. `constant` holds the bytes of a literal field's value and is empty
    for every other field. -/
structure Field where
  token : Token
  name : String
  flags : FieldFlags
  elementType : ElementType
  constant : List UInt8
deriving DecidableEq, Repr

namespace Field

/-- A private field of each instance. -/
def ofInstance (token : Token) (name : String) (elementType : ElementType) : Field :=
  ⟨token, name, .privateAccess, elementType, []⟩

def ofConstant (token : Token) (name : String) (elementType : ElementType)
    (constant : List UInt8) : Field :=
  ⟨token, name, .enumConstant, elementType, constant⟩

def isInstance (field : Field) : Bool :=
  field.flags.isInstance

end Field

/-! ### Attributes -/

/-- An attribute of a type, known by the name of its constructor. -/
structure Attribute where
  token : Token
  constructor : String
deriving DecidableEq, Repr

namespace Attribute

/-- The constructor of the attribute that marks an enum as a set of flags. -/
def flagsConstructor : String := "System.FlagsAttribute..ctor"

def marksFlags (a : Attribute) : Bool :=
  a.constructor == flagsConstructor

def anyMarksFlags (as : List Attribute) : Bool :=
  as.any marksFlags

end Attribute

end Inspector
