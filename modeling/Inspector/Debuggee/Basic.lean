/-
  Inspector/Debuggee/Basic.lean
  =============================
  **The debuggee, as the questions it answers.**

  The inspector never owns the program that it looks at.  It holds handles, and every
  fact about a handle or a type is the answer to a question, which may fail.  A
  debuggee is therefore a record of functions over an arbitrary type of handles; the
  same handle asked again gives the same answer as long as the program does not run.

  What a value can be asked depends on what it is.  Its facets say so: each one is
  present or absent, and nothing forbids a value to have several of them.
-/
import Inspector.Bytes.LittleEndian
import Inspector.Metadata.Field
import Inspector.Metadata.TypeDesc

namespace Inspector

abbrev Answer := Except Error

/-! ### Facets -/

/-- A value that refers to another value, or is an address. -/
structure ReferenceFacet (V : Type) where
  isNull : Answer Bool
  dereference : Answer V
  address : Answer UInt64

/-- A text. `read` is given the number of units that there is room for; it answers with
    the units that it copied and a count of its own, which need not agree. -/
structure StringFacet where
  length : Answer UInt32
  read : Nat → Answer (List UInt16 × UInt32)

structure ArrayFacet where
  rank : Answer UInt32
  count : Answer UInt32
  dimensions : Answer (List UInt32)
  hasBaseIndices : Answer Bool
  baseIndices : Answer (List UInt32)
  elementType : Answer TypeDesc

/-- An instance with fields. A field is asked for by the type that declares it and by its
    token. -/
structure ObjectFacet (V : Type) where
  fieldValue : TypeDesc → Token → Answer V

structure Facets (V : Type) where
  elementType : Answer ElementType
  size : Answer UInt32
  exactType : Answer TypeDesc
  reference? : Option (ReferenceFacet V)
  boxed? : Option (Answer V)
  contents? : Option (Answer Bytes)
  string? : Option StringFacet
  array? : Option ArrayFacet
  object? : Option (ObjectFacet V)

/-! ### Values and types -/

structure Debuggee (V : Type) where
  facets : V → Facets V
  baseType : TypeDesc → Answer (Option TypeDesc)
  fields : TypeDesc → Answer (List Field)
  attributes : TypeDesc → Answer (List Attribute)
  typeName : TypeDesc → Answer String

namespace Debuggee

variable {V : Type} (d : Debuggee V)

/-- The fields with a given name, in the order of their declaration. -/
def fieldsCalled (ty : TypeDesc) (name : String) : Answer (List Field) :=
  (d.fields ty).map (·.filter (·.name == name))

def exactTypeName (v : V) : Answer String :=
  (d.facets v).exactType.bind d.typeName

/-- The name inside all array levels of an element type, and the brackets of the levels. -/
def nestedName (element : TypeDesc) : Answer (String × String) :=
  let (innermost, suffix) := element.arrayNesting
  (d.typeName innermost).map (·, String.ofList suffix)

end Debuggee

end Inspector
