/-
  Inspector/Metadata/TypeDesc.lean
  ================================
  **Type descriptors.**

  A descriptor names a type of the debuggee: a declared type by its module and token,
  a primitive by its tag alone, and an array or a pointer over the descriptor of its
  element.  Descriptors nest as deep as the type does, so they are an inductive type
  with one constructor for the end of the nesting and one for a level of it.
-/
import Inspector.Metadata.ElementType
import Inspector.Metadata.Token

namespace Inspector

/-- What one level of a descriptor says. `rank` is the number of dimensions of an array
    and zero for everything else. -/
structure TypeHead where
  moduleId : UInt64
  token : Token
  elementType : ElementType
  rank : UInt32
deriving DecidableEq, Repr

inductive TypeDesc where
  | plain (head : TypeHead)
  | constructed (head : TypeHead) (element : TypeDesc)
deriving DecidableEq, Repr

namespace TypeDesc

def head : TypeDesc → TypeHead
  | plain h => h
  | constructed h _ => h

def element? : TypeDesc → Option TypeDesc
  | plain _ => none
  | constructed _ e => some e

def moduleId (d : TypeDesc) : UInt64 := d.head.moduleId

def token (d : TypeDesc) : Token := d.head.token

def elementType (d : TypeDesc) : ElementType := d.head.elementType

def rank (d : TypeDesc) : UInt32 := d.head.rank

/-! ### Building descriptors -/

def declared (moduleId : UInt64) (token : Token) (elementType : ElementType) : TypeDesc :=
  plain ⟨moduleId, token, elementType, 0⟩

/-- A type that its tag names completely. -/
def primitive (elementType : ElementType) : TypeDesc :=
  declared 0 .nil elementType

/-- The array over an element type. It belongs to the module of its element and has no
    token of its own. -/
def arrayOf (element : TypeDesc) (elementType : ElementType) (rank : UInt32) : TypeDesc :=
  constructed ⟨element.moduleId, .nil, elementType, rank⟩ element

/-! ### Nested arrays -/

/-- The brackets of one array level: a comma less than it has dimensions. -/
def brackets (rank : UInt32) : List Char :=
  '[' :: List.replicate (rank.toNat - 1) ',' ++ [']']

/-- Split an element type into the type inside all its array levels and the brackets of
    those levels, the outermost first. A level of rank zero, a pointer, ends the walk. -/
def arrayNesting : TypeDesc → TypeDesc × List Char
  | plain h => (plain h, [])
  | constructed h e =>
    if h.rank = 0 then (constructed h e, [])
    else
      let (innermost, suffix) := arrayNesting e
      (innermost, brackets h.rank ++ suffix)

end TypeDesc

end Inspector
