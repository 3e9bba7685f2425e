/-
  Inspector/Boundary/Parcel.lean
  ==============================
  **What crosses the boundary.**

  A parcel is a tag with a payload.  Small values are copied into it; texts and decimals
  are copied into memory that the receiver owns, and for that the sender asks an
  allocator; everything else crosses as the handle itself, to be shown live later.
-/
import Inspector.Boundary.Tag
import Inspector.Bytes.LittleEndian
import Inspector.Text.Utf8

namespace Inspector

/-! ### Allocators -/

/-- The source of the receiver's memory: it copies what it is given, or refuses. -/
structure Allocator where
  text : String → Except Error String
  block : Bytes → Except Error Bytes

namespace Allocator

def heap : Allocator := ⟨.ok, .ok⟩

/-- Copy something of the given size, unless it is larger than the limit. -/
def bounded {α : Type} (limit size : Nat) (a : α) : Except Error α :=
  if limit < size then .error (.allocationFailure size) else .ok a

/-- An allocator that refuses every request for more than `limit` bytes. A text takes as
    many bytes as its UTF-8 form. -/
def limited (limit : Nat) : Allocator where
  text s := bounded limit (Text.Utf8.encode s.toList).length s
  block data := bounded limit data.length data

end Allocator

/-! ### Parcels -/

inductive Payload (V : Type) where
  | empty
  | inline (data : Bytes)
  | text (s : String)
  | block (data : Bytes)
  | handle (v : V)
deriving DecidableEq, Repr

/-- The bytes that the receiver gets. -/
def Payload.bytes {V : Type} : Payload V → Bytes
  | empty | handle _ => []
  | inline data | block data => data
  | text s => Text.Utf8.encode s.toList

structure Parcel (V : Type) where
  tag : Tag
  payload : Payload V
deriving DecidableEq, Repr

/-- A text with the type name to show beside it. -/
structure Labelled where
  typeName : String
  text : String
deriving DecidableEq, Repr

end Inspector
