/-
  Inspector/ArrayShape.lean
  =========================
  **The shape of an array.**

  An array is shown by its element type and its dimensions.  A dimension that starts at
  zero is shown by its extent alone and any other by its first and last index.  An
  array whose answers about its dimensions disagree is refused; one whose element type
  has no name is not.
-/
import Inspector.Debuggee.Basic

namespace Inspector

/-- One dimension: its lower bound and the number of its indices. -/
structure Dimension where
  base : UInt32
  extent : UInt32
deriving DecidableEq, Repr

namespace Dimension

/-- Extents with their lower bounds. A bound that is missing is zero and one that has no
    extent is ignored. -/
def zip : List UInt32 → List UInt32 → List Dimension
  | [], _ => []
  | extent :: extents, [] => ⟨0, extent⟩ :: zip extents []
  | extent :: extents, base :: bases => ⟨base, extent⟩ :: zip extents bases

/-- The last index may lie past 32 bits, and before the first one if there is none. -/
def text (dim : Dimension) : String :=
  if dim.base = 0 then dim.extent.toNat.repr
  else dim.base.toNat.repr ++ ".." ++ (dim.base.toNat + dim.extent.toNat - 1).repr

end Dimension

/-- Ask for the dimensions of an array and check them against its rank. The number of
    elements is asked for too, since an array that cannot tell it is not readable. -/
def ArrayFacet.shape (a : ArrayFacet) : Answer (List Dimension) := do
  let rank ← a.rank
  if rank = 0 then throw (.invalidRank rank)
  let _ ← a.count
  let extents ← a.dimensions
  if extents.length ≠ rank.toNat then
    throw (.malformed (.dimensions rank extents.length))
  let bases ← if ← a.hasBaseIndices then a.baseIndices else .ok []
  return Dimension.zip extents bases

/-- The text of an array of the given element name, dimensions and inner brackets. -/
def shapeText (element suffix : String) (dims : List Dimension) : String :=
  "\x7b" ++ element ++ "[" ++ String.intercalate ", " (dims.map Dimension.text) ++ "]"
    ++ suffix ++ "\x7d"

example : shapeText "int" "[,]" (Dimension.zip [3, 4] [1]) = "\x7bint[1..3, 4][,]\x7d" := by decide

/-- The name and the brackets of the elements, with a stand-in if they cannot be had. -/
def Debuggee.elementNameOr {V : Type} (d : Debuggee V) (unknown : String) (a : ArrayFacet) :
    String × String :=
  match a.elementType.bind d.nestedName with
  | .ok named => named
  | .error _ => (unknown, "")

def Debuggee.arrayText {V : Type} (d : Debuggee V) (unknown : String) (a : ArrayFacet) :
    Answer String := do
  let dims ← a.shape
  let (element, suffix) := d.elementNameOr unknown a
  return shapeText element suffix dims

end Inspector
