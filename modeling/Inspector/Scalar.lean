/-
  Inspector/Scalar.lean
  =====================
  **Scalars.**

  A scalar is a value whose tag and contents say everything about it.  Reading and
  showing are kept apart: `Scalar.read?` knows tags and bytes, `Scalar.text` knows the
  display options.  A live value and a value received over the boundary are read and
  shown by the same two functions, so they cannot drift apart.
-/
import Inspector.Bytes.IntegerType
import Inspector.Floating.General
import Inspector.Options
import Inspector.Text.Escape
import Inspector.Text.Utf16

namespace Inspector

/-- A scalar. A truth value keeps its byte and a character its code unit, since either
    may hold more than the type foresees. -/
inductive Scalar where
  | boolean (byte : UInt8)
  | char (unit : UInt16)
  | integer (n : Int)
  | float32 (x : Floating)
  | float64 (x : Floating)
deriving DecidableEq, Repr

namespace Scalar

/-! ### Reading -/

/-- Read the scalar that a tag announces; `none` for a tag that announces no scalar. -/
def read? (tag : ElementType) (data : Bytes) : Option (Except Error Scalar) :=
  match tag with
  | .boolean => some ((Bytes.word 1 data).map (boolean ∘ UInt8.ofNat))
  | .char => some ((Bytes.word 2 data).map (char ∘ UInt16.ofNat))
  | .nativeInt => some ((Bytes.signedNativeWord data).map integer)
  | .nativeUInt => some ((Bytes.nativeWord data).map (integer ∘ Int.ofNat))
  | .float32 => some ((Bytes.word 4 data).map (float32 ∘ Floating.ofBits .single))
  | .float64 => some ((Bytes.word 8 data).map (float64 ∘ Floating.ofBits .double))
  | tag => tag.integerType?.map (fun t => (t.read data).map integer)

/-! ### Showing -/

/-- Zero is false and every other byte is true. -/
def booleanText (byte : UInt8) : String :=
  if byte = 0 then "false" else "true"

/-- A character is shown as it is, or as its code with the escaped character in quotes. -/
def charText (escape : Bool) (unit : UInt16) : String :=
  let glyph := String.singleton (Text.Utf16.ofUnit unit)
  if escape then unit.toNat.repr ++ " '" ++ Text.escape '\'' glyph ++ "'" else glyph

def text (o : Options) (escape : Bool) : Scalar → String
  | boolean byte => booleanText byte
  | char unit => charText escape unit
  | integer n => n.repr
  | float32 x => x.general o.float32Digits
  | float64 x => x.general o.float64Digits

end Scalar

end Inspector
