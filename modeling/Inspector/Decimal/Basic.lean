/-
  Inspector/Decimal/Basic.lean
  ============================
  **Decimal numbers.**

  A decimal is a 96-bit magnitude with a flags word that holds the sign and the number
  of decimal places.  This file has its two written forms: the sixteen bytes that it
  occupies in memory, and its text, which spells the magnitude exactly with a point
  before the last `scale` digits.  `read?` reads the text back.
-/
import Inspector.Bytes.Cursor
import Inspector.Decimal.Magnitude
import Inspector.Text.Numeral

namespace Inspector

/-- The four words of a decimal. Any flags word can occur, so the scale is not limited to
    the digits that a magnitude has. -/
structure Decimal where
  flags : UInt32
  hi : UInt32
  mid : UInt32
  lo : UInt32
deriving DecidableEq, Repr

namespace Decimal

def magnitude (d : Decimal) : Magnitude :=
  ⟨d.lo, d.mid, d.hi⟩

/-- The number of decimal places: the third byte of the flags. -/
def scale (d : Decimal) : Nat :=
  d.flags.toNat / 0x10000 % 0x100

/-- The sign is the highest bit of the flags. Zero can carry it too. -/
def isNegative (d : Decimal) : Bool :=
  0x80000000 ≤ d.flags.toNat

/-! ### In memory -/

/-- The size in memory, in bytes. -/
def size : Nat := 16

/-- Decode the words in their order in memory: flags, high, low, middle. -/
def ofBytes (data : Bytes) : Except Error Decimal := do
  let flags ← Bytes.word 4 data
  let hi ← Bytes.word 4 (data.drop 4)
  let lo ← Bytes.word 4 (data.drop 8)
  let mid ← Bytes.word 4 (data.drop 12)
  return ⟨UInt32.ofNat flags, UInt32.ofNat hi, UInt32.ofNat mid, UInt32.ofNat lo⟩

/-- The words in their order in memory, as items to write. -/
def items (d : Decimal) : List (ItemType × Int) :=
  [d.flags, d.hi, d.lo, d.mid].map (fun w => (.integer .uint32, w.toNat))

/-- Encode the words into a fresh buffer of `size` bytes. -/
def toBytes (d : Decimal) : Bytes :=
  ((Cursor.start (List.replicate size 0)).writeAll d.items).2.data

/-! ### Text -/

def chars (d : Decimal) : List Char :=
  let digits := d.magnitude.digits.leftpad (d.scale + 1) '0'
  let whole := digits.length - d.scale
  (if d.isNegative then ['-'] else [])
    ++ digits.take whole
    ++ if d.scale = 0 then [] else '.' :: digits.drop whole

def text (d : Decimal) : String :=
  String.ofList d.chars

/-- What a decimal text says: the number is `magnitude / 10 ^ scale` with its sign. -/
structure Reading where
  negative : Bool
  magnitude : Nat
  scale : Nat
deriving DecidableEq, Repr

def read? (cs : List Char) : Option Reading :=
  let (negative, rest) := Text.readSign cs
  (Text.readPlaces? rest).map (fun (n, places) => ⟨negative, n, places⟩)

/-! The point goes before the last digits, with zeros in front of them if there are too
few, and a scale of zero has no point at all. -/

example : text ⟨0x80020000, 0, 0, 12345⟩ = "-123.45" := by cbv

example : text ⟨0x00050000, 0, 0, 7⟩ = "0.00007" := by cbv

example : text ⟨0x80000000, 0, 1, 0⟩ = "-4294967296" := by cbv

end Decimal

end Inspector
