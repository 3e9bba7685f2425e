/-
  Inspector/Metadata/Token.lean
  =============================
  **Metadata tokens.**

  A token names a row of a metadata table of the debuggee: the table in the high
  byte, the row in the low three bytes.  The inspector compares tokens and hands
  them back; it never looks a row up itself.
-/
import Inspector.Text.Numeral

namespace Inspector

structure Token where
  value : UInt32
deriving DecidableEq, Repr

namespace Token

/-- The number of rows that a table can address. -/
def rowLimit : Nat := 0x1000000

/-- The token of a row. Of the row number only the low three bytes count. -/
def ofParts (table : UInt8) (row : UInt32) : Token :=
  ⟨UInt32.ofNat (table.toNat * rowLimit + row.toNat % rowLimit)⟩

def table (t : Token) : UInt8 :=
  UInt8.ofNat (t.value.toNat / rowLimit)

def row (t : Token) : UInt32 :=
  UInt32.ofNat (t.value.toNat % rowLimit)

/-- Row zero stands for no row, whatever the table. -/
def isNil (t : Token) : Bool :=
  t.row == 0

def nil : Token := ⟨0⟩

/-! ### Text -/

/-- The token as an eight-digit number. -/
def text (t : Token) : String :=
  "0x" ++ Text.paddedHex 8 t.value.toNat

/-- The token with its table and row spelled out. -/
def detailedText (t : Token) : String :=
  "Token(" ++ t.text ++ ", table: 0x" ++ Text.paddedHex 2 t.table.toNat
    ++ ", row: " ++ t.row.toNat.repr ++ ")"

example : (ofParts 0x04 5).detailedText = "Token(0x04000005, table: 0x04, row: 5)" := by decide

end Token

end Inspector
