/-
  Inspector/Bytes/Cursor.lean
  ===========================
  **Sequential access to a buffer.**

  A cursor is a buffer with a place in it.  A step reads or writes one item at that
  place and moves past it, or it is refused and leaves the cursor as it was.  A step is
  refused when its end lies behind the end of the buffer or when the place, a 64-bit
  number, would overflow.
-/
import Inspector.Bytes.IntegerType

namespace Inspector

/-- What a cursor reads and writes. A floating-point number is taken as its bit pattern. -/
inductive ItemType where
  | integer (t : IntegerType)
  | float32
  | float64
deriving DecidableEq, Repr

namespace ItemType

def width : ItemType → Nat
  | integer t => t.width
  | float32 => 4
  | float64 => 8

def ofWord : ItemType → Nat → Int
  | integer t, word => t.ofWord word
  | _, word => word

/-- The word that denotes a number at this type. -/
def toWord (t : ItemType) (n : Int) : Nat :=
  (n % Bytes.limit t.width).toNat

end ItemType

structure Cursor where
  data : Bytes
  offset : UInt64
deriving DecidableEq, Repr

namespace Cursor

def start (data : Bytes) : Cursor :=
  ⟨data, 0⟩

/-- Where a step of the given width ends, if the buffer reaches that far. -/
def stop? (c : Cursor) (width : Nat) : Option Nat :=
  let stop := c.offset.toNat + width
  if stop < UInt64.size ∧ stop ≤ c.data.length then some stop else none

/-! ### One step -/

def read (t : ItemType) (c : Cursor) : Except Error Int × Cursor :=
  match c.stop? t.width with
  | none => (.error .outOfBounds, c)
  | some stop =>
    let item := (c.data.drop c.offset.toNat).take t.width
    (.ok (t.ofWord (Bytes.toNat item)), ⟨c.data, UInt64.ofNat stop⟩)

def write (t : ItemType) (n : Int) (c : Cursor) : Except Error Unit × Cursor :=
  match c.stop? t.width with
  | none => (.error .outOfBounds, c)
  | some stop =>
    let before := c.data.take c.offset.toNat
    let after := c.data.drop stop
    (.ok (), ⟨before ++ Bytes.ofNat t.width (t.toWord n) ++ after, UInt64.ofNat stop⟩)

/-! ### Several steps -/

/-- Read items in order, up to the first that is refused. -/
def readAll : List ItemType → Cursor → Except Error (List Int) × Cursor
  | [], c => (.ok [], c)
  | t :: ts, c =>
    match c.read t with
    | (.error e, c) => (.error e, c)
    | (.ok n, c) =>
      let (rest, c) := readAll ts c
      (rest.map (n :: ·), c)

/-- Write items in order, up to the first that is refused. -/
def writeAll : List (ItemType × Int) → Cursor → Except Error Unit × Cursor
  | [], c => (.ok (), c)
  | (t, n) :: rest, c =>
    match c.write t n with
    | (.error e, c) => (.error e, c)
    | (.ok (), c) => writeAll rest c

end Cursor

end Inspector
