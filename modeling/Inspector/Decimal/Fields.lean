/-
  Inspector/Decimal/Fields.lean
  =============================
  **A decimal from the fields of its instance.**

  A live decimal is read field by field.  Two generations of the type are in use: one
  has a field for each word, the other joins the low and the middle word in one field
  of 64 bits.  The fields come in any order and may have unrelated ones among them;
  each word that some field provides is filled in, and what is missing at the end is
  reported by name.
-/
import Inspector.Decimal.Basic
import Inspector.Debuggee.Integer

namespace Inspector.Decimal

/-! ### What a field provides -/

/-- The part of a decimal that a field holds. -/
inductive Part where
  | hi | mid | lo | lowHalves | flags
deriving DecidableEq, Repr

def Part.ofName? : String → Option Part
  | "hi" | "_hi32" => some .hi
  | "mid" => some .mid
  | "lo" => some .lo
  | "_lo64" => some .lowHalves
  | "flags" | "_flags" => some .flags
  | _ => none

def Part.integerType : Part → IntegerType
  | lowHalves => .uint64
  | hi | mid | lo | flags => .uint32

/-! ### Collecting the words -/

structure Found where
  hi : Option UInt32 := none
  mid : Option UInt32 := none
  lo : Option UInt32 := none
  flags : Option UInt32 := none
deriving DecidableEq, Repr

/-- Fill in a part. A later field replaces what an earlier one provided. -/
def Found.put (found : Found) (part : Part) (n : Int) : Found :=
  match part with
  | .hi => { found with hi := some (UInt32.ofNat n.toNat) }
  | .mid => { found with mid := some (UInt32.ofNat n.toNat) }
  | .lo => { found with lo := some (UInt32.ofNat n.toNat) }
  | .flags => { found with flags := some (UInt32.ofNat n.toNat) }
  | .lowHalves =>
    { found with
      mid := some (UInt32.ofNat (n.toNat / 0x100000000))
      lo := some (UInt32.ofNat n.toNat) }

def Found.missing (found : Found) : List String :=
  [(found.hi, "hi"), (found.mid, "mid"), (found.lo, "lo"), (found.flags, "flags")].filterMap
    (fun (word, name) => if word.isNone then some name else none)

def Found.complete (found : Found) : Except Error Decimal :=
  match found with
  | ⟨some hi, some mid, some lo, some flags⟩ => .ok ⟨flags, hi, mid, lo⟩
  | found => .error (.malformedDecimal found.missing)

/-! ### Reading an instance -/

/-- Whether a field can hold a part of an instance. -/
def isCandidate (field : Field) : Bool :=
  field.isInstance && !field.flags.contains .literal

/-- Take in one field. Its value is asked for before its name is looked at, so a field
    that cannot be read ends the reading whatever it is called. -/
def takeField {V : Type} (d : Debuggee V) (limit : Nat) (object : ObjectFacet V)
    (ty : TypeDesc) (found : Found) (field : Field) : Answer Found :=
  if isCandidate field then do
    let value ← object.fieldValue ty field.token
    match Part.ofName? field.name with
    | none => return found
    | some part => return found.put part (← d.readInteger limit part.integerType value)
  else .ok found

end Inspector.Decimal

namespace Inspector

/-- The decimal that an instance holds. References to it must have been followed. -/
def Debuggee.decimalOf {V : Type} (d : Debuggee V) (limit : Nat) (v : V) :
    Answer Decimal := do
  let ty ← (d.facets v).exactType
  match (d.facets v).object? with
  | none => throw (.unsupportedShape .decimalWithoutFields)
  | some object =>
    let fields ← d.fields ty
    let found ← fields.foldlM (Decimal.takeField d limit object ty) {}
    found.complete

end Inspector
