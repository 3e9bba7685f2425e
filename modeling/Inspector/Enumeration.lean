/-
  Inspector/Enumeration.lean
  ==========================
  **Names for the values of an enum.**

  An enum stores a number and gives names to some numbers.  A value is shown by the name
  of the constant that equals it.  An enum that is marked as a set of flags also names
  a value that is made up of several constants.  What no names explain is shown as a
  number, so no value is lost.

  Constants and values of every storage type are compared as 64-bit words; a signed
  word is extended by its sign, which keeps equality and the inclusion of bits.
-/
import Inspector.Bytes.IntegerType
import Inspector.Debuggee.Basic
import Inspector.Metadata.RootType

namespace Inspector

/-! ### Storage -/

/-- The 64-bit word of a number stored with the given tag. A tag that is no integer of an
    enum reads as zero, without a look at the bytes. -/
def storageWord (storage : ElementType) (data : Bytes) : Except Error UInt64 :=
  match storage with
  | .char => (IntegerType.read .uint16 data).map UInt64.ofInt
  | .nativeInt => (Bytes.signedNativeWord data).map UInt64.ofInt
  | tag =>
    match tag.integerType? with
    | some t => (t.read data).map UInt64.ofInt
    | none => .ok 0

namespace Debuggee

variable {V : Type} (d : Debuggee V)

/-- Whether the base type of a value's type is the base of all enums. What cannot be
    found out counts as no. -/
def isEnum (v : V) : Bool :=
  match (d.facets v).exactType with
  | .error _ => false
  | .ok ty =>
    match d.baseType ty with
    | .ok (some base) =>
      match d.typeName base with
      | .ok name => name == RootType.enums.displayName
      | .error _ => false
    | _ => false

/-- The tag of the field that stores the value of an enum: the first field of an instance. -/
def storageType (ty : TypeDesc) : Answer ElementType := do
  match (← d.fields ty).find? Field.isInstance with
  | some field => return field.elementType
  | none => throw (.metadataUnavailable (.storageField ty.token))

end Debuggee

namespace Enumeration

/-! ### Constants -/

structure Constant where
  name : String
  word : UInt64
deriving DecidableEq, Repr

/-- What the constants of an enum say about a word: one equals it, or none does. -/
inductive Scan where
  | exact (name : String)
  | noMatch (constants : List Constant)
deriving DecidableEq, Repr

/-- Add a constant in front of those that do not match. -/
def Scan.cons (c : Constant) : Scan → Scan
  | exact name => exact name
  | noMatch cs => noMatch (c :: cs)

/-- Go through the constants in the order of their declaration, up to the first that
    equals the word. Constants behind it are not read. -/
def scan (storage : ElementType) (word : UInt64) : List Field → Except Error Scan
  | [] => .ok (.noMatch [])
  | field :: rest =>
    if field.flags.isEnumConstant then
      match storageWord storage field.constant with
      | .error e => .error e
      | .ok w =>
        if w = word then .ok (.exact field.name)
        else (scan storage word rest).map (Scan.cons ⟨field.name, w⟩)
    else scan storage word rest

/-! ### Flags -/

/-- Whether all bits of a part are set in a word. -/
def covers (word part : UInt64) : Bool :=
  part &&& word == part

/-- Take every constant whose bits are all still unexplained, in the order given, and
    return the constants taken with the bits that remain. -/
def explain : UInt64 → List Constant → List Constant × UInt64
  | rest, [] => ([], rest)
  | rest, c :: cs =>
    if c.word ≠ 0 ∧ covers rest c.word then
      let (taken, rest) := explain (rest &&& ~~~c.word) cs
      (c :: taken, rest)
    else explain rest cs

/-- The constants that make up a word, in ascending order, if they explain all of it. -/
def flagsOf? (word : UInt64) (constants : List Constant) : Option (List Constant) :=
  let (taken, rest) := explain word constants
  if taken ≠ [] ∧ rest = 0 then some (taken.mergeSort (fun a b => a.word ≤ b.word)) else none

def unmatchedText (isFlags : Bool) (separator : String) (word : UInt64)
    (constants : List Constant) : String :=
  match if isFlags then flagsOf? word constants else none with
  | some flags => String.intercalate separator (flags.map Constant.name)
  | none => word.toNat.repr

end Enumeration

/-- The text of an enum value with the given contents. -/
def Debuggee.enumText {V : Type} (d : Debuggee V) (separator : String) (ty : TypeDesc)
    (data : Bytes) : Answer String := do
  let storage ← d.storageType ty
  let word ← storageWord storage data
  let isFlags := Attribute.anyMarksFlags (← d.attributes ty)
  match ← Enumeration.scan storage word (← d.fields ty) with
  | .exact name => return name
  | .noMatch constants => return Enumeration.unmatchedText isFlags separator word constants

end Inspector
