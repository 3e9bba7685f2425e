/-
  Inspector/Display.lean
  ======================
  **Live values as text.**

  A live value is shown in one line.  References and boxes are followed first, then the
  tag at the end of the chain decides.  Strings and arrays have questions of their own;
  every other value must give its contents, even where the text does not depend on
  them.  A tag without a text of its own is named by its byte, so that the value is
  still accounted for.
-/
import Inspector.ArrayShape
import Inspector.Decimal.Fields
import Inspector.Enumeration
import Inspector.Scalar
import Inspector.Debuggee.StringText

namespace Inspector

/-- The text of a composite that is neither an enum nor a decimal. -/
def compositeText (name : String) : String :=
  "\x7b" ++ name ++ "\x7d"

def functionPointerText (address : Nat) : String :=
  "<function pointer " ++ Text.address address ++ ">"

/-- The text of a value whose tag has no display. -/
def unhandledText (tag : ElementType) : String :=
  "(Unhandled CorElementType: " ++ Text.address tag.code.toNat ++ ")"

namespace Debuggee

variable {V : Type} (d : Debuggee V)

/-! ### Questions that a display asks -/

def stringText (v : V) : Answer String :=
  match (d.facets v).string? with
  | none => .error (.unsupportedShape .stringWithoutContents)
  | some s => s.text

/-- The contents of a value with any other tag than a string's or an array's. -/
def contents (tag : ElementType) (v : V) : Answer Bytes :=
  match (d.facets v).contents? with
  | none => .error (.unsupportedShape (.withoutContents tag))
  | some answer => answer

/-- The address of a function pointer, zero if it cannot be read. -/
def functionAddress (v : V) : UInt64 :=
  match (d.facets v).reference? with
  | none => 0
  | some reference =>
    match reference.address with
    | .ok address => address
    | .error _ => 0

/-- The name of a composite's type, empty if it has none. -/
def compositeName (v : V) : String :=
  match d.exactTypeName v with
  | .ok name => name
  | .error _ => ""

/-! ### Displays -/

/-- The text of an instance: of an enum by its constants, of a decimal by its fields, of
    everything else by the name of its type. -/
def compositeValueText (o : Options) (v : V) (data : Bytes) : Answer String :=
  if d.isEnum v then do
    let ty ← (d.facets v).exactType
    d.enumText o.flagsSeparator ty data
  else
    let name := d.compositeName v
    if name = decimalName then (d.decimalOf o.maxDepth v).map Decimal.text
    else .ok (compositeText name)

def contentsText (o : Options) (escape : Bool) (v : V) (tag : ElementType) (data : Bytes) :
    Answer String :=
  match tag with
  | .pointer => .ok "<pointer>"
  | .functionPointer => .ok (functionPointerText (d.functionAddress v).toNat)
  | .valueType | .object => d.compositeValueText o v data
  | .anyObject => .ok "object"
  | tag =>
    match Scalar.read? tag data with
    | some scalar => scalar.map (Scalar.text o escape)
    | none => .ok (unhandledText tag)

def terminalText (o : Options) (escape : Bool) (v : V) : Answer String := do
  let tag ← (d.facets v).elementType
  match tag with
  | .string => (d.stringText v).map (if escape then Text.quoted else id)
  | .array | .vector =>
    match (d.facets v).array? with
    | none => throw (.unsupportedShape .arrayWithoutDimensions)
    | some a => d.arrayText o.unknownElementType a
  | tag => d.contentsText o escape v tag (← d.contents tag v)

/-- The text of a value. With `escape` a string is quoted and a character is shown with
    its code; nothing else depends on it. -/
def valueText (o : Options) (escape : Bool) (v : V) : Answer String := do
  let r ← d.resolve o.maxDepth v
  if r.isNull then return "null"
  d.terminalText o escape r.value

end Debuggee

end Inspector
