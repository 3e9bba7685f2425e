/-
  Inspector/Error.lean
  ====================
  **Why an inspection fails.**

  Each operation reports the first cause that stops it, and nothing guesses a value
  instead.  A cause is data: what was asked of which tag, field or size.  The wording
  stands in one place, `Error.message`.  The debuggee reports causes of its own with
  the same type, so three of the cause families have a `reported` case that carries
  the debuggee's words.
-/
import Inspector.Metadata.ElementType
import Inspector.Metadata.Token

namespace Inspector

/-- A value or a request whose shape has no handling. -/
inductive Shape where
  | stringWithoutContents
  | arrayWithoutDimensions
  | withoutContents (tag : ElementType)
  | integralWithoutContents
  | decimalWithoutFields
  | withoutField (name : String)
  | fieldOfEnum (name : String)
  | unformattedEnum
  | bareObject
  | unmarshallable (tag : ElementType)
  | unknownTag (id : Int)
  | reported (words : String)
deriving DecidableEq, Repr

/-- Metadata that could not be found. -/
inductive Lookup where
  | storageField (owner : Token)
  | reported (words : String)
deriving DecidableEq, Repr

/-- Data that contradicts itself. A reported contradiction names the place that noticed it. -/
inductive Contradiction where
  | dimensions (rank : UInt32) (counted : Nat)
  | reported (words file : String) (line : UInt32)
deriving DecidableEq, Repr

inductive Error where
  | unsupportedShape (shape : Shape)
  | metadataUnavailable (lookup : Lookup)
  | fieldNotFound (name : String)
  | allocationFailure (bytes : Nat)
  | malformedDecimal (missing : List String)
  | invalidRank (rank : UInt32)
  | nullValue
  | indirectionLimit (limit : Nat)
  | typeMismatch (expected found : String)
  | target (words : String)
  | malformed (what : Contradiction)
  | outOfBounds
deriving DecidableEq, Repr

/-! ### Wording -/

def Shape.text : Shape → String
  | stringWithoutContents => "string without contents"
  | arrayWithoutDimensions => "array without dimensions"
  | withoutContents tag => tag.shortName ++ " without contents"
  | integralWithoutContents => "integral value without contents"
  | decimalWithoutFields => "decimal without fields"
  | withoutField name => "value has no field '" ++ name ++ "'"
  | fieldOfEnum name => "field '" ++ name ++ "' requested on an enum"
  | unformattedEnum => "enums must be formatted before marshalling"
  | bareObject => "bare object values cannot be marshalled"
  | unmarshallable tag => "cannot marshal " ++ tag.shortName
  | unknownTag id => "unknown marshal type " ++ id.repr
  | reported words => words

def Lookup.text : Lookup → String
  | storageField owner => "enum " ++ owner.text ++ " has no storage field"
  | reported words => words

def Contradiction.text : Contradiction → String
  | dimensions rank counted =>
    "array of rank " ++ rank.toNat.repr ++ " reported " ++ counted.repr ++ " dimensions"
  | reported words _ _ => words

/-- Where a contradiction was noticed, as the head of its message.

    The debuggee's own contradictions carry that place with them.  For the dimensions of an
    array the place would be that of the check in the text of the program: it changes with
    the build and says nothing about the array, so it is left out and the message has the
    words alone. -/
def Contradiction.place : Contradiction → String
  | dimensions .. => ""
  | reported _ file line => file ++ ":" ++ line.toNat.repr ++ ": "

def Error.message : Error → String
  | unsupportedShape shape => "Unsupported value shape - " ++ shape.text
  | metadataUnavailable lookup => "Metadata unavailable - " ++ lookup.text
  | fieldNotFound name => "Field '" ++ name ++ "' not found"
  | allocationFailure bytes => "Boundary allocation of " ++ bytes.repr ++ " bytes failed"
  | malformedDecimal missing =>
    "Malformed decimal, missing fields: " ++ String.intercalate ", " missing
  | invalidRank rank => "Invalid array rank - " ++ rank.toNat.repr
  | nullValue => "Value is null"
  | indirectionLimit limit => "Indirection chain exceeded " ++ limit.repr ++ " levels"
  | typeMismatch expected found =>
    "Type mismatch - expected " ++ expected ++ ", found " ++ found
  | target words => "Target error - " ++ words
  | malformed what => "Malformed - " ++ what.place ++ what.text
  | outOfBounds => "Out of Bound read would have occurred!"

end Inspector
