/-
  Inspector/Metadata/RootType.lean
  ================================
  **Types that are known by name.**

  Tokens differ from one debuggee to the next, so the few types that decide how a value
  is read are recognised by their display names: the three types at the root of every
  hierarchy, and the decimal type.
-/

namespace Inspector

/-- A root of the type system: the base of all enums, of all objects, of all value types. -/
inductive RootType where
  | enums
  | objects
  | valueTypes
deriving DecidableEq, Repr

namespace RootType

def displayName : RootType → String
  | enums => "System.Enum"
  | objects => "System.Object"
  | valueTypes => "System.ValueType"

def all : List RootType := [enums, objects, valueTypes]

/-- The root that a display name denotes. -/
def ofName? (name : String) : Option RootType :=
  all.find? (fun root => root.displayName == name)

theorem ofName?_displayName (root : RootType) : ofName? root.displayName = some root := by
  cases root <;> decide

end RootType

def decimalName : String := "decimal"

end Inspector
