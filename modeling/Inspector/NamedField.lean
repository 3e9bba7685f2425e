/-
  Inspector/NamedField.lean
  =========================
  **A field by its name.**

  A field is looked for in the type that the caller names, or else in the exact type of
  the value, and then in base type after base type.  The climb stops at the three roots
  of the type system, whose own fields are never searched, and it takes no more levels
  than the options allow, so it ends on a circle of base types too.
-/
import Inspector.Display

namespace Inspector

/-- Why a field is not found below a root. A value of an enum has no fields to ask for. -/
def RootType.fieldError (name : String) : RootType → Error
  | enums => .unsupportedShape (.fieldOfEnum name)
  | objects | valueTypes => .fieldNotFound name

namespace Debuggee

variable {V : Type} (d : Debuggee V)

/-- The text of a field of a value, given the type that declares the field. -/
def declaredFieldText (o : Options) (v : V) (name : String) (owner : TypeDesc)
    (field : Field) : Answer String := do
  let target ← d.resolveNonNull o.maxDepth v
  match (d.facets target).object? with
  | none => throw (.unsupportedShape (.withoutField name))
  | some object => d.valueText o true (← object.fieldValue owner field.token)

/-- The base type that a climb goes on to. -/
def nextBase (name : String) (ty : TypeDesc) : Answer TypeDesc := do
  match ← d.baseType ty with
  | none => throw (.fieldNotFound name)
  | some base =>
    match RootType.ofName? (← d.typeName base) with
    | some root => throw (root.fieldError name)
    | none => return base

/-- Look a field up in a type and its base types, through at most `levels` types. -/
def climb (o : Options) (v : V) (name : String) : (levels : Nat) → TypeDesc → Answer String
  | 0, _ => .error (.indirectionLimit o.maxDepth)
  | levels + 1, ty =>
    match d.fieldsCalled ty name with
    | .error e => .error e
    | .ok (field :: _) => d.declaredFieldText o v name ty field
    | .ok [] =>
      match d.nextBase name ty with
      | .error e => .error e
      | .ok base => climb o v name levels base

/-- The text of a field of a value. The value itself is looked at only when the field is
    found. -/
def namedFieldText (o : Options) (v : V) (name : String) (start : Option TypeDesc) :
    Answer String := do
  let ty ← match start with
    | some ty => .ok ty
    | none => (d.facets v).exactType
  d.climb o v name (o.maxDepth + 1) ty

end Debuggee

end Inspector
