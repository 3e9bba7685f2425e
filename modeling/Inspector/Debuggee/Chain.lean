/-
  Inspector/Debuggee/Chain.lean
  =============================
  **References and boxes.**

  What a handle denotes may lie behind references and boxes.  One step of the walk
  either recognises the end of the chain or leads to the next value; the walk takes at
  most a given number of steps that lead on, so it ends on cyclic chains too.
-/
import Inspector.Debuggee.Basic

namespace Inspector

/-- What one value of a chain says: the chain ends here, with or without a value, or it
    goes on. -/
inductive Step (V : Type) where
  | stop (isNull : Bool)
  | next (target : V)
deriving DecidableEq, Repr

/-- The end of a chain. For a null reference it is the reference itself. -/
structure ChainEnd (V : Type) where
  value : V
  isNull : Bool
deriving DecidableEq, Repr

/-- Pointers to data and to functions are not followed: their address is their value. -/
def ElementType.isAddress : ElementType → Bool
  | .pointer | .functionPointer => true
  | _ => false

namespace Debuggee

variable {V : Type} (d : Debuggee V)

/-- Look at one value of a chain. A reference comes before a box, and a null reference
    before everything else. -/
def step (v : V) : Answer (Step V) :=
  match (d.facets v).reference? with
  | some reference => do
    let tag ← (d.facets v).elementType
    if ← reference.isNull then return .stop true
    if tag.isAddress then return .stop false
    return .next (← reference.dereference)
  | none =>
    match (d.facets v).boxed? with
    | some inner => inner.map .next
    | none => .ok (.stop false)

/-- Follow a chain through at most `looks` values. -/
def follow (limit : Nat) : (looks : Nat) → V → Answer (ChainEnd V)
  | 0, _ => .error (.indirectionLimit limit)
  | looks + 1, v =>
    match d.step v with
    | .error e => .error e
    | .ok (.stop isNull) => .ok ⟨v, isNull⟩
    | .ok (.next target) => follow limit looks target

/-- The end of the chain at a value, if at most `limit` steps lead to it. -/
def resolve (limit : Nat) (v : V) : Answer (ChainEnd V) :=
  d.follow limit (limit + 1) v

end Debuggee

end Inspector
