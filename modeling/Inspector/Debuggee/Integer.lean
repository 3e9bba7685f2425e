/-
  Inspector/Debuggee/Integer.lean
  ===============================
  **A value as an integer.**

  Decoders that need a whole number read it here.  The value must have exactly the size
  and the kind of the type asked for; only the sign is a matter of reading, so the same
  bits can be taken as signed or as unsigned.
-/
import Inspector.Bytes.IntegerType
import Inspector.Debuggee.Chain

namespace Inspector

/-- Whether values with this tag can be read as integers of the given width. An
    address-sized integer has either width of an address; a character is no integer. -/
def ElementType.isInteger (width : Nat) : ElementType → Bool
  | .char => false
  | .nativeInt | .nativeUInt => width == 4 || width == 8
  | tag => tag.integerWidth? == some width

/-- The value at the end of a chain, which must not be null. -/
def Debuggee.resolveNonNull {V : Type} (d : Debuggee V) (limit : Nat) (v : V) : Answer V := do
  let r ← d.resolve limit v
  if r.isNull then throw .nullValue
  return r.value

def Debuggee.readInteger {V : Type} (d : Debuggee V) (limit : Nat) (t : IntegerType)
    (v : V) : Answer Int := do
  let facets := d.facets (← d.resolveNonNull limit v)
  let size ← facets.size
  if size.toNat ≠ t.width then
    throw (.typeMismatch t.name (size.toNat.repr ++ " byte value"))
  let tag ← facets.elementType
  if !tag.isInteger t.width then
    throw (.typeMismatch t.name tag.shortName)
  match facets.contents? with
  | none => throw (.unsupportedShape .integralWithoutContents)
  | some contents => t.read (← contents)

end Inspector
