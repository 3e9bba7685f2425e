/-
  Inspector/Floating/Reading.lean
  ===============================
  **Reading general notation.**

  The text of a finite number is read back as a sign, a whole number and a power of
  ten, without any rounding.  What a display keeps of a number can so be compared with
  the number itself.
-/
import Inspector.Floating.General
import Inspector.Text.Numeral

namespace Inspector.Floating

/-- What the text of a finite number says: `spelled * 10 ^ exponent` with its sign. -/
structure Reading where
  negative : Bool
  spelled : Nat
  exponent : Int
deriving DecidableEq, Repr

/-- The power of ten behind the mantissa; none is written for the power zero. -/
def readExponent? : List Char → Option Int
  | [] => some 0
  | 'e' :: rest => Text.readSigned? rest
  | _ => none

/-- Read a finite number in general notation. -/
def read? (cs : List Char) : Option Reading := do
  let (negative, rest) := Text.readSign cs
  let (spelled, places) ← Text.readPlaces? (rest.takeWhile (· != 'e'))
  let exponent ← readExponent? (rest.dropWhile (· != 'e'))
  return ⟨negative, spelled, exponent - places⟩

example : read? "-1.5e+20".toList = some ⟨true, 15, 19⟩ := by decide

example : read? "0.0001".toList = some ⟨false, 1, -4⟩ := by decide

end Inspector.Floating
