/-
  Inspector/Debuggee/StringText.lean
  ==================================
  **The text of a string value.**

  The debuggee copies the code units of a string into a zeroed buffer with room for one
  unit more than the string has, since it may append a terminator.  Its own count of
  copied units is believed only up to the length of the string.
-/
import Inspector.Debuggee.Basic
import Inspector.Text.Utf16

namespace Inspector

/-- The first `n` units of a zeroed buffer after `units` were copied into it. -/
def bufferUnits (units : List UInt16) (n : Nat) : List UInt16 :=
  (units.take n).rightpad n 0

/-- The text of the units that were copied and that the string has.

    The step from units to characters belongs to a foreign conversion, the lossy one.  Its
    documented behaviour is assumed and is what `Text.Utf16.decode` does: a surrogate
    without its partner becomes one replacement character, two that belong together become
    the character they encode, every other unit becomes its own character, and nothing is
    left out, so a zero unit stays and ends no text. -/
def StringFacet.text (s : StringFacet) : Answer String := do
  let length ← s.length
  let (units, count) ← s.read (length.toNat + 1)
  let kept := min count.toNat length.toNat
  return String.ofList (Text.Utf16.decode (bufferUnits units kept))

end Inspector
