/-
  Inspector/Options.lean
  ======================
  **Display options.**

  One record holds every choice that a display leaves to its caller; the field
  defaults are the ones that a display without options uses.
-/

namespace Inspector

structure Options where
  /-- How many references and boxes a walk may pass, and how many base types a field
      lookup may climb. -/
  maxDepth : Nat := 64
  /-- Significant digits of a single-precision number. -/
  float32Digits : Nat := 8
  /-- Significant digits of a double-precision number. -/
  float64Digits : Nat := 16
  /-- What stands for the element type of an array when it has no name. -/
  unknownElementType : String := ""
  /-- What stands between the names of a combination of flags. -/
  flagsSeparator : String := " | "
deriving DecidableEq, Repr

end Inspector
