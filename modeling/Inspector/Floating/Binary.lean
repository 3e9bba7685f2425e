/-
  Inspector/Floating/Binary.lean
  ==============================
  **Binary floating-point numbers.**

  A bit pattern of an IEEE 754 binary format is taken apart into what it denotes: not a
  number, an infinity, or a sign with a whole significand and a power of two.  From
  there on all arithmetic is exact arithmetic on whole numbers.
-/

namespace Inspector

structure BinaryFormat where
  exponentBits : Nat
  fractionBits : Nat
deriving DecidableEq, Repr

def BinaryFormat.single : BinaryFormat := ⟨8, 23⟩

def BinaryFormat.double : BinaryFormat := ⟨11, 52⟩

/-- What a bit pattern denotes. A finite number is `significand * 2 ^ exponent` with its
    sign; both zeros have the significand zero. -/
inductive Floating where
  | nan
  | infinite (negative : Bool)
  | finite (negative : Bool) (significand : Nat) (exponent : Int)
deriving DecidableEq, Repr

namespace Floating

/-- The exponent of the last place of the smallest numbers of a format. -/
def leastExponent (f : BinaryFormat) : Int :=
  2 - (Nat.pow 2 (f.exponentBits - 1) : Nat) - f.fractionBits

def ofBits (f : BinaryFormat) (bits : Nat) : Floating :=
  let hidden := Nat.pow 2 f.fractionBits
  let exponents := Nat.pow 2 f.exponentBits
  let fraction := bits % hidden
  let biased := bits / hidden % exponents
  let negative := bits / hidden / exponents % 2 == 1
  if biased = exponents - 1 then
    if fraction = 0 then infinite negative else nan
  else if biased = 0 then
    finite negative fraction (leastExponent f)
  else
    finite negative (hidden + fraction) (leastExponent f + (biased - 1 : Nat))

end Floating

end Inspector
