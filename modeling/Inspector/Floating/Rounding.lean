/-
  Inspector/Floating/Rounding.lean
  ================================
  **Decimal digits of a positive fraction.**

  A positive number is given as a fraction of two whole numbers.  This file finds its
  decimal exponent, rounds it at any decimal place, and rounds it to a given number of
  significant digits.  Rounding is to the nearest, and a tie goes to the even digit.
-/

namespace Inspector

structure Fraction where
  num : Nat
  den : Nat
deriving DecidableEq, Repr

namespace Fraction

/-- The fraction `m * 2 ^ q`. -/
def ofBinary (m : Nat) (q : Int) : Fraction :=
  ⟨m * Nat.pow 2 q.toNat, Nat.pow 2 (-q).toNat⟩

def scale (x : Fraction) (k : Int) : Fraction :=
  ⟨x.num * Nat.pow 10 k.toNat, x.den * Nat.pow 10 (-k).toNat⟩

/-- The nearest whole number; the even one if two are equally near. -/
def round (x : Fraction) : Nat :=
  let q := x.num / x.den
  let r := x.num % x.den
  if 2 * r < x.den ∨ (2 * r = x.den ∧ q % 2 = 0) then q else q + 1

def digitCount (n : Nat) : Nat :=
  (Nat.toDigits 10 n).length

/-- The place of the first significant digit: the `e` with `10 ^ e ≤ x < 10 ^ (e + 1)`.
    The lengths of numerator and denominator leave two candidates. -/
def exponent (x : Fraction) : Int :=
  let e : Int := digitCount x.num - digitCount x.den
  let y := x.scale (-e)
  if y.den ≤ y.num then e else e - 1

/-- A number of `digits` significant digits: the whole number that they spell, and the
    place of the first of them. -/
structure Rounded where
  spelled : Nat
  exponent : Int
deriving DecidableEq, Repr

/-- Round to `digits` significant digits. If the rounding carries into a new place, the
    number is a power of ten, spelled from that place on. -/
def roundTo (x : Fraction) (digits : Nat) : Rounded :=
  let e := x.exponent
  let n := (x.scale ((digits : Int) - 1 - e)).round
  if n = Nat.pow 10 digits then ⟨Nat.pow 10 (digits - 1), e + 1⟩ else ⟨n, e⟩

end Fraction

end Inspector
