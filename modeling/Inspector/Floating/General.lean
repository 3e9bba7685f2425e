/-
  Inspector/Floating/General.lean
  ===============================
  **General notation.**

  A floating-point number is shown with a given number of significant digits, with its
  digits around the point where they belong (`0.0001`, `1234.5`) as long as its
  exponent after rounding lies between -4 and the number of digits, and with a power of
  ten (`1.5e+20`) otherwise.  Zeros at the end of a fraction are not written.
-/
import Inspector.Floating.Binary
import Inspector.Floating.Rounding

namespace Inspector.Floating

/-! ### Digits around a point -/

def trimZeros (digits : List Char) : List Char :=
  (digits.reverse.dropWhile (· == '0')).reverse

/-- Whole digits and a fraction. A fraction of zeros is not written, nor its point. -/
def joinFraction (whole fraction : List Char) : List Char :=
  match trimZeros fraction with
  | [] => whole
  | kept => whole ++ '.' :: kept

/-- The digits of a number, filled up with zeros to `width` digits. -/
def paddedDigits (width n : Nat) : List Char :=
  (Nat.toDigits 10 n).leftpad width '0'

/-! ### The two notations -/

/-- One digit, the rest as a fraction, and the exponent with its sign and at least two
    digits. -/
def scientific (r : Fraction.Rounded) : List Char :=
  let digits := Nat.toDigits 10 r.spelled
  joinFraction (digits.take 1) (digits.drop 1)
    ++ 'e' :: (if r.exponent < 0 then '-' else '+') :: paddedDigits 2 r.exponent.natAbs

def fixed (x : Fraction) (places : Nat) : List Char :=
  let n := (x.scale places).round
  let unit := Nat.pow 10 places
  joinFraction (Nat.toDigits 10 (n / unit)) (paddedDigits places (n % unit))

/-- Whether an exponent is written as a power of ten. -/
def isScientific (exponent : Int) (digits : Nat) : Bool :=
  exponent < -4 || (digits : Int) ≤ exponent

/-- A positive number with `digits` significant digits. -/
def positive (x : Fraction) (digits : Nat) : List Char :=
  let r := x.roundTo digits
  if isScientific r.exponent digits then scientific r
  else fixed x (digits - 1 - r.exponent).toNat

def signChars (negative : Bool) : List Char :=
  if negative then ['-'] else []

/-- The general notation of a number. No digits at all counts as one. -/
def general (x : Floating) (digits : Nat) : String :=
  match x with
  | nan => "nan"
  | infinite negative => String.ofList (signChars negative ++ ['i', 'n', 'f'])
  | finite negative m q =>
    String.ofList (signChars negative ++
      if m = 0 then ['0'] else positive (.ofBinary m q) (max digits 1))

/-! ### Where the notation changes

One tenth and a hundred million show the two notations.  The last two numbers lie next to
a power of ten: whether rounding carries into the new place decides the notation too. -/

example : general (ofBits .double 0x3fb999999999999a) 16 = "0.1" := by decide +kernel

example : general (ofBits .double 0x419d6f3454000000) 8 = "1.2345679e+08" := by decide +kernel

example : general (ofBits .double 0x40f869f800000000) 5 = "1e+05" := by decide +kernel

example : general (ofBits .double 0x40f869f7ef9db22d) 5 = "99999" := by decide +kernel

end Inspector.Floating
