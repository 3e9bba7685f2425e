/-
  Inspector/Text/Utf16.lean
  =========================
  **UTF-16 code units.**

  The debuggee stores text as 16-bit units, and nothing stops it from storing a high
  or low surrogate without its partner.  Decoding pairs surrogates that belong
  together and puts the replacement character for each one that stands alone, so every
  unit is accounted for and no unit is lost.
-/

namespace Inspector.Text

/-- What stands for a code unit or a byte sequence that denotes no character. -/
def replacement : Char := '\uFFFD'

namespace Utf16

/-! ### Surrogates -/

def isHigh (u : UInt16) : Bool :=
  0xD800 ≤ u ∧ u < 0xDC00

def isLow (u : UInt16) : Bool :=
  0xDC00 ≤ u ∧ u < 0xE000

/-- The character of a high surrogate with the low surrogate after it. -/
def ofPair (high low : UInt16) : Char :=
  Char.ofNat (0x10000 + (high.toNat - 0xD800) * 0x400 + (low.toNat - 0xDC00))

def ofUnit (u : UInt16) : Char :=
  if isHigh u || isLow u then replacement else Char.ofNat u.toNat

/-! ### Text and units -/

def decode : List UInt16 → List Char
  | [] => []
  | [u] => [ofUnit u]
  | u :: v :: rest =>
    if isHigh u && isLow v then ofPair u v :: decode rest
    else ofUnit u :: decode (v :: rest)

/-- The one or two units of a character. -/
def encodeChar (c : Char) : List UInt16 :=
  let n := c.toNat
  if n < 0x10000 then [UInt16.ofNat n]
  else
    [UInt16.ofNat (0xD800 + (n - 0x10000) / 0x400),
     UInt16.ofNat (0xDC00 + (n - 0x10000) % 0x400)]

def encode (cs : List Char) : List UInt16 :=
  cs.flatMap encodeChar

end Utf16

end Inspector.Text
