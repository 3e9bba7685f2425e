/-
  Inspector/Text/Utf8.lean
  ========================
  **UTF-8 bytes.**

  Text crosses a boundary as UTF-8.  The sender encodes it with the core library's
  `String.utf8EncodeChar`; the receiver decodes whatever bytes arrive.  Decoding is a
  machine that takes one byte at a time and remembers a character that has begun: how
  many bytes it still needs, the range of the next one, and the value so far.  The
  narrowed ranges of a second byte keep out surrogates, overlong forms and values past
  the last code point.  A begun character that cannot go on is shown as one
  replacement character, and the byte that broke it is looked at afresh.
-/
import Inspector.Text.Utf16

namespace Inspector.Text.Utf8

def encode (cs : List Char) : List UInt8 :=
  cs.flatMap String.utf8EncodeChar

/-! ### Decoding -/

/-- A character that has begun: the next byte must lie between `low` and `high`, and
    `more` bytes are needed after that one. -/
structure Begun where
  more : Nat
  low : UInt8
  high : UInt8
  value : Nat
deriving DecidableEq, Repr

/-- What a byte means where a character may begin: the characters it yields at once and
    the character that it begins. -/
def opening (b : UInt8) : List Char × Option Begun :=
  let n := b.toNat
  if n < 0x80 then ([Char.ofNat n], none)
  else if 0xC2 ≤ n ∧ n ≤ 0xDF then ([], some ⟨0, 0x80, 0xBF, n - 0xC0⟩)
  else if n = 0xE0 then ([], some ⟨1, 0xA0, 0xBF, 0⟩)
  else if n = 0xED then ([], some ⟨1, 0x80, 0x9F, n - 0xE0⟩)
  else if 0xE1 ≤ n ∧ n ≤ 0xEF then ([], some ⟨1, 0x80, 0xBF, n - 0xE0⟩)
  else if n = 0xF0 then ([], some ⟨2, 0x90, 0xBF, 0⟩)
  else if 0xF1 ≤ n ∧ n ≤ 0xF3 then ([], some ⟨2, 0x80, 0xBF, n - 0xF0⟩)
  else if n = 0xF4 then ([], some ⟨2, 0x80, 0x8F, n - 0xF0⟩)
  else ([replacement], none)

/-- One byte: the characters that it completes and the character that is then begun. -/
def step : Option Begun → UInt8 → List Char × Option Begun
  | none, b => opening b
  | some p, b =>
    if p.low ≤ b ∧ b ≤ p.high then
      let value := p.value * 64 + (b.toNat - 0x80)
      if p.more = 0 then ([Char.ofNat value], none)
      else ([], some ⟨p.more - 1, 0x80, 0xBF, value⟩)
    else
      let (cs, begun) := opening b
      (replacement :: cs, begun)

def decodeFrom : Option Begun → List UInt8 → List Char
  | none, [] => []
  | some _, [] => [replacement]
  | begun, b :: rest =>
    let (cs, next) := step begun b
    cs ++ decodeFrom next rest

def decode (data : List UInt8) : List Char :=
  decodeFrom none data

/-! A character cut short is one replacement, and a byte that can begin nothing is one of
its own. -/

example : decode [0xF0, 0x9F, 0x98] = [replacement] := by decide

example : decode [0xE0, 0x80, 0x41] = [replacement, replacement, 'A'] := by decide

end Inspector.Text.Utf8
