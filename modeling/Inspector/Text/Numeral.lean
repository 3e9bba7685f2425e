/-
  Inspector/Text/Numeral.lean
  ===========================
  **Numerals.**

  Decimal numerals are the core library's `Nat.repr` and `Int.repr`.  Addresses and
  tokens are written in base sixteen with lowercase letters, built on the core digit
  list `Nat.toDigits`.  The readers take numerals apart again: hexadecimal digits, and
  decimal digits with a sign or with a point among them.
-/

namespace Inspector.Text

/-! ### Writing -/

/-- The hexadecimal numeral of a number, without leading zeros. -/
def hex (n : Nat) : String :=
  String.ofList (Nat.toDigits 16 n)

/-- The hexadecimal numeral of a number, filled up with zeros to `width` digits. -/
def paddedHex (width n : Nat) : String :=
  String.ofList ((Nat.toDigits 16 n).leftpad width '0')

/-- A number as an address: its hexadecimal numeral behind `0x`. -/
def address (n : Nat) : String :=
  "0x" ++ hex n

/-! ### Reading hexadecimal digits -/

def hexDigit? (c : Char) : Option Nat :=
  if c.isDigit then some (c.toNat - '0'.toNat)
  else if 'a' ≤ c ∧ c ≤ 'f' then some (c.toNat - 'a'.toNat + 10)
  else none

/-- The value of a string of hexadecimal digits, most significant first. -/
def readHex? (digits : List Char) : Option Nat :=
  digits.foldlM (fun n c => (hexDigit? c).map (16 * n + ·)) 0

/-! ### Reading decimal digits -/

/-- The number that a string of decimal digits spells. -/
def readDigits? (cs : List Char) : Option Nat :=
  if cs ≠ [] ∧ cs.all Char.isDigit then some (Nat.ofDigitChars 10 cs 0) else none

def readSign : List Char → Bool × List Char
  | '-' :: rest => (true, rest)
  | cs => (false, cs)

/-- A whole number behind a plus or a minus sign. -/
def readSigned? : List Char → Option Int
  | '+' :: digits => (readDigits? digits).map Int.ofNat
  | '-' :: digits => (readDigits? digits).map (-Int.ofNat ·)
  | _ => none

/-- Digits, perhaps with a point among them: the number that the digits spell, and how
    many of them stand behind the point. -/
def readPlaces? (cs : List Char) : Option (Nat × Nat) :=
  let whole := cs.takeWhile (· != '.')
  match cs.dropWhile (· != '.') with
  | [] => (readDigits? whole).map (·, 0)
  | _ :: fraction => do
    let _ ← readDigits? whole
    let _ ← readDigits? fraction
    return (Nat.ofDigitChars 10 (whole ++ fraction) 0, fraction.length)

end Inspector.Text
