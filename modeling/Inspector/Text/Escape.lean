/-
  Inspector/Text/Escape.lean
  ==========================
  **Escaped and quoted text.**

  Text inside quotes must not end the quote early and must stay on one line, so the
  backslash, the quote in use and eight control characters are written as a backslash
  and a letter.  The readers below undo the writing: `unescape` for the text inside
  the quotes, `readQuoted?` for a quoted text at the front of a longer one.
-/

namespace Inspector.Text

/-! ### Escape letters -/

/-- The control characters that have an escape letter. -/
def controlLetters : List (Char × Char) :=
  [('\x00', '0'), ('\x07', 'a'), ('\x08', 'b'), ('\x0c', 'f'),
   ('\n', 'n'), ('\r', 'r'), ('\t', 't'), ('\x0b', 'v')]

/-- What is written after the backslash for a character, if it is escaped. Of the two
    quotes only the one in use is. -/
def escapeLetter? (quote c : Char) : Option Char :=
  if c = '\\' then some c
  else if (c = '\'' ∨ c = '"') ∧ c = quote then some c
  else controlLetters.lookup c

/-- The character that a letter after a backslash stands for. -/
def letterMeaning? (letter : Char) : Option Char :=
  if letter = '\\' ∨ letter = '\'' ∨ letter = '"' then some letter
  else (controlLetters.find? (fun p => p.2 == letter)).map Prod.fst

/-! ### Writing -/

def escapeChar (quote c : Char) : List Char :=
  match escapeLetter? quote c with
  | some letter => ['\\', letter]
  | none => [c]

/-- Write characters for display between two quotes. -/
def escapeChars (quote : Char) (cs : List Char) : List Char :=
  cs.flatMap (escapeChar quote)

def escape (quote : Char) (text : String) : String :=
  String.ofList (escapeChars quote text.toList)

def quoted (text : String) : String :=
  "\"" ++ escape '"' text ++ "\""

/-! ### Reading -/

/-- Undo `escapeChars`. A backslash that starts no escape stands for itself. -/
def unescape : List Char → List Char
  | [] => []
  | '\\' :: letter :: rest =>
    match letterMeaning? letter with
    | some c => c :: unescape rest
    | none => '\\' :: unescape (letter :: rest)
  | c :: rest => c :: unescape rest

/-- Read up to the first double quote that is not escaped, and resolve the escapes. -/
def readToQuote? : List Char → Option (List Char × List Char)
  | [] => none
  | '"' :: rest => some ([], rest)
  | '\\' :: letter :: rest =>
    match letterMeaning? letter with
    | some c => (readToQuote? rest).map (fun r => (c :: r.1, r.2))
    | none => (readToQuote? (letter :: rest)).map (fun r => ('\\' :: r.1, r.2))
  | c :: rest => (readToQuote? rest).map (fun r => (c :: r.1, r.2))

/-- Read a quoted text and return it with what follows it. -/
def readQuoted? : List Char → Option (List Char × List Char)
  | '"' :: rest => readToQuote? rest
  | _ => none

/-! Only the quote in use is escaped, and a quoted text ends where it says it does. -/

example : escape '\'' "it's \"x\"" = "it\\'s \"x\"" := by decide

example : readQuoted? "\"a\\\"b\" c".toList = some (['a', '"', 'b'], [' ', 'c']) := by decide

end Inspector.Text
