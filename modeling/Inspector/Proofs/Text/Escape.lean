/-
  Inspector/Proofs/Text/Escape.lean
  =================================
  **A quoted text can be read back.**

  Every letter that an escape writes stands for the character that was escaped, and what
  is written as it is starts no escape and ends no quote.  So a reader that resolves
  escapes takes the characters off a quoted text one by one, and stops at its last quote,
  whatever follows it (`readQuoted?_quoted`).
-/
import Inspector.Text.Escape

namespace Inspector.Text

/-! ### Letters -/

theorem letterMeaning?_of_mem : ∀ p ∈ controlLetters, letterMeaning? p.2 = some p.1 := by
  decide

theorem mem_of_lookup {letters : List (Char × Char)} {c letter : Char}
    (h : letters.lookup c = some letter) : (c, letter) ∈ letters := by
  obtain ⟨before, after, rfl, -⟩ := List.lookup_eq_some_iff.mp h
  exact List.mem_append_right _ List.mem_cons_self

/-- A letter behind a backslash stands for the character that was escaped. -/
theorem letterMeaning?_of_escapeLetter? {quote c letter : Char}
    (h : escapeLetter? quote c = some letter) : letterMeaning? letter = some c := by
  unfold escapeLetter? at h
  split at h
  · next hbackslash =>
    cases h
    rw [letterMeaning?, if_pos (Or.inl hbackslash)]
  · split at h
    · next hquote =>
      cases h
      rw [letterMeaning?, if_pos (Or.inr hquote.1)]
    · exact letterMeaning?_of_mem _ (mem_of_lookup h)

/-- What is not escaped between double quotes is neither a backslash nor a double quote. -/
theorem ne_of_escapeLetter?_eq_none {c : Char} (h : escapeLetter? '"' c = none) :
    c ≠ '\\' ∧ c ≠ '"' := by
  constructor
  · rintro rfl
    cases h
  · rintro rfl
    cases h

/-! ### Reading between quotes -/

theorem readToQuote?_escape {letter c : Char} (h : letterMeaning? letter = some c)
    (rest : List Char) :
    readToQuote? ('\\' :: letter :: rest)
      = (readToQuote? rest).map (fun r => (c :: r.1, r.2)) := by
  rw [readToQuote?, h]

theorem readToQuote?_plain {c : Char} (hbackslash : c ≠ '\\') (hquote : c ≠ '"')
    (rest : List Char) :
    readToQuote? (c :: rest) = (readToQuote? rest).map (fun r => (c :: r.1, r.2)) := by
  rw [readToQuote?]
  · rintro rfl
    exact hquote rfl
  · rintro _ _ rfl
    exact absurd rfl hbackslash

theorem readToQuote?_escapeChar (c : Char) (rest : List Char) :
    readToQuote? (escapeChar '"' c ++ rest)
      = (readToQuote? rest).map (fun r => (c :: r.1, r.2)) := by
  cases h : escapeLetter? '"' c with
  | some letter =>
    rw [escapeChar, h]
    exact readToQuote?_escape (letterMeaning?_of_escapeLetter? h) rest
  | none =>
    obtain ⟨hbackslash, hquote⟩ := ne_of_escapeLetter?_eq_none h
    rw [escapeChar, h]
    exact readToQuote?_plain hbackslash hquote rest

theorem readToQuote?_escapeChars (cs rest : List Char) :
    readToQuote? (escapeChars '"' cs ++ '"' :: rest) = some (cs, rest) := by
  induction cs with
  | nil => rfl
  | cons c cs ih =>
    rw [escapeChars, List.flatMap_cons, List.append_assoc, readToQuote?_escapeChar,
      ← escapeChars, ih]
    rfl

theorem toList_quoted (s : String) :
    (quoted s).toList = '"' :: escapeChars '"' s.toList ++ ['"'] := by
  simp [quoted, escape]

/-- A quoted text is read up to its last quote and no further. -/
theorem readQuoted?_quoted (s : String) (rest : List Char) :
    readQuoted? ((quoted s).toList ++ rest) = some (s.toList, rest) := by
  rw [toList_quoted, List.append_assoc, List.singleton_append, List.cons_append, readQuoted?]
  exact readToQuote?_escapeChars s.toList rest

end Inspector.Text
