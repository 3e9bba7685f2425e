/-
  Inspector/Proofs/Text/Unescape.lean
  ===================================
  **Escaping loses nothing, whatever the quote.**

  The reader of escapes takes a text apart in the pieces that it was written in: one piece
  for each character, which is the character itself or a backslash with a letter.  So it
  gives the text back for every quote character (`unescape_escapeChars`).

  Whether a quote in a written text ends it is a matter of the backslashes in front of it.
  A piece that ends in a backslash is a pair of them, so every run of backslashes at the
  end of a written text is even (`even_backslashesAtEnd`), and the quote in use, which is
  written behind one more, always stands behind an odd run.
-/
import Inspector.Proofs.Text.Escape
import Mathlib.Algebra.Ring.Parity
import Mathlib.Data.List.Induction

namespace Inspector.Text

/-! ### What is written -/

/-- The control characters that are never written as they are. -/
def controlCharacters : List Char :=
  ['\x00', '\x07', '\x08', '\x0c', '\n', '\r', '\t', '\x0b']

/-- The letters that have a meaning behind a backslash, with the characters they stand for. -/
def escapeLetters : List (Char × Char) :=
  [('\\', '\\'), ('\'', '\''), ('"', '"'), ('0', '\x00'), ('a', '\x07'), ('b', '\x08'),
   ('f', '\x0c'), ('n', '\n'), ('r', '\r'), ('t', '\t'), ('v', '\x0b')]

def IsQuoteMark (c : Char) : Prop :=
  c = '\'' ∨ c = '"'

/-- A character that is written as it is: no control character, no backslash and not the
    quote mark in use. -/
structure IsPlain (quote c : Char) : Prop where
  notControl : c ∉ controlCharacters
  notBackslash : c ≠ '\\'
  notInUse : ¬(IsQuoteMark c ∧ c = quote)

variable {quote c letter mark : Char}

theorem letterMeaning?_eq_lookup (letter : Char) :
    letterMeaning? letter = escapeLetters.lookup letter := by
  by_cases hletter : letter ∈ escapeLetters.map Prod.fst
  · have all : ∀ p ∈ escapeLetters, letterMeaning? p.1 = escapeLetters.lookup p.1 := by decide
    obtain ⟨p, hp, rfl⟩ := List.mem_map.mp hletter
    exact all p hp
  · have hnone : escapeLetters.lookup letter = none := by
      rw [List.lookup_eq_none_iff]
      intro p hp
      simpa using fun heq : letter = p.1 => hletter (heq ▸ List.mem_map_of_mem hp)
    simp only [escapeLetters, List.map_cons, List.map_nil, List.mem_cons, List.not_mem_nil,
      or_false, not_or] at hletter
    rw [hnone, letterMeaning?, if_neg (by simp [hletter])]
    simp [controlLetters, Ne.symm, hletter]

theorem lookup_controlLetters_eq_none_iff :
    controlLetters.lookup c = none ↔ c ∉ controlCharacters := by
  rw [List.lookup_eq_none_iff, show controlCharacters = controlLetters.map Prod.fst from rfl,
    List.mem_map]
  constructor
  · rintro h ⟨p, hp, rfl⟩
    simpa using h p hp
  · intro h p hp
    simpa using fun heq : c = p.1 => h ⟨p, hp, heq.symm⟩

/-- What is not escaped is written as it is, and the other way round. -/
theorem escapeLetter?_eq_none_iff : escapeLetter? quote c = none ↔ IsPlain quote c := by
  unfold escapeLetter?
  constructor
  · intro h
    split at h
    · cases h
    · next hbackslash =>
      split at h
      · cases h
      · next hquote => exact ⟨lookup_controlLetters_eq_none_iff.mp h, hbackslash, hquote⟩
  · rintro ⟨hcontrol, hbackslash, hquote⟩
    rw [if_neg hbackslash, if_neg (show ¬((c = '\'' ∨ c = '"') ∧ c = quote) from hquote)]
    exact lookup_controlLetters_eq_none_iff.mpr hcontrol

theorem not_control_of_escapeLetter? (h : escapeLetter? quote c = some letter) :
    letter ∉ controlCharacters := by
  have hlookup : escapeLetters.lookup letter = some c := by
    rw [← letterMeaning?_eq_lookup]
    exact letterMeaning?_of_escapeLetter? h
  have all : ∀ p ∈ escapeLetters, p.1 ∉ controlCharacters := by decide
  exact all _ (mem_of_lookup hlookup)

theorem IsQuoteMark.ne_backslash (h : IsQuoteMark mark) : mark ≠ '\\' := by
  rintro rfl
  rcases h with h | h <;> cases h

/-- A quote mark behind a backslash is the quote in use. -/
theorem eq_quote_of_escapeLetter? (hmark : IsQuoteMark mark)
    (h : escapeLetter? quote c = some mark) : mark = quote := by
  have hmeaning : letterMeaning? mark = some mark := by
    rcases hmark with rfl | rfl <;> rfl
  obtain rfl : mark = c := by
    rw [letterMeaning?_of_escapeLetter? h] at hmeaning
    exact (Option.some.inj hmeaning).symm
  by_contra hother
  have hplain : IsPlain quote mark := {
    notControl := by rcases hmark with rfl | rfl <;> decide
    notBackslash := hmark.ne_backslash
    notInUse := fun hinUse => hother hinUse.2 }
  rw [escapeLetter?_eq_none_iff.mpr hplain] at h
  cases h

/-! ### Pieces -/

theorem escapeChar_of_letter (h : escapeLetter? quote c = some letter) :
    escapeChar quote c = ['\\', letter] := by
  rw [escapeChar, h]

theorem escapeChar_of_plain (h : IsPlain quote c) : escapeChar quote c = [c] := by
  rw [escapeChar, escapeLetter?_eq_none_iff.mpr h]

theorem escapeChars_cons (quote c : Char) (cs : List Char) :
    escapeChars quote (c :: cs) = escapeChar quote c ++ escapeChars quote cs :=
  List.flatMap_cons

theorem escapeChars_append (quote : Char) (front cs : List Char) :
    escapeChars quote (front ++ cs) = escapeChars quote front ++ escapeChars quote cs :=
  List.flatMap_append

theorem escapeChars_concat (quote c : Char) (cs : List Char) :
    escapeChars quote (cs ++ [c]) = escapeChars quote cs ++ escapeChar quote c := by
  rw [escapeChars_append, escapeChars_cons, escapeChars, escapeChars, List.flatMap_nil,
    List.append_nil]

/-! ### Reading -/

theorem unescape_letter (h : letterMeaning? letter = some c) (rest : List Char) :
    unescape ('\\' :: letter :: rest) = c :: unescape rest := by
  rw [unescape, h]

theorem unescape_plain (h : c ≠ '\\') (rest : List Char) :
    unescape (c :: rest) = c :: unescape rest := by
  rw [unescape]
  rintro _ _ rfl
  exact absurd rfl h

theorem unescape_escapeChars (quote : Char) (cs : List Char) :
    unescape (escapeChars quote cs) = cs := by
  induction cs with
  | nil => rfl
  | cons c cs ih =>
    rw [escapeChars_cons]
    cases h : escapeLetter? quote c with
    | some letter =>
      rw [escapeChar_of_letter h, List.cons_append, List.singleton_append,
        unescape_letter (letterMeaning?_of_escapeLetter? h), ih]
    | none =>
      have hplain := escapeLetter?_eq_none_iff.mp h
      rw [escapeChar_of_plain hplain, List.singleton_append,
        unescape_plain hplain.notBackslash, ih]

/-! ### Nothing that breaks a line -/

theorem not_control_of_mem_escapeChars {cs : List Char} (h : c ∈ escapeChars quote cs) :
    c ∉ controlCharacters := by
  obtain ⟨source, -, hmem⟩ := List.mem_flatMap.mp h
  cases hletter : escapeLetter? quote source with
  | some letter =>
    rw [escapeChar_of_letter hletter, List.mem_cons, List.mem_singleton] at hmem
    rcases hmem with rfl | rfl
    · decide
    · exact not_control_of_escapeLetter? hletter
  | none =>
    have hplain := escapeLetter?_eq_none_iff.mp hletter
    rw [escapeChar_of_plain hplain, List.mem_singleton] at hmem
    rw [hmem]
    exact hplain.notControl

/-! ### Runs of backslashes -/

/-- The length of the run of backslashes at the end of a text. -/
def backslashesAtEnd (cs : List Char) : Nat :=
  (cs.reverse.takeWhile (· == '\\')).length

theorem backslashesAtEnd_backslash (cs : List Char) :
    backslashesAtEnd (cs ++ ['\\']) = backslashesAtEnd cs + 1 := by
  simp [backslashesAtEnd]

theorem backslashesAtEnd_of_ne (h : c ≠ '\\') (cs : List Char) :
    backslashesAtEnd (cs ++ [c]) = 0 := by
  simp [backslashesAtEnd, h]

/-- Backslashes at the end of a written text come in pairs. -/
theorem even_backslashesAtEnd (quote : Char) (cs : List Char) :
    Even (backslashesAtEnd (escapeChars quote cs)) := by
  -- the last piece ends the run or makes it longer by two, so it is taken off at the end
  induction cs using List.reverseRecOn with
  | nil => exact Even.zero
  | append_singleton cs c ih =>
    rw [escapeChars_concat]
    cases h : escapeLetter? quote c with
    | some letter =>
      have hpiece : escapeChars quote cs ++ escapeChar quote c
          = (escapeChars quote cs ++ ['\\']) ++ [letter] := by
        rw [escapeChar_of_letter h, List.append_assoc, List.singleton_append]
      rw [hpiece]
      by_cases hletter : letter = '\\'
      · rw [hletter, backslashesAtEnd_backslash, backslashesAtEnd_backslash]
        exact ih.add even_two
      · rw [backslashesAtEnd_of_ne hletter]
        exact Even.zero
    | none =>
      have hplain := escapeLetter?_eq_none_iff.mp h
      rw [escapeChar_of_plain hplain, backslashesAtEnd_of_ne hplain.notBackslash]
      exact Even.zero

/-- In front of a quote mark stand whole pieces, and one backslash more if it is the quote in
    use. -/
theorem front_of_escapeChars {cs front rest : List Char} (hmark : IsQuoteMark mark)
    (h : escapeChars quote cs = front ++ mark :: rest) :
    ∃ done, (mark ≠ quote ∧ front = escapeChars quote done)
      ∨ (mark = quote ∧ front = escapeChars quote done ++ ['\\']) := by
  induction cs generalizing front with
  | nil => exact absurd h.symm (List.append_ne_nil_of_right_ne_nil _ (List.cons_ne_nil _ _))
  | cons c cs ih =>
    rw [escapeChars_cons] at h
    cases hletter : escapeLetter? quote c with
    | some letter =>
      rw [escapeChar_of_letter hletter, List.cons_append, List.singleton_append] at h
      match front with
      | [] => exact absurd (List.cons.inj h).1.symm hmark.ne_backslash
      | [b] =>
        obtain ⟨rfl, rfl, -⟩ : '\\' = b ∧ letter = mark ∧ escapeChars quote cs = rest := by
          simpa using h
        exact ⟨[], .inr ⟨eq_quote_of_escapeLetter? hmark hletter, rfl⟩⟩
      | b :: b' :: front =>
        obtain ⟨rfl, rfl, hbehind⟩ : '\\' = b ∧ letter = b'
            ∧ escapeChars quote cs = front ++ mark :: rest := by
          simpa using h
        -- the pieces behind this one, with this one in front of them
        obtain ⟨done, hdone⟩ := ih hbehind
        refine ⟨c :: done, ?_⟩
        simpa [escapeChars_cons, escapeChar_of_letter hletter] using hdone
    | none =>
      have hplain := escapeLetter?_eq_none_iff.mp hletter
      rw [escapeChar_of_plain hplain, List.singleton_append] at h
      match front with
      | [] =>
        obtain ⟨rfl, -⟩ := List.cons.inj h
        exact ⟨[], .inl ⟨fun hinUse => hplain.notInUse ⟨hmark, hinUse⟩, rfl⟩⟩
      | b :: front =>
        obtain ⟨rfl, hbehind⟩ := List.cons.inj h
        obtain ⟨done, hdone⟩ := ih hbehind
        refine ⟨c :: done, ?_⟩
        simpa [escapeChars_cons, escapeChar_of_plain hplain] using hdone

/-- A quote mark stands behind an odd run of backslashes exactly if it is the quote in use. -/
theorem odd_backslashesAtEnd_iff {cs front rest : List Char} (hmark : IsQuoteMark mark)
    (h : escapeChars quote cs = front ++ mark :: rest) :
    Odd (backslashesAtEnd front) ↔ mark = quote := by
  obtain ⟨done, ⟨hother, rfl⟩ | ⟨hinUse, rfl⟩⟩ := front_of_escapeChars hmark h
  · simp only [hother, iff_false, Nat.not_odd_iff_even]
    exact even_backslashesAtEnd quote done
  · rw [backslashesAtEnd_backslash]
    exact iff_of_true (even_backslashesAtEnd quote done).add_one hinUse

/-! ### Whole texts -/

theorem toList_escape (quote : Char) (s : String) :
    (escape quote s).toList = escapeChars quote s.toList :=
  String.toList_ofList

theorem unescape_escape (quote : Char) (s : String) :
    String.ofList (unescape (escape quote s).toList) = s := by
  rw [toList_escape, unescape_escapeChars, String.ofList_toList]

theorem escape_append (quote : Char) (s t : String) :
    escape quote (s ++ t) = escape quote s ++ escape quote t := by
  simp only [escape, String.toList_append, escapeChars_append, String.ofList_append]

/-- **An escaped text is clean and can be read back, for every quote character.**  A letter
    behind a backslash has one meaning, and reading with these meanings gives the text, so
    no two texts are written alike.  No control character is left, a quote mark stands
    behind an odd run of backslashes exactly if it is the quote in use, and every plain
    character is written as it is between what stands around it. -/
theorem escape_reversible (quote : Char) :
    (∀ letter, letterMeaning? letter = escapeLetters.lookup letter)
      ∧ (∀ s, String.ofList (unescape (escape quote s).toList) = s)
      ∧ Function.Injective (escape quote)
      ∧ (∀ s, ∀ c ∈ (escape quote s).toList, c ∉ controlCharacters)
      ∧ (∀ s front mark rest, IsQuoteMark mark → (escape quote s).toList = front ++ mark :: rest →
        (Odd (backslashesAtEnd front) ↔ mark = quote))
      ∧ (∀ front c rest, IsPlain quote c →
        escape quote (front ++ String.singleton c ++ rest)
          = escape quote front ++ String.singleton c ++ escape quote rest) := by
  refine ⟨letterMeaning?_eq_lookup, unescape_escape quote, ?_, ?_, ?_, ?_⟩
  · intro s t h
    rw [← unescape_escape quote s, h, unescape_escape]
  · intro s c hc
    rw [toList_escape] at hc
    exact not_control_of_mem_escapeChars hc
  · intro s front mark rest hmark h
    rw [toList_escape] at h
    exact odd_backslashesAtEnd_iff hmark h
  · intro front c rest hplain
    have hpiece : escape quote (String.singleton c) = String.singleton c := by
      rw [escape, String.toList_singleton, escapeChars_cons, escapeChar_of_plain hplain]
      rfl
    rw [escape_append, escape_append, hpiece]

end Inspector.Text
