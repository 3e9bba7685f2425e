/-
  Inspector/Proofs/Debuggee/Escaping.lean
  =======================================
  **What escaping changes.**

  A value has an escaped text and a plain one.  Both displays ask the same questions in the
  same order, so they fail alike (`Alike`).  Where they succeed, the tag at the end of the
  chain says how the two texts go together: `Escapes` lists a string, which is quoted, and a
  character, which is shown with its code.  No other tag has a scalar that depends on
  escaping, so under any other tag the texts are equal, and for a null too
  (`valueText_escape`).
-/
import Inspector.Proofs.Bytes.Buffer
import Inspector.Proofs.Debuggee.Display
import Inspector.Proofs.Text.Surrogates

namespace Inspector

/-! ### Two runs of a display -/

/-- Two answers that are one failure, or two results that go together. -/
inductive Alike {α : Type} (R : α → α → Prop) : Answer α → Answer α → Prop where
  | error (e : Error) : Alike R (.error e) (.error e)
  | ok {a b : α} (related : R a b) : Alike R (.ok a) (.ok b)

namespace Alike

variable {α β : Type} {R : β → β → Prop}

theorem refl (h : ∀ b, R b b) (x : Answer β) : Alike R x x := by
  cases x with
  | error e => exact .error e
  | ok b => exact .ok (h b)

theorem mono {R' : β → β → Prop} {x y : Answer β} (h : Alike R x y)
    (himp : ∀ a b, R a b → R' a b) : Alike R' x y := by
  cases h with
  | error e => exact .error e
  | ok related => exact .ok (himp _ _ related)

theorem bind {x : Answer α} {f g : α → Answer β} (h : ∀ a, x = .ok a → Alike R (f a) (g a)) :
    Alike R (x >>= f) (x >>= g) := by
  cases x with
  | error e => exact .error e
  | ok a => exact h a rfl

theorem map {x : Answer α} {f g : α → β} (h : ∀ a, x = .ok a → R (f a) (g a)) :
    Alike R (x.map f) (x.map g) := by
  cases x with
  | error e => exact .error e
  | ok a => exact .ok (h a rfl)

theorem error_or_ok {x y : Answer β} (h : Alike R x y) :
    (∃ e, x = .error e ∧ y = .error e) ∨ ∃ a b, x = .ok a ∧ y = .ok b ∧ R a b := by
  cases h with
  | error e => exact .inl ⟨e, rfl, rfl⟩
  | ok related => exact .inr ⟨_, _, rfl, rfl, related⟩

end Alike

/-! ### Characters -/

/-- The one character that a code unit is shown as. A surrogate denotes none by itself. -/
def Text.Utf16.IsGlyph (unit : UInt16) (glyph : Char) : Prop :=
  if isSurrogate unit then glyph = '\uFFFD' else glyph.toNat = unit.toNat

theorem Text.Utf16.isGlyph_ofUnit (unit : UInt16) : IsGlyph unit (ofUnit unit) := by
  rw [IsGlyph, ofUnit, ← isSurrogate]
  cases h : isSurrogate unit with
  | true => rfl
  | false =>
    rw [if_neg Bool.false_ne_true, if_neg Bool.false_ne_true, Char.toNat_ofNat,
      if_pos (isValidChar_of_not_surrogate h)]

namespace Scalar

variable {o : Options} {tag : ElementType} {data : Bytes}

/-- No tag but that of a character announces a character. -/
theorem read?_ne_char (h : tag ≠ .char) {answer : Except Error Scalar}
    (hread : read? tag data = some answer) (unit : UInt16) : answer ≠ .ok (.char unit) := by
  rintro rfl
  unfold read? at hread
  split at hread
  case h_2 => exact h rfl
  case h_7 =>
    obtain ⟨t, _, hmap⟩ := Option.map_eq_some_iff.mp hread
    obtain ⟨n, _, hn⟩ := answer_map_eq_ok.mp hmap
    cases hn
  all_goals
    obtain ⟨a, _, ha⟩ := answer_map_eq_ok.mp (Option.some.inj hread)
    cases ha

theorem text_escape {s : Scalar} (h : ∀ unit, s ≠ .char unit) : s.text o true = s.text o false := by
  cases s with
  | char unit => exact absurd rfl (h unit)
  | boolean | integer | float32 | float64 => rfl

end Scalar

namespace Debuggee

variable {V : Type} {d : Debuggee V} {o : Options} {v : V} {tag : ElementType}

/-- The contents of a value start with a code unit. -/
def HoldsUnit (d : Debuggee V) (v : V) (unit : UInt16) : Prop :=
  ∃ data, (d.facets v).contents? = some (.ok data) ∧ Bytes.word 2 data = .ok unit.toNat

/-- How the escaped text of a value goes with its plain text, by the tag of the value. -/
def Escapes (d : Debuggee V) (v : V) (tag : ElementType) (escaped plain : String) : Prop :=
  match tag with
  | .string => escaped = Text.quoted plain
  | .char => ∃ unit glyph, d.HoldsUnit v unit ∧ Text.Utf16.IsGlyph unit glyph
    ∧ plain = String.singleton glyph
    ∧ escaped = unit.toNat.repr ++ " '" ++ Text.escape '\'' plain ++ "'"
  | _ => escaped = plain

/-- Only a string and a character have two texts. -/
theorem escapes_iff_eq (hstring : tag ≠ .string) (hchar : tag ≠ .char) {escaped plain : String} :
    d.Escapes v tag escaped plain ↔ escaped = plain := by
  cases tag <;> first | exact Iff.rfl | contradiction

/-! ### By the tag -/

theorem contentsText_escape (hchar : tag ≠ .char) (data : Bytes) :
    d.contentsText o true v tag data = d.contentsText o false v tag data := by
  unfold contentsText
  split
  case h_1 | h_2 | h_3 | h_4 | h_5 => rfl
  case h_6 =>
    cases hread : Scalar.read? tag data with
    | none => rfl
    | some answer =>
      cases answer with
      | error e => rfl
      | ok scalar =>
        have hscalar : ∀ unit, scalar ≠ .char unit := by
          rintro unit rfl
          exact Scalar.read?_ne_char hchar hread unit rfl
        exact congrArg Except.ok (Scalar.text_escape hscalar)

theorem contentsText_char {data : Bytes} (hdata : (d.facets v).contents? = some (.ok data)) :
    Alike (d.Escapes v .char) (d.contentsText o true v .char data)
      (d.contentsText o false v .char data) := by
  have htext : ∀ escape, d.contentsText o escape v .char data
      = (Bytes.word 2 data).map (Scalar.charText escape ∘ UInt16.ofNat) :=
    fun escape => answer_map_map _ _ _
  rw [htext, htext]
  refine Alike.map ?_
  intro word hword
  have hunit : (UInt16.ofNat word).toNat = word :=
    Text.Utf16.toNat_ofNat_unit (Bytes.word_eq_ok hword).2.1
  exact ⟨UInt16.ofNat word, _, ⟨data, hdata, by rw [hunit]; exact hword⟩,
    Text.Utf16.isGlyph_ofUnit _, rfl, rfl⟩

theorem terminalText_escape (htag : (d.facets v).elementType = .ok tag) :
    Alike (d.Escapes v tag) (d.terminalText o true v) (d.terminalText o false v) := by
  by_cases hstring : tag = .string
  · subst hstring
    rw [terminalText_string htag, terminalText_string htag]
    exact Alike.map (fun text _ => rfl)
  cases harray : tag.isArray with
  | true =>
    have hsame : d.terminalText o true v = d.terminalText o false v := by
      rw [terminalText, terminalText, htag]
      cases tag <;> cases harray <;> rfl
    have heq : ∀ text, d.Escapes v tag text text := by
      cases tag <;> cases harray <;> exact fun text => rfl
    rw [hsame]
    exact Alike.refl heq _
  | false =>
    rw [terminalText_eq_bind htag hstring harray, terminalText_eq_bind htag hstring harray]
    refine Alike.bind ?_
    intro data hdata
    by_cases hchar : tag = .char
    · subst hchar
      exact contentsText_char (contents_eq_ok_iff.mp hdata)
    · rw [contentsText_escape hchar]
      exact Alike.refl (fun text => (escapes_iff_eq hstring hchar).mpr rfl) _

/-! ### Every value -/

/-- **Escaping changes strings and characters and nothing else.**  Whatever a value is, its
    two displays fail for the same reason or both succeed.  If the chain of the value ends
    in a string, the escaped text is the plain one in quotes, if it ends in a character, the
    plain text is the glyph of its code unit and the escaped one the unit with that glyph in
    quotes, and otherwise, as for a null, they are one text. -/
theorem valueText_escape (d : Debuggee V) (o : Options) (v : V) :
    (∃ e, d.valueText o true v = .error e ∧ d.valueText o false v = .error e)
      ∨ ∃ escaped plain, d.valueText o true v = .ok escaped ∧ d.valueText o false v = .ok plain
        ∧ ∃ r, d.resolve o.maxDepth v = .ok r
          ∧ ((r.isNull = true ∧ escaped = plain)
            ∨ (r.isNull = false ∧ ∃ tag, (d.facets r.value).elementType = .ok tag
              ∧ d.Escapes r.value tag escaped plain)) := by
  apply Alike.error_or_ok
  rw [valueText, valueText]
  refine Alike.bind ?_
  intro r hr
  cases hnull : r.isNull with
  | true => exact .ok ⟨r, hr, .inl ⟨hnull, rfl⟩⟩
  | false =>
    show Alike _ (d.terminalText o true r.value) (d.terminalText o false r.value)
    cases htag : (d.facets r.value).elementType with
    | error e =>
      rw [terminalText, terminalText, htag]
      exact .error e
    | ok tag =>
      refine (terminalText_escape htag).mono ?_
      intro escaped plain h
      exact ⟨r, hr, .inr ⟨hnull, tag, htag, h⟩⟩

end Debuggee

end Inspector
