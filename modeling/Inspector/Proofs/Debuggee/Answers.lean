/-
  Inspector/Proofs/Debuggee/Answers.lean
  ======================================
  **Answers in a row.**

  Every reader asks one question after the other and stops at the first failure.  The
  lemmas here take such a row apart: it succeeds exactly if each question in it does, and
  the later questions may use the answers to the earlier ones.  It fails as the first
  question in it that fails.
-/
import Inspector.Debuggee.Basic

namespace Inspector

variable {α β : Type}

@[simp] theorem answer_ok_bind (a : α) (f : α → Answer β) : (Except.ok a >>= f) = f a := rfl

@[simp] theorem answer_error_bind (e : Error) (f : α → Answer β) :
    ((Except.error e : Answer α) >>= f) = .error e := rfl

@[simp] theorem answer_ok_map (a : α) (f : α → β) : (Except.ok a : Answer α).map f = .ok (f a) :=
  rfl

@[simp] theorem answer_error_map (e : Error) (f : α → β) :
    (Except.error e : Answer α).map f = .error e := rfl

theorem answer_bind_eq_ok {x : Answer α} {f : α → Answer β} {b : β} :
    (x >>= f) = .ok b ↔ ∃ a, x = .ok a ∧ f a = .ok b := by
  cases x with
  | error e =>
    constructor
    · intro h
      cases h
    · rintro ⟨a, h, _⟩
      cases h
  | ok a =>
    constructor
    · intro h
      exact ⟨a, rfl, h⟩
    · rintro ⟨a', h, hf⟩
      cases h
      exact hf

theorem answer_map_eq_ok {x : Answer α} {f : α → β} {b : β} :
    x.map f = .ok b ↔ ∃ a, x = .ok a ∧ f a = b := by
  cases x with
  | error e =>
    constructor
    · intro h
      cases h
    · rintro ⟨a, h, _⟩
      cases h
  | ok a =>
    constructor
    · intro h
      exact ⟨a, rfl, Except.ok.inj h⟩
    · rintro ⟨a', h, hf⟩
      cases h
      exact congrArg Except.ok hf

theorem answer_bind_eq_error {x : Answer α} {f : α → Answer β} {e : Error} :
    (x >>= f) = .error e ↔ x = .error e ∨ ∃ a, x = .ok a ∧ f a = .error e := by
  cases x with
  | error e' =>
    rw [answer_error_bind, Except.error.injEq, Except.error.injEq]
    constructor
    · exact Or.inl
    · rintro (h | ⟨a, h, _⟩)
      · exact h
      · cases h
  | ok a =>
    constructor
    · intro h
      exact Or.inr ⟨a, rfl, h⟩
    · rintro (h | ⟨a', h, hf⟩)
      · cases h
      · cases h
        exact hf

theorem answer_map_eq_error {x : Answer α} {f : α → β} {e : Error} :
    x.map f = .error e ↔ x = .error e := by
  cases x with
  | error e' => rw [answer_error_map, Except.error.injEq, Except.error.injEq]
  | ok a =>
    constructor
    · intro h
      cases h
    · intro h
      cases h

theorem answer_map_map {γ : Type} (x : Answer α) (f : α → β) (g : β → γ) :
    (x.map f).map g = x.map (g ∘ f) := by
  cases x <;> rfl

end Inspector
