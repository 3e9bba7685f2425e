/-
  Inspector/Proofs/Debuggee/Chain.lean
  ====================================
  **The end of a chain.**

  A walk ends at a value that the next look recognises as an end, so a walk that starts
  there ends there at once, however few steps it may take.  Whoever only asks for the end
  of a chain can therefore be given the end instead of the start.
-/
import Inspector.Debuggee.Integer
import Inspector.Proofs.Debuggee.Answers

namespace Inspector.Debuggee

variable {V : Type} {d : Debuggee V} {v : V} {r : ChainEnd V} {limit looks : Nat}

theorem step_of_follow (h : d.follow limit looks v = .ok r) :
    d.step r.value = .ok (.stop r.isNull) := by
  induction looks generalizing v with
  | zero => cases h
  | succ looks ih =>
    rw [follow] at h
    split at h
    · cases h
    · next isNull hstep =>
      -- the value looked at last is the end itself
      cases h
      exact hstep
    · exact ih h

theorem resolve_of_stop {isNull : Bool} (h : d.step v = .ok (.stop isNull)) (limit : Nat) :
    d.resolve limit v = .ok ⟨v, isNull⟩ := by
  rw [resolve, follow, h]

/-- The end of a chain is its own end, within any limit. -/
theorem resolve_end (h : d.resolve limit v = .ok r) (limit' : Nat) :
    d.resolve limit' r.value = .ok r :=
  resolve_of_stop (step_of_follow h) limit'

/-! ### Values that must not be null -/

theorem resolveNonNull_of_error {e : Error} (h : d.resolve limit v = .error e) :
    d.resolveNonNull limit v = .error e := by
  rw [resolveNonNull, h, answer_error_bind]

theorem resolveNonNull_of_null (h : d.resolve limit v = .ok r) (hnull : r.isNull = true) :
    d.resolveNonNull limit v = .error .nullValue := by
  rw [resolveNonNull, h, answer_ok_bind, if_pos hnull]
  rfl

theorem resolveNonNull_of_value (h : d.resolve limit v = .ok r) (hnull : r.isNull = false) :
    d.resolveNonNull limit v = .ok r.value := by
  rw [resolveNonNull, h, answer_ok_bind, hnull]
  rfl

theorem resolveNonNull_end (h : d.resolve limit v = .ok r) :
    d.resolveNonNull limit v = d.resolveNonNull limit r.value := by
  rw [resolveNonNull, resolveNonNull, h, resolve_end h]

/-! ### Fields are not asked for -/

/-- Two debuggees give the same answers about every value, apart from its fields. -/
def SameButFields (d d' : Debuggee V) : Prop :=
  ∀ v, ∃ object?, d'.facets v = { d.facets v with object? }

variable {d' : Debuggee V}

theorem sameButFields_of_facets (same : d'.facets = d.facets) : SameButFields d d' := by
  intro v
  exact ⟨(d.facets v).object?, by rw [same]⟩

theorem SameButFields.step (same : SameButFields d d') (v : V) : d'.step v = d.step v := by
  obtain ⟨object?, h⟩ := same v
  simp only [Debuggee.step, h]

theorem SameButFields.resolve (same : SameButFields d d') (limit : Nat) (v : V) :
    d'.resolve limit v = d.resolve limit v := by
  have hfollow : ∀ looks v, d'.follow limit looks v = d.follow limit looks v := by
    intro looks
    induction looks with
    | zero => exact fun v => rfl
    | succ looks ih =>
      intro v
      simp only [follow, same.step, ih]
  exact hfollow _ v

/-- What a value is read as does not depend on fields, nor on what is known of types. -/
theorem SameButFields.readInteger (same : SameButFields d d') (limit : Nat) (t : IntegerType)
    (v : V) : d'.readInteger limit t v = d.readInteger limit t v := by
  simp only [Debuggee.readInteger, resolveNonNull, same.resolve]
  congr 1
  funext target
  obtain ⟨object?, h⟩ := same target
  rw [h]

end Inspector.Debuggee
