/-
  Inspector/Proofs/Boundary/Transparency.lean
  ===========================================
  **References and boxes do not show.**

  Display, integers, fields and packing start with a walk to the end of the chain and go
  on with the end alone.  So they give the same for a value and for the end of its chain
  (`resolve_transparent`).  Only a parcel that crosses as a handle tells the two apart,
  since it keeps the value that was packed, and it differs in nothing else.
-/
import Inspector.Boundary.Marshal
import Inspector.Debuggee.Recording
import Inspector.NamedField
import Inspector.Proofs.Boundary.Packing
import Inspector.Proofs.Debuggee.Chain

namespace Inspector

variable {V : Type}

namespace Debuggee

variable {d : Debuggee V} {o : Options} {alloc : Allocator}

/-! ### Parcels that differ in their handle -/

theorem marshal_retaining {v w : V} {r : ChainEnd V} (hv : d.resolve o.maxDepth v = .ok r)
    (hw : d.resolve o.maxDepth w = .ok r) :
    d.marshal o alloc w = (d.marshal o alloc v).map (Parcel.retaining w) := by
  rw [marshal_finished hv hv, marshal_finished hw hv]
  cases d.marshal o .heap v with
  | error e => rfl
  | ok p => exact (p.finished_map_retaining alloc v w).symm

/-! ### Fields -/

/-- A climb looks at the value only when it has found the field, and then at the end of its
    chain. -/
theorem climb_congr {v w : V} (h : d.resolveNonNull o.maxDepth v = d.resolveNonNull o.maxDepth w)
    (name : String) (levels : Nat) (ty : TypeDesc) :
    d.climb o v name levels ty = d.climb o w name levels ty := by
  -- the types on the way are those of the metadata and do not come from the value
  induction levels generalizing ty with
  | zero => rfl
  | succ levels ih => simp only [climb, declaredFieldText, h, ih]

/-! ### Every entry point -/

/-- **A value and the end of its chain look the same.**  The end is found again at once, with
    any limit, and everything that is shown, read or packed is the same from either.  A
    handle in a parcel is the value that was packed. -/
theorem resolve_transparent {v : V} {r : ChainEnd V} (hr : d.resolve o.maxDepth v = .ok r) :
    (∀ limit, d.resolve limit r.value = .ok r)
      ∧ (∀ escape, d.valueText o escape v = d.valueText o escape r.value)
      ∧ (∀ t, d.readInteger o.maxDepth t v = d.readInteger o.maxDepth t r.value)
      ∧ (∀ name ty, d.namedFieldText o v name (some ty)
          = d.namedFieldText o r.value name (some ty))
      ∧ (∀ alloc,
        d.marshal o alloc v = (d.marshal o alloc r.value).map (Parcel.retaining v)
          ∧ d.marshal o alloc r.value = (d.marshal o alloc v).map (Parcel.retaining r.value)) := by
  have hend : d.resolve o.maxDepth r.value = .ok r := resolve_end hr _
  refine ⟨resolve_end hr, ?_, ?_, ?_, ?_⟩
  · intro escape
    rw [valueText, valueText, hr, hend]
  · intro t
    rw [readInteger, readInteger, resolveNonNull_end hr]
  · intro name ty
    exact climb_congr (resolveNonNull_end hr) name _ ty
  · intro alloc
    exact ⟨marshal_retaining hend hr, marshal_retaining hr hend⟩

/-- A boxed pointer behind a reference. It has a target, the reference itself, that no walk
    follows. -/
theorem resolve_transparent_pointer :
    let d := (Recording.ofLists
      [{ elementType := .ok .object, reference := some { target := some (.ok 1) } },
       { elementType := .ok .object, boxed := some (.ok 2) },
       { elementType := .ok .pointer, reference := some { target := some (.ok 0) },
         contents := some (.ok [0, 16, 0, 0]) }]
      []).debuggee
    let r : ChainEnd Nat := ⟨2, false⟩
    d.resolve 2 0 = .ok r
      ∧ (∀ limit, d.resolve limit 2 = .ok r)
      ∧ (∀ escape, d.valueText { maxDepth := 2 } escape 0
          = d.valueText { maxDepth := 2 } escape 2)
      ∧ (∀ t, d.readInteger 2 t 0 = d.readInteger 2 t 2)
      ∧ (∀ name ty, d.namedFieldText { maxDepth := 2 } 0 name (some ty)
          = d.namedFieldText { maxDepth := 2 } 2 name (some ty))
      ∧ (∀ alloc,
        d.marshal { maxDepth := 2 } alloc 0
            = (d.marshal { maxDepth := 2 } alloc 2).map (Parcel.retaining 0)
          ∧ d.marshal { maxDepth := 2 } alloc 2
            = (d.marshal { maxDepth := 2 } alloc 0).map (Parcel.retaining 2)) := by
  intro d r
  have hr : d.resolve (Options.maxDepth { maxDepth := 2 }) 0 = .ok r := rfl
  exact ⟨hr, resolve_transparent hr⟩

end Debuggee

end Inspector
