/-
  Inspector/Proofs/Debuggee/FieldLookup.lean
  ==========================================
  **Which field a name finds.**

  A lookup climbs from a type to its base type again and again.  The types that it can
  come to are the ancestors of the first one, and since every type has at most one base
  they form a single line, which may run in a circle.  How far a climb gets on that line
  (`Reaches`) decides what it ends with: the first field of the nearest type that declares
  the name, the error of a root, or the limit.  `namedFieldText_nearest` says so for every
  debuggee that answers what the climb asks.
-/
import Inspector.Debuggee.Recording
import Inspector.NamedField
import Inspector.Proofs.Debuggee.Chain

namespace Inspector

theorem RootType.ofName?_eq_none {shown : String}
    (h : shown ∉ ["System.Enum", "System.Object", "System.ValueType"]) :
    RootType.ofName? shown = none := by
  simp only [RootType.ofName?, List.find?_eq_none, beq_iff_eq]
  rintro root - rfl
  cases root <;> simp [displayName] at h

namespace Debuggee

variable {V : Type} (d : Debuggee V)

/-! ### The line of base types -/

/-- The base of a type, and the type itself if it has none or none can be had. -/
def above (ty : TypeDesc) : TypeDesc :=
  match d.baseType ty with
  | .ok (some base) => base
  | _ => ty

def ancestor (ty : TypeDesc) : Nat → TypeDesc
  | 0 => ty
  | level + 1 => d.above (ancestor ty level)

section Levels

variable (name : String) (ty : TypeDesc)

/-- A field is the first one that a type declares under a name. -/
def Declares (field : Field) : Prop :=
  ∃ fields, d.fields ty = .ok fields ∧ fields.find? (·.name == name) = some field

def Lacks : Prop :=
  ∃ fields, d.fields ty = .ok fields ∧ ∀ field ∈ fields, field.name ≠ name

/-- A type that is displayed, and not as a root. -/
def IsOrdinary : Prop :=
  ∃ shown, d.typeName ty = .ok shown
    ∧ shown ∉ ["System.Enum", "System.Object", "System.ValueType"]

/-- What a climb ends with if it cannot go on above a type. -/
inductive EndsAbove : Error → Prop where
  | noBase (base : d.baseType ty = .ok none) : EndsAbove (.fieldNotFound name)
  | enums {base : TypeDesc} (hasBase : d.baseType ty = .ok (some base))
      (shown : d.typeName base = .ok "System.Enum") :
      EndsAbove (.unsupportedShape (.fieldOfEnum name))
  | objects {base : TypeDesc} (hasBase : d.baseType ty = .ok (some base))
      (shown : d.typeName base = .ok "System.Object") : EndsAbove (.fieldNotFound name)
  | valueTypes {base : TypeDesc} (hasBase : d.baseType ty = .ok (some base))
      (shown : d.typeName base = .ok "System.ValueType") : EndsAbove (.fieldNotFound name)

/-- A climb from a type gets as far as `level`: no type below that level declares the name,
    and none of those above the first is a root. -/
structure Reaches (level : Nat) : Prop where
  hasBase : ∀ i < level, d.baseType (d.ancestor ty i) = .ok (some (d.ancestor ty (i + 1)))
  lacks : ∀ i < level, d.Lacks name (d.ancestor ty i)
  ordinary : ∀ i < level, d.IsOrdinary (d.ancestor ty (i + 1))

def FindsAt (level : Nat) (field : Field) : Prop :=
  d.Reaches name ty level ∧ d.Declares name (d.ancestor ty level) field

def EndsAt (level : Nat) (e : Error) : Prop :=
  d.Reaches name ty level ∧ d.Lacks name (d.ancestor ty level)
    ∧ d.EndsAbove name (d.ancestor ty level) e

/-- The questions that a climb asks about types up to a level have answers. -/
structure AnswersClimb (limit : Nat) : Prop where
  fields : ∀ i ≤ limit, d.Reaches name ty i → ∃ fields, d.fields (d.ancestor ty i) = .ok fields
  baseType : ∀ i ≤ limit, d.Reaches name ty i → d.Lacks name (d.ancestor ty i) →
    ∃ base?, d.baseType (d.ancestor ty i) = .ok base?
  typeName : ∀ i ≤ limit, d.Reaches name ty i → d.Lacks name (d.ancestor ty i) →
    ∀ base, d.baseType (d.ancestor ty i) = .ok (some base) → ∃ shown, d.typeName base = .ok shown

end Levels

/-- What a lookup ends with that found a field of `owner`: the field is read from the end of
    the chain, and shown. -/
inductive FieldOutcome (o : Options) (v : V) (name : String) (owner : TypeDesc) (field : Field) :
    Answer String → Prop where
  | unresolved {e : Error} (hr : d.resolve o.maxDepth v = .error e) :
      FieldOutcome o v name owner field (.error e)
  | null {r : ChainEnd V} (hr : d.resolve o.maxDepth v = .ok r) (hnull : r.isNull = true) :
      FieldOutcome o v name owner field (.error .nullValue)
  | fieldless {r : ChainEnd V} (hr : d.resolve o.maxDepth v = .ok r) (hnull : r.isNull = false)
      (hobject : (d.facets r.value).object? = none) :
      FieldOutcome o v name owner field (.error (.unsupportedShape (.withoutField name)))
  | unread {r : ChainEnd V} {object : ObjectFacet V} {e : Error}
      (hr : d.resolve o.maxDepth v = .ok r) (hnull : r.isNull = false)
      (hobject : (d.facets r.value).object? = some object)
      (hread : object.fieldValue owner field.token = .error e) :
      FieldOutcome o v name owner field (.error e)
  | shown {r : ChainEnd V} {object : ObjectFacet V} {x : V}
      (hr : d.resolve o.maxDepth v = .ok r) (hnull : r.isNull = false)
      (hobject : (d.facets r.value).object? = some object)
      (hread : object.fieldValue owner field.token = .ok x) :
      FieldOutcome o v name owner field (d.valueText o true x)

variable {d} {o : Options} {v : V} {name : String} {ty base : TypeDesc} {field : Field}
  {levels level limit : Nat}

theorem ancestor_succ (hbase : d.baseType (d.ancestor ty level) = .ok (some base)) :
    d.ancestor ty (level + 1) = base := by
  rw [ancestor, above, hbase]

/-! ### One level -/

theorem fieldsCalled_of_lacks (h : d.Lacks name ty) : d.fieldsCalled ty name = .ok [] := by
  obtain ⟨fields, hfields, hnone⟩ := h
  rw [fieldsCalled, hfields, answer_ok_map, List.filter_eq_nil_iff.mpr]
  simpa using hnone

theorem fieldsCalled_of_declares (h : d.Declares name ty field) :
    ∃ others, d.fieldsCalled ty name = .ok (field :: others) := by
  obtain ⟨fields, hfields, hfirst⟩ := h
  rw [← List.head?_filter, List.head?_eq_some_iff] at hfirst
  obtain ⟨others, hothers⟩ := hfirst
  exact ⟨others, by rw [fieldsCalled, hfields, answer_ok_map, hothers]⟩

theorem nextBase_of_ordinary (hbase : d.baseType ty = .ok (some base)) (h : d.IsOrdinary base) :
    d.nextBase name ty = .ok base := by
  obtain ⟨shown, hshown, hordinary⟩ := h
  simp only [nextBase, hbase, answer_ok_bind, hshown, RootType.ofName?_eq_none hordinary]
  rfl

theorem nextBase_of_endsAbove {e : Error} (h : d.EndsAbove name ty e) :
    d.nextBase name ty = .error e := by
  cases h with
  | noBase hbase => simp only [nextBase, hbase, answer_ok_bind]; rfl
  | enums hbase hshown => simp only [nextBase, hbase, answer_ok_bind, hshown]; rfl
  | objects hbase hshown => simp only [nextBase, hbase, answer_ok_bind, hshown]; rfl
  | valueTypes hbase hshown => simp only [nextBase, hbase, answer_ok_bind, hshown]; rfl

theorem climb_of_declares (h : d.Declares name ty field) :
    d.climb o v name (levels + 1) ty = d.declaredFieldText o v name ty field := by
  obtain ⟨others, hothers⟩ := fieldsCalled_of_declares h
  rw [climb, hothers]

theorem climb_of_endsAbove {e : Error} (hlacks : d.Lacks name ty) (h : d.EndsAbove name ty e) :
    d.climb o v name (levels + 1) ty = .error e := by
  rw [climb, fieldsCalled_of_lacks hlacks, nextBase_of_endsAbove h]

theorem climb_step (hlacks : d.Lacks name ty) (hbase : d.baseType ty = .ok (some base))
    (hordinary : d.IsOrdinary base) :
    d.climb o v name (levels + 1) ty = d.climb o v name levels base := by
  rw [climb, fieldsCalled_of_lacks hlacks, nextBase_of_ordinary hbase hordinary]

theorem fieldOutcome_declaredFieldText (o : Options) (v : V) (name : String) (ty : TypeDesc)
    (field : Field) :
    d.FieldOutcome o v name ty field (d.declaredFieldText o v name ty field) := by
  cases hr : d.resolve o.maxDepth v with
  | error e =>
    rw [declaredFieldText, resolveNonNull_of_error hr]
    exact .unresolved hr
  | ok r =>
    cases hnull : r.isNull with
    | true =>
      rw [declaredFieldText, resolveNonNull_of_null hr hnull]
      exact .null hr hnull
    | false =>
      rw [declaredFieldText, resolveNonNull_of_value hr hnull, answer_ok_bind]
      cases hobject : (d.facets r.value).object? with
      | none => exact .fieldless hr hnull hobject
      | some object =>
        cases hread : object.fieldValue ty field.token with
        | error e =>
          simp only [hread, answer_error_bind]
          exact .unread hr hnull hobject hread
        | ok x =>
          simp only [hread, answer_ok_bind]
          exact .shown hr hnull hobject hread

/-! ### Many levels -/

theorem Reaches.zero : d.Reaches name ty 0 where
  hasBase i h := absurd h (Nat.not_lt_zero i)
  lacks i h := absurd h (Nat.not_lt_zero i)
  ordinary i h := absurd h (Nat.not_lt_zero i)

theorem Reaches.succ (h : d.Reaches name ty level) (hlacks : d.Lacks name (d.ancestor ty level))
    (hbase : d.baseType (d.ancestor ty level) = .ok (some base)) (hordinary : d.IsOrdinary base) :
    d.Reaches name ty (level + 1) := by
  obtain rfl := ancestor_succ hbase
  constructor <;> intro i hi <;> rcases Nat.lt_succ_iff_lt_or_eq.mp hi with hi | rfl
  · exact h.hasBase i hi
  · exact hbase
  · exact h.lacks i hi
  · exact hlacks
  · exact h.ordinary i hi
  · exact hordinary

theorem Reaches.of_succ (h : d.Reaches name ty (level + 1)) : d.Reaches name ty level where
  hasBase i hi := h.hasBase i (Nat.lt_succ_of_lt hi)
  lacks i hi := h.lacks i (Nat.lt_succ_of_lt hi)
  ordinary i hi := h.ordinary i (Nat.lt_succ_of_lt hi)

/-- A climb that gets as far as a level goes on from the type there, with the levels that
    are left. -/
theorem Reaches.climb_eq (h : d.Reaches name ty level) (rest : Nat) :
    d.climb o v name (level + rest) ty = d.climb o v name rest (d.ancestor ty level) := by
  -- the type that the climb starts from stays, and the last step is taken off its way
  induction level generalizing rest with
  | zero => rw [Nat.zero_add, ancestor]
  | succ level ih =>
    have hlast := Nat.lt_succ_self level
    rw [Nat.add_right_comm, Nat.add_assoc, ih h.of_succ (rest + 1)]
    exact climb_step (h.lacks level hlast) (h.hasBase level hlast) (h.ordinary level hlast)

/-! ### Where a climb ends -/

theorem declares_or_lacks {fields : List Field} (h : d.fields ty = .ok fields) (name : String) :
    (∃ field, d.Declares name ty field) ∨ d.Lacks name ty := by
  cases hfirst : fields.find? (·.name == name) with
  | some field => exact .inl ⟨field, fields, h, hfirst⟩
  | none => exact .inr ⟨fields, h, by simpa using hfirst⟩

theorem endsAbove_or_ordinary {shown : String} (hbase : d.baseType ty = .ok (some base))
    (hshown : d.typeName base = .ok shown) :
    (∃ e, d.EndsAbove name ty e) ∨ d.IsOrdinary base := by
  by_cases hroot : shown ∈ ["System.Enum", "System.Object", "System.ValueType"]
  · left
    simp only [List.mem_cons, List.not_mem_nil, or_false] at hroot
    rcases hroot with rfl | rfl | rfl
    · exact ⟨_, .enums hbase hshown⟩
    · exact ⟨_, .objects hbase hshown⟩
    · exact ⟨_, .valueTypes hbase hshown⟩
  · exact .inr ⟨shown, hshown, hroot⟩

/-- A climb whose questions are answered gets past a level, or finds the field or its end on
    the way. -/
theorem AnswersClimb.reaches_or (h : d.AnswersClimb name ty limit) (hle : level ≤ limit + 1) :
    (∃ i < level, ∃ field, d.FindsAt name ty i field) ∨ (∃ i < level, ∃ e, d.EndsAt name ty i e)
      ∨ d.Reaches name ty level := by
  induction level with
  | zero => exact .inr (.inr .zero)
  | succ level ih =>
    have hlevel : level ≤ limit := Nat.le_of_succ_le_succ hle
    have hlast := Nat.lt_succ_self level
    rcases ih (Nat.le_of_succ_le hle) with ⟨i, hi, found⟩ | ⟨i, hi, ended⟩ | hreaches
    · exact .inl ⟨i, Nat.lt_succ_of_lt hi, found⟩
    · exact .inr (.inl ⟨i, Nat.lt_succ_of_lt hi, ended⟩)
    · -- the climb is at this level: the three questions in their order
      obtain ⟨fields, hfields⟩ := h.fields level hlevel hreaches
      rcases declares_or_lacks hfields name with ⟨field, hfield⟩ | hlacks
      · exact .inl ⟨level, hlast, field, hreaches, hfield⟩
      · right
        obtain ⟨base?, hbase⟩ := h.baseType level hlevel hreaches hlacks
        cases base? with
        | none => exact .inl ⟨level, hlast, _, hreaches, hlacks, .noBase hbase⟩
        | some base =>
          obtain ⟨shown, hshown⟩ := h.typeName level hlevel hreaches hlacks base hbase
          rcases endsAbove_or_ordinary hbase hshown with ⟨e, hends⟩ | hordinary
          · exact .inl ⟨level, hlast, e, hreaches, hlacks, hends⟩
          · exact .inr (hreaches.succ hlacks hbase hordinary)

/-! ### The lookup -/

/-- **The nearest type that declares the name decides, and a lookup always ends.**  Up to the
    limit, the first field of that type is read.  If the line of base types ends or comes
    to a root before, the lookup ends with the error of that end, whatever the root itself
    declares; if neither happens, it ends at the limit. -/
theorem namedFieldText_nearest {start : Option TypeDesc}
    (hstart : start = some ty ∨ start = none ∧ (d.facets v).exactType = .ok ty)
    (answers : d.AnswersClimb name ty o.maxDepth) :
    let outcome := d.namedFieldText o v name start
    (∀ i ≤ o.maxDepth, ∀ field, d.FindsAt name ty i field →
        d.FieldOutcome o v name (d.ancestor ty i) field outcome)
      ∧ (∀ i ≤ o.maxDepth, ∀ e, d.EndsAt name ty i e → outcome = .error e)
      ∧ ((∀ i ≤ o.maxDepth, ∀ field, ¬d.FindsAt name ty i field) →
        (∀ i ≤ o.maxDepth, ∀ e, ¬d.EndsAt name ty i e) →
        d.Reaches name ty (o.maxDepth + 1)
          ∧ outcome = .error (.indirectionLimit o.maxDepth)) := by
  intro outcome
  have hclimb : outcome = d.climb o v name (o.maxDepth + 1) ty := by
    rcases hstart with rfl | ⟨rfl, htype⟩
    · rfl
    · simp only [outcome, namedFieldText, htype]
      rfl
  -- a level within the limit leaves at least the look at its own type
  have hlevels : ∀ i ≤ o.maxDepth, o.maxDepth + 1 = i + (o.maxDepth - i + 1) := by omega
  refine ⟨?_, ?_, ?_⟩
  · rintro i hi field ⟨hreaches, hdeclares⟩
    rw [hclimb, hlevels i hi, hreaches.climb_eq, climb_of_declares hdeclares]
    exact fieldOutcome_declaredFieldText o v name _ field
  · rintro i hi e ⟨hreaches, hlacks, hends⟩
    rw [hclimb, hlevels i hi, hreaches.climb_eq, climb_of_endsAbove hlacks hends]
  · intro hfound hended
    have hreaches : d.Reaches name ty (o.maxDepth + 1) := by
      rcases answers.reaches_or (Nat.le_refl _) with ⟨i, hi, field, h⟩ | ⟨i, hi, e, h⟩ | h
      · exact absurd h (hfound i (Nat.le_of_lt_succ hi) field)
      · exact absurd h (hended i (Nat.le_of_lt_succ hi) e)
      · exact h
    refine ⟨hreaches, ?_⟩
    rw [hclimb, ← Nat.add_zero (o.maxDepth + 1), hreaches.climb_eq, climb]

/-- Two types that are each the base of the other. The second one, at the limit, declares the
    name twice. -/
theorem namedFieldText_nearest_circle :
    let lower : TypeDesc := .declared 1 ⟨0x02000010⟩ .object
    let upper : TypeDesc := .declared 1 ⟨0x02000011⟩ .object
    let first := Field.ofInstance ⟨0x04000001⟩ "id" .int32
    let second := Field.ofInstance ⟨0x04000002⟩ "id" .int32
    let d := (Recording.ofLists
      [{ elementType := .ok .object, exactType := some (.ok lower),
         reference := some { target := some (.ok 1) } },
       { object := some [{ field := ⟨0x04000001⟩, value := .ok 2 }] },
       { elementType := .ok .int32, contents := some (.ok [7, 0, 0, 0]) }]
      [{ token := ⟨0x02000010⟩, name := .ok "Lower", base := .ok (some upper) },
       { token := ⟨0x02000011⟩, name := .ok "Upper", base := .ok (some lower),
         fields := .ok [first, second] }]).debuggee
    let o : Options := { maxDepth := 1 }
    (d.facets 0).exactType = .ok lower ∧ d.AnswersClimb "id" lower 1
      ∧ d.FindsAt "id" lower 1 first
      ∧ d.FieldOutcome o 0 "id" upper first (d.namedFieldText o 0 "id" none) := by
  intro lower upper first second d o
  have htype : (d.facets 0).exactType = .ok lower := rfl
  have hlower : d.baseType lower = .ok (some upper) := rfl
  have hupper : d.baseType upper = .ok (some lower) := rfl
  have shownLower : d.typeName lower = .ok "Lower" := by cbv
  have shownUpper : d.typeName upper = .ok "Upper" := by cbv
  have answers : d.AnswersClimb "id" lower 1 := by
    constructor
    · rintro i hi -
      obtain rfl | rfl : i = 0 ∨ i = 1 := by omega
      · exact ⟨[], rfl⟩
      · exact ⟨[first, second], rfl⟩
    · rintro i hi - -
      obtain rfl | rfl : i = 0 ∨ i = 1 := by omega
      · exact ⟨some upper, hlower⟩
      · exact ⟨some lower, hupper⟩
    · rintro i hi - - base hbase
      obtain rfl | rfl : i = 0 ∨ i = 1 := by omega
      · cases hlower.symm.trans hbase
        exact ⟨"Upper", shownUpper⟩
      · cases hupper.symm.trans hbase
        exact ⟨"Lower", shownLower⟩
  have finds : d.FindsAt "id" lower 1 first := by
    refine ⟨Reaches.zero.succ ⟨[], rfl, ?_⟩ hlower ⟨"Upper", shownUpper, by decide⟩,
      [first, second], rfl, rfl⟩
    rintro field ⟨⟩
  exact ⟨htype, answers, finds,
    (namedFieldText_nearest (.inr ⟨rfl, htype⟩) answers).1 1 (Nat.le_refl 1) first finds⟩

end Debuggee

end Inspector
