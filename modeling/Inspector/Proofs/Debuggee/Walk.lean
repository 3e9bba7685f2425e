/-
  Inspector/Proofs/Debuggee/Walk.lean
  ===================================
  **How far a walk gets.**

  A value of a chain is a terminal, or one hop leads from it to the next value, or one of
  the questions that decide between the two fails.  `Terminal`, `Hop` and `Fails` say so by
  the facets of the value and do not mention the walk.  One look finds out which of the
  three it is (`step_cases`), so what a walk ends with depends only on the hops from its
  start: on the first value that is a terminal or fails, if the limit lets the walk look at
  it, and on the limit otherwise (`resolve_exact`).

  The invariant of a walk is `Hops.follow_eq`: after some hops it goes on from the value
  that they lead to, with the looks that are left.
-/
import Inspector.Debuggee.Recording
import Inspector.Proofs.Debuggee.Chain

namespace Inspector.Debuggee

variable {V : Type} (d : Debuggee V)

/-! ### The values of a chain -/

def IsNullReference (v : V) : Prop :=
  ∃ reference, (d.facets v).reference? = some reference ∧ reference.isNull = .ok true

/-- A value at which a chain ends: a null reference, a pointer that is not null, or what
    neither refers to a value nor has one boxed. -/
inductive Terminal (v : V) : Prop where
  | null (isNull : d.IsNullReference v)
  | address {reference : ReferenceFacet V} {tag : ElementType}
      (refers : (d.facets v).reference? = some reference)
      (notNull : reference.isNull = .ok false)
      (tagged : (d.facets v).elementType = .ok tag)
      (points : tag = .pointer ∨ tag = .functionPointer)
  | plain (noReference : (d.facets v).reference? = none) (noBox : (d.facets v).boxed? = none)

/-- The questions about a value succeed and lead to another one: to the target of a
    reference, or to what a box holds that is no reference. -/
inductive Hop (v w : V) : Prop where
  | reference {reference : ReferenceFacet V} {tag : ElementType}
      (refers : (d.facets v).reference? = some reference)
      (tagged : (d.facets v).elementType = .ok tag)
      (notNull : reference.isNull = .ok false)
      (follows : tag ≠ .pointer ∧ tag ≠ .functionPointer)
      (target : reference.dereference = .ok w)
  | box (noReference : (d.facets v).reference? = none)
      (inner : (d.facets v).boxed? = some (.ok w))

/-- A question about a value fails, and none before it has shown a terminal: the tag of a
    reference, whether it is null, its target, or the content of a box. -/
inductive Fails (v : V) (e : Error) : Prop where
  | tag {reference : ReferenceFacet V}
      (refers : (d.facets v).reference? = some reference)
      (failed : (d.facets v).elementType = .error e)
  | isNull {reference : ReferenceFacet V} {tag : ElementType}
      (refers : (d.facets v).reference? = some reference)
      (tagged : (d.facets v).elementType = .ok tag)
      (failed : reference.isNull = .error e)
  | target {reference : ReferenceFacet V} {tag : ElementType}
      (refers : (d.facets v).reference? = some reference)
      (tagged : (d.facets v).elementType = .ok tag)
      (notNull : reference.isNull = .ok false)
      (follows : tag ≠ .pointer ∧ tag ≠ .functionPointer)
      (failed : reference.dereference = .error e)
  | inner (noReference : (d.facets v).reference? = none)
      (failed : (d.facets v).boxed? = some (.error e))

/-- A terminal that is recognised as one, and as null or not.

    `answered` stands for the rule that a question which fails before a terminal is
    recognised gives its error.  Only a null reference can be a terminal and fail
    nevertheless: its tag is asked for before it is asked whether it is null, so without
    a tag it is not recognised. -/
structure EndsAs (v : V) (isNull : Bool) : Prop where
  terminal : d.Terminal v
  answered : ∀ e, ¬d.Fails v e
  isNull_iff : isNull = true ↔ d.IsNullReference v

/-- A number of hops in a row, each from the value that the one before led to. -/
inductive Hops : Nat → V → V → Prop where
  | zero (v : V) : Hops 0 v v
  | succ {n : Nat} {u v w : V} (first : d.Hop u v) (rest : Hops n v w) : Hops (n + 1) u w

/-- A chain that comes to a value from which some hops lead back to it. -/
def Circles (v : V) : Prop :=
  ∃ before around t, 0 < around ∧ d.Hops before v t ∧ d.Hops around t t

variable {d} {u v w t : V} {e : Error} {isNull : Bool} {limit n : Nat}

/-! ### One look -/

theorem isAddress_iff {tag : ElementType} :
    tag.isAddress = true ↔ tag = .pointer ∨ tag = .functionPointer := by
  cases tag <;> simp [ElementType.isAddress]

theorem isAddress_eq_false_iff {tag : ElementType} :
    tag.isAddress = false ↔ tag ≠ .pointer ∧ tag ≠ .functionPointer := by
  rw [← Bool.not_eq_true, isAddress_iff, not_or]

theorem step_of_hop (h : d.Hop v w) : d.step v = .ok (.next w) := by
  cases h with
  | reference refers tagged notNull follows target =>
    simp only [step, refers, tagged, answer_ok_bind, notNull, isAddress_eq_false_iff.mpr follows,
      target]
    rfl
  | box noReference inner => simp only [step, noReference, inner, answer_ok_map]

theorem step_of_fails (h : d.Fails v e) : d.step v = .error e := by
  cases h with
  | tag refers failed => simp only [step, refers, failed, answer_error_bind]
  | isNull refers tagged failed =>
    simp only [step, refers, tagged, answer_ok_bind, failed, answer_error_bind]
  | target refers tagged notNull follows failed =>
    simp only [step, refers, tagged, answer_ok_bind, notNull, isAddress_eq_false_iff.mpr follows,
      failed]
    rfl
  | inner noReference failed => simp only [step, noReference, failed, answer_error_map]

/-- A look at a value has one of three results, each with its reason. -/
theorem step_cases (d : Debuggee V) (v : V) :
    (∃ isNull, d.Terminal v ∧ (isNull = true ↔ d.IsNullReference v)
        ∧ d.step v = .ok (.stop isNull))
      ∨ (∃ w, d.Hop v w) ∨ ∃ e, d.Fails v e := by
  cases hreference : (d.facets v).reference? with
  | none =>
    have notNull : ¬d.IsNullReference v := by
      rintro ⟨reference, hsome, _⟩
      rw [hreference] at hsome
      cases hsome
    cases hbox : (d.facets v).boxed? with
    | none =>
      refine .inl ⟨false, .plain hreference hbox, by simp [notNull], ?_⟩
      simp only [step, hreference, hbox]
    | some inner =>
      cases inner with
      | ok w => exact .inr (.inl ⟨w, .box hreference hbox⟩)
      | error e => exact .inr (.inr ⟨e, .inner hreference hbox⟩)
  | some reference =>
    have null_iff : d.IsNullReference v ↔ reference.isNull = .ok true := by
      simp [IsNullReference, hreference]
    -- the questions in their order: the tag, whether it is null, the target
    cases htag : (d.facets v).elementType with
    | error e => exact .inr (.inr ⟨e, .tag hreference htag⟩)
    | ok tag =>
      cases hnull : reference.isNull with
      | error e => exact .inr (.inr ⟨e, .isNull hreference htag hnull⟩)
      | ok isNull =>
        cases isNull with
        | true =>
          refine .inl ⟨true, .null (null_iff.mpr hnull), by simp [null_iff, hnull], ?_⟩
          simp only [step, hreference, htag, answer_ok_bind, hnull]
          rfl
        | false =>
          by_cases haddress : tag.isAddress = true
          · refine .inl ⟨false, .address hreference hnull htag (isAddress_iff.mp haddress),
              by simp [null_iff, hnull], ?_⟩
            simp only [step, hreference, htag, answer_ok_bind, hnull, haddress]
            rfl
          · have follows := isAddress_eq_false_iff.mp (Bool.eq_false_iff.mpr haddress)
            cases htarget : reference.dereference with
            | ok w => exact .inr (.inl ⟨w, .reference hreference htag hnull follows htarget⟩)
            | error e =>
              exact .inr (.inr ⟨e, .target hreference htag hnull follows htarget⟩)

theorem Terminal.not_hop (h : d.Terminal v) : ¬d.Hop v w := by
  rintro (⟨refers, tagged, notNull, follows, _⟩ | ⟨noReference, inner⟩)
  · cases h with
    | null isNull =>
      obtain ⟨_, hsome, htrue⟩ := isNull
      cases refers.symm.trans hsome
      cases notNull.symm.trans htrue
    | address refers' _ tagged' points =>
      cases tagged.symm.trans tagged'
      exact points.elim follows.1 follows.2
    | plain noReference _ => cases refers.symm.trans noReference
  · cases h with
    | null isNull =>
      obtain ⟨_, hsome, _⟩ := isNull
      cases noReference.symm.trans hsome
    | address refers _ _ _ => cases noReference.symm.trans refers
    | plain _ noBox => cases inner.symm.trans noBox

theorem step_eq_stop_iff : d.step v = .ok (.stop isNull) ↔ d.EndsAs v isNull := by
  constructor
  · intro h
    have answered : ∀ e, ¬d.Fails v e := by
      intro e hfails
      cases h.symm.trans (step_of_fails hfails)
    rcases step_cases d v with ⟨isNull', terminal, hiff, hstep⟩ | ⟨w, hop⟩ | ⟨e, fails⟩
    · cases h.symm.trans hstep
      exact ⟨terminal, answered, hiff⟩
    · cases h.symm.trans (step_of_hop hop)
    · exact absurd fails (answered e)
  · rintro ⟨terminal, answered, hiff⟩
    rcases step_cases d v with ⟨isNull', _, hiff', hstep⟩ | ⟨w, hop⟩ | ⟨e, fails⟩
    · rwa [Bool.eq_iff_iff.mpr (hiff.trans hiff'.symm)]
    · exact absurd hop terminal.not_hop
    · exact absurd fails (answered e)

/-! ### Many looks -/

theorem Hops.snoc (h : d.Hops n u v) (last : d.Hop v w) : d.Hops (n + 1) u w := by
  induction h with
  | zero => exact .succ last (.zero w)
  | succ first _ ih => exact .succ first (ih last)

theorem follow_of_hop (h : d.Hop v w) (looks : Nat) :
    d.follow limit (looks + 1) v = d.follow limit looks w := by
  rw [follow, step_of_hop h]

/-- A walk that makes some hops goes on from the value that they lead to. -/
theorem Hops.follow_eq (h : d.Hops n v t) (looks : Nat) :
    d.follow limit (n + looks) v = d.follow limit looks t := by
  induction h with
  | zero => rw [Nat.zero_add]
  | succ first _ ih => rw [Nat.succ_add, follow_of_hop first, ih]

theorem Hops.resolve_of_endsAs (h : d.Hops n v t) (hle : n ≤ limit) (ends : d.EndsAs t isNull) :
    d.resolve limit v = .ok ⟨t, isNull⟩ := by
  have hlooks : limit + 1 = n + (limit - n + 1) := by omega
  rw [resolve, hlooks, h.follow_eq, follow, step_eq_stop_iff.mpr ends]

theorem Hops.resolve_of_fails (h : d.Hops n v t) (hle : n ≤ limit) (fails : d.Fails t e) :
    d.resolve limit v = .error e := by
  have hlooks : limit + 1 = n + (limit - n + 1) := by omega
  rw [resolve, hlooks, h.follow_eq, follow, step_of_fails fails]

theorem Hops.resolve_of_limit (h : d.Hops (limit + 1) v t) :
    d.resolve limit v = .error (.indirectionLimit limit) := by
  rw [resolve, ← Nat.add_zero (limit + 1), h.follow_eq, follow]

/-- A chain that is looked at value by value comes to a terminal, to a failing question or
    to one more value. -/
theorem hops_cases (d : Debuggee V) (v : V) (n : Nat) :
    (∃ hops < n, ∃ t isNull, d.Hops hops v t ∧ d.EndsAs t isNull)
      ∨ (∃ hops < n, ∃ t e, d.Hops hops v t ∧ d.Fails t e) ∨ ∃ t, d.Hops n v t := by
  induction n with
  | zero => exact .inr (.inr ⟨v, .zero v⟩)
  | succ n ih =>
    have hlast := Nat.lt_succ_self n
    rcases ih with ⟨hops, hlt, ended⟩ | ⟨hops, hlt, failed⟩ | ⟨t, hops⟩
    · exact .inl ⟨hops, Nat.lt_succ_of_lt hlt, ended⟩
    · exact .inr (.inl ⟨hops, Nat.lt_succ_of_lt hlt, failed⟩)
    · -- all hops so far succeeded: the next look decides
      rcases step_cases d t with ⟨isNull, _, _, hstep⟩ | ⟨w, hop⟩ | ⟨e, fails⟩
      · exact .inl ⟨n, hlast, t, isNull, hops, step_eq_stop_iff.mp hstep⟩
      · exact .inr (.inr ⟨w, hops.snoc hop⟩)
      · exact .inr (.inl ⟨n, hlast, t, e, hops, fails⟩)

/-! ### Chains that never end -/

theorem Hops.trans {m : Nat} (h : d.Hops m u v) (h' : d.Hops n v w) : d.Hops (m + n) u w := by
  induction h with
  | zero => rwa [Nat.zero_add]
  | succ first _ ih =>
    rw [Nat.succ_add]
    exact .succ first (ih h')

theorem Hops.around (h : d.Hops n t t) (times : Nat) : d.Hops (times * n) t t := by
  induction times with
  | zero =>
    rw [Nat.zero_mul]
    exact .zero t
  | succ times ih =>
    rw [Nat.succ_mul]
    exact ih.trans h

theorem Hops.take {m : Nat} (h : d.Hops m v t) (hle : n ≤ m) : ∃ w, d.Hops n v w := by
  induction h generalizing n with
  | zero v =>
    obtain rfl := Nat.le_zero.mp hle
    exact ⟨v, .zero v⟩
  | @succ m u v t first _ ih =>
    cases n with
    | zero => exact ⟨u, .zero u⟩
    | succ n =>
      obtain ⟨w, rest⟩ := ih (Nat.le_of_succ_le_succ hle)
      exact ⟨w, .succ first rest⟩

theorem Circles.exists_hops (h : d.Circles v) (n : Nat) : ∃ w, d.Hops n v w := by
  obtain ⟨before, around, t, hpos, hbefore, haround⟩ := h
  have hlong : n ≤ before + n * around :=
    Nat.le_add_left_of_le (Nat.le_mul_of_pos_right n hpos)
  exact (hbefore.trans (haround.around n)).take hlong

/-! ### The walk -/

/-- A walk has one of three results, each with the hops that lead to it. -/
theorem resolve_cases (d : Debuggee V) (limit : Nat) (v : V) :
    (∃ hops ≤ limit, ∃ t isNull, d.Hops hops v t ∧ d.EndsAs t isNull
        ∧ d.resolve limit v = .ok ⟨t, isNull⟩)
      ∨ (∃ hops ≤ limit, ∃ t e, d.Hops hops v t ∧ d.Fails t e ∧ d.resolve limit v = .error e)
      ∨ ∃ t, d.Hops (limit + 1) v t ∧ d.resolve limit v = .error (.indirectionLimit limit) := by
  rcases hops_cases d v (limit + 1) with
    ⟨n, hlt, t, isNull, hops, ends⟩ | ⟨n, hlt, t, e, hops, fails⟩ | ⟨t, hops⟩
  · have hle := Nat.le_of_lt_succ hlt
    exact .inl ⟨n, hle, t, isNull, hops, ends, hops.resolve_of_endsAs hle ends⟩
  · have hle := Nat.le_of_lt_succ hlt
    exact .inr (.inl ⟨n, hle, t, e, hops, fails, hops.resolve_of_fails hle fails⟩)
  · exact .inr (.inr ⟨t, hops, hops.resolve_of_limit⟩)

/-- **A walk follows its chain exactly up to the limit.**  It ends at the terminal that at most
    `limit` hops lead to; it fails as the first question on that way that fails, also at
    the last value; and where one hop more succeeds too, as on a circle, it fails with the
    limit.  Nothing else can come of it. -/
theorem resolve_exact (d : Debuggee V) (limit : Nat) (v : V) :
    (∀ t isNull, d.resolve limit v = .ok ⟨t, isNull⟩ ↔
        ∃ hops ≤ limit, d.Hops hops v t ∧ d.EndsAs t isNull)
      ∧ (∀ e, d.resolve limit v = .error e ↔
        (∃ hops ≤ limit, ∃ t, d.Hops hops v t ∧ d.Fails t e)
          ∨ (∃ t, d.Hops (limit + 1) v t) ∧ e = .indirectionLimit limit)
      ∧ (d.Circles v → d.resolve limit v = .error (.indirectionLimit limit)) := by
  refine ⟨?_, ?_, ?_⟩
  · intro t isNull
    constructor
    · intro h
      rcases resolve_cases d limit v with ⟨n, hle, t', isNull', hops, ends, hresult⟩
        | ⟨_, _, _, _, _, _, hresult⟩ | ⟨_, _, hresult⟩
      · cases h.symm.trans hresult
        exact ⟨n, hle, hops, ends⟩
      all_goals cases h.symm.trans hresult
    · rintro ⟨n, hle, hops, ends⟩
      exact hops.resolve_of_endsAs hle ends
  · intro e
    constructor
    · intro h
      rcases resolve_cases d limit v with ⟨_, _, _, _, _, _, hresult⟩
        | ⟨n, hle, t, e', hops, fails, hresult⟩ | ⟨t, hops, hresult⟩
      all_goals cases h.symm.trans hresult
      · exact .inl ⟨n, hle, t, hops, fails⟩
      · exact .inr ⟨⟨t, hops⟩, rfl⟩
    · rintro (⟨n, hle, t, hops, fails⟩ | ⟨⟨t, hops⟩, rfl⟩)
      · exact hops.resolve_of_fails hle fails
      · exact hops.resolve_of_limit
  · intro circles
    obtain ⟨t, hops⟩ := circles.exists_hops (limit + 1)
    exact hops.resolve_of_limit

/-- A box and a reference that lead to each other, with a reference to them in front. -/
theorem resolve_exact_circle :
    let d := (Recording.ofLists
      [{ elementType := .ok .object, reference := some { target := some (.ok 1) } },
       { elementType := .ok .object, boxed := some (.ok 2) },
       { elementType := .ok .byReference, reference := some { target := some (.ok 1) } }]
      []).debuggee
    d.Circles 0 ∧ ∀ limit, d.resolve limit 0 = .error (.indirectionLimit limit) := by
  intro d
  have toBox : d.Hop 0 1 := .reference rfl rfl rfl ⟨nofun, nofun⟩ rfl
  have toReference : d.Hop 1 2 := .box rfl rfl
  have back : d.Hop 2 1 := .reference rfl rfl rfl ⟨nofun, nofun⟩ rfl
  have circles : d.Circles 0 :=
    ⟨1, 2, 1, Nat.zero_lt_two, .succ toBox (.zero 1), .succ toReference (.succ back (.zero 1))⟩
  exact ⟨circles, fun limit => (resolve_exact d limit 0).2.2 circles⟩

end Inspector.Debuggee
