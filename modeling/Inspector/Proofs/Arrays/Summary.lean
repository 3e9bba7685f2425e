/-
  Inspector/Proofs/Arrays/Summary.lean
  ====================================
  **The summary of an array tells its shape.**

  An array is asked for its rank, its number of elements, its extents and, if it says that
  it has them, its lower bounds.  `HasShape` says which answers make a shape and `Refuses`
  lists the answers that do not, each with its cause; every array does one or the other
  (`shape_cases`).  What is known of its elements can only change what stands before and
  behind the dimensions (`ElementShown`), never whether there is a summary.  Between the
  same two texts the summary tells the whole shape (`arrayText_tells_shape`).
-/
import Inspector.Debuggee.Recording
import Inspector.Proofs.Arrays.Dimensions
import Inspector.Proofs.Debuggee.Answers

namespace Inspector

/-! ### Shapes -/

namespace ArrayFacet

/-- An array that answers the questions up to its extents. -/
structure Measures (a : ArrayFacet) (rank : UInt32) (extents : List UInt32) : Prop where
  ranked : a.rank = .ok rank
  positive : rank ≠ 0
  counted : ∃ n, a.count = .ok n
  measured : a.dimensions = .ok extents

/-- Answers that make a shape. `bounds` are the lower bounds that the array was asked for,
    and empty if it has none of its own. A bound that is missing is zero, and one that has
    no extent counts for nothing. -/
structure HasShape (a : ArrayFacet) (rank : UInt32) (extents bounds : List UInt32) : Prop
    extends Measures a rank extents where
  agrees : extents.length = rank.toNat
  bounded : a.hasBaseIndices = .ok true ∧ a.baseIndices = .ok bounds
    ∨ a.hasBaseIndices = .ok false ∧ bounds = []

theorem HasShape.zip_ne_nil {a : ArrayFacet} {rank : UInt32} {extents bounds : List UInt32}
    (h : a.HasShape rank extents bounds) : Dimension.zip extents bounds ≠ [] := by
  apply List.ne_nil_of_length_pos
  rw [Dimension.length_zip, h.agrees]
  exact toNat_pos_of_ne_zero h.positive

/-- Answers that make no shape, in the order of the questions, with the cause.

    An array is asked about its lower bounds by two questions: whether it has any of its
    own (`hasBounds`), and what they are (`bounds`).  No question about an array may fail
    without the summary failing, so an array that cannot say whether it has lower bounds
    is not shown as one that has none. -/
inductive Refuses (a : ArrayFacet) : Error → Prop where
  | rank {e : Error} (failed : a.rank = .error e) : Refuses a e
  | noRank (ranked : a.rank = .ok 0) : Refuses a (.invalidRank 0)
  | count {rank : UInt32} {e : Error} (ranked : a.rank = .ok rank) (positive : rank ≠ 0)
      (failed : a.count = .error e) : Refuses a e
  | extents {rank n : UInt32} {e : Error} (ranked : a.rank = .ok rank) (positive : rank ≠ 0)
      (counted : a.count = .ok n) (failed : a.dimensions = .error e) : Refuses a e
  | disagree {rank : UInt32} {extents : List UInt32} (measures : a.Measures rank extents)
      (other : extents.length ≠ rank.toNat) :
      Refuses a (.malformed (.dimensions rank extents.length))
  | hasBounds {rank : UInt32} {extents : List UInt32} {e : Error}
      (measures : a.Measures rank extents) (agrees : extents.length = rank.toNat)
      (failed : a.hasBaseIndices = .error e) : Refuses a e
  | bounds {rank : UInt32} {extents : List UInt32} {e : Error}
      (measures : a.Measures rank extents) (agrees : extents.length = rank.toNat)
      (bounded : a.hasBaseIndices = .ok true) (failed : a.baseIndices = .error e) : Refuses a e

variable {a : ArrayFacet} {rank : UInt32} {extents bounds : List UInt32} {e : Error}

/-- What is left to be asked once the extents are known. -/
theorem Measures.shape_eq (h : a.Measures rank extents) :
    a.shape = if extents.length ≠ rank.toNat then
        .error (.malformed (.dimensions rank extents.length))
      else do
        let bases ← if ← a.hasBaseIndices then a.baseIndices else .ok []
        return Dimension.zip extents bases := by
  obtain ⟨ranked, positive, ⟨n, counted⟩, measured⟩ := h
  simp only [ArrayFacet.shape, ranked, answer_ok_bind, positive, if_false, counted, measured]
  split <;> rfl

theorem HasShape.shape (h : a.HasShape rank extents bounds) :
    a.shape = .ok (Dimension.zip extents bounds) := by
  rw [h.toMeasures.shape_eq, if_neg (not_not.mpr h.agrees)]
  rcases h.bounded with ⟨hbounded, hbounds⟩ | ⟨hbounded, rfl⟩
  · simp only [hbounded, hbounds, answer_ok_bind]
    rfl
  · simp only [hbounded, answer_ok_bind]
    rfl

theorem Refuses.shape (h : a.Refuses e) : a.shape = .error e := by
  cases h with
  | rank failed => simp only [ArrayFacet.shape, failed, answer_error_bind]
  | noRank ranked =>
    simp only [ArrayFacet.shape, ranked, answer_ok_bind]
    rfl
  | count ranked positive failed =>
    simp only [ArrayFacet.shape, ranked, answer_ok_bind, positive, failed]
    rfl
  | extents ranked positive counted failed =>
    simp only [ArrayFacet.shape, ranked, answer_ok_bind, positive, counted, failed]
    rfl
  | disagree measures other => rw [measures.shape_eq, if_pos other]
  | hasBounds measures agrees failed =>
    rw [measures.shape_eq, if_neg (not_not.mpr agrees)]
    simp only [failed, answer_error_bind]
  | bounds measures agrees bounded failed =>
    rw [measures.shape_eq, if_neg (not_not.mpr agrees)]
    simp only [bounded, answer_ok_bind, failed]
    rfl

/-- The questions in their order: the first answer that makes no shape decides. -/
theorem shape_cases (a : ArrayFacet) :
    (∃ rank extents bounds, a.HasShape rank extents bounds) ∨ ∃ e, a.Refuses e := by
  cases hrank : a.rank with
  | error e => exact .inr ⟨e, .rank hrank⟩
  | ok rank =>
    by_cases hzero : rank = 0
    · subst hzero
      exact .inr ⟨_, .noRank hrank⟩
    · cases hcount : a.count with
      | error e => exact .inr ⟨e, .count hrank hzero hcount⟩
      | ok n =>
        cases hextents : a.dimensions with
        | error e => exact .inr ⟨e, .extents hrank hzero hcount hextents⟩
        | ok extents =>
          have measures : a.Measures rank extents := ⟨hrank, hzero, ⟨n, hcount⟩, hextents⟩
          by_cases agrees : extents.length = rank.toNat
          · cases hbounded : a.hasBaseIndices with
            | error e => exact .inr ⟨e, .hasBounds measures agrees hbounded⟩
            | ok bounded =>
              cases bounded with
              | false => exact .inl ⟨rank, extents, [], measures, agrees, .inr ⟨hbounded, rfl⟩⟩
              | true =>
                cases hbounds : a.baseIndices with
                | error e => exact .inr ⟨e, .bounds measures agrees hbounded hbounds⟩
                | ok bounds =>
                  exact .inl ⟨rank, extents, bounds, measures, agrees, .inl ⟨hbounded, hbounds⟩⟩
          · exact .inr ⟨_, .disagree measures agrees⟩

theorem shape_eq_error_iff : a.shape = .error e ↔ a.Refuses e := by
  constructor
  · intro h
    rcases a.shape_cases with ⟨rank, extents, bounds, shaped⟩ | ⟨e', refuses⟩
    · cases h.symm.trans shaped.shape
    · cases h.symm.trans refuses.shape
      exact refuses
  · exact Refuses.shape

end ArrayFacet

/-! ### Dimensions and elements in the summary -/

/-- The text of one dimension. The last index is one less than the sum of the lower bound
    and the extent, however large that is. -/
inductive DimensionShown : (bound extent : Nat) → String → Prop where
  | fromZero (extent : Nat) : DimensionShown 0 extent extent.repr
  | fromBound {bound extent last : Nat} (positive : bound ≠ 0)
      (reaches : last + 1 = bound + extent) :
      DimensionShown bound extent (bound.repr ++ ".." ++ last.repr)

theorem Dimension.shown_text (dim : Dimension) :
    DimensionShown dim.base.toNat dim.extent.toNat dim.text := by
  by_cases hbase : dim.base = 0
  · rw [text, if_pos hbase, hbase]
    exact .fromZero _
  · have hpos := toNat_pos_of_ne_zero hbase
    rw [text, if_neg hbase]
    exact .fromBound hpos.ne' (by omega)

/-- Each dimension is shown by its extent and the lower bound that counts for it. -/
theorem Dimension.shown_zip {extents : List UInt32} (bounds : List UInt32) {i : Nat}
    (hi : i < extents.length) :
    ∃ extent segment, extents[i]? = some extent
      ∧ ((zip extents bounds).map text)[i]? = some segment
      ∧ DimensionShown (bounds.getD i 0).toNat extent.toNat segment := by
  have hextent : extents[i]? = some extents[i] := List.getElem?_eq_getElem hi
  refine ⟨_, _, hextent, ?_, shown_text ⟨bounds.getD i 0, extents[i]⟩⟩
  rw [List.getElem?_map, getElem?_zip, hextent]
  rfl

namespace Debuggee

variable {V V' : Type}

/-- What the summary shows of the elements of an array: the name inside all nested arrays
    and their brackets, or a stand-in if the type or its name is not to be had. -/
inductive ElementShown (d : Debuggee V) (unknown : String) (a : ArrayFacet) :
    (element suffix : String) → Prop where
  | named {ty : TypeDesc} {name suffix : String} (typed : a.elementType = .ok ty)
      (named : d.nestedName ty = .ok (name, suffix)) : ElementShown d unknown a name suffix
  | unnamed {ty : TypeDesc} {e : Error} (typed : a.elementType = .ok ty)
      (failed : d.nestedName ty = .error e) : ElementShown d unknown a unknown ""
  | untyped {e : Error} (failed : a.elementType = .error e) : ElementShown d unknown a unknown ""

variable {d : Debuggee V} {d' : Debuggee V'} {unknown element suffix : String} {a : ArrayFacet}
  {e : Error}

theorem elementShown_iff :
    d.ElementShown unknown a element suffix ↔ d.elementNameOr unknown a = (element, suffix) := by
  constructor
  · rintro (⟨typed, named⟩ | ⟨typed, failed⟩ | failed)
    · simp only [elementNameOr, typed, Except.bind, named]
    · simp only [elementNameOr, typed, Except.bind, failed]
    · simp only [elementNameOr, failed, Except.bind]
  · intro h
    cases typed : a.elementType with
    | error e =>
      simp only [elementNameOr, typed, Except.bind] at h
      cases h
      exact .untyped typed
    | ok ty =>
      cases named : d.nestedName ty with
      | error e =>
        simp only [elementNameOr, typed, Except.bind, named] at h
        cases h
        exact .unnamed typed named
      | ok shown =>
        simp only [elementNameOr, typed, Except.bind, named] at h
        subst h
        exact .named typed named

theorem exists_elementShown (d : Debuggee V) (unknown : String) (a : ArrayFacet) :
    ∃ element suffix, d.ElementShown unknown a element suffix :=
  ⟨_, _, elementShown_iff.mpr rfl⟩

/-! ### Summaries -/

theorem arrayText_of_shape {rank : UInt32} {extents bounds : List UInt32}
    (shaped : a.HasShape rank extents bounds) (shown : d.ElementShown unknown a element suffix) :
    d.arrayText unknown a = .ok (shapeText element suffix (Dimension.zip extents bounds)) := by
  rw [arrayText, shaped.shape, answer_ok_bind, elementShown_iff.mp shown]
  rfl

theorem arrayText_eq_error_iff : d.arrayText unknown a = .error e ↔ a.Refuses e := by
  rw [arrayText, answer_bind_eq_error, ArrayFacet.shape_eq_error_iff]
  constructor
  · rintro (refuses | ⟨dims, _, h⟩)
    · exact refuses
    · cases h
  · exact .inl

/-- **The summary of an array tells its shape.**  An array with a shape has a summary, whether
    its elements have a name or not.  Between the same name and the same brackets two arrays
    have one summary only if they agree in rank, extents and lower bounds, also if they
    belong to different debuggees.  There is no summary exactly if the array refuses one of
    the questions or has an answer that makes no shape. -/
theorem arrayText_tells_shape (d : Debuggee V) (d' : Debuggee V') (unknown unknown' : String)
    (a a' : ArrayFacet) :
    (∀ rank extents bounds, a.HasShape rank extents bounds →
        ∃ element suffix segments, d.ElementShown unknown a element suffix
          ∧ d.arrayText unknown a = .ok ("\x7b" ++ element ++ "["
            ++ String.intercalate ", " segments ++ "]" ++ suffix ++ "\x7d")
          ∧ segments.length = rank.toNat
          ∧ ∀ i < rank.toNat, ∃ extent segment, extents[i]? = some extent
            ∧ segments[i]? = some segment
            ∧ DimensionShown (bounds.getD i 0).toNat extent.toNat segment)
      ∧ (∀ element suffix rank extents bounds rank' extents' bounds',
        d.ElementShown unknown a element suffix → d'.ElementShown unknown' a' element suffix →
        a.HasShape rank extents bounds → a'.HasShape rank' extents' bounds' →
        d.arrayText unknown a = d'.arrayText unknown' a' →
          rank = rank' ∧ extents = extents'
            ∧ ∀ i < rank.toNat, bounds.getD i 0 = bounds'.getD i 0)
      ∧ ∀ e, d.arrayText unknown a = .error e ↔ a.Refuses e := by
  refine ⟨?_, ?_, fun e => arrayText_eq_error_iff⟩
  · intro rank extents bounds shaped
    obtain ⟨element, suffix, shown⟩ := d.exists_elementShown unknown a
    refine ⟨element, suffix, (Dimension.zip extents bounds).map Dimension.text, shown,
      arrayText_of_shape shaped shown, ?_, ?_⟩
    · rw [List.length_map, Dimension.length_zip, shaped.agrees]
    · intro i hi
      exact Dimension.shown_zip bounds (shaped.agrees ▸ hi)
  · intro element suffix rank extents bounds rank' extents' bounds' shown shown' shaped shaped' h
    rw [arrayText_of_shape shaped shown, arrayText_of_shape shaped' shown', Except.ok.injEq] at h
    have hdims := shapeText_inj shaped.zip_ne_nil shaped'.zip_ne_nil h
    obtain ⟨hextents, hbounds⟩ := Dimension.zip_inj hdims
    rw [shaped.agrees] at hbounds
    refine ⟨?_, hextents, hbounds⟩
    rw [← UInt32.toNat_inj, ← shaped.agrees, ← shaped'.agrees, hextents]

/-- The last index of the first dimension lies past 32 bits, the second one has no index at
    all. One of the arrays reports a bound too few and the other one too many. -/
theorem arrayText_tells_shape_large :
    let extents : List UInt32 := [4294967295, 0, 5]
    let element := TypeDesc.arrayOf (.primitive .int32) .array 2
    let a := RecordedArray.facet
      { dimensions := .ok extents, baseIndices := some (.ok [4294967295, 1]),
        elementType := some (.ok element) }
    let a' := RecordedArray.facet
      { dimensions := .ok extents, baseIndices := some (.ok [4294967295, 1, 0, 7]),
        elementType := some (.ok element) }
    let d := (Recording.ofLists [] []).debuggee
    a.HasShape 3 extents [4294967295, 1] ∧ a'.HasShape 3 extents [4294967295, 1, 0, 7]
      ∧ d.ElementShown "?" a "int" "[,]" ∧ d.ElementShown "" a' "int" "[,]"
      ∧ d.arrayText "?" a = .ok "\x7bint[4294967295..8589934589, 1..0, 5][,]\x7d"
      ∧ d.arrayText "?" a = d.arrayText "" a'
      ∧ ∀ i < 3, [4294967295, 1].getD i 0 = ([4294967295, 1, 0, 7] : List UInt32).getD i 0 := by
  intro extents element a a' d
  have shaped : a.HasShape 3 extents [4294967295, 1] :=
    ⟨⟨rfl, by decide, ⟨0, rfl⟩, rfl⟩, rfl, .inl ⟨rfl, rfl⟩⟩
  have shaped' : a'.HasShape 3 extents [4294967295, 1, 0, 7] :=
    ⟨⟨rfl, by decide, ⟨0, rfl⟩, rfl⟩, rfl, .inl ⟨rfl, rfl⟩⟩
  have shown : d.ElementShown "?" a "int" "[,]" := .named rfl rfl
  have shown' : d.ElementShown "" a' "int" "[,]" := .named rfl rfl
  have htext : d.arrayText "?" a = .ok "\x7bint[4294967295..8589934589, 1..0, 5][,]\x7d" := by
    decide +kernel
  have hsame : d.arrayText "?" a = d.arrayText "" a' := by decide +kernel
  have hshape := (arrayText_tells_shape d d "?" "" a a').2.1 "int" "[,]" 3 extents _ 3 extents _
    shown shown' shaped shaped' hsame
  exact ⟨shaped, shaped', shown, shown', htext, hsame, hshape.2.2⟩

end Debuggee

end Inspector
