/-
  Inspector/Proofs/Debuggee/Display.lean
  ======================================
  **What a display asks.**

  A display walks to the end of the chain, asks for the tag and then for what the tag
  calls for.  Each lemma here follows it along one of these ways, so that what is shown
  for a value is known from the answers alone.
-/
import Inspector.Display
import Inspector.Proofs.Debuggee.Answers

namespace Inspector.Debuggee

variable {V : Type} {d : Debuggee V} {o : Options} {escape : Bool} {v : V}

/-! ### At the end of the chain -/

theorem valueText_of_null {r : ChainEnd V} (hr : d.resolve o.maxDepth v = .ok r)
    (hnull : r.isNull = true) : d.valueText o escape v = .ok "null" := by
  rw [valueText, hr, answer_ok_bind, if_pos hnull]
  rfl

theorem valueText_of_terminal {r : ChainEnd V} (hr : d.resolve o.maxDepth v = .ok r)
    (hnull : r.isNull = false) :
    d.valueText o escape v = d.terminalText o escape r.value := by
  rw [valueText, hr, answer_ok_bind, hnull]
  rfl

/-! ### By the tag -/

theorem terminalText_string (htag : (d.facets v).elementType = .ok .string) :
    d.terminalText o escape v
      = (d.stringText v).map (if escape then Text.quoted else id) := by
  rw [terminalText, htag]
  rfl

theorem terminalText_eq_bind {tag : ElementType} (htag : (d.facets v).elementType = .ok tag)
    (hstring : tag ≠ .string) (harray : tag.isArray = false) :
    d.terminalText o escape v = d.contents tag v >>= d.contentsText o escape v tag := by
  rw [terminalText, htag, answer_ok_bind]
  split
  · exact absurd rfl hstring
  · cases harray
  · cases harray
  · rfl

theorem terminalText_contents {tag : ElementType} {data : Bytes}
    (htag : (d.facets v).elementType = .ok tag) (hstring : tag ≠ .string)
    (harray : tag.isArray = false) (hdata : d.contents tag v = .ok data) :
    d.terminalText o escape v = d.contentsText o escape v tag data := by
  rw [terminalText_eq_bind htag hstring harray, hdata, answer_ok_bind]

theorem contents_eq_ok_iff {tag : ElementType} {data : Bytes} :
    d.contents tag v = .ok data ↔ (d.facets v).contents? = some (.ok data) := by
  unfold contents
  cases (d.facets v).contents? <;> simp

/-! ### Of a composite -/

theorem terminalText_composite_eq_bind {tag : ElementType}
    (htag : (d.facets v).elementType = .ok tag) (composite : tag.isComposite = true) :
    d.terminalText o escape v = d.contents tag v >>= d.compositeValueText o v := by
  cases tag <;> cases composite <;> exact terminalText_eq_bind htag (by decide) rfl

theorem compositeName_eq {ty : TypeDesc} {name : String} (htype : (d.facets v).exactType = .ok ty)
    (hname : d.typeName ty = .ok name) : d.compositeName v = name := by
  have hexact : d.exactTypeName v = .ok name := by
    rw [exactTypeName, htype]
    exact hname
  rw [compositeName, hexact]

/-- A decimal is shown by its fields, once its contents have been asked for. -/
theorem terminalText_decimal {tag : ElementType} (htag : (d.facets v).elementType = .ok tag)
    (composite : tag.isComposite = true) (plain : d.isEnum v = false)
    (named : d.compositeName v = decimalName) :
    d.terminalText o escape v
      = d.contents tag v >>= fun _ => (d.decimalOf o.maxDepth v).map Decimal.text := by
  have hshown : ∀ data, d.compositeValueText o v data
      = (d.decimalOf o.maxDepth v).map Decimal.text := by
    simp [compositeValueText, plain, named]
  rw [terminalText_composite_eq_bind htag composite]
  exact congrArg _ (funext hshown)

end Inspector.Debuggee
