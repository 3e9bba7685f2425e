/-
  Inspector/Proofs/Decimal/Extraction.lean
  ========================================
  **The decimal of an instance depends on its providers alone.**

  After all fields were taken in, each word is that of its last provider or missing
  (`IsFoundIn`).  Everything about the decimal follows from this and from nothing else of
  the fields: when there is one, what its words are, which of them are listed if there is
  none, and that another order of the fields gives the same decimal as long as no word
  has two providers (`decimalOf_lastProvider`).
-/
import Inspector.Debuggee.Recording
import Inspector.Proofs.Decimal.Providers

namespace Inspector

namespace Decimal

/-! ### The decimal of an instance -/

section Extraction

variable {V : Type} {d : Debuggee V} {limit : Nat} {object : ObjectFacet V} {ty : TypeDesc}
  {fields fields' : List Field} {found found' : Found} {w : Word} {n : UInt32} {p : Decimal}

/-- What was found of a decimal if each word is that of its last provider. -/
def IsFoundIn (d : Debuggee V) (limit : Nat) (object : ObjectFacet V) (ty : TypeDesc)
    (fields : List Field) (found : Found) : Prop :=
  ∀ w, (∃ n, LastProvides d limit object ty fields w n ∧ found.word w = some n)
    ∨ NoneProvides d limit object ty fields w ∧ found.word w = none

theorem IsFoundIn.last (h : IsFoundIn d limit object ty fields found)
    (hword : found.word w = some n) : LastProvides d limit object ty fields w n := by
  rcases h w with ⟨m, last, hm⟩ | ⟨_, hnone⟩
  · cases hword.symm.trans hm
    exact last
  · cases hword.symm.trans hnone

theorem IsFoundIn.word_eq_none_iff (h : IsFoundIn d limit object ty fields found) :
    found.word w = none ↔ NoneProvides d limit object ty fields w := by
  rcases h w with ⟨n, last, hword⟩ | ⟨unprovided, hword⟩
  · obtain ⟨field, hfield, provides⟩ := last.mem
    simp only [hword, reduceCtorEq, false_iff]
    exact fun unprovided => unprovided field hfield n provides
  · exact iff_of_true hword unprovided

theorem IsFoundIn.complete_eq_ok_iff (h : IsFoundIn d limit object ty fields found) :
    (∃ p, found.complete = .ok p)
      ↔ ∀ w, ∃ field ∈ fields, ∃ n, Provides d limit object ty field w n := by
  constructor
  · rintro ⟨p, hp⟩ w
    rcases found.complete_cases with ⟨p', _, hwords⟩ | ⟨_, herror⟩
    · obtain ⟨field, hfield, provides⟩ := (h.last (hwords w)).mem
      exact ⟨field, hfield, _, provides⟩
    · cases hp.symm.trans herror
  · intro provided
    rcases found.complete_cases with ⟨p, hp, _⟩ | ⟨⟨w, hnone⟩, _⟩
    · exact ⟨p, hp⟩
    · obtain ⟨field, hfield, n, provides⟩ := provided w
      exact absurd provides (h.word_eq_none_iff.mp hnone field hfield n)

theorem IsFoundIn.lastProvides (h : IsFoundIn d limit object ty fields found)
    (hp : found.complete = .ok p) (w : Word) :
    LastProvides d limit object ty fields w (p.word w) := by
  rcases found.complete_cases with ⟨p', hp', hwords⟩ | ⟨_, herror⟩
  · cases hp.symm.trans hp'
    exact h.last (hwords w)
  · cases hp.symm.trans herror

/-- The words that are missing, in their order. -/
theorem IsFoundIn.exists_missing (h : IsFoundIn d limit object ty fields found)
    (hnone : ∃ w, NoneProvides d limit object ty fields w) :
    ∃ missing : List Word, missing.Sublist Word.all
      ∧ (∀ w, w ∈ missing ↔ NoneProvides d limit object ty fields w)
      ∧ found.complete = .error (.malformedDecimal (missing.map Word.name)) := by
  refine ⟨Word.all.filter (fun w => (found.word w).isNone), List.filter_sublist, ?_, ?_⟩
  · intro w
    have hall : w ∈ Word.all := by cases w <;> decide
    simp [hall, h.word_eq_none_iff]
  · rcases found.complete_cases with ⟨p, hp, _⟩ | ⟨_, herror⟩
    · obtain ⟨w, unprovided⟩ := hnone
      obtain ⟨field, hfield, provides⟩ := (h.lastProvides hp w).mem
      exact absurd provides (unprovided field hfield _)
    · rw [herror, found.missing_eq]

theorem OneProvides.exists_mem (h : OneProvides d limit object ty fields w) :
    ∃ field ∈ fields, ∃ n, Provides d limit object ty field w n := by
  obtain ⟨before, field, after, rfl, provides, _⟩ := h
  exact ⟨field, by simp, provides⟩

/-- A word with one provider comes from the same field wherever that is declared. -/
theorem IsFoundIn.eq_of_perm (h : IsFoundIn d limit object ty fields found)
    (h' : IsFoundIn d limit object ty fields' found') (hperm : fields'.Perm fields)
    (one : ∀ w, OneProvides d limit object ty fields w) : found' = found := by
  apply Found.ext_word
  intro w
  obtain ⟨field, hfield, n, provides⟩ := (one w).exists_mem
  -- neither of the two lists is without a provider
  rcases h w with ⟨m, last, hword⟩ | ⟨unprovided, _⟩
  · rcases h' w with ⟨m', last', hword'⟩ | ⟨unprovided', _⟩
    · obtain ⟨other, hother, hm⟩ := last.mem
      obtain ⟨other', hother', hm'⟩ := last'.mem
      rw [hword, hword', (one w).unique hother (hperm.mem_iff.mp hother') hm hm']
    · exact absurd provides (unprovided' field (hperm.mem_iff.mpr hfield) n)
  · exact absurd provides (unprovided field hfield n)

/-- Where the field of both low words is the last provider of both, they are its halves. -/
theorem joined_of_lastProvides {before after : List Field} {field : Field} {number : Nat}
    {mid lo : UInt32} (hmid : LastProvides d limit object ty (before ++ field :: after) .mid mid)
    (hlo : LastProvides d limit object ty (before ++ field :: after) .lo lo)
    (candidate : isCandidate field = true) (named : field.name = Word.lowHalvesName)
    (holds : HoldsNumber d limit object ty field .uint64 number)
    (noMid : NoneProvides d limit object ty after .mid)
    (noLo : NoneProvides d limit object ty after .lo) :
    mid.toNat * 0x100000000 + lo.toNat = number := by
  have hlt := holds.lt rfl
  rw [IntegerType.width, Bytes.limit_eight] at hlt
  have hupper : (UInt32.ofNat (number / 0x100000000)).toNat = number / 0x100000000 := by
    rw [UInt32.toNat_ofNat']
    omega
  have hlower : (UInt32.ofNat (number % 0x100000000)).toNat = number % 0x100000000 := by
    rw [UInt32.toNat_ofNat']
    omega
  have lastMid := hmid.unique
    ⟨before, field, after, rfl, .upper candidate named holds hupper, noMid⟩
  have lastLo := hlo.unique
    ⟨before, field, after, rfl, .lower candidate named holds hlower, noLo⟩
  rw [lastMid, lastLo, hupper, hlower]
  omega

end Extraction

end Decimal

namespace Debuggee

open Decimal

variable {V : Type} {d : Debuggee V} {limit : Nat} {object : ObjectFacet V} {ty : TypeDesc}
  {fields : List Field} {v : V}

/-- An instance of a type with the given fields. -/
structure HasFields (d : Debuggee V) (v : V) (object : ObjectFacet V) (ty : TypeDesc)
    (fields : List Field) : Prop where
  typed : (d.facets v).exactType = .ok ty
  object : (d.facets v).object? = some object
  declared : d.fields ty = .ok fields

theorem decimalOf_eq_complete (has : d.HasFields v object ty fields)
    (readable : ∀ field ∈ fields, isCandidate field = true → CanBeRead d limit object ty field) :
    ∃ found, d.decimalOf limit v = found.complete ∧ IsFoundIn d limit object ty fields found := by
  obtain ⟨found, hfold, hwords⟩ := foldlM_takeField_word readable {}
  refine ⟨found, ?_, ?_⟩
  · simp only [decimalOf, has.typed, has.object, has.declared, answer_ok_bind, hfold]
  · intro w
    have hempty : ({} : Found).word w = none := by cases w <;> rfl
    rw [← hempty]
    exact hwords w

section Reordered

variable {d' : Debuggee V}

theorem holdsNumber_congr (same : d'.facets = d.facets) {field : Field} {t : IntegerType}
    {number : Nat} :
    HoldsNumber d' limit object ty field t number
      ↔ HoldsNumber d limit object ty field t number := by
  simp only [HoldsNumber, (sameButFields_of_facets same).readInteger]

theorem provides_congr (same : d'.facets = d.facets) :
    Provides d' limit object ty = Provides d limit object ty := by
  funext field w n
  simp only [provides_iff, holdsNumber_congr same]

theorem canBeRead_congr (same : d'.facets = d.facets) {field : Field}
    (h : CanBeRead d limit object ty field) : CanBeRead d' limit object ty field where
  value := h.value
  word w hname := by simpa only [holdsNumber_congr same] using h.word w hname
  lowHalves hname := by simpa only [holdsNumber_congr same] using h.lowHalves hname

theorem isFoundIn_congr (same : d'.facets = d.facets) {found : Found} :
    IsFoundIn d' limit object ty fields found ↔ IsFoundIn d limit object ty fields found := by
  simp only [IsFoundIn, LastProvides, NoneProvides, provides_congr same]

/-- Another order of the fields gives the same decimal. -/
theorem decimalOf_of_perm {fields' : List Field} (has : d.HasFields v object ty fields)
    (readable : ∀ field ∈ fields, isCandidate field = true → CanBeRead d limit object ty field)
    (one : ∀ w, OneProvides d limit object ty fields w) (same : d'.facets = d.facets)
    (declared' : d'.fields ty = .ok fields') (hperm : fields'.Perm fields) :
    d'.decimalOf limit v = d.decimalOf limit v := by
  have has' : d'.HasFields v object ty fields' :=
    ⟨by rw [same]; exact has.typed, by rw [same]; exact has.object, declared'⟩
  have readable' : ∀ field ∈ fields', isCandidate field = true →
      CanBeRead d' limit object ty field := by
    intro field hfield candidate
    exact canBeRead_congr same (readable field (hperm.mem_iff.mp hfield) candidate)
  obtain ⟨found, hcomplete, hfound⟩ := decimalOf_eq_complete has readable
  obtain ⟨found', hcomplete', hfound'⟩ := decimalOf_eq_complete has' readable'
  rw [hcomplete, hcomplete', hfound.eq_of_perm ((isFoundIn_congr same).mp hfound') hperm one]

end Reordered

/-- **Each word of a decimal comes from its last provider.**  If all fields that count can be
    read, a decimal comes of them exactly if every word has a provider, and each word is
    that of the last one. If some words have none, the failure lists these. As long as no
    word has two providers, another order of the fields gives the same decimal. -/
theorem decimalOf_lastProvider (has : d.HasFields v object ty fields)
    (readable : ∀ field ∈ fields, isCandidate field = true → CanBeRead d limit object ty field) :
    ((∃ p, d.decimalOf limit v = .ok p)
        ↔ ∀ w, ∃ field ∈ fields, ∃ n, Provides d limit object ty field w n)
      ∧ (∀ p, d.decimalOf limit v = .ok p →
        (∀ w, LastProvides d limit object ty fields w (p.word w))
          ∧ ∀ before field after number, fields = before ++ field :: after →
            isCandidate field = true → field.name = Word.lowHalvesName →
            HoldsNumber d limit object ty field .uint64 number →
            NoneProvides d limit object ty after .mid → NoneProvides d limit object ty after .lo →
            p.mid.toNat * 0x100000000 + p.lo.toNat = number)
      ∧ ((∃ w, NoneProvides d limit object ty fields w) →
        ∃ missing : List Word, missing.Sublist Word.all
          ∧ (∀ w, w ∈ missing ↔ NoneProvides d limit object ty fields w)
          ∧ d.decimalOf limit v = .error (.malformedDecimal (missing.map Word.name))
          ∧ (Error.malformedDecimal (missing.map Word.name)).message
            = "Malformed decimal, missing fields: "
              ++ String.intercalate ", " (missing.map Word.name))
      ∧ ((∀ w, OneProvides d limit object ty fields w) →
        ∀ (d' : Debuggee V) fields', d'.facets = d.facets → d'.fields ty = .ok fields' →
          fields'.Perm fields → d'.decimalOf limit v = d.decimalOf limit v) := by
  obtain ⟨found, hcomplete, hfound⟩ := decimalOf_eq_complete has readable
  refine ⟨?_, ?_, ?_, ?_⟩
  · rw [hcomplete]
    exact hfound.complete_eq_ok_iff
  · intro p hp
    rw [hcomplete] at hp
    refine ⟨hfound.lastProvides hp, ?_⟩
    rintro before field after number rfl candidate named holds noMid noLo
    exact joined_of_lastProvides (hfound.lastProvides hp .mid) (hfound.lastProvides hp .lo)
      candidate named holds noMid noLo
  · intro hnone
    obtain ⟨missing, hsub, hmem, herror⟩ := hfound.exists_missing hnone
    exact ⟨missing, hsub, hmem, hcomplete.trans herror, rfl⟩
  · intro one d' fields' same declared' hperm
    exact decimalOf_of_perm has readable one same declared' hperm

/-- The joined layout, with a static `hi` that cannot be read, a literal `mid` and an unrelated
    field among its own, forwards and backwards. -/
theorem decimalOf_lastProvider_reversed :
    let p : Decimal := ⟨0x80020000, 1, 2, 3⟩
    let ty : TypeDesc := .declared 1 ⟨0x02000004⟩ .valueType
    let fields : List Field :=
      [⟨⟨0x04000001⟩, "hi", .static, .uint32, []⟩, .ofInstance ⟨0x04000002⟩ "_flags" .uint32,
       .ofInstance ⟨0x04000003⟩ "hash" .int32, .ofInstance ⟨0x04000004⟩ "_lo64" .uint64,
       ⟨⟨0x04000005⟩, "mid", .literal, .uint32, []⟩, .ofInstance ⟨0x04000006⟩ "_hi32" .uint32]
    let parts : List RecordedField :=
      [{ field := ⟨0x04000002⟩, value := .ok 1 }, { field := ⟨0x04000003⟩, value := .ok 0 },
       { field := ⟨0x04000004⟩, value := .ok 2 }, { field := ⟨0x04000006⟩, value := .ok 3 }]
    let debuggee (declared : List Field) : Debuggee Nat := (Recording.ofLists
      [{ elementType := .ok .valueType, exactType := some (.ok ty), object := some parts },
       { elementType := .ok .uint32, contents := some (.ok [0, 0, 2, 128]) },
       { elementType := .ok .uint64, contents := some (.ok [3, 0, 0, 0, 2, 0, 0, 0]) },
       { elementType := .ok .int32, contents := some (.ok [1, 0, 0, 0]) }]
      [{ token := ⟨0x02000004⟩, name := .ok "decimal", fields := .ok declared }]).debuggee
    let d := debuggee fields
    let object := RecordedField.facet parts
    d.HasFields 0 object ty fields
      ∧ (∀ field ∈ fields, isCandidate field = true → CanBeRead d 64 object ty field)
      ∧ (∀ w, OneProvides d 64 object ty fields w)
      ∧ d.decimalOf 64 0 = .ok p
      ∧ (∀ w, LastProvides d 64 object ty fields w (p.word w))
      ∧ (debuggee fields.reverse).decimalOf 64 0 = d.decimalOf 64 0 := by
  intro p ty fields parts debuggee d object
  have has : d.HasFields 0 object ty fields := ⟨rfl, rfl, rfl⟩
  have flags : HoldsNumber d 64 object ty (.ofInstance ⟨0x04000002⟩ "_flags" .uint32) .uint32
      p.flags.toNat := ⟨1, rfl, rfl⟩
  have lowHalves : HoldsNumber d 64 object ty (.ofInstance ⟨0x04000004⟩ "_lo64" .uint64) .uint64
      0x200000003 := ⟨2, rfl, rfl⟩
  have hi : HoldsNumber d 64 object ty (.ofInstance ⟨0x04000006⟩ "_hi32" .uint32) .uint32
      p.hi.toNat := ⟨3, rfl, rfl⟩
  have readable : ∀ field ∈ fields, isCandidate field = true →
      CanBeRead d 64 object ty field := by
    simp only [fields, List.forall_mem_cons, List.not_mem_nil, false_imp_iff, implies_true]
    refine ⟨?_, ?_, ?_, ?_, ?_, ?_, trivial⟩ <;> intro candidate
    · exact absurd candidate (by decide)
    · exact ⟨⟨1, rfl⟩, fun _ _ => ⟨_, flags⟩, fun named => absurd named (by decide)⟩
    · exact ⟨⟨0, rfl⟩, fun w named => absurd named (by cases w <;> decide),
        fun named => absurd named (by decide)⟩
    · exact ⟨⟨2, rfl⟩, fun w named => absurd named (by cases w <;> decide),
        fun _ => ⟨_, lowHalves⟩⟩
    · exact absurd candidate (by decide)
    · exact ⟨⟨3, rfl⟩, fun _ _ => ⟨_, hi⟩, fun named => absurd named (by decide)⟩
  have one : ∀ w, OneProvides d 64 object ty fields w := by
    intro w
    cases w with
    | hi =>
      exact ⟨fields.take 5, _, [], rfl, ⟨_, .whole rfl (by decide) hi⟩,
        noneProvides_of_names (by decide)⟩
    | mid =>
      exact ⟨fields.take 3, _, fields.drop 4, rfl, ⟨2, .upper rfl rfl lowHalves rfl⟩,
        noneProvides_of_names (by decide)⟩
    | lo =>
      exact ⟨fields.take 3, _, fields.drop 4, rfl, ⟨3, .lower rfl rfl lowHalves rfl⟩,
        noneProvides_of_names (by decide)⟩
    | flags =>
      exact ⟨fields.take 1, _, fields.drop 2, rfl, ⟨_, .whole rfl (by decide) flags⟩,
        noneProvides_of_names (by decide)⟩
  have hdecimal : d.decimalOf 64 0 = .ok p := rfl
  obtain ⟨_, hlast, _, hperm⟩ := decimalOf_lastProvider has readable
  exact ⟨has, readable, one, hdecimal, (hlast p hdecimal).1,
    hperm one (debuggee fields.reverse) fields.reverse rfl (rfl) fields.reverse_perm⟩

end Debuggee

end Inspector
