/-
  Inspector/Proofs/Enumeration/Independent.lean
  =============================================
  **Flags without common bits come in any order.**

  A scan for flags is greedy: what it takes clears bits, and that can keep a later constant
  from being taken.  Where no two constants share a bit it cannot.  The argument is about
  what a scan leaves, not about its steps: nothing fits into the rest (`explain_stuck`), so
  a constant inside the value that was passed over would have lost a bit to one that was
  taken, and the two would share it.  Hence a scan takes exactly the constants inside the
  value (`mem_explain_iff`), whatever their order.

  Sorted, the constants taken are a list that its members determine, and a name found for a
  word is that of the only constant with this word.  So the text of an enum value depends
  on the set of the constants alone (`enumText_of_independent`).
-/
import Inspector.Proofs.Enumeration.Names
import Mathlib.Data.List.Pairwise
import Mathlib.Data.List.Sort

namespace Inspector

namespace Enumeration

/-! ### Independent constants -/

/-- Constants with different words, of which those that have bits share none. -/
structure AreIndependent (cs : List Constant) : Prop where
  distinct : cs.Pairwise (fun a b => a.word ≠ b.word)
  disjoint : cs.Pairwise (fun a b => a.word ≠ 0 → b.word ≠ 0 → a.word &&& b.word = 0)

/-- The constants that have bits and have all of them in a value, in ascending order. -/
structure AreFlagsOf (cs : List Constant) (value : UInt64) (parts : List Constant) : Prop where
  ascending : parts.Pairwise (fun a b => a.word < b.word)
  mem_iff : ∀ c, c ∈ parts ↔ c ∈ cs ∧ c.word ≠ 0 ∧ c.word &&& value = c.word

variable {cs : List Constant} {value : UInt64}

theorem AreIndependent.eq_of_word_eq (h : AreIndependent cs) {a b : Constant} (ha : a ∈ cs)
    (hb : b ∈ cs) (heq : a.word = b.word) : a = b := by
  have : Std.Symm (fun a b : Constant => a.word ≠ b.word) := ⟨fun _ _ hab => hab.symm⟩
  by_contra hne
  exact h.distinct.forall ha hb hne heq

theorem apart_symm {a b : Constant} (h : a.word ≠ 0 → b.word ≠ 0 → a.word &&& b.word = 0) :
    b.word ≠ 0 → a.word ≠ 0 → b.word &&& a.word = 0 := by
  intro hb ha
  rw [UInt64.and_comm]
  exact h ha hb

theorem AreIndependent.apart (h : AreIndependent cs) {a b : Constant} (ha : a ∈ cs)
    (hb : b ∈ cs) (hne : a ≠ b) (hza : a.word ≠ 0) (hzb : b.word ≠ 0) :
    a.word &&& b.word = 0 := by
  have : Std.Symm (fun a b : Constant => a.word ≠ 0 → b.word ≠ 0 → a.word &&& b.word = 0) :=
    ⟨fun _ _ => apart_symm⟩
  exact h.disjoint.forall ha hb hne hza hzb

theorem covers_iff_and_eq {part : UInt64} : covers value part = true ↔ part &&& value = part := by
  rw [covers, beq_iff_eq]

/-! ### What a scan takes -/

/-- A part whose bits no taken constant has is still there in what a scan leaves. -/
theorem covers_explain_rest {part : UInt64} (hcovers : covers value part = true)
    (hapart : part &&& union (explain value cs).1 = 0) :
    covers (explain value cs).2 part = true := by
  rw [covers_iff] at hcovers ⊢
  intro i hi
  rw [explain_rest, hasBit_and_not, hcovers i hi, and_eq_zero_iff.mp hapart i hi,
    Bool.not_false, Bool.and_self]

/-- Of independent constants a scan takes exactly those inside the value. -/
theorem mem_explain_iff (h : AreIndependent cs) {c : Constant} :
    c ∈ (explain value cs).1 ↔ c ∈ cs ∧ c.word ≠ 0 ∧ covers value c.word = true := by
  constructor
  · intro hc
    exact ⟨explain_sublist.subset hc, fits_of_mem_explain hc⟩
  · rintro ⟨hc, hne, hcovers⟩
    by_contra hpassed
    -- it shares no bit with a taken constant, so all of its bits are left
    have hapart : c.word &&& union (explain value cs).1 = 0 := by
      apply and_union_eq_zero
      intro taken htaken
      have hother : c ≠ taken := fun heq => hpassed (heq ▸ htaken)
      exact h.apart hc (explain_sublist.subset htaken) hother hne (fits_of_mem_explain htaken).1
    have hstuck : covers (explain value cs).2 c.word = false := explain_stuck hc hne
    rw [covers_explain_rest hcovers hapart] at hstuck
    cases hstuck

theorem areFlagsOf_mergeSort (h : AreIndependent cs) :
    AreFlagsOf cs value ((explain value cs).1.mergeSort (fun a b => a.word ≤ b.word)) where
  ascending := ascending_mergeSort explain_disjoint (fun _ hc => (fits_of_mem_explain hc).1)
  mem_iff c := by rw [List.mem_mergeSort, mem_explain_iff h, covers_iff_and_eq]

/-! ### The text of a value -/

theorem AreFlagsOf.unique {others parts parts' : List Constant} (h : AreFlagsOf cs value parts)
    (h' : AreFlagsOf others value parts') (hsame : ∀ c, c ∈ cs ↔ c ∈ others) :
    parts = parts' := by
  have : Std.Antisymm (fun a b : Constant => a.word < b.word) :=
    ⟨fun _ _ hab hba => absurd hba (UInt64.lt_asymm hab)⟩
  have : Std.Irrefl (fun a b : Constant => a.word < b.word) := ⟨fun _ => UInt64.lt_irrefl _⟩
  apply List.Pairwise.eq_of_mem_iff h.ascending h'.ascending
  intro c
  rw [h.mem_iff, h'.mem_iff, hsame]

def flagsText (separator : String) (value : UInt64) (parts : List Constant) : String :=
  if parts ≠ [] ∧ union parts = value then
    String.intercalate separator (parts.map Constant.name)
  else value.toNat.repr

theorem unmatchedText_of_independent (h : AreIndependent cs) {parts : List Constant}
    (hparts : AreFlagsOf cs value parts) (separator : String) :
    unmatchedText true separator value cs = flagsText separator value parts := by
  obtain rfl := hparts.unique (areFlagsOf_mergeSort h) (fun _ => Iff.rfl)
  have hperm := List.mergeSort_perm (explain value cs).1 (fun a b => a.word ≤ b.word)
  have hnil : (explain value cs).1.mergeSort (fun a b => a.word ≤ b.word) ≠ []
      ↔ (explain value cs).1 ≠ [] := by
    rw [← List.length_pos_iff, ← List.length_pos_iff, List.length_mergeSort]
  have hfound : ((explain value cs).1 ≠ [] ∧ (explain value cs).2 = 0)
      ↔ ((explain value cs).1.mergeSort (fun a b => a.word ≤ b.word) ≠ []
        ∧ union ((explain value cs).1.mergeSort (fun a b => a.word ≤ b.word)) = value) := by
    rw [hnil, explain_rest_eq_zero_iff, union_perm hperm]
  rw [flagsText]
  by_cases hall : (explain value cs).1 ≠ [] ∧ (explain value cs).2 = 0
  · rw [if_pos (hfound.mp hall)]
    simp only [unmatchedText, flagsOf?, if_pos hall, if_true]
  · rw [if_neg (fun h => hall (hfound.mpr h))]
    simp only [unmatchedText, flagsOf?, if_neg hall, if_true]

/-- The text of a value, by the constants of its enum. -/
def namedText (isFlags : Bool) (separator : String) (value : UInt64) (cs : List Constant) :
    String :=
  match scanOf cs value with
  | .exact name => name
  | .noMatch cs => unmatchedText isFlags separator value cs

theorem firstNamed?_eq_some_iff (h : AreIndependent cs) {c : Constant} :
    firstNamed? cs value = some c ↔ c ∈ cs ∧ c.word = value := by
  constructor
  · intro hc
    exact ⟨List.mem_of_find?_eq_some hc, by simpa using List.find?_some hc⟩
  · rintro ⟨hc, rfl⟩
    obtain ⟨first, hfirst⟩ : ∃ first, firstNamed? cs c.word = some first := by
      rw [← Option.isSome_iff_exists, firstNamed?, List.find?_isSome]
      exact ⟨c, hc, BEq.rfl⟩
    have hword : first.word = c.word := by simpa using List.find?_some hfirst
    rw [hfirst, h.eq_of_word_eq (List.mem_of_find?_eq_some hfirst) hc hword]

theorem namedText_of_first {isFlags : Bool} {separator : String} {c : Constant}
    (h : firstNamed? cs value = some c) : namedText isFlags separator value cs = c.name := by
  rw [namedText, scanOf, h]

theorem namedText_of_none {isFlags : Bool} {separator : String}
    (h : firstNamed? cs value = none) :
    namedText isFlags separator value cs = unmatchedText isFlags separator value cs := by
  rw [namedText, scanOf, h]

theorem AreIndependent.perm {others : List Constant} (h : AreIndependent cs)
    (hperm : others.Perm cs) : AreIndependent others where
  distinct := (hperm.pairwise_iff fun hab => hab.symm).mpr h.distinct
  disjoint := (hperm.pairwise_iff apart_symm).mpr h.disjoint

/-- The order of independent constants does not show. -/
theorem namedText_perm {others : List Constant} (h : AreIndependent cs)
    (hperm : others.Perm cs) (separator : String) (value : UInt64) :
    namedText true separator value others = namedText true separator value cs := by
  have hothers := h.perm hperm
  have hfirst : firstNamed? others value = firstNamed? cs value := by
    apply Option.ext
    intro c
    rw [firstNamed?_eq_some_iff hothers, firstNamed?_eq_some_iff h, hperm.mem_iff]
  cases hc : firstNamed? cs value with
  | some c => rw [namedText_of_first hc, namedText_of_first (hfirst.trans hc)]
  | none =>
    have hparts : AreFlagsOf cs value _ := areFlagsOf_mergeSort h
    have hsame := (areFlagsOf_mergeSort hothers).unique hparts (fun _ => hperm.mem_iff)
    rw [namedText_of_none hc, namedText_of_none (hfirst.trans hc),
      unmatchedText_of_independent hothers (areFlagsOf_mergeSort hothers),
      unmatchedText_of_independent h hparts, hsame]

/-! ### Declared constants -/

def AreReadable (storage : ElementType) (fields : List Field) : Prop :=
  ∀ field ∈ fields, field.flags.isEnumConstant = true →
    ∃ word, storageWord storage field.constant = .ok word

/-- A scan fails only as a constant does. -/
theorem scan_eq_error {storage : ElementType} {word : UInt64} {fields : List Field} {e : Error}
    (h : scan storage word fields = .error e) :
    ∃ field ∈ fields, field.flags.isEnumConstant = true
      ∧ storageWord storage field.constant = .error e := by
  induction fields with
  | nil => cases h
  | cons field fields ih =>
    have behind : scan storage word fields = .error e →
        ∃ field' ∈ field :: fields, field'.flags.isEnumConstant = true
          ∧ storageWord storage field'.constant = .error e := by
      intro hrest
      obtain ⟨field', hmem, hfield'⟩ := ih hrest
      exact ⟨field', List.mem_cons_of_mem _ hmem, hfield'⟩
    rw [scan] at h
    by_cases hflag : field.flags.isEnumConstant = true
    · rw [if_pos hflag] at h
      cases hword : storageWord storage field.constant with
      | error e' =>
        rw [hword] at h
        cases h
        exact ⟨field, List.mem_cons_self, hflag, hword⟩
      | ok w =>
        rw [hword] at h
        by_cases heq : w = word
        · simp only [if_pos heq] at h
          cases h
        · simp only [if_neg heq] at h
          exact behind (answer_map_eq_error.mp h)
    · rw [if_neg hflag] at h
      exact behind h

theorem scan_of_readable {storage : ElementType} {fields : List Field}
    (h : AreReadable storage fields) (word : UInt64) :
    scan storage word fields = .ok (scanOf (declared storage fields) word) := by
  cases hscan : scan storage word fields with
  | ok found => rw [scan_eq_ok hscan]
  | error e =>
    obtain ⟨field, hmem, hflag, hfailed⟩ := scan_eq_error hscan
    obtain ⟨w, hread⟩ := h field hmem hflag
    cases hfailed.symm.trans hread

/-- The fields of a type that declare constants. -/
def constantFields (fields : List Field) : List Field :=
  fields.filter (·.flags.isEnumConstant)

theorem declared_constantFields (storage : ElementType) (fields : List Field) :
    declared storage (constantFields fields) = declared storage fields := by
  rw [declared, declared, constantFields, List.filterMap_filter]
  congr 1
  funext field
  unfold constantOf?
  split <;> rfl

theorem declared_perm {storage : ElementType} {fields others : List Field}
    (h : (constantFields others).Perm (constantFields fields)) :
    (declared storage others).Perm (declared storage fields) := by
  rw [← declared_constantFields storage others, ← declared_constantFields storage fields]
  exact h.filterMap _

theorem AreReadable.perm {storage : ElementType} {fields others : List Field}
    (h : AreReadable storage fields)
    (hperm : (constantFields others).Perm (constantFields fields)) :
    AreReadable storage others := by
  intro field hmem hflag
  have hconstant : field ∈ constantFields others := List.mem_filter.mpr ⟨hmem, hflag⟩
  exact h field (List.mem_filter.mp (hperm.mem_iff.mp hconstant)).1 hflag

end Enumeration

/-! ### Every set of flags -/

namespace Debuggee

open Enumeration

variable {V : Type}

/-- A type that is declared with a storage field and the marker of a set of flags. -/
structure DeclaresFlags (d : Debuggee V) (ty : TypeDesc) (storage : ElementType)
    (fields : List Field) : Prop where
  fields : d.fields ty = .ok fields
  storage : d.storageType ty = .ok storage
  marked : ∃ attributes, d.attributes ty = .ok attributes
    ∧ Attribute.anyMarksFlags attributes = true

variable {d : Debuggee V} {ty : TypeDesc} {storage : ElementType} {fields : List Field}

theorem DeclaresFlags.enumText_eq (h : d.DeclaresFlags ty storage fields)
    (readable : AreReadable storage fields) (separator : String) (data : Bytes) :
    d.enumText separator ty data
      = (storageWord storage data).map (namedText true separator · (declared storage fields)) := by
  obtain ⟨attributes, hattributes, hmarked⟩ := h.marked
  rw [enumText, h.storage, answer_ok_bind]
  cases storageWord storage data with
  | error e => rfl
  | ok value =>
    simp only [answer_ok_bind, hattributes, h.fields, hmarked, scan_of_readable readable,
      answer_ok_map, namedText]
    cases scanOf (declared storage fields) value <;> rfl

/-- **Flags without common bits are found whatever their order.**  A value that one constant
    equals has its name.  Any other has the names of all constants inside it, in ascending
    order, if these are some and have all of its bits, and else its number.  Another type
    that declares the same constants in another order shows all its values alike. -/
theorem enumText_of_independent (declares : d.DeclaresFlags ty storage fields)
    (readable : AreReadable storage fields)
    (independent : AreIndependent (declared storage fields)) (separator : String)
    (data : Bytes) :
    (∀ c ∈ declared storage fields, storageWord storage data = .ok c.word →
        d.enumText separator ty data = .ok c.name)
      ∧ (∀ value, storageWord storage data = .ok value →
        (∀ c ∈ declared storage fields, c.word ≠ value) →
        ∃ parts, AreFlagsOf (declared storage fields) value parts
          ∧ d.enumText separator ty data = .ok (flagsText separator value parts))
      ∧ (∀ (d' : Debuggee V) ty' fields', d'.DeclaresFlags ty' storage fields' →
        (constantFields fields').Perm (constantFields fields) →
        d'.enumText separator ty' data = d.enumText separator ty data) := by
  have htext := declares.enumText_eq readable separator data
  refine ⟨?_, ?_, ?_⟩
  · intro c hc hdata
    have hfirst : firstNamed? (declared storage fields) c.word = some c :=
      (firstNamed?_eq_some_iff independent).mpr ⟨hc, rfl⟩
    rw [htext, hdata, answer_ok_map, namedText_of_first hfirst]
  · intro value hdata hother
    have hparts : AreFlagsOf (declared storage fields) value _ := areFlagsOf_mergeSort independent
    refine ⟨_, hparts, ?_⟩
    rw [htext, hdata, answer_ok_map, namedText_of_none (firstNamed?_eq_none_iff.mpr hother),
      unmatchedText_of_independent independent hparts]
  · intro d' ty' fields' declares' hperm
    rw [htext, declares'.enumText_eq (readable.perm hperm)]
    congr 1
    funext value
    exact namedText_perm independent (declared_perm hperm) separator value

/-- Two declarations of the same flags, one of which has several bits. -/
theorem enumText_of_independent_permuted :
    let storageField := Field.ofInstance ⟨0x04000001⟩ "value__" .uint8
    let none := Field.ofConstant ⟨0x04000002⟩ "None" .uint8 [0]
    let low := Field.ofConstant ⟨0x04000003⟩ "Low" .uint8 [1]
    let middle := Field.ofConstant ⟨0x04000004⟩ "Middle" .uint8 [6]
    let high := Field.ofConstant ⟨0x04000005⟩ "High" .uint8 [0x80]
    let fields := [storageField, none, low, middle, high]
    let others := [high, low, storageField, middle, none]
    let attributes : Answer (List Attribute) :=
      .ok [⟨⟨0x0c000001⟩, Attribute.flagsConstructor⟩]
    let d := (Recording.ofLists []
      [{ token := ⟨0x02000010⟩, name := .ok "Bits", attributes, fields := .ok fields },
       { token := ⟨0x02000011⟩, name := .ok "Others", attributes, fields := .ok others }]).debuggee
    let ty := TypeDesc.declared 1 ⟨0x02000010⟩ .valueType
    let ty' := TypeDesc.declared 1 ⟨0x02000011⟩ .valueType
    d.DeclaresFlags ty .uint8 fields ∧ AreReadable .uint8 fields
      ∧ AreIndependent (declared .uint8 fields)
      ∧ d.DeclaresFlags ty' .uint8 others
      ∧ (constantFields others).Perm (constantFields fields)
      ∧ d.enumText " | " ty [0x86] = .ok "Middle | High"
      ∧ d.enumText " | " ty' [0x86] = d.enumText " | " ty [0x86] := by
  intro storageField none low middle high fields others attributes d ty ty'
  have declares : d.DeclaresFlags ty .uint8 fields := ⟨rfl, by cbv, _, rfl, by decide⟩
  have declares' : d.DeclaresFlags ty' .uint8 others := ⟨rfl, by cbv, _, rfl, by decide⟩
  have readable : AreReadable .uint8 fields := by
    intro field hmem hflag
    simp only [fields, List.mem_cons, List.not_mem_nil, or_false] at hmem
    rcases hmem with rfl | rfl | rfl | rfl | rfl
    · exact absurd hflag (by decide)
    all_goals exact ⟨_, rfl⟩
  have hdeclared : declared .uint8 fields
      = [⟨"None", 0⟩, ⟨"Low", 1⟩, ⟨"Middle", 6⟩, ⟨"High", 0x80⟩] := by cbv
  have independent : AreIndependent (declared .uint8 fields) := by
    rw [hdeclared]
    constructor <;> decide
  have hperm : (constantFields others).Perm (constantFields fields) := by decide
  have shown : d.enumText " | " ty [0x86] = .ok "Middle | High" := by cbv
  exact ⟨declares, readable, independent, declares', hperm, shown,
    (enumText_of_independent declares readable independent " | " [0x86]).2.2 d ty' others
      declares' hperm⟩

end Debuggee

end Inspector
