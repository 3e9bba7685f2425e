/-
  Inspector/Proofs/Enumeration/Names.lean
  =======================================
  **The text of an enum value loses nothing.**

  An enum value is shown in one of three ways: by the constant that equals it, by several
  constants that together have its bits, or by its number.  Constants may come in any
  order, overlap, share a word or be zero.  `enumText_explained` says for every such enum
  which of the three ways it is and what the text then says about the value.

  Names are arbitrary texts, so the joined names of a combination can happen to spell its
  number (`SpellsNumber`).  A text that is this number is then a combination of some
  constants, and it can be the number because of a rest that others leave
  (`enumText_spells_number`).  Two things still tell the two ways apart.  A separator with
  a character that is no digit stands in every combination and in no number.  And the
  constants that the scan takes in the order of declaration leave nothing in a combination,
  and behind a number a rest into which no constant fits, whatever the names are
  (`HasOneScannedWay`).
-/
import Inspector.Debuggee.Recording
import Inspector.Proofs.Debuggee.Answers
import Inspector.Proofs.Enumeration.Flags
import Inspector.Proofs.Text.Digits
import Mathlib

namespace Inspector

namespace Enumeration

/-! ### Declared constants -/

/-- The constant that a field declares, if it declares one that can be read. -/
def constantOf? (storage : ElementType) (field : Field) : Option Constant :=
  if field.flags.isEnumConstant then
    (storageWord storage field.constant).toOption.map (⟨field.name, ·⟩)
  else none

/-- The constants of an enum, in the order of their declaration. -/
def declared (storage : ElementType) (fields : List Field) : List Constant :=
  fields.filterMap (constantOf? storage)

def firstNamed? (cs : List Constant) (word : UInt64) : Option Constant :=
  cs.find? (·.word == word)

theorem firstNamed?_eq_none_iff {cs : List Constant} {word : UInt64} :
    firstNamed? cs word = none ↔ ∀ c ∈ cs, c.word ≠ word := by
  simp [firstNamed?]

def scanOf (cs : List Constant) (word : UInt64) : Scan :=
  match firstNamed? cs word with
  | some c => .exact c.name
  | none => .noMatch cs

theorem scanOf_cons_of_eq {c : Constant} {cs : List Constant} {word : UInt64}
    (h : c.word = word) : scanOf (c :: cs) word = .exact c.name := by
  rw [scanOf, firstNamed?, List.find?_cons_of_pos (by simpa using h)]

theorem scanOf_cons_of_ne {c : Constant} {cs : List Constant} {word : UInt64}
    (h : c.word ≠ word) : scanOf (c :: cs) word = (scanOf cs word).cons c := by
  rw [scanOf, scanOf, firstNamed?, List.find?_cons_of_neg (by simpa using h), ← firstNamed?]
  split <;> rfl

/-- A scan that ends well has read all constants up to the one that it found, and found
    the first. -/
theorem scan_eq_ok {storage : ElementType} {word : UInt64} {fields : List Field} {found : Scan}
    (h : scan storage word fields = .ok found) :
    found = scanOf (declared storage fields) word := by
  induction fields generalizing found with
  | nil =>
    cases h
    rfl
  | cons field fields ih =>
    rw [scan] at h
    by_cases hflag : field.flags.isEnumConstant = true
    · rw [if_pos hflag] at h
      cases hword : storageWord storage field.constant with
      | error e =>
        rw [hword] at h
        cases h
      | ok w =>
        have hhead : constantOf? storage field = some ⟨field.name, w⟩ := by
          rw [constantOf?, if_pos hflag, hword]
          rfl
        rw [declared, List.filterMap_cons_some hhead]
        rw [hword] at h
        by_cases heq : w = word
        · simp only [if_pos heq] at h
          cases h
          exact (scanOf_cons_of_eq (c := ⟨field.name, w⟩) heq).symm
        · simp only [if_neg heq] at h
          obtain ⟨rest, hscan, rfl⟩ := answer_map_eq_ok.mp h
          rw [scanOf_cons_of_ne (c := ⟨field.name, w⟩) heq, ih hscan]
          rfl
    · rw [if_neg hflag] at h
      have hhead : constantOf? storage field = none := by
        rw [constantOf?, if_neg hflag]
      rw [declared, List.filterMap_cons_none hhead]
      exact ih h

/-! ### The three ways -/

/-- Constants that together are a value: at least two of them, each the first with its
    word, in ascending order and without common bits. -/
structure Combines (cs : List Constant) (value : UInt64) (parts : List Constant) : Prop where
  several : 2 ≤ parts.length
  first : ∀ c ∈ parts, firstNamed? cs c.word = some c
  nonzero : ∀ c ∈ parts, c.word ≠ 0
  ascending : parts.Pairwise (fun a b => a.word < b.word)
  disjoint : PairwiseDisjoint parts
  union_eq : union parts = value
  sum_eq : (parts.map (fun c => c.word.toNat)).sum = value.toNat

/-- Constants without common bits inside a value, and a rest of it into which no constant
    fits any more. -/
structure LeavesRest (cs : List Constant) (value : UInt64) (parts : List Constant)
    (rest : UInt64) : Prop where
  subset : parts ⊆ cs
  disjoint : PairwiseDisjoint parts
  split : union parts ||| rest = value
  apart : union parts &&& rest = 0
  nonzero : rest ≠ 0
  stuck : ∀ c ∈ cs, c.word ≠ 0 → c.word &&& rest ≠ c.word

section Ways

variable (cs : List Constant) (isFlags : Bool) (separator : String) (value : UInt64)
  (text : String)

def IsExact : Prop :=
  ∃ c, firstNamed? cs value = some c ∧ text = c.name

/-- The text joins the names of constants that together are the value. -/
def IsCombination (parts : List Constant) : Prop :=
  firstNamed? cs value = none ∧ isFlags = true ∧ Combines cs value parts
    ∧ text = String.intercalate separator (parts.map Constant.name)

/-- The text is the number, since the enum is no set of flags, the value has no bits, or
    constants inside it leave a rest. -/
def IsNumber (parts : List Constant) (rest : UInt64) : Prop :=
  firstNamed? cs value = none ∧ text = value.toNat.repr
    ∧ (isFlags = false ∨ value = 0 ∨ LeavesRest cs value parts rest)

/-- The value is a combination of constants whose joined names spell its number. -/
def SpellsNumber : Prop :=
  ∃ parts, IsCombination cs isFlags separator value value.toNat.repr parts

end Ways

def ExactlyOne (a b c : Prop) : Prop :=
  (a ∧ ¬b ∧ ¬c) ∨ (¬a ∧ b ∧ ¬c) ∨ (¬a ∧ ¬b ∧ c)

theorem not_exactlyOne {a b c : Prop} (hb : b) (hc : c) : ¬ExactlyOne a b c := by
  rintro (⟨_, hnot, _⟩ | ⟨_, _, hnot⟩ | ⟨_, hnot, _⟩)
  · exact hnot hb
  · exact hnot hc
  · exact hnot hb

section Explanation

variable (cs : List Constant) (isFlags : Bool) (separator : String) (value : UInt64)
  (text : String)

/-- One way holds of the text, whichever constants it takes to say so. -/
def HasOneWay : Prop :=
  ExactlyOne (IsExact cs value text)
    (∃ parts, IsCombination cs isFlags separator value text parts)
    (∃ parts rest, IsNumber cs isFlags value text parts rest)

/-- One way holds of the text and of the constants that the scan takes with the rest that
    they leave. -/
def HasOneScannedWay : Prop :=
  let (taken, left) := explain value cs
  ExactlyOne (IsExact cs value text)
    (∃ parts, parts.Perm taken ∧ IsCombination cs isFlags separator value text parts)
    (IsNumber cs isFlags value text taken left)

/-- What the text says of the value. One way holds of the constants that the scan takes. One
    way holds of any constants at all, unless the text is the number and joined names spell
    it; a separator with a character that is no digit rules this out. -/
structure IsExplained : Prop where
  scanned : HasOneScannedWay cs isFlags separator value text
  unspelled : (text = value.toNat.repr → ¬SpellsNumber cs isFlags separator value) →
    HasOneWay cs isFlags separator value text
  separated : (∃ c ∈ separator.toList, c.isDigit = false) →
    HasOneWay cs isFlags separator value text

end Explanation

/-! ### Which way it is -/

variable {cs : List Constant} {isFlags : Bool} {separator text : String} {value : UInt64}

theorem several_of_union {parts : List Constant} (hsub : parts ⊆ cs)
    (hnone : firstNamed? cs value = none) (hne : value ≠ 0) (hunion : union parts = value) :
    2 ≤ parts.length := by
  match parts with
  | [] => exact absurd hunion.symm hne
  | [c] =>
    have hc : c.word = value := by rw [← hunion, union_cons, union, List.map_nil,
      List.foldr_nil, UInt64.or_zero]
    exact absurd hc (firstNamed?_eq_none_iff.mp hnone c (hsub List.mem_cons_self))
  | _ :: _ :: _ => exact Nat.le_add_left 2 _

theorem PairwiseDisjoint.perm {parts taken : List Constant} (h : PairwiseDisjoint taken)
    (hperm : parts.Perm taken) : PairwiseDisjoint parts := by
  refine (hperm.pairwise_iff ?_).mpr h
  intro a b hab
  rw [UInt64.and_comm]
  exact hab

theorem union_perm {parts taken : List Constant} (hperm : parts.Perm taken) :
    union parts = union taken := by
  apply eq_of_hasBit
  intro i
  rw [Bool.eq_iff_iff, hasBit_union, hasBit_union]
  constructor
  · rintro ⟨c, hc, hbit⟩
    exact ⟨c, hperm.mem_iff.mp hc, hbit⟩
  · rintro ⟨c, hc, hbit⟩
    exact ⟨c, hperm.mem_iff.mpr hc, hbit⟩

/-- Constants without common bits have different words, so they ascend strictly once they
    are sorted. -/
theorem ascending_mergeSort {taken : List Constant} (hdisjoint : PairwiseDisjoint taken)
    (hne : ∀ c ∈ taken, c.word ≠ 0) :
    (taken.mergeSort (fun a b => a.word ≤ b.word)).Pairwise (fun a b => a.word < b.word) := by
  have hperm := List.mergeSort_perm taken (fun a b => a.word ≤ b.word)
  have hsorted : (taken.mergeSort (fun a b => a.word ≤ b.word)).Pairwise
      (fun a b => decide (a.word ≤ b.word) = true) := by
    apply List.pairwise_mergeSort
    · intro a b c hab hbc
      exact decide_eq_true (UInt64.le_trans (of_decide_eq_true hab) (of_decide_eq_true hbc))
    · intro a b
      rw [Bool.or_eq_true, decide_eq_true_eq, decide_eq_true_eq]
      exact UInt64.le_total a.word b.word
  refine (hsorted.and (hdisjoint.perm hperm)).imp_of_mem ?_
  rintro a b ha _ ⟨hle, hapart⟩
  apply UInt64.lt_of_le_of_ne (of_decide_eq_true hle)
  intro heq
  rw [← heq, UInt64.and_self] at hapart
  exact hne a (hperm.mem_iff.mp ha) hapart

/-- A scan that leaves no rest has found the constants that are the value. -/
theorem combines_explain (hnone : firstNamed? cs value = none) (hne : value ≠ 0)
    (hrest : (explain value cs).2 = 0) :
    Combines cs value ((explain value cs).1.mergeSort (fun a b => a.word ≤ b.word)) := by
  have hperm := List.mergeSort_perm (explain value cs).1 (fun a b => a.word ≤ b.word)
  have hdisjoint := explain_disjoint.perm hperm
  have hunion : union ((explain value cs).1.mergeSort (fun a b => a.word ≤ b.word)) = value := by
    rw [union_perm hperm]
    exact explain_rest_eq_zero_iff.mp hrest
  exact {
    several := several_of_union
      (fun c hc => explain_sublist.subset (hperm.mem_iff.mp hc)) hnone hne hunion
    first := fun c hc => find?_of_mem_explain (hperm.mem_iff.mp hc)
    nonzero := fun c hc => (fits_of_mem_explain (hperm.mem_iff.mp hc)).1
    ascending := ascending_mergeSort explain_disjoint (fun c hc => (fits_of_mem_explain hc).1)
    disjoint := hdisjoint
    union_eq := hunion
    sum_eq := by rw [sum_toNat_eq_union hdisjoint, hunion] }

theorem leavesRest_explain (hrest : (explain value cs).2 ≠ 0) :
    LeavesRest cs value (explain value cs).1 (explain value cs).2 where
  subset := explain_sublist.subset
  disjoint := explain_disjoint
  split := explain_split.1
  apart := explain_split.2
  nonzero := hrest
  stuck c hc hne hfits := by
    have hstuck : covers (explain value cs).2 c.word = false := explain_stuck hc hne
    rw [covers, hfits, beq_self_eq_true] at hstuck
    cases hstuck

/-- The text of a value that no constant equals is one of the last two ways. -/
theorem isCombination_or_isNumber (hnone : firstNamed? cs value = none) :
    (∃ parts, parts.Perm (explain value cs).1 ∧ IsCombination cs isFlags separator value
        (unmatchedText isFlags separator value cs) parts)
      ∨ IsNumber cs isFlags value (unmatchedText isFlags separator value cs)
        (explain value cs).1 (explain value cs).2 := by
  cases isFlags with
  | false => exact Or.inr ⟨hnone, rfl, Or.inl rfl⟩
  | true =>
    by_cases hfound : (explain value cs).1 ≠ [] ∧ (explain value cs).2 = 0
    · -- a constant that was taken has bits, and they are bits of the value
      have hne : value ≠ 0 := by
        intro hzero
        obtain ⟨c, hc⟩ := List.exists_mem_of_ne_nil _ hfound.1
        have hfits := fits_of_mem_explain hc
        rw [hzero] at hfits
        exact Bool.false_ne_true
          ((not_covers_of_and_eq_zero hfits.1 UInt64.zero_and).symm.trans hfits.2)
      refine Or.inl ⟨_, List.mergeSort_perm _ (fun a b => a.word ≤ b.word), hnone, rfl,
        combines_explain hnone hne hfound.2, ?_⟩
      simp only [unmatchedText, flagsOf?, if_pos hfound, if_true]
    · -- no rest without a constant taken: then the value had no bits
      refine Or.inr ⟨hnone, ?_, ?_⟩
      · simp only [unmatchedText, flagsOf?, if_neg hfound, if_true]
      · by_cases hrest : (explain value cs).2 = 0
        · have hnil : (explain value cs).1 = [] := by
            by_contra hne
            exact hfound ⟨hne, hrest⟩
          have hsplit : union (explain value cs).1 ||| (explain value cs).2 = value :=
            explain_split.1
          rw [hnil, hrest] at hsplit
          exact Or.inr (Or.inl hsplit.symm)
        · exact Or.inr (Or.inr (leavesRest_explain hrest))

theorem Combines.value_ne_zero {parts : List Constant} (h : Combines cs value parts) :
    value ≠ 0 := by
  intro hzero
  obtain ⟨c, hc⟩ := List.exists_mem_of_length_pos (Nat.lt_of_lt_of_le Nat.zero_lt_two h.several)
  apply h.nonzero c hc
  rw [eq_zero_iff]
  intro i
  rw [← Bool.not_eq_true]
  intro hbit
  have hunion : hasBit (union parts) i = true := hasBit_union.mpr ⟨c, hc, hbit⟩
  rw [h.union_eq, hzero, hasBit_zero] at hunion
  cases hunion

/-- Where the scan finds a combination it leaves no rest, whatever the text is. -/
theorem IsCombination.not_isNumber {parts : List Constant}
    (h : IsCombination cs isFlags separator value text parts)
    (hperm : parts.Perm (explain value cs).1) :
    ¬IsNumber cs isFlags value text (explain value cs).1 (explain value cs).2 := by
  obtain ⟨_, hflags, hparts, _⟩ := h
  rintro ⟨_, _, hnone | hzero | hleaves⟩
  · rw [hflags] at hnone
    cases hnone
  · exact hparts.value_ne_zero hzero
  · apply hleaves.nonzero
    rw [explain_rest_eq_zero_iff, ← union_perm hperm]
    exact hparts.union_eq

/-- A value with a constant of its own is shown in no other way. -/
theorem IsExact.firstNamed?_ne_none (h : IsExact cs value text) : firstNamed? cs value ≠ none := by
  obtain ⟨c, hc, _⟩ := h
  rw [hc]
  exact Option.some_ne_none c

theorem hasOneScannedWay_of_first {c : Constant} (h : firstNamed? cs value = some c) :
    HasOneScannedWay cs isFlags separator value c.name := by
  have hexact : IsExact cs value c.name := ⟨c, h, rfl⟩
  refine Or.inl ⟨hexact, ?_, ?_⟩
  · rintro ⟨_, _, hnone, _⟩
    exact hexact.firstNamed?_ne_none hnone
  · rintro ⟨hnone, _⟩
    exact hexact.firstNamed?_ne_none hnone

theorem hasOneScannedWay_unmatchedText (hnone : firstNamed? cs value = none) :
    HasOneScannedWay cs isFlags separator value (unmatchedText isFlags separator value cs) := by
  have hexact : ¬IsExact cs value (unmatchedText isFlags separator value cs) := by
    intro h
    exact h.firstNamed?_ne_none hnone
  rcases isCombination_or_isNumber hnone with ⟨parts, hperm, hparts⟩ | hnumber
  · exact Or.inr (Or.inl ⟨hexact, ⟨parts, hperm, hparts⟩, hparts.not_isNumber hperm⟩)
  · refine Or.inr (Or.inr ⟨hexact, ?_, hnumber⟩)
    rintro ⟨parts, hperm, hparts⟩
    exact hparts.not_isNumber hperm hnumber

/-! ### Texts that spell a number -/

/-- A text that is both a combination and the number is a number that names spell. -/
theorem IsCombination.spellsNumber {parts others : List Constant} {rest : UInt64}
    (h : IsCombination cs isFlags separator value text parts)
    (hnumber : IsNumber cs isFlags value text others rest) :
    SpellsNumber cs isFlags separator value := by
  obtain ⟨_, hrepr, _⟩ := hnumber
  rw [hrepr] at h
  exact ⟨parts, h⟩

theorem mem_toList_intercalate {names : List String} {c : Char} (hlen : 2 ≤ names.length)
    (hc : c ∈ separator.toList) : c ∈ (String.intercalate separator names).toList := by
  match names with
  | name :: other :: names =>
    rw [String.toList_intercalate, List.map_cons, List.map_cons, List.intercalate_cons_cons]
    exact List.mem_append_left _ (List.mem_append_right _ hc)

/-- A combination has the separator in its text at least once. -/
theorem SpellsNumber.isDigit_of_mem_separator {c : Char}
    (h : SpellsNumber cs isFlags separator value) (hc : c ∈ separator.toList) :
    c.isDigit = true := by
  obtain ⟨parts, _, _, hparts, hjoined⟩ := h
  have hmem : c ∈ (String.intercalate separator (parts.map Constant.name)).toList := by
    refine mem_toList_intercalate ?_ hc
    rw [List.length_map]
    exact hparts.several
  rw [← hjoined, Nat.toList_repr] at hmem
  exact Text.allDigits_toDigits _ c hmem

/-- Where no names spell the number of the value, it does not take the scan to tell a
    combination from a number. -/
theorem HasOneScannedWay.hasOneWay (h : HasOneScannedWay cs isFlags separator value text)
    (hspells : text = value.toNat.repr → ¬SpellsNumber cs isFlags separator value) :
    HasOneWay cs isFlags separator value text := by
  have hapart {parts others : List Constant} {rest : UInt64}
      (hparts : IsCombination cs isFlags separator value text parts) :
      ¬IsNumber cs isFlags value text others rest := by
    intro hnumber
    exact hspells hnumber.2.1 (hparts.spellsNumber hnumber)
  rcases h with ⟨hexact, _, _⟩ | ⟨hexact, ⟨parts, _, hparts⟩, _⟩ | ⟨hexact, _, hnumber⟩
  · refine Or.inl ⟨hexact, ?_, ?_⟩
    · rintro ⟨_, hnone, _⟩
      exact hexact.firstNamed?_ne_none hnone
    · rintro ⟨_, _, hnone, _⟩
      exact hexact.firstNamed?_ne_none hnone
  · refine Or.inr (Or.inl ⟨hexact, ⟨parts, hparts⟩, ?_⟩)
    rintro ⟨_, _, hnumber⟩
    exact hapart hparts hnumber
  · refine Or.inr (Or.inr ⟨hexact, ?_, ⟨_, _, hnumber⟩⟩)
    rintro ⟨_, hparts⟩
    exact hapart hparts hnumber

theorem HasOneScannedWay.isExplained (h : HasOneScannedWay cs isFlags separator value text) :
    IsExplained cs isFlags separator value text where
  scanned := h
  unspelled := h.hasOneWay
  separated := by
    rintro ⟨c, hc, hdigit⟩
    refine h.hasOneWay ?_
    intro _ hspells
    cases hdigit.symm.trans (hspells.isDigit_of_mem_separator hc)

end Enumeration

/-! ### Every enum value -/

open Enumeration in
/-- **The text of an enum value is exact, a combination or the number, and only one of
    these** unless joined names spell the number.  Each says what the value is. -/
theorem Debuggee.enumText_explained {V : Type} {d : Debuggee V} {separator text : String}
    {ty : TypeDesc} {data : Bytes} (h : d.enumText separator ty data = .ok text) :
    ∃ fields attributes storage value, d.fields ty = .ok fields
      ∧ d.attributes ty = .ok attributes ∧ d.storageType ty = .ok storage
      ∧ storageWord storage data = .ok value
      ∧ IsExplained (declared storage fields) (Attribute.anyMarksFlags attributes) separator
        value text := by
  obtain ⟨storage, hstorage, h⟩ := answer_bind_eq_ok.mp h
  obtain ⟨value, hvalue, h⟩ := answer_bind_eq_ok.mp h
  obtain ⟨attributes, hattributes, h⟩ := answer_bind_eq_ok.mp h
  obtain ⟨fields, hfields, h⟩ := answer_bind_eq_ok.mp h
  obtain ⟨found, hfound, h⟩ := answer_bind_eq_ok.mp h
  refine ⟨fields, attributes, storage, value, hfields, hattributes, hstorage, hvalue, ?_⟩
  have hscan : found = scanOf (declared storage fields) value := scan_eq_ok hfound
  rw [scanOf] at hscan
  cases hfirst : firstNamed? (declared storage fields) value with
  | some c =>
    rw [hfirst] at hscan
    subst hscan
    cases h
    exact (hasOneScannedWay_of_first hfirst).isExplained
  | none =>
    rw [hfirst] at hscan
    subst hscan
    cases h
    exact (hasOneScannedWay_unmatchedText hfirst).isExplained

open Enumeration in
theorem Debuggee.enumText_explained_overlapping :
    let d := (Recording.ofLists []
      [{ token := ⟨0x02000010⟩
         name := .ok "Access"
         attributes := .ok [⟨⟨0x0c000001⟩, Attribute.flagsConstructor⟩]
         fields := .ok
           [.ofConstant ⟨0x04000001⟩ "Execute" .uint8 [4],
            .ofConstant ⟨0x04000002⟩ "Both" .uint8 [3],
            .ofInstance ⟨0x04000003⟩ "value__" .uint8,
            .ofConstant ⟨0x04000004⟩ "Read" .uint8 [1],
            .ofConstant ⟨0x04000005⟩ "Write" .uint8 [2]] }]).debuggee
    let ty := TypeDesc.declared 1 ⟨0x02000010⟩ .valueType
    d.enumText " | " ty [7] = .ok "Both | Execute"
      ∧ ∃ fields attributes storage value, d.fields ty = .ok fields
        ∧ d.attributes ty = .ok attributes ∧ d.storageType ty = .ok storage
        ∧ storageWord storage [7] = .ok value
        ∧ IsExplained (declared storage fields) (Attribute.anyMarksFlags attributes) " | "
          value "Both | Execute" := by
  intro d ty
  have shown : d.enumText " | " ty [7] = .ok "Both | Execute" := by cbv
  exact ⟨shown, enumText_explained shown⟩

open Enumeration in
/-- The names of 6 and 8 spell 14, and behind 12 a rest of 14 is left into which no constant
    fits.  So the text of 14 is a combination and a number, while `LowOuter`, the other
    combination of 14, would be no number. -/
theorem Debuggee.enumText_spells_number :
    let d := (Recording.ofLists []
      [{ token := ⟨0x02000010⟩
         name := .ok "Access"
         attributes := .ok [⟨⟨0x0c000001⟩, Attribute.flagsConstructor⟩]
         fields := .ok
           [.ofConstant ⟨0x04000001⟩ "1" .uint8 [6],
            .ofConstant ⟨0x04000002⟩ "4" .uint8 [8],
            .ofConstant ⟨0x04000003⟩ "Rest" .uint8 [12],
            .ofConstant ⟨0x04000004⟩ "Low" .uint8 [4],
            .ofConstant ⟨0x04000005⟩ "Outer" .uint8 [10],
            .ofInstance ⟨0x04000006⟩ "value__" .uint8] }]).debuggee
    let ty := TypeDesc.declared 1 ⟨0x02000010⟩ .valueType
    d.enumText "" ty [14] = .ok "14"
      ∧ ¬∃ fields attributes storage value, d.fields ty = .ok fields
        ∧ d.attributes ty = .ok attributes ∧ d.storageType ty = .ok storage
        ∧ storageWord storage [14] = .ok value
        ∧ HasOneWay (declared storage fields) (Attribute.anyMarksFlags attributes) "" value
          "14" := by
  intro d ty
  refine ⟨by cbv, ?_⟩
  rintro ⟨fields, attributes, storage, value, hfields, hattributes, hstorage, hvalue, hone⟩
  cases hfields
  cases hattributes
  cases hstorage
  cases hvalue
  have hparts : Combines [⟨"1", 6⟩, ⟨"4", 8⟩, ⟨"Rest", 12⟩, ⟨"Low", 4⟩, ⟨"Outer", 10⟩] 14
      [⟨"1", 6⟩, ⟨"4", 8⟩] := by
    constructor <;> decide
  have hrest : LeavesRest [⟨"1", 6⟩, ⟨"4", 8⟩, ⟨"Rest", 12⟩, ⟨"Low", 4⟩, ⟨"Outer", 10⟩] 14
      [⟨"Rest", 12⟩] 2 := by
    constructor <;> decide
  refine not_exactlyOne ?_ ?_ hone
  · exact ⟨_, rfl, rfl, hparts, rfl⟩
  · exact ⟨_, _, rfl, rfl, Or.inr (Or.inr hrest)⟩

end Inspector
