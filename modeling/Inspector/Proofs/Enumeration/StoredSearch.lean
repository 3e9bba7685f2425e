/-
  Inspector/Proofs/Enumeration/StoredSearch.lean
  ==============================================
  **An enum is decided by its stored bits.**

  The search for the names of a value compares words of 64 bits, but it could as well be run
  on the words as they are stored.  The search given here asks the same questions of the
  stored words.  Since widening keeps equality and the inclusion of bits, both searches
  answer every question alike and clear the same stored bits, so they go side by side: up
  to the constant that equals the value (`scan_widen`), and through the flags that are
  taken (`explain_widen`).  The words are in the same order too, so the text of every value
  is the same (`enumText_eq_stored`).
-/
import Inspector.Debuggee.Recording
import Inspector.Proofs.Enumeration.Widening
import Mathlib

namespace Inspector

namespace Enumeration

variable {storage : ElementType} {width n : Nat}

/-! ### The search on stored words -/

/-- A constant with its word as it is stored. -/
structure StoredConstant (n : Nat) where
  name : String
  word : BitVec n
deriving DecidableEq

def StoredConstant.widen {n : Nat} (signed : Bool) (c : StoredConstant n) : Constant :=
  ⟨c.name, Enumeration.widen signed c.word⟩

/-- What the constants of an enum say about a stored word. -/
inductive StoredScan (n : Nat) where
  | exact (name : String)
  | noMatch (constants : List (StoredConstant n))
deriving DecidableEq

def StoredScan.cons {n : Nat} (c : StoredConstant n) : StoredScan n → StoredScan n
  | exact name => exact name
  | noMatch cs => noMatch (c :: cs)

def StoredScan.widen {n : Nat} (signed : Bool) : StoredScan n → Scan
  | exact name => .exact name
  | noMatch cs => .noMatch (cs.map (StoredConstant.widen signed))

/-- Go through the constants up to the first that is stored as the word is. -/
def scanStored (word : BitVec (8 * width)) : List Field → Except Error (StoredScan (8 * width))
  | [] => .ok (.noMatch [])
  | field :: rest =>
    if field.flags.isEnumConstant then
      match readStored width field.constant with
      | .error e => .error e
      | .ok w =>
        if w = word then .ok (.exact field.name)
        else (scanStored word rest).map (StoredScan.cons ⟨field.name, w⟩)
    else scanStored word rest

/-- Take every constant whose stored bits are all still unexplained. -/
def explainStored {n : Nat} :
    BitVec n → List (StoredConstant n) → List (StoredConstant n) × BitVec n
  | rest, [] => ([], rest)
  | rest, c :: cs =>
    if c.word ≠ 0 ∧ c.word &&& rest = c.word then
      let (taken, rest) := explainStored (rest &&& ~~~c.word) cs
      (c :: taken, rest)
    else explainStored rest cs

/-- The text of a value that no constant equals. Only its number is that of the widened
    word. -/
def unmatchedStoredText {n : Nat} (isFlags : Bool) (separator : String) (signed : Bool)
    (word : BitVec n) (constants : List (StoredConstant n)) : String :=
  let (taken, rest) := explainStored word constants
  if isFlags ∧ taken ≠ [] ∧ rest = 0 then
    String.intercalate separator
      ((taken.mergeSort (fun a b => a.word ≤ b.word)).map StoredConstant.name)
  else (widen signed word).toNat.repr

/-! ### Both searches side by side -/

theorem scan_widen (h : storage.integerWidth? = some width) (word : BitVec (8 * width))
    (fields : List Field) :
    scan storage (widen storage.isSigned word) fields
      = (scanStored word fields).map (StoredScan.widen storage.isSigned) := by
  induction fields with
  | nil => rfl
  | cons field fields ih =>
    rw [scan, scanStored]
    by_cases hflag : field.flags.isEnumConstant = true
    · rw [if_pos hflag, if_pos hflag, storageWord_eq_readStored h]
      cases readStored width field.constant with
      | error e => rfl
      | ok w =>
        simp only [answer_ok_map, widen_inj (bits_le_of_integerWidth? h)]
        by_cases heq : w = word
        · rw [if_pos heq, if_pos heq]
          rfl
        · rw [if_neg heq, if_neg heq, ih, answer_map_map, answer_map_map]
          congr 1
          funext found
          cases found <;> rfl
    · rw [if_neg hflag, if_neg hflag, ih]

section Explain

variable {signed : Bool}

theorem covers_widen (h : n ≤ 64) (rest part : BitVec n) :
    covers (widen signed rest) (widen signed part) = true ↔ part &&& rest = part := by
  rw [covers, beq_iff_eq, ← widen_and h, widen_inj h]

/-- A step of the one search takes a constant exactly if that of the other does, and then
    both clear the same stored bits. -/
theorem explain_widen (h : n ≤ 64) (rest : BitVec n) (cs : List (StoredConstant n)) :
    explain (widen signed rest) (cs.map (StoredConstant.widen signed))
      = ((explainStored rest cs).1.map (StoredConstant.widen signed),
        widen signed (explainStored rest cs).2) := by
  induction cs generalizing rest with
  | nil => rfl
  | cons c cs ih =>
    have hfits : ((c.widen signed).word ≠ 0
          ∧ covers (widen signed rest) (c.widen signed).word = true)
        ↔ (c.word ≠ 0 ∧ c.word &&& rest = c.word) :=
      and_congr (not_congr (widen_eq_zero_iff h)) (covers_widen h rest c.word)
    rw [List.map_cons, explainStored]
    by_cases htaken : c.word ≠ 0 ∧ c.word &&& rest = c.word
    · have hclear : widen signed rest &&& ~~~(c.widen signed).word
          = widen signed (rest &&& ~~~c.word) := (widen_and_not h signed rest c.word).symm
      rw [explain_cons_of_fits (hfits.mpr htaken), if_pos htaken, hclear, ih]
      rfl
    · rw [explain_cons_of_not_fits (fun hwide => htaken (hfits.mp hwide)), if_neg htaken, ih]

theorem map_name_mergeSort (h : n ≤ 64) (taken : List (StoredConstant n)) :
    ((taken.map (StoredConstant.widen signed)).mergeSort
        (fun a b => a.word ≤ b.word)).map Constant.name
      = (taken.mergeSort (fun a b => a.word ≤ b.word)).map StoredConstant.name := by
  have horder : ∀ a ∈ taken, ∀ b ∈ taken, decide (a.word ≤ b.word)
      = decide ((a.widen signed).word ≤ (b.widen signed).word) := by
    intro a _ b _
    rw [decide_eq_decide]
    exact (widen_le_iff h).symm
  rw [← List.map_mergeSort horder, List.map_map]
  rfl

theorem unmatchedText_widen (h : n ≤ 64) (isFlags : Bool) (separator : String)
    (word : BitVec n) (cs : List (StoredConstant n)) :
    unmatchedText isFlags separator (widen signed word) (cs.map (StoredConstant.widen signed))
      = unmatchedStoredText isFlags separator signed word cs := by
  have hfound : ((explain (widen signed word) (cs.map (StoredConstant.widen signed))).1 ≠ []
        ∧ (explain (widen signed word) (cs.map (StoredConstant.widen signed))).2 = 0)
      ↔ ((explainStored word cs).1 ≠ [] ∧ (explainStored word cs).2 = 0) := by
    rw [explain_widen h, widen_eq_zero_iff h, ne_eq, List.map_eq_nil_iff]
  cases isFlags with
  | false => rfl
  | true =>
    by_cases hall : (explainStored word cs).1 ≠ [] ∧ (explainStored word cs).2 = 0
    · simp only [unmatchedText, flagsOf?, if_pos (hfound.mpr hall), if_true]
      rw [explain_widen h, map_name_mergeSort h]
      simp only [unmatchedStoredText, true_and, if_pos hall]
    · simp only [unmatchedText, flagsOf?, if_neg (fun hwide => hall (hfound.mp hwide)), if_true]
      simp only [unmatchedStoredText, true_and, if_neg hall]

end Explain

end Enumeration

/-! ### Every enum -/

namespace Debuggee

open Enumeration

variable {V : Type}

/-- The text of an enum value, found among the words as they are stored. -/
def storedEnumText (d : Debuggee V) (width : Nat) (signed : Bool) (separator : String)
    (ty : TypeDesc) (data : Bytes) : Answer String := do
  let word ← readStored width data
  let isFlags := Attribute.anyMarksFlags (← d.attributes ty)
  match ← scanStored word (← d.fields ty) with
  | .exact name => return name
  | .noMatch constants => return unmatchedStoredText isFlags separator signed word constants

theorem enumText_eq_stored {d : Debuggee V} {ty : TypeDesc} {storage : ElementType} {width : Nat}
    (hstorage : d.storageType ty = .ok storage) (h : storage.integerWidth? = some width)
    (separator : String) (data : Bytes) :
    d.enumText separator ty data = d.storedEnumText width storage.isSigned separator ty data := by
  rw [enumText, storedEnumText, hstorage, answer_ok_bind, storageWord_eq_readStored h]
  cases readStored width data with
  | error e => rfl
  | ok word =>
    simp only [answer_ok_map, answer_ok_bind]
    cases d.attributes ty with
    | error e => rfl
    | ok attributes =>
      cases d.fields ty with
      | error e => rfl
      | ok fields =>
        simp only [answer_ok_bind, scan_widen h]
        cases scanStored word fields with
        | error e => rfl
        | ok found =>
          cases found with
          | exact name => rfl
          | noMatch cs =>
            exact congrArg Except.ok
              (unmatchedText_widen (bits_le_of_integerWidth? h) _ separator word cs)

/-- **What an enum value is called is decided by its stored bits.**  For a storage type of its
    own width, widening keeps equality, zero, common bits and cleared bits, so a search
    among the words as they are stored finds the same constant, takes the same flags and
    shows the same text as the search among the widened words. -/
theorem widening_keepsWords {storage : ElementType} {width : Nat}
    (h : storage.integerWidth? = some width) :
    KeepsWords storage width
      ∧ (∀ (word : BitVec (8 * width)) fields,
        scan storage (widen storage.isSigned word) fields
          = (scanStored word fields).map (StoredScan.widen storage.isSigned))
      ∧ (∀ (word : BitVec (8 * width)) cs,
        explain (widen storage.isSigned word) (cs.map (StoredConstant.widen storage.isSigned))
          = ((explainStored word cs).1.map (StoredConstant.widen storage.isSigned),
            widen storage.isSigned (explainStored word cs).2))
      ∧ (∀ (V : Type) (d : Debuggee V) ty separator data, d.storageType ty = .ok storage →
        d.enumText separator ty data
          = d.storedEnumText width storage.isSigned separator ty data) := by
  refine ⟨keepsWords_of_integerWidth? h, scan_widen h,
    explain_widen (bits_le_of_integerWidth? h), ?_⟩
  intro V d ty separator data hstorage
  exact enumText_eq_stored hstorage h separator data

/-- Flags in a signed byte. The last one is the sign, of which widening makes 57 bits. -/
theorem widening_keepsWords_sign :
    let d := (Recording.ofLists []
      [{ token := ⟨0x02000010⟩
         name := .ok "Bits"
         attributes := .ok [⟨⟨0x0c000001⟩, Attribute.flagsConstructor⟩]
         fields := .ok
           [.ofInstance ⟨0x04000001⟩ "value__" .int8,
            .ofConstant ⟨0x04000002⟩ "Sign" .int8 [0x80],
            .ofConstant ⟨0x04000003⟩ "Low" .int8 [1],
            .ofConstant ⟨0x04000004⟩ "High" .int8 [6]] }]).debuggee
    let ty := TypeDesc.declared 1 ⟨0x02000010⟩ .valueType
    ElementType.int8.integerWidth? = some 1 ∧ d.storageType ty = .ok .int8
      ∧ KeepsWords .int8 1
      ∧ d.storedEnumText 1 true " | " ty [0x86] = .ok "High | Sign"
      ∧ d.enumText " | " ty [0x86] = d.storedEnumText 1 true " | " ty [0x86] := by
  intro d ty
  have hstorage : d.storageType ty = .ok .int8 := by cbv
  have shown : d.storedEnumText 1 true " | " ty [0x86] = .ok "High | Sign" := by cbv
  have h : ElementType.int8.integerWidth? = some 1 := rfl
  exact ⟨h, hstorage, (widening_keepsWords h).1, shown,
    (widening_keepsWords h).2.2.2 Nat d ty " | " [0x86] hstorage⟩

end Debuggee

end Inspector
