/-
  Inspector/Proofs/Enumeration/Flags.lean
  =======================================
  **A scan for flags accounts for every bit.**

  `explain` goes through the constants in the order of their declaration and takes each
  one whose bits are all still free.  Its result depends on that order, and the words of
  the constants may overlap in any way, so nothing can be said about it from the sizes of
  the words alone.  What carries the proofs is the view of a word as the set of its bits:
  the words that are taken are pairwise disjoint, they and the rest make up the word that
  the scan started from, and nothing fits into the rest any more.

  It follows that no word is taken twice (`find?_of_mem_explain`): a second constant with
  the same word would need bits that the first one has used up.
-/
import Inspector.Enumeration
import Mathlib.Data.List.Basic
import Mathlib.Tactic.Ring

namespace Inspector.Enumeration

/-! ### Words as sets of bits -/

def hasBit (word : UInt64) (i : Nat) : Bool :=
  word.toBitVec.getLsbD i

theorem eq_of_hasBit {a b : UInt64} (h : ∀ i, hasBit a i = hasBit b i) : a = b := by
  apply UInt64.eq_of_toBitVec_eq
  apply BitVec.eq_of_getLsbD_eq
  intro i _
  exact h i

@[simp] theorem hasBit_zero (i : Nat) : hasBit 0 i = false := by
  simp [hasBit]

@[simp] theorem hasBit_and (a b : UInt64) (i : Nat) :
    hasBit (a &&& b) i = (hasBit a i && hasBit b i) := by
  simp [hasBit]

@[simp] theorem hasBit_or (a b : UInt64) (i : Nat) :
    hasBit (a ||| b) i = (hasBit a i || hasBit b i) := by
  simp [hasBit]

@[simp] theorem hasBit_and_not (a b : UInt64) (i : Nat) :
    hasBit (a &&& ~~~b) i = (hasBit a i && !hasBit b i) := by
  by_cases hi : i < 64
  · simp [hasBit, hi]
  · have hout : a.toBitVec.getLsbD i = false := BitVec.getLsbD_of_ge _ _ (by omega)
    simp [hasBit, hout]

theorem eq_zero_iff {word : UInt64} : word = 0 ↔ ∀ i, hasBit word i = false := by
  constructor
  · rintro rfl i
    exact hasBit_zero i
  · intro h
    apply eq_of_hasBit
    intro i
    rw [h i, hasBit_zero]

theorem covers_iff {word part : UInt64} :
    covers word part = true ↔ ∀ i, hasBit part i = true → hasBit word i = true := by
  rw [covers, beq_iff_eq]
  constructor
  · intro h i hi
    rw [← h, hasBit_and, Bool.and_eq_true] at hi
    exact hi.2
  · intro h
    apply eq_of_hasBit
    intro i
    cases hi : hasBit part i with
    | false => rw [hasBit_and, hi, Bool.false_and]
    | true => rw [hasBit_and, hi, h i hi, Bool.true_and]

theorem and_eq_zero_iff {a b : UInt64} :
    a &&& b = 0 ↔ ∀ i, hasBit a i = true → hasBit b i = false := by
  rw [eq_zero_iff]
  constructor
  · intro h i hi
    have hand := h i
    rw [hasBit_and, hi, Bool.true_and] at hand
    exact hand
  · intro h i
    rw [hasBit_and]
    cases hi : hasBit a i with
    | false => rfl
    | true => rw [h i hi, Bool.and_false]

/-! ### All bits of some constants -/

/-- The words of constants, joined bit by bit. -/
def union (cs : List Constant) : UInt64 :=
  (cs.map Constant.word).foldr (· ||| ·) 0

theorem union_cons (c : Constant) (cs : List Constant) :
    union (c :: cs) = c.word ||| union cs := rfl

theorem hasBit_union {cs : List Constant} {i : Nat} :
    hasBit (union cs) i = true ↔ ∃ c ∈ cs, hasBit c.word i = true := by
  induction cs with
  | nil => simp [union]
  | cons c cs ih =>
    rw [List.exists_mem_cons_iff, ← ih, union_cons, hasBit_or, Bool.or_eq_true]

theorem and_union_eq_zero {word : UInt64} {cs : List Constant}
    (h : ∀ c ∈ cs, word &&& c.word = 0) : word &&& union cs = 0 := by
  rw [and_eq_zero_iff]
  intro i hi
  rw [← Bool.not_eq_true, hasBit_union]
  rintro ⟨c, hc, hbit⟩
  rw [and_eq_zero_iff.mp (h c hc) i hi] at hbit
  cases hbit

theorem toNat_or_of_and_eq_zero {a b : UInt64} (h : a &&& b = 0) :
    (a ||| b).toNat = a.toNat + b.toNat := by
  have hbits : a.toBitVec &&& b.toBitVec = 0#64 := congrArg UInt64.toBitVec h
  calc
    (a ||| b).toNat = (a.toBitVec ||| b.toBitVec).toNat := rfl
    _ = (a.toBitVec + b.toBitVec).toNat := by rw [BitVec.add_eq_or_of_and_eq_zero _ _ hbits]
    _ = a.toNat + b.toNat := BitVec.toNat_add_of_and_eq_zero hbits

def PairwiseDisjoint (cs : List Constant) : Prop :=
  cs.Pairwise (fun a b => a.word &&& b.word = 0)

instance (cs : List Constant) : Decidable (PairwiseDisjoint cs) :=
  inferInstanceAs (Decidable (cs.Pairwise (fun a b => a.word &&& b.word = 0)))

/-- Words without common bits add up to the word of all their bits. -/
theorem sum_toNat_eq_union {cs : List Constant} (h : PairwiseDisjoint cs) :
    (cs.map (fun c => c.word.toNat)).sum = (union cs).toNat := by
  induction cs with
  | nil => rfl
  | cons c cs ih =>
    obtain ⟨hc, hcs⟩ := List.pairwise_cons.mp h
    calc
      ((c :: cs).map (fun c => c.word.toNat)).sum
          = c.word.toNat + (cs.map (fun c => c.word.toNat)).sum := List.sum_cons
      _ = c.word.toNat + (union cs).toNat := by rw [ih hcs]
      _ = (c.word ||| union cs).toNat :=
        (toNat_or_of_and_eq_zero (and_union_eq_zero hc)).symm

/-! ### One constant of a scan -/

theorem explain_cons_of_fits {rest : UInt64} {c : Constant} {cs : List Constant}
    (h : c.word ≠ 0 ∧ covers rest c.word = true) :
    explain rest (c :: cs)
      = (c :: (explain (rest &&& ~~~c.word) cs).1, (explain (rest &&& ~~~c.word) cs).2) := by
  rw [explain, if_pos h]

theorem explain_cons_of_not_fits {rest : UInt64} {c : Constant} {cs : List Constant}
    (h : ¬(c.word ≠ 0 ∧ covers rest c.word = true)) :
    explain rest (c :: cs) = explain rest cs := by
  rw [explain, if_neg h]

theorem covers_of_covers_and_not {rest part other : UInt64}
    (h : covers (rest &&& ~~~part) other = true) :
    covers rest other = true ∧ part &&& other = 0 := by
  rw [covers_iff] at h
  constructor
  · rw [covers_iff]
    intro i hi
    have hbit := h i hi
    rw [hasBit_and_not, Bool.and_eq_true] at hbit
    exact hbit.1
  · rw [and_eq_zero_iff]
    intro i hi
    rw [← Bool.not_eq_true]
    intro hother
    have hbit := h i hother
    rw [hasBit_and_not, hi, Bool.not_true, Bool.and_false] at hbit
    cases hbit

/-- A word that has bits does not fit where all its bits are cleared. -/
theorem not_covers_of_and_eq_zero {rest part : UInt64} (hne : part ≠ 0)
    (h : rest &&& part = 0) : covers rest part = false := by
  rw [← Bool.not_eq_true, covers_iff]
  intro hcovers
  apply hne
  rw [eq_zero_iff]
  intro i
  rw [← Bool.not_eq_true]
  intro hi
  have hbit := and_eq_zero_iff.mp h i (hcovers i hi)
  rw [hi] at hbit
  cases hbit

/-! ### A whole scan -/

variable {rest : UInt64} {cs : List Constant}

theorem explain_sublist : (explain rest cs).1.Sublist cs := by
  induction cs generalizing rest with
  | nil => exact List.Sublist.refl _
  | cons c cs ih =>
    by_cases hfits : c.word ≠ 0 ∧ covers rest c.word = true
    · rw [explain_cons_of_fits hfits]
      exact ih.cons_cons c
    · rw [explain_cons_of_not_fits hfits]
      exact ih.cons c

theorem fits_of_mem_explain {c : Constant} (hc : c ∈ (explain rest cs).1) :
    c.word ≠ 0 ∧ covers rest c.word = true := by
  induction cs generalizing rest with
  | nil => cases hc
  | cons first cs ih =>
    by_cases hfits : first.word ≠ 0 ∧ covers rest first.word = true
    · rw [explain_cons_of_fits hfits, List.mem_cons] at hc
      rcases hc with rfl | hc
      · exact hfits
      · -- it fits into what the first one left, so into all of it
        obtain ⟨hne, hcovers⟩ := ih hc
        exact ⟨hne, (covers_of_covers_and_not hcovers).1⟩
    · rw [explain_cons_of_not_fits hfits] at hc
      exact ih hc

theorem explain_disjoint : PairwiseDisjoint (explain rest cs).1 := by
  induction cs generalizing rest with
  | nil => exact List.Pairwise.nil
  | cons c cs ih =>
    by_cases hfits : c.word ≠ 0 ∧ covers rest c.word = true
    · rw [explain_cons_of_fits hfits]
      refine List.pairwise_cons.mpr ⟨?_, ih⟩
      intro other hother
      exact (covers_of_covers_and_not (fits_of_mem_explain hother).2).2
    · rw [explain_cons_of_not_fits hfits]
      exact ih

/-- The rest keeps exactly the bits that no taken constant has. -/
theorem explain_rest : (explain rest cs).2 = rest &&& ~~~union (explain rest cs).1 := by
  induction cs generalizing rest with
  | nil =>
    apply eq_of_hasBit
    intro i
    simp [explain, union]
  | cons c cs ih =>
    by_cases hfits : c.word ≠ 0 ∧ covers rest c.word = true
    · rw [explain_cons_of_fits hfits, ih]
      apply eq_of_hasBit
      intro i
      rw [hasBit_and_not, hasBit_and_not, hasBit_and_not, union_cons, hasBit_or, Bool.not_or,
        Bool.and_assoc]
    · rw [explain_cons_of_not_fits hfits, ih]

/-- The taken words and the rest make up the word, and they share no bit. -/
theorem explain_split :
    union (explain rest cs).1 ||| (explain rest cs).2 = rest
      ∧ union (explain rest cs).1 &&& (explain rest cs).2 = 0 := by
  have hinside : ∀ i, hasBit (union (explain rest cs).1) i = true → hasBit rest i = true := by
    intro i hi
    obtain ⟨c, hc, hbit⟩ := hasBit_union.mp hi
    exact covers_iff.mp (fits_of_mem_explain hc).2 i hbit
  rw [explain_rest]
  constructor
  · apply eq_of_hasBit
    intro i
    rw [hasBit_or, hasBit_and_not]
    cases hi : hasBit (union (explain rest cs).1) i with
    | false => rw [Bool.not_false, Bool.and_true, Bool.false_or]
    | true => rw [hinside i hi, Bool.true_or]
  · rw [and_eq_zero_iff]
    intro i hi
    rw [hasBit_and_not, hi, Bool.not_true, Bool.and_false]

/-- A scan leaves nothing exactly where the taken words make up the whole word. -/
theorem explain_rest_eq_zero_iff :
    (explain rest cs).2 = 0 ↔ union (explain rest cs).1 = rest := by
  constructor
  · intro hrest
    have hsplit : union (explain rest cs).1 ||| (explain rest cs).2 = rest := explain_split.1
    rwa [hrest, UInt64.or_zero] at hsplit
  · intro hunion
    rw [explain_rest, hunion, eq_zero_iff]
    intro i
    rw [hasBit_and_not, Bool.and_not_self]

theorem explain_rest_and_eq_zero {c : Constant} (hc : c ∈ (explain rest cs).1) :
    (explain rest cs).2 &&& c.word = 0 := by
  rw [explain_rest, and_eq_zero_iff]
  intro i hi
  rw [← Bool.not_eq_true]
  intro hbit
  rw [hasBit_and_not, hasBit_union.mpr ⟨c, hc, hbit⟩, Bool.not_true, Bool.and_false] at hi
  cases hi

theorem covers_of_covers_explain {part : UInt64} (h : covers (explain rest cs).2 part = true) :
    covers rest part = true := by
  rw [explain_rest] at h
  exact (covers_of_covers_and_not h).1

/-- Nothing fits into the rest: a constant that was taken has lost its bits, and one that
    was passed over did not even fit when there were more bits left. -/
theorem explain_stuck {c : Constant} (hc : c ∈ cs) (hne : c.word ≠ 0) :
    covers (explain rest cs).2 c.word = false := by
  induction cs generalizing rest with
  | nil => cases hc
  | cons first cs ih =>
    by_cases hfits : first.word ≠ 0 ∧ covers rest first.word = true
    · rcases List.mem_cons.mp hc with rfl | hc
      · apply not_covers_of_and_eq_zero hne
        apply explain_rest_and_eq_zero
        rw [explain_cons_of_fits hfits]
        exact List.mem_cons_self
      · rw [explain_cons_of_fits hfits]
        exact ih hc
    · rcases List.mem_cons.mp hc with rfl | hc
      · rw [← Bool.not_eq_true]
        intro hcovers
        exact hfits ⟨hne, covers_of_covers_explain hcovers⟩
      · rw [explain_cons_of_not_fits hfits]
        exact ih hc

theorem find?_of_mem_explain {c : Constant} (hc : c ∈ (explain rest cs).1) :
    cs.find? (·.word == c.word) = some c := by
  induction cs generalizing rest with
  | nil => cases hc
  | cons first cs ih =>
    by_cases hfits : first.word ≠ 0 ∧ covers rest first.word = true
    · rw [explain_cons_of_fits hfits, List.mem_cons] at hc
      rcases hc with rfl | hc
      · exact List.find?_cons_of_pos BEq.rfl
      · have hapart := (covers_of_covers_and_not (fits_of_mem_explain hc).2).2
        have hne : first.word ≠ c.word := by
          intro heq
          rw [heq, UInt64.and_self] at hapart
          exact (fits_of_mem_explain hc).1 hapart
        rw [List.find?_cons_of_neg (by simpa using hne)]
        exact ih hc
    · rw [explain_cons_of_not_fits hfits] at hc
      have hne : first.word ≠ c.word := by
        intro heq
        apply hfits
        rw [heq]
        exact fits_of_mem_explain hc
      rw [List.find?_cons_of_neg (by simpa using hne)]
      exact ih hc

end Inspector.Enumeration
