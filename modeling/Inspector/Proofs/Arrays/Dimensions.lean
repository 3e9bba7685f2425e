/-
  Inspector/Proofs/Arrays/Dimensions.lean
  =======================================
  **The dimensions of an array are read back from their text.**

  A dimension is written as its extent, or as its first and last index with two points
  between them.  The extent of the second form is not written, but the last index tells
  it, also where it lies past 32 bits and where there is none, so that it is less than the
  first one (`read?_text`).  No text of a dimension has a comma in it, so a row of them
  comes apart at the commas (`readDimensions?_intercalate`).  The text of a whole array
  therefore has the name and the brackets of its elements, and its dimensions, and
  nothing else in it (`shapeText_inj`).
-/
import Inspector.ArrayShape
import Inspector.Proofs.Text.Digits

namespace Inspector

open Text

/-- A lower bound or a rank that is not zero is a positive number. -/
theorem toNat_pos_of_ne_zero {n : UInt32} (h : n ≠ 0) : 0 < n.toNat :=
  Nat.pos_of_ne_zero (fun hzero => h (UInt32.toNat_inj.mp hzero))

namespace Dimension

/-! ### One dimension -/

/-- The dimension that a text shows. -/
def read? (cs : List Char) : Option Dimension :=
  match cs.dropWhile (· != '.') with
  | '.' :: '.' :: last => do
    let base ← readDigits? (cs.takeWhile (· != '.'))
    let last ← readDigits? last
    return ⟨UInt32.ofNat base, UInt32.ofNat (last + 1 - base)⟩
  | _ => (readDigits? cs).map (fun extent => ⟨0, UInt32.ofNat extent⟩)

theorem toList_text_zero {dim : Dimension} (h : dim.base = 0) :
    dim.text.toList = Nat.toDigits 10 dim.extent.toNat := by
  rw [text, if_pos h, Nat.toList_repr]

theorem toList_text_based {dim : Dimension} (h : dim.base ≠ 0) :
    dim.text.toList = Nat.toDigits 10 dim.base.toNat
      ++ '.' :: '.' :: Nat.toDigits 10 (dim.base.toNat + dim.extent.toNat - 1) := by
  rw [text, if_neg h]
  simp [Nat.toList_repr]

theorem mem_text {dim : Dimension} {c : Char} (hc : c ∈ dim.text.toList) :
    c.isDigit = true ∨ c = '.' := by
  by_cases hbase : dim.base = 0
  · rw [toList_text_zero hbase] at hc
    exact .inl (allDigits_toDigits _ c hc)
  · rw [toList_text_based hbase, List.mem_append, List.mem_cons, List.mem_cons] at hc
    rcases hc with hc | hc | hc | hc
    · exact .inl (allDigits_toDigits _ c hc)
    · exact .inr hc
    · exact .inr hc
    · exact .inl (allDigits_toDigits _ c hc)

theorem read?_text (dim : Dimension) : read? dim.text.toList = some dim := by
  have hpoint (n : Nat) : ∀ c ∈ Nat.toDigits 10 n, (c != '.') = true :=
    fun c hc => bne_iff_ne.mpr ((allDigits_toDigits n).ne rfl c hc)
  by_cases hbase : dim.base = 0
  · have hdrop : (Nat.toDigits 10 dim.extent.toNat).dropWhile (· != '.') = [] :=
      List.dropWhile_eq_nil_iff.mpr (hpoint _)
    rw [toList_text_zero hbase, read?, hdrop, readDigits?_toDigits, ← hbase]
    simp
  · have hpos := toNat_pos_of_ne_zero hbase
    have hextent : dim.base.toNat + dim.extent.toNat - 1 + 1 - dim.base.toNat
        = dim.extent.toNat := by omega
    rw [toList_text_based hbase, read?, List.dropWhile_append_of_pos (hpoint _),
      List.takeWhile_append_of_pos (hpoint _), List.dropWhile_cons_of_neg (by decide),
      List.takeWhile_cons_of_neg (by decide), List.append_nil]
    simp [readDigits?_toDigits, hextent]

/-! ### Extents with their bounds -/

theorem length_zip (extents bases : List UInt32) : (zip extents bases).length = extents.length := by
  induction extents generalizing bases with
  | nil => rfl
  | cons extent extents ih => cases bases <;> simp [zip, ih]

theorem getElem?_zip (extents bases : List UInt32) (i : Nat) :
    (zip extents bases)[i]? = extents[i]?.map (fun extent => ⟨bases.getD i 0, extent⟩) := by
  induction extents generalizing bases i with
  | nil => simp [zip]
  | cons extent extents ih =>
    cases bases <;> cases i <;> simp [zip, ih]

/-- The extents and the bounds that count are all that a row of dimensions has. -/
theorem zip_inj {extents extents' bases bases' : List UInt32}
    (h : zip extents bases = zip extents' bases') :
    extents = extents' ∧ ∀ i < extents.length, bases.getD i 0 = bases'.getD i 0 := by
  have hshown (i : Nat) := congrArg (·[i]?) h
  simp only [getElem?_zip] at hshown
  have hextents : extents = extents' := by
    apply List.ext_getElem?
    intro i
    have hextent := congrArg (Option.map Dimension.extent) (hshown i)
    simpa [Option.map_map, Function.comp_def] using hextent
  subst hextents
  refine ⟨rfl, ?_⟩
  intro i hi
  have hbase := congrArg (Option.map Dimension.base) (hshown i)
  simpa [List.getElem?_eq_getElem hi] using hbase

end Dimension

/-! ### A row of dimensions -/

/-- The dimension that one part of a row shows, with or without a space in front. -/
def readPart? (cs : List Char) : Option Dimension :=
  Dimension.read? (cs.dropWhile (· == ' '))

/-- The dimensions that a text shows, with commas between them. -/
def readDimensions? (cs : List Char) : Option (List Dimension) :=
  (cs.splitOn ',').mapM readPart?

theorem readPart?_text (dim : Dimension) : readPart? dim.text.toList = some dim := by
  have hspaces : dim.text.toList.dropWhile (· == ' ') = dim.text.toList := by
    cases hchars : dim.text.toList with
    | nil => rfl
    | cons c cs =>
      apply List.dropWhile_cons_of_neg
      rw [beq_iff_eq]
      rintro rfl
      have hspace : ' ' ∈ dim.text.toList := by
        rw [hchars]
        exact List.mem_cons_self
      rcases Dimension.mem_text hspace with h | h
      all_goals exact absurd h (by decide)
  rw [readPart?, hspaces, Dimension.read?_text]

theorem readPart?_space (cs : List Char) : readPart? (' ' :: cs) = readPart? cs := rfl

theorem mapM_readPart? (dims : List Dimension) :
    (dims.map (fun dim => ' ' :: dim.text.toList)).mapM readPart? = some dims := by
  induction dims with
  | nil => rfl
  | cons dim dims ih => simp [readPart?_space, readPart?_text, ih]

/-- Of what stands between parts, the second half can be counted to the part behind it. -/
theorem intercalate_pair {α : Type} (x y : α) (part : List α) (parts : List (List α)) :
    [x, y].intercalate (part :: parts) = [x].intercalate (part :: parts.map (y :: ·)) := by
  induction parts generalizing part with
  | nil => rfl
  | cons next parts ih =>
    have hnext : [x].intercalate ((y :: next) :: parts.map (y :: ·))
        = y :: [x].intercalate (next :: parts.map (y :: ·)) := by
      cases parts <;> simp [List.intercalate_cons_cons]
    rw [List.map_cons, List.intercalate_cons_cons, List.intercalate_cons_cons, hnext, ih]
    simp

theorem splitOn_intercalate_text (first : Dimension) (others : List Dimension) :
    (String.intercalate ", " ((first :: others).map Dimension.text)).toList.splitOn ','
      = first.text.toList :: others.map (fun dim => ' ' :: dim.text.toList) := by
  have hcomma (dim : Dimension) : ',' ∉ dim.text.toList := by
    intro hc
    rcases Dimension.mem_text hc with h | h
    all_goals exact absurd h (by decide)
  have hrow : (String.intercalate ", " ((first :: others).map Dimension.text)).toList
      = [','].intercalate
        (first.text.toList :: others.map (fun dim => ' ' :: dim.text.toList)) := by
    rw [String.toList_intercalate, show ", ".toList = [',', ' '] from rfl, List.map_map,
      List.map_cons, intercalate_pair, List.map_map]
    rfl
  rw [hrow]
  refine List.splitOn_intercalate ',' ?_ (List.cons_ne_nil _ _)
  intro part hpart
  rcases List.mem_cons.mp hpart with rfl | hpart
  · exact hcomma first
  · obtain ⟨dim, _, rfl⟩ := List.mem_map.mp hpart
    simpa using hcomma dim

theorem readDimensions?_intercalate {dims : List Dimension} (hne : dims ≠ []) :
    readDimensions? (String.intercalate ", " (dims.map Dimension.text)).toList = some dims := by
  obtain ⟨first, others, rfl⟩ := List.exists_cons_of_ne_nil hne
  rw [readDimensions?, splitOn_intercalate_text, List.mapM_cons, readPart?_text, mapM_readPart?]
  rfl

/-- Between the same name and the same brackets, different dimensions make different texts. -/
theorem shapeText_inj {element suffix : String} {dims dims' : List Dimension} (hne : dims ≠ [])
    (hne' : dims' ≠ []) (h : shapeText element suffix dims = shapeText element suffix dims') :
    dims = dims' := by
  have hrow : String.intercalate ", " (dims.map Dimension.text)
      = String.intercalate ", " (dims'.map Dimension.text) := by
    simpa [shapeText] using h
  have hread := readDimensions?_intercalate hne
  rw [hrow, readDimensions?_intercalate hne'] at hread
  exact (Option.some.inj hread).symm

end Inspector
