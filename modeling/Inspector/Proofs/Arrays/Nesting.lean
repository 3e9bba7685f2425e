/-
  Inspector/Proofs/Arrays/Nesting.lean
  ====================================
  **The brackets of a nested array encode its nesting.**

  Below the descriptor of an array stand the levels of its elements, down to the first
  one that is no array over anything: a plain type, or a pointer, which has an element but
  no rank (`NestsAs`).  The name of that innermost type is shown with a group of brackets
  for each level.  A group is read back from its end, where a closing bracket starts the
  count of its commas anew, so groups that stand next to each other cannot be taken for
  one another (`readRanks_brackets`), and equal brackets mean equal ranks in the same
  order (`nestedName_encodes_nesting`).
-/
import Inspector.Debuggee.Recording
import Inspector.Proofs.Arrays.Dimensions
import Inspector.Proofs.Debuggee.Answers

namespace Inspector

namespace TypeDesc

/-! ### Levels -/

/-- The ranks of the array levels of a descriptor, the outermost first, and the first
    descriptor below them that is no array over anything. -/
inductive NestsAs : TypeDesc → List UInt32 → TypeDesc → Prop where
  | innermost {ty : TypeDesc} (stops : ty.element? = none ∨ ty.rank = 0) : NestsAs ty [] ty
  | level {ty element innermost : TypeDesc} {ranks : List UInt32}
      (below : ty.element? = some element) (ranked : ty.rank ≠ 0)
      (inner : NestsAs element ranks innermost) : NestsAs ty (ty.rank :: ranks) innermost

/-- The group of one array level: a comma less than it has dimensions. -/
def bracketGroup (rank : UInt32) : String :=
  "[" ++ String.ofList (List.replicate (rank.toNat - 1) ',') ++ "]"

/-- The groups of array levels, the outermost first. -/
def suffixOf : List UInt32 → String
  | [] => ""
  | rank :: ranks => bracketGroup rank ++ suffixOf ranks

variable {ty ty' element innermost innermost' : TypeDesc} {ranks ranks' : List UInt32}

theorem NestsAs.arrayNesting (h : ty.NestsAs ranks innermost) :
    ty.arrayNesting = (innermost, ranks.flatMap brackets) := by
  induction h with
  | @innermost ty stops =>
    cases ty with
    | plain head => rfl
    | constructed head element =>
      have hrank : head.rank = 0 := stops.resolve_left (by simp [element?])
      rw [TypeDesc.arrayNesting, if_pos hrank]
      rfl
  | @level ty element innermost ranks below ranked _ ih =>
    cases ty with
    | plain head => cases below
    | constructed head element' =>
      cases below
      have hrank : head.rank ≠ 0 := ranked
      rw [TypeDesc.arrayNesting, if_neg hrank, ih]
      rfl

theorem exists_nestsAs (ty : TypeDesc) : ∃ ranks innermost, ty.NestsAs ranks innermost := by
  induction ty with
  | plain head => exact ⟨[], _, .innermost (.inl rfl)⟩
  | constructed head element ih =>
    by_cases hrank : head.rank = 0
    · exact ⟨[], _, .innermost (.inr hrank)⟩
    · obtain ⟨ranks, innermost, inner⟩ := ih
      exact ⟨_, _, .level rfl hrank inner⟩

theorem NestsAs.unique (h : ty.NestsAs ranks innermost) (h' : ty.NestsAs ranks' innermost') :
    ranks = ranks' ∧ innermost = innermost' := by
  induction h generalizing ranks' with
  | innermost stops =>
    cases h' with
    | innermost => exact ⟨rfl, rfl⟩
    | level below ranked _ =>
      rcases stops with hnone | hzero
      · cases below.symm.trans hnone
      · exact absurd hzero ranked
  | level below ranked _ ih =>
    cases h' with
    | innermost stops =>
      rcases stops with hnone | hzero
      · cases below.symm.trans hnone
      · exact absurd hzero ranked
    | level below' _ inner' =>
      cases below.symm.trans below'
      obtain ⟨rfl, rfl⟩ := ih inner'
      exact ⟨rfl, rfl⟩

theorem NestsAs.ranks_ne_zero (h : ty.NestsAs ranks innermost) : ∀ rank ∈ ranks, rank ≠ 0 := by
  induction h with
  | innermost => simp
  | level _ ranked _ ih => simpa using ⟨ranked, ih⟩

theorem NestsAs.arrayOf (h : ty.NestsAs ranks innermost) (elementType : ElementType)
    {rank : UInt32} (hrank : rank ≠ 0) :
    (TypeDesc.arrayOf ty elementType rank).NestsAs (rank :: ranks) innermost :=
  @level (TypeDesc.arrayOf ty elementType rank) ty innermost ranks rfl hrank h

/-! ### Reading brackets -/

theorem toList_suffixOf (ranks : List UInt32) :
    (suffixOf ranks).toList = ranks.flatMap brackets := by
  induction ranks with
  | nil => rfl
  | cons rank ranks ih =>
    rw [suffixOf, String.toList_append, ih, List.flatMap_cons]
    simp [bracketGroup, brackets]

/-- Take in the next character from the end: commas are counted, an opening bracket ends
    the count and a closing one starts it. -/
def readBracket (c : Char) (read : Nat × List Nat) : Nat × List Nat :=
  if c = ',' then (read.1 + 1, read.2)
  else if c = '[' then (0, (read.1 + 1) :: read.2)
  else (0, read.2)

/-- The ranks that the brackets of array levels show, the outermost first. -/
def readRanks (cs : List Char) : List Nat :=
  (cs.foldr readBracket (0, [])).2

theorem foldr_readBracket_commas (n : Nat) (read : Nat × List Nat) :
    (List.replicate n ',').foldr readBracket read = (read.1 + n, read.2) := by
  induction n with
  | zero => rfl
  | succ n ih =>
    rw [List.replicate_succ, List.foldr_cons, ih]
    rfl

theorem readRanks_brackets_append {rank : UInt32} (hrank : rank ≠ 0) (rest : List Char) :
    readRanks (brackets rank ++ rest) = rank.toNat :: readRanks rest := by
  have hcommas : rank.toNat - 1 + 1 = rank.toNat := Nat.sub_add_cancel (toNat_pos_of_ne_zero hrank)
  simp only [readRanks, brackets, List.cons_append, List.append_assoc, List.foldr_cons,
    List.foldr_append, List.foldr_nil]
  -- the closing bracket forgets what was counted behind it
  rw [show readBracket ']' (rest.foldr readBracket (0, [])) = (0, readRanks rest) from rfl,
    foldr_readBracket_commas]
  simp [readBracket, hcommas, readRanks]

theorem readRanks_brackets (hranks : ∀ rank ∈ ranks, rank ≠ 0) :
    readRanks (ranks.flatMap brackets) = ranks.map UInt32.toNat := by
  induction ranks with
  | nil => rfl
  | cons rank ranks ih =>
    rw [List.forall_mem_cons] at hranks
    rw [List.flatMap_cons, readRanks_brackets_append hranks.1, ih hranks.2, List.map_cons]

theorem suffixOf_inj (hranks : ∀ rank ∈ ranks, rank ≠ 0) (hranks' : ∀ rank ∈ ranks', rank ≠ 0)
    (h : suffixOf ranks = suffixOf ranks') : ranks = ranks' := by
  have hread := readRanks_brackets hranks
  rw [← toList_suffixOf, h, toList_suffixOf, readRanks_brackets hranks'] at hread
  exact ((List.map_inj_right (fun _ _ => UInt32.toNat_inj.mp)).mp hread).symm

end TypeDesc

/-! ### Names of nested arrays -/

namespace Debuggee

open TypeDesc

variable {V V' : Type} {d : Debuggee V} {ty innermost : TypeDesc} {ranks : List UInt32}

theorem nestedName_eq (d : Debuggee V) (h : ty.NestsAs ranks innermost) :
    d.nestedName ty = (d.typeName innermost).map (·, suffixOf ranks) := by
  simp only [nestedName, h.arrayNesting, ← toList_suffixOf, String.ofList_toList]

theorem nestedName_arrayOf (d : Debuggee V) (ty : TypeDesc) (elementType : ElementType)
    {rank : UInt32} (hrank : rank ≠ 0) :
    d.nestedName (arrayOf ty elementType rank)
      = (d.nestedName ty).map (fun shown => (shown.1, bracketGroup rank ++ shown.2)) := by
  obtain ⟨ranks, innermost, nests⟩ := ty.exists_nestsAs
  rw [nestedName_eq d nests, nestedName_eq d (nests.arrayOf elementType hrank), answer_map_map]
  rfl

/-- **The brackets of a nested array encode its nesting.**  A descriptor of any depth has
    one row of array levels and one type inside them, whose name, or the failure to give
    it one, is the name of the whole. Lists of ranks without a zero never share their
    brackets, so descriptors with the same brackets, of whatever debuggee, nest alike. One
    more array around a descriptor puts its own group in front. -/
theorem nestedName_encodes_nesting (d : Debuggee V) (ty : TypeDesc) :
    (∃ ranks innermost, ty.NestsAs ranks innermost
        ∧ (∀ ranks' innermost', ty.NestsAs ranks' innermost' →
          ranks' = ranks ∧ innermost' = innermost)
        ∧ (∀ name, d.typeName innermost = .ok name →
          d.nestedName ty = .ok (name, suffixOf ranks))
        ∧ ∀ e, d.typeName innermost = .error e → d.nestedName ty = .error e)
      ∧ (∀ ranks ranks' : List UInt32, (∀ rank ∈ ranks, 1 ≤ rank.toNat) →
        (∀ rank ∈ ranks', 1 ≤ rank.toNat) → suffixOf ranks = suffixOf ranks' → ranks = ranks')
      ∧ (∀ (d' : Debuggee V') ty' name name' suffix, d.nestedName ty = .ok (name, suffix) →
        d'.nestedName ty' = .ok (name', suffix) →
        ∃ ranks innermost innermost', ty.NestsAs ranks innermost ∧ ty'.NestsAs ranks innermost')
      ∧ ∀ elementType (rank : UInt32), 1 ≤ rank.toNat →
        d.nestedName (arrayOf ty elementType rank)
          = (d.nestedName ty).map (fun shown => (shown.1, bracketGroup rank ++ shown.2)) := by
  have hpositive : ∀ rank : UInt32, 1 ≤ rank.toNat → rank ≠ 0 := by
    rintro rank h rfl
    exact absurd h (by decide)
  obtain ⟨ranks, innermost, nests⟩ := ty.exists_nestsAs
  have hname := nestedName_eq d nests
  refine ⟨⟨ranks, innermost, nests, ?_, ?_, ?_⟩, ?_, ?_, ?_⟩
  · intro ranks' innermost' nests'
    exact nests'.unique nests
  · intro name h
    rw [hname, h, answer_ok_map]
  · intro e h
    rw [hname, h, answer_error_map]
  · intro ranks ranks' hranks hranks'
    exact suffixOf_inj (fun rank h => hpositive rank (hranks rank h))
      (fun rank h => hpositive rank (hranks' rank h))
  · intro d' ty' name name' suffix h h'
    obtain ⟨ranks', innermost', nests'⟩ := ty'.exists_nestsAs
    rw [hname, answer_map_eq_ok] at h
    rw [nestedName_eq d' nests', answer_map_eq_ok] at h'
    obtain ⟨_, _, hshown⟩ := h
    obtain ⟨_, _, hshown'⟩ := h'
    have hsuffix := (congrArg Prod.snd hshown).trans (congrArg Prod.snd hshown').symm
    rw [← suffixOf_inj nests.ranks_ne_zero nests'.ranks_ne_zero hsuffix] at nests'
    exact ⟨ranks, innermost, innermost', nests, nests'⟩
  · intro elementType rank hrank
    exact nestedName_arrayOf d ty elementType (hpositive rank hrank)

/-- A vector of arrays of pointers to vectors. The walk stops at the pointers, whose name has
    brackets of its own. -/
theorem nestedName_encodes_nesting_pointer :
    let vectors := arrayOf (.primitive .int32) .vector 1
    let pointers := TypeDesc.constructed ⟨0, ⟨0x02000010⟩, .pointer, 0⟩ vectors
    let ty := arrayOf (arrayOf pointers .array 3) .vector 1
    let d := (Recording.ofLists [] [{ token := ⟨0x02000010⟩, name := .ok "int[]*" }]).debuggee
    ty.NestsAs [1, 3] pointers ∧ d.typeName pointers = .ok "int[]*"
      ∧ d.nestedName ty = .ok ("int[]*", "[][,,]") := by
  intro vectors pointers ty d
  have stops : pointers.NestsAs [] pointers := .innermost (.inr rfl)
  have nests : ty.NestsAs [1, 3] pointers :=
    (stops.arrayOf .array (by decide)).arrayOf .vector (by decide)
  have named : d.typeName pointers = .ok "int[]*" := by cbv
  obtain ⟨⟨ranks, innermost, _, only, given, _⟩, _⟩ := @nestedName_encodes_nesting Nat Nat d ty
  obtain ⟨rfl, rfl⟩ := only _ _ nests
  exact ⟨nests, named, given _ named⟩

end Debuggee

end Inspector
