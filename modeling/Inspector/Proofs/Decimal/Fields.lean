/-
  Inspector/Proofs/Decimal/Fields.lean
  ====================================
  **The fields of a decimal.**

  A type declares the fields of a decimal in any order and may declare others between
  them.  Where every field can be read, reading them comes down to filling in words with
  no question left to ask (`foldlM_takeField`), and if each field holds its word of one
  decimal, only the set of parts that were found matters (`Found.ofParts`).  So each of the
  two layouts gives the decimal that its fields hold (`decimalOf_of_isBackedBy`).
-/
import Inspector.Decimal.Fields
import Inspector.Proofs.Bytes.Buffer
import Inspector.Proofs.Debuggee.Integer
import Mathlib.Data.List.Basic

namespace Inspector

/-! ### Values that hold a number -/

/-- At the end of the chain of `x` stands an integer of `width` bytes with the bytes of a
    number. -/
def Debuggee.HoldsWord {V : Type} (d : Debuggee V) (limit width number : Nat) (x : V) : Prop :=
  ∃ target tag data, d.resolve limit x = .ok ⟨target, false⟩
    ∧ (d.facets target).size = .ok (UInt32.ofNat width)
    ∧ (d.facets target).elementType = .ok tag ∧ tag.isInteger width = true
    ∧ (d.facets target).contents? = some (.ok data) ∧ Bytes.ofNat width number <+: data

theorem IntegerType.toNat_width (t : IntegerType) : (UInt32.ofNat t.width).toNat = t.width := by
  cases t <;> rfl

theorem Debuggee.readInteger_of_holdsWord {V : Type} {d : Debuggee V} {limit number : Nat}
    {t : IntegerType} {x : V} (hunsigned : t.isSigned = false)
    (hlt : number < Bytes.limit t.width) (h : d.HoldsWord limit t.width number x) :
    d.readInteger limit t x = .ok number := by
  obtain ⟨target, tag, _, hr, hsize, htag, hinteger, hcontents, rest, rfl⟩ := h
  have hlen := Bytes.length_ofNat t.width number
  have holds : d.HoldsInteger limit t.width x target (Bytes.ofNat t.width number ++ rest) :=
    ⟨⟨⟨hr, _, hsize, t.toNat_width⟩, tag, htag, ElementType.isInteger_iff.mp hinteger⟩, hcontents,
      by simp [hlen]⟩
  have htake : (Bytes.ofNat t.width number ++ rest).take t.width = Bytes.ofNat t.width number := by
    simp [hlen]
  rw [holds.readInteger, htake, Bytes.toNat_ofNat, Nat.mod_eq_of_lt hlt]
  simp [IntegerType.ofWord, hunsigned]

namespace Decimal

/-! ### Fields without questions -/

section Reading

variable {V : Type} (d : Debuggee V) (limit : Nat) (object : ObjectFacet V) (ty : TypeDesc)
  (number : Field → Part → Int) (field : Field)

def part? : Option Part :=
  if isCandidate field then Part.ofName? field.name else none

/-- A field that can be read, and that holds its number if it holds a part. -/
def IsReadable : Prop :=
  isCandidate field = true → ∃ x, object.fieldValue ty field.token = .ok x
    ∧ ∀ part, Part.ofName? field.name = some part →
      d.readInteger limit part.integerType x = .ok (number field part)

def provided? : Option (Part × Int) :=
  (part? field).map (fun part => (part, number field part))

variable {d limit object ty number field} {fields : List Field} {found : Found}

theorem takeField_of_isReadable (h : IsReadable d limit object ty number field) :
    takeField d limit object ty found field
      = .ok ((provided? number field).elim found (fun p => found.put p.1 p.2)) := by
  unfold takeField
  split
  · next hcandidate =>
    obtain ⟨x, hx, hnumber⟩ := h hcandidate
    rw [hx, answer_ok_bind]
    cases hpart : Part.ofName? field.name with
    | none =>
      simp only [provided?, part?, hcandidate, if_true, hpart]
      rfl
    | some part =>
      simp only [provided?, part?, hcandidate, if_true, hpart, hnumber part hpart]
      rfl
  · next hcandidate => simp [provided?, part?, hcandidate]

/-- Fields that can all be read fill in what they provide, in the order of declaration. -/
theorem foldlM_takeField (h : ∀ field ∈ fields, IsReadable d limit object ty number field)
    (found : Found) :
    fields.foldlM (takeField d limit object ty) found
      = .ok ((fields.filterMap (provided? number)).foldl (fun found p => found.put p.1 p.2)
        found) := by
  induction fields generalizing found with
  | nil => rfl
  | cons field fields ih =>
    have hothers := ih (fun other hother => h other (List.mem_cons_of_mem _ hother))
    rw [List.foldlM_cons, takeField_of_isReadable (h field List.mem_cons_self), answer_ok_bind,
      hothers]
    -- both sides go on without the field, or with its part put in
    cases hprovided : provided? number field with
    | none => rw [List.filterMap_cons_none hprovided]; rfl
    | some p => rw [List.filterMap_cons_some hprovided]; rfl

end Reading

/-! ### Parts of one decimal -/

variable {p : Decimal}

def number (p : Decimal) : Part → Nat
  | .hi => p.hi.toNat
  | .mid => p.mid.toNat
  | .lo => p.lo.toNat
  | .lowHalves => p.mid.toNat * 0x100000000 + p.lo.toNat
  | .flags => p.flags.toNat

theorem number_lt (p : Decimal) (part : Part) :
    p.number part < Bytes.limit part.integerType.width := by
  have hmid : p.mid.toNat < 4294967296 := p.mid.toNat_lt
  have hlo : p.lo.toNat < 4294967296 := p.lo.toNat_lt
  cases part with
  | lowHalves =>
    simp only [number, Part.integerType, IntegerType.width, Bytes.limit_eight]
    omega
  | hi | mid | lo | flags =>
    simp only [number, Part.integerType, IntegerType.width, Bytes.limit_four]
    exact UInt32.toNat_lt _

/-- What is found of a decimal once some parts have been taken in. -/
def Found.ofParts (p : Decimal) (parts : List Part) : Found where
  hi := if .hi ∈ parts then some p.hi else none
  mid := if .mid ∈ parts ∨ .lowHalves ∈ parts then some p.mid else none
  lo := if .lo ∈ parts ∨ .lowHalves ∈ parts then some p.lo else none
  flags := if .flags ∈ parts then some p.flags else none

theorem ofNat_halves (mid lo : UInt32) :
    UInt32.ofNat ((mid.toNat * 0x100000000 + lo.toNat) / 0x100000000) = mid
      ∧ UInt32.ofNat (mid.toNat * 0x100000000 + lo.toNat) = lo := by
  have hmid : mid.toNat < 4294967296 := mid.toNat_lt
  have hlo : lo.toNat < 4294967296 := lo.toNat_lt
  constructor <;> apply UInt32.toNat_inj.mp <;> rw [UInt32.toNat_ofNat'] <;> omega

theorem Found.put_ofParts (parts : List Part) (part : Part) :
    (ofParts p parts).put part (p.number part) = ofParts p (parts ++ [part]) := by
  cases part with
  | lowHalves =>
    -- the one part that fills in two words
    obtain ⟨hmid, hlo⟩ := ofNat_halves p.mid p.lo
    simp only [put, number, Int.toNat_natCast, hmid, hlo]
    simp [ofParts]
  | hi | mid | lo | flags => simp [ofParts, put, number]

theorem Found.foldl_put_ofParts (parts others : List Part) :
    (others.map (fun part => (part, (p.number part : Int)))).foldl
        (fun found p => found.put p.1 p.2) (ofParts p parts)
      = ofParts p (parts ++ others) := by
  induction others generalizing parts with
  | nil => simp
  | cons part others ih => simp [put_ofParts, ih]

theorem Found.complete_ofParts {parts : List Part} (hhi : .hi ∈ parts)
    (hmid : .mid ∈ parts ∨ .lowHalves ∈ parts) (hlo : .lo ∈ parts ∨ .lowHalves ∈ parts)
    (hflags : .flags ∈ parts) : (ofParts p parts).complete = .ok p := by
  simp [ofParts, hhi, hmid, hlo, hflags, complete]

/-! ### The two layouts -/

/-- A field of a layout: its name, its width in bytes and the number that it holds. -/
structure Slot where
  name : String
  width : Nat
  number : Nat
deriving DecidableEq, Repr

/-- The generations of the type: a field for each word, or one for both low words. -/
inductive Layout where
  | separate
  | joined
deriving DecidableEq, Repr

def Layout.slots (p : Decimal) : Layout → List Slot
  | separate =>
    [⟨"hi", 4, p.hi.toNat⟩, ⟨"mid", 4, p.mid.toNat⟩, ⟨"lo", 4, p.lo.toNat⟩,
     ⟨"flags", 4, p.flags.toNat⟩]
  | joined =>
    [⟨"_hi32", 4, p.hi.toNat⟩, ⟨"_lo64", 8, p.mid.toNat * 0x100000000 + p.lo.toNat⟩,
     ⟨"_flags", 4, p.flags.toNat⟩]

def backingNames : List String :=
  ["hi", "mid", "lo", "flags", "_hi32", "_lo64", "_flags"]

section Backed

variable {V : Type} (d : Debuggee V) (limit : Nat) (p : Decimal) (layout : Layout)
  (object : ObjectFacet V) (ty : TypeDesc) (fields : List Field)

/-- Fields that hold a decimal in a layout, in any order. Fields that are static or literal
    count for nothing; all others can be read, and of the names in `backingNames` they have
    exactly those of the layout. -/
structure IsBackedBy : Prop where
  names : (((fields.filter isCandidate).map Field.name).filter (· ∈ backingNames)).Perm
    ((layout.slots p).map Slot.name)
  values : ∀ field ∈ fields, isCandidate field = true →
    ∃ x, object.fieldValue ty field.token = .ok x
      ∧ ∀ slot ∈ layout.slots p, slot.name = field.name →
        d.HoldsWord limit slot.width slot.number x

variable {d limit p layout object ty fields}

theorem mem_backingNames {name : String} {part : Part} (h : Part.ofName? name = some part) :
    name ∈ backingNames := by
  unfold Part.ofName? at h
  split at h
  case h_8 => cases h
  all_goals decide

theorem Layout.slot_of_part {slot : Slot} {part : Part} (hslot : slot ∈ layout.slots p)
    (h : Part.ofName? slot.name = some part) :
    slot.width = part.integerType.width ∧ slot.number = p.number part := by
  cases layout <;> simp only [slots, List.mem_cons, List.not_mem_nil, or_false] at hslot
  · rcases hslot with rfl | rfl | rfl | rfl <;> cases h <;> exact ⟨rfl, rfl⟩
  · rcases hslot with rfl | rfl | rfl <;> cases h <;> exact ⟨rfl, rfl⟩

theorem IsBackedBy.isReadable (h : IsBackedBy d limit p layout object ty fields) {field : Field}
    (hfield : field ∈ fields) :
    IsReadable d limit object ty (fun _ part => p.number part) field := by
  intro hcandidate
  obtain ⟨x, hx, hholds⟩ := h.values field hfield hcandidate
  refine ⟨x, hx, ?_⟩
  intro part hpart
  -- the name of a part is a backing name, so it is one of the layout
  have hname : field.name ∈ (layout.slots p).map Slot.name := by
    refine h.names.mem_iff.mp (List.mem_filter.mpr ⟨?_, by simpa using mem_backingNames hpart⟩)
    exact List.mem_map_of_mem (List.mem_filter.mpr ⟨hfield, hcandidate⟩)
  obtain ⟨slot, hslot, hsame⟩ := List.mem_map.mp hname
  obtain ⟨hwidth, hnumber⟩ := Layout.slot_of_part hslot (hsame ▸ hpart)
  have hword := hholds slot hslot hsame
  rw [hwidth, hnumber] at hword
  exact Debuggee.readInteger_of_holdsWord (by cases part <;> rfl) (p.number_lt part) hword

theorem IsBackedBy.mem_parts (h : IsBackedBy d limit p layout object ty fields) (name : String)
    {part : Part} (hname : name ∈ (layout.slots p).map Slot.name)
    (hpart : Part.ofName? name = some part) : part ∈ fields.filterMap part? := by
  have hmem := (List.mem_filter.mp (h.names.mem_iff.mpr hname)).1
  obtain ⟨field, hfield, rfl⟩ := List.mem_map.mp hmem
  obtain ⟨hfield, hcandidate⟩ := List.mem_filter.mp hfield
  exact List.mem_filterMap.mpr ⟨field, hfield, by rw [part?, if_pos hcandidate, hpart]⟩

/-- Each layout provides all four words. -/
theorem IsBackedBy.complete (h : IsBackedBy d limit p layout object ty fields) :
    (Found.ofParts p (fields.filterMap part?)).complete = .ok p := by
  cases layout with
  | separate =>
    exact Found.complete_ofParts (h.mem_parts "hi" (by simp [Layout.slots]) rfl)
      (.inl (h.mem_parts "mid" (by simp [Layout.slots]) rfl))
      (.inl (h.mem_parts "lo" (by simp [Layout.slots]) rfl))
      (h.mem_parts "flags" (by simp [Layout.slots]) rfl)
  | joined =>
    exact Found.complete_ofParts (h.mem_parts "_hi32" (by simp [Layout.slots]) rfl)
      (.inr (h.mem_parts "_lo64" (by simp [Layout.slots]) rfl))
      (.inr (h.mem_parts "_lo64" (by simp [Layout.slots]) rfl))
      (h.mem_parts "_flags" (by simp [Layout.slots]) rfl)

theorem filterMap_provided? (number : Part → Int) (fields : List Field) :
    fields.filterMap (provided? (fun _ part => number part))
      = (fields.filterMap part?).map (fun part => (part, number part)) := by
  rw [List.map_filterMap]
  rfl

/-- **The decimal of an instance is the one that its fields hold.** -/
theorem decimalOf_of_isBackedBy {t : V} (htype : (d.facets t).exactType = .ok ty)
    (hobject : (d.facets t).object? = some object) (hfields : d.fields ty = .ok fields)
    (h : IsBackedBy d limit p layout object ty fields) : d.decimalOf limit t = .ok p := by
  have hfound : fields.foldlM (takeField d limit object ty) {}
      = .ok (Found.ofParts p (fields.filterMap part?)) := by
    rw [foldlM_takeField (fun field hfield => h.isReadable hfield), filterMap_provided?]
    exact congrArg Except.ok (Found.foldl_put_ofParts [] _)
  simp only [Debuggee.decimalOf, htype, hobject, hfields, hfound, answer_ok_bind, h.complete]

end Backed

end Decimal

end Inspector
