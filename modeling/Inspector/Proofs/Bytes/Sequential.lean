/-
  Inspector/Proofs/Bytes/Sequential.lean
  ======================================
  **Items are read back as they were written.**

  A step at a cursor is refused, or it fills its part of the buffer and moves behind it
  (`Advances`).  The parts of items that are written in a row are adjacent, so no step
  disturbs an earlier one.  The invariant is the form of the buffer, `Cursor.between`: what
  was in front of the first item, the bytes of the items, what was behind the last one.  A
  reader that starts where the writer did passes through the same forms
  (`readAll_between`), and so it finds the items and ends where the writer ended
  (`sequential_lossless`).
-/
import Inspector.Proofs.Bytes.Integers

namespace Inspector

/-! ### The numbers of an item -/

namespace ItemType

/-- The numbers that an item can hold. A floating-point type holds its bit patterns. -/
def InRange : ItemType → Int → Prop
  | integer t, n => t.InRange n
  | t, n => 0 ≤ n ∧ n < 2 ^ (8 * t.width)

instance (t : ItemType) (n : Int) : Decidable (t.InRange n) :=
  match t with
  | integer t => inferInstanceAs (Decidable (t.InRange n))
  | float32 | float64 => inferInstanceAs (Decidable (_ ∧ _))

variable {t : ItemType} {n : Int}

theorem width_pos (t : ItemType) : 0 < t.width := by
  cases t with
  | integer t => cases t <;> decide
  | float32 | float64 => decide

theorem ofWord_toWord (h : t.InRange n) : t.ofWord (t.toWord n) = n := by
  cases t with
  | integer t => exact IntegerType.ofWord_toWord h
  | float32 | float64 =>
    obtain ⟨hnonneg, hlt⟩ := h
    rw [← Bytes.limit_cast] at hlt
    rw [toWord, Int.emod_eq_of_lt hnonneg hlt]
    exact Int.toNat_of_nonneg hnonneg

/-- A number of a type is read back from its bytes. -/
theorem ofWord_bytes (h : t.InRange n) : t.ofWord (Bytes.toNat (t.bytes n)) = n := by
  rw [bytes, Bytes.toNat_ofNat, Nat.mod_eq_of_lt (t.toWord_lt n), ofWord_toWord h]

/-- Whatever a type reads is one of its numbers. -/
theorem inRange_ofWord {word : Nat} (h : word < Bytes.limit t.width) :
    t.InRange (t.ofWord word) := by
  cases t with
  | integer t => exact IntegerType.inRange_ofWord h
  | float32 | float64 =>
    have hlt : (word : Int) < Bytes.limit _ := Int.ofNat_lt.mpr h
    rw [Bytes.limit_cast] at hlt
    exact ⟨Int.natCast_nonneg word, hlt⟩

end ItemType

/-- The bytes of items in a row. -/
def bytesOf (items : List (ItemType × Int)) : Bytes :=
  items.flatMap fun item => item.1.bytes item.2

theorem length_bytesOf (items : List (ItemType × Int)) :
    (bytesOf items).length = (items.map (·.1.width)).sum := by
  induction items with
  | nil => rfl
  | cons item items ih =>
    simp only [bytesOf, List.flatMap_cons, List.length_append, ItemType.length_bytes,
      List.map_cons, List.sum_cons]
    rw [← ih]
    rfl

namespace Cursor

/-! ### One step -/

/-- A step of the given width ends behind the buffer, or at no place at all. -/
def Refuses (c : Cursor) (width : Nat) : Prop :=
  UInt64.size ≤ c.offset.toNat + width ∨ c.data.length < c.offset.toNat + width

/-- The cursor `c'` is `c` after it moved by `width` bytes, and of the buffer nothing but
    these bytes may have changed. -/
structure Advances (c c' : Cursor) (width : Nat) : Prop where
  offset : c'.offset.toNat = c.offset.toNat + width
  length : c'.data.length = c.data.length
  outside : ∀ i, i < c.offset.toNat ∨ c.offset.toNat + width ≤ i → c'.data[i]? = c.data[i]?

variable {c c' : Cursor} {t : ItemType} {n : Int} {width : Nat} {items : List (ItemType × Int)}
  {before gap rest : Bytes}

theorem stop?_of_refuses (h : c.Refuses width) : c.stop? width = none := by
  refine if_neg ?_
  rintro ⟨hsize, hlength⟩
  rcases h with h | h <;> omega

theorem write_of_refuses (h : c.Refuses t.width) : c.write t n = (.error .outOfBounds, c) := by
  rw [write, stop?_of_refuses h]

/-- Where a step is not refused, there is a gap of its width to fill. -/
theorem exists_gap (h : ¬c.Refuses width) :
    ∃ before gap rest, c = between before (gap ++ rest) ∧ gap.length = width
      ∧ before.length + width < UInt64.size := by
  obtain ⟨data, offset⟩ := c
  simp only [Refuses, not_or, not_le, not_lt] at h
  obtain ⟨hsize, hlength⟩ := h
  have hbefore : (data.take offset.toNat).length = offset.toNat := by
    rw [List.length_take]
    omega
  refine ⟨data.take offset.toNat, (data.drop offset.toNat).take width,
    (data.drop offset.toNat).drop width, ?_, ?_, ?_⟩
  · rw [between, hbefore, List.take_append_drop, List.take_append_drop, UInt64.ofNat_toNat]
  · rw [List.length_take, List.length_drop]
    omega
  · rw [hbefore]
    exact hsize

/-- A gap that is filled is as long as before, and everything else is where it was. -/
theorem advances_between {written : Bytes} (hwritten : written.length = gap.length)
    (hfit : before.length + gap.length < UInt64.size) :
    (between before (gap ++ rest)).Advances (between (before ++ written) rest) gap.length where
  offset := by
    rw [offset_between (show before.length < UInt64.size by omega), offset_between
      (by rw [List.length_append]; omega), List.length_append, hwritten]
  length := by simp [between, hwritten]
  outside i hi := by
    rw [offset_between (show before.length < UInt64.size by omega)] at hi
    simp only [between, List.append_assoc]
    rcases hi with hi | hi
    · rw [List.getElem?_append_left hi, List.getElem?_append_left hi]
    · rw [List.getElem?_append_right (by omega), List.getElem?_append_right (by omega),
        List.getElem?_append_right (by omega), List.getElem?_append_right (by omega), hwritten]

/-- A write is refused and changes nothing, or it changes nothing but the bytes that it
    moves past. -/
theorem write_cases (c : Cursor) (t : ItemType) (n : Int) :
    (c.Refuses t.width ∧ c.write t n = (.error .outOfBounds, c))
      ∨ (¬c.Refuses t.width ∧ ∃ c', c.write t n = (.ok (), c') ∧ c.Advances c' t.width) := by
  by_cases h : c.Refuses t.width
  · exact .inl ⟨h, write_of_refuses h⟩
  · obtain ⟨before, gap, rest, rfl, hgap, hfit⟩ := exists_gap h
    refine .inr ⟨h, _, write_between n hgap.symm hfit, ?_⟩
    rw [← hgap] at hfit ⊢
    exact advances_between ((t.length_bytes n).trans hgap.symm) hfit

theorem read_between (hgap : t.width = gap.length)
    (hfit : before.length + t.width < UInt64.size) :
    (between before (gap ++ rest)).read t
      = (.ok (t.ofWord (Bytes.toNat gap)), between (before ++ gap) rest) := by
  rw [read, stop?_between hgap hfit]
  simp only [offset_between (show before.length < UInt64.size by omega)]
  simp [between, hgap]

/-- A read is refused, or it gives a number of its type and moves past it. It changes
    nothing in either case. -/
theorem read_cases (c : Cursor) (t : ItemType) :
    (c.Refuses t.width ∧ c.read t = (.error .outOfBounds, c))
      ∨ (¬c.Refuses t.width ∧ ∃ n c', c.read t = (.ok n, c') ∧ t.InRange n ∧ c'.data = c.data
        ∧ c'.offset.toNat = c.offset.toNat + t.width) := by
  by_cases h : c.Refuses t.width
  · refine .inl ⟨h, ?_⟩
    rw [read, stop?_of_refuses h]
  · obtain ⟨before, gap, rest, rfl, hgap, hfit⟩ := exists_gap h
    have hword := Bytes.toNat_lt gap
    rw [hgap] at hword
    refine .inr ⟨h, _, _, read_between hgap.symm hfit, ItemType.inRange_ofWord hword, ?_, ?_⟩
    · simp [between]
    · rw [← hgap] at hfit ⊢
      exact (advances_between rfl hfit).offset

/-! ### Several steps -/

/-- A reader finds the items that fill a gap and moves behind them. -/
theorem readAll_between (h : ∀ item ∈ items, item.1.InRange item.2)
    (hfit : before.length + (bytesOf items).length < UInt64.size) :
    (between before (bytesOf items ++ rest)).readAll (items.map Prod.fst)
      = (.ok (items.map Prod.snd), between (before ++ bytesOf items) rest) := by
  induction items generalizing before with
  | nil => simp [readAll, bytesOf]
  | cons item items ih =>
    obtain ⟨t, n⟩ := item
    obtain ⟨hn, hitems⟩ := List.forall_mem_cons.mp h
    have hbytes : bytesOf ((t, n) :: items) = t.bytes n ++ bytesOf items := rfl
    have hfirst : t.width = (t.bytes n).length := (t.length_bytes n).symm
    rw [hbytes, List.length_append] at hfit
    rw [hbytes, List.append_assoc, List.map_cons, readAll, read_between hfirst (by omega),
      ItemType.ofWord_bytes hn]
    dsimp only
    rw [ih hitems (by rw [List.length_append]; omega), List.append_assoc]
    rfl

/-- Reads in a row take one word after the other from what lies behind their place. -/
theorem readAll_cons_fst {data : Bytes} {k : Nat} (hfit : k + t.width < UInt64.size)
    (ts : List ItemType) :
    (readAll (t :: ts) ⟨data, UInt64.ofNat k⟩).1
      = Bytes.word t.width (data.drop k) >>= fun word =>
        (readAll ts ⟨data, UInt64.ofNat (k + t.width)⟩).1.map (t.ofWord word :: ·) := by
  have hk : (UInt64.ofNat k).toNat = k := by
    rw [UInt64.toNat_ofNat']
    exact Nat.mod_eq_of_lt (show k < UInt64.size by omega)
  have hpos := t.width_pos
  simp only [readAll, read, stop?, hk, Bytes.word, List.length_drop]
  by_cases hlength : k + t.width ≤ data.length
  · rw [if_pos ⟨hfit, hlength⟩, if_pos (by omega)]
    rfl
  · rw [if_neg (fun h => hlength h.2), if_neg (by omega)]
    rfl

theorem writeAll_append (c : Cursor) (items more : List (ItemType × Int)) :
    c.writeAll (items ++ more)
      = match c.writeAll items with
        | (.ok (), c') => c'.writeAll more
        | (.error e, c') => (.error e, c') := by
  induction items generalizing c with
  | nil => rfl
  | cons item items ih =>
    obtain ⟨t, n⟩ := item
    simp only [List.cons_append, writeAll]
    cases c.write t n with
    | mk answer c₁ =>
      cases answer with
      | error e => rfl
      | ok u => exact ih c₁

theorem writeAll_cons_eq_ok : c.writeAll ((t, n) :: items) = (.ok (), c')
    ↔ ∃ c₁, c.write t n = (.ok (), c₁) ∧ c₁.writeAll items = (.ok (), c') := by
  rw [writeAll]
  cases c.write t n with
  | mk answer c₁ =>
    cases answer with
    | error e => simp
    | ok u => simp

/-- Items that are all written have a gap of their length to fill. -/
theorem not_refuses_of_writeAll (h : c.writeAll items = (.ok (), c')) (hitems : items ≠ []) :
    ¬c.Refuses (bytesOf items).length := by
  induction items generalizing c with
  | nil => exact absurd rfl hitems
  | cons item items ih =>
    obtain ⟨t, n⟩ := item
    have hbytes : bytesOf ((t, n) :: items) = t.bytes n ++ bytesOf items := rfl
    rw [hbytes, List.length_append, t.length_bytes]
    obtain ⟨c₁, hwritten, hothers⟩ := writeAll_cons_eq_ok.mp h
    rcases c.write_cases t n with ⟨_, hwrite⟩ | ⟨hfits, c₂, hwrite, hadvances⟩
    · cases hwritten.symm.trans hwrite
    · cases hwritten.symm.trans hwrite
      by_cases hlast : items = []
      · rw [hlast]
        exact hfits
      · have hrest := ih hothers hlast
        simp only [Refuses, hadvances.offset, hadvances.length, Nat.add_assoc] at hrest
        exact hrest

/-- Items that are all written are read back from where the first one was written. -/
theorem readAll_of_writeAll (hrange : ∀ item ∈ items, item.1.InRange item.2)
    (h : c.writeAll items = (.ok (), c')) :
    c.Advances c' (items.map (·.1.width)).sum
      ∧ readAll (items.map Prod.fst) ⟨c'.data, c.offset⟩ = (.ok (items.map Prod.snd), c') := by
  by_cases hitems : items = []
  · -- nothing was written, and the place may even lie behind the buffer
    subst hitems
    cases h
    exact ⟨⟨rfl, rfl, fun _ _ => rfl⟩, rfl⟩
  · obtain ⟨before, gap, rest, rfl, hgap, hfit⟩ := exists_gap (not_refuses_of_writeAll h hitems)
    have hwritten : (between before (gap ++ rest)).writeAll items
        = (.ok (), between (before ++ bytesOf items) rest) :=
      writeAll_between hgap.symm (hgap ▸ hfit)
    cases h.symm.trans hwritten
    constructor
    · rw [← length_bytesOf, ← hgap]
      exact advances_between hgap.symm (hgap ▸ hfit)
    · have hback : (between before (bytesOf items ++ rest)).readAll (items.map Prod.fst)
          = (.ok (items.map Prod.snd), between (before ++ bytesOf items) rest) :=
        readAll_between hrange hfit
      simpa only [between, bytesOf, List.append_assoc] using hback

/-- Some first items are all written, and if others are left the next one is refused. -/
theorem writeAll_prefix (c : Cursor) (items : List (ItemType × Int)) :
    ∃ done left c', items = done ++ left ∧ c.writeAll done = (.ok (), c')
      ∧ (left = [] ∨ ∃ t n others, left = (t, n) :: others ∧ c'.Refuses t.width) := by
  induction items generalizing c with
  | nil => exact ⟨[], [], c, rfl, rfl, .inl rfl⟩
  | cons item items ih =>
    obtain ⟨t, n⟩ := item
    rcases c.write_cases t n with ⟨hrefuses, _⟩ | ⟨_, c₁, hwrite, _⟩
    · exact ⟨[], (t, n) :: items, c, rfl, rfl, .inr ⟨t, n, items, rfl, hrefuses⟩⟩
    · obtain ⟨done, left, c', rfl, hdone, hleft⟩ := ih c₁
      exact ⟨(t, n) :: done, left, c', rfl, writeAll_cons_eq_ok.mpr ⟨c₁, hwrite, hdone⟩, hleft⟩

/-- **What is written in a row is read back.**  A step is refused exactly if it would end
    behind the buffer or if its end is no place at all, and then it changes nothing; any
    other write changes the bytes that it moves past and no others. So if some items are
    written up to the first that is refused, a reader that starts at the same place finds
    the items that were written and ends at the same place, and outside of them the buffer
    is as it was. -/
theorem sequential_lossless (hrange : ∀ item ∈ items, item.1.InRange item.2) :
    (∀ (k : Cursor) (t : ItemType) (n : Int),
        (k.Refuses t.width ∧ k.write t n = (.error .outOfBounds, k))
          ∨ (¬k.Refuses t.width ∧ ∃ k', k.write t n = (.ok (), k') ∧ k.Advances k' t.width))
      ∧ (∀ (k : Cursor) (t : ItemType),
        (k.Refuses t.width ∧ k.read t = (.error .outOfBounds, k))
          ∨ (¬k.Refuses t.width ∧ ∃ n k', k.read t = (.ok n, k') ∧ t.InRange n
            ∧ k'.data = k.data ∧ k'.offset.toNat = k.offset.toNat + t.width))
      ∧ ∃ done left c', items = done ++ left ∧ c.writeAll done = (.ok (), c')
        ∧ ((left = [] ∧ c.writeAll items = (.ok (), c'))
          ∨ ∃ t n others, left = (t, n) :: others ∧ c'.Refuses t.width
            ∧ c.writeAll items = (.error .outOfBounds, c'))
        ∧ c.Advances c' (done.map (·.1.width)).sum
        ∧ readAll (done.map Prod.fst) ⟨c'.data, c.offset⟩ = (.ok (done.map Prod.snd), c') := by
  refine ⟨write_cases, read_cases, ?_⟩
  obtain ⟨done, left, c', rfl, hdone, hleft⟩ := c.writeAll_prefix items
  have hdoneRange : ∀ item ∈ done, item.1.InRange item.2 :=
    fun item hitem => hrange item (List.mem_append_left left hitem)
  obtain ⟨hadvances, hback⟩ := readAll_of_writeAll hdoneRange hdone
  have hall : c.writeAll (done ++ left) = c'.writeAll left := by
    rw [writeAll_append, hdone]
  refine ⟨done, left, c', rfl, hdone, ?_, hadvances, hback⟩
  rcases hleft with rfl | ⟨t, n, others, rfl, hrefuses⟩
  · exact .inl ⟨rfl, hall⟩
  · refine .inr ⟨t, n, others, rfl, hrefuses, ?_⟩
    rw [hall, writeAll, write_of_refuses hrefuses]

/-- Items of four types, from the second byte of a buffer of thirteen. The last one would end
    three bytes behind the buffer. -/
theorem sequential_lossless_mixed :
    let c : Cursor := ⟨List.replicate 13 255, 1⟩
    let items : List (ItemType × Int) :=
      [(.integer .int16, -2), (.float64, 0x3FF8000000000000), (.integer .uint8, 200),
       (.integer .int32, -1)]
    (∀ item ∈ items, item.1.InRange item.2)
      ∧ ∃ done left c', items = done ++ left ∧ c.writeAll done = (.ok (), c')
        ∧ ((left = [] ∧ c.writeAll items = (.ok (), c'))
          ∨ ∃ t n others, left = (t, n) :: others ∧ c'.Refuses t.width
            ∧ c.writeAll items = (.error .outOfBounds, c'))
        ∧ c.Advances c' (done.map (·.1.width)).sum
        ∧ readAll (done.map Prod.fst) ⟨c'.data, c.offset⟩ = (.ok (done.map Prod.snd), c') := by
  intro c items
  have hrange : ∀ item ∈ items, item.1.InRange item.2 := by decide
  exact ⟨hrange, (sequential_lossless hrange).2.2⟩

end Cursor

end Inspector
