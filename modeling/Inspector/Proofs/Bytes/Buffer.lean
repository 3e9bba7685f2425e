/-
  Inspector/Proofs/Bytes/Buffer.lean
  ==================================
  **Words in a buffer.**

  A word that was written at the front of a buffer is read from there again, whatever
  follows it, and a word that can be read is written as the bytes that were read.  Items
  written one after the other fill the gap that they are written into: what lies before
  and behind the gap stays as it was (`writeAll_between`).
-/
import Inspector.Bytes.Cursor

namespace Inspector

/-! ### Words at the front -/

namespace Bytes

theorem limit_four : limit 4 = 4294967296 := by decide

theorem limit_eight : limit 8 = 18446744073709551616 := by decide

theorem word_ofNat_append {width n : Nat} (h : n < limit width) (rest : Bytes) :
    word width (ofNat width n ++ rest) = .ok n := by
  have hlen := length_ofNat width n
  have htake : (ofNat width n ++ rest).take width = ofNat width n := by
    simp [hlen]
  rw [word, if_pos (by simp [hlen]), htake, toNat_ofNat, Nat.mod_eq_of_lt h]

theorem word_ofNat {width n : Nat} (h : n < limit width) : word width (ofNat width n) = .ok n := by
  have hword := word_ofNat_append h []
  rwa [List.append_nil] at hword

theorem word_eq_ok {width n : Nat} {data : Bytes} (h : word width data = .ok n) :
    width ≤ data.length ∧ n < limit width ∧ ofNat width n = data.take width := by
  unfold word at h
  split at h
  · next hle =>
    have hlen : (data.take width).length = width := by simp [hle]
    have hlt := toNat_lt (data.take width)
    have hback := ofNat_toNat (data.take width)
    rw [hlen] at hlt hback
    cases h
    exact ⟨hle, hlt, hback⟩
  · cases h

theorem word_eq_error {width : Nat} {data : Bytes} {e : Error} (h : word width data = .error e) :
    data.length < width ∧ e = .outOfBounds := by
  unfold word at h
  split at h
  · cases h
  · next hlt =>
    cases h
    exact ⟨Nat.lt_of_not_le hlt, rfl⟩

end Bytes

/-! ### Items written one after the other -/

def ItemType.bytes (t : ItemType) (n : Int) : Bytes :=
  Bytes.ofNat t.width (t.toWord n)

theorem ItemType.length_bytes (t : ItemType) (n : Int) : (t.bytes n).length = t.width :=
  Bytes.length_ofNat _ _

namespace Cursor

/-- The cursor in a buffer that has `before` in front of its place and `rest` behind it. -/
def between (before rest : Bytes) : Cursor :=
  ⟨before ++ rest, UInt64.ofNat before.length⟩

variable {before gap rest : Bytes}

theorem offset_between (hfit : before.length < UInt64.size) :
    (between before rest).offset.toNat = before.length := by
  simp only [between, UInt64.toNat_ofNat']
  exact Nat.mod_eq_of_lt hfit

theorem stop?_between {width : Nat} (hgap : width = gap.length)
    (hfit : before.length + width < UInt64.size) :
    (between before (gap ++ rest)).stop? width = some (before.length + width) := by
  have hlen : (between before (gap ++ rest)).data.length
      = before.length + (gap.length + rest.length) := by
    simp [between]
  simp only [stop?, offset_between (show before.length < UInt64.size by omega), hlen]
  exact if_pos ⟨hfit, by omega⟩

/-- One step fills a gap of its width and moves behind it. -/
theorem write_between {t : ItemType} (n : Int) (hgap : t.width = gap.length)
    (hfit : before.length + t.width < UInt64.size) :
    (between before (gap ++ rest)).write t n = (.ok (), between (before ++ t.bytes n) rest) := by
  have hbehind : (before ++ (gap ++ rest)).drop (before.length + t.width) = rest := by
    rw [hgap, ← List.append_assoc, ← List.length_append, List.drop_left]
  rw [write, stop?_between hgap hfit]
  simp only [offset_between (show before.length < UInt64.size by omega)]
  simp [between, hbehind, ItemType.bytes, Bytes.length_ofNat]

/-- Several steps fill a gap that is as long as what they write together. -/
theorem writeAll_between {items : List (ItemType × Int)}
    (hgap : (items.flatMap fun item => item.1.bytes item.2).length = gap.length)
    (hfit : before.length + gap.length < UInt64.size) :
    (between before (gap ++ rest)).writeAll items
      = (.ok (), between (before ++ items.flatMap fun item => item.1.bytes item.2) rest) := by
  induction items generalizing before gap with
  | nil =>
    obtain rfl := List.length_eq_zero_iff.mp hgap.symm
    simp [writeAll]
  | cons item items ih =>
    obtain ⟨t, n⟩ := item
    simp only [List.flatMap_cons, List.length_append, ItemType.length_bytes] at hgap
    -- the gap is the place of the first item with the gap of the others behind it
    have hsplit : gap = gap.take t.width ++ gap.drop t.width := (List.take_append_drop _ _).symm
    have hfirst : t.width = (gap.take t.width).length := by rw [List.length_take]; omega
    have hothers : (items.flatMap fun item => item.1.bytes item.2).length
        = (gap.drop t.width).length := by rw [List.length_drop]; omega
    have hfit' : (before ++ t.bytes n).length + (gap.drop t.width).length < UInt64.size := by
      rw [List.length_append, ItemType.length_bytes, List.length_drop]
      omega
    rw [hsplit, List.append_assoc, writeAll, write_between n hfirst (by omega)]
    dsimp only
    rw [ih hothers hfit']
    simp

end Cursor

end Inspector
