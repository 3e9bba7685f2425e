/-
  Inspector/Proofs/Debuggee/StringText.lean
  =========================================
  **The text of a string takes the units that belong to it.**

  The debuggee may copy more units than a string has, or fewer, and its own count of them
  may say anything.  The text is that of the units at the front of the buffer, as many as
  both the count and the length of the string allow (`StringFacet.text_eq_ok`).  It has a
  unit for each of them and differs from them in nothing but the surrogates that stand
  alone; no unit behind them has a part in it (`StringFacet.text_takes_reported`).
-/
import Inspector.Debuggee.Recording
import Inspector.Debuggee.StringText
import Inspector.Proofs.Debuggee.Answers
import Inspector.Proofs.Text.Surrogates

namespace Inspector

open Text.Utf16

/-! ### The buffer -/

/-- The zeroed buffer for a string of `length` units, with room for one unit more, after
    `copied` was written to its front. -/
def filledBuffer (length : Nat) (copied : List UInt16) : List UInt16 :=
  (List.range (length + 1)).map (copied.getD · 0)

section Buffer

variable {length n : Nat} {copied : List UInt16}

theorem take_filledBuffer (h : n ≤ length + 1) (copied : List UInt16) :
    (filledBuffer length copied).take n = (List.range n).map (copied.getD · 0) := by
  rw [filledBuffer, ← List.map_take, List.take_range, min_eq_left h]

theorem length_take_filledBuffer (h : n ≤ length + 1) :
    ((filledBuffer length copied).take n).length = n := by
  simp [take_filledBuffer h]

theorem getElem?_bufferUnits {i : Nat} (hi : i < n) (copied : List UInt16) :
    (bufferUnits copied n)[i]? = some (copied.getD i 0) := by
  rw [bufferUnits, List.rightpad, List.getElem?_append, List.length_take]
  by_cases hc : i < copied.length
  · rw [if_pos (by omega), List.getElem?_take_of_lt hi]
    simp [hc]
  · rw [if_neg (by omega), List.getElem?_replicate_of_lt (by omega)]
    simp [Nat.le_of_not_lt hc]

/-- A copy that is cut off and filled up to some units has the units of the buffer. -/
theorem bufferUnits_eq_take (h : n ≤ length + 1) (copied : List UInt16) :
    bufferUnits copied n = (filledBuffer length copied).take n := by
  rw [take_filledBuffer h]
  apply List.ext_getElem?
  intro i
  by_cases hi : i < n
  · simp [getElem?_bufferUnits hi, hi]
  · have hlength : (bufferUnits copied n).length ≤ i := by
      simp [bufferUnits, List.rightpad]
      omega
    simp [hlength, Nat.le_of_not_lt hi]

end Buffer

/-! ### Asking for the text -/

namespace StringFacet

variable {f : StringFacet} {length count : UInt32} {copied : List UInt16} {e : Error}

theorem text_eq_ok (hlength : f.length = .ok length)
    (hread : f.read (length.toNat + 1) = .ok (copied, count)) :
    f.text = .ok (String.ofList (decode
      ((filledBuffer length.toNat copied).take (min count.toNat length.toNat)))) := by
  rw [text, hlength, answer_ok_bind, hread, answer_ok_bind,
    ← bufferUnits_eq_take (by omega) copied]
  rfl

theorem text_eq_error_iff :
    f.text = .error e ↔ f.length = .error e
      ∨ ∃ length, f.length = .ok length ∧ f.read (length.toNat + 1) = .error e := by
  rw [text, answer_bind_eq_error]
  constructor
  · rintro (h | ⟨length, hlength, h⟩)
    · exact .inl h
    · -- what follows the copy cannot fail
      rcases answer_bind_eq_error.mp h with h | ⟨_, _, h⟩
      · exact .inr ⟨length, hlength, h⟩
      · cases h
  · rintro (h | ⟨length, hlength, h⟩)
    · exact .inl h
    · exact .inr ⟨length, hlength, by rw [h, answer_error_bind]⟩

/-- **The text of a string is that of its units, as far as they were copied.**  A length or
    a copy that the debuggee refuses is the only way to fail.  Otherwise the text has the
    units at the front of the buffer, no more than the string has and no more than were
    counted; of these, exactly the unpaired surrogates are replaced, each by one unit.
    Another copy that agrees on these units gives the same text. -/
theorem text_takes_reported (f : StringFacet) :
    (∀ e, f.text = .error e ↔ f.length = .error e
        ∨ ∃ length, f.length = .ok length ∧ f.read (length.toNat + 1) = .error e)
      ∧ ∀ length copied count, f.length = .ok length →
        f.read (length.toNat + 1) = .ok (copied, count) →
        let taken := min count.toNat length.toNat
        let source := (filledBuffer length.toNat copied).take taken
        source.length = taken
          ∧ (∃ s, f.text = .ok s ∧ IsTextOf s source)
          ∧ ∀ (other : StringFacet) copied' count', other.length = .ok length →
            other.read (length.toNat + 1) = .ok (copied', count') →
            min count'.toNat length.toNat = taken →
            (∀ i < taken, copied'.getD i 0 = copied.getD i 0) → other.text = f.text := by
  refine ⟨fun e => text_eq_error_iff, ?_⟩
  intro length copied count hlength hread taken source
  have hroom : taken ≤ length.toNat + 1 := by omega
  refine ⟨length_take_filledBuffer hroom, ⟨_, text_eq_ok hlength hread, isTextOf_decode source⟩, ?_⟩
  intro other copied' count' hlength' hread' htaken hsame
  have hsource := calc
    (filledBuffer length.toNat copied').take taken
        = (List.range taken).map (copied'.getD · 0) := take_filledBuffer hroom _
    _ = (List.range taken).map (copied.getD · 0) :=
      List.map_congr_left (fun i hi => hsame i (List.mem_range.mp hi))
    _ = source := (take_filledBuffer hroom _).symm
  rw [text_eq_ok hlength' hread', text_eq_ok hlength hread, htaken, hsource]

/-- A count that says too much, a low surrogate with nothing before it, and at the end a high
    surrogate whose partner was copied to where a terminator belongs. -/
theorem text_takes_reported_cut :
    let copied : List UInt16 := [0xD83D, 0xDE00, 0xDE00, 0xD83D, 0xDE00]
    let f := RecordedString.facet
      { units := copied, length := some (.ok 4), returned := some (.ok 9) }
    f.length = .ok 4 ∧ f.read 5 = .ok (copied, 9)
      ∧ (filledBuffer 4 copied).take (min 9 4) = [0xD83D, 0xDE00, 0xDE00, 0xD83D]
      ∧ ∃ s, f.text = .ok s ∧ IsTextOf s [0xD83D, 0xDE00, 0xDE00, 0xD83D]
        ∧ s = "😀\uFFFD\uFFFD" := by
  intro copied f
  have hlength : f.length = .ok 4 := rfl
  have hread : f.read 5 = .ok (copied, 9) := rfl
  have hsource : (filledBuffer 4 copied).take (min 9 4) = [0xD83D, 0xDE00, 0xDE00, 0xD83D] := rfl
  obtain ⟨_, ⟨s, hs, htext⟩, _⟩ := (text_takes_reported f).2 4 copied 9 hlength hread
  refine ⟨hlength, hread, hsource, s, hs, htext, ?_⟩
  have hshown : f.text = .ok "😀\uFFFD\uFFFD" := by decide +kernel
  exact Except.ok.inj (hs.symm.trans hshown)

end StringFacet

end Inspector
