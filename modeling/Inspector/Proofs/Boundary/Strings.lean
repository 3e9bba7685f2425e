/-
  Inspector/Proofs/Boundary/Strings.lean
  ======================================
  **A string is the same on both sides.**

  A string is decoded from UTF-16 where it is read, encoded as UTF-8 to cross, decoded
  again by the receiver and quoted for display.  None of these steps loses a character,
  so what the receiver shows is what the live value shows, and a reader of quoted texts
  gets the characters of the string back (`string_sameOnBothSides`).
-/
import Inspector.Proofs.Boundary.Agreement
import Inspector.Proofs.Text.Escape
import Inspector.Proofs.Text.Utf16

namespace Inspector

/-- The code units of a text. -/
def codeUnits (s : String) : List UInt16 :=
  Text.Utf16.encode s.toList

/-- A string value holds a text if it reports the number of its units and copies all of
    them. It may copy more behind them, such as a terminator. -/
structure StringFacet.Holds (f : StringFacet) (s : String) : Prop where
  length : ∃ n, f.length = .ok n ∧ n.toNat = (codeUnits s).length
  read : ∃ copied count, f.read ((codeUnits s).length + 1) = .ok (copied, count)
    ∧ codeUnits s <+: copied ∧ (codeUnits s).length ≤ count.toNat

/-! ### The live side -/

/-- Of a longer copy the buffer keeps the units that belong to the text. -/
theorem bufferUnits_of_prefix {front copied : List UInt16} (h : front <+: copied) :
    bufferUnits copied front.length = front := by
  rw [bufferUnits, ← List.prefix_iff_eq_take.mp h, List.rightpad, Nat.sub_self,
    List.replicate_zero, List.append_nil]

theorem StringFacet.Holds.text {f : StringFacet} {s : String} (h : f.Holds s) :
    f.text = .ok s := by
  obtain ⟨n, hlength, hn⟩ := h.length
  obtain ⟨copied, count, hread, hprefix, hcount⟩ := h.read
  rw [StringFacet.text, hlength, answer_ok_bind, hn, hread, answer_ok_bind]
  show Except.ok (String.ofList (Text.Utf16.decode
    (bufferUnits copied (min count.toNat (codeUnits s).length)))) = _
  rw [min_eq_right hcount, bufferUnits_of_prefix hprefix, codeUnits, Text.Utf16.decode_encode,
    String.ofList_toList]

namespace Debuggee

variable {V : Type} {d : Debuggee V} {o : Options} {alloc : Allocator} {s : String} {v t : V}

/-! ### The packed side -/

/-- An empty text is packed without memory, and any other as it is. The bytes are those of
    the text in either case. -/
theorem packText_eq_bytes (copied : s ≠ "" → alloc.text s = .ok s) :
    ∃ payload : Payload V, packText alloc s = .ok ⟨.string, payload⟩
      ∧ payload.bytes = Text.Utf8.encode s.toList := by
  by_cases hempty : s = ""
  · subst hempty
    exact ⟨.empty, rfl, rfl⟩
  · refine ⟨.text s, ?_, rfl⟩
    rw [packText, if_neg hempty, copied hempty, answer_ok_map]

theorem received_string (o : Options) (s : String) :
    received o .string (Text.Utf8.encode s.toList) = .ok ⟨"string", Text.quoted s⟩ := by
  rw [received, receivedText_text, answer_ok_map]
  rfl

/-! ### Both sides -/

/-- **A string crosses as it is shown.**  From the tag and the bytes alone a receiver shows
    the text that the live value has; a reader takes it for one quoted text, whatever
    follows it, and finds the characters of the string in it. -/
theorem string_sameOnBothSides {f : StringFacet}
    (hr : d.resolve o.maxDepth v = .ok ⟨t, false⟩)
    (tagged : (d.facets t).elementType = .ok .string) (facet : (d.facets t).string? = some f)
    (holds : f.Holds s) (copied : s ≠ "" → alloc.text s = .ok s) :
    ∃ p shown, d.marshal o alloc v = .ok p
      ∧ (∀ receiver : Options,
        (Tag.ofId p.tag.id).bind (received receiver · p.payload.bytes) = .ok ⟨"string", shown⟩)
      ∧ (∀ rest, Text.readQuoted? (shown.toList ++ rest) = some (s.toList, rest))
      ∧ d.valueText o true v = .ok shown
      ∧ d.valueText o false v = .ok s := by
  have hasked : d.stringText t = .ok s := by
    rw [stringText, facet]
    exact holds.text
  have hshown : ∀ escape, d.valueText o escape v
      = .ok ((if escape then Text.quoted else id) s) := by
    intro escape
    rw [valueText_of_terminal hr rfl, terminalText_string tagged, hasked, answer_ok_map]
  obtain ⟨payload, hpacked, hbytes⟩ := packText_eq_bytes (V := V) copied
  refine ⟨⟨.string, payload⟩, Text.quoted s, ?_, ?_, Text.readQuoted?_quoted s, hshown true,
    hshown false⟩
  · rw [marshal, hr, answer_ok_bind]
    show d.packTerminal alloc v t = _
    rw [packTerminal, tagged, answer_ok_bind]
    show d.stringText t >>= _ = _
    rw [hasked, answer_ok_bind, hpacked]
  · intro receiver
    rw [Tag.ofId_id, hbytes]
    exact received_string receiver s

/-- A string inside a box behind a reference. It has a quote, a backslash, a zero character
    and a character of two units in it. -/
theorem string_sameOnBothSides_escaped :
    let s := "\"\\\x00😀"
    let string : RecordedString := { units := codeUnits s }
    let d := (Recording.ofLists
      [{ elementType := .ok .object, reference := some { target := some (.ok 1) } },
       { elementType := .ok .object, boxed := some (.ok 2) },
       { elementType := .ok .string, string := some string }]
      []).debuggee
    d.resolve 64 0 = .ok ⟨2, false⟩ ∧ (d.facets 2).elementType = .ok .string
      ∧ (d.facets 2).string? = some string.facet ∧ string.facet.Holds s
      ∧ (Allocator.limited 7).text s = .ok s
      ∧ ∃ p shown, d.marshal {} (.limited 7) 0 = .ok p
        ∧ (∀ receiver : Options,
          (Tag.ofId p.tag.id).bind (received receiver · p.payload.bytes) = .ok ⟨"string", shown⟩)
        ∧ (∀ rest, Text.readQuoted? (shown.toList ++ rest) = some (s.toList, rest))
        ∧ d.valueText {} true 0 = .ok shown
        ∧ d.valueText {} false 0 = .ok s := by
  intro s string d
  have hr : d.resolve 64 0 = .ok ⟨2, false⟩ := rfl
  have holds : string.facet.Holds s := by
    constructor
    · exact ⟨5, by decide +kernel, by decide +kernel⟩
    · exact ⟨codeUnits s, 5, by decide +kernel, List.prefix_rfl, by decide +kernel⟩
  have copied : (Allocator.limited 7).text s = .ok s := by decide +kernel
  exact ⟨hr, rfl, rfl, holds, copied,
    string_sameOnBothSides (o := {}) hr rfl rfl holds (fun _ => copied)⟩

end Debuggee

end Inspector
