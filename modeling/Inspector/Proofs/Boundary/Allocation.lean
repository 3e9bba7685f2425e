/-
  Inspector/Proofs/Boundary/Allocation.lean
  =========================================
  **Too little memory hides nothing.**

  The allocator is asked once and last (`marshal_eq_copied`), so a request that it refuses
  comes from a value that could have been packed.  With a limited memory packing gives what
  it gives with any memory, the failures included; only the copy of a text or of a decimal
  is refused if it is larger than the limit, and then with its size in bytes
  (`marshal_limited`).
-/
import Inspector.Debuggee.Recording
import Inspector.Proofs.Boundary.Packing
import Inspector.Proofs.Decimal.Memory
import Inspector.Proofs.Text.Utf8

namespace Inspector

variable {V : Type}

/-! ### One request -/

theorem Allocator.bounded_map {α β : Type} (limit size : Nat) (a : α) (f : α → β) :
    (bounded limit size a).map f
      = if size ≤ limit then .ok (f a) else .error (.allocationFailure size) := by
  rw [bounded]
  by_cases h : size ≤ limit
  · rw [if_pos h, if_neg (by omega), answer_ok_map]
  · rw [if_neg h, if_pos (by omega), answer_error_map]

theorem Parcel.copied_limited_text (limit : Nat) (tag : Tag) (s : String) :
    (⟨tag, .text s⟩ : Parcel V).copied (.limited limit)
      = if s.utf8ByteSize ≤ limit then .ok ⟨tag, .text s⟩
        else .error (.allocationFailure s.utf8ByteSize) := by
  rw [← Text.Utf8.length_encode]
  exact Allocator.bounded_map limit _ s _

theorem Parcel.copied_limited_block (limit : Nat) (tag : Tag) (data : Bytes) :
    (⟨tag, .block data⟩ : Parcel V).copied (.limited limit)
      = if data.length ≤ limit then .ok ⟨tag, .block data⟩
        else .error (.allocationFailure data.length) :=
  Allocator.bounded_map limit _ data _

namespace Debuggee

variable {d : Debuggee V} {o : Options} {alloc : Allocator} {v : V} {p : Parcel V}

theorem length_of_marshal_block (faithful : alloc.IsFaithful)
    (packed : d.marshal o alloc v = .ok p) {b : Bytes} (h : p.payload = .block b) :
    b.length = 16 := by
  obtain ⟨_, _, decimal, -, -, -, -, rfl⟩ := marshal_block faithful packed h
  exact decimal.length_toBytes

/-! ### Every value -/

/-- **Only the copy of a payload can be refused.**  Whatever packing gives with memory for
    everything, it gives with memory for `limit` bytes, unless a text takes more bytes than
    that in UTF-8, or a decimal its sixteen. -/
theorem marshal_limited (d : Debuggee V) (o : Options) (limit : Nat) (v : V) :
    d.marshal o (.limited limit) v =
      match d.marshal o .heap v with
      | .error e => .error e
      | .ok p =>
        match p.payload with
        | .text s =>
          if s.utf8ByteSize ≤ limit then .ok p else .error (.allocationFailure s.utf8ByteSize)
        | .block _ => if 16 ≤ limit then .ok p else .error (.allocationFailure 16)
        | .empty | .inline _ | .handle _ => .ok p := by
  rw [marshal_eq_copied]
  cases packed : d.marshal o .heap v with
  | error e => rfl
  | ok p =>
    obtain ⟨tag, payload⟩ := p
    rw [answer_ok_bind]
    cases payload with
    | empty | inline | handle => rfl
    | text s => exact Parcel.copied_limited_text limit tag s
    | block data =>
      have hlen := length_of_marshal_block Allocator.isFaithful_heap packed rfl
      rw [Parcel.copied_limited_block, hlen]

/-- A text of two characters, three units and six bytes, and a decimal that is too short. Not
    even the least memory makes the decimal fail for another reason. -/
theorem marshal_limited_text :
    let d := (Recording.ofLists
      [{ elementType := .ok .string, string := some { units := [0xE9, 0xD83D, 0xDE00] } },
       { elementType := .ok .valueType, contents := some (.ok [0, 0, 2, 0]),
         exactType := some (.ok (.declared 1 ⟨0x02000004⟩ .valueType)) }]
      []).debuggee
    d.marshal {} .heap 0 = .ok ⟨.string, .text "é😀"⟩
      ∧ d.marshal {} (.limited 6) 0 = .ok ⟨.string, .text "é😀"⟩
      ∧ d.marshal {} (.limited 5) 0 = .error (.allocationFailure 6)
      ∧ d.marshal {} .heap 1 = .error .outOfBounds
      ∧ d.marshal {} (.limited 0) 1 = .error .outOfBounds := by
  intro d
  have text : d.marshal {} .heap 0 = .ok ⟨.string, .text "é😀"⟩ := by decide +kernel
  have short : d.marshal {} .heap 1 = .error .outOfBounds := by decide +kernel
  refine ⟨text, ?_, ?_, short, ?_⟩
  · rw [marshal_limited, text]
    exact if_pos (by decide)
  · rw [marshal_limited, text]
    exact if_neg (by decide)
  · rw [marshal_limited, short]

end Debuggee

end Inspector
