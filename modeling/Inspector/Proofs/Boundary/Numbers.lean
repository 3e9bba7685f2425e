/-
  Inspector/Proofs/Boundary/Numbers.lean
  ======================================
  **Numbers cross without loss.**

  A number goes through two codes on its way to the reader: the bytes of its type and a
  numeral.  Both are undone here.  The numbers of an integer type and the words of an
  address are read back from their bytes, the texts are canonical and are read back as the
  numbers, and so whatever number is packed is the number that is shown (`numbers_cross`).

  A function pointer crosses as its address.  Its contents are asked for all the same, and a
  null one is a null like any other, so an address may stay hidden
  (`functionPointer_hides_address`).
-/
import Inspector.Debuggee.Recording
import Inspector.Proofs.Boundary.Packing
import Inspector.Proofs.Boundary.Receiving
import Inspector.Proofs.Bytes.Integers

namespace Inspector

/-! ### Integers and addresses -/

/-- The tag under which the numbers of a type cross. -/
def IntegerType.tag : IntegerType → Tag
  | uint8 => .uint8
  | int8 => .int8
  | uint16 => .uint16
  | int16 => .int16
  | uint32 => .uint32
  | int32 => .int32
  | uint64 => .uint64
  | int64 => .int64

variable {o : Options}

theorem receivedText_integer (t : IntegerType) (data : Bytes) :
    receivedText o t.tag data = (t.read data).map Int.repr := by
  cases t <;> exact answer_map_map _ _ _

theorem received_integer {t : IntegerType} {n : Int} (h : t.InRange n) :
    received o t.tag ((ItemType.integer t).bytes n) = .ok ⟨t.tag.typeName, n.repr⟩ := by
  have hread := t.read_bytes_append h []
  rw [List.append_nil] at hread
  rw [received, receivedText_integer, hread, answer_ok_map, answer_ok_map]

theorem received_address {tag : Tag} {width n : Nat} (hsize : tag.isAddressSized = true)
    (hwidth : width = 4 ∨ width = 8) (h : n < 2 ^ (8 * width)) :
    received o tag (Bytes.ofNat width n) = .ok ⟨tag.typeName, Text.address n⟩ := by
  have hlimit : n < Bytes.limit width := by rwa [Bytes.limit_eq_two_pow]
  rw [received, receivedText_addressSized hsize, Bytes.nativeWord_ofNat hwidth hlimit,
    answer_ok_map, answer_ok_map]

/-! ### Function pointers -/

theorem functionPointerText_inj {m n : Nat} (h : functionPointerText m = functionPointerText n) :
    m = n := by
  have hfront := (String.append_left_inj _).mp h
  exact Text.address_inj ((String.append_right_inj _).mp hfront)

namespace Debuggee

variable {V : Type} {d : Debuggee V} {alloc : Allocator} {v target : V} {address : UInt64}

/-- A function pointer with contents and an address, at the end of the chain of `v`. -/
structure IsFunctionPointer (d : Debuggee V) (limit : Nat) (v target : V) (address : UInt64) :
    Prop where
  ends : ∃ data, d.EndsIn limit v target .functionPointer data
  address : ∃ r, (d.facets target).reference? = some r ∧ r.address = .ok address

theorem IsFunctionPointer.functionAddress {limit : Nat}
    (h : d.IsFunctionPointer limit v target address) : d.functionAddress target = address := by
  obtain ⟨r, hreference, haddress⟩ := h.address
  rw [Debuggee.functionAddress, hreference]
  dsimp only
  rw [haddress]

theorem IsFunctionPointer.marshal (h : d.IsFunctionPointer o.maxDepth v target address) :
    d.marshal o alloc v = .ok ⟨.nativeInt, .inline (Bytes.ofNat 8 address.toNat)⟩ := by
  obtain ⟨data, hend⟩ := h.ends
  rw [hend.marshal (by decide) rfl, ← h.functionAddress]
  rfl

theorem IsFunctionPointer.valueText (h : d.IsFunctionPointer o.maxDepth v target address)
    (escape : Bool) : d.valueText o escape v = .ok (functionPointerText address.toNat) := by
  obtain ⟨data, hend⟩ := h.ends
  rw [hend.valueText (by decide) rfl, ← h.functionAddress]
  rfl

/-! ### Every number -/

/-- **A number is shown as the number that was packed.**  The bytes of an integer give its
    canonical numeral and those of an address its canonical text in base sixteen, which are
    read back as the number.  A function pointer that is not null and has contents is shown
    by its address, on both sides, and two of them with different addresses are shown
    differently. -/
theorem numbers_cross (d : Debuggee V) (o : Options) :
    (∀ (t : IntegerType) (n : Int), t.InRange n → ∃ text,
        received o t.tag ((ItemType.integer t).bytes n) = .ok ⟨t.tag.typeName, text⟩
          ∧ Text.IsNumeral n text.toList)
      ∧ (∀ (tag : Tag) (width n : Nat), tag.isAddressSized = true → width = 4 ∨ width = 8 →
        n < 2 ^ (8 * width) → ∃ text,
          received o tag (Bytes.ofNat width n) = .ok ⟨tag.typeName, text⟩
            ∧ Text.IsAddress n text.toList)
      ∧ (∀ v target a, d.IsFunctionPointer o.maxDepth v target a → ∀ alloc, ∃ p text,
        d.marshal o alloc v = .ok p
          ∧ (∀ o', received o' p.tag p.payload.bytes = .ok ⟨"IntPtr", text⟩)
          ∧ Text.IsAddress a.toNat text.toList
          ∧ ∀ escape, d.valueText o escape v = .ok ("<function pointer " ++ text ++ ">"))
      ∧ ∀ v w target target' a b, d.IsFunctionPointer o.maxDepth v target a →
        d.IsFunctionPointer o.maxDepth w target' b → a ≠ b → ∀ alloc, ∃ p q,
          d.marshal o alloc v = .ok p ∧ d.marshal o alloc w = .ok q
            ∧ (∀ o', received o' p.tag p.payload.bytes ≠ received o' q.tag q.payload.bytes)
            ∧ ∀ escape, d.valueText o escape v ≠ d.valueText o escape w := by
  have shown (o' : Options) (a : UInt64) :
      received o' .nativeInt (Bytes.ofNat 8 a.toNat) = .ok ⟨"IntPtr", Text.address a.toNat⟩ :=
    received_address rfl (.inr rfl) a.toNat_lt
  refine ⟨?_, ?_, ?_, ?_⟩
  · exact fun t n h => ⟨n.repr, received_integer h, Text.isNumeral_repr n⟩
  · exact fun tag width n hsize hwidth h =>
      ⟨Text.address n, received_address hsize hwidth h, Text.isAddress_address n⟩
  · intro v target a h alloc
    exact ⟨_, Text.address a.toNat, h.marshal, fun o' => shown o' a,
      Text.isAddress_address a.toNat, h.valueText⟩
  · intro v w target target' a b hv hw hne alloc
    have hnat : a.toNat ≠ b.toNat := fun heq => hne (UInt64.toNat_inj.mp heq)
    refine ⟨_, _, hv.marshal, hw.marshal, fun o' heq => hnat ?_, fun escape heq => hnat ?_⟩
    · have hlabelled := Except.ok.inj ((shown o' a).symm.trans (heq.trans (shown o' b)))
      exact Text.address_inj (congrArg Labelled.text hlabelled)
    · rw [hv.valueText, hw.valueText] at heq
      exact functionPointerText_inj (Except.ok.inj heq)

/-- The least number of a byte, an address in four bytes, and two function pointers, one of
    them in a box. -/
theorem numbers_cross_least :
    let code (address : UInt64) : RecordedValue :=
      { elementType := .ok .functionPointer, contents := some (.ok []),
        reference := some { address := some (.ok address) } }
    let d := (Recording.ofLists
      [code 4096, { elementType := .ok .object, boxed := some (.ok 2) }, code 65535] []).debuggee
    (IntegerType.int8.InRange (-128)
        ∧ ∃ text, received {} .int8 ((ItemType.integer .int8).bytes (-128)) = .ok ⟨"sbyte", text⟩
          ∧ Text.IsNumeral (-128) text.toList)
      ∧ (3735928559 < 2 ^ (8 * 4)
        ∧ ∃ text, received {} .nativeUInt (Bytes.ofNat 4 3735928559) = .ok ⟨"UIntPtr", text⟩
          ∧ Text.IsAddress 3735928559 text.toList)
      ∧ (d.IsFunctionPointer 64 0 0 4096 ∧ ∃ p text, d.marshal {} .heap 0 = .ok p
        ∧ (∀ o', received o' p.tag p.payload.bytes = .ok ⟨"IntPtr", text⟩)
        ∧ Text.IsAddress 4096 text.toList
        ∧ ∀ escape, d.valueText {} escape 0 = .ok ("<function pointer " ++ text ++ ">"))
      ∧ d.IsFunctionPointer 64 1 2 65535 ∧ ∃ p q, d.marshal {} .heap 0 = .ok p
        ∧ d.marshal {} .heap 1 = .ok q
        ∧ (∀ o', received o' p.tag p.payload.bytes ≠ received o' q.tag q.payload.bytes)
        ∧ ∀ escape, d.valueText {} escape 0 ≠ d.valueText {} escape 1 := by
  intro code d
  have first : d.IsFunctionPointer 64 0 0 4096 := ⟨⟨_, rfl, rfl, rfl⟩, _, rfl, rfl⟩
  have second : d.IsFunctionPointer 64 1 2 65535 := ⟨⟨_, rfl, rfl, rfl⟩, _, rfl, rfl⟩
  have least : IntegerType.int8.InRange (-128) := by decide
  obtain ⟨integers, addresses, pointers, distinct⟩ := numbers_cross d {}
  exact ⟨⟨least, integers .int8 (-128) least⟩,
    ⟨by decide, addresses .nativeUInt 4 3735928559 rfl (.inl rfl) (by decide)⟩,
    ⟨first, pointers 0 0 4096 first .heap⟩,
    second, distinct 0 1 0 2 4096 65535 first second (by decide) .heap⟩

/-! ### Addresses that stay hidden -/

/-- A null function pointer crosses as the null that it is and not as the address zero, and
    one without contents does not cross although its address can be read. -/
theorem functionPointer_hides_address :
    let null : RecordedValue :=
      { elementType := .ok .functionPointer, contents := some (.ok (List.replicate 8 0)),
        reference := some { address := some (.ok 0) } }
    let bare : RecordedValue :=
      { elementType := .ok .functionPointer, reference := some { address := some (.ok 4096) } }
    let d := (Recording.ofLists [null, bare] []).debuggee
    let address? (v : Nat) := (d.facets v).reference?.map (·.address)
    (address? 0 = some (.ok 0)
        ∧ d.marshal {} .heap 0 = .ok ⟨.nullReference, .empty⟩
        ∧ received {} .nullReference [] = .ok ⟨"object", "null"⟩
        ∧ "null" ≠ Text.address 0)
      ∧ address? 1 = some (.ok 4096)
        ∧ d.marshal {} .heap 1
          = .error (.unsupportedShape (.withoutContents .functionPointer)) := by
  intro null bare d address?
  exact ⟨⟨rfl, rfl, rfl, by decide⟩, rfl, rfl⟩

end Debuggee

end Inspector
