/-
  Inspector/Proofs/Boundary/Receiving.lean
  ========================================
  **Any bytes can be received.**

  A receiver has a tag and some bytes and nobody to ask about them, so it has to show
  whatever it gets.  `Tag.need` is the number of bytes that a tag asks for.  With fewer the
  bytes are out of bounds; with enough of them there is a text, it is not empty, and it
  depends on the front of the bytes alone (`received_total`).

  The invariant that carries this is `LooksAt`.  Words have it, and every reader is made of
  words, with two exceptions: a text is read to its end, and an address-sized number takes
  eight bytes instead of four as soon as there are eight.
-/
import Inspector.Boundary.Marshal
import Inspector.Proofs.Bytes.Buffer
import Inspector.Proofs.Bytes.NativeWord
import Inspector.Proofs.Decimal.Memory
import Inspector.Proofs.Decimal.Text
import Inspector.Proofs.Floating.General
import Inspector.Proofs.Text.Numerals

namespace Inspector

/-! ### Readers of the front of a buffer -/

/-- A reader that looks at the first `need` bytes and takes them whatever they are. -/
structure LooksAt {α : Type} (need : Nat) (read : Bytes → Except Error α) : Prop where
  short : ∀ data, data.length < need → read data = .error .outOfBounds
  enough : ∀ data, need ≤ data.length → ∃ a, read data = .ok a
  front : ∀ data, read (data.take need) = read data

namespace LooksAt

variable {α β : Type} {need : Nat} {read : Bytes → Except Error α}

theorem eq_error_iff (h : LooksAt need read) {data : Bytes} {e : Error} :
    read data = .error e ↔ data.length < need ∧ e = .outOfBounds := by
  rcases Nat.lt_or_ge data.length need with hlen | hlen
  · rw [h.short data hlen, Except.error.injEq]
    exact ⟨fun he => ⟨hlen, he.symm⟩, fun he => he.2.symm⟩
  · obtain ⟨a, ha⟩ := h.enough data hlen
    rw [ha]
    constructor
    · intro he
      cases he
    · rintro ⟨hlt, -⟩
      omega

theorem map (h : LooksAt need read) (f : α → β) :
    LooksAt need fun data => (read data).map f where
  short data hlen := by rw [h.short data hlen, answer_error_map]
  enough data hlen := by
    obtain ⟨a, ha⟩ := h.enough data hlen
    exact ⟨f a, by rw [ha, answer_ok_map]⟩
  front data := by rw [h.front]

theorem const (a : α) : LooksAt 0 fun _ => .ok a where
  short _ hlen := absurd hlen (Nat.not_lt_zero _)
  enough _ _ := ⟨a, rfl⟩
  front _ := rfl

theorem word (width : Nat) : LooksAt width (Bytes.word width) where
  short data hlen := by rw [Bytes.word, if_neg (by omega)]
  enough data hlen := ⟨_, by rw [Bytes.word, if_pos hlen]⟩
  front data := by simp [Bytes.word, List.take_take]

theorem decimal : LooksAt Decimal.size Decimal.ofBytes where
  short _ hlen := Decimal.ofBytes_eq_error_iff.mpr ⟨hlen, rfl⟩
  enough data hlen := by
    cases h : Decimal.ofBytes data with
    | ok d => exact ⟨d, rfl⟩
    | error e =>
      have hlt := (Decimal.ofBytes_eq_error h).1
      omega
  front data := by
    cases h : Decimal.ofBytes data with
    | ok d =>
      obtain ⟨-, hbytes⟩ := Decimal.toBytes_of_ofBytes h
      rw [← hbytes, Decimal.ofBytes_toBytes]
    | error e =>
      rw [List.take_of_length_le (Decimal.ofBytes_eq_error h).1.le, h]

end LooksAt

/-! ### How many bytes a tag takes -/

namespace Tag

def isAddressSized : Tag → Bool
  | nativeInt | nativeUInt => true
  | _ => false

/-- The number of bytes without which a tag cannot be shown. -/
def need : Tag → Nat
  | liveHandle | nullReference | string => 0
  | boolean | uint8 | int8 => 1
  | char | int16 | uint16 => 2
  | int32 | uint32 | float32 | nativeInt | nativeUInt => 4
  | int64 | uint64 | float64 => 8
  | decimal => 16

/-- The number of bytes that are looked at if there are `length` of them and the tag is
    not that of texts. -/
def reach (tag : Tag) (length : Nat) : Nat :=
  if tag.isAddressSized = true ∧ 8 ≤ length then 8 else tag.need

variable {tag : Tag}

theorem reach_of_fixed (hsize : tag.isAddressSized = false) (length : Nat) :
    tag.reach length = tag.need :=
  if_neg fun h => Bool.false_ne_true (hsize.symm.trans h.1)

theorem reach_of_addressSized (hsize : tag.isAddressSized = true) (data : Bytes) :
    tag.reach data.length = Bytes.nativeWidth data := by
  have hneed : tag.need = 4 := by cases tag <;> cases hsize <;> rfl
  simp only [reach, hsize, true_and, hneed, Bytes.nativeWidth]

theorem reach_le {length : Nat} (h : tag.need ≤ length) : tag.reach length ≤ length := by
  unfold reach
  split
  · next h8 => exact h8.2
  · exact h

end Tag

/-! ### Too few bytes, and the bytes behind the front -/

variable {o : Options} {tag : Tag}

/-- Every tag with an element type has a scalar to read. -/
theorem Scalar.read?_of_elementType? {kind : ElementType} (h : tag.elementType? = some kind)
    (data : Bytes) : ∃ answer, Scalar.read? kind data = some answer := by
  cases tag <;> cases h <;> exact ⟨_, rfl⟩

theorem looksAt_receivedText (o : Options) (hstring : tag ≠ .string)
    (hsize : tag.isAddressSized = false) : LooksAt tag.need (receivedText o tag) := by
  cases tag with
  | string => exact absurd rfl hstring
  | nativeInt | nativeUInt => cases hsize
  | liveHandle | nullReference => exact .const "null"
  | decimal => exact .map .decimal Decimal.text
  | boolean | char | float32 | float64 => exact .map (.map (.word _) _) (Scalar.text o true)
  | uint8 | int8 | uint16 | int16 | uint32 | int32 | uint64 | int64 =>
    exact .map (.map (.map (.word _) (IntegerType.ofWord _)) Scalar.integer) (Scalar.text o true)

theorem receivedText_addressSized (hsize : tag.isAddressSized = true) (data : Bytes) :
    receivedText o tag data = (Bytes.nativeWord data).map Text.address := by
  cases tag <;> cases hsize <;> rfl

theorem receivedText_eq_error_iff {data : Bytes} {e : Error} :
    receivedText o tag data = .error e ↔ data.length < tag.need ∧ e = .outOfBounds := by
  by_cases hstring : tag = .string
  · subst hstring
    simp [receivedText, Tag.need]
  cases hsize : tag.isAddressSized with
  | false => exact (looksAt_receivedText o hstring hsize).eq_error_iff
  | true =>
    have hneed : tag.need = 4 := by cases tag <;> cases hsize <;> rfl
    rw [receivedText_addressSized hsize, answer_map_eq_error, hneed]
    rcases Nat.lt_or_ge data.length 4 with hlen | hlen
    · simp [Bytes.nativeWord_of_short hlen, hlen, eq_comm]
    · simp [Bytes.nativeWord_of_long hlen, hlen]

theorem nativeWord_take (data : Bytes) :
    Bytes.nativeWord (data.take (Bytes.nativeWidth data)) = Bytes.nativeWord data := by
  have hwidth : Bytes.nativeWidth (data.take (Bytes.nativeWidth data))
      = Bytes.nativeWidth data := by
    unfold Bytes.nativeWidth
    simp only [List.length_take]
    split <;> split <;> omega
  rw [Bytes.nativeWord, hwidth]
  exact (LooksAt.word _).front data

/-- The text depends on no byte that is out of reach. -/
theorem receivedText_take (hstring : tag ≠ .string) (data : Bytes) :
    receivedText o tag (data.take (tag.reach data.length)) = receivedText o tag data := by
  cases hsize : tag.isAddressSized with
  | false =>
    rw [Tag.reach_of_fixed hsize]
    exact (looksAt_receivedText o hstring hsize).front data
  | true =>
    rw [Tag.reach_of_addressSized hsize, receivedText_addressSized hsize,
      receivedText_addressSized hsize, nativeWord_take]

theorem receivedText_append (hstring : tag ≠ .string) {data : Bytes}
    (hneed : tag.need ≤ data.length) (more : Bytes)
    (hreach : tag.reach (data ++ more).length = tag.reach data.length) :
    receivedText o tag (data ++ more) = receivedText o tag data := by
  rw [← receivedText_take hstring (data ++ more), hreach,
    List.take_append_of_le_length (Tag.reach_le hneed), receivedText_take hstring]

/-! ### No text is empty -/

theorem Floating.general_ne_empty (x : Floating) (digits : Nat) : x.general digits ≠ "" := by
  cases x with
  | nan => simp [general]
  | infinite negative => cases negative <;> simp [general]
  | finite negative m q =>
    rw [general, Ne, String.ofList_eq_empty_iff]
    apply List.append_ne_nil_of_right_ne_nil
    split
    · exact List.cons_ne_nil _ _
    · rw [positive]
      split
      · exact List.append_ne_nil_of_right_ne_nil _ (List.cons_ne_nil _ _)
      · rw [fixed_eq]
        exact Text.pointed_ne_nil (wholePart_ne_nil _ _) _

theorem Scalar.text_ne_empty (o : Options) (s : Scalar) : s.text o true ≠ "" := by
  cases s with
  | boolean byte =>
    rw [text, booleanText]
    split <;> decide
  | char unit => simp [text, charText]
  | integer n =>
    rw [text, Ne, ← String.toList_eq_nil_iff, Text.toList_repr]
    exact List.append_ne_nil_of_right_ne_nil _ Nat.toDigits_ne_nil
  | float32 x | float64 x => exact Floating.general_ne_empty x _

theorem Decimal.text_ne_empty (x : Decimal) : x.text ≠ "" := by
  rw [text, Ne, String.ofList_eq_empty_iff, chars_eq]
  exact List.append_ne_nil_of_right_ne_nil _ (Text.pointed_ne_nil x.wholeDigits_ne_nil _)

theorem receivedText_ne_empty {data : Bytes} {text : String}
    (h : receivedText o tag data = .ok text) : text ≠ "" := by
  unfold receivedText at h
  split at h
  case h_1 | h_2 =>
    cases h
    decide
  case h_3 | h_4 =>
    obtain ⟨n, -, rfl⟩ := answer_map_eq_ok.mp h
    simp [Text.address]
  case h_5 =>
    obtain ⟨x, -, rfl⟩ := answer_map_eq_ok.mp h
    exact x.text_ne_empty
  case h_6 =>
    cases h
    simp [Text.quoted]
  case h_7 hhandle hnull hint huint hdecimal hstring =>
    -- what is left has an element type, so the text comes from a scalar
    have hkind : ∃ kind, tag.elementType? = some kind := by
      cases tag with
      | liveHandle => exact absurd rfl hhandle
      | nullReference => exact absurd rfl hnull
      | decimal => exact absurd rfl hdecimal
      | string => exact absurd rfl hstring
      | _ => exact ⟨_, rfl⟩
    obtain ⟨kind, hkind⟩ := hkind
    obtain ⟨answer, hread⟩ := Scalar.read?_of_elementType? hkind data
    rw [hkind, Option.bind_some, hread] at h
    obtain ⟨scalar, -, rfl⟩ := answer_map_eq_ok.mp h
    exact scalar.text_ne_empty o

/-! ### Every buffer -/

theorem received_eq_error_iff {data : Bytes} {e : Error} :
    received o tag data = .error e ↔ data.length < tag.need ∧ e = .outOfBounds := by
  rw [received, answer_map_eq_error, receivedText_eq_error_iff]

theorem received_isOk_iff {data : Bytes} :
    (∃ shown, received o tag data = .ok shown) ↔ tag.need ≤ data.length := by
  cases h : received o tag data with
  | ok shown =>
    have hlen : ¬data.length < tag.need := by
      intro hlt
      rw [received_eq_error_iff.mpr ⟨hlt, rfl⟩] at h
      cases h
    exact ⟨fun _ => by omega, fun _ => ⟨shown, rfl⟩⟩
  | error e =>
    have hlt := (received_eq_error_iff.mp h).1
    constructor
    · rintro ⟨_, hok⟩
      cases hok
    · intro hlen
      omega

/-- **Received bytes are shown, whatever they are.**  They are shown if there are as many as
    the tag needs and are out of bounds otherwise.  What is shown has the name of the tag and
    a text that is not empty, and each tag with an element type has a scalar to show.  But
    for a text, bytes behind those that are needed change nothing; only an address-sized
    number goes over from four bytes to eight once there are eight. -/
theorem received_total (o : Options) (tag : Tag) (data : Bytes) :
    ((∃ shown, received o tag data = .ok shown) ↔ tag.need ≤ data.length)
      ∧ (∀ e, received o tag data = .error e ↔ data.length < tag.need ∧ e = .outOfBounds)
      ∧ (∀ shown, received o tag data = .ok shown →
        shown.typeName = tag.typeName ∧ shown.text ≠ "")
      ∧ (∀ kind, tag.elementType? = some kind →
        ∃ answer, Scalar.read? kind data = some answer)
      ∧ (tag ≠ .string →
        received o tag (data.take (tag.reach data.length)) = received o tag data
        ∧ ∀ more, tag.need ≤ data.length →
          (tag.isAddressSized = true → (data ++ more).length < 8 ∨ 8 ≤ data.length) →
          received o tag (data ++ more) = received o tag data)
      ∧ (tag.isAddressSized = true → 4 ≤ data.length →
        received o tag data = .ok ⟨tag.typeName,
          Text.address (Bytes.toNat (data.take (if 8 ≤ data.length then 8 else 4)))⟩) := by
  refine ⟨received_isOk_iff, fun e => received_eq_error_iff, ?_, ?_, ?_, ?_⟩
  · intro shown hshown
    obtain ⟨text, htext, rfl⟩ := answer_map_eq_ok.mp hshown
    exact ⟨rfl, receivedText_ne_empty htext⟩
  · exact fun kind hkind => Scalar.read?_of_elementType? hkind data
  · intro hstring
    refine ⟨by rw [received, received, receivedText_take hstring], ?_⟩
    intro more hneed hsame
    have hreach : tag.reach (data ++ more).length = tag.reach data.length := by
      have hle : data.length ≤ (data ++ more).length := by simp
      unfold Tag.reach
      cases hsize : tag.isAddressSized with
      | false => simp
      | true =>
        rcases hsame hsize with h | h
        · rw [if_neg (by omega), if_neg (by omega)]
        · rw [if_pos ⟨rfl, by omega⟩, if_pos ⟨rfl, h⟩]
    rw [received, received, receivedText_append hstring hneed more hreach]
  · intro hsize hlen
    rw [received, receivedText_addressSized hsize, Bytes.nativeWord_of_long hlen]
    rfl

/-- An unsigned address in four bytes, with three more bytes and with four. -/
theorem received_total_address :
    let data : Bytes := [239, 190, 173, 222]
    (∃ shown, received {} .nativeUInt data = .ok shown)
      ∧ (∀ e, received {} .nativeUInt [239, 190, 173] = .error e ↔ e = .outOfBounds)
      ∧ (∀ shown, received {} .nativeUInt data = .ok shown →
        shown.typeName = "UIntPtr" ∧ shown.text ≠ "")
      ∧ (∃ answer, Scalar.read? .nativeUInt data = some answer)
      ∧ received {} .nativeUInt (data ++ [1, 2, 3]) = received {} .nativeUInt data
      ∧ received {} .nativeUInt (data ++ [1, 2, 3, 4])
        = .ok ⟨"UIntPtr", Text.address 0x04030201deadbeef⟩ := by
  intro data
  obtain ⟨hok, -, hshown, hscalar, hfront, -⟩ := received_total {} .nativeUInt data
  obtain ⟨-, herror, -⟩ := received_total {} .nativeUInt [239, 190, 173]
  obtain ⟨-, -, -, -, -, hlong⟩ := received_total {} .nativeUInt (data ++ [1, 2, 3, 4])
  refine ⟨hok.mpr (by decide), fun e => ?_, hshown, hscalar _ rfl,
    (hfront (by decide)).2 [1, 2, 3] (by decide) (fun _ => Or.inl (by decide)), ?_⟩
  · rw [herror]
    exact and_iff_right (by decide)
  · exact hlong rfl (by decide)

end Inspector
