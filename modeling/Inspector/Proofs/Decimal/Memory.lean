/-
  Inspector/Proofs/Decimal/Memory.lean
  ====================================
  **Decimals in memory.**

  A decimal takes sixteen bytes in memory, the words in the order flags, high, low, middle
  (`toBytes_eq`).  Decoding reads them from the front of any longer contents
  (`ofBytes_toBytes_append`), and what it reads is written as the bytes that were there
  (`toBytes_of_ofBytes`), so a copy of a decimal through its words changes nothing.  Only
  contents that are too short do not decode (`ofBytes_eq_error_iff`).  Both are four steps of
  a cursor in a row, and no write into the fresh buffer is refused (`memory_roundTrip`).
-/
import Inspector.Decimal.Basic
import Inspector.Proofs.Bytes.Sequential
import Inspector.Proofs.Debuggee.Answers

namespace Inspector.Decimal

/-! ### One word -/

def wordBytes (w : UInt32) : Bytes :=
  Bytes.ofNat 4 w.toNat

@[simp] theorem length_wordBytes (w : UInt32) : (wordBytes w).length = 4 :=
  Bytes.length_ofNat _ _

theorem lt_limit (w : UInt32) : w.toNat < Bytes.limit 4 := by
  rw [Bytes.limit_four]
  exact w.toNat_lt

@[simp] theorem word_wordBytes_append (w : UInt32) (rest : Bytes) :
    Bytes.word 4 (wordBytes w ++ rest) = .ok w.toNat :=
  Bytes.word_ofNat_append (lt_limit w) rest

theorem drop_wordBytes_append (w : UInt32) (n : Nat) (rest : Bytes) :
    (wordBytes w ++ rest).drop (4 + n) = rest.drop n := by
  rw [← List.drop_drop, ← length_wordBytes w, List.drop_left]

theorem bytes_uint32 (w : UInt32) :
    (ItemType.integer .uint32).bytes w.toNat = wordBytes w := by
  have hword : (ItemType.integer .uint32).toWord w.toNat = w.toNat := by
    have hlt : w.toNat < 4294967296 := w.toNat_lt
    simp only [ItemType.toWord, ItemType.width, IntegerType.width, Bytes.limit_four]
    omega
  rw [ItemType.bytes, hword]
  rfl

theorem toNat_of_word {data : Bytes} {n : Nat} (h : Bytes.word 4 data = .ok n) :
    (UInt32.ofNat n).toNat = n := by
  rw [UInt32.toNat_ofNat']
  exact Nat.mod_eq_of_lt (Bytes.word_eq_ok h).2.1

theorem wordBytes_of_word {data : Bytes} {n : Nat} (h : Bytes.word 4 data = .ok n) :
    4 ≤ data.length ∧ wordBytes (UInt32.ofNat n) = data.take 4 := by
  obtain ⟨hlen, _, hbytes⟩ := Bytes.word_eq_ok h
  exact ⟨hlen, by rw [wordBytes, toNat_of_word h, hbytes]⟩

/-! ### All four words -/

/-- All four words fit into a fresh buffer and fill it. -/
theorem writeAll_items (d : Decimal) :
    (Cursor.start (List.replicate size 0)).writeAll d.items
      = (.ok (), Cursor.between (bytesOf d.items) []) := by
  -- the fresh buffer is one gap, with nothing before and nothing behind it
  have hstart : Cursor.start (List.replicate size 0)
      = Cursor.between [] (List.replicate size 0 ++ []) := rfl
  have hgap : (bytesOf d.items).length = (List.replicate size (0 : UInt8)).length := by
    simp [bytesOf, items, bytes_uint32, size]
  rw [hstart, Cursor.writeAll_between hgap (by decide)]
  rfl

theorem toBytes_eq (d : Decimal) :
    d.toBytes = wordBytes d.flags ++ (wordBytes d.hi ++ (wordBytes d.lo ++ wordBytes d.mid)) := by
  rw [toBytes, writeAll_items]
  simp [Cursor.between, bytesOf, items, bytes_uint32]

theorem length_toBytes (d : Decimal) : d.toBytes.length = size := by
  simp [toBytes_eq, size]

/-- Decoding reads a decimal from the front of its contents and looks at nothing behind it. -/
theorem ofBytes_toBytes_append (d : Decimal) (rest : Bytes) :
    ofBytes (d.toBytes ++ rest) = .ok d := by
  rw [toBytes_eq]
  simp only [ofBytes, List.append_assoc, drop_wordBytes_append _ 0, drop_wordBytes_append _ 4,
    drop_wordBytes_append _ 8, List.drop_zero, word_wordBytes_append, answer_ok_bind,
    UInt32.ofNat_toNat]
  rfl

theorem ofBytes_toBytes (d : Decimal) : ofBytes d.toBytes = .ok d := by
  have h := d.ofBytes_toBytes_append []
  rwa [List.append_nil] at h

/-- Decoding takes the bytes of a decimal off the front, and no shorter contents are enough. -/
theorem toBytes_of_ofBytes {data : Bytes} {d : Decimal} (h : ofBytes data = .ok d) :
    size ≤ data.length ∧ d.toBytes = data.take size := by
  obtain ⟨flags, hflags, h⟩ := answer_bind_eq_ok.mp h
  obtain ⟨hi, hhi, h⟩ := answer_bind_eq_ok.mp h
  obtain ⟨lo, hlo, h⟩ := answer_bind_eq_ok.mp h
  obtain ⟨mid, hmid, h⟩ := answer_bind_eq_ok.mp h
  cases h
  obtain ⟨-, eflags⟩ := wordBytes_of_word hflags
  obtain ⟨-, ehi⟩ := wordBytes_of_word hhi
  obtain ⟨-, elo⟩ := wordBytes_of_word hlo
  obtain ⟨hlen, emid⟩ := wordBytes_of_word hmid
  rw [List.length_drop] at hlen
  refine ⟨by simp only [size]; omega, ?_⟩
  rw [toBytes_eq]
  simp only [eflags, ehi, elo, emid]
  rw [show size = 4 + (4 + (4 + 4)) from rfl]
  simp only [List.take_add, List.drop_drop]

theorem ofBytes_eq_error {data : Bytes} {e : Error} (h : ofBytes data = .error e) :
    data.length < size ∧ e = .outOfBounds := by
  have short : ∀ n, n + 4 ≤ size → Bytes.word 4 (data.drop n) = .error e →
      data.length < size ∧ e = .outOfBounds := by
    intro n hn hword
    obtain ⟨hlen, he⟩ := Bytes.word_eq_error hword
    rw [List.length_drop] at hlen
    exact ⟨by omega, he⟩
  obtain hflags | ⟨flags, -, h⟩ := answer_bind_eq_error.mp h
  · exact short 0 (by decide) hflags
  obtain hhi | ⟨hi, -, h⟩ := answer_bind_eq_error.mp h
  · exact short 4 (by decide) hhi
  obtain hlo | ⟨lo, -, h⟩ := answer_bind_eq_error.mp h
  · exact short 8 (by decide) hlo
  obtain hmid | ⟨mid, -, h⟩ := answer_bind_eq_error.mp h
  · exact short 12 (by decide) hmid
  cases h

/-- Decoding is reading four words in a row. -/
theorem readAll_eq_ofBytes (data : Bytes) :
    ((Cursor.start data).readAll (List.replicate 4 (.integer .uint32))).1
      = (ofBytes data).map (fun d => d.items.map Prod.snd) := by
  have hread : ∀ k ts, k + 4 < UInt64.size →
      (Cursor.readAll (.integer .uint32 :: ts) ⟨data, UInt64.ofNat k⟩).1
        = Bytes.word 4 (data.drop k) >>= fun word =>
          (Cursor.readAll ts ⟨data, UInt64.ofNat (k + 4)⟩).1.map ((word : Int) :: ·) :=
    fun k ts hk => Cursor.readAll_cons_fst (t := .integer .uint32) hk ts
  have hstart : Cursor.start data = ⟨data, UInt64.ofNat 0⟩ := rfl
  simp only [hstart, List.replicate, hread 0 _ (by decide), hread 4 _ (by decide),
    hread 8 _ (by decide), hread 12 _ (by decide), ofBytes, Nat.reduceAdd, List.drop_zero]
  cases hflags : Bytes.word 4 data with
  | error e => rfl
  | ok flags =>
    cases hhi : Bytes.word 4 (data.drop 4) with
    | error e => rfl
    | ok hi =>
      cases hlo : Bytes.word 4 (data.drop 8) with
      | error e => rfl
      | ok lo =>
        cases hmid : Bytes.word 4 (data.drop 12) with
        | error e => rfl
        | ok mid =>
          simp [items, Cursor.readAll, toNat_of_word hflags, toNat_of_word hhi,
            toNat_of_word hlo, toNat_of_word hmid]

/-- Contents fail to decode exactly if they are too short. -/
theorem ofBytes_eq_error_iff {data : Bytes} {e : Error} :
    ofBytes data = .error e ↔ data.length < size ∧ e = .outOfBounds := by
  constructor
  · exact ofBytes_eq_error
  · rintro ⟨hlen, rfl⟩
    cases h : ofBytes data with
    | ok d =>
      have hlong := (toBytes_of_ofBytes h).1
      omega
    | error e => rw [(ofBytes_eq_error h).2]

/-- **The words of a decimal and its sixteen bytes determine each other.**  What is encoded is
    decoded, whatever follows it; contents that are long enough are decoded as the decimal
    whose bytes they start with, and no others are.  Decoding is four reads in a row and
    encoding four writes into a fresh buffer, none of which is refused. -/
theorem memory_roundTrip :
    (∀ (p : Decimal) (rest : Bytes), ofBytes (p.toBytes ++ rest) = .ok p)
      ∧ (∀ data : Bytes,
        (data.length < 16 ∧ ofBytes data = .error .outOfBounds)
          ∨ (16 ≤ data.length ∧ ∃ p, ofBytes data = .ok p ∧ p.toBytes = data.take 16))
      ∧ (∀ data : Bytes,
        ((Cursor.start data).readAll (List.replicate 4 (.integer .uint32))).1
          = (ofBytes data).map
            (fun p => [(p.flags.toNat : Int), p.hi.toNat, p.lo.toNat, p.mid.toNat]))
      ∧ ∀ p : Decimal, ∃ c₁ c₂ c₃ c₄,
        (Cursor.start (List.replicate 16 0)).write (.integer .uint32) p.flags.toNat = (.ok (), c₁)
          ∧ c₁.write (.integer .uint32) p.hi.toNat = (.ok (), c₂)
          ∧ c₂.write (.integer .uint32) p.lo.toNat = (.ok (), c₃)
          ∧ c₃.write (.integer .uint32) p.mid.toNat = (.ok (), c₄)
          ∧ c₄.data = p.toBytes := by
  refine ⟨ofBytes_toBytes_append, ?_, readAll_eq_ofBytes, ?_⟩
  · intro data
    cases h : ofBytes data with
    | ok p =>
      obtain ⟨hlong, hbytes⟩ := toBytes_of_ofBytes h
      exact .inr ⟨hlong, p, rfl, hbytes⟩
    | error e =>
      obtain ⟨hshort, rfl⟩ := ofBytes_eq_error h
      exact .inl ⟨hshort, rfl⟩
  · intro p
    obtain ⟨c₁, hflags, h⟩ := Cursor.writeAll_cons_eq_ok.mp p.writeAll_items
    obtain ⟨c₂, hhi, h⟩ := Cursor.writeAll_cons_eq_ok.mp h
    obtain ⟨c₃, hlo, h⟩ := Cursor.writeAll_cons_eq_ok.mp h
    obtain ⟨c₄, hmid, h⟩ := Cursor.writeAll_cons_eq_ok.mp h
    refine ⟨c₁, c₂, c₃, c₄, hflags, hhi, hlo, hmid, ?_⟩
    -- no item is left behind the fourth one
    cases h
    rw [toBytes, writeAll_items]

end Inspector.Decimal
