/-
  Inspector/Proofs/Boundary/Snapshots.lean
  ========================================
  **What a slot shows after the debuggee ran on.**

  An event changes the debuggee or one slot, so a slot that no event names keeps its
  parcel through a whole run (`slot?_run`).  What it shows then depends on who owns the
  payload.  A copied value and the bytes of a decimal are shown as they were at the moment
  of the packing, whatever became of the value since; a handle is shown as its value is
  now.  `StillShows` says this payload by payload.
-/
import Inspector.Boundary.Session
import Inspector.Debuggee.Recording
import Inspector.Proofs.Boundary.Agreement
import Inspector.Proofs.Boundary.Decimals
import Inspector.Proofs.Boundary.Receiving

namespace Inspector

/-! ### What a payload says about its value -/

namespace Debuggee

variable {V : Type} {d : Debuggee V} {o : Options} {alloc : Allocator} {v w : V} {p : Parcel V}

/-- A copy shows what the live value showed when it was made. -/
theorem receivedText_of_marshal (faithful : alloc.IsFaithful) (packed : d.marshal o alloc v = .ok p)
    (noHandle : ∀ w, p.payload ≠ .handle w) (noBlock : ∀ b, p.payload ≠ .block b)
    (hint : p.tag ≠ .nativeInt) (huint : p.tag ≠ .nativeUInt) :
    receivedText o p.tag p.payload.bytes = d.valueText o true v := by
  obtain ⟨r, hr, ⟨hnull, rfl⟩ | ⟨hnull, tag, htag, hpacked⟩⟩ := marshal_eq_ok packed
  · exact (valueText_of_null hr hnull).symm
  · have hagrees := agrees_of_packedAs faithful htag hpacked noBlock
      (valueText_of_terminal hr hnull)
    have hsize : tag.isAddressSized = false :=
      Bool.eq_false_iff.mpr fun h => (hpacked.isAddressSized_iff.mp h).elim hint huint
    rw [← shownText_of_bytes p.tag noHandle]
    exact (agrees_iff_eq hsize).mp hagrees

end Debuggee

namespace Session

variable {V : Type} {s moment now : Session V} {slot other : String} {v : V} {p : Parcel V}
  {alloc : Allocator}

/-! ### Slots that no event names -/

def Event.touches (slot : String) : Event V → Bool
  | .resume _ => false
  | .store other _ _ | .drop other => other == slot

theorem options_handle (s : Session V) (e : Event V) : (s.handle e).options = s.options := by
  cases e with
  | resume => rfl
  | drop => rfl
  | store slot v alloc =>
    rw [handle, store]
    split <;> rfl

theorem options_run (s : Session V) (events : List (Event V)) :
    (s.run events).options = s.options := by
  induction events generalizing s with
  | nil => rfl
  | cons e events ih => exact (ih (s.handle e)).trans (options_handle s e)

theorem slot?_drop_of_ne (h : other ≠ slot) : (s.drop other).slot? slot = s.slot? slot := by
  rw [slot?, slot?, drop]
  induction s.slots with
  | nil => rfl
  | cons entry slots ih =>
    obtain ⟨name, q⟩ := entry
    by_cases hname : name = other
    · subst hname
      have hne : (slot == name) = false := beq_false_of_ne h.symm
      simp [List.lookup_cons, hne, ih]
    · simp [List.lookup_cons, hname, ih]

theorem slot?_store_of_ne (h : other ≠ slot) :
    (s.store other v alloc).2.slot? slot = s.slot? slot := by
  have hdrop : (s.drop other).slot? slot = s.slot? slot := slot?_drop_of_ne h
  rw [store]
  split
  · have hne : (slot == other) = false := beq_false_of_ne h.symm
    rw [slot?, List.lookup_cons, hne]
    exact hdrop
  · exact hdrop

theorem slot?_handle {e : Event V} (h : e.touches slot = false) :
    (s.handle e).slot? slot = s.slot? slot := by
  cases e with
  | resume => rfl
  | drop other => exact slot?_drop_of_ne (ne_of_beq_false h)
  | store other v alloc => exact slot?_store_of_ne (ne_of_beq_false h)

theorem slot?_run {events : List (Event V)} (h : ∀ e ∈ events, e.touches slot = false) :
    (s.run events).slot? slot = s.slot? slot := by
  induction events generalizing s with
  | nil => rfl
  | cons e events ih =>
    obtain ⟨he, hevents⟩ := List.forall_mem_cons.mp h
    exact (ih hevents).trans (slot?_handle he)

/-- A value that packs is found in its slot. -/
theorem slot?_store (h : (s.store slot v alloc).1 = .ok p) :
    s.debuggee.marshal s.options alloc v = .ok p
      ∧ (s.store slot v alloc).2.slot? slot = some p := by
  rw [store] at h ⊢
  cases hmarshal : s.debuggee.marshal s.options alloc v with
  | error e =>
    rw [hmarshal] at h
    cases h
  | ok q =>
    rw [hmarshal] at h
    cases h
    exact ⟨rfl, List.lookup_cons_self⟩

/-! ### What a filled slot shows -/

/-- What a slot shows `now`, if its parcel was packed from `v` at a `moment` that may be long
    past.  Only a number of the size of an address is shown in another way than its value
    was. -/
def StillShows (moment now : Session V) (slot : String) (v : V) (p : Parcel V) : Prop :=
  match p.payload with
  | .handle w =>
    w = v
      ∧ (now.display? slot).map (·.map Labelled.text)
        = some (now.debuggee.valueText now.options true v)
      ∧ now.crossed? slot = some (.ok ⟨"object", "null"⟩)
  | .block block =>
    ∃ r data decimal, moment.debuggee.resolve moment.options.maxDepth v = .ok r
      ∧ (moment.debuggee.facets r.value).contents? = some (.ok data)
      ∧ 16 ≤ data.length ∧ block = data.take 16 ∧ Decimal.ofBytes block = .ok decimal
      ∧ now.display? slot = some (.ok ⟨"decimal", decimal.text⟩)
      ∧ now.crossed? slot = some (.ok ⟨"decimal", decimal.text⟩)
  | payload =>
    let shown := received moment.options p.tag payload.bytes
    let live := moment.debuggee.valueText moment.options true v
    now.display? slot = some shown ∧ now.crossed? slot = some shown
      ∧ (p.tag ≠ .nativeInt → p.tag ≠ .nativeUInt →
        shown = live.map (⟨p.tag.typeName, ·⟩) ∧ ∀ e, live = .error e → e = .outOfBounds)

theorem display?_of_slot (h : s.slot? slot = some p) :
    s.display? slot = some (s.debuggee.parcelText s.options p) := by
  rw [display?, h, Option.map_some]

theorem crossed?_of_slot (h : s.slot? slot = some p) :
    s.crossed? slot = some (received s.options p.tag p.payload.bytes) := by
  rw [crossed?, h, Option.map_some]

theorem stillShows_of_copy (faithful : alloc.IsFaithful)
    (packed : moment.debuggee.marshal moment.options alloc v = .ok p)
    (hoptions : now.options = moment.options) (hslot : now.slot? slot = some p)
    (noHandle : ∀ w, p.payload ≠ .handle w) (noBlock : ∀ b, p.payload ≠ .block b) :
    StillShows moment now slot v p := by
  have hdisplay : now.display? slot = some (received moment.options p.tag p.payload.bytes) := by
    rw [display?_of_slot hslot, Debuggee.parcelText_of_bytes noHandle, hoptions]
  have hcrossed : now.crossed? slot = some (received moment.options p.tag p.payload.bytes) := by
    rw [crossed?_of_slot hslot, hoptions]
  unfold StillShows
  split
  · next w hpayload => exact absurd hpayload (noHandle w)
  · next b hpayload => exact absurd hpayload (noBlock b)
  · refine ⟨hdisplay, hcrossed, fun hint huint => ?_⟩
    have htext := Debuggee.receivedText_of_marshal faithful packed noHandle noBlock hint huint
    exact ⟨by rw [received, htext], fun e he => (receivedText_eq_error_iff.mp (htext.trans he)).2⟩

theorem stillShows_of_marshal (faithful : alloc.IsFaithful)
    (packed : moment.debuggee.marshal moment.options alloc v = .ok p)
    (hoptions : now.options = moment.options) (hslot : now.slot? slot = some p) :
    StillShows moment now slot v p := by
  cases hpayload : p.payload with
  | empty | inline | text =>
    apply stillShows_of_copy faithful packed hoptions hslot <;> simp [hpayload]
  | handle w =>
    obtain ⟨rfl, -⟩ := Debuggee.marshal_handle packed hpayload
    refine ⟨rfl, ?_, crossed?_of_slot hslot⟩
    rw [display?_of_slot hslot, Option.map_some]
    exact congrArg some (Debuggee.shownText_handle .liveHandle v)
  | block b =>
    obtain ⟨r, data, decimal, hr, hdata, hwords, rfl, -⟩ :=
      Debuggee.marshal_block faithful packed hpayload
    obtain ⟨hlen, hbytes⟩ := Decimal.toBytes_of_ofBytes hwords
    refine ⟨r, data, decimal, hr, hdata, hlen, hbytes, decimal.ofBytes_toBytes, ?_, ?_⟩
    · rw [display?_of_slot hslot]
      exact congrArg some (Debuggee.received_decimal now.options decimal)
    · rw [crossed?_of_slot hslot]
      exact congrArg some (Debuggee.received_decimal now.options decimal)

/-! ### Whole runs -/

/-- **A copy is a snapshot and a handle is live.**  Whatever happens before a value is packed
    into a slot and whatever happens afterwards, as long as no event names the slot, the slot
    keeps the parcel and shows it as `StillShows` says. -/
theorem run_stillShows (faithful : alloc.IsFaithful) (before after : List (Event V))
    (stored : ((s.run before).store slot v alloc).1 = .ok p)
    (untouched : ∀ e ∈ after, e.touches slot = false) :
    let now := s.run (before ++ .store slot v alloc :: after)
    now.slot? slot = some p ∧ StillShows (s.run before) now slot v p := by
  intro now
  obtain ⟨packed, hstored⟩ := slot?_store stored
  have hnow : now = ((s.run before).store slot v alloc).2.run after := by
    simp only [now, run, List.foldl_append, List.foldl_cons, handle]
  have hslot : now.slot? slot = some p := by rw [hnow, slot?_run untouched, hstored]
  have hoptions : now.options = (s.run before).options := by
    rw [hnow, options_run]
    exact options_handle (s.run before) (.store slot v alloc)
  exact ⟨hslot, stillShows_of_marshal faithful packed hoptions hslot⟩

/-- An array crosses as a handle and a truth value as a copy, and then they change places. -/
theorem run_stillShows_exchanged :
    let array : RecordedValue :=
      { elementType := .ok .vector, array := some { dimensions := .ok [2] } }
    let boolean : RecordedValue := { elementType := .ok .boolean, contents := some (.ok [1]) }
    let s : Session Nat := ⟨(Recording.ofLists [array, boolean] []).debuggee, {}, []⟩
    let storeArray : Event Nat := .store "a" 0 .heap
    let storeBoolean : Event Nat := .store "b" 1 .heap
    let exchange : Event Nat := .resume (Recording.ofLists [boolean, array] []).debuggee
    let now := s.run [storeArray, storeBoolean, exchange]
    Allocator.heap.IsFaithful
      ∧ ((s.store "a" 0 .heap).1 = .ok ⟨.liveHandle, .handle 0⟩
        ∧ (∀ e ∈ [storeBoolean, exchange], e.touches "a" = false)
        ∧ now.slot? "a" = some ⟨.liveHandle, .handle 0⟩
        ∧ StillShows s now "a" 0 ⟨.liveHandle, .handle 0⟩)
      ∧ ((s.run [storeArray]).store "b" 1 .heap).1 = .ok ⟨.boolean, .inline [1]⟩
        ∧ (∀ e ∈ [exchange], e.touches "b" = false)
        ∧ now.slot? "b" = some ⟨.boolean, .inline [1]⟩
        ∧ StillShows (s.run [storeArray]) now "b" 1 ⟨.boolean, .inline [1]⟩ := by
  intro array boolean s storeArray storeBoolean exchange now
  have handle : (s.store "a" 0 .heap).1 = .ok ⟨.liveHandle, .handle 0⟩ := rfl
  have copy : ((s.run [storeArray]).store "b" 1 .heap).1 = .ok ⟨.boolean, .inline [1]⟩ := rfl
  have untouchedArray : ∀ e ∈ [storeBoolean, exchange], e.touches "a" = false := by
    simp [storeBoolean, exchange, Event.touches]
  have untouchedBoolean : ∀ e ∈ [exchange], e.touches "b" = false := by
    simp [exchange, Event.touches]
  exact ⟨Allocator.isFaithful_heap,
    ⟨handle, untouchedArray,
      run_stillShows Allocator.isFaithful_heap [] [storeBoolean, exchange] handle untouchedArray⟩,
    copy, untouchedBoolean,
    run_stillShows Allocator.isFaithful_heap [storeArray] [exchange] copy untouchedBoolean⟩

end Session

end Inspector
