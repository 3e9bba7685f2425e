/-
  Inspector/Boundary/Session.lean
  ===============================
  **Parcels kept while the debuggee runs on.**

  A presentation layer keeps parcels in named slots.  Between two stops the debuggee
  runs, and afterwards its handles may answer differently.  A session is the debuggee of
  the moment with the slots; an event either changes the debuggee or changes one slot.
-/
import Inspector.Boundary.Marshal

namespace Inspector

structure Session (V : Type) where
  debuggee : Debuggee V
  options : Options
  slots : List (String × Parcel V) := []

namespace Session

variable {V : Type}

def slot? (s : Session V) (slot : String) : Option (Parcel V) :=
  s.slots.lookup slot

/-! ### Events -/

inductive Event (V : Type) where
  | resume (debuggee : Debuggee V)
  | store (slot : String) (value : V) (alloc : Allocator)
  | drop (slot : String)

def resume (s : Session V) (debuggee : Debuggee V) : Session V :=
  { s with debuggee }

def drop (s : Session V) (slot : String) : Session V :=
  { s with slots := s.slots.filter (·.1 != slot) }

/-- Pack a value into a slot. The slot is emptied first, and stays so if the packing fails. -/
def store (s : Session V) (slot : String) (value : V) (alloc : Allocator) :
    Answer (Parcel V) × Session V :=
  let emptied := s.drop slot
  match s.debuggee.marshal s.options alloc value with
  | .ok p => (.ok p, { emptied with slots := (slot, p) :: emptied.slots })
  | .error e => (.error e, emptied)

def handle (s : Session V) : Event V → Session V
  | .resume debuggee => s.resume debuggee
  | .store slot value alloc => (s.store slot value alloc).2
  | .drop slot => s.drop slot

def run (s : Session V) (events : List (Event V)) : Session V :=
  events.foldl handle s

/-! ### Looking at a slot -/

def display? (s : Session V) (slot : String) : Option (Answer Labelled) :=
  (s.slot? slot).map (s.debuggee.parcelText s.options)

/-- What the bytes of a slot show by themselves. -/
def crossed? (s : Session V) (slot : String) : Option (Answer Labelled) :=
  (s.slot? slot).map (fun p => received s.options p.tag p.payload.bytes)

end Session

end Inspector
