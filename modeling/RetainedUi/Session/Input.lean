/-!
# Input events

Events wait in a bounded queue. A full queue makes room for a new event by losing its oldest one.
-/

namespace RetainedUi

/-- An event from the host, passed on unread. -/
inductive InputEvent where
  /-- A pointer action; the place is two single-precision numbers, by their bits. -/
  | pointer (action : Int32) (x y : UInt32) (buttons : Int32)
  | key (code : Int32) (down : Bool) (modifiers : Int32)
deriving DecidableEq, Repr

/-- Events in order of arrival. Old events leave at the front, and new ones come in at the back. -/
structure InputQueue where
  /-- The oldest events, the oldest first. -/
  front : List InputEvent := []
  /-- The events after those in front, the newest first. -/
  back : List InputEvent := []
  /-- The number of events that wait. -/
  size : Nat := 0
  size_eq : size = front.length + back.length := by rfl
  /-- The most events that are kept. -/
  capacity : Nat
  /-- How many events were lost to make room. -/
  dropped : Nat := 0
deriving DecidableEq, Repr

namespace InputQueue

/-- The capacity of a session's queue. -/
def defaultCapacity : Nat := 256

/-- A queue for so many events, and for at least one. -/
def withCapacity (n : Nat) : InputQueue := { capacity := max n 1 }

/-- A queue of the usual capacity. -/
def empty : InputQueue := withCapacity defaultCapacity

instance : Inhabited InputQueue := ⟨empty⟩

/-- The events that wait, the oldest first. -/
def events (q : InputQueue) : List InputEvent := q.front ++ q.back.reverse

def isEmpty (q : InputQueue) : Bool := q.size == 0

/-- No further event fits. -/
def isFull (q : InputQueue) : Bool := q.size == q.capacity

def add (q : InputQueue) (e : InputEvent) : InputQueue :=
  { q with back := e :: q.back, size := q.size + 1, size_eq := by simp +arith [q.size_eq] }

/-- Takes the oldest event. Once the front is used up, the events at the back become the front. -/
def pop (q : InputQueue) : Option InputEvent × InputQueue :=
  match hf : q.front with
  | e :: front =>
    (some e, { q with front, size := q.size - 1, size_eq := by simp +arith [q.size_eq, hf] })
  | [] =>
    match hb : q.back.reverse with
    | e :: front =>
      (some e, { q with
        front, back := [], size := q.size - 1
        size_eq := by
          have := congrArg List.length hb
          simp_all [q.size_eq] })
    | [] => (none, q)

/-- Puts an event last; tells whether the oldest one was lost for it. -/
def push (q : InputQueue) (e : InputEvent) : Bool × InputQueue :=
  if q.isFull then (true, { q.pop.2.add e with dropped := q.dropped + 1 })
  else (false, q.add e)

def drain (q : InputQueue) : List InputEvent × InputQueue :=
  (q.events, { capacity := q.capacity, dropped := q.dropped })

/-! ## What the operations do to the events -/

theorem length_events (q : InputQueue) : q.events.length = q.size := by
  simp [events, q.size_eq]

theorem events_add (q : InputQueue) (e : InputEvent) : (q.add e).events = q.events ++ [e] := by
  simp [events, add]

theorem fst_pop (q : InputQueue) : q.pop.1 = q.events.head? := by
  unfold pop events
  split
  · simp [*]
  · split <;> simp [*]

theorem events_pop (q : InputQueue) : q.pop.2.events = q.events.tail := by
  unfold pop events
  split
  · simp [*]
  · split <;> simp_all

end InputQueue

end RetainedUi
