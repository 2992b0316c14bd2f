import RetainedUi.Session.Input

/-!
# The input queue

A queue loses an event only to make room for a new one, and then the oldest. What was ever pushed is what
has left the queue, in the order in which it left, and then what waits.
-/

namespace RetainedUi

/-! ## Calls -/

/-- What is asked of a queue. -/
inductive QueueCall where
  | push (e : InputEvent)
  | pop
  /-- Drains the queue, and looks at so many of the events at most. -/
  | drain (taken : Nat)
deriving DecidableEq, Repr

def QueueCall.pushed? : QueueCall → Option InputEvent
  | push e => some e
  | pop | drain _ => none

/-- How an event left a queue. -/
inductive Removal where
  | popped (e : InputEvent)
  | drained (e : InputEvent)
  | evicted (e : InputEvent)
deriving DecidableEq, Repr

namespace Removal

def event : Removal → InputEvent
  | popped e | drained e | evicted e => e

def isEviction : Removal → Bool
  | evicted _ => true
  | popped _ | drained _ => false

end Removal

namespace InputQueue

/-! ## One operation -/

/-- The event that a new one takes the place of. -/
def losing (q : InputQueue) : List InputEvent :=
  if q.events.length = q.capacity then q.events.take 1 else []

theorem push_cases (q : InputQueue) (e : InputEvent) :
    (q.events.length = q.capacity ∧
        q.push e = (true, { q.pop.2.add e with dropped := q.dropped + 1 })) ∨
      (q.events.length ≠ q.capacity ∧ q.push e = (false, q.add e)) := by
  rw [length_events, push]
  by_cases hfull : q.size = q.capacity
  · exact Or.inl ⟨hfull, if_pos (beq_iff_eq.mpr hfull)⟩
  · exact Or.inr ⟨hfull, if_neg (mt beq_iff_eq.mp hfull)⟩

theorem capacity_pop (q : InputQueue) : q.pop.2.capacity = q.capacity := by
  unfold pop
  split
  · rfl
  · split <;> rfl

theorem dropped_pop (q : InputQueue) : q.pop.2.dropped = q.dropped := by
  unfold pop
  split
  · rfl
  · split <;> rfl

theorem capacity_push (q : InputQueue) (e : InputEvent) : (q.push e).2.capacity = q.capacity := by
  rcases q.push_cases e with ⟨_, h⟩ | ⟨_, h⟩ <;> rw [h]
  · exact q.capacity_pop
  · rfl

theorem losing_append_events_push (q : InputQueue) (e : InputEvent) :
    q.losing ++ (q.push e).2.events = q.events ++ [e] := by
  rcases q.push_cases e with ⟨hfull, h⟩ | ⟨hroom, h⟩
  · have hevents : (q.push e).2.events = q.events.tail ++ [e] := by
      rw [h, ← events_pop, ← events_add]
      rfl
    rw [losing, if_pos hfull, hevents, ← List.append_assoc, ← List.drop_one, List.take_append_drop]
  · rw [losing, if_neg hroom, List.nil_append, h, events_add]

theorem length_losing {q : InputQueue} (hcapacity : 0 < q.capacity)
    (hfull : q.events.length = q.capacity) : q.losing.length = 1 := by
  rw [losing, if_pos hfull, List.length_take, hfull, Nat.min_eq_left hcapacity]

theorem dropped_push (q : InputQueue) (e : InputEvent) (hcapacity : 0 < q.capacity) :
    (q.push e).2.dropped = q.dropped + q.losing.length := by
  rcases q.push_cases e with ⟨hfull, h⟩ | ⟨hroom, h⟩
  · rw [h, length_losing hcapacity hfull]
  · rw [h, losing, if_neg hroom]
    rfl

/-! ## One call -/

/-- The events that a call hands over, and the queue after it. -/
def step (q : InputQueue) : QueueCall → List InputEvent × InputQueue
  | .push e => ([], (q.push e).2)
  | .pop => (q.pop.1.toList, q.pop.2)
  | .drain taken => (q.drain.1.take taken, q.drain.2)

/-- The events that leave the queue in a call, in order. -/
def removals (q : InputQueue) : QueueCall → List Removal
  | .push _ => q.losing.map .evicted
  | .pop => q.pop.1.toList.map .popped
  | .drain _ => q.drain.1.map .drained

/-- What leaves the queue in a run of calls, and the queue after it. -/
def run (q : InputQueue) : List QueueCall → List Removal × InputQueue
  | [] => ([], q)
  | call :: calls =>
    (q.removals call ++ ((q.step call).2.run calls).1, ((q.step call).2.run calls).2)

/-- A queue for `n` events that was asked some calls, in which some events left it. -/
structure Accounts (n : Nat) (calls : List QueueCall) (left : List Removal) (q : InputQueue) : Prop where
  capacity : q.capacity = max n 1
  order : calls.filterMap QueueCall.pushed? = left.map Removal.event ++ q.events
  bounded : q.events.length ≤ q.capacity
  dropped : q.dropped = left.countP Removal.isEviction

theorem accounts_withCapacity (n : Nat) : Accounts n [] [] (withCapacity n) where
  capacity := rfl
  order := rfl
  bounded := Nat.zero_le _
  dropped := rfl

theorem map_event_removals (q : InputQueue) (call : QueueCall) :
    (q.removals call).map Removal.event ++ (q.step call).2.events =
      q.events ++ call.pushed?.toList := by
  cases call with
  | push e =>
      have hmap : (q.losing.map Removal.evicted).map Removal.event = q.losing := by
        rw [List.map_map]
        exact List.map_id _
      rw [removals, hmap]
      exact q.losing_append_events_push e
  | pop =>
      rw [removals, step, fst_pop, events_pop, QueueCall.pushed?, Option.toList_none, List.append_nil]
      cases q.events <;> rfl
  | drain taken =>
      have hmap : (q.drain.1.map Removal.drained).map Removal.event = q.events := by
        rw [List.map_map]
        exact List.map_id _
      rw [removals, hmap]
      rfl

theorem capacity_step (q : InputQueue) (call : QueueCall) : (q.step call).2.capacity = q.capacity := by
  cases call with
  | push e => exact q.capacity_push e
  | pop => exact q.capacity_pop
  | drain taken => rfl

theorem dropped_step {q : InputQueue} (hcapacity : 0 < q.capacity) (call : QueueCall) :
    (q.step call).2.dropped = q.dropped + (q.removals call).countP Removal.isEviction := by
  cases call with
  | push e =>
      have hall : (q.losing.map Removal.evicted).countP Removal.isEviction = q.losing.length := by
        rw [List.countP_map]
        exact congrFun List.countP_true _
      rw [removals, hall]
      exact q.dropped_push e hcapacity
  | pop =>
      have hnone : (q.pop.1.toList.map Removal.popped).countP Removal.isEviction = 0 := by
        rw [List.countP_map]
        exact congrFun List.countP_false _
      rw [removals, hnone]
      exact q.dropped_pop
  | drain taken =>
      have hnone : (q.drain.1.map Removal.drained).countP Removal.isEviction = 0 := by
        rw [List.countP_map]
        exact congrFun List.countP_false _
      rw [removals, hnone]
      rfl

theorem length_events_step {q : InputQueue} (hcapacity : 0 < q.capacity)
    (hbounded : q.events.length ≤ q.capacity) (call : QueueCall) :
    (q.step call).2.events.length ≤ q.capacity := by
  cases call with
  | push e =>
      have hlength := congrArg List.length (q.losing_append_events_push e)
      simp only [List.length_append, List.length_singleton] at hlength
      change (q.push e).2.events.length ≤ q.capacity
      -- A full queue makes room first, and any other has room.
      by_cases hfull : q.events.length = q.capacity
      · have := length_losing hcapacity hfull
        omega
      · omega
  | pop =>
      rw [step, events_pop, List.length_tail]
      omega
  | drain taken => exact Nat.zero_le _

theorem Accounts.step {n : Nat} {calls : List QueueCall} {left : List Removal} {q : InputQueue}
    (h : Accounts n calls left q) (call : QueueCall) :
    Accounts n (calls ++ [call]) (left ++ q.removals call) (q.step call).2 := by
  have hcapacity : 0 < q.capacity := by
    rw [h.capacity]
    omega
  constructor
  · exact (q.capacity_step call).trans h.capacity
  · rw [List.filterMap_append, h.order, List.map_append, List.append_assoc, List.append_assoc,
      map_event_removals]
    cases call <;> rfl
  · rw [capacity_step]
    exact length_events_step hcapacity h.bounded call
  · rw [List.countP_append, ← h.dropped]
    exact dropped_step hcapacity call

theorem Accounts.run {n : Nat} {before : List QueueCall} {left : List Removal} {q : InputQueue}
    (h : Accounts n before left q) (calls : List QueueCall) :
    Accounts n (before ++ calls) (left ++ (q.run calls).1) (q.run calls).2 := by
  induction calls generalizing before left q with
  | nil =>
      rw [InputQueue.run, List.append_nil, List.append_nil]
      exact h
  | cons call calls ih =>
      rw [InputQueue.run, List.append_cons, ← List.append_assoc]
      exact ih (h.step call)

/-! ## All calls -/

theorem fst_push (q : InputQueue) (e : InputEvent) :
    (q.push e).1 = decide (q.events.length = q.capacity) := by
  rcases q.push_cases e with ⟨hfull, h⟩ | ⟨hroom, h⟩ <;> rw [h]
  · exact (decide_eq_true hfull).symm
  · exact (decide_eq_false hroom).symm

theorem push_of_full {q : InputQueue} (hcapacity : 0 < q.capacity)
    (hfull : q.events.length = q.capacity) (e : InputEvent) :
    ∃ oldest later, q.events = oldest :: later ∧ q.removals (.push e) = [.evicted oldest] ∧
      (q.push e).2.events = later ++ [e] ∧ (q.push e).2.dropped = q.dropped + 1 := by
  have hlosing := length_losing hcapacity hfull
  have hevents := q.losing_append_events_push e
  have hdropped := q.dropped_push e hcapacity
  rw [hlosing] at hdropped
  obtain ⟨oldest, holdest⟩ := List.length_eq_one_iff.mp hlosing
  obtain ⟨first, later, hcons⟩ := List.exists_cons_of_length_pos (hfull ▸ hcapacity)
  rw [holdest, hcons] at hevents
  obtain ⟨rfl, hlater⟩ := List.cons.inj hevents
  exact ⟨oldest, later, hcons, by rw [removals, holdest, List.map_singleton], hlater, hdropped⟩

theorem push_of_room {q : InputQueue} (hroom : q.events.length ≠ q.capacity) (e : InputEvent) :
    q.removals (.push e) = [] ∧ (q.push e).2.events = q.events ++ [e] ∧
      (q.push e).2.dropped = q.dropped := by
  have hlosing : q.losing = [] := if_neg hroom
  have hpush : q.push e = (false, q.add e) :=
    (q.push_cases e).elim (fun h => absurd h.1 hroom) (·.2)
  rw [removals, hlosing, hpush, events_add]
  exact ⟨rfl, rfl, rfl⟩

theorem removals_pop (q : InputQueue) : q.removals .pop = (q.events.take 1).map .popped := by
  rw [removals, fst_pop]
  cases q.events <;> rfl

/-- Of a queue for `n` events, or for one if `n` is nought, the events that were ever pushed are after any
calls those that left it, in the order in which they left, and then those that wait. No more wait than
have room, and the evicted ones are counted. A push tells whether the queue is full, and evicts the oldest
event exactly then; a pop takes the oldest event; a drain hands over as many as are looked at, and empties
the queue all the same. -/
theorem queue_accounts (n : Nat) (calls : List QueueCall) :
    let left := ((withCapacity n).run calls).1
    let q := ((withCapacity n).run calls).2
    let pushed := calls.filterMap QueueCall.pushed?
    q.capacity = max n 1 ∧
      q.size = q.events.length ∧
      q.size ≤ q.capacity ∧
      pushed = left.map Removal.event ++ q.events ∧
      q.dropped = left.countP Removal.isEviction ∧
      pushed.length = left.countP (¬ ·.isEviction) + q.dropped + q.size ∧
      (∀ e, (q.push e).1 = decide (q.size = q.capacity) ∧
        (q.size = q.capacity → ∃ oldest later, q.events = oldest :: later ∧
          q.removals (.push e) = [.evicted oldest] ∧ (q.push e).2.events = later ++ [e] ∧
          (q.push e).2.dropped = q.dropped + 1) ∧
        (q.size ≠ q.capacity → q.removals (.push e) = [] ∧
          (q.push e).2.events = q.events ++ [e] ∧ (q.push e).2.dropped = q.dropped)) ∧
      (q.pop.1 = q.events.head? ∧ q.pop.2.events = q.events.tail ∧
        q.removals .pop = (q.events.take 1).map .popped ∧ q.pop.2.dropped = q.dropped) ∧
      ∀ taken, (q.step (.drain taken)).1 = q.events.take taken ∧
        (q.step (.drain taken)).2.events = [] ∧
        q.removals (.drain taken) = q.events.map .drained ∧
        (q.step (.drain taken)).2.dropped = q.dropped := by
  intro left q pushed
  have h : Accounts n calls left q := (accounts_withCapacity n).run calls
  have hsize : q.size = q.events.length := q.length_events.symm
  have hcapacity : 0 < q.capacity := by
    rw [h.capacity]
    omega
  have hcount : pushed.length = left.countP (¬ ·.isEviction) + q.dropped + q.events.length := by
    have hlength := congrArg List.length h.order
    have hleft := left.length_eq_countP_add_countP Removal.isEviction
    rw [List.length_append, List.length_map, hleft, ← h.dropped] at hlength
    simpa only [Nat.add_comm] using hlength
  rw [hsize]
  exact ⟨h.capacity, rfl, h.bounded, h.order, h.dropped, hcount,
    fun e => ⟨q.fst_push e, fun hfull => push_of_full hcapacity hfull e, fun hroom => push_of_room hroom e⟩,
    ⟨q.fst_pop, q.events_pop, q.removals_pop, q.dropped_pop⟩, fun taken => ⟨rfl, rfl, rfl, rfl⟩⟩

/-- Two events fit; the third evicts the first, and a pop and an unread drain take the others. -/
example : ((withCapacity 2).run [.push (.key 1 true 0), .push (.key 2 true 0), .push (.key 3 true 0), .pop,
    .drain 0]).1 = [.evicted (.key 1 true 0), .popped (.key 2 true 0), .drained (.key 3 true 0)] := by
  decide

end InputQueue

end RetainedUi
