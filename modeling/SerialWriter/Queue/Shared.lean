import SerialWriter.Queue.Basic
import SerialWriter.Thread

/-!
A bounded queue shared by threads. Releasing the lock and notifying a waiting consumer are two
steps, and a take that waits gives the lock away in between.
-/

namespace SerialWriter

/-- What a thread is in the middle of at a shared queue. -/
inductive QueueStage
  /-- The lock is released; one waiting consumer, or each of them, is still to be notified. -/
  | notifying (everyone : Bool)
  /-- Inside a take, waiting. -/
  | waiting (deadline : Time) (notified : Bool)
  deriving DecidableEq, Repr, Inhabited

/-- A queue, the threads in the middle of a call, and what has gone in and out. -/
structure SharedQueue (α : Type) where
  queue : Queue α
  stages : Roster QueueStage := {}
  /-- The items accepted so far, the latest first. -/
  accepted : List α := []
  /-- The items taken or cleared so far, the latest first. -/
  removed : List α := []

namespace SharedQueue

variable {α : Type}

instance : Inhabited (SharedQueue α) := ⟨{ queue := default }⟩

/-- The pending items, the oldest first. -/
def items (s : SharedQueue α) : List α := s.queue.toList

/-- The number of pending items as anyone may read it. -/
def size (s : SharedQueue α) : Nat := s.queue.size

/-- The threads that wait inside a take and have not been told to look again. -/
def waiters (s : SharedQueue α) : List Thread :=
  s.stages.entries.filterMap fun e =>
    match e.2 with
    | .waiting _ false => some e.1
    | .waiting _ true | .notifying _ => none

/-! ### Putting in -/

/-- The locked part of an offer. -/
def offer (s : SharedQueue α) (t : Thread) (a : α) : Bool × SharedQueue α :=
  let (ok, queue) := s.queue.offer a
  if ok then
    (true,
      { s with queue, stages := s.stages.put t (.notifying false), accepted := a :: s.accepted })
  else (false, s)

/-- The locked part of a wake. -/
def wake (s : SharedQueue α) (t : Thread) : SharedQueue α :=
  { s with queue := s.queue.wake, stages := s.stages.put t (.notifying true) }

/-- A waiting consumer is told to look again. -/
def rouse (s : SharedQueue α) (w : Thread) : SharedQueue α :=
  match s.stages.get? w with
  | some (.waiting d _) => { s with stages := s.stages.put w (.waiting d true) }
  | _ => s

/-- **The notification that follows an offer or a wake.** An offer notifies the consumer `chosen`,
and nobody only if nobody is left to be notified. -/
def notify (s : SharedQueue α) (t : Thread) (chosen : Option Thread) : Option (SharedQueue α) :=
  match s.stages.get? t with
  | some (.notifying true) =>
    some (s.waiters.foldl rouse { s with stages := s.stages.drop t })
  | some (.notifying false) =>
    let s' := { s with stages := s.stages.drop t }
    match chosen with
    | some w => if w ∈ s.waiters then some (s'.rouse w) else none
    | none => if s.waiters = [] then some s' else none
  | _ => none

/-! ### Taking out -/

/-- The end of a take. -/
def pop (s : SharedQueue α) (t : Thread) : Option α × SharedQueue α :=
  let (r, queue) := s.queue.pop
  (r, { s with queue, stages := s.stages.drop t, removed := r.toList ++ s.removed })

/-- The first locked part of a take; without a result it waits from here on. -/
def take (s : SharedQueue α) (t : Thread) (now : Time) (budget : Int) :
    Option (Option α) × SharedQueue α :=
  if s.queue.immediate budget then
    let (r, s) := s.pop t
    (some r, s)
  else (none, { s with stages := s.stages.put t (.waiting (now.after budget) false) })

/-- **A waiting take looks again** after a notification or at its deadline, and goes on waiting if
nothing has come and time is left. -/
def retake (s : SharedQueue α) (t : Thread) (now : Time) :
    Option (Option (Option α) × SharedQueue α) :=
  match s.stages.get? t with
  | some (.waiting d notified) =>
    if s.queue.settled ∨ d ≤ now then
      if notified ∨ d ≤ now then
        let (r, s) := s.pop t
        some (some r, s)
      else none
    else if notified then some (none, { s with stages := s.stages.put t (.waiting d false) })
    else none
  | _ => none

/-- Every pending item is dropped. -/
def clear (s : SharedQueue α) : SharedQueue α :=
  { s with queue := s.queue.clear, removed := s.queue.toList.reverse ++ s.removed }

/-! ### What each step does to the pending items -/

theorem items_offer (s : SharedQueue α) (t : Thread) (a : α) :
    (s.offer t a).2.items = if (s.offer t a).1 then s.items ++ [a] else s.items := by
  unfold offer items
  by_cases h : s.queue.toList.length < s.queue.capacity
  · simp [Queue.offer_fst, Queue.toList_offer, h]
  · simp [Queue.offer_fst, h]

@[simp] theorem items_wake (s : SharedQueue α) (t : Thread) : (s.wake t).items = s.items := rfl

@[simp] theorem items_rouse (s : SharedQueue α) (w : Thread) : (s.rouse w).items = s.items := by
  unfold rouse
  split <;> rfl

/-- A take splits the pending items into what it gives and what stays. -/
theorem pop_append_items (s : SharedQueue α) (t : Thread) :
    (s.pop t).1.toList ++ (s.pop t).2.items = s.items :=
  s.queue.pop_cons

/-! ### Threads at the queue, in any order -/

/-- What can happen next at a shared queue. -/
inductive Move (α : Type)
  | offer (t : Thread) (a : α)
  | wake (t : Thread)
  | notify (t : Thread) (chosen : Option Thread)
  | take (t : Thread) (budget : Int)
  | retake (t : Thread)
  | clear (t : Thread)
  /-- The thread looks through the pending items. -/
  | visit (t : Thread)
  /-- A waiting thread wakes up for no reason. -/
  | stir (t : Thread)
  /-- Time passes. -/
  | pass (d : Nat)
  deriving Repr

/-- What the calling thread learns from a move. -/
inductive Reply (α : Type)
  | quiet
  | offered (accepted : Bool)
  | took (item : Option α)
  | visited (items : List α)
  deriving DecidableEq, Repr

/-- A shared queue and its clock. -/
structure Scene (α : Type) where
  shared : SharedQueue α
  now : Time := 0

/-- **One move**, if it is possible: a thread calls only when it is in the middle of nothing. -/
def Scene.step (s : Scene α) : Move α → Option (Reply α × Scene α)
  | .offer t a =>
    if s.shared.stages.get? t = none then
      let (ok, shared) := s.shared.offer t a
      some (.offered ok, { s with shared })
    else none
  | .wake t =>
    if s.shared.stages.get? t = none then some (.quiet, { s with shared := s.shared.wake t })
    else none
  | .notify t chosen => (s.shared.notify t chosen).map fun shared => (.quiet, { s with shared })
  | .take t budget =>
    if s.shared.stages.get? t = none then
      match s.shared.take t s.now budget with
      | (some r, shared) => some (.took r, { s with shared })
      | (none, shared) => some (.quiet, { s with shared })
    else none
  | .retake t =>
    match s.shared.retake t s.now with
    | some (some r, shared) => some (.took r, { s with shared })
    | some (none, shared) => some (.quiet, { s with shared })
    | none => none
  | .clear t =>
    if s.shared.stages.get? t = none then some (.quiet, { s with shared := s.shared.clear })
    else none
  | .visit t =>
    if s.shared.stages.get? t = none then some (.visited s.shared.items, s) else none
  | .stir t => some (.quiet, { s with shared := s.shared.rouse t })
  | .pass d => some (.quiet, { s with now := s.now + d })

end SharedQueue

end SerialWriter
