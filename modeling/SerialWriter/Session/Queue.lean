import SerialWriter.Queue.Shared
import SerialWriter.Session.Schedule

/-!
A session with a bounded queue: one main thread, and for some steps a consumer that waits
meanwhile or several producers. What happens meanwhile is again a list of steps.
-/

namespace SerialWriter

/-- A step of a session. -/
inductive QueueStep (α : Type)
  | offer (a : α)
  | take (budget : Int)
  | wake
  | pending
  | clear
  | empty
  | capacity
  | offerMany (as : List α)
  | takeMany (count : Nat)
  /-- A second thread takes while the main thread goes on with steps of its own. -/
  | takeDuring (budget : Int) (steps : List (QueueStep α))
  /-- Each producer offers its own items. -/
  | producers (items : List (List α))

/-- What a step gives. -/
inductive QueueReply (α : Type)
  | ok
  | accepted (b : Bool)
  /-- `waited` tells whether the whole budget was used, as the clock measures it. -/
  | took (item : Option α) (waited : Bool)
  | items (as : List α)
  | truth (b : Bool)
  | count (n : Nat)
  | tookMany (as : List α)
  | tookDuring (item : Option α) (results : List (QueueReply α))
  | produced (accepted grown : Nat) (ordered : Bool)

/-- A session in progress. -/
structure QueueSession (α : Type) where
  scene : SharedQueue.Scene α
  /-- What the takes of the threads have given so far. -/
  taken : List (Thread × Option α) := []
  /-- The threads made so far. -/
  threads : Nat := 1

namespace QueueSession

variable {α : Type}

/-- One move of the scene, and what the thread learns. -/
def move (s : QueueSession α) (m : SharedQueue.Move α) :
    Option (SharedQueue.Reply α × QueueSession α) :=
  (s.scene.step m).map fun (r, scene) => (r, { s with scene })

/-- The move of an offer or a wake, and the notification that follows it. -/
def call (s : QueueSession α) (t : Thread) (m : SharedQueue.Move α) : Bool × QueueSession α :=
  match s.move m with
  | none => (false, s)
  | some (r, s) =>
    let accepted := match r with
      | .offered b => b
      | _ => true
    match s.move (.notify t s.scene.shared.waiters.head?) with
    | some (_, s) => (accepted, s)
    | none => (accepted, s)

/-- A move of a take; what it gives is kept if the take is over. -/
def takeMove (s : QueueSession α) (t : Thread) (m : SharedQueue.Move α) :
    Option (QueueSession α) :=
  (s.move m).map fun (r, s) =>
    match r with
    | .took item => { s with taken := (t, item) :: s.taken }
    | _ => s

/-- When the waiting thread has waited for long enough. -/
def deadline? (s : QueueSession α) (t : Thread) : Option Time :=
  match s.scene.shared.stages.get? t with
  | some (.waiting d _) => some d
  | _ => none

/-- The take of `t` looks again, if it may. -/
def retake (t : Thread) (s : QueueSession α) : Option (QueueSession α) :=
  if (s.deadline? t).isSome then s.takeMove t (.retake t) else none

/-- Some waiting thread goes on. -/
def turn (s : QueueSession α) : Option (QueueSession α) :=
  firstTurn retake s.scene.shared.stages.threads s

/-- Time passes until the first take runs out. -/
def pass (s : QueueSession α) : Option (QueueSession α) :=
  (untilFirst? s.scene.now (s.scene.shared.stages.threads.filterMap s.deadline?)).bind fun d =>
    (s.move (.pass d)).map (·.2)

/-- A thread of its own. -/
def newThread (s : QueueSession α) : Thread × QueueSession α :=
  (.client s.threads, { s with threads := s.threads + 1 })

/-- `t` begins a take. -/
def beginTake (s : QueueSession α) (t : Thread) (budget : Int) : QueueSession α :=
  let s := { s with taken := s.taken.filter fun e => decide (e.1 ≠ t) }
  (s.takeMove t (.take t budget)).getD s

/-- The take of `t` goes on until it is over. -/
def finishTake (s : QueueSession α) (t : Thread) : Option α × QueueSession α :=
  let s := play turn pass (fun s => (s.taken.lookup t).isSome) s
  ((s.taken.lookup t).join, s)

/-- Takes without waiting, `count` times at most, while there is something. -/
def takeMany (s : QueueSession α) : Nat → List α × QueueSession α
  | 0 => ([], s)
  | n + 1 =>
    match (s.beginTake mainThread 0).finishTake mainThread with
    | (none, s) => ([], s)
    | (some a, s) =>
      let (as, s) := s.takeMany n
      (a :: as, s)

/-- Offers one after the other; how many were accepted. -/
def offerAll (s : QueueSession α) (t : Thread) (as : List α) : Nat × QueueSession α :=
  as.foldl (fun (n, s) a =>
    let (ok, s) := s.call t (.offer t a)
    (if ok then n + 1 else n, s)) (0, s)

/-- One producer after the other offers its items; how many were accepted. -/
def produce (s : QueueSession α) : List (List α) → Nat × QueueSession α
  | [] => (0, s)
  | as :: rest =>
    let (t, s) := s.newThread
    let (n, s) := s.offerAll t as
    let (m, s) := s.produce rest
    (n + m, s)

mutual

/-- **One step of a session.** -/
def perform [BEq α] (s : QueueSession α) : QueueStep α → QueueReply α × QueueSession α
  | .offer a =>
    let (ok, s) := s.call mainThread (.offer mainThread a)
    (.accepted ok, s)
  | .take budget =>
    let start := s.scene.now
    let (item, s) := (s.beginTake mainThread budget).finishTake mainThread
    (.took item (decide (Time.span budget ≤ s.scene.now - start)), s)
  | .wake => (.ok, (s.call mainThread (.wake mainThread)).2)
  | .pending =>
    match s.move (.visit mainThread) with
    | some (.visited as, s) => (.items as, s)
    | _ => (.items [], s)
  | .clear => (.ok, ((s.move (.clear mainThread)).map (·.2)).getD s)
  | .empty => (.truth s.scene.shared.queue.empty, s)
  | .capacity => (.count s.scene.shared.queue.capacity, s)
  | .offerMany as =>
    let (n, s) := s.offerAll mainThread as
    (.count n, s)
  | .takeMany count =>
    let (as, s) := s.takeMany count
    (.tookMany as, s)
  | .takeDuring budget steps =>
    let (t, s) := s.newThread
    let (results, s) := (settle turn (s.beginTake t budget)).performAll steps
    let (item, s) := s.finishTake t
    (.tookDuring item results, s)
  | .producers items =>
    let before := s.scene.shared.size
    let (accepted, s) := s.produce items
    let fresh := s.scene.shared.items.drop before
    let ordered := items.all fun as => (fresh.filter as.contains).isSublist as
    (.produced accepted (s.scene.shared.size - before) ordered, s)

/-- **Steps one after the other**, each followed by what it lets a waiting thread do. -/
def performAll [BEq α] (s : QueueSession α) :
    List (QueueStep α) → List (QueueReply α) × QueueSession α
  | [] => ([], s)
  | step :: rest =>
    let (r, s) := s.perform step
    let (rs, s) := (settle turn s).performAll rest
    (r :: rs, s)

end

/-- **A whole session**: each step's result and the size of the queue after it. -/
def run [BEq α] (capacity : Nat) (steps : List (QueueStep α)) : List (QueueReply α × Nat) :=
  go { scene := { shared := { queue := { capacity } }, now := sessionStart } } steps
where
  /-- The results of the steps that are left. -/
  go (s : QueueSession α) : List (QueueStep α) → List (QueueReply α × Nat)
    | [] => []
    | step :: rest =>
      let (r, s) := s.perform step
      (r, s.scene.shared.size) :: go s rest

end QueueSession

end SerialWriter
