import SerialWriter.Control.Scene
import SerialWriter.Envelope
import SerialWriter.Ledger
import SerialWriter.Queue.Shared

/-!
A writer: the queue of submitted tasks, the control of the worker that runs them, the books, and
what every thread is in the middle of. Tasks are known by their tickets, the order in which their
envelopes were made.
-/

namespace SerialWriter

/-! ### What threads are in the middle of -/

/-- What a task submits, and for how long its submitter waits. -/
structure Submission (σ V : Type) where
  work : Program σ V
  id : String
  wait : Int

/-- What a call of `write` does next. -/
inductive WriteStage
  /-- About to look at the phase. -/
  | checking
  /-- About to have the envelope made. -/
  | creating
  /-- About to offer the ticket to the queue. -/
  | offering (ticket : Nat)
  /-- The offer has succeeded; about to notify the worker. -/
  | notifying (ticket : Nat)
  /-- About to count the submission. -/
  | counting (ticket : Nat)
  /-- The queue was full; about to count and report the loss. -/
  | losing
  /-- Waiting for the outcome. -/
  | waiting (ticket : Nat) (deadline : Time)
  /-- The wait is over. -/
  | told (ticket : Nat) (status : WaitStatus)
  deriving Repr, Inhabited

/-- What follows the walk over the pending tasks. -/
inductive AfterWalk
  /-- The stop has succeeded. -/
  | close (closing : Bool)
  /-- The stop was refused. -/
  | refuse (closing : Bool) (r : Refusal)
  /-- The writer is destroyed and need not be stopped. -/
  | discard
  deriving Repr, Inhabited

/-- What a thread inside a call of the writer does next. A stop is `closing` if it is part of the
destruction. -/
inductive CallOfWriter (σ V : Type)
  /-- Inside the start of the control. -/
  | starting
  /-- Inside the stop of the control. -/
  | stopping (closing : Bool)
  /-- About to release everyone who waits for a pending task. -/
  | walking (after : AfterWalk)
  /-- About to report how many tasks are left pending. -/
  | reporting (pending : Nat) (after : AfterWalk)
  /-- About to log the counters after a stop. -/
  | closing (closing : Bool)
  /-- About to look at the phase before the destruction. -/
  | destroying
  /-- About to report that the stop did not go well. -/
  | complaining (r : Refusal)
  /-- About to drop every pending task. -/
  | clearing
  /-- Inside the destruction of the control. -/
  | releasing
  | writing (s : Submission σ V) (stage : WriteStage)
  /-- The call is over. -/
  | ended (r : Except Failure (Option V))

/-- Where the worker stands in the body of an envelope. -/
inductive BodyStage (σ V : Type)
  /-- In the wrapper. -/
  | outer (w : Wrapper σ)
  /-- In the task; `back` tells how the wrapper goes on, if there is one. -/
  | inner (p : Program σ V) (back : Option (Option Failure → Wrapper σ))
  /-- The cell is won; about to assign the outcome. -/
  | publishing (o : Outcome V) (after : BodyStage σ V)
  /-- Inside a call of the writer. -/
  | calling (after : Except Failure (Option V) → BodyStage σ V)
  /-- Out of the body. -/
  | left (escaped : Option Failure)
  /-- The envelope has been run. -/
  | verdict (succeeded : Bool)

/-- Where the worker stands in a cycle, once it has dequeued a ticket. -/
inductive CycleStage (σ V : Type)
  /-- About to run the envelope. -/
  | dequeued (ticket : Nat)
  /-- Running the envelope. -/
  | running (ticket : Nat) (b : BodyStage σ V)
  /-- About to count the task as executed. -/
  | counting (ticket : Nat)
  /-- About to log how many tasks are pending, if that is due. -/
  | measuring (ticket : Nat)

/-- The gates that tasks pass. -/
structure Gates where
  /-- Every gate is open. -/
  all : Bool := false
  opened : List String := []
  deriving Repr, Inhabited

/-- The gate is open. -/
def Gates.isOpen (g : Gates) (name : String) : Bool := g.all || g.opened.contains name

/-! ### The writer -/

/-- **A writer** and everything around it that its threads touch. -/
structure Writer (σ V : Type) where
  config : Config
  /-- What the resource calls itself. -/
  target : String
  factory : Option (Factory σ)
  /-- How often the factory has been called. -/
  made : Nat := 0
  control : Control
  /-- The pending tickets. -/
  queue : SharedQueue Nat
  /-- The envelopes, by ticket. -/
  envelopes : Array (Envelope σ V) := #[]
  ledger : Ledger
  submitted : Nat := 0
  dropped : Nat := 0
  timedOut : Nat := 0
  calls : Roster (CallOfWriter σ V) := {}
  /-- The workers that have dequeued a ticket. -/
  cycles : Roster (CycleStage σ V) := {}
  /-- The tickets whose envelopes have been run, or begun to be run, the latest first. -/
  begun : List Nat := []
  /-- The tickets whose runs have ended, the latest first. -/
  done : List Nat := []
  resource : σ
  gates : Gates := {}
  journal : Journal := {}
  now : Time := 0

namespace Writer

variable {σ V : Type}

/-- **A new writer**, unless its settings cannot be used. Its creation is logged by `t`, which may
fail. -/
def create (config : Config) (target : String) (factory : Option (Factory σ)) (resource : σ)
    (now : Time) (t : Thread) (j : Journal) : Except Failure (Writer σ V) × Journal :=
  match config.fault? with
  | some r => (.error (.refused r), j)
  | none =>
    match j.log t (.created config.name target config.capacity) with
    | (some fault, j) => (.error fault, j)
    | (none, j) =>
      (.ok { config, target, factory, resource, now, journal := j
             control := { config }
             queue := { queue := { capacity := config.capacity } }
             ledger := Ledger.ofConfig config now }, j)

/-- The phase the writer is in. -/
def phase (w : Writer σ V) : Phase := w.control.phase

/-- The counters. -/
def stats (w : Writer σ V) : Stats :=
  { submitted := w.submitted
    dropped := w.dropped
    executed := w.ledger.executed
    failed := w.ledger.failed
    timedOut := w.timedOut
    queued := w.queue.size }

/-- Writers are equal when their queues have the same capacity. -/
def sameAs (w v : Writer σ V) : Bool := w.queue.queue.capacity = v.queue.queue.capacity

/-! ### The parts of a step -/

/-- The thread does this next in its call. -/
def setCall (w : Writer σ V) (t : Thread) (c : CallOfWriter σ V) : Writer σ V :=
  { w with calls := w.calls.put t c }

/-- The call of `t` is over. -/
def finish (w : Writer σ V) (t : Thread) (r : Except Failure (Option V)) : Writer σ V :=
  w.setCall t (.ended r)

/-- The envelope of a ticket, with its cell changed. -/
def changeCell (w : Writer σ V) (ticket : Nat) (f : Cell V → Cell V) : Writer σ V :=
  { w with envelopes := w.envelopes.modify ticket fun e => { e with cell := f e.cell } }

/-- The cell of a ticket. -/
def cell (w : Writer σ V) (ticket : Nat) : Cell V :=
  ((w.envelopes[ticket]?).map (·.cell)).getD {}

/-- The id of a ticket. -/
def idOf (w : Writer σ V) (ticket : Nat) : String :=
  ((w.envelopes[ticket]?).map (·.id)).getD unknownId

/-- Logs a notice; the second part is the fault of the line, if there is one. -/
def log (w : Writer σ V) (t : Thread) (n : Notice) : Writer σ V × Option Failure :=
  let (fault, journal) := w.journal.log t n
  ({ w with journal }, fault)

end Writer

end SerialWriter
