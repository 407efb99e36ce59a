import SerialWriter.Journal
import SerialWriter.Config

/-!
The control of a writer's worker: the phase, the lock that guards it, the worker threads of all
lives, and the calls that start, stop and destroy. A call waits without the lock, and joins a
worker while it holds the lock.
-/

namespace SerialWriter

/-- What a worker thread does next. -/
inductive WorkerStage
  /-- About to enter the running phase. -/
  | created
  /-- About to look at the phase. -/
  | looking
  /-- About to enter a cycle, whatever becomes of the phase meanwhile. -/
  | entering (last : Bool)
  /-- Inside a cycle, which may be its last one. -/
  | cycling (last : Bool)
  /-- About to enter the terminated phase. -/
  | retiring
  /-- About to enter the failed phase. -/
  | failing (e : Failure)
  /-- About to report its failure. -/
  | reporting (e : Failure)
  /-- Past its last use of the lock. -/
  | leaving
  /-- Gone. -/
  | finished
  /-- A fault in reporting its own failure ended everything. -/
  | aborted
  deriving Repr, Inhabited

/-- What a call of `start` does next. -/
inductive StartStage
  /-- About to take the lock and look at the phase. -/
  | entering
  /-- With the lock: about to join an earlier worker and enter the starting phase. -/
  | launching
  /-- With the lock: about to create the worker. -/
  | spawning
  /-- Without the lock: waiting for the worker to leave the starting phase. -/
  | waiting (deadline : Time) (notified : Bool)
  deriving Repr, Inhabited

/-- What a call of `stop` does next. -/
inductive StopStage
  /-- About to take the lock and look at the phase. -/
  | entering
  /-- With the lock: about to join a worker that has failed before. -/
  | burying
  /-- With the lock: about to wake the worker. -/
  | waking
  /-- Without the lock: waiting for the worker to end. -/
  | waiting (deadline : Time) (notified : Bool)
  /-- With the lock: about to join the worker that has ended. -/
  | collecting
  deriving Repr, Inhabited

/-- What the destruction of a control does next, apart from the stop that it may begin with. -/
inductive DestroyStage
  /-- About to look at the phase. -/
  | looking
  /-- About to report that the stop did not go well. -/
  | reporting (r : Refusal)
  /-- About to take the lock. -/
  | locking
  /-- With the lock: about to join the worker. -/
  | joining
  deriving Repr, Inhabited

/-- What a thread inside a call does next. -/
inductive CallStage
  /-- `spawns` tells whether the system will be able to create a thread. -/
  | start (spawns : Bool) (s : StartStage)
  /-- A stop is `closing` if it is part of a destruction. -/
  | stop (closing : Bool) (s : StopStage)
  | destroy (s : DestroyStage)
  /-- The call is over. -/
  | ended (r : Except Failure Unit)
  deriving Inhabited

/-- A waiting call is told to look again. -/
def CallStage.roused : CallStage → CallStage
  | .start b (.waiting d _) => .start b (.waiting d true)
  | .stop b (.waiting d _) => .stop b (.waiting d true)
  | s => s

/-- The control of a writer's worker. -/
structure Control where
  config : Config
  phase : Phase := .new
  /-- The thread that holds the lock. -/
  holder : Option Thread := none
  /-- The worker that has yet to be joined. -/
  joinable : Option Nat := none
  /-- What moved the control to the failed phase. -/
  cause : Option Failure := none
  /-- The worker threads of all lives, in order. -/
  workers : List WorkerStage := []
  /-- The threads inside a call. -/
  calls : Roster CallStage := {}
  /-- The cycles entered so far with the wait they were allowed, the latest first. -/
  cycles : List (Nat × Int) := []

namespace Control

/-! ### The parts of a step -/

/-- Nobody holds the lock. -/
def free (c : Control) : Bool := c.holder.isNone

/-- The thread is about to do this next in its call. -/
def setCall (c : Control) (t : Thread) (s : CallStage) : Control :=
  { c with calls := c.calls.put t s }

/-- Every waiting call is told to look again. -/
def notifyAll (c : Control) : Control := { c with calls := c.calls.map CallStage.roused }

/-- **Enters a phase**: the phase changes, the change is logged, and those who wait are notified.
A fault of the log line leaves the phase changed and nobody notified. -/
def enter (c : Control) (p : Phase) (t : Thread) (j : Journal) :
    Option Failure × Control × Journal :=
  match j.log t (.moved c.config.name c.phase p) with
  | (none, j) => (none, ({ c with phase := p } : Control).notifyAll, j)
  | (some fault, j) => (some fault, { c with phase := p }, j)

/-- The worker `n` is gone. -/
def gone (c : Control) (n : Nat) : Bool :=
  match c.workers[n]? with
  | some .finished => true
  | _ => false

/-- **Joins the worker** that has yet to be joined, once it is gone. A worker does not join
itself. -/
def join (c : Control) (t : Thread) : Option Control :=
  match c.joinable with
  | none => some c
  | some n =>
    if t = .worker n then some c
    else if c.gone n then some { c with joinable := none }
    else none

/-- The worker `n` does this next. -/
def setWorker (c : Control) (n : Nat) (s : WorkerStage) : Control :=
  { c with workers := c.workers.set n s }

/-- The next thing worker `n` does, if there is such a worker. -/
def worker? (c : Control) (n : Nat) : Option WorkerStage := c.workers[n]?

end Control

end SerialWriter
