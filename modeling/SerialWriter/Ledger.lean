import SerialWriter.Journal
import SerialWriter.Config

/-!
The books of a worker: how many tasks it has run, how many of them failed, and when it last
logged how many are pending.
-/

namespace SerialWriter

/-- The books of a worker. -/
structure Ledger where
  /-- The name that log lines use. -/
  writer : String
  /-- The least time between two lines about the depth of the queue, in milliseconds. -/
  interval : Int
  executed : Nat := 0
  failed : Nat := 0
  /-- When a depth line was last logged; at first, when the books were opened. -/
  lastLogged : Time := 0
  deriving Repr, Inhabited

namespace Ledger

/-- The books of a new worker. -/
def ofConfig (c : Config) (now : Time) : Ledger :=
  { writer := c.name, interval := c.depthInterval, lastLogged := now }

/-- A task has failed: it is counted, then the line is logged. -/
def noteFailure (l : Ledger) (id : String) (t : Thread) (j : Journal) :
    Option Failure × Ledger × Journal :=
  let (fault, j) := j.log t (.taskFailed l.writer id)
  (fault, { l with failed := l.failed + 1 }, j)

/-- A task has been run. -/
def noteExecuted (l : Ledger) : Ledger := { l with executed := l.executed + 1 }

/-- A depth line is due: something is pending, and more than the interval has passed. -/
def depthDue (l : Ledger) (now : Time) (pending : Nat) : Bool :=
  decide (Time.span l.interval < now - l.lastLogged) && decide (0 < pending)

/-- **Logs how many tasks are pending** if the line is due; the interval starts again only when the
line has been logged without a fault. -/
def noteDepth (l : Ledger) (now : Time) (pending : Nat) (t : Thread) (j : Journal) :
    Option Failure × Ledger × Journal :=
  if l.depthDue now pending then
    match j.log t (.depth l.writer pending) with
    | (none, j) => (none, { l with lastLogged := now }, j)
    | (some fault, j) => (some fault, l, j)
  else (none, l, j)

/-- All that follows the run of a task: what escapes is a fault of a log line. -/
def close (l : Ledger) (id : String) (succeeded : Bool) (now : Time) (pending : Nat) (t : Thread)
    (j : Journal) : Option Failure × Ledger × Journal :=
  let (fault, l, j) := if succeeded then (none, l, j) else l.noteFailure id t j
  match fault with
  | some e => (some e, l, j)
  | none => l.noteExecuted.noteDepth now pending t j

end Ledger

end SerialWriter
