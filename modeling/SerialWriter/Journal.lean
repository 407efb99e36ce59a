import SerialWriter.Failure
import SerialWriter.Stats
import SerialWriter.Thread

/-!
The log: what a writer has to say, the lines that say it, and the journal that records which
thread logged what. A journal can be armed to fail the call that logs a given text.
-/

namespace SerialWriter

/-! ### Lines -/

/-- How much a line matters. -/
inductive Level
  | debug
  | info
  | warning
  | error
  deriving DecidableEq, Repr, Inhabited

/-- The level as a line spells it. -/
def Level.name : Level → String
  | debug => "debug"
  | info => "info"
  | warning => "warning"
  | error => "error"

/-- **What a writer has to say.** -/
inductive Notice
  | created (writer target : String) (capacity : Nat)
  | moved (writer : String) (before after : Phase)
  | started (writer : String)
  | stopped (writer : String)
  | closed (writer : String) (stats : Stats)
  | abandoned (writer : String) (pending : Nat)
  | workerFailed (writer reason : String)
  | uncleanStop (writer reason : String)
  | taskFailed (writer id : String)
  | depth (writer : String) (pending : Nat)
  | lateFailure (id : String)
  | lost (id : String)
  | taskThrew (id reason : String)
  | unexecuted (id : String) (limit : Int)
  | waitInterrupted (id : String)
  deriving DecidableEq, Repr, Inhabited

namespace Notice

/-- The level at which a notice is logged. -/
def level : Notice → Level
  | created _ _ _ | moved _ _ _ | closed _ _ | taskFailed _ _ => .debug
  | started _ | stopped _ | depth _ _ => .info
  | abandoned _ _ | lateFailure _ | lost _ | taskThrew _ _ | unexecuted _ _
  | waitInterrupted _ => .warning
  | workerFailed _ _ | uncleanStop _ _ => .error

/-- The text of a notice, without its level. -/
def text : Notice → String
  | created w t n =>
    "Writer " ++ w ++ " created for " ++ t ++ " with queue capacity " ++ toString n
  | moved w p q => "Writer " ++ w ++ " state " ++ p.name ++ " -> " ++ q.name
  | started w => "Writer " ++ w ++ " started"
  | stopped w => "Writer " ++ w ++ " stopped"
  | closed w s => "Writer " ++ w ++ " stopped: " ++ s.summary
  | abandoned w n =>
    "Writer " ++ w ++ " is not running; " ++ toString n ++ " queued tasks stay unexecuted"
  | workerFailed w r => "Writer " ++ w ++ " worker failed: " ++ r
  | uncleanStop w r => "Writer " ++ w ++ " did not stop cleanly on destruction: " ++ r
  | taskFailed w id => "Writer " ++ w ++ ": task " ++ id ++ " failed"
  | depth w n => "Writer " ++ w ++ ": queue size: " ++ toString n
  | lateFailure id =>
    "Task " ++ id ++ " failed after its result was already set; ignoring the failure"
  | lost id =>
    "Could not write task " ++ id ++ " to queue as it is too full. We're losing writes now."
  | taskThrew id r => "Execution of a task threw an exception. ID: " ++ id ++ ": " ++ r
  | unexecuted id n => "Task didn't get executed within " ++ toString n ++ "ms. ID: " ++ id
  | waitInterrupted id => "Waiting for execution of a task was interrupted. ID: " ++ id

/-- The whole line. -/
def line (n : Notice) : String := n.level.name ++ " " ++ n.text

end Notice

/-! ### The journal -/

/-- `needle` occurs somewhere in the text. -/
def occursIn (needle : List Char) : List Char → Bool
  | [] => needle.isEmpty
  | c :: cs => needle.isPrefixOf (c :: cs) || occursIn needle cs

/-- What has been logged, and by whom. -/
structure Journal where
  /-- The notices logged so far, the latest first. -/
  entries : List (Thread × Notice) := []
  /-- The text whose next occurrence fails the call that logs it. -/
  armed : Option String := none
  deriving Repr, Inhabited

namespace Journal

/-- What an armed journal throws. -/
def fault : Failure := .number 7

/-- The notice is the one the journal waits for. -/
def trips (j : Journal) (n : Notice) : Bool :=
  match j.armed with
  | none => false
  | some needle => occursIn needle.toList n.text.toList

/-- **Logging a notice**: it is recorded in any case, and then the call may fail, once. -/
def log (j : Journal) (t : Thread) (n : Notice) : Option Failure × Journal :=
  let entries := (t, n) :: j.entries
  if j.trips n then (some fault, { entries, armed := none })
  else (none, { j with entries })

/-- The next notice whose text holds `needle` fails the call that logs it. -/
def arm (j : Journal) (needle : String) : Journal := { j with armed := some needle }

/-- How many notices have been logged. -/
def length (j : Journal) : Nat := j.entries.length

/-- What was logged after the first `n` notices, oldest first. -/
def since (j : Journal) (n : Nat) : List (Thread × Notice) :=
  (j.entries.take (j.length - n)).reverse

@[simp] theorem log_entries (j : Journal) (t : Thread) (n : Notice) :
    (j.log t n).2.entries = (t, n) :: j.entries := by
  unfold log; split <;> rfl

theorem log_of_unarmed {j : Journal} (h : j.armed = none) (t : Thread) (n : Notice) :
    (j.log t n).1 = none ∧ (j.log t n).2.armed = none := by
  simp [log, trips, h]

end Journal

end SerialWriter
