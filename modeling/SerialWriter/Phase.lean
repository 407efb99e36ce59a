/-!
The phases of a writer's life and the ways a wait can end, with their names.
-/

namespace SerialWriter

/-- The phase a writer is in. -/
inductive Phase
  | new
  | starting
  | running
  | stopping
  | terminated
  | failed
  deriving DecidableEq, Repr, Inhabited

namespace Phase

/-- The phase as messages spell it. -/
def name : Phase → String
  | new => "NEW"
  | starting => "STARTING"
  | running => "RUNNING"
  | stopping => "STOPPING"
  | terminated => "TERMINATED"
  | failed => "FAILED"

/-- **New work is welcome until the writer is told to stop.** -/
def accepts : Phase → Bool
  | new | starting | running => true
  | stopping | terminated | failed => false

/-- A worker thread is expected to be alive. -/
def active : Phase → Bool
  | starting | running | stopping => true
  | new | terminated | failed => false

/-- The phases in the order in which they are numbered. -/
def all : List Phase := [new, starting, running, stopping, terminated, failed]

/-- The phase of a number, if the number stands for one. -/
def ofNumber? (n : Int) : Option Phase := if n < 0 then none else all[n.toNat]?

end Phase

/-- How a wait for an outcome ended. -/
inductive WaitStatus
  | ready
  | timeout
  | interrupted
  deriving DecidableEq, Repr, Inhabited

namespace WaitStatus

/-- The status as messages spell it. -/
def name : WaitStatus → String
  | ready => "READY"
  | timeout => "TIMEOUT"
  | interrupted => "INTERRUPTED"

/-- The statuses in the order in which they are numbered. -/
def all : List WaitStatus := [ready, timeout, interrupted]

/-- The status of a number, if the number stands for one. -/
def ofNumber? (n : Int) : Option WaitStatus := if n < 0 then none else all[n.toNat]?

end WaitStatus

/-- What is printed for a number that stands for nothing. -/
def nameOfUnknown : String := "UNKNOWN"

/-- The name of a numbered phase. -/
def Phase.nameOfNumber (n : Int) : String := ((ofNumber? n).map name).getD nameOfUnknown

/-- A number that stands for no phase accepts nothing. -/
def Phase.acceptsNumber (n : Int) : Bool := ((ofNumber? n).map accepts).getD false

/-- The name of a numbered status. -/
def WaitStatus.nameOfNumber (n : Int) : String := ((ofNumber? n).map name).getD nameOfUnknown

end SerialWriter
