import SerialWriter.Failure

/-!
The cell that holds the outcome of one task: assigned once, by the first who claims it. An
interruption releases those who wait without assigning anything.
-/

namespace SerialWriter

/-- How a task ended, as its cell records it. -/
inductive Outcome (V : Type)
  | value (v : V)
  /-- A failure; there may be none to report. -/
  | error (e : Option Failure)
  deriving Repr, Inhabited

/-- The cell of one task. -/
structure Cell (V : Type) where
  /-- Someone has won the right to assign the outcome. -/
  claimed : Bool := false
  /-- The outcome has been assigned. -/
  ready : Bool := false
  /-- Those who wait are to be released. -/
  interrupted : Bool := false
  /-- The value, until it is taken. -/
  value : Option V := none
  /-- The failure. -/
  error : Option Failure := none
  deriving Repr

namespace Cell

variable {V : Type}

instance : Inhabited (Cell V) := ⟨{}⟩

/-- The first to claim a cell wins it. -/
def claim (c : Cell V) : Bool × Cell V := (!c.claimed, { c with claimed := true })

/-- The winner assigns the outcome. -/
def publish (c : Cell V) : Outcome V → Cell V
  | .value v => { c with ready := true, value := some v }
  | .error e => { c with ready := true, error := e }

/-- **Claims the cell and assigns the outcome**; a cell that is claimed stays as it is. -/
def resolve (c : Cell V) (o : Outcome V) : Bool × Cell V :=
  match c.claim with
  | (true, c) => (true, c.publish o)
  | (false, c) => (false, c)

/-- Releases those who wait. -/
def interrupt (c : Cell V) : Cell V := { c with interrupted := true }

/-- What someone who waits is told, if the wait is over before its time. -/
def status? (c : Cell V) : Option WaitStatus :=
  if c.ready then some .ready else if c.interrupted then some .interrupted else none

/-- What someone is told whose time has run out. -/
def status (c : Cell V) : WaitStatus := c.status?.getD .timeout

/-- The value leaves the cell. -/
def take (c : Cell V) : Option V × Cell V := (c.value, { c with value := none })

/-- The first resolution succeeds and shows, every later one fails and changes nothing. -/
theorem resolve_eq (c : Cell V) (o : Outcome V) :
    c.resolve o =
      if c.claimed then (false, c) else (true, { c with claimed := true }.publish o) := by
  unfold resolve claim
  cases h : c.claimed
  · simp
  · cases c; simp_all

end Cell

end SerialWriter
