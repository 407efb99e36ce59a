import SerialWriter.Failure

/-!
The settings of a writer and the check they have to pass. All durations are in milliseconds.
-/

namespace SerialWriter

/-- The settings of a writer. -/
structure Config where
  /-- The name that messages use. -/
  name : String := "writer"
  /-- How many tasks may be pending. -/
  capacity : Nat := 10000
  /-- How long a cycle waits for a task when there is none. -/
  idleDelay : Int := 5
  /-- The least time between two lines about the depth of the queue. -/
  depthInterval : Int := 5000
  /-- How long a start waits for the worker. -/
  startupLimit : Int := 10000
  /-- How long a stop waits for the worker. -/
  shutdownLimit : Int := 30000
  deriving DecidableEq, Repr, Inhabited

/-- **The first setting that cannot be used**, if there is one. -/
def Config.fault? (c : Config) : Option Refusal :=
  if c.capacity = 0 then some (.capacityNotPositive c.name)
  else if c.idleDelay < 0 then some (.idleDelayNegative c.name)
  else if c.depthInterval < 0 then some (.depthIntervalNegative c.name)
  else if c.startupLimit ≤ 0 ∨ c.shutdownLimit ≤ 0 then some (.limitsNotPositive c.name)
  else none

/-- The id of a task whose submitter gives none. -/
def unknownId : String := "UNKNOWN"

/-- How many items a queue holds unless it is told otherwise. -/
def defaultCapacity : Nat := 10000

end SerialWriter
