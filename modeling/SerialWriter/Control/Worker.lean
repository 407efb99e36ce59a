import SerialWriter.Control.Basic

/-!
The worker thread of one life, one step at a time. It runs cycles while the phase stays running,
then exactly one more that does not wait; whatever escapes a cycle is fatal.
-/

namespace SerialWriter

namespace Control

/-- The worker's next cycle, with the wait it is allowed. -/
def enterCycle (c : Control) (n : Nat) (last : Bool) : Control :=
  { c.setWorker n (.cycling last) with
    cycles := (n, if last then 0 else c.config.idleDelay) :: c.cycles }

/-- **One step of worker `n`** outside its cycles. -/
def stepWorker (c : Control) (n : Nat) (j : Journal) : Option (Control × Journal) :=
  match c.worker? n with
  | some .created =>
    if c.free then
      if c.phase = .starting then
        match c.enter .running (.worker n) j with
        | (none, c, j) => some (c.setWorker n .looking, j)
        | (some fault, c, j) => some (c.setWorker n (.failing fault), j)
      else some (c.setWorker n .looking, j)
    else none
  | some .looking => some (c.setWorker n (.entering (decide (c.phase ≠ .running))), j)
  | some (.entering last) => some (c.enterCycle n last, j)
  | some .retiring =>
    if c.free then
      match c.enter .terminated (.worker n) j with
      | (none, c, j) => some (c.setWorker n .leaving, j)
      | (some fault, c, j) => some (c.setWorker n (.failing fault), j)
    else none
  | some (.failing e) =>
    if c.free then
      match ({ c with cause := some e } : Control).enter .failed (.worker n) j with
      | (none, c, j) => some (c.setWorker n (.reporting e), j)
      | (some _, c, j) => some (c.setWorker n .aborted, j)
    else none
  | some (.reporting e) =>
    match j.log (.worker n) (.workerFailed c.config.name e.describe) with
    | (none, j) => some (c.setWorker n .leaving, j)
    | (some _, j) => some (c.setWorker n .aborted, j)
  | some .leaving => some (c.setWorker n .finished, j)
  | some (.cycling _) | some .finished | some .aborted | none => none

/-- **The end of a cycle of worker `n`**: what escaped it, if anything did. -/
def endCycle (c : Control) (n : Nat) (escaped : Option Failure) : Control :=
  match c.worker? n, escaped with
  | some (.cycling _), some e => c.setWorker n (.failing e)
  | some (.cycling last), none => c.setWorker n (if last then .retiring else .looking)
  | _, _ => c

/-- The wait allowed to the cycle that worker `n` is in. -/
def budget? (c : Control) (n : Nat) : Option Int :=
  match c.worker? n with
  | some (.cycling last) => some (if last then 0 else c.config.idleDelay)
  | _ => none

/-- No worker thread is alive. -/
def idle (c : Control) : Bool :=
  c.workers.all fun w =>
    match w with
    | .finished | .aborted => true
    | _ => false

end Control

end SerialWriter
