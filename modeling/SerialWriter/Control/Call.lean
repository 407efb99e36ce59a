import SerialWriter.Control.Basic

/-!
The calls that start, stop and destroy, one step at a time. A step is `none` while the calling
thread is blocked: by the lock, by a worker it joins, or by a wait that has not ended.
-/

namespace SerialWriter

namespace Control

/-- Takes the lock. -/
def lock (c : Control) (t : Thread) : Control := { c with holder := some t }

/-- Gives the lock back. -/
def unlock (c : Control) : Control := { c with holder := none }

/-- The call of `t` is over; it no longer holds the lock. -/
def finish (c : Control) (t : Thread) (r : Except Failure Unit) : Control :=
  (c.unlock).setCall t (.ended r)

/-- **A stop is over.** One that is part of a destruction reports a refusal and goes on; nothing
else may escape from a destruction, so anything else ends it. -/
def finishStop (c : Control) (t : Thread) (closing : Bool) (r : Except Failure Unit) : Control :=
  if closing then
    match r with
    | .ok _ => c.unlock.setCall t (.destroy .locking)
    | .error (.refused e) => c.unlock.setCall t (.destroy (.reporting e))
    | .error e => c.finish t (.error e)
  else c.finish t r

/-- The refusal of a start in this phase. -/
def startRefusal? (c : Control) : Option Refusal :=
  match c.phase with
  | .failed => some (.startAfterFailure c.config.name)
  | .new | .terminated => none
  | p => some (.startWhile c.config.name p)

/-! ### Start -/

/-- The end of a start whose worker has left the starting phase. -/
def concludeStart (c : Control) (t : Thread) (j : Journal) : Control × Journal :=
  if c.phase = .failed then
    (c.finish t (.error (.refused (.startFailed c.config.name (Failure.describe? c.cause)))), j)
  else
    match j.log t (.started c.config.name) with
    | (none, j) => (c.finish t (.ok ()), j)
    | (some fault, j) => (c.finish t (.error fault), j)

/-- **One step of a start.** -/
def stepStart (c : Control) (t : Thread) (spawns : Bool) (now : Time) (j : Journal) :
    StartStage → Option (Control × Journal)
  | .entering =>
    if c.free then
      match c.startRefusal? with
      | some e => some (c.finish t (.error (.refused e)), j)
      | none => some ((c.lock t).setCall t (.start spawns .launching), j)
    else none
  | .launching =>
    (c.join t).map fun c =>
      match c.enter .starting t j with
      | (none, c, j) => (c.setCall t (.start spawns .spawning), j)
      | (some fault, c, j) => (c.finish t (.error fault), j)
  | .spawning =>
    if spawns then
      some (({ c with workers := c.workers ++ [.created], joinable := some c.workers.length }
        : Control).unlock.setCall t
          (.start spawns (.waiting (now.after c.config.startupLimit) false)), j)
    else
      match ({ c with cause := some .noThread } : Control).enter .failed t j with
      | (none, c, j) =>
        some (c.finish t (.error (.refused
          (.startWithoutThread c.config.name Failure.noThread.what))), j)
      | (some fault, c, j) => some (c.finish t (.error fault), j)
  | .waiting deadline notified =>
    if c.free && (notified || decide (deadline ≤ now)) then
      if c.phase ≠ .starting then some (c.concludeStart t j)
      else if deadline ≤ now then
        some (c.finish t (.error (.refused
          (.startExpired c.config.name c.config.startupLimit))), j)
      else some (c.setCall t (.start spawns (.waiting deadline false)), j)
    else none

/-! ### Stop -/

/-- The end of a stop that has joined the worker. -/
def concludeStop (c : Control) (t : Thread) (closing : Bool) (j : Journal) : Control × Journal :=
  if c.phase = .failed then
    (c.finishStop t closing
      (.error (.refused (.stopFailed c.config.name (Failure.describe? c.cause)))), j)
  else
    match j.log t (.stopped c.config.name) with
    | (none, j) => (c.finishStop t closing (.ok ()), j)
    | (some fault, j) => (c.finishStop t closing (.error fault), j)

/-- The worker has ended one way or the other. -/
def isOver (c : Control) : Bool := c.phase = .terminated || c.phase = .failed

/-- **One step of a stop**, apart from the waking of the worker. -/
def stepStop (c : Control) (t : Thread) (closing : Bool) (now : Time) (j : Journal) :
    StopStage → Option (Control × Journal)
  | .entering =>
    if c.free then
      match c.phase with
      | .new =>
        match c.enter .terminated t j with
        | (none, c, j) => some (c.finishStop t closing (.ok ()), j)
        | (some fault, c, j) => some (c.finishStop t closing (.error fault), j)
      | .terminated => some (c.finishStop t closing (.ok ()), j)
      | .failed => some ((c.lock t).setCall t (.stop closing .burying), j)
      | .starting | .running =>
        match c.enter .stopping t j with
        | (none, c, j) => some ((c.lock t).setCall t (.stop closing .waking), j)
        | (some fault, c, j) => some (c.finishStop t closing (.error fault), j)
      | .stopping => some ((c.lock t).setCall t (.stop closing .waking), j)
    else none
  | .burying =>
    (c.join t).map fun c =>
      (c.finishStop t closing
        (.error (.refused (.stopAfterFailure c.config.name (Failure.describe? c.cause)))), j)
  | .waking => none
  | .waiting deadline notified =>
    if c.free && (notified || decide (deadline ≤ now)) then
      if c.isOver then some ((c.lock t).setCall t (.stop closing .collecting), j)
      else if deadline ≤ now then
        some (c.finishStop t closing (.error (.refused
          (.stopExpired c.config.name c.config.shutdownLimit))), j)
      else some (c.setCall t (.stop closing (.waiting deadline false)), j)
    else none
  | .collecting => (c.join t).map fun c => c.concludeStop t closing j

/-- The worker has been woken on behalf of the stop of `t`, which now waits for it to end. -/
def woken (c : Control) (t : Thread) (now : Time) : Control :=
  match c.calls.get? t with
  | some (.stop closing .waking) =>
    c.unlock.setCall t (.stop closing (.waiting (now.after c.config.shutdownLimit) false))
  | _ => c

/-! ### Destruction -/

/-- **One step of a destruction**, apart from the stop that it may begin with. -/
def stepDestroy (c : Control) (t : Thread) (j : Journal) : DestroyStage → Option (Control × Journal)
  | .looking =>
    if c.phase.active then some (c.setCall t (.stop true .entering), j)
    else some (c.setCall t (.destroy .locking), j)
  | .reporting r =>
    match j.log t (.uncleanStop c.config.name (Failure.refused r).what) with
    | (none, j) => some (c.setCall t (.destroy .locking), j)
    | (some fault, j) => some (c.setCall t (.ended (.error fault)), j)
  | .locking => if c.free then some ((c.lock t).setCall t (.destroy .joining), j) else none
  | .joining => (c.join t).map fun c => (c.finish t (.ok ()), j)

/-! ### Any call -/

/-- **One step of the call that `t` is in.** -/
def stepCall (c : Control) (t : Thread) (now : Time) (j : Journal) : Option (Control × Journal) :=
  match c.calls.get? t with
  | some (.start spawns s) => c.stepStart t spawns now j s
  | some (.stop closing s) => c.stepStop t closing now j s
  | some (.destroy s) => c.stepDestroy t j s
  | some (.ended _) | none => none

/-- The thread is about to wake the worker. -/
def waking (c : Control) (t : Thread) : Bool :=
  match c.calls.get? t with
  | some (.stop _ .waking) => true
  | _ => false

/-- When the wait of `t` runs out, if it is waiting in a call. -/
def deadline? (c : Control) (t : Thread) : Option Time :=
  match c.calls.get? t with
  | some (.start _ (.waiting d _)) | some (.stop _ (.waiting d _)) => some d
  | _ => none

/-- The result of the call of `t`, once it is over. -/
def result? (c : Control) (t : Thread) : Option (Except Failure Unit) :=
  match c.calls.get? t with
  | some (.ended r) => some r
  | _ => none

/-- `t` has seen the result of its call. -/
def acknowledge (c : Control) (t : Thread) : Control := { c with calls := c.calls.drop t }

/-- `t` begins a start. -/
def beginStart (c : Control) (t : Thread) (spawns : Bool) : Control :=
  c.setCall t (.start spawns .entering)

/-- `t` begins a stop. -/
def beginStop (c : Control) (t : Thread) : Control := c.setCall t (.stop false .entering)

/-- `t` begins the destruction. -/
def beginDestroy (c : Control) (t : Thread) : Control := c.setCall t (.destroy .looking)

end Control

end SerialWriter
