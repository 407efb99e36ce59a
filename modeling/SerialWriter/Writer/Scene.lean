import SerialWriter.Writer.Cycle

/-!
A writer and everything that can happen to it: its threads go on in any order, clients call as
they like, time passes, gates open, and log lines fail.
-/

namespace SerialWriter

/-- A call that a client makes. -/
inductive WriterRequest (σ V : Type)
  /-- `spawns` tells whether the system will be able to create a thread. -/
  | start (spawns : Bool)
  | stop
  | write (s : Submission σ V)
  | destroy

namespace Writer

variable {σ V : Type}

/-- What can happen next. -/
inductive Move (σ V : Type)
  | request (client : Nat) (r : WriterRequest σ V)
  /-- The thread goes on. -/
  | run (t : Thread)
  /-- The client sees the result of its call. -/
  | acknowledge (client : Nat)
  /-- A waiting thread wakes up for no reason. -/
  | stir (t : Thread)
  | openGate (gate : String)
  | openAll
  /-- The journal is armed. -/
  | arm (needle : String)
  /-- Time passes. -/
  | pass (d : Nat)

/-- `t` makes a call. -/
def request (w : Writer σ V) (t : Thread) : WriterRequest σ V → Writer σ V
  | .start spawns => w.beginStart t spawns
  | .stop => w.beginStop t
  | .write s => w.beginWrite t s
  | .destroy => w.beginDestroy t

/-- **The thread goes on**: with the call it is in, or else, if it is a worker, with its work. -/
def run (w : Writer σ V) (t : Thread) : Option (Writer σ V) :=
  match w.calls.get? t with
  | some (.ended _) | none =>
    match t with
    | .client _ => none
    | .worker n => w.stepWorker n
  | some c => w.stepCall t c

/-- **One move**, if it is possible. -/
def step (w : Writer σ V) : Move σ V → Option (Writer σ V)
  | .request k r =>
    if (w.calls.get? (.client k)).isNone then some (w.request (.client k) r) else none
  | .run t => w.run t
  | .acknowledge k =>
    if (w.result? (.client k)).isSome then
      some { w with calls := w.calls.drop (.client k) }
    else none
  | .stir t =>
    match w.control.calls.get? t with
    | some c => some { w with control := w.control.setCall t c.roused }
    | none => some { w with queue := w.queue.rouse t }
  | .openGate gate => some { w with gates := { w.gates with opened := gate :: w.gates.opened } }
  | .openAll => some { w with gates := { w.gates with all := true } }
  | .arm needle => some { w with journal := w.journal.arm needle }
  | .pass d => some { w with now := w.now + d }

/-- The states that a writer can reach from `w`. -/
inductive Reachable (w : Writer σ V) : Writer σ V → Prop
  | refl : Reachable w w
  | step {u v : Writer σ V} (m : Move σ V) (h : Reachable w u) (hs : u.step m = some v) :
    Reachable w v

end Writer

end SerialWriter
