import SerialWriter.Ledger
import SerialWriter.Queue.Shared
import SerialWriter.Session.Envelope

/-!
A session with a worker's cycles over a queue of envelopes, run by the main thread itself or by a
second thread while the main thread goes on.
-/

namespace SerialWriter

/-- A step of a session. -/
inductive WorkerStep (σ V : Type)
  | submit (id : String) (source : EnvelopeSource σ V)
  | cycle (budget : Int)
  | wake
  | pending
  | clear
  | sleep (ms : Int)
  | arm (needle : String)
  | interruptAll
  | cell (i : Nat) (s : CellStep V)
  /-- A second thread runs a cycle, and the main thread submits or wakes meanwhile. -/
  | cycleDuring (budget : Int) (submission : Option (String × EnvelopeSource σ V))

/-- What a step gives. -/
inductive WorkerReply (V : Type)
  | ok
  | skipped
  | truth (b : Bool)
  | failed (e : Failure)
  | ids (ids : List String)
  | cell (r : CellReply V)
  | cycled (r : Except Failure Bool) (log : List Notice)

/-- What can be seen after a step. -/
structure WorkerReport (ρ V : Type) where
  reply : WorkerReply V
  size : Nat
  executed : Nat
  failed : Nat
  records : List ρ
  log : List Notice

/-- A session in progress: the queue holds the numbers of envelopes. -/
structure WorkerSession (ρ V : Type) where
  queue : SharedQueue Nat
  envelopes : List (Envelope (List ρ) V) := []
  ledger : Ledger
  journal : Journal := {}
  /-- What the tasks have recorded so far, the latest first. -/
  records : List ρ := []
  now : Time := 0

namespace WorkerSession

variable {ρ V : Type}

/-- The thread that runs a cycle while the main thread goes on. -/
def second : Thread := .client 1

/-- The notification that follows an offer or a wake by the main thread. -/
def notify (s : WorkerSession ρ V) : WorkerSession ρ V :=
  { s with queue := (s.queue.notify mainThread s.queue.waiters.head?).getD s.queue }

/-- A new envelope is offered to the queue. It gets the next number in any case, even one that
could not be made: its cell is there all the same. -/
def submit (s : WorkerSession ρ V) (id : String) (source : EnvelopeSource (List ρ) V) :
    WorkerReply V × WorkerSession ρ V :=
  match source.make id with
  | .error e =>
    (.failed e, { s with envelopes := s.envelopes ++ [{ id, body := .direct (.fail e) }] })
  | .ok e =>
    let (ok, queue) := s.queue.offer mainThread s.envelopes.length
    let s := { s with queue, envelopes := s.envelopes ++ [e] }
    (.truth ok, if ok then s.notify else s)

/-- **The rest of a cycle** of thread `t` that has dequeued envelope `i`. Reading the clock takes a
moment. -/
def runEnvelope (s : WorkerSession ρ V) (t : Thread) (i : Nat) :
    Except Failure Bool × WorkerSession ρ V :=
  match s.envelopes[i]? with
  | none => (.ok true, s)
  | some e =>
    let (r, e, records, journal) := e.run s.records t s.journal
    let s := { s with envelopes := s.envelopes.set i e, records, journal, now := s.now + 1 }
    match r with
    | .error f => (.error f, s)
    | .ok succeeded =>
      let (fault, ledger, journal) := s.ledger.close e.id succeeded s.now s.queue.size t s.journal
      (fault.elim (.ok true) .error, { s with ledger, journal })

/-- **A cycle of `t`**, begun by a take that gave `taken`; a take that waits on gives `none`. -/
def finishCycle (s : WorkerSession ρ V) (t : Thread) (taken : Option Nat) :
    Except Failure Bool × WorkerSession ρ V :=
  match taken with
  | none => (.ok false, s)
  | some i => s.runEnvelope t i

/-- `t` begins a take; one whose time is up from the beginning is over at once. -/
def beginTake (s : WorkerSession ρ V) (t : Thread) (budget : Int) :
    Option (Option Nat) × WorkerSession ρ V :=
  match s.queue.take t s.now budget with
  | (some r, queue) => (some r, { s with queue })
  | (none, queue) =>
    match queue.retake t s.now with
    | some (r, queue) => (r, { s with queue })
    | none => (none, { s with queue })

/-- Waits until the take of `t` is over, be it that time runs out. -/
def finishTake (s : WorkerSession ρ V) (t : Thread) : Option Nat × WorkerSession ρ V :=
  match s.queue.retake t s.now with
  | some (some r, queue) => (r, { s with queue })
  | _ =>
    match s.queue.stages.get? t with
    | some (.waiting d _) =>
      let s := { s with now := max s.now d }
      match s.queue.retake t s.now with
      | some (some r, queue) => (r, { s with queue })
      | _ => (none, s)
    | _ => (none, s)

/-- A whole cycle of `t`, in which `meanwhile` happens as soon as its take waits or has ended. -/
def cycle (s : WorkerSession ρ V) (t : Thread) (budget : Int)
    (meanwhile : WorkerSession ρ V → WorkerSession ρ V) : Except Failure Bool × WorkerSession ρ V :=
  let (taken, s) := s.beginTake t budget
  let s := meanwhile s
  let (taken, s) := match taken with
    | some r => (r, s)
    | none => s.finishTake t
  s.finishCycle t taken

/-- **One step of a session.** -/
def perform (s : WorkerSession ρ V) : WorkerStep (List ρ) V → WorkerReply V × WorkerSession ρ V
  | .submit id source => s.submit id source
  | .cycle budget =>
    match s.cycle mainThread budget id with
    | (.ok b, s) => (.truth b, s)
    | (.error e, s) => (.failed e, s)
  | .wake => (.ok, ({ s with queue := s.queue.wake mainThread } : WorkerSession ρ V).notify)
  | .pending =>
    (.ids (s.queue.items.filterMap fun i => (s.envelopes[i]?).map (·.id)), s)
  | .clear => (.ok, { s with queue := s.queue.clear })
  | .sleep ms => (.ok, { s with now := s.now + max 0 (ms * 1000000) })
  | .arm needle => (.ok, { s with journal := s.journal.arm needle })
  | .interruptAll =>
    let interrupted := s.queue.items.foldl (fun es i => es.modify i (·.interrupt)) s.envelopes
    (.ok, { s with envelopes := interrupted })
  | .cell i step =>
    match s.envelopes[i]? with
    | none => (.skipped, s)
    | some e =>
      let (r, cell) := CellSession.atCell e.cell step
      (.cell r, { s with envelopes := s.envelopes.set i { e with cell } })
  | .cycleDuring budget submission =>
    let start := s.journal.length
    let meanwhile := fun s : WorkerSession ρ V =>
      match submission with
      | some (id, source) => (s.submit id source).2
      | none => ({ s with queue := s.queue.wake mainThread } : WorkerSession ρ V).notify
    let (r, s) := s.cycle second budget meanwhile
    (.cycled r (((s.journal.since start).filter fun e => decide (e.1 = second)).map (·.2)), s)

/-- **A whole session.** -/
def run (config : Config) (steps : List (WorkerStep (List ρ) V)) : List (WorkerReport ρ V) :=
  go { queue := { queue := { capacity := config.capacity } }
       ledger := Ledger.ofConfig config sessionStart
       now := sessionStart } steps
where
  /-- The reports of the steps that are left. -/
  go (s : WorkerSession ρ V) : List (WorkerStep (List ρ) V) → List (WorkerReport ρ V)
    | [] => []
    | step :: rest =>
      let (reply, s') := s.perform step
      { reply
        size := s'.queue.size
        executed := s'.ledger.executed
        failed := s'.ledger.failed
        records := gainedSince s'.records s.records.length
        log := ((s'.journal.since s.journal.length).filter
          fun e => decide (e.1 = mainThread)).map (·.2) } :: go s' rest

end WorkerSession

end SerialWriter
