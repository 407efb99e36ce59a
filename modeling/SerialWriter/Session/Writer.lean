import SerialWriter.Writer.Scene
import SerialWriter.Session.Schedule

/-!
A session with a writer whose resource is a list of records, the latest first. After each step the
scene comes to rest: the worker is held back before it begins, blocked at a gate, or has nothing to
do; or it is gone, and with it every stop is over, and every other call too if the writer has
terminated.
-/

namespace SerialWriter

/-- A call that a session makes. -/
inductive WriterCall (ρ V : Type)
  /-- `spawns` tells whether a thread can be created, `held` whether it is held back. -/
  | start (spawns held : Bool)
  | stop
  | write (s : Submission (List ρ) V)

/-- A step of a session. -/
inductive WriterStep (ρ V : Type)
  | call (c : WriterCall ρ V)
  /-- The call is made on a thread of its own. -/
  | aside (tag : String) (c : WriterCall ρ V)
  /-- The thread of that tag is waited for. -/
  | join (tag : String)
  | openGate (gate : String)
  | unhold
  | arm (needle : String)
  /-- Each producer submits its own tasks, on a thread of its own. -/
  | producers (tasks : List (List (Submission (List ρ) V)))
  /-- Another writer is made, compared and thrown away. -/
  | compare (config : Config)
  | config
  /-- With `rescue` the worker is let go once that many errors have been logged. -/
  | destroy (rescue : Option Nat)

/-- What a step gives. -/
inductive WriterReply (V : Type)
  | ok
  | skipped
  | result (r : Except Failure (Option V))
  | joined (result : Except Failure (Option V)) (log : List Notice)
  | produced (submitted dropped : Nat)
  | compared (equal self : Bool)
  | failed (e : Failure)
  | settings (c : Config) (target : String) (hasFactory : Bool)

/-- What can be seen after a step. -/
structure WriterReport (ρ V : Type) where
  reply : WriterReply V
  /-- The phase and the counters, unless the writer is gone. -/
  standing : Option (Phase × Stats)
  records : List ρ
  log : List Notice
  worker : List Notice

/-- A session in progress. -/
structure WriterSession (ρ V : Type) where
  writer : Writer (List ρ) V
  /-- The threads whose starts hold back the worker that they create. -/
  holders : List Thread := []
  /-- The workers that are held back before they begin. -/
  held : List Nat := []
  destroyed : Bool := false
  /-- A call was waited for that never ends. -/
  stuck : Bool := false
  /-- The threads made so far, by tag. -/
  asides : List (String × Thread) := []
  threads : Nat := 1
  /-- How much of the journal and of the records has been reported. -/
  seenLines : Nat := 0
  seenRecords : Nat := 0

namespace WriterSession

variable {ρ V : Type}

/-- One move of the scene. -/
def move (s : WriterSession ρ V) (m : Writer.Move (List ρ) V) : Option (WriterSession ρ V) :=
  (s.writer.step m).map fun writer => { s with writer }

/-- A client goes on with its call; a worker that it creates may be held back. -/
def runClient (t : Thread) (s : WriterSession ρ V) : Option (WriterSession ρ V) :=
  (s.move (.run t)).map fun s' =>
    let n := s.writer.control.workers.length
    if n < s'.writer.control.workers.length ∧ t ∈ s.holders then { s' with held := n :: s'.held }
    else s'

/-- A worker that polls an empty queue while the writer is running has nothing to do. -/
def polling (s : WriterSession ρ V) (n : Nat) : Bool :=
  let w := s.writer
  match w.control.budget? n, w.cycles.get? (.worker n) with
  | some budget, none =>
    decide (w.phase = .running) && decide (budget ≤ 0) && w.queue.queue.items.isEmpty
  | _, _ => false

/-- One step of a thread. Between two looks at the clock some time has passed. -/
def step (t : Thread) (s : WriterSession ρ V) : Option (WriterSession ρ V) :=
  match t with
  | .client _ => s.runClient t
  | .worker n =>
    match s.writer.control.worker? n, s.writer.cycles.get? t with
    | some .created, _ => if n ∈ s.held then none else s.move (.run t)
    | some (.cycling _), some (.measuring _) => (s.move (.pass 1)).bind fun s => s.move (.run t)
    | _, _ => if s.polling n then none else s.move (.run t)

/-- The workers. -/
def workers (s : WriterSession ρ V) : List Thread :=
  (List.range s.writer.control.workers.length).map .worker

/-- The threads that may have something to do. -/
def everyone (s : WriterSession ρ V) : List Thread :=
  (s.writer.calls.threads.filter fun t => !t.isWorker) ++ s.workers

/-- One step of any thread. -/
def turn (s : WriterSession ρ V) : Option (WriterSession ρ V) := firstTurn step s.everyone s

/-- Time passes until the first wait runs out. -/
def wait (s : WriterSession ρ V) : Option (WriterSession ρ V) :=
  (untilFirst? s.writer.now (s.everyone.filterMap s.writer.deadline?)).bind fun d =>
    s.move (.pass d)

/-- A worker waits for its time to run out: a task waits in a call of its own writer, or a take
waits for more tasks though the writer is no longer running. -/
def workerRestless (s : WriterSession ρ V) : Bool :=
  s.workers.any fun t =>
    (s.writer.deadline? t).isSome &&
      ((s.writer.calls.get? t).isSome || decide (s.writer.phase ≠ .running))

/-- A client still waits that would not be left waiting once the worker is gone: inside a stop, or
inside any call if the writer has terminated. -/
def clientRestless (s : WriterSession ρ V) : Bool :=
  s.writer.control.idle && s.writer.calls.entries.any fun e =>
    match e.2 with
    | .stopping _ => true
    | .ended _ => false
    | _ => decide (s.writer.phase = .terminated)

/-- Time passes only for the sake of a worker that is not merely idle, or of clients that wait
when there is no worker any more. -/
def waitIfRestless (s : WriterSession ρ V) : Option (WriterSession ρ V) :=
  if s.workerRestless || s.clientRestless then s.wait else none

/-- The scene comes to rest. -/
def rest (s : WriterSession ρ V) : WriterSession ρ V := play turn waitIfRestless (fun _ => false) s

/-- The call of `t` is over. -/
def isOver (t : Thread) (s : WriterSession ρ V) : Bool := (s.writer.result? t).isSome

/-- What was logged after the first `n` lines by those threads. -/
def linesOf (s : WriterSession ρ V) (p : Thread → Bool) (n : Nat) : List Notice :=
  ((s.writer.journal.since n).filter fun e => p e.1).map (·.2)

/-- The client `k` begins a call. -/
def beginCall (s : WriterSession ρ V) (k : Nat) : WriterCall ρ V → WriterSession ρ V
  | .start spawns held =>
    let others := s.holders.filter (· ≠ .client k)
    let s := { s with holders := if held then .client k :: others else others }
    (s.move (.request k (.start spawns))).getD s
  | .stop => (s.move (.request k .stop)).getD s
  | .write sub => (s.move (.request k (.write sub))).getD s

/-- The result of the call of client `k`, once time has brought it. -/
def await (s : WriterSession ρ V) (k : Nat) : Except Failure (Option V) × WriterSession ρ V :=
  let s := play turn wait (isOver (.client k)) s
  match s.writer.result? (.client k) with
  | some r => (r, (s.move (.acknowledge k)).getD s)
  | none => (.ok none, { s with stuck := true })

/-- The main thread makes a call and waits for it. -/
def call (s : WriterSession ρ V) (c : WriterCall ρ V) :
    Except Failure (Option V) × WriterSession ρ V :=
  (s.beginCall 0 c).await 0

/-- How many errors have been logged after the first `n` lines. -/
def errorsSince (s : WriterSession ρ V) (n : Nat) : Nat :=
  ((s.writer.journal.since n).filter fun e => decide (e.2.level = .error)).length

/-- The worker goes on until it is gone, while the main thread does nothing. -/
def awaitWorker (s : WriterSession ρ V) : WriterSession ρ V :=
  play (fun s => firstTurn step (s.everyone.filter (· ≠ mainThread)) s) wait
    (·.writer.control.idle) s

/-- The main thread's destruction goes on until it is over or has logged `n` errors; then the
worker is let go and ends before the destruction goes on. -/
def awaitWithRescue (s : WriterSession ρ V) : Option Nat → WriterSession ρ V
  | none | some 0 => (s.await 0).2
  | some n =>
    let start := s.writer.journal.length
    let s := play turn wait (fun s => s.isOver mainThread || decide (n ≤ s.errorsSince start)) s
    let free := { (s.move .openAll).getD s with held := [] }
    ((if s.isOver mainThread then s else free.awaitWorker).await 0).2

/-- One producer after the other submits its tasks; each waits for its own calls. -/
def produce (s : WriterSession ρ V) : List (List (Submission (List ρ) V)) → WriterSession ρ V
  | [] => s
  | tasks :: rest =>
    let k := s.threads
    let s := tasks.foldl (fun s sub => ((s.beginCall k (.write sub)).await k).2)
      { s with threads := k + 1 }
    s.produce rest

/-- **One step of a session**, before the scene comes to rest. -/
def perform (s : WriterSession ρ V) : WriterStep ρ V → WriterReply V × WriterSession ρ V
  | .join tag =>
    match s.asides.lookup tag with
    | some (.client k) =>
      let (result, s) := s.await k
      (.joined result (s.linesOf (· = .client k) 0),
        { s with asides := s.asides.filter (·.1 ≠ tag) })
    | _ => (.skipped, s)
  | step =>
    if s.destroyed then (.skipped, s)
    else
      match step with
      | .call c =>
        let (r, s) := s.call c
        (.result r, s)
      | .aside tag c =>
        let k := s.threads
        (.ok, { s with asides := (tag, .client k) :: s.asides, threads := k + 1 }.beginCall k c)
      | .openGate gate => (.ok, (s.move (.openGate gate)).getD s)
      | .unhold => (.ok, { s with held := [] })
      | .arm needle => (.ok, (s.move (.arm needle)).getD s)
      | .producers tasks =>
        let before := s.writer.stats
        let s := s.produce tasks
        let after := s.writer.stats
        (.produced (after.submitted - before.submitted) (after.dropped - before.dropped), s)
      | .compare config =>
        let w := s.writer
        let (other, journal) :=
          Writer.create (V := V) config w.target w.factory w.resource w.now mainThread w.journal
        let s := { s with writer := { w with journal } }
        match other with
        | .ok v => (.compared (w.sameAs v) (w.sameAs w), s)
        | .error e => (.failed e, s)
      | .config => (.settings s.writer.config s.writer.target s.writer.factory.isSome, s)
      | .destroy rescue =>
        let s := ((s.move (.request 0 .destroy)).getD s).awaitWithRescue rescue
        (.ok, { s with destroyed := true })
      | .join _ => (.skipped, s)

/-- What can be seen now; the next report begins where this one ends. -/
def report (s : WriterSession ρ V) (reply : WriterReply V) :
    WriterReport ρ V × WriterSession ρ V :=
  let w := s.writer
  ({ reply
     standing := if s.destroyed then none else some (w.phase, w.stats)
     records := gainedSince w.resource s.seenRecords
     log := s.linesOf (· = mainThread) s.seenLines
     worker := s.linesOf Thread.isWorker s.seenLines },
   { s with seenLines := w.journal.length, seenRecords := w.resource.length })

/-- A step and what can be seen after it. Between two steps some time has passed. -/
def advance (s : WriterSession ρ V) (step : WriterStep ρ V) :
    WriterReport ρ V × WriterSession ρ V :=
  let (reply, s) := ((s.move (.pass 1)).getD s).perform step
  s.rest.report reply

/-- **A whole session**: how the writer was made, what its creation logged, and the reports of the
steps, unless one waits for a call that never ends. -/
def run (config : Config) (target : String) (factory : Option (Factory (List ρ)))
    (steps : List (WriterStep ρ V)) :
    Option Failure × List Notice × Option (List (WriterReport ρ V)) :=
  match Writer.create (V := V) config target factory [] sessionStart mainThread {} with
  | (.error e, j) => (some e, (j.since 0).map (·.2), some [])
  | (.ok w, j) =>
    (none, (j.since 0).map (·.2), go { writer := w, seenLines := j.length } steps)
where
  /-- The reports of the steps that are left. -/
  go (s : WriterSession ρ V) : List (WriterStep ρ V) → Option (List (WriterReport ρ V))
    | [] => some []
    | step :: rest =>
      let (r, s) := s.advance step
      if s.stuck then none else (go s rest).map (r :: ·)

end WriterSession

end SerialWriter
