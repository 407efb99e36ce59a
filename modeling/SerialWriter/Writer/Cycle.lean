import SerialWriter.Writer.Call

/-!
The worker of a writer inside its cycles, one step at a time: it dequeues a ticket, runs the
envelope, keeps the books, and may be caught in calls that the task makes.
-/

namespace SerialWriter

/-- What a body begins with. -/
def Body.begin {σ V : Type} : Body σ V → BodyStage σ V
  | .direct p => .inner p none
  | .wrapped w _ => .outer w

namespace Writer

variable {σ V : Type}

/-! ### The parts of a step -/

/-- Worker `n` stands here in its cycle. -/
def setCycle (w : Writer σ V) (n : Nat) (c : CycleStage σ V) : Writer σ V :=
  { w with cycles := w.cycles.put (.worker n) c }

/-- Worker `n` stands here in the body of the ticket. -/
def setBody (w : Writer σ V) (n ticket : Nat) (b : BodyStage σ V) : Writer σ V :=
  w.setCycle n (.running ticket b)

/-- **The cycle of worker `n` is over**, by what escaped it if anything did. -/
def endCycle (w : Writer σ V) (n : Nat) (escaped : Option Failure) : Writer σ V :=
  { w with cycles := w.cycles.drop (.worker n), control := w.control.endCycle n escaped }

/-- Worker `n` tries to win the cell of its ticket for the outcome `o`, and goes on with `won` once
the outcome is assigned, or with `lost`. -/
def claimFor (w : Writer σ V) (n ticket : Nat) (o : Outcome V) (won lost : BodyStage σ V) :
    Writer σ V :=
  match (w.cell ticket).claim with
  | (true, _) => (w.changeCell ticket fun c => c.claim.2).setBody n ticket (.publishing o won)
  | (false, _) => w.setBody n ticket lost

/-- A run of the task inside the wrapper has ended; without a wrapper the body has. -/
def back (w : Writer σ V) (n ticket : Nat) (escaped : Option Failure) :
    Option (Option Failure → Wrapper σ) → Writer σ V
  | none => w.setBody n ticket (.left escaped)
  | some next => w.setBody n ticket (.outer (next escaped))

/-! ### The body of an envelope -/

/-- **One step of a task.** -/
def stepProgram (w : Writer σ V) (n ticket : Nat) (back? : Option (Option Failure → Wrapper σ)) :
    Program σ V → Option (Writer σ V)
  | .ret v =>
    match back? with
    | none => some (w.back n ticket none none)
    | some next =>
      some (w.claimFor n ticket (.value v) (.outer (next none)) (.outer (next none)))
  | .fail e => some (w.back n ticket (some e) back?)
  | .update f next =>
    some ({ w with resource := f w.resource }.setBody n ticket (.inner (next w.resource) back?))
  | .resolve o next =>
    some (w.claimFor n ticket o (.inner (next true) back?) (.inner (next false) back?))
  | .interrupt next =>
    some ((w.changeCell ticket Cell.interrupt).setBody n ticket (.inner next back?))
  | .pass gate next =>
    if w.gates.isOpen gate then some (w.setBody n ticket (.inner next back?)) else none
  | .phase next => some (w.setBody n ticket (.inner (next w.phase) back?))
  | .stats next => some (w.setBody n ticket (.inner (next w.stats) back?))
  | .start next =>
    some ((w.beginStart (.worker n) true).setBody n ticket
      (.calling fun r => .inner (next (r.map fun _ => ())) back?))
  | .stop next =>
    some ((w.beginStop (.worker n)).setBody n ticket
      (.calling fun r => .inner (next (r.map fun _ => ())) back?))
  | .write work id wait next =>
    some ((w.beginWrite (.worker n) { work, id, wait }).setBody n ticket
      (.calling fun r => .inner (next r) back?))

/-- **One step of a wrapper** around the task. -/
def stepWrapper (w : Writer σ V) (n ticket : Nat) (task : Program σ V) : Wrapper σ → Writer σ V
  | .done => w.setBody n ticket (.left none)
  | .fail e => w.setBody n ticket (.left (some e))
  | .update f next =>
    { w with resource := f w.resource }.setBody n ticket (.outer (next w.resource))
  | .invoke next => w.setBody n ticket (.inner task (some next))

/-- The run of the ticket's envelope is over. -/
def markDone (w : Writer σ V) (ticket : Nat) : Writer σ V := { w with done := ticket :: w.done }

/-- **What is left to do after the body**: a failure resolves the cell or is reported, and a body
that left no result resolves the cell with a failure. -/
def stepLeft (w : Writer σ V) (n ticket : Nat) : Option Failure → Writer σ V
  | some e =>
    if (w.cell ticket).claimed then
      match w.log (.worker n) (.lateFailure (w.idOf ticket)) with
      | (w, none) => w.setBody n ticket (.verdict false)
      | (w, some fault) => (w.markDone ticket).endCycle n (some fault)
    else w.claimFor n ticket (.error (some e)) (.verdict false) (.verdict false)
  | none =>
    if (w.cell ticket).claimed then w.setBody n ticket (.verdict true)
    else w.claimFor n ticket (.error (some (.noResult (w.idOf ticket)))) (.verdict false)
      (.verdict false)

/-- **One step of worker `n` in the body of a ticket.** -/
def stepBody (w : Writer σ V) (n ticket : Nat) (e : Envelope σ V) :
    BodyStage σ V → Option (Writer σ V)
  | .outer wrapper => some (w.stepWrapper n ticket e.body.task wrapper)
  | .inner p back? => w.stepProgram n ticket back? p
  | .publishing o after => some ((w.changeCell ticket (·.publish o)).setBody n ticket after)
  | .calling after =>
    match w.result? (.worker n) with
    | some r =>
      some ({ w with calls := w.calls.drop (.worker n) }.setBody n ticket (after r))
    | none => none
  | .left escaped => some (w.stepLeft n ticket escaped)
  | .verdict succeeded =>
    let w := w.markDone ticket
    if succeeded then some (w.setCycle n (.counting ticket))
    else
      let (fault, ledger, journal) := w.ledger.noteFailure e.id (.worker n) w.journal
      let w := { w with ledger, journal }
      match fault with
      | none => some (w.setCycle n (.counting ticket))
      | some fault => some (w.endCycle n (some fault))

/-! ### The cycle -/

/-- The take of worker `n` is over, with a ticket or without. -/
def tookTicket (w : Writer σ V) (n : Nat) : Option Nat → Writer σ V
  | none => w.endCycle n none
  | some ticket => w.setCycle n (.dequeued ticket)

/-- **One step of worker `n` in a cycle** that may wait for `budget` milliseconds. -/
def stepCycle (w : Writer σ V) (n : Nat) (budget : Int) : Option (Writer σ V) :=
  match w.cycles.get? (.worker n) with
  | none =>
    match w.queue.stages.get? (.worker n) with
    | some _ =>
      (w.queue.retake (.worker n) w.now).map fun (r, queue) =>
        match r with
        | some ticket => { w with queue }.tookTicket n ticket
        | none => { w with queue }
    | none =>
      match w.queue.take (.worker n) w.now budget with
      | (some ticket, queue) => some ({ w with queue }.tookTicket n ticket)
      | (none, queue) => some { w with queue }
  | some (.dequeued ticket) =>
    match w.envelopes[ticket]? with
    | some e => some ({ w with begun := ticket :: w.begun }.setBody n ticket e.body.begin)
    | none => none
  | some (.running ticket b) =>
    match w.envelopes[ticket]? with
    | some e => w.stepBody n ticket e b
    | none => none
  | some (.counting ticket) =>
    some ({ w with ledger := w.ledger.noteExecuted }.setCycle n (.measuring ticket))
  | some (.measuring _) =>
    let (fault, ledger, journal) :=
      w.ledger.noteDepth w.now w.queue.size (.worker n) w.journal
    some ({ w with ledger, journal }.endCycle n fault)

/-- **One step of worker `n`**, inside a cycle or between cycles. -/
def stepWorker (w : Writer σ V) (n : Nat) : Option (Writer σ V) :=
  match w.control.budget? n with
  | some budget => w.stepCycle n budget
  | none =>
    (w.control.stepWorker n w.journal).map fun (control, journal) => { w with control, journal }

/-- When the wait of `t` runs out, if it waits in a call or in a take. -/
def deadline? (w : Writer σ V) (t : Thread) : Option Time :=
  match w.queue.stages.get? t with
  | some (.waiting d _) => some d
  | _ => w.callDeadline? t

end Writer

end SerialWriter
