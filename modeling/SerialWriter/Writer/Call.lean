import SerialWriter.Writer.Basic

/-!
The calls of a writer, one step at a time: start, stop, write and the destruction. A step is `none`
while the calling thread is blocked.
-/

namespace SerialWriter

namespace Writer

variable {σ V : Type}

/-! ### Inside the control -/

/-- One step inside the control. Waking the worker raises the queue's flag first, and then notifies
the worker. -/
def stepControl (w : Writer σ V) (t : Thread) : Option (Writer σ V) :=
  if w.control.waking t then
    match w.queue.stages.get? t with
    | some (.notifying _) =>
      (w.queue.notify t none).map fun queue =>
        { w with queue, control := w.control.woken t w.now }
    | _ => some { w with queue := w.queue.wake t }
  else
    (w.control.stepCall t w.now w.journal).map fun (control, journal) => { w with control, journal }

/-- One step inside the control, or `next` with the result when the control is done. -/
def throughControl (w : Writer σ V) (t : Thread)
    (next : Writer σ V → Except Failure Unit → Writer σ V) : Option (Writer σ V) :=
  match w.control.result? t with
  | some r => some (next { w with control := w.control.acknowledge t } r)
  | none => w.stepControl t

/-! ### Stop and destruction -/

/-- **A stop is over.** One that is part of the destruction reports a refusal and goes on; nothing
else may escape from a destruction, so anything else ends it. -/
def finishStop (w : Writer σ V) (t : Thread) (closing : Bool) (r : Except Failure Unit) :
    Writer σ V :=
  if closing then
    match r with
    | .ok _ => w.setCall t .clearing
    | .error (.refused r) => w.setCall t (.complaining r)
    | .error e => w.finish t (.error e)
  else w.finish t (r.map fun _ => none)

/-- The control has been stopped, or has refused to; everything else passes by the pending tasks. -/
def afterStop (w : Writer σ V) (t : Thread) (closing : Bool) : Except Failure Unit → Writer σ V
  | .ok _ => w.setCall t (.walking (.close closing))
  | .error (.refused r) => w.setCall t (.walking (.refuse closing r))
  | .error e => w.finishStop t closing (.error e)

/-- What follows the walk over the pending tasks and its report. -/
def afterWalk (w : Writer σ V) (t : Thread) : AfterWalk → Writer σ V
  | .close closing => w.setCall t (.closing closing)
  | .refuse closing r => w.finishStop t closing (.error (.refused r))
  | .discard => w.setCall t .clearing

/-- Everyone who waits for a pending task is released. -/
def interruptPending (w : Writer σ V) : Writer σ V :=
  w.queue.items.foldl (fun w ticket => w.changeCell ticket Cell.interrupt) w

/-- The fault of a line that a stop logs. -/
def faultOfWalk (w : Writer σ V) (t : Thread) (fault : Failure) : AfterWalk → Writer σ V
  | .close closing | .refuse closing _ => w.finishStop t closing (.error fault)
  | .discard => w.finish t (.error fault)

/-! ### Write -/

/-- **One step of a write.** -/
def stepWrite (w : Writer σ V) (t : Thread) (s : Submission σ V) :
    WriteStage → Option (Writer σ V)
  | .checking =>
    if w.phase.accepts then some (w.setCall t (.writing s .creating))
    else some (w.finish t (.error (.refused (.notAccepting w.config.name))))
  | .creating =>
    let made := w.factory.map fun f => f w.made
    let w := { w with made := w.made + 1 }
    match Envelope.make s.id s.work made with
    | .error e => some (w.finish t (.error e))
    | .ok e =>
      some ({ w with envelopes := w.envelopes.push e }.setCall t
        (.writing s (.offering w.envelopes.size)))
  | .offering ticket =>
    match w.queue.offer t ticket with
    | (true, queue) => some ({ w with queue }.setCall t (.writing s (.notifying ticket)))
    | (false, queue) => some ({ w with queue }.setCall t (.writing s .losing))
  | .notifying ticket =>
    (w.queue.notify t w.queue.waiters.head?).map fun queue =>
      { w with queue }.setCall t (.writing s (.counting ticket))
  | .counting ticket =>
    let w := { w with submitted := w.submitted + 1 }
    if s.wait ≤ 0 then some (w.finish t (.ok none))
    else some (w.setCall t (.writing s (.waiting ticket (w.now.after s.wait))))
  | .losing =>
    match ({ w with dropped := w.dropped + 1 } : Writer σ V).log t (.lost s.id) with
    | (w, none) => some (w.finish t (.ok none))
    | (w, some fault) => some (w.finish t (.error fault))
  | .waiting ticket deadline =>
    match (w.cell ticket).status? with
    | some status => some (w.setCall t (.writing s (.told ticket status)))
    | none =>
      if deadline ≤ w.now then some (w.setCall t (.writing s (.told ticket .timeout))) else none
  | .told ticket .ready =>
    match (w.cell ticket).error with
    | some e =>
      match w.log t (.taskThrew s.id e.describe) with
      | (w, none) => some (w.finish t (.error (e.forCaller s.id)))
      | (w, some fault) => some (w.finish t (.error fault))
    | none =>
      let (v, _) := (w.cell ticket).take
      some ((w.changeCell ticket fun c => c.take.2).finish t (.ok v))
  | .told _ .timeout =>
    match ({ w with timedOut := w.timedOut + 1 } : Writer σ V).log t (.unexecuted s.id s.wait) with
    | (w, none) => some (w.finish t (.ok none))
    | (w, some fault) => some (w.finish t (.error fault))
  | .told _ .interrupted =>
    match w.log t (.waitInterrupted s.id) with
    | (w, none) => some (w.finish t (.ok none))
    | (w, some fault) => some (w.finish t (.error fault))

/-! ### Any call -/

/-- **One step of the call that `t` is in.** -/
def stepCall (w : Writer σ V) (t : Thread) : CallOfWriter σ V → Option (Writer σ V)
  | .starting => w.throughControl t fun w r => w.finish t (r.map fun _ => none)
  | .stopping closing => w.throughControl t fun w r => w.afterStop t closing r
  | .walking after =>
    let pending := w.queue.items.length
    let w := w.interruptPending
    if 0 < pending then some (w.setCall t (.reporting pending after))
    else some (w.afterWalk t after)
  | .reporting pending after =>
    match w.log t (.abandoned w.config.name pending) with
    | (w, none) => some (w.afterWalk t after)
    | (w, some fault) => some (w.faultOfWalk t fault after)
  | .closing closing =>
    match w.log t (.closed w.config.name w.stats) with
    | (w, none) => some (w.finishStop t closing (.ok ()))
    | (w, some fault) => some (w.finishStop t closing (.error fault))
  | .destroying =>
    if w.phase.active then
      some ({ w with control := w.control.beginStop t }.setCall t (.stopping true))
    else some (w.setCall t (.walking .discard))
  | .complaining r =>
    match w.log t (.uncleanStop w.config.name (Failure.refused r).what) with
    | (w, none) => some (w.setCall t .clearing)
    | (w, some fault) => some (w.finish t (.error fault))
  | .clearing =>
    let w := { w with queue := w.queue.clear, control := w.control.beginDestroy t }
    some (w.setCall t .releasing)
  | .releasing => w.throughControl t fun w r => w.finish t (r.map fun _ => none)
  | .writing s stage => w.stepWrite t s stage
  | .ended _ => none

/-- The result of the call of `t`, once it is over. -/
def result? (w : Writer σ V) (t : Thread) : Option (Except Failure (Option V)) :=
  match w.calls.get? t with
  | some (.ended r) => some r
  | _ => none

/-- `t` begins a start. -/
def beginStart (w : Writer σ V) (t : Thread) (spawns : Bool) : Writer σ V :=
  { w with control := w.control.beginStart t spawns }.setCall t .starting

/-- `t` begins a stop. -/
def beginStop (w : Writer σ V) (t : Thread) : Writer σ V :=
  { w with control := w.control.beginStop t }.setCall t (.stopping false)

/-- `t` begins a write. -/
def beginWrite (w : Writer σ V) (t : Thread) (s : Submission σ V) : Writer σ V :=
  w.setCall t (.writing s .checking)

/-- `t` begins the destruction. -/
def beginDestroy (w : Writer σ V) (t : Thread) : Writer σ V := w.setCall t .destroying

/-- When the wait of `t` runs out, if it waits in a call. -/
def callDeadline? (w : Writer σ V) (t : Thread) : Option Time :=
  match w.calls.get? t with
  | some (.writing _ (.waiting _ d)) => some d
  | _ => w.control.deadline? t

end Writer

end SerialWriter
