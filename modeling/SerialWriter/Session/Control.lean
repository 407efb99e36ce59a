import SerialWriter.Control.Scene
import SerialWriter.Session.Schedule

/-!
A session with a control whose cycles follow a script. After each step the scene comes to rest:
the worker is gone, held back before it begins, or stays in a cycle.
-/

namespace SerialWriter

/-! ### Scripted cycles -/

/-- How a scripted cycle ends. -/
inductive Ending
  | found (work : Bool)
  | throw (e : Failure)
  /-- Not before it is released. -/
  | hang
  deriving Repr, Inhabited

/-- Where the current cycle stands. -/
inductive CycleStand
  | entered
  /-- Waiting for an ending or a wake. -/
  | gated
  | hanging
  | released (e : Ending)
  deriving Repr, Inhabited

/-- The script that the cycles follow. -/
structure Script where
  endings : List Ending := []
  /-- The worker has been woken and nobody has taken notice. -/
  awake : Bool := false
  /-- How a cycle ends that was woken while it waited. -/
  onWake : Ending := .found false
  /-- How a cycle ends that finds itself woken and the script used up. -/
  onFinal : Ending := .found false
  stand : CycleStand := .entered
  deriving Repr, Inhabited

namespace Script

/-- The scripted ending that comes next leaves the script. -/
def shift (s : Script) : Option (Ending × Script) :=
  match s.endings with
  | [] => none
  | e :: rest => some (e, { s with endings := rest })

/-- The current cycle waits for an ending or a wake. -/
def gated (s : Script) : Bool :=
  match s.stand with
  | .gated => true
  | _ => false

/-- The current cycle hangs. -/
def hanging (s : Script) : Bool :=
  match s.stand with
  | .hanging => true
  | _ => false

/-- A cycle that hangs is released. -/
def release (s : Script) (e : Ending) : Script :=
  if s.hanging then { s with stand := .released e } else s

/-- **What the current cycle does next**: it ends some way, or it stands differently; `none` if it
stays as it is. -/
def next? (s : Script) : Option (Option Ending × Script) :=
  match s.stand with
  | .entered =>
    match s.shift with
    | some (e, s) => some (some e, s)
    | none =>
      if s.awake then some (some s.onFinal, { s with awake := false })
      else some (none, { s with stand := .gated })
  | .gated =>
    match s.shift with
    | some (e, s) => some (some e, s)
    | none => if s.awake then some (some s.onWake, s) else none
  | .hanging => none
  | .released e => some (some e, s)

end Script

/-! ### The session -/

/-- A call that a session makes. -/
inductive ControlCall
  /-- `spawns` tells whether a thread can be created, `held` whether it is held back. -/
  | start (spawns held : Bool)
  | stop (onWake onFinal : Ending)
  deriving Repr

/-- A step of a session. -/
inductive ControlStep
  | call (c : ControlCall)
  /-- The call is made on a thread of its own. -/
  | aside (tag : String) (c : ControlCall)
  /-- The thread of that tag is waited for. -/
  | join (tag : String)
  /-- Several threads stop at once while the last cycle hangs, which is then released if there is
  an ending for it. -/
  | stops (n : Nat) (release : Option Ending)
  | script (endings : List Ending)
  | release (e : Ending)
  | unhold
  | arm (needle : String)
  /-- With `rescue` the worker is let go once that many errors have been logged. -/
  | destroy (onWake onFinal : Ending) (rescue : Option Nat)
  deriving Repr

/-- A call made by a thread of its own, and what that thread logged. -/
structure AsideResult where
  result : Except Failure Unit
  log : List Notice

/-- What a step gives. -/
inductive ControlReply
  | ok
  | skipped
  | failed (e : Failure)
  | joined (r : AsideResult)
  | stopped (rs : List AsideResult)

/-- What can be seen after a step. -/
structure ControlReport where
  reply : ControlReply
  /-- The phase and the cause of failure, unless the control is gone. -/
  standing : Option (Phase × Option Failure)
  /-- The waits allowed to the cycles entered since the last step. -/
  cycles : List Int
  wakes : Nat
  log : List Notice
  worker : List Notice

/-- A session in progress. -/
structure ControlSession where
  scene : ControlScene
  script : Script := {}
  /-- The threads whose starts hold back the worker that they create. -/
  holders : List Thread := []
  /-- The workers that are held back before they begin. -/
  held : List Nat := []
  destroyed : Bool := false
  /-- A call was waited for that never ends. -/
  stuck : Bool := false
  /-- The threads made so far, by tag. -/
  asides : List (String × Thread) := []
  threads : Nat := 1
  /-- How much of the journal and of the cycles has been reported. -/
  seenLines : Nat := 0
  seenCycles : Nat := 0

namespace ControlSession

/-- The control. -/
def control (s : ControlSession) : Control := s.scene.control

/-- One move of the scene. -/
def move (s : ControlSession) (m : ControlScene.Move) : Option ControlSession :=
  (s.scene.step m).map fun scene =>
    let woken := decide (s.scene.wakes < scene.wakes)
    { s with scene, script := { s.script with awake := s.script.awake || woken } }

/-- A client goes on with its call; a worker that it creates may be held back. -/
def runClient (t : Thread) (s : ControlSession) : Option ControlSession :=
  (s.move (.call t)).map fun s' =>
    let n := s.control.workers.length
    if n < s'.control.workers.length ∧ t ∈ s.holders then { s' with held := n :: s'.held } else s'

/-- The current cycle stands like this. -/
def stand (s : ControlSession) (stand : CycleStand) : ControlSession :=
  { s with script := { s.script with stand } }

/-- The ending of the current cycle of worker `n` takes place. -/
def endCycle (s : ControlSession) (n : Nat) : Ending → Option ControlSession
  | .found _ => (s.stand .entered).move (.endCycle n none)
  | .throw e => (s.stand .entered).move (.endCycle n (some e))
  | .hang => some (s.stand .hanging)

/-- One step of a thread. -/
def step (t : Thread) (s : ControlSession) : Option ControlSession :=
  match t with
  | .client _ => s.runClient t
  | .worker n =>
    match s.control.worker? n with
    | some (.cycling _) =>
      match s.script.next? with
      | some (some e, script) => endCycle { s with script } n e
      | some (none, script) => some { s with script }
      | none => none
    | some .created => if n ∈ s.held then none else s.move (.work n)
    | _ => s.move (.work n)

/-- The threads that may have something to do. -/
def everyone (s : ControlSession) : List Thread :=
  s.control.calls.threads ++ (List.range s.control.workers.length).map .worker

/-- One step of any thread. -/
def turn (s : ControlSession) : Option ControlSession := firstTurn step s.everyone s

/-- Time passes until the first wait runs out. -/
def wait (s : ControlSession) : Option ControlSession :=
  (untilFirst? s.scene.now (s.control.calls.threads.filterMap s.control.deadline?)).bind fun d =>
    s.move (.pass d)

/-- The scene comes to rest. -/
def rest (s : ControlSession) : ControlSession := settle turn s

/-- The call of `t` is over. -/
def isOver (t : Thread) (s : ControlSession) : Bool := (s.control.result? t).isSome

/-- What `t` has logged after the first `n` lines. -/
def linesOf (s : ControlSession) (p : Thread → Bool) (n : Nat) : List Notice :=
  ((s.scene.journal.since n).filter fun e => p e.1).map (·.2)

/-- A thread of its own. -/
def newThread (s : ControlSession) : Thread × ControlSession :=
  (.client s.threads, { s with threads := s.threads + 1 })

/-- `t` begins a call. -/
def beginCall (s : ControlSession) (t : Thread) : ControlCall → ControlSession
  | .start spawns held =>
    let script : Script :=
      if s.control.idle then { s.script with endings := [], awake := false } else s.script
    let others := s.holders.filter (· ≠ t)
    let s := { s with script, holders := if held then t :: others else others }
    (s.move (.start t spawns)).getD s
  | .stop onWake onFinal =>
    let s := { s with script := { s.script with onWake, onFinal } }
    (s.move (.stop t)).getD s

/-- The result of the call of `t`, once time has brought it. -/
def await (s : ControlSession) (t : Thread) : Except Failure Unit × ControlSession :=
  let s := play turn wait (isOver t) s
  match s.control.result? t with
  | some r => (r, (s.move (.acknowledge t)).getD s)
  | none => (.ok (), { s with stuck := true })

/-- How many errors have been logged after the first `n` lines. -/
def errorsSince (s : ControlSession) (n : Nat) : Nat :=
  ((s.scene.journal.since n).filter fun e => decide (e.2.level = .error)).length

/-- Everything that keeps the worker from ending is removed. -/
def letGo (s : ControlSession) : ControlSession :=
  { s with held := [], script := s.script.release (.found false) }

/-- The worker goes on until it is gone, while `t` does nothing. -/
def awaitWorker (s : ControlSession) (t : Thread) : ControlSession :=
  play (fun s => firstTurn step (s.everyone.filter (· ≠ t)) s) wait (·.control.idle) s

/-- The destruction goes on until it is over or has logged `n` errors; then the worker is let go
and ends before the destruction goes on. -/
def awaitWithRescue (s : ControlSession) (t : Thread) : Option Nat → ControlSession
  | none | some 0 => (s.await t).2
  | some n =>
    let start := s.scene.journal.length
    let s := play turn wait (fun s => s.isOver t || decide (n ≤ s.errorsSince start)) s
    let s := if s.isOver t then s else s.letGo.awaitWorker t
    (s.await t).2

/-- **One step of a session**, before the scene comes to rest. -/
def perform (s : ControlSession) : ControlStep → ControlReply × ControlSession
  | .join tag =>
    match s.asides.lookup tag with
    | none => (.skipped, s)
    | some t =>
      let (result, s) := s.await t
      (.joined { result, log := s.linesOf (· = t) 0 },
        { s with asides := s.asides.filter (·.1 ≠ tag) })
  | step =>
    if s.destroyed then (.skipped, s)
    else
      match step with
      | .call c =>
        match (s.beginCall mainThread c).await mainThread with
        | (.ok _, s) => (.ok, s)
        | (.error e, s) => (.failed e, s)
      | .aside tag c =>
        let (t, s) := s.newThread
        (.ok, { s.beginCall t c with asides := (tag, t) :: s.asides })
      | .stops n release =>
        let script : Script :=
          if s.control.phase = .running ∧ s.script.hanging = false then
            { s.script with onWake := .found false, onFinal := .hang }
          else s.script
        let ts := (List.range n).map fun i => Thread.client (s.threads + i)
        let s := { s with script, threads := s.threads + n }
        let s := ts.foldl (fun s t => (s.move (.stop t)).getD s) s
        let s := s.rest
        let s := { s with script := release.elim s.script s.script.release }
        let (rs, s) := ts.foldl (fun (rs, s) t =>
          let (result, s) := s.await t
          ((t, result) :: rs, s)) ([], s)
        (.stopped (rs.reverse.map fun (t, result) => { result, log := s.linesOf (· = t) 0 }), s)
      | .script endings =>
        if s.script.gated then (.ok, { s with script := { s.script with endings } })
        else (.skipped, s)
      | .release e =>
        if s.script.hanging then (.ok, { s with script := s.script.release e }) else (.skipped, s)
      | .unhold => (.ok, { s with held := [] })
      | .arm needle => (.ok, (s.move (.arm needle)).getD s)
      | .destroy onWake onFinal rescue =>
        let s := { s with script := { s.script with onWake, onFinal } }
        let s := ((s.move (.destroy mainThread)).getD s).awaitWithRescue mainThread rescue
        (.ok, { s with destroyed := true })
      | .join _ => (.skipped, s)

/-- What can be seen now; the next report begins where this one ends. -/
def report (s : ControlSession) (reply : ControlReply) : ControlReport × ControlSession :=
  let c := s.control
  ({ reply
     standing := if s.destroyed then none else some (c.phase, c.cause)
     cycles := (gainedSince c.cycles s.seenCycles).map (·.2)
     wakes := s.scene.wakes
     log := s.linesOf (· = mainThread) s.seenLines
     worker := s.linesOf Thread.isWorker s.seenLines },
   { s with seenLines := s.scene.journal.length, seenCycles := c.cycles.length })

/-- A step and what can be seen after it. Between two steps some time has passed. -/
def advance (s : ControlSession) (step : ControlStep) : ControlReport × ControlSession :=
  let (reply, s) := ((s.move (.pass 1)).getD s).perform step
  s.rest.report reply

/-- **A whole session**, unless it waits for a call that never ends. -/
def run (config : Config) (steps : List ControlStep) : Option (List ControlReport) :=
  go { scene := { control := { config }, now := sessionStart } } steps
where
  /-- The reports of the steps that are left. -/
  go (s : ControlSession) : List ControlStep → Option (List ControlReport)
    | [] => some []
    | step :: rest =>
      let (r, s) := s.advance step
      if s.stuck then none else (go s rest).map (r :: ·)

end ControlSession

end SerialWriter
