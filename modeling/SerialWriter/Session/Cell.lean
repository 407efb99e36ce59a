import SerialWriter.Cell.Shared
import SerialWriter.Session.Schedule

/-!
A session with the cell of one task: one main thread, and for some steps threads that wait
meanwhile or race to assign the outcome. What happens meanwhile is again a list of steps.
-/

namespace SerialWriter

/-- A step of a session. -/
inductive CellStep (V : Type)
  | resolve (o : Outcome V)
  | interrupt
  | wait (limit : Int)
  | isResolved
  | error
  | take
  /-- Several threads race to assign the same outcome. -/
  | race (n : Nat) (o : Outcome V)
  /-- Several threads wait while the main thread goes on with steps of its own. -/
  | waitDuring (limit : Int) (waiters : Nat) (steps : List (CellStep V))

/-- What a step gives. -/
inductive CellReply (V : Type)
  | ok
  | truth (b : Bool)
  | status (s : WaitStatus)
  | error (e : Option Failure)
  | took (v : Option V)
  /-- How many of the racing threads won. -/
  | winners (n : Nat)
  | waited (results : List (CellReply V)) (waiters : List WaitStatus)

/-- A session in progress. -/
structure CellSession (V : Type) where
  scene : SharedCell V := {}
  /-- What the waiting threads have been told so far. -/
  told : List (Thread × WaitStatus) := []
  /-- The threads made so far. -/
  threads : Nat := 1

namespace CellSession

variable {V : Type}

/-- One move of the scene, and what the thread learns. -/
def move (s : CellSession V) (m : SharedCell.Move V) :
    Option (SharedCell.Reply V × CellSession V) :=
  (s.scene.step m).map fun (r, scene) => (r, { s with scene })

/-- When the waiting thread has waited for long enough. -/
def deadline? (s : CellSession V) (t : Thread) : Option Time :=
  match s.scene.stages.get? t with
  | some (.waiting d) => some d
  | _ => none

/-- A move of a wait; what it tells is kept if the wait is over. -/
def waitMove (s : CellSession V) (t : Thread) (m : SharedCell.Move V) : Option (CellSession V) :=
  (s.move m).map fun (r, s) =>
    match r with
    | .status w => { s with told := (t, w) :: s.told }
    | _ => s

/-- The wait of `t` looks again if that can end it. -/
def rewait (t : Thread) (s : CellSession V) : Option (CellSession V) :=
  (s.deadline? t).bind fun d =>
    if s.scene.cell.status?.isSome ∨ d ≤ s.scene.now then s.waitMove t (.rewait t) else none

/-- Some waiting thread goes on. -/
def turn (s : CellSession V) : Option (CellSession V) := firstTurn rewait s.scene.stages.threads s

/-- Time passes until the first wait runs out. -/
def pass (s : CellSession V) : Option (CellSession V) :=
  (untilFirst? s.scene.now (s.scene.stages.threads.filterMap s.deadline?)).bind fun d =>
    (s.move (.pass d)).map (·.2)

/-- Threads of their own. -/
def newThreads (s : CellSession V) (n : Nat) : List Thread × CellSession V :=
  ((List.range n).map fun i => .client (s.threads + i), { s with threads := s.threads + n })

/-- The threads begin to wait. Nothing that other threads have been told is lost. -/
def beginWaits (s : CellSession V) (ts : List Thread) (limit : Int) : CellSession V :=
  ts.foldl (fun s t => (s.waitMove t (.wait t limit)).getD s)
    { s with told := s.told.filter fun e => decide (e.1 ∉ ts) }

/-- The threads wait until each of them has been told a status. -/
def finishWaits (s : CellSession V) (ts : List Thread) : List WaitStatus × CellSession V :=
  let s := play turn pass (fun s => ts.all fun t => (s.told.lookup t).isSome) s
  (ts.map fun t => (s.told.lookup t).getD .timeout, s)

/-- `t` tries to assign an outcome. -/
def resolve (s : CellSession V) (t : Thread) (o : Outcome V) : Bool × CellSession V :=
  match s.move (.claim t o) with
  | some (.resolved b, s) => (b, s)
  | some (_, s) =>
    match s.move (.publish t) with
    | some (.resolved b, s) => (b, s)
    | some (_, s) => (false, s)
    | none => (false, s)
  | none => (false, s)

mutual

/-- **One step of a session.** -/
def perform (s : CellSession V) : CellStep V → CellReply V × CellSession V
  | .resolve o =>
    let (b, s) := s.resolve mainThread o
    (.truth b, s)
  | .interrupt => (.ok, ((s.move (.interrupt mainThread)).map (·.2)).getD s)
  | .wait limit =>
    let (ws, s) := (s.beginWaits [mainThread] limit).finishWaits [mainThread]
    (.status (ws.headD .timeout), s)
  | .isResolved => (.truth s.scene.cell.claimed, s)
  | .error => (.error s.scene.cell.error, s)
  | .take =>
    match s.move (.take mainThread) with
    | some (.took v, s) => (.took v, s)
    | _ => (.took none, s)
  | .race n o =>
    let (ts, s) := s.newThreads n
    let (won, s) := ts.foldl (fun (won, s) t =>
      let (b, s) := s.resolve t o
      (if b then won + 1 else won, s)) (0, s)
    (.winners won, s)
  | .waitDuring limit waiters steps =>
    let (ts, s) := s.newThreads waiters
    let (rs, s) := (s.beginWaits ts limit).performAll steps
    let (ws, s) := s.finishWaits ts
    (.waited rs ws, s)

/-- **Steps one after the other**, each followed by what it lets waiting threads do. -/
def performAll (s : CellSession V) : List (CellStep V) → List (CellReply V) × CellSession V
  | [] => ([], s)
  | step :: rest =>
    let (r, s) := s.perform step
    let (rs, s) := (settle turn s).performAll rest
    (r :: rs, s)

end

/-- **A whole session.** -/
def run (steps : List (CellStep V)) : List (CellReply V) :=
  (({ scene := { now := sessionStart } } : CellSession V).performAll steps).1

/-- One step at a cell that no other thread knows of. -/
def atCell (c : Cell V) (step : CellStep V) : CellReply V × Cell V :=
  let (r, s) := ({ scene := { cell := c, now := sessionStart } } : CellSession V).perform step
  (r, s.scene.cell)

end CellSession

end SerialWriter
