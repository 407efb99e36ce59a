import SerialWriter.Cell.Basic
import SerialWriter.Thread

/-!
A cell shared by threads: claiming it and assigning the outcome are two steps, and anything may
happen between them.
-/

namespace SerialWriter

/-- What a thread is in the middle of at a shared cell. -/
inductive CellStage (V : Type)
  /-- The cell is won and the outcome still to be assigned. -/
  | publishing (o : Outcome V)
  /-- Waiting for an outcome. -/
  | waiting (deadline : Time)
  deriving Repr

/-- A cell and the threads in the middle of a call. -/
structure SharedCell (V : Type) where
  cell : Cell V := {}
  stages : Roster (CellStage V) := {}
  now : Time := 0

namespace SharedCell

variable {V : Type}

/-- What can happen next at a shared cell. -/
inductive Move (V : Type)
  /-- A resolver tries to win the cell. -/
  | claim (t : Thread) (o : Outcome V)
  /-- The winner assigns its outcome. -/
  | publish (t : Thread)
  | interrupt (t : Thread)
  | wait (t : Thread) (limit : Int)
  /-- A waiting thread looks again. -/
  | rewait (t : Thread)
  | error (t : Thread)
  | isResolved (t : Thread)
  | take (t : Thread)
  /-- Time passes. -/
  | pass (d : Nat)

/-- What the calling thread learns from a move. -/
inductive Reply (V : Type)
  | quiet
  | resolved (won : Bool)
  | status (s : WaitStatus)
  | error (e : Option Failure)
  | isResolved (b : Bool)
  | took (v : Option V)

/-- A thread looks at the cell: it is told a status, or it waits on. -/
def look (s : SharedCell V) (t : Thread) (deadline : Time) : Reply V × SharedCell V :=
  match s.cell.status? with
  | some w => (.status w, { s with stages := s.stages.drop t })
  | none =>
    if deadline ≤ s.now then (.status .timeout, { s with stages := s.stages.drop t })
    else (.quiet, { s with stages := s.stages.put t (.waiting deadline) })

/-- **One move**, if it is possible: a thread calls only when it is in the middle of nothing. -/
def step (s : SharedCell V) : Move V → Option (Reply V × SharedCell V)
  | .claim t o =>
    if (s.stages.get? t).isNone then
      match s.cell.claim with
      | (true, cell) => some (.quiet, { s with cell, stages := s.stages.put t (.publishing o) })
      | (false, _) => some (.resolved false, s)
    else none
  | .publish t =>
    match s.stages.get? t with
    | some (.publishing o) =>
      some (.resolved true, { s with cell := s.cell.publish o, stages := s.stages.drop t })
    | _ => none
  | .interrupt t =>
    if (s.stages.get? t).isNone then some (.quiet, { s with cell := s.cell.interrupt }) else none
  | .wait t limit =>
    if (s.stages.get? t).isNone then some (s.look t (s.now.after limit)) else none
  | .rewait t =>
    match s.stages.get? t with
    | some (.waiting deadline) => some (s.look t deadline)
    | _ => none
  | .error t => if (s.stages.get? t).isNone then some (.error s.cell.error, s) else none
  | .isResolved t =>
    if (s.stages.get? t).isNone then some (.isResolved s.cell.claimed, s) else none
  | .take t =>
    if (s.stages.get? t).isNone then
      let (v, cell) := s.cell.take
      some (.took v, { s with cell })
    else none
  | .pass d => some (.quiet, { s with now := s.now + d })

end SharedCell

end SerialWriter
