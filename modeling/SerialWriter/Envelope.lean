import SerialWriter.Program.Run
import SerialWriter.Journal

/-!
Envelopes: a body, the id it is known by and the cell that its submitter holds. Running an
envelope makes sure that its cell is resolved at the end.
-/

namespace SerialWriter

/-- A submitted task. -/
structure Envelope (σ V : Type) where
  id : String
  body : Body σ V
  cell : Cell V := {}

namespace Envelope

variable {σ V : Type}

/-- **The envelope of a task**, in what the factory puts around it. -/
def make (id : String) (t : Program σ V) (factory : Option (Except Failure (Wrapper σ))) :
    Except Failure (Envelope σ V) :=
  match factory with
  | none => .ok { id, body := .wrapped .plain t }
  | some (.ok w) => .ok { id, body := .wrapped w t }
  | some (.error e) => .error e

/-- What is left to do after the body: the verdict of the run and the cell, or the failure of the
line that reports a failure nobody will see. -/
def conclude (id : String) (escaped : Option Failure) (cell : Cell V) (t : Thread) (j : Journal) :
    Except Failure Bool × Cell V × Journal :=
  match escaped with
  | some e =>
    match cell.resolve (.error (some e)) with
    | (true, cell) => (.ok false, cell, j)
    | (false, cell) =>
      match j.log t (.lateFailure id) with
      | (none, j) => (.ok false, cell, j)
      | (some fault, j) => (.error fault, cell, j)
  | none =>
    if cell.claimed then (.ok true, cell, j)
    else (.ok false, (cell.resolve (.error (some (.noResult id)))).2, j)

/-- **Runs an envelope** on thread `t`: whether its body completed and left a result. -/
def run (e : Envelope σ V) (resource : σ) (t : Thread) (j : Journal) :
    Except Failure Bool × Envelope σ V × σ × Journal :=
  let (escaped, b) := e.body.run { resource, cell := e.cell }
  let (r, cell, j) := conclude e.id escaped b.cell t j
  (r, { e with cell }, b.resource, j)

/-- Releases the submitter. -/
def interrupt (e : Envelope σ V) : Envelope σ V := { e with cell := e.cell.interrupt }

end Envelope

end SerialWriter
