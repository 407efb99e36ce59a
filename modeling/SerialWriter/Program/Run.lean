import SerialWriter.Program.Basic

/-!
Running a body from beginning to end with nothing in between: what becomes of the resource and of
the cell, and the failure that escapes, if one does.
-/

namespace SerialWriter

/-- The resource and the cell that a body works on. -/
structure Bench (σ V : Type) where
  resource : σ
  cell : Cell V := {}

variable {σ V : Type}

/-- **Runs a program** where there is no writer: gates stand open there, a writer is never found in
any phase but the first, and a call of it finds nobody to answer. -/
def Program.run : Program σ V → Bench σ V → Except Failure V × Bench σ V
  | .ret v, b => (.ok v, b)
  | .fail e, b => (.error e, b)
  | .update f next, b => (next b.resource).run { b with resource := f b.resource }
  | .resolve o next, b =>
    let (won, cell) := b.cell.resolve o
    (next won).run { b with cell }
  | .interrupt next, b => next.run { b with cell := b.cell.interrupt }
  | .pass _ next, b => next.run b
  | .phase next, b => (next .new).run b
  | .stats next, b => (next {}).run b
  | .start next, b => (next (.error .noFunction)).run b
  | .stop next, b => (next (.error .noFunction)).run b
  | .write _ _ _ next, b => (next (.error .noFunction)).run b

/-- One run of a task inside a wrapper: its value resolves the cell unless that is done already. -/
def Program.invoke (t : Program σ V) (b : Bench σ V) : Option Failure × Bench σ V :=
  match t.run b with
  | (.ok v, b) => (none, { b with cell := (b.cell.resolve (.value v)).2 })
  | (.error e, b) => (some e, b)

/-- Runs a wrapper around a task. -/
def Wrapper.run (t : Program σ V) : Wrapper σ → Bench σ V → Option Failure × Bench σ V
  | .done, b => (none, b)
  | .fail e, b => (some e, b)
  | .update f next, b => (next b.resource).run t { b with resource := f b.resource }
  | .invoke next, b =>
    let (r, b) := t.invoke b
    (next r).run t b

/-- **Runs a body**: the failure that escapes it, if one does. -/
def Body.run : Body σ V → Bench σ V → Option Failure × Bench σ V
  | .direct t, b =>
    match t.run b with
    | (.ok _, b) => (none, b)
    | (.error e, b) => (some e, b)
  | .wrapped w t, b => w.run t b

end SerialWriter
