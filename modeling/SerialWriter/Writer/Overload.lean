import SerialWriter.Writer.Basic

/-!
The ways to submit a task. All of them lead to the one that takes a task with a result, an id and a
wait.
-/

namespace SerialWriter

variable {σ V : Type}

/-- **The program ends with `unit`** wherever it would have ended with a value. -/
def Program.giving (unit : V) : Program σ V → Program σ V
  | .ret _ => .ret unit
  | .fail e => .fail e
  | .update f next => .update f fun s => (next s).giving unit
  | .resolve o next => .resolve o fun won => (next won).giving unit
  | .interrupt next => .interrupt (next.giving unit)
  | .pass gate next => .pass gate (next.giving unit)
  | .phase next => .phase fun p => (next p).giving unit
  | .stats next => .stats fun s => (next s).giving unit
  | .start next => .start fun r => (next r).giving unit
  | .stop next => .stop fun r => (next r).giving unit
  | .write work id wait next => .write work id wait fun r => (next r).giving unit

/-- **How a task is handed over**. A task without a result is written down as one whose value is of
no interest. -/
inductive Overload (σ V : Type)
  | typed (work : Program σ V) (id : String) (wait : Int)
  /-- The task has no result, but its submitter may wait for its end. -/
  | void (work : Program σ V) (id : String) (wait : Int)
  /-- Nobody waits for the task. -/
  | named (work : Program σ V) (id : String)
  /-- Nobody waits for the task, and nobody will recognize it. -/
  | plain (work : Program σ V)

namespace Submission

/-- A task without a result gives `unit` to those who wait for it. -/
def void (unit : V) (work : Program σ V) (id : String) (wait : Int) : Submission σ V :=
  { work := work.giving unit, id, wait }

/-- A task nobody waits for. -/
def named (unit : V) (work : Program σ V) (id : String) : Submission σ V := void unit work id 0

end Submission

namespace Overload

/-- What is submitted. -/
def submission (unit : V) : Overload σ V → Submission σ V
  | typed work id wait => { work, id, wait }
  | void work id wait => .void unit work id wait
  | named work id => .named unit work id
  | plain work => .named unit work unknownId

end Overload

end SerialWriter
