import SerialWriter.Cell.Basic
import SerialWriter.Stats

/-!
The programs of tasks and the bodies that are built around them. A program changes the resource
that the writer guards, may resolve its own cell, may call the writer, and ends with a value or a
failure. A wrapper is what a task factory puts around a program.
-/

namespace SerialWriter

/-- **The program of a task** over a resource `σ` that ends with a `V`. What follows a step may
depend on what the step gave. -/
inductive Program (σ V : Type) : Type
  | ret (v : V)
  | fail (e : Failure)
  /-- Changes the resource; the rest is told what it was before. -/
  | update (f : σ → σ) (next : σ → Program σ V)
  /-- Resolves the task's own cell; the rest is told whether that worked. -/
  | resolve (o : Outcome V) (next : Bool → Program σ V)
  /-- Interrupts those who wait for the task. -/
  | interrupt (next : Program σ V)
  /-- Waits until the gate is open. -/
  | pass (gate : String) (next : Program σ V)
  /-- Asks for the phase of the writer. -/
  | phase (next : Phase → Program σ V)
  /-- Asks for the counters of the writer. -/
  | stats (next : Stats → Program σ V)
  /-- Starts the writer. -/
  | start (next : Except Failure Unit → Program σ V)
  /-- Stops the writer. -/
  | stop (next : Except Failure Unit → Program σ V)
  /-- Submits a task to the writer and waits for it if `wait` is positive. -/
  | write (work : Program σ V) (id : String) (wait : Int)
      (next : Except Failure (Option V) → Program σ V)

/-- **What a task factory puts around a task**: it may run the task any number of times, is told
how each run ended, and may change the resource and fail in between. -/
inductive Wrapper (σ : Type) : Type
  | done
  | fail (e : Failure)
  /-- Changes the resource; the rest is told what it was before. -/
  | update (f : σ → σ) (next : σ → Wrapper σ)
  /-- Runs the task; the rest is told its failure, if it failed. -/
  | invoke (next : Option Failure → Wrapper σ)

/-- What the worker executes for one envelope. -/
inductive Body (σ V : Type) : Type
  /-- A program that resolves its cell itself; its own result is of no interest. -/
  | direct (t : Program σ V)
  /-- A task whose value resolves the cell, inside a wrapper. -/
  | wrapped (w : Wrapper σ) (t : Program σ V)

/-- The task inside a body. -/
def Body.task {σ V : Type} : Body σ V → Program σ V
  | .direct t => t
  | .wrapped _ t => t

/-- A factory is called once for each envelope and may fail instead of building a wrapper. It is
told how often it was called before. -/
abbrev Factory (σ : Type) := Nat → Except Failure (Wrapper σ)

namespace Wrapper

variable {σ : Type}

/-- Runs the task and nothing else. -/
def plain : Wrapper σ := .invoke fun
  | none => .done
  | some e => .fail e

/-- Goes on with `next` unless the task fails. -/
def invokeThen (next : Wrapper σ) : Wrapper σ := .invoke fun
  | none => next
  | some e => .fail e

/-- Changes the resource and goes on. -/
def change (f : σ → σ) (next : Wrapper σ) : Wrapper σ := .update f fun _ => next

end Wrapper

namespace Program

variable {σ V : Type}

/-- Changes the resource and goes on. -/
def change (f : σ → σ) (next : Program σ V) : Program σ V := .update f fun _ => next

end Program

end SerialWriter
