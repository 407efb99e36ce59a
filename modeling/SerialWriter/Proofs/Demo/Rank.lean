import SerialWriter.Proofs.Demo.Tasks

/-!
How much a demonstration has before it: a number that every step of every thread makes smaller, as
long as no time passes and nobody wakes up for no reason.
-/

namespace SerialWriter

open Finset

/-- What a write has before it. -/
def WriteStage.due : WriteStage → Nat
  | .checking => 38
  | .creating => 37
  | .offering _ => 36
  -- an offer makes work for the worker
  | .notifying _ => 15
  | .counting _ => 5
  | .waiting _ _ => 4
  | .told _ _ => 3
  | .losing => 2

/-- What a call has before it in the control; `rung` tells whether it has raised the flag. -/
def CallStage.due (rung : Bool) : CallStage → Nat
  | .start _ .entering => 40
  | .start _ .launching => 39
  | .start _ .spawning => 38
  | .stop _ .entering => 45
  | .stop _ .burying => 0
  | .stop _ .waking => if rung then 30 else 40
  | .start _ (.waiting _ told) | .stop _ (.waiting _ told) => 10 + told.toNat
  | .stop _ .collecting => 9
  | .destroy .looking => 8
  | .destroy .locking => 7
  | .destroy (.reporting _) | .destroy .joining => 6
  | .ended _ => 5

/-- What a call of the writer has before it; `inside` is what it has before it in the control. -/
def CallOfWriter.due (inside : Nat) : CallOfWriter Graph (Option Nat) → Nat
  | .starting | .stopping _ => 50 + inside
  | .writing _ stage => stage.due
  | .destroying => 40
  | .walking _ => 30
  | .reporting _ _ => 29
  | .closing _ => 28
  | .complaining _ => 27
  | .clearing => 25
  | .releasing => 10 + inside
  | .ended _ => 1

/-- What the main thread has before it, apart from its call. -/
def DemoStage.due : DemoStage → Nat
  | .opening => 600
  | .starting => 500
  | .producing => 400
  | .waiting => 300
  | .stopping => 100
  | .leaving _ => 1
  | .exited _ => 0

def CycleStage.due : CycleStage Graph (Option Nat) → Nat
  | .dequeued _ => 19
  | .running _ (.outer (.update _ _)) => 18
  | .running _ (.outer (.invoke _)) => 17
  | .running _ (.inner (.update _ _) _) => 16
  | .running _ (.inner _ _) => 15
  | .running _ (.publishing _ _) => 14
  | .running _ (.outer _) => 13
  | .running _ (.left _) => 12
  | .running _ (.verdict _) => 11
  | .running _ (.calling _) => 0
  | .counting _ => 10
  | .measuring _ => 9

/-- What a worker has before it; `inside` is what it has before it in a cycle. -/
def WorkerStage.due (inside : Nat) : WorkerStage → Nat
  | .created => 10
  | .looking => 7
  | .entering _ => 6
  | .cycling _ => inside
  | .retiring => 4
  | .leaving => 1
  | .failing _ | .reporting _ | .finished | .aborted => 0

namespace Demo

variable {d v : Demo} {p : Nat}

/-- What the worker has before it in its cycle: nothing if it waits. -/
def cycleDue (w : Writer Graph (Option Nat)) : Nat :=
  match w.cycles.get? (.worker 0) with
  | some y => y.due
  | none =>
    match w.queue.stages.get? (.worker 0) with
    | some (.waiting b told) => if told = true ∨ b ≤ w.now then 8 else 0
    | _ => 5

def workerDue (w : Writer Graph (Option Nat)) : Nat :=
  match w.control.workers with
  | s :: _ => s.due (cycleDue w)
  | [] => 0

/-- What the worker and the queue have before them. -/
def load (w : Writer Graph (Option Nat)) : Nat :=
  workerDue w + 20 * w.queue.items.length + 5 * w.queue.queue.awake.toNat

/-- The main thread has raised the flag. -/
def rung (w : Writer Graph (Option Nat)) : Bool :=
  match w.queue.stages.get? (.client 0) with
  | some (.notifying _) => true
  | _ => false

def controlDue (w : Writer Graph (Option Nat)) : Nat :=
  (w.control.calls.get? (.client 0)).elim 0 (·.due (rung w))

def mainDue (d : Demo) : Nat :=
  d.stage.due + (d.writer.calls.get? (.client 0)).elim 0 (·.due (controlDue d.writer))

def dueOf (d : Demo) (p : Nat) : Nat :=
  match d.writer.calls.get? (.client (p + 1)) with
  | none => 40 * (share - (d.sent[p]?).getD share)
  | some a => 40 * (share - 1 - (d.sent[p]?).getD share) + a.due 0

/-- **How much the demonstration has before it.** -/
def rank (d : Demo) : Nat := d.mainDue + ∑ p ∈ range 4, d.dueOf p + load d.writer

lemma rank_lt_of_producer (hp : p < 4) (hs : v.stage = d.stage)
    (hi : ∀ q, q ≠ p → v.sent[q]? = d.sent[q]?)
    (hc : ∀ t, t ≠ .client (p + 1) → v.writer.calls.get? t = d.writer.calls.get? t)
    (hin : controlDue v.writer = controlDue d.writer)
    (hlt : v.dueOf p + load v.writer < d.dueOf p + load d.writer) : v.rank < d.rank := by
  have hsum := sum_range_change (f := d.dueOf) (g := v.dueOf) hp fun q hq => by
    rw [dueOf, dueOf, hi q hq, hc _ (by simpa using hq)]
  have hmain : v.mainDue = d.mainDue := by rw [mainDue, mainDue, hs, hc _ (by simp), hin]
  rw [rank, rank, hmain]
  omega

lemma rank_lt (hi : v.sent = d.sent)
    (hc : ∀ p, v.writer.calls.get? (.client (p + 1)) = d.writer.calls.get? (.client (p + 1)))
    (hlt : v.mainDue + load v.writer < d.mainDue + load d.writer) : v.rank < d.rank := by
  have hsum : ∑ p ∈ range 4, v.dueOf p = ∑ p ∈ range 4, d.dueOf p :=
    sum_congr rfl fun p _ => by rw [dueOf, dueOf, hi, hc]
  rw [rank, rank, hsum]
  omega

end Demo

end SerialWriter
