import SerialWriter.Thread

/-!
Playing a machine whose threads take turns: a turn is one step of some thread, and time passes
only when no thread can go on and someone is willing to wait.
-/

namespace SerialWriter

/-- How many turns a machine is given before it is taken to run for ever. -/
def patience : Nat := 1000000000

variable {S : Type}

/-- Turns until no thread can go on. -/
def settleWithin (turn : S → Option S) : Nat → S → S
  | 0, s => s
  | n + 1, s =>
    match turn s with
    | some s => settleWithin turn n s
    | none => s

/-- **Turns until the scene is at rest**, that is until no thread can go on. -/
def settle (turn : S → Option S) (s : S) : S := settleWithin turn patience s

/-- Turns until `done`; when no thread can go on, `wait` lets time pass, if it can. -/
def playWithin (turn wait : S → Option S) (done : S → Bool) : Nat → S → S
  | 0, s => s
  | n + 1, s =>
    if done s then s
    else
      match turn s with
      | some s => playWithin turn wait done n s
      | none =>
        match wait s with
        | some s => playWithin turn wait done n s
        | none => s

/-- **Turns until `done`**, waiting where nothing else is left to do. -/
def play (turn wait : S → Option S) (done : S → Bool) (s : S) : S :=
  playWithin turn wait done patience s

/-- The first of the threads that can go on does so. -/
def firstTurn (step : Thread → S → Option S) (threads : List Thread) (s : S) : Option S :=
  threads.findSome? fun t => step t s

/-- When a session begins: the clock has been running since the machine was started. -/
def sessionStart : Time := 1000000000

/-- How long it takes from `now` to the first of the moments ahead. -/
def untilFirst? (now : Time) (moments : List Time) : Option Nat :=
  (moments.filter fun d => decide (now < d)).min?.map fun d => (d - now).toNat

/-- What a list that grows at its head has gained since it had `n` entries, the earliest first. -/
def gainedSince {α : Type} (l : List α) (n : Nat) : List α := (l.take (l.length - n)).reverse

/-! ### Threads -/

/-- The thread that makes the calls of a session. -/
def mainThread : Thread := .client 0

/-- The thread is a worker. -/
def Thread.isWorker : Thread → Bool
  | .worker _ => true
  | .client _ => false

end SerialWriter
