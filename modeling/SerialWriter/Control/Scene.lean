import SerialWriter.Control.Call
import SerialWriter.Control.Worker

/-!
A control and everything that can happen to it, when nothing is known of the cycles but that they
end some way or never.
-/

namespace SerialWriter

/-- A control with its journal and its clock. -/
structure ControlScene where
  control : Control
  journal : Journal := {}
  now : Time := 0
  /-- How often the worker has been woken. -/
  wakes : Nat := 0

namespace ControlScene

/-- What can happen next. -/
inductive Move
  | start (t : Thread) (spawns : Bool)
  | stop (t : Thread)
  | destroy (t : Thread)
  /-- The thread goes on with its call. -/
  | call (t : Thread)
  /-- The thread sees the result of its call. -/
  | acknowledge (t : Thread)
  /-- The worker goes on outside its cycles. -/
  | work (n : Nat)
  /-- A cycle ends. -/
  | endCycle (n : Nat) (escaped : Option Failure)
  /-- A waiting thread wakes up for no reason. -/
  | stir (t : Thread)
  /-- The journal is armed. -/
  | arm (needle : String)
  /-- Time passes. -/
  | pass (d : Nat)

/-- The thread exists and can make a call: a client at any time, a worker inside a cycle. -/
def mayCall (c : Control) (t : Thread) : Bool :=
  (c.calls.get? t).isNone &&
    match t with
    | .client _ => true
    | .worker n => (c.budget? n).isSome

/-- **One move**, if it is possible. -/
def step (s : ControlScene) : Move → Option ControlScene
  | .start t spawns =>
    if mayCall s.control t then some { s with control := s.control.beginStart t spawns } else none
  | .stop t =>
    if mayCall s.control t then some { s with control := s.control.beginStop t } else none
  | .destroy t =>
    if mayCall s.control t then some { s with control := s.control.beginDestroy t } else none
  | .call t =>
    if s.control.waking t then
      some { s with control := s.control.woken t s.now, wakes := s.wakes + 1 }
    else
      (s.control.stepCall t s.now s.journal).map fun (control, journal) =>
        { s with control, journal }
  | .acknowledge t =>
    if (s.control.result? t).isSome then some { s with control := s.control.acknowledge t }
    else none
  | .work n =>
    (s.control.stepWorker n s.journal).map fun (control, journal) => { s with control, journal }
  | .endCycle n escaped =>
    if (s.control.budget? n).isSome ∧ (s.control.calls.get? (.worker n)).isNone then
      some { s with control := s.control.endCycle n escaped }
    else none
  | .stir t =>
    match s.control.calls.get? t with
    | some c => some { s with control := s.control.setCall t c.roused }
    | none => none
  | .arm needle => some { s with journal := s.journal.arm needle }
  | .pass d => some { s with now := s.now + d }

/-- The scenes that can come about. -/
inductive Reachable (config : Config) : ControlScene → Prop
  | init : Reachable config { control := { config } }
  | step {s s' : ControlScene} (m : Move) (h : Reachable config s) (hs : s.step m = some s') :
    Reachable config s'

end ControlScene

end SerialWriter
