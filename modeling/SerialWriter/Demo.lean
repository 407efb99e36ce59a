import SerialWriter.Writer.Scene
import SerialWriter.Session.Schedule

/-!
The demonstration program: four producers submit a hundred tasks each to a writer that guards a
small graph, every task in a transaction, and the main thread waits for one more.
-/

namespace SerialWriter

/-- The graph: it counts its nodes and its transactions. -/
structure Graph where
  nodes : Nat := 0
  transactions : Nat := 0
  deriving DecidableEq, Repr, Inhabited

namespace Graph

/-- What the graph calls itself. -/
def description : String := "in-memory graph"

/-- A node more. -/
def addNode (g : Graph) : Graph := { g with nodes := g.nodes + 1 }

/-- A transaction more. -/
def beginTransaction (g : Graph) : Graph := { g with transactions := g.transactions + 1 }

/-- A transaction around a task. -/
def transaction : Wrapper Graph := .change beginTransaction .plain

/-- Adds a node and gives nothing. -/
def nodeOnly : Program Graph (Option Nat) := .change addNode (.ret none)

/-- Adds a node and gives its number. -/
def newNode : Program Graph (Option Nat) := .update addNode fun g => .ret (some g.nodes)

end Graph

/-! ### The program -/

/-- What the main thread of the demonstration is doing. -/
inductive DemoStage
  /-- About to start the writer. -/
  | opening
  | starting
  /-- The producers are at work. -/
  | producing
  /-- Waiting for the last task. -/
  | waiting
  | stopping
  /-- Destroying the writer, after all went well or with a failure to report. -/
  | leaving (e : Option Failure)
  /-- The program is over. -/
  | exited (code : Nat)
  deriving Repr, Inhabited

/-- The demonstration in progress. -/
structure Demo where
  writer : Writer Graph (Option Nat)
  /-- Whether the system will be able to create the worker. -/
  spawns : Bool := true
  stage : DemoStage := .opening
  /-- How many tasks each producer has submitted. -/
  sent : List Nat := [0, 0, 0, 0]
  output : String := ""
  errors : String := ""

namespace Demo

/-- The settings of the writer. -/
def config : Config := { name := "demo", capacity := 1000 }

/-- How many tasks each producer submits. -/
def share : Nat := 100

/-- How long the main thread waits for the last task, in milliseconds. -/
def patienceForLast : Int := 5000

/-- The demonstration before the writer is started. -/
def opening (spawns : Bool) : Demo :=
  { writer :=
      { config
        target := Graph.description
        factory := some fun _ => .ok Graph.transaction
        resource := {}
        control := { config }
        queue := { queue := { capacity := config.capacity } }
        ledger := Ledger.ofConfig config 0
        journal := (Journal.log {} mainThread
          (.created config.name Graph.description config.capacity)).2 }
    spawns
    output := "\n\n====== dbwriter ======\n" }

/-- Prints. -/
def print (d : Demo) (s : String) : Demo := { d with output := d.output ++ s }

/-- A client makes a call. -/
def request (d : Demo) (k : Nat) (r : WriterRequest Graph (Option Nat)) : Demo :=
  { d with writer := d.writer.request (.client k) r }

/-- The producers have submitted all their tasks and seen the results. -/
def produced (d : Demo) : Bool :=
  d.sent.all (· = share) &&
    (List.range d.sent.length).all fun p => (d.writer.calls.get? (.client (p + 1))).isNone

/-- The task that producer `p` submits after `i` others. -/
def submission (p i : Nat) : Submission Graph (Option Nat) :=
  { work := Graph.nodeOnly
    id := "producer-" ++ toString p ++ "-" ++ toString i
    wait := 0 }

/-- **What an idle client does next**: the main thread is client 0, and producer `p` is client
`p + 1`. -/
def begin? (d : Demo) : Nat → Option Demo
  | 0 =>
    match d.stage with
    | .opening => some ({ d with stage := .starting }.request 0 (.start d.spawns))
    | .producing =>
      if d.produced then
        some ({ d with stage := .waiting }.request 0
          (.write { work := Graph.newNode, id := "last", wait := patienceForLast }))
      else none
    | _ => none
  | p + 1 =>
    match d.stage, d.sent[p]? with
    | .producing, some i =>
      if i < share then some (d.request (p + 1) (.write (submission p i))) else none
    | _, _ => none

/-- The writer is destroyed before anything else is said. -/
def leave (d : Demo) (e : Option Failure) : Demo :=
  { d with stage := .leaving e }.request 0 .destroy

/-- What the main thread prints at the end. -/
def closing (d : Demo) : String :=
  "nodes: " ++ toString d.writer.resource.nodes ++ ", transactions: " ++
    toString d.writer.resource.transactions ++ "\nstats: " ++ d.writer.stats.summary ++
    "\n\n\n====== normal exit ======\n"

/-- **What the main thread does with the result of its call.** -/
def resumeMain (d : Demo) (r : Except Failure (Option (Option Nat))) : Demo :=
  match d.stage, r with
  | .leaving none, _ => { d with stage := .exited 0 }
  | .leaving (some e), _ =>
    { d.print "\n\n====== abnormal exit ======\n" with
      stage := .exited 1
      errors := d.errors ++ "\n\nError:\n" ++ e.what ++ "\n" }
  | _, .error e => d.leave (some e)
  | .starting, .ok _ => { d with stage := .producing }
  | .waiting, .ok v =>
    let d := match v with
      | some (some n) => d.print ("last node id: " ++ toString n ++ "\n")
      | _ => d
    { d with stage := .stopping }.request 0 .stop
  | .stopping, .ok _ => (d.print d.closing).leave none
  | _, .ok _ => d

/-- What a client does with the result of its call. -/
def resume (d : Demo) (k : Nat) (r : Except Failure (Option (Option Nat))) : Demo :=
  match k with
  | 0 => d.resumeMain r
  | p + 1 => { d with sent := d.sent.modify p (· + 1) }

/-- **One step of a thread.** -/
def step (t : Thread) (d : Demo) : Option Demo :=
  match t, d.writer.calls.get? t with
  | .client k, none => d.begin? k
  | .client k, some (.ended r) =>
    some ({ d with writer := { d.writer with calls := d.writer.calls.drop t } }.resume k r)
  | _, _ => (d.writer.run t).map fun writer => { d with writer }

/-- Time passes. -/
def pass (d : Demo) (ns : Nat) : Demo :=
  { d with writer := { d.writer with now := d.writer.now + ns } }

/-! ### Running it -/

/-- The exit code, once the program is over. -/
def exit? (d : Demo) : Option Nat :=
  match d.stage with
  | .exited code => some code
  | _ => none

/-- The threads of the program. -/
def threads (d : Demo) : List Thread :=
  (List.range (d.sent.length + 1)).map .client ++
    (List.range d.writer.control.workers.length).map .worker

/-- One step of any thread. -/
def turn (d : Demo) : Option Demo := firstTurn step d.threads d

/-- Time passes until the first wait runs out. -/
def wait (d : Demo) : Option Demo :=
  (untilFirst? d.writer.now (d.threads.filterMap d.writer.deadline?)).map d.pass

/-- **The demonstration from beginning to end.** -/
def run (spawns : Bool) : Demo := play turn wait (·.exit?.isSome) (opening spawns)

end Demo

end SerialWriter
