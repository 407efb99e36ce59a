import Mathlib.Algebra.BigOperators.Group.Finset.Basic
import SerialWriter.Demo
import SerialWriter.Proofs.Writer.Conservation
import SerialWriter.Proofs.Writer.Pace
import SerialWriter.Proofs.Writer.Resolved

/-!
The script of the demonstration: where its main thread, its producers and its worker may stand, and
what has become of the tasks by then. Every interleaving keeps to it.
-/

namespace SerialWriter

open Finset

/-! ### Tasks of the graph -/

namespace Graph

/-- The graph after `n` tasks. -/
def after (n : Nat) : Graph := { nodes := n, transactions := n }

/-- The task that is accepted after `n` others: the last of all asks for its number. -/
def job (n : Nat) : Program Graph (Option Nat) := if n = 400 then newNode else nodeOnly

def gift (n : Nat) : Option Nat := if n = 400 then some n else none

end Graph

/-- The envelope of ticket `k` runs the task `p` in a transaction. -/
def Carries (es : Array (Envelope Graph (Option Nat))) (k : Nat)
    (p : Program Graph (Option Nat)) : Prop :=
  ∃ e, es[k]? = some e ∧ e.body = .wrapped Graph.transaction p

/-! ### Stages -/

/-- The offer of the write has succeeded. -/
def WriteStage.entered : WriteStage → Bool
  | .notifying _ | .counting _ | .waiting _ _ | .told _ _ => true
  | .checking | .creating | .offering _ | .losing => false

/-- A write that neither waits nor is turned away. -/
def WriteStage.brief : WriteStage → Bool
  | .checking | .creating | .offering _ | .notifying _ | .counting _ => true
  | .losing | .waiting _ _ | .told _ _ => false

/-- A write that is not turned away, and is told the outcome of its task if it waits. -/
def WriteStage.smooth : WriteStage → Bool
  | .losing | .told _ .timeout | .told _ .interrupted => false
  | _ => true

/-- How many tasks a call has entered into the queue. -/
def enteredBy : Option (CallOfWriter Graph (Option Nat)) → Nat
  | some (.writing _ stage) => stage.entered.toNat
  | some (.ended _) => 1
  | _ => 0

/-- The producers have done their work. -/
def DemoStage.late : DemoStage → Bool
  | .opening | .starting | .producing => false
  | .waiting | .stopping | .leaving _ | .exited _ => true

/-- What has been printed when the main thread gets here. -/
def DemoStage.printed : DemoStage → String
  | .opening | .starting | .producing | .waiting => "\n\n====== dbwriter ======\n"
  | _ => "\n\n====== dbwriter ======\nlast node id: 400\n"

/-- How many tasks the main thread has entered into the queue, if this is its call. -/
def DemoStage.credit : DemoStage → Option (CallOfWriter Graph (Option Nat)) → Nat
  | .opening, _ | .starting, _ | .producing, _ => 0
  | .waiting, a? => enteredBy a?
  | .stopping, _ | .leaving _, _ | .exited _, _ => 1

/-- The main thread has been told the outcome of the last task, if this is its call. -/
def DemoStage.told : DemoStage → Option (CallOfWriter Graph (Option Nat)) → Bool
  | .waiting, some (.ended _) => true
  | .stopping, _ => true
  | _, _ => false

/-- **Where the worker may stand** while the control is in this phase. -/
inductive WorkerStage.Suits : Phase → WorkerStage → Prop
  | created : Suits .starting .created
  | looking {p : Phase} (hp : p = .running ∨ p = .stopping) : Suits p .looking
  | entering {p : Phase} (hp : p = .running ∨ p = .stopping) : Suits p (.entering false)
  | cycling {p : Phase} (hp : p = .running ∨ p = .stopping) : Suits p (.cycling false)
  | lastEntering : Suits .stopping (.entering true)
  | lastCycling : Suits .stopping (.cycling true)
  | retiring : Suits .stopping .retiring
  | leaving : Suits .terminated .leaving
  | finished : Suits .terminated .finished

namespace Demo

/-! ### Moves -/

/-- What can happen next. -/
inductive Move
  | go (t : Thread)
  /-- A waiting thread wakes up for no reason. -/
  | stir (t : Thread)
  /-- Time passes. -/
  | pass (ns : Nat)

def next (d : Demo) : Move → Option Demo
  | .go t => d.step t
  | .stir t => (d.writer.step (.stir t)).map fun writer => { d with writer }
  | .pass ns => some (d.pass ns)

/-- How long the threads of the program wait, in milliseconds: the main thread in a start, in a stop
and for the last task, and the worker for a task. -/
def waits : List Int :=
  [config.startupLimit, config.shutdownLimit, patienceForLast, config.idleDelay]

/-- **No wait runs out**: neither that for the last task nor that of a start or a stop. -/
structure InTime (d : Demo) : Prop where
  /-- No wait of a call has run out. -/
  waiting : ∀ t b, d.writer.callDeadline? t = some b → d.writer.now < b
  /-- None that begins now runs out at once, as it would at the end of what the clock can count. -/
  ahead : ∀ ms ∈ waits, d.writer.now < d.writer.now.after ms

/-! ### The main thread -/

/-- What the main thread is in the middle of. -/
@[ext]
structure View where
  stage : DemoStage
  call : Option (CallOfWriter Graph (Option Nat))
  control : Option CallStage
  phase : Phase
  holder : Option Thread

def view (d : Demo) : View where
  stage := d.stage
  call := d.writer.calls.get? (.client 0)
  control := d.writer.control.calls.get? (.client 0)
  phase := d.writer.control.phase
  holder := d.writer.control.holder

/-- The worker of the writer's one life. -/
inductive Staff
  | unborn
  | alive
  | buried

/-- What the control knows of its worker. -/
def Staff.Of (c : Control) : Staff → Prop
  | .unborn => c.joinable = none ∧ c.workers = []
  | .alive => c.joinable = some 0 ∧ ∃ s, c.workers = [s] ∧ s.Suits c.phase
  | .buried => c.joinable = none ∧ c.workers = [.finished]

/-- The task that the main thread waits for. -/
def lastTask : Submission Graph (Option Nat) :=
  { work := Graph.newNode, id := "last", wait := patienceForLast }

/-- **The part of the main thread** up to the end of the stop: it starts the writer, waits for the
last task and stops the writer, and nothing fails. -/
inductive Plot : View → Staff → Prop
  | opening : Plot ⟨.opening, none, none, .new, none⟩ .unborn
  | enters : Plot ⟨.starting, some .starting, some (.start true .entering), .new, none⟩ .unborn
  | launches :
      Plot ⟨.starting, some .starting, some (.start true .launching), .new, some (.client 0)⟩
        .unborn
  | spawns :
      Plot ⟨.starting, some .starting, some (.start true .spawning), .starting, some (.client 0)⟩
        .unborn
  | hatches {b : Time} {told : Bool} :
      Plot ⟨.starting, some .starting, some (.start true (.waiting b told)), .starting, none⟩ .alive
  | starts {b : Time} :
      Plot ⟨.starting, some .starting, some (.start true (.waiting b true)), .running, none⟩ .alive
  | started : Plot ⟨.starting, some .starting, some (.ended (.ok ())), .running, none⟩ .alive
  | sees : Plot ⟨.starting, some (.ended (.ok none)), none, .running, none⟩ .alive
  | produces : Plot ⟨.producing, none, none, .running, none⟩ .alive
  | writes {stage : WriteStage} (hs : stage.smooth = true) :
      Plot ⟨.waiting, some (.writing lastTask stage), none, .running, none⟩ .alive
  | wrote : Plot ⟨.waiting, some (.ended (.ok (some (some 400)))), none, .running, none⟩ .alive
  | stops :
      Plot ⟨.stopping, some (.stopping false), some (.stop false .entering), .running, none⟩ .alive
  | wakes :
      Plot ⟨.stopping, some (.stopping false), some (.stop false .waking), .stopping,
        some (.client 0)⟩ .alive
  | awaits {b : Time} {told : Bool} :
      Plot ⟨.stopping, some (.stopping false), some (.stop false (.waiting b told)), .stopping,
        none⟩ .alive
  | hears {b : Time} :
      Plot ⟨.stopping, some (.stopping false), some (.stop false (.waiting b true)), .terminated,
        none⟩ .alive
  | collects :
      Plot ⟨.stopping, some (.stopping false), some (.stop false .collecting), .terminated,
        some (.client 0)⟩ .alive
  | stopped :
      Plot ⟨.stopping, some (.stopping false), some (.ended (.ok ())), .terminated, none⟩ .buried
  | walks : Plot ⟨.stopping, some (.walking (.close false)), none, .terminated, none⟩ .buried
  | closes : Plot ⟨.stopping, some (.closing false), none, .terminated, none⟩ .buried
  | closed : Plot ⟨.stopping, some (.ended (.ok none)), none, .terminated, none⟩ .buried

/-! ### The producers -/

/-- **The part of a producer**, or of nobody. -/
inductive Producer (d : Demo) (p : Nat) : Prop
  | absent (hi : d.sent[p]? = none) (ha : d.writer.calls.get? (.client (p + 1)) = none)
  | idle {i : Nat} (hi : d.sent[p]? = some i) (hle : i ≤ share)
      (hd : d.stage.late = true → i = share)
      (ha : d.writer.calls.get? (.client (p + 1)) = none)
  | writes {i : Nat} {stage : WriteStage} (hs : d.stage = .producing)
      (hi : d.sent[p]? = some i) (hlt : i < share)
      (ha : d.writer.calls.get? (.client (p + 1)) = some (.writing (submission p i) stage))
      (hb : stage.brief = true)
  | wrote {i : Nat} (hs : d.stage = .producing) (hi : d.sent[p]? = some i) (hlt : i < share)
      (ha : d.writer.calls.get? (.client (p + 1)) = some (.ended (.ok none)))

/-! ### The worker -/

/-- **What the worker does with ticket `k`**, the task in which comes after `n` others: where it
stands, what has become of the graph, and how many tasks are counted as executed. -/
inductive TaskProgress (a : Cell (Option Nat)) (n k : Nat) :
    CycleStage Graph (Option Nat) → Graph → Nat → Prop
  | dequeued : TaskProgress a n k (.dequeued k) (.after n) n
  | opens (hc : a.claimed = false) :
      TaskProgress a n k (.running k (.outer Graph.transaction)) (.after n) n
  | invokes (hc : a.claimed = false) :
      TaskProgress a n k (.running k (.outer .plain)) (Graph.after n).beginTransaction n
  | works {f : Option Failure → Wrapper Graph} (hc : a.claimed = false) (hf : f none = .done) :
      TaskProgress a n k (.running k (.inner (Graph.job n) (some f)))
        (Graph.after n).beginTransaction n
  | gives {f : Option Failure → Wrapper Graph} (hc : a.claimed = false) (hf : f none = .done) :
      TaskProgress a n k (.running k (.inner (.ret (Graph.gift n)) (some f))) (.after (n + 1)) n
  | publishes (hc : a.claimed = true) :
      TaskProgress a n k (.running k (.publishing (.value (Graph.gift n)) (.outer .done)))
        (.after (n + 1)) n
  | returns (hc : a.claimed = true) :
      TaskProgress a n k (.running k (.outer .done)) (.after (n + 1)) n
  | leaves (hc : a.claimed = true) : TaskProgress a n k (.running k (.left none)) (.after (n + 1)) n
  | succeeds : TaskProgress a n k (.running k (.verdict true)) (.after (n + 1)) n
  | counts : TaskProgress a n k (.counting k) (.after (n + 1)) n
  | measures : TaskProgress a n k (.measuring k) (.after (n + 1)) (n + 1)

/-- **The worker's part**: it runs the tasks one after another, each in a transaction. -/
inductive WorkerPart (w : Writer Graph (Option Nat)) : Prop
  | rests (hy : w.cycles.get? (.worker 0) = none)
      (hr : w.resource = .after w.queue.removed.length)
      (he : w.ledger.executed = w.queue.removed.length)
  | inHand {y : CycleStage Graph (Option Nat)} {k : Nat} {l : List Nat}
      (hy : w.cycles.get? (.worker 0) = some y) (hl : w.queue.removed = k :: l)
      (h : TaskProgress (w.cell k) l.length k y w.resource w.ledger.executed)

/-! ### The tasks -/

/-- How many tasks the main thread has entered into the queue. -/
def mainCredit (d : Demo) : Nat := d.stage.credit (d.writer.calls.get? (.client 0))

def creditOf (d : Demo) (p : Nat) : Nat :=
  (d.sent[p]?).getD 0 + enteredBy (d.writer.calls.get? (.client (p + 1)))

def credit (d : Demo) : Nat := ∑ p ∈ range 4, d.creditOf p + d.mainCredit

def told (d : Demo) : Bool := d.stage.told (d.writer.calls.get? (.client 0))

/-- **What has become of the tasks.** -/
structure Work (d : Demo) : Prop where
  count : d.writer.queue.accepted.length = d.credit
  offered : ∀ t s k, d.writer.calls.get? t = some (.writing s (.offering k)) →
    Carries d.writer.envelopes k s.work
  tickets : ∀ n k, d.writer.queue.accepted.reverse[n]? = some k →
    Carries d.writer.envelopes k (Graph.job n)
  /-- Nobody who waits is released for nothing, and no task has failed. -/
  calm : d.told = false → ∀ k, (d.writer.cell k).interrupted = false ∧
    (d.writer.cell k).error = none
  shows : d.told = false → ∀ n k, d.writer.queue.accepted.reverse[n]? = some k →
    (d.writer.cell k).ready = true → (d.writer.cell k).value = some (Graph.gift n)
  /-- The task of the main thread is the last. -/
  last : ∀ s stage k, d.writer.calls.get? (.client 0) = some (.writing s stage) →
    stage.entered = true → stage.ticket? = some k →
    d.writer.queue.accepted.reverse[400]? = some k
  ready : ∀ s k, d.writer.calls.get? (.client 0) = some (.writing s (.told k .ready)) →
    (d.writer.cell k).ready = true
  done : d.told = true → d.writer.queue.removed.length = 401
  worker : WorkerPart d.writer

/-! ### The whole -/

/-- The settings of the writer, and the counters that stay at zero. -/
structure Settings (w : Writer Graph (Option Nat)) : Prop where
  config : w.config = Demo.config
  control : w.control.config = Demo.config
  factory : w.factory = some fun _ => .ok Graph.transaction
  queue : w.queue.OfCapacity 1000
  dropped : w.dropped = 0
  timedOut : w.timedOut = 0
  failed : w.ledger.failed = 0

/-- What every writer keeps until it is destroyed. -/
structure Kept (w : Writer Graph (Option Nat)) : Prop extends Writer.Poised 0 w where
  ordered : w.course.Ordered
  stored : w.affairs.Stored
  entered : w.affairs.Entered
  decided : w.affairs.Decided

/-- **The script** up to the end of the stop. -/
structure Script (d : Demo) : Prop where
  kept : Kept d.writer
  settings : Settings d.writer
  main : ∃ k, Plot d.view k ∧ k.Of d.writer.control
  producers : ∀ p, Producer d p
  spawns : d.spawns = true
  four : d.sent.length = 4
  output : d.output = d.stage.printed
  errors : d.errors = ""
  inTime : d.InTime
  work : Work d
  /-- A worker that waits for a task is about to be told of one. -/
  alert : ∀ b, d.writer.queue.stages.get? (.worker 0) = some (.waiting b false) →
    d.writer.queue.items = [] ∨
      ∃ t s k, d.writer.calls.get? t = some (.writing s (.notifying k))
  /-- Once the stop has woken the worker, the worker does not wait. -/
  heard : d.writer.phase = .stopping → d.writer.control.waking (.client 0) = false →
    d.writer.Heard

end Demo

end SerialWriter
