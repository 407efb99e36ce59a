import SerialWriter.Envelope
import SerialWriter.Session.Cell

/-!
A session with one envelope, which its main thread runs itself. The resource is a list of
records, the latest first.
-/

namespace SerialWriter

/-- How an envelope comes about. -/
inductive EnvelopeSource (σ V : Type)
  /-- From a task, by way of the factory. -/
  | task (t : Program σ V) (factory : Option (Except Failure (Wrapper σ)))
  /-- From a body that resolves its cell itself. -/
  | body (t : Program σ V)

/-- The envelope of that source. -/
def EnvelopeSource.make {σ V : Type} (id : String) :
    EnvelopeSource σ V → Except Failure (Envelope σ V)
  | .task t factory => Envelope.make id t factory
  | .body t => .ok { id, body := .direct t }

/-- A step of a session. -/
inductive EnvelopeStep (V : Type)
  | run
  | interrupt
  | id
  | isResolved
  | cell (s : CellStep V)

/-- What a step gives. -/
inductive EnvelopeReply (V : Type)
  | ok
  | skipped
  | truth (b : Bool)
  | failed (e : Failure)
  | id (s : String)
  | cell (r : CellReply V)

/-- What can be seen after a step: the result, what was recorded and what was logged. -/
structure EnvelopeReport (ρ V : Type) where
  reply : EnvelopeReply V
  records : List ρ
  log : List Notice

namespace EnvelopeSession

variable {ρ V : Type}

/-- **One step with an envelope.** -/
def perform (e : Envelope (List ρ) V) (records : List ρ) (j : Journal) :
    EnvelopeStep V → EnvelopeReply V × Envelope (List ρ) V × List ρ × Journal
  | .run =>
    match e.run records mainThread j with
    | (.ok b, e, records, j) => (.truth b, e, records, j)
    | (.error f, e, records, j) => (.failed f, e, records, j)
  | .interrupt => (.ok, e.interrupt, records, j)
  | .id => (.id e.id, e, records, j)
  | .isResolved => (.truth e.cell.claimed, e, records, j)
  | .cell step =>
    let (r, cell) := CellSession.atCell e.cell step
    (.cell r, { e with cell }, records, j)

/-- **A whole session**: how the envelope was made, and what each step gave. -/
def run (id : String) (source : EnvelopeSource (List ρ) V) (steps : List (EnvelopeStep V)) :
    Option Failure × List (EnvelopeReport ρ V) :=
  match source.make id with
  | .error e => (some e, steps.map fun _ => { reply := .skipped, records := [], log := [] })
  | .ok e => (none, go e [] {} steps)
where
  /-- The reports of the steps that are left. -/
  go (e : Envelope (List ρ) V) (records : List ρ) (j : Journal) :
      List (EnvelopeStep V) → List (EnvelopeReport ρ V)
    | [] => []
    | step :: rest =>
      let (reply, e, after, j') := perform e records j step
      { reply
        records := gainedSince after records.length
        log := (j'.since j.length).map (·.2) } :: go e after j' rest

end EnvelopeSession

end SerialWriter
