import SerialWriter.Proofs.Writer.Linked

/-!
The affairs of a writer: what is left of it when its control, its gates, its journal and the clock
are forgotten, and what can be noted of its moves. Every move is one of a few dozen steps of its
affairs, each with its event, down to the single steps of a task.
-/

namespace SerialWriter

variable {σ V : Type}

/-! ### What is noted -/

/-- **What can be noted of a move of a writer.** -/
inductive Writer.Event (σ V : Type)
  /-- The envelope of a write is made. -/
  | made (t : Thread) (s : Submission σ V) (ticket : Nat)
  /-- The offer of a write succeeds. -/
  | entered (t : Thread) (s : Submission σ V) (ticket : Nat)
  /-- A write counts its submission. -/
  | submitted (t : Thread) (ticket : Nat)
  /-- A write counts its loss. -/
  | dropped (t : Thread)
  /-- A wait is over. -/
  | told (t : Thread) (ticket : Nat) (status : WaitStatus)
  /-- A write takes the value out of the cell. -/
  | collected (t : Thread) (ticket : Nat) (v : Option V)
  /-- The walk over the pending tickets. -/
  | walked (t : Thread) (pending : List Nat)
  /-- A worker dequeues a ticket. -/
  | took (n ticket : Nat)
  /-- The outcome of a ticket is assigned. -/
  | published (ticket : Nat) (o : Outcome V)
  /-- The fault of a log line ends a cycle before its task is counted as executed. -/
  | spoiled (n ticket : Nat) (e : Failure)

namespace Writer

def noteCall (w v : Writer σ V) (t : Thread) : CallOfWriter σ V → Option (Event σ V)
  | .walking _ => some (.walked t w.queue.items)
  | .writing s .creating =>
    if w.envelopes.size < v.envelopes.size then some (.made t s w.envelopes.size) else none
  | .writing s (.offering k) =>
    if w.queue.accepted.length < v.queue.accepted.length then some (.entered t s k) else none
  | .writing _ (.counting k) => some (.submitted t k)
  | .writing _ .losing => some (.dropped t)
  | .writing _ (.waiting k _) => some (.told t k (w.cell k).status)
  | .writing _ (.told k .ready) =>
    if (w.cell k).error.isSome then none else some (.collected t k (w.cell k).value)
  | _ => none

def noteCycle (w v : Writer σ V) (n : Nat) : Option (Event σ V) :=
  match w.cycles.get? (.worker n) with
  | none =>
    match v.cycles.get? (.worker n) with
    | some (.dequeued k) => some (.took n k)
    | _ => none
  | some (.running k (.publishing o _)) => some (.published k o)
  | some (.running k (.left _)) | some (.running k (.verdict _)) =>
    match v.cycles.get? (.worker n), v.control.worker? n with
    | none, some (.failing e) => some (.spoiled n k e)
    | _, _ => none
  | _ => none

/-- **What is noted of a move** from `w` to `v`. -/
def note (w : Writer σ V) (m : Move σ V) (v : Writer σ V) : Option (Event σ V) :=
  match m with
  | .run t =>
    match w.calls.get? t with
    | some (.ended _) | none =>
      match t with
      | .client _ => none
      | .worker n => w.noteCycle v n
    | some a => w.noteCall v t a
  | _ => none

end Writer

/-! ### Stages -/

namespace CallOfWriter

/-- The call is a write that is not over. -/
def isWrite : CallOfWriter σ V → Bool
  | .writing _ _ => true
  | _ => false

lemma isWrite_of_inControl {a : CallOfWriter σ V} (ha : a.inControl = true) :
    a.isWrite = false := by
  unfold inControl at ha
  split at ha
  all_goals first | rfl | cases ha

lemma isWrite_afterStop (b : Bool) (r : Except Failure Unit) :
    (afterStop b r : CallOfWriter σ V).isWrite = false := by
  cases b with
  | false => rfl
  | true =>
    cases r with
    | ok _ => rfl
    | error e => cases e <;> rfl

lemma isWrite_afterControl {a : CallOfWriter σ V} (ha : a.inControl = true)
    (r : Except Failure Unit) : (a.afterControl r).isWrite = false := by
  cases a with
  | starting | releasing => rfl
  | stopping b =>
    cases r with
    | ok _ => rfl
    | error e =>
      cases e with
      | refused r => rfl
      | _ => exact isWrite_afterStop ..
  | _ => cases ha

lemma isWrite_afterWalk (after : AfterWalk) :
    (afterWalk after : CallOfWriter σ V).isWrite = false := by
  cases after with
  | close b => rfl
  | refuse b r => exact isWrite_afterStop ..
  | discard => rfl

lemma isWrite_faultOfWalk (fault : Failure) (after : AfterWalk) :
    (faultOfWalk fault after : CallOfWriter σ V).isWrite = false := by
  cases after with
  | close b => exact isWrite_afterStop ..
  | refuse b r => exact isWrite_afterStop ..
  | discard => rfl

lemma isWrite_walked (pending : Nat) (after : AfterWalk) :
    (walked pending after : CallOfWriter σ V).isWrite = false := by
  unfold walked
  split
  · rfl
  · exact isWrite_afterWalk after

end CallOfWriter

/-! ### The affairs -/

/-- **The affairs of a writer**: its resource, the tickets that wait, came and went, the envelopes,
the calls, the cycles and the books. -/
structure Affairs (σ V : Type) where
  factory : Option (Factory σ)
  resource : σ
  /-- The pending tickets, the oldest first. -/
  pending : List Nat
  /-- The number of pending tickets as anyone may read it. -/
  queued : Nat
  /-- The tickets accepted so far, the latest first. -/
  accepted : List Nat
  /-- The tickets taken so far, the latest first. -/
  removed : List Nat
  envelopes : Array (Envelope σ V)
  calls : Roster (CallOfWriter σ V)
  cycles : Roster (CycleStage σ V)
  submitted : Nat
  dropped : Nat
  executed : Nat
  failed : Nat

def Writer.affairs (w : Writer σ V) : Affairs σ V where
  factory := w.factory
  resource := w.resource
  pending := w.queue.items
  queued := w.queue.size
  accepted := w.queue.accepted
  removed := w.queue.removed
  envelopes := w.envelopes
  calls := w.calls
  cycles := w.cycles
  submitted := w.submitted
  dropped := w.dropped
  executed := w.ledger.executed
  failed := w.ledger.failed

/-- The thread is not in the middle of a write. -/
def Affairs.Free (c : Affairs σ V) (t : Thread) : Prop :=
  ∀ a, c.calls.get? t = some a → a.isWrite = false

/-- **The steps of the affairs**, with what is noted of each. -/
inductive Affairs.Step (c : Affairs σ V) : Option (Writer.Event σ V) → Affairs σ V → Prop
  /-- Nothing of this changes. -/
  | rests : Step c none c
  /-- A call that is no write begins or goes on. -/
  | turns {t : Thread} {a : CallOfWriter σ V} (ht : c.Free t) (ha : a.isWrite = false) :
      Step c none { c with calls := c.calls.put t a }
  /-- A client sees the result of its call. -/
  | quits {t : Thread} {r : Except Failure (Option V)}
      (ht : c.calls.get? t = some (.ended r)) : Step c none { c with calls := c.calls.drop t }
  /-- The walk over the pending tickets. -/
  | walks {t : Thread} {after : AfterWalk} {a : CallOfWriter σ V}
      (ht : c.calls.get? t = some (.walking after)) (ha : a.isWrite = false) :
      Step c (some (.walked t c.pending))
        { c with envelopes := interruptAt c.envelopes c.pending, calls := c.calls.put t a }
  /-- A destruction drops the pending tickets. -/
  | clears {t : Thread} (ht : c.calls.get? t = some .clearing) :
      Step c none { c with pending := [], queued := 0, removed := c.pending.reverse ++ c.removed
                           calls := c.calls.put t .releasing }
  /-- A client begins a write. -/
  | requests {t : Thread} {s : Submission σ V} (ht : c.Free t) :
      Step c none { c with calls := c.calls.put t (.writing s .checking) }
  /-- A write passes the check of the phase. -/
  | admits {t : Thread} {s : Submission σ V} (ht : c.calls.get? t = some (.writing s .checking)) :
      Step c none { c with calls := c.calls.put t (.writing s .creating) }
  /-- A write ends before it has an envelope. -/
  | refuses {t : Thread} {s : Submission σ V} {stage : WriteStage}
      {r : Except Failure (Option V)} (ht : c.calls.get? t = some (.writing s stage))
      (hs : stage = .checking ∨ stage = .creating) :
      Step c none { c with calls := c.calls.put t (.ended r) }
  /-- The envelope of a write is made. -/
  | makes {t : Thread} {s : Submission σ V} {e : Envelope σ V} {i : Nat}
      (ht : c.calls.get? t = some (.writing s .creating))
      (he : Envelope.make s.id s.work (c.factory.map fun f => f i) = .ok e) :
      Step c (some (.made t s c.envelopes.size))
        { c with envelopes := c.envelopes.push e
                 calls := c.calls.put t (.writing s (.offering c.envelopes.size)) }
  | offers {t : Thread} {s : Submission σ V} {k : Nat}
      (ht : c.calls.get? t = some (.writing s (.offering k))) :
      Step c (some (.entered t s k))
        { c with pending := c.pending ++ [k], queued := (c.pending ++ [k]).length
                 accepted := k :: c.accepted, calls := c.calls.put t (.writing s (.notifying k)) }
  /-- An offer fails. -/
  | misses {t : Thread} {s : Submission σ V} {k : Nat}
      (ht : c.calls.get? t = some (.writing s (.offering k))) :
      Step c none { c with calls := c.calls.put t (.writing s .losing) }
  | notifies {t : Thread} {s : Submission σ V} {k : Nat}
      (ht : c.calls.get? t = some (.writing s (.notifying k))) :
      Step c none { c with calls := c.calls.put t (.writing s (.counting k)) }
  /-- A write counts its submission, and waits or ends. -/
  | submits {t : Thread} {s : Submission σ V} {k : Nat} {a : CallOfWriter σ V}
      (ht : c.calls.get? t = some (.writing s (.counting k)))
      (ha : a = .ended (.ok none) ∨ ∃ d, a = .writing s (.waiting k d)) :
      Step c (some (.submitted t k))
        { c with submitted := c.submitted + 1, calls := c.calls.put t a }
  /-- A write counts its loss. -/
  | drops {t : Thread} {s : Submission σ V} {r : Except Failure (Option V)}
      (ht : c.calls.get? t = some (.writing s .losing)) :
      Step c (some (.dropped t))
        { c with dropped := c.dropped + 1, calls := c.calls.put t (.ended r) }
  /-- A wait is over. -/
  | hears {t : Thread} {s : Submission σ V} {k : Nat} {d : Time}
      (ht : c.calls.get? t = some (.writing s (.waiting k d))) :
      Step c (some (.told t k (cellAt c.envelopes k).status))
        { c with calls := c.calls.put t (.writing s (.told k (cellAt c.envelopes k).status)) }
  /-- The value leaves the cell of a write that has waited for it. -/
  | collects {t : Thread} {s : Submission σ V} {k : Nat}
      (ht : c.calls.get? t = some (.writing s (.told k .ready)))
      (he : (cellAt c.envelopes k).error = none) :
      Step c (some (.collected t k (cellAt c.envelopes k).value))
        { c with envelopes := changeCellAt c.envelopes k fun a => a.take.2
                 calls := c.calls.put t (.ended (.ok (cellAt c.envelopes k).value)) }
  /-- A write that has waited ends without a value. -/
  | parts {t : Thread} {s : Submission σ V} {k : Nat} {status : WaitStatus}
      {r : Except Failure (Option V)} (ht : c.calls.get? t = some (.writing s (.told k status)))
      (he : status = .ready → (cellAt c.envelopes k).error.isSome = true) :
      Step c none { c with calls := c.calls.put t (.ended r) }
  /-- A worker takes the oldest ticket. -/
  | takes {n k : Nat} {rest : List Nat} (hy : ∀ m, c.cycles.get? (.worker m) = none)
      (hp : c.pending = k :: rest) :
      Step c (some (.took n k))
        { c with pending := rest, queued := rest.length, removed := k :: c.removed
                 cycles := c.cycles.put (.worker n) (.dequeued k) }
  /-- A cycle ends for want of a ticket. -/
  | idles {n : Nat} (hy : ∀ m, c.cycles.get? (.worker m) = none) :
      Step c none { c with cycles := c.cycles.drop (.worker n) }
  /-- The run of an envelope begins. -/
  | opens {n k : Nat} {e : Envelope σ V} (hy : c.cycles.get? (.worker n) = some (.dequeued k))
      (he : c.envelopes[k]? = some e) :
      Step c none { c with cycles := c.cycles.put (.worker n) (.running k e.body.begin) }
  /-- The run of an envelope goes on. -/
  | body {n k : Nat} {b b' : BodyStage σ V} {e : Envelope σ V} {s : σ} {d : CellChange V}
      (hy : c.cycles.get? (.worker n) = some (.running k b)) (he : c.envelopes[k]? = some e)
      (ht : BodyTurn e b c.resource d b' s) :
      Step c (d.outcome?.map (.published k))
        { c with resource := s, envelopes := changeCellAt c.envelopes k d.change
                 cycles := c.cycles.put (.worker n) (.running k b') }
  /-- A task begins a call. -/
  | bodyCalls {n k : Nat} {p : Program σ V} {back? : Option (Option Failure → Wrapper σ)}
      {g : Except Failure (Option V) → BodyStage σ V} {a : CallOfWriter σ V}
      (hy : c.cycles.get? (.worker n) = some (.running k (.inner p back?)))
      (hp : p.involved = true) (ht : c.Free (.worker n))
      (ha : a.isWrite = false ∨ ∃ s, a = .writing s .checking)
      (hg : ∀ r, ∃ p back?, g r = .inner p back?) :
      Step c none { c with calls := c.calls.put (.worker n) a
                           cycles := c.cycles.put (.worker n) (.running k (.calling g)) }
  /-- A call made by a task has ended. -/
  | bodyReturns {n k : Nat} {r : Except Failure (Option V)}
      {g : Except Failure (Option V) → BodyStage σ V}
      (hy : c.cycles.get? (.worker n) = some (.running k (.calling g)))
      (hr : c.calls.get? (.worker n) = some (.ended r)) :
      Step c none { c with calls := c.calls.drop (.worker n)
                           cycles := c.cycles.put (.worker n) (.running k (g r)) }
  /-- The run of an envelope ends. -/
  | finishes {n k : Nat} {ok : Bool}
      (hy : c.cycles.get? (.worker n) = some (.running k (.verdict ok))) :
      Step c none { c with failed := c.failed + (!ok).toNat
                           cycles := c.cycles.put (.worker n) (.counting k) }
  /-- The fault of a log line ends a cycle before its task is counted as executed. -/
  | spoils {n k : Nat} {b : BodyStage σ V} {e : Failure} {failed : Nat}
      (hy : c.cycles.get? (.worker n) = some (.running k b))
      (hb : (∃ ok, b = .verdict ok) ∨
        (∃ f, b = .left f) ∧ (cellAt c.envelopes k).claimed = true) :
      Step c (some (.spoiled n k e))
        { c with failed := failed, cycles := c.cycles.drop (.worker n) }
  /-- A task is counted as executed. -/
  | counts {n k : Nat} (hy : c.cycles.get? (.worker n) = some (.counting k)) :
      Step c none { c with executed := c.executed + 1
                           cycles := c.cycles.put (.worker n) (.measuring k) }
  /-- A cycle ends after its task has been counted. -/
  | closes {n k : Nat} (hy : c.cycles.get? (.worker n) = some (.measuring k)) :
      Step c none { c with cycles := c.cycles.drop (.worker n) }

end SerialWriter
