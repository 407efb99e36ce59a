import SerialWriter.Proofs.Control.Turn
import SerialWriter.Proofs.Queue.Log
import SerialWriter.Proofs.Queue.Signals
import SerialWriter.Proofs.Writer.Stages

/-!
Every move of a writer, by what it does: what a thread finds inside the control, at each stage of a
call, in the body of an envelope and in a cycle, and what it leaves behind. Whatever holds of all
moves is read off from these.
-/

namespace SerialWriter

namespace Writer

variable {σ V : Type} {w v : Writer σ V} {t : Thread} {a : CallOfWriter σ V} {n k : Nat}
  {e : Envelope σ V} {b : BodyStage σ V}

/-! ### Calls -/

/-- **A step inside the control.** -/
inductive InControl (w : Writer σ V) (t : Thread) : Writer σ V → Prop
  /-- A stop raises the flag of the queue. -/
  | rings (hw : w.control.waking t = true)
      (hn : ∀ b, w.queue.stages.get? t ≠ some (.notifying b)) :
      w.InControl t { w with queue := w.queue.wake t }
  /-- A stop notifies, and has woken the worker. -/
  | wakes {q : SharedQueue Nat} (hw : w.control.waking t = true)
      (hq : w.queue.notify t none = some q) :
      w.InControl t { w with queue := q, control := w.control.woken t w.now }
  | turns {s : CallStage} {d : Control} {j : Journal} (hw : w.control.waking t = false)
      (hs : w.control.calls.get? t = some s) (h : CallTurn w.control t w.now w.journal s d j) :
      w.InControl t { w with control := d, journal := j }

lemma inControl_of_step (h : w.stepControl t = some v) : w.InControl t v := by
  unfold stepControl at h
  split at h
  · rename_i hw
    split at h
    · obtain ⟨q, hq, rfl⟩ := Option.map_eq_some_iff.mp h
      exact .wakes hw hq
    · rename_i hn
      cases h
      exact .rings hw hn
  · rename_i hw
    obtain ⟨⟨d, j⟩, hd, rfl⟩ := Option.map_eq_some_iff.mp h
    obtain ⟨s, hs, hturn⟩ := Control.stepCall_turn hd
    exact .turns (Bool.not_eq_true _ ▸ hw) hs hturn

lemma InControl.calls (h : w.InControl t v) : v.calls = w.calls := by
  cases h <;> rfl

/-- **A call that logs a line** at this stage: `u` is the writer that logs it, and `b` is what
follows, by the fault of the line. -/
inductive Logs (w : Writer σ V) :
    CallOfWriter σ V → Writer σ V → Notice → (Option Failure → CallOfWriter σ V) → Prop
  | reports {pending : Nat} {after : AfterWalk} :
      w.Logs (.reporting pending after) w (.abandoned w.config.name pending)
        fun f => f.elim (.afterWalk after) (.faultOfWalk · after)
  | closes {closing : Bool} : w.Logs (.closing closing) w (.closed w.config.name w.stats)
      fun f => .afterStop closing (f.elim (.ok ()) .error)
  | complains {r : Refusal} : w.Logs (.complaining r) w
      (.uncleanStop w.config.name (Failure.refused r).what)
        fun f => f.elim .clearing fun e => .ended (.error e)
  /-- A write has lost its ticket. -/
  | loses {s : Submission σ V} : w.Logs (.writing s .losing) { w with dropped := w.dropped + 1 }
      (.lost s.id) fun f => .ended (f.elim (.ok none) .error)
  /-- A write has been told of a failure. -/
  | threw {s : Submission σ V} {k : Nat} {e : Failure} (he : (w.cell k).error = some e) :
      w.Logs (.writing s (.told k .ready)) w (.taskThrew s.id e.describe)
        fun f => .ended (.error (f.getD (e.forCaller s.id)))
  /-- A write has waited in vain. -/
  | expires {s : Submission σ V} {k : Nat} : w.Logs (.writing s (.told k .timeout))
      { w with timedOut := w.timedOut + 1 } (.unexecuted s.id s.wait)
        fun f => .ended (f.elim (.ok none) .error)
  | interrupted {s : Submission σ V} {k : Nat} : w.Logs (.writing s (.told k .interrupted)) w
      (.waitInterrupted s.id) fun f => .ended (f.elim (.ok none) .error)

/-- **A step of a call** of `t`, by the stage of the call. -/
inductive CallMoves (w : Writer σ V) (t : Thread) : CallOfWriter σ V → Writer σ V → Prop
  | inside {a : CallOfWriter σ V} {v : Writer σ V} (hi : a.inControl = true)
      (h : w.InControl t v) : w.CallMoves t a v
  /-- The control is done with the call. -/
  | leaves {a : CallOfWriter σ V} {r : Except Failure Unit} (hi : a.inControl = true)
      (hr : w.control.calls.get? t = some (.ended r)) :
      w.CallMoves t a (({ w with control := w.control.acknowledge t } : Writer σ V).setCall t
        (a.afterControl r))
  /-- The walk over the pending tickets. -/
  | walks {after : AfterWalk} : w.CallMoves t (.walking after)
      (({ w with envelopes := interruptAt w.envelopes w.queue.items } : Writer σ V).setCall t
        (.walked w.queue.items.length after))
  | logs {a : CallOfWriter σ V} {u v : Writer σ V} {x : Notice} {f : Option Failure}
      {b : Option Failure → CallOfWriter σ V} (hx : w.Logs a u x b) (hl : u.log t x = (v, f)) :
      w.CallMoves t a (v.setCall t (b f))
  /-- A destruction begins with a stop. -/
  | stops (hp : w.phase.active = true) : w.CallMoves t .destroying
      (({ w with control := w.control.beginStop t } : Writer σ V).setCall t (.stopping true))
  /-- A destruction that need not stop goes on to walk. -/
  | discards (hp : w.phase.active = false) :
      w.CallMoves t .destroying (w.setCall t (.walking .discard))
  /-- A destruction drops the pending tickets and goes on in the control. -/
  | clears : w.CallMoves t .clearing
      (({ w with queue := w.queue.clear, control := w.control.beginDestroy t } :
        Writer σ V).setCall t .releasing)
  /-- A write passes the check of the phase. -/
  | admits {s : Submission σ V} (hp : w.phase.accepts = true) :
      w.CallMoves t (.writing s .checking) (w.setCall t (.writing s .creating))
  | refuses {s : Submission σ V} (hp : w.phase.accepts = false) :
      w.CallMoves t (.writing s .checking)
        (w.finish t (.error (.refused (.notAccepting w.config.name))))
  /-- No envelope is made. -/
  | breaks {s : Submission σ V} {e : Failure}
      (he : Envelope.make s.id s.work (w.factory.map fun f => f w.made) = .error e) :
      w.CallMoves t (.writing s .creating)
        (({ w with made := w.made + 1 } : Writer σ V).finish t (.error e))
  | makes {s : Submission σ V} {e : Envelope σ V}
      (he : Envelope.make s.id s.work (w.factory.map fun f => f w.made) = .ok e) :
      w.CallMoves t (.writing s .creating)
        (({ w with made := w.made + 1, envelopes := w.envelopes.push e } : Writer σ V).setCall t
          (.writing s (.offering w.envelopes.size)))
  | offers {s : Submission σ V} {k : Nat} {q : SharedQueue Nat}
      (hq : w.queue.offer t k = (true, q)) :
      w.CallMoves t (.writing s (.offering k))
        (({ w with queue := q } : Writer σ V).setCall t (.writing s (.notifying k)))
  /-- The queue is full. -/
  | misses {s : Submission σ V} {k : Nat} (hq : w.queue.offer t k = (false, w.queue)) :
      w.CallMoves t (.writing s (.offering k)) (w.setCall t (.writing s .losing))
  | notifies {s : Submission σ V} {k : Nat} {q : SharedQueue Nat}
      (hq : w.queue.notify t w.queue.waiters.head? = some q) :
      w.CallMoves t (.writing s (.notifying k))
        (({ w with queue := q } : Writer σ V).setCall t (.writing s (.counting k)))
  /-- A write that does not wait is over once its submission is counted. -/
  | submits {s : Submission σ V} {k : Nat} (hw : s.wait ≤ 0) :
      w.CallMoves t (.writing s (.counting k))
        (({ w with submitted := w.submitted + 1 } : Writer σ V).finish t (.ok none))
  | awaits {s : Submission σ V} {k : Nat} (hw : 0 < s.wait) :
      w.CallMoves t (.writing s (.counting k))
        (({ w with submitted := w.submitted + 1 } : Writer σ V).setCall t
          (.writing s (.waiting k (w.now.after s.wait))))
  /-- A wait is over. -/
  | hears {s : Submission σ V} {k : Nat} {d : Time}
      (h : (w.cell k).status?.isSome = true ∨ d ≤ w.now) :
      w.CallMoves t (.writing s (.waiting k d))
        (w.setCall t (.writing s (.told k (w.cell k).status)))
  /-- A write takes the value out of its cell. -/
  | collects {s : Submission σ V} {k : Nat} (he : (w.cell k).error = none) :
      w.CallMoves t (.writing s (.told k .ready))
        ((w.changeCell k fun c => c.take.2).finish t (.ok (w.cell k).value))

lemma throughControl_moves {next : Writer σ V → Except Failure Unit → Writer σ V}
    (hi : a.inControl = true) (hn : ∀ u r, next u r = u.setCall t (a.afterControl r))
    (h : w.throughControl t next = some v) : w.CallMoves t a v := by
  unfold throughControl at h
  split at h
  · rename_i r hr
    cases h
    rw [hn]
    exact .leaves hi (Control.result?_eq_some_iff.mp hr)
  · exact .inside hi (inControl_of_step h)

lemma stepWrite_moves {s : Submission σ V} {stage : WriteStage}
    (h : w.stepWrite t s stage = some v) : w.CallMoves t (.writing s stage) v := by
  cases stage with
  | checking =>
    simp only [stepWrite] at h
    split at h
    · rename_i hp
      cases h
      exact .admits hp
    · rename_i hp
      cases h
      exact .refuses (Bool.not_eq_true _ ▸ hp)
  | creating =>
    simp only [stepWrite] at h
    split at h
    · rename_i he
      cases h
      exact .breaks he
    · rename_i he
      cases h
      exact .makes he
  | offering k =>
    simp only [stepWrite] at h
    split at h
    · rename_i hq
      cases h
      exact .offers hq
    · rename_i hq
      cases h
      obtain rfl := SharedQueue.offer_false hq
      exact .misses hq
  | notifying k =>
    obtain ⟨q, hq, rfl⟩ := Option.map_eq_some_iff.mp h
    exact .notifies hq
  | counting k =>
    simp only [stepWrite] at h
    split at h
    · rename_i hw
      cases h
      exact .submits hw
    · rename_i hw
      cases h
      exact .awaits (Int.not_le.mp hw)
  | losing =>
    simp only [stepWrite] at h
    split at h <;> (rename_i hl; cases h; exact .logs .loses hl)
  | waiting k d =>
    simp only [stepWrite] at h
    split at h
    · rename_i status hs
      cases h
      have hstatus : (w.cell k).status = status := by rw [Cell.status, hs, Option.getD_some]
      exact hstatus ▸ .hears (.inl (by rw [hs, Option.isSome_some]))
    · rename_i hs
      split at h
      · rename_i hd
        cases h
        have hstatus : (w.cell k).status = .timeout := by rw [Cell.status, hs, Option.getD_none]
        exact hstatus ▸ .hears (.inr hd)
      · cases h
  | told k status =>
    cases status with
    | ready =>
      simp only [stepWrite] at h
      split at h
      · rename_i he
        split at h <;> (rename_i hl; cases h; exact .logs (.threw he) hl)
      · rename_i he
        cases h
        exact .collects he
    | timeout =>
      simp only [stepWrite] at h
      split at h <;> (rename_i hl; cases h; exact .logs .expires hl)
    | interrupted =>
      simp only [stepWrite] at h
      split at h <;> (rename_i hl; cases h; exact .logs .interrupted hl)

theorem stepCall_moves (h : w.stepCall t a = some v) : w.CallMoves t a v := by
  cases a with
  | starting => exact throughControl_moves rfl (fun _ _ => rfl) h
  | stopping closing => exact throughControl_moves rfl (fun u r => afterStop_eq u t closing r) h
  | releasing => exact throughControl_moves rfl (fun _ _ => rfl) h
  | walking after =>
    simp only [stepCall, interruptPending_eq, afterWalk_eq] at h
    have hv : v = ({ w with envelopes := interruptAt w.envelopes w.queue.items } :
        Writer σ V).setCall t (.walked w.queue.items.length after) := by
      rw [CallOfWriter.walked]
      split at h
      · rename_i hp
        cases h
        rw [if_pos hp]
      · rename_i hp
        cases h
        rw [if_neg hp]
    exact hv ▸ .walks
  | reporting pending after =>
    simp only [stepCall, afterWalk_eq, faultOfWalk_eq] at h
    split at h <;> (rename_i hl; cases h; exact .logs .reports hl)
  | closing closing =>
    simp only [stepCall, finishStop_eq] at h
    split at h <;> (rename_i hl; cases h; exact .logs .closes hl)
  | complaining r =>
    simp only [stepCall] at h
    split at h <;> (rename_i hl; cases h; exact .logs .complains hl)
  | destroying =>
    simp only [stepCall] at h
    split at h
    · rename_i hp
      cases h
      exact .stops hp
    · rename_i hp
      cases h
      exact .discards (Bool.not_eq_true _ ▸ hp)
  | clearing =>
    cases h
    exact .clears
  | writing s stage => exact stepWrite_moves h
  | ended r => cases h

/-! ### Cycles -/

/-- **A step of worker `n` in the body** of the envelope `e` of ticket `k`. -/
inductive BodyMoves (w : Writer σ V) (n k : Nat) (e : Envelope σ V) :
    BodyStage σ V → Writer σ V → Prop
  | turns {b b' : BodyStage σ V} {d : CellChange V} {s : σ} (h : BodyTurn e b w.resource d b' s) :
      w.BodyMoves n k e b
        (({ w with resource := s, envelopes := changeCellAt w.envelopes k d.change } :
          Writer σ V).setBody n k b')
  /-- A failure that comes too late is reported. -/
  | reports {f : Failure} {j : Journal} (hc : e.cell.claimed = true)
      (hl : w.journal.log (.worker n) (.lateFailure e.id) = (none, j)) :
      w.BodyMoves n k e (.left (some f))
        (({ w with journal := j } : Writer σ V).setBody n k (.verdict false))
  /-- The fault of that line ends the cycle. -/
  | garbles {f x : Failure} {j : Journal} (hc : e.cell.claimed = true)
      (hl : w.journal.log (.worker n) (.lateFailure e.id) = (some x, j)) :
      w.BodyMoves n k e (.left (some f))
        ((({ w with journal := j } : Writer σ V).markDone k).endCycle n (some x))
  /-- The task begins a call of the control. -/
  | enters {p : Program σ V} {back? : Option (Option Failure → Wrapper σ)} {s : CallStage}
      {a : CallOfWriter σ V} {g : Except Failure (Option V) → BodyStage σ V}
      (hp : p.involved = true) (hg : ∀ r, ∃ p, g r = .inner p back?) (hi : a.inControl = true)
      (hs : s.opening = true) :
      w.BodyMoves n k e (.inner p back?)
        ((({ w with control := w.control.setCall (.worker n) s } : Writer σ V).setCall (.worker n)
          a).setBody n k (.calling g))
  /-- The task begins a write. -/
  | writes {p : Program σ V} {back? : Option (Option Failure → Wrapper σ)} {s : Submission σ V}
      {g : Except Failure (Option V) → BodyStage σ V} (hp : p.involved = true)
      (hg : ∀ r, ∃ p, g r = .inner p back?) :
      w.BodyMoves n k e (.inner p back?)
        ((w.setCall (.worker n) (.writing s .checking)).setBody n k (.calling g))
  /-- The call of the task is over. -/
  | returns {r : Except Failure (Option V)} {g : Except Failure (Option V) → BodyStage σ V}
      (hr : w.calls.get? (.worker n) = some (.ended r)) :
      w.BodyMoves n k e (.calling g)
        (({ w with calls := w.calls.drop (.worker n) } : Writer σ V).setBody n k (g r))
  | succeeds : w.BodyMoves n k e (.verdict true) ((w.markDone k).setCycle n (.counting k))
  | fails {j : Journal}
      (hl : w.journal.log (.worker n) (.taskFailed w.ledger.writer e.id) = (none, j)) :
      w.BodyMoves n k e (.verdict false)
        ((({ w with ledger := { w.ledger with failed := w.ledger.failed + 1 }, journal := j } :
          Writer σ V).markDone k).setCycle n (.counting k))
  /-- The fault of the line about a failure ends the cycle. -/
  | spoils {x : Failure} {j : Journal}
      (hl : w.journal.log (.worker n) (.taskFailed w.ledger.writer e.id) = (some x, j)) :
      w.BodyMoves n k e (.verdict false)
        ((({ w with ledger := { w.ledger with failed := w.ledger.failed + 1 }, journal := j } :
          Writer σ V).markDone k).endCycle n (some x))

/-- **A step of worker `n`** outside calls. -/
inductive WorkMoves (w : Writer σ V) (n : Nat) : Writer σ V → Prop
  /-- Between cycles. -/
  | works {s : WorkerStage} {d : Control} {j : Journal} (hb : w.control.budget? n = none)
      (hs : w.control.worker? n = some s) (h : WorkerTurn w.control n w.journal s d j) :
      w.WorkMoves n { w with control := d, journal := j }
  /-- A take is over. -/
  | takes {last : Bool} (hw : w.control.worker? n = some (.cycling last))
      (hy : w.cycles.get? (.worker n) = none) :
      w.WorkMoves n (({ w with queue := (w.queue.pop (.worker n)).2 } : Writer σ V).tookTicket n
        (w.queue.pop (.worker n)).1)
  /-- A take has to wait. The last one does not begin to. -/
  | waits {last : Bool} {d : Time} (hw : w.control.worker? n = some (.cycling last))
      (hy : w.cycles.get? (.worker n) = none)
      (hl : last = true → ∃ d b, w.queue.stages.get? (.worker n) = some (.waiting d b))
      (hs : w.queue.queue.settled = false) :
      w.WorkMoves n { w with
        queue := { w.queue with stages := w.queue.stages.put (.worker n) (.waiting d false) } }
  /-- The run of an envelope begins. -/
  | opens {last : Bool} {k : Nat} {e : Envelope σ V}
      (hw : w.control.worker? n = some (.cycling last))
      (hy : w.cycles.get? (.worker n) = some (.dequeued k)) (he : w.envelopes[k]? = some e) :
      w.WorkMoves n (({ w with begun := k :: w.begun } : Writer σ V).setBody n k e.body.begin)
  | body {last : Bool} {k : Nat} {b : BodyStage σ V} {e : Envelope σ V} {v : Writer σ V}
      (hw : w.control.worker? n = some (.cycling last))
      (hy : w.cycles.get? (.worker n) = some (.running k b)) (he : w.envelopes[k]? = some e)
      (h : w.BodyMoves n k e b v) : w.WorkMoves n v
  | counts {last : Bool} {k : Nat} (hw : w.control.worker? n = some (.cycling last))
      (hy : w.cycles.get? (.worker n) = some (.counting k)) :
      w.WorkMoves n
        (({ w with ledger := w.ledger.noteExecuted } : Writer σ V).setCycle n (.measuring k))
  | measures {last : Bool} {k : Nat} {f : Option Failure} {l : Ledger} {j : Journal}
      (hw : w.control.worker? n = some (.cycling last))
      (hy : w.cycles.get? (.worker n) = some (.measuring k))
      (hd : w.ledger.noteDepth w.now w.queue.size (.worker n) w.journal = (f, l, j)) :
      w.WorkMoves n (({ w with ledger := l, journal := j } : Writer σ V).endCycle n f)

lemma moves_of_rest {b' : BodyStage σ V} {s : σ} (h : BodyTurn e b w.resource .rests b' s) :
    w.BodyMoves n k e b (({ w with resource := s } : Writer σ V).setBody n k b') := by
  have hmove := BodyMoves.turns (w := w) (n := n) (k := k) h
  rwa [show changeCellAt w.envelopes k (CellChange.rests : CellChange V).change = w.envelopes from
    changeCellAt_id ..] at hmove

lemma moves_of_claim {o : Outcome V} {won lost : BodyStage σ V} (he : w.envelopes[k]? = some e)
    (hwon : e.cell.claimed = false → BodyTurn e b w.resource .claims (.publishing o won) w.resource)
    (hlost : e.cell.claimed = true → BodyTurn e b w.resource .rests lost w.resource) :
    w.BodyMoves n k e b (w.claimFor n k o won lost) := by
  unfold claimFor
  rw [cell_eq he]
  split
  · rename_i hc
    rw [Cell.claim, Prod.mk.injEq, Bool.not_eq_true'] at hc
    exact .turns (hwon hc.1)
  · rename_i hc
    rw [Cell.claim, Prod.mk.injEq, Bool.not_eq_false'] at hc
    exact moves_of_rest (hlost hc.1)

lemma stepProgram_moves {back? : Option (Option Failure → Wrapper σ)} {p : Program σ V}
    (he : w.envelopes[k]? = some e) (h : w.stepProgram n k back? p = some v) :
    w.BodyMoves n k e (.inner p back?) v := by
  cases p with
  | ret x =>
    simp only [stepProgram] at h
    split at h
    · cases h
      exact moves_of_rest (.returns x)
    · cases h
      exact moves_of_claim he (.wins x _) (.loses x _)
  | fail f =>
    cases h
    cases back? with
    | none => exact moves_of_rest (.fails f none)
    | some next => exact moves_of_rest (.fails f (some next))
  | update f next =>
    cases h
    exact moves_of_rest (.updates f next back?)
  | resolve o next =>
    cases h
    exact moves_of_claim he (fun hc => .reaches rfl (.claims o _ _ hc)) fun _ =>
      .reaches rfl (.rests ..)
  | interrupt next =>
    cases h
    exact .turns (d := .interrupts) (.reaches rfl (.interrupts ..))
  | pass gate next =>
    simp only [stepProgram, Option.ite_none_right_eq_some, Option.some.injEq] at h
    obtain ⟨-, rfl⟩ := h
    exact moves_of_rest (.passes gate next back?)
  | phase next | stats next =>
    cases h
    exact moves_of_rest (.reaches rfl (.rests ..))
  | start next | stop next =>
    cases h
    exact .enters rfl (fun _ => ⟨_, rfl⟩) rfl rfl
  | write work id wait next =>
    cases h
    exact .writes rfl fun _ => ⟨_, rfl⟩

lemma stepWrapper_moves {x : Wrapper σ} :
    w.BodyMoves n k e (.outer x) (w.stepWrapper n k e.body.task x) := by
  cases x with
  | done => exact moves_of_rest .ends
  | fail f => exact moves_of_rest (.breaks f)
  | update f next => exact moves_of_rest (.changes f next)
  | invoke next => exact moves_of_rest (.invokes next)

lemma stepLeft_moves {escaped : Option Failure} (he : w.envelopes[k]? = some e) :
    w.BodyMoves n k e (.left escaped) (w.stepLeft n k escaped) := by
  have hid : w.idOf k = e.id := by
    rw [idOf, he]
    rfl
  cases escaped with
  | none =>
    simp only [stepLeft, cell_eq he, hid]
    split
    · rename_i hc
      exact moves_of_rest (.succeeds hc)
    · rename_i hc
      exact moves_of_claim he .lacks fun hc' => absurd hc' hc
  | some f =>
    simp only [stepLeft, cell_eq he, hid]
    split
    · rename_i hc
      unfold log
      cases hl : w.journal.log (.worker n) (.lateFailure e.id) with
      | mk x j =>
        cases x with
        | none => exact .reports hc hl
        | some x => exact .garbles hc hl
    · rename_i hc
      exact moves_of_claim he (.blames f) fun hc' => absurd hc' hc

lemma stepBody_moves (he : w.envelopes[k]? = some e) (h : w.stepBody n k e b = some v) :
    w.BodyMoves n k e b v := by
  cases b with
  | outer x =>
    cases h
    exact stepWrapper_moves
  | inner p back? => exact stepProgram_moves he h
  | publishing o after =>
    cases h
    exact .turns (.publishes o after)
  | calling after =>
    simp only [stepBody] at h
    split at h
    · rename_i r hr
      cases h
      exact .returns (result?_eq_some_iff.mp hr)
    · cases h
  | left escaped =>
    cases h
    exact stepLeft_moves he
  | verdict ok =>
    cases ok with
    | true =>
      cases h
      exact .succeeds
    | false =>
      simp only [stepBody, Ledger.noteFailure, markDone, Bool.false_eq_true, if_false] at h
      generalize hl : w.journal.log (.worker n) (.taskFailed w.ledger.writer e.id) = r at h
      obtain ⟨x, j⟩ := r
      cases x with
      | none =>
        cases h
        exact .fails hl
      | some x =>
        cases h
        exact .spoils hl

lemma stepCycle_moves {last : Bool} {budget : Int} (hb : w.control.budget? n = some budget)
    (hw : w.control.worker? n = some (.cycling last)) (h : w.stepCycle n budget = some v) :
    w.WorkMoves n v := by
  unfold stepCycle at h
  split at h
  · rename_i hy
    split at h
    · rename_i stage hstage
      obtain ⟨⟨r, q⟩, hr, h⟩ := Option.map_eq_some_iff.mp h
      rcases SharedQueue.ends_or_waits_of_retake hr with ⟨x, rfl, hpop⟩ | ⟨rfl, hs, d, rfl⟩
      · cases h
        have hmove := WorkMoves.takes hw hy
        rwa [hpop] at hmove
      · cases h
        refine .waits hw hy (fun _ => ?_) hs
        cases stage with
        | waiting d b => exact ⟨d, b, hstage⟩
        | notifying b =>
          simp only [SharedQueue.retake, hstage] at hr
          cases hr
    · split at h
      · rename_i x q hr
        cases h
        rcases SharedQueue.ends_or_waits_of_take hr with ⟨x', hx, hpop⟩ | ⟨hx, -⟩
        · cases hx
          have hmove := WorkMoves.takes hw hy
          rwa [hpop] at hmove
        · cases hx
      · rename_i q hr
        cases h
        rcases SharedQueue.ends_or_waits_of_take hr with ⟨x', hx, -⟩ | ⟨-, hbudget, hs, d, rfl⟩
        · cases hx
        · refine .waits hw hy (fun hl => ?_) hs
          -- the last cycle may not wait
          simp only [Control.budget?, hw, hl, if_true, Option.some.injEq] at hb
          exact absurd hbudget (hb ▸ Int.lt_irrefl 0)
  · rename_i hy
    split at h
    · rename_i he
      cases h
      exact .opens hw hy he
    · cases h
  · rename_i hy
    split at h
    · rename_i he
      exact .body hw hy he (stepBody_moves he h)
    · cases h
  · rename_i hy
    cases h
    exact .counts hw hy
  · rename_i hy
    generalize hd : w.ledger.noteDepth w.now w.queue.size (.worker n) w.journal = r at h
    obtain ⟨f, l, j⟩ := r
    cases h
    exact .measures hw hy hd

theorem stepWorker_moves (h : w.stepWorker n = some v) : w.WorkMoves n v := by
  unfold stepWorker at h
  split at h
  · rename_i hb
    obtain ⟨last, hw⟩ := Control.budget?_isSome_iff.mp (Option.isSome_iff_exists.mpr ⟨_, hb⟩)
    exact stepCycle_moves hb hw h
  · rename_i hb
    obtain ⟨⟨d, j⟩, hd, rfl⟩ := Option.map_eq_some_iff.mp h
    obtain ⟨s, hs, hturn⟩ := Control.stepWorker_turn hd
    exact .works hb hs hturn

lemma bodyMoves_of_work {last : Bool} (h : w.WorkMoves n v)
    (hw : w.control.worker? n = some (.cycling last))
    (hy : w.cycles.get? (.worker n) = some (.running k b)) :
    ∃ e, w.envelopes[k]? = some e ∧ w.BodyMoves n k e b v := by
  cases h with
  | works hb _ _ =>
    have hbudget := Control.budget?_isSome_iff.mpr ⟨last, hw⟩
    rw [hb] at hbudget
    cases hbudget
  | body _ hy' he h =>
    obtain ⟨rfl, rfl⟩ := CycleStage.running.inj (Option.some.inj (hy.symm.trans hy'))
    exact ⟨_, he, h⟩
  | takes _ hy' | waits _ hy' _ _ | opens _ hy' _ | counts _ hy' | measures _ hy' _ =>
    cases hy.symm.trans hy'

/-! ### Moves -/

/-- The thread is in no call, or has yet to see the result of one. -/
def Rests (w : Writer σ V) (t : Thread) : Prop :=
  ∀ a, w.calls.get? t = some a → ∃ r, a = .ended r

/-- **A step of a thread**: of the call that it is in, or else of its work. -/
inductive ThreadMoves (w : Writer σ V) : Thread → Writer σ V → Prop
  | calls {t : Thread} {a : CallOfWriter σ V} {v : Writer σ V} (ha : w.calls.get? t = some a)
      (h : w.CallMoves t a v) : w.ThreadMoves t v
  | works {n : Nat} {v : Writer σ V} (hr : w.Rests (.worker n)) (h : w.WorkMoves n v) :
      w.ThreadMoves (.worker n) v

theorem moves_of_run (h : w.run t = some v) : w.ThreadMoves t v := by
  have hwork : w.Rests t → ∀ {n : Nat}, t = .worker n → w.stepWorker n = some v →
      w.ThreadMoves t v := by
    rintro hr n rfl hv
    exact .works hr (stepWorker_moves hv)
  unfold run at h
  split at h
  · rename_i r ha
    split at h
    · cases h
    · exact hwork (fun a hb => ⟨r, Option.some.inj (hb.symm.trans ha)⟩) rfl h
  · rename_i hn
    split at h
    · cases h
    · exact hwork (fun a hb => nomatch hn.symm.trans hb) rfl h
  · rename_i a ha
    exact .calls ha (stepCall_moves h)

lemma CallMoves.now (h : w.CallMoves t a v) : v.now = w.now := by
  cases h with
  | inside _ h => cases h <;> rfl
  | logs hx hl =>
    obtain ⟨rfl, -⟩ := Prod.mk.inj hl
    cases hx <;> rfl
  | _ => rfl

lemma WorkMoves.now (h : w.WorkMoves n v) : v.now = w.now := by
  cases h with
  | takes _ _ => cases (w.queue.pop (.worker n)).1 <;> rfl
  | body _ _ _ h => cases h <;> rfl
  | _ => rfl

theorem now_of_run (h : w.run t = some v) : v.now = w.now := by
  cases moves_of_run h with
  | calls _ h => exact h.now
  | works _ h => exact h.now

lemma callMoves_of_run (ha : w.calls.get? t = some a) (hn : ∀ r, a ≠ .ended r)
    (h : w.run t = some v) : w.CallMoves t a v := by
  cases moves_of_run h with
  | calls hb h =>
    obtain rfl := Option.some.inj (ha.symm.trans hb)
    exact h
  | works hr _ =>
    obtain ⟨r, hr⟩ := hr a ha
    exact (hn r hr).elim

lemma workMoves_of_run (hr : w.Rests (.worker n)) (h : w.run (.worker n) = some v) :
    w.WorkMoves n v := by
  generalize ht : Thread.worker n = t at h
  cases moves_of_run h with
  | calls ha h =>
    obtain ⟨r, rfl⟩ := hr _ (ht ▸ ha)
    cases h with
    | inside hi _ | leaves hi _ => cases hi
    | logs hx _ => cases hx
  | works _ h =>
    cases ht
    exact h

/-- **What can happen to a writer**, by what it does. -/
inductive Moves (w : Writer σ V) : Move σ V → Writer σ V → Prop
  | begins {c : Nat} {r : WriterRequest σ V} (hn : w.calls.get? (.client c) = none) :
      w.Moves (.request c r) (w.request (.client c) r)
  | runs {t : Thread} {v : Writer σ V} (h : w.ThreadMoves t v) : w.Moves (.run t) v
  | acknowledges {c : Nat} {r : Except Failure (Option V)}
      (hr : w.calls.get? (.client c) = some (.ended r)) :
      w.Moves (.acknowledge c) { w with calls := w.calls.drop (.client c) }
  /-- A thread that waits inside the control wakes up. -/
  | stirs {t : Thread} {s : CallStage} (hs : w.control.calls.get? t = some s) :
      w.Moves (.stir t) { w with control := w.control.setCall t s.roused }
  /-- A thread that waits at the queue wakes up. -/
  | rouses {t : Thread} (hn : w.control.calls.get? t = none) :
      w.Moves (.stir t) { w with queue := w.queue.rouse t }
  | opensGate {gate : String} : w.Moves (.openGate gate)
      { w with gates := { w.gates with opened := gate :: w.gates.opened } }
  | opensAll : w.Moves .openAll { w with gates := { w.gates with all := true } }
  | arms {needle : String} : w.Moves (.arm needle) { w with journal := w.journal.arm needle }
  | passes {d : Nat} : w.Moves (.pass d) { w with now := w.now + d }

theorem moves_of_step {m : Move σ V} (h : w.step m = some v) : w.Moves m v := by
  cases m with
  | request c r =>
    simp only [step, Option.ite_none_right_eq_some, Option.some.injEq] at h
    obtain ⟨hn, rfl⟩ := h
    exact .begins (Option.isNone_iff_eq_none.mp hn)
  | run t => exact .runs (moves_of_run h)
  | acknowledge c =>
    simp only [step, Option.ite_none_right_eq_some, Option.some.injEq] at h
    obtain ⟨hr, rfl⟩ := h
    obtain ⟨r, hr⟩ := Option.isSome_iff_exists.mp hr
    exact .acknowledges (result?_eq_some_iff.mp hr)
  | stir t =>
    simp only [step] at h
    split at h
    · rename_i hs
      cases h
      exact .stirs hs
    · rename_i hn
      cases h
      exact .rouses hn
  | openGate gate =>
    cases h
    exact .opensGate
  | openAll =>
    cases h
    exact .opensAll
  | arm needle =>
    cases h
    exact .arms
  | pass d =>
    cases h
    exact .passes

end Writer

end SerialWriter
