import SerialWriter.Proofs.Control.Discipline
import SerialWriter.Proofs.Writer.Moves

/-!
The course of a writer: what is left of it when its resource, its books, its gates and the clock are
forgotten. Every move of a writer is one of a few dozen steps of its course, each of which says what
it finds and what it leaves behind.
-/

namespace SerialWriter

/-! ### Cells -/

/-- Nothing that was settled about a cell is undone. -/
structure Cell.Grows {V : Type} (a b : Cell V) : Prop where
  claimed : a.claimed = true → b.claimed = true
  ready : a.ready = true → b.ready = true
  interrupted : a.interrupted = true → b.interrupted = true

namespace Cell.Grows

variable {V : Type}

lemma refl (a : Cell V) : a.Grows a := ⟨id, id, id⟩

lemma claim (a : Cell V) : a.Grows a.claim.2 := ⟨fun _ => rfl, id, id⟩

lemma publish (a : Cell V) (o : Outcome V) : a.Grows (a.publish o) := by
  cases o with
  | value v => exact ⟨id, fun _ => rfl, id⟩
  | error e => exact ⟨id, fun _ => rfl, id⟩

lemma interrupt (a : Cell V) : a.Grows a.interrupt := ⟨id, id, fun _ => rfl⟩

end Cell.Grows

lemma CellChange.grows {V : Type} (d : CellChange V) (a : Cell V) : a.Grows (d.change a) := by
  cases d with
  | rests => exact .refl a
  | claims => exact .claim a
  | publishes o => exact .publish a o
  | interrupts => exact .interrupt a

/-! ### Stages -/

namespace CallOfWriter

variable {σ V : Type}

/-- A write that has passed the check of the phase and has yet to make its offer. -/
def admitted : CallOfWriter σ V → Bool
  | .writing _ .creating | .writing _ (.offering _) => true
  | _ => false

/-- The thread is about to walk over the pending tickets. -/
def isWalk : CallOfWriter σ V → Bool
  | .walking _ => true
  | _ => false

/-- A call at this stage goes on beside the control and the pending tickets. -/
def beside : CallOfWriter σ V → Bool
  | .reporting _ _ | .closing _ | .complaining _ | .writing _ _ => true
  | _ => false

/-- A stage that is neither inside the control, nor on the way to an offer, nor about to walk. -/
structure Plain (a : CallOfWriter σ V) : Prop where
  outside : a.inControl = false
  unadmitted : a.admitted = false
  unwalked : a.isWalk = false

lemma plain_afterStop (b : Bool) (r : Except Failure Unit) :
    (afterStop b r : CallOfWriter σ V).Plain := by
  cases b with
  | false => exact ⟨rfl, rfl, rfl⟩
  | true =>
    cases r with
    | ok _ => exact ⟨rfl, rfl, rfl⟩
    | error e => cases e <;> exact ⟨rfl, rfl, rfl⟩

lemma admitted_afterControl (a : CallOfWriter σ V) (r : Except Failure Unit) :
    (a.afterControl r).admitted = false := by
  unfold afterControl
  split
  · rfl
  · rfl
  · exact (plain_afterStop ..).unadmitted
  · rfl

lemma plain_afterWalk (after : AfterWalk) : (afterWalk after : CallOfWriter σ V).Plain := by
  cases after with
  | close closing => exact ⟨rfl, rfl, rfl⟩
  | refuse closing r => exact plain_afterStop ..
  | discard => exact ⟨rfl, rfl, rfl⟩

lemma plain_faultOfWalk (fault : Failure) (after : AfterWalk) :
    (faultOfWalk fault after : CallOfWriter σ V).Plain := by
  cases after with
  | close closing | refuse closing r => exact plain_afterStop ..
  | discard => exact ⟨rfl, rfl, rfl⟩

lemma plain_walked (pending : Nat) (after : AfterWalk) :
    (walked pending after : CallOfWriter σ V).Plain := by
  unfold walked
  split
  · exact ⟨rfl, rfl, rfl⟩
  · exact plain_afterWalk after

lemma admitted_of_inControl {a : CallOfWriter σ V} (ha : a.inControl = true) :
    a.admitted = false := by
  unfold inControl at ha
  split at ha
  all_goals first | rfl | cases ha

lemma inControl_of_beside {a : CallOfWriter σ V} (ha : a.beside = true) : a.inControl = false := by
  unfold beside at ha
  split at ha
  all_goals first | rfl | cases ha

lemma ne_offering {a : CallOfWriter σ V} (ha : a.admitted = false) (s : Submission σ V) (k : Nat) :
    a ≠ .writing s (.offering k) := by
  rintro rfl
  cases ha

lemma Plain.ne_offering {a : CallOfWriter σ V} (ha : a.Plain) (s : Submission σ V) (k : Nat) :
    a ≠ .writing s (.offering k) :=
  CallOfWriter.ne_offering ha.unadmitted s k

end CallOfWriter

/-! ### The course -/

/-- **The course of a writer**: its control, the tickets that wait, came and went, the envelopes,
the calls, the cycles, and the runs that have begun and ended. -/
structure Course (σ V : Type) where
  control : Control
  /-- The pending tickets, the oldest first. -/
  pending : List Nat
  /-- The tickets accepted so far, the latest first. -/
  accepted : List Nat
  /-- The tickets taken so far, the latest first. -/
  removed : List Nat
  envelopes : Array (Envelope σ V)
  calls : Roster (CallOfWriter σ V)
  cycles : Roster (CycleStage σ V)
  begun : List Nat
  done : List Nat

def Writer.course {σ V : Type} (w : Writer σ V) : Course σ V where
  control := w.control
  pending := w.queue.items
  accepted := w.queue.accepted
  removed := w.queue.removed
  envelopes := w.envelopes
  calls := w.calls
  cycles := w.cycles
  begun := w.begun
  done := w.done

/-- **The steps of a course.** -/
inductive Course.Step {σ V : Type} (c : Course σ V) : Course σ V → Prop
  /-- Nothing of this changes. -/
  | rests : Step c c
  /-- A step of the control that begins and ends no call and no cycle. -/
  | control {now : Time} {j j' : Journal} {d : Control} (h : c.control.Step now j d j')
      (hk : ∀ t, (d.calls.get? t).isSome = (c.control.calls.get? t).isSome)
      (hw : ∀ n last, c.control.worker? n = some (.cycling last) →
        d.worker? n = some (.cycling last)) : Step c { c with control := d }
  /-- A client begins a call that is not one of the control. -/
  | requests {k : Nat} {a : CallOfWriter σ V} (hn : c.calls.get? (.client k) = none)
      (ha : a.Plain) : Step c { c with calls := c.calls.put (.client k) a }
  /-- A client begins a call of the control. -/
  | enters {k : Nat} {a : CallOfWriter σ V} {s : CallStage}
      (hn : c.calls.get? (.client k) = none) (ha : a.inControl = true) (hs : s.opening = true) :
      Step c { c with control := c.control.setCall (.client k) s
                      calls := c.calls.put (.client k) a }
  | acknowledges {k : Nat} {r : Except Failure (Option V)}
      (hr : c.calls.get? (.client k) = some (.ended r)) :
      Step c { c with calls := c.calls.drop (.client k) }
  /-- A call of the control has ended. -/
  | leaves {t : Thread} {a : CallOfWriter σ V} {r : Except Failure Unit}
      (ha : c.calls.get? t = some a) (hi : a.inControl = true)
      (hr : c.control.calls.get? t = some (.ended r)) :
      Step c { c with control := c.control.acknowledge t
                      calls := c.calls.put t (a.afterControl r) }
  /-- The walk of a stop over the pending tickets. -/
  | walks {t : Thread} {after : AfterWalk} {a : CallOfWriter σ V}
      (hw : c.calls.get? t = some (.walking after)) (ha : a.Plain) :
      Step c { c with envelopes := interruptAt c.envelopes c.pending, calls := c.calls.put t a }
  /-- A call goes on beside the control and the queue. -/
  | goes {t : Thread} {a a' : CallOfWriter σ V} (ha : c.calls.get? t = some a)
      (hi : a.beside = true) (ha' : a'.Plain) : Step c { c with calls := c.calls.put t a' }
  /-- A destruction that need not stop goes on to walk. -/
  | discards {t : Thread} (ha : c.calls.get? t = some .destroying) :
      Step c { c with calls := c.calls.put t (.walking .discard) }
  /-- A destruction begins with a stop. -/
  | stops {t : Thread} (ha : c.calls.get? t = some .destroying) :
      Step c { c with control := c.control.beginStop t, calls := c.calls.put t (.stopping true) }
  /-- A destruction drops the pending tickets and goes on in the control. -/
  | clears {t : Thread} (ha : c.calls.get? t = some .clearing) :
      Step c { c with pending := [], removed := c.pending.reverse ++ c.removed
                      control := c.control.beginDestroy t, calls := c.calls.put t .releasing }
  /-- A write passes the check of the phase. -/
  | admits {t : Thread} {s : Submission σ V} (ha : c.calls.get? t = some (.writing s .checking))
      (hp : c.control.phase.accepts = true) :
      Step c { c with calls := c.calls.put t (.writing s .creating) }
  /-- The envelope of a write is made. -/
  | makes {t : Thread} {s : Submission σ V} {e : Envelope σ V}
      (ha : c.calls.get? t = some (.writing s .creating)) (he : e.cell = {}) :
      Step c { c with envelopes := c.envelopes.push e
                      calls := c.calls.put t (.writing s (.offering c.envelopes.size)) }
  | offers {t : Thread} {s : Submission σ V} {k : Nat}
      (ha : c.calls.get? t = some (.writing s (.offering k))) :
      Step c { c with pending := c.pending ++ [k], accepted := k :: c.accepted
                      calls := c.calls.put t (.writing s (.notifying k)) }
  /-- The value leaves the cell of a write that has waited for it. -/
  | collects {t : Thread} {s : Submission σ V} {k : Nat} {r : Except Failure (Option V)}
      (ha : c.calls.get? t = some (.writing s (.told k .ready))) :
      Step c { c with envelopes := changeCellAt c.envelopes k fun a => a.take.2
                      calls := c.calls.put t (.ended r) }
  /-- A worker takes the oldest ticket. -/
  | takes {n k : Nat} {last : Bool} {rest : List Nat}
      (hw : c.control.worker? n = some (.cycling last))
      (hy : c.cycles.get? (.worker n) = none) (hp : c.pending = k :: rest) :
      Step c { c with pending := rest, removed := k :: c.removed
                      cycles := c.cycles.put (.worker n) (.dequeued k) }
  /-- A cycle ends for want of a ticket. -/
  | idles {n : Nat} {last : Bool} (hw : c.control.worker? n = some (.cycling last))
      (hy : c.cycles.get? (.worker n) = none) :
      Step c { c with cycles := c.cycles.drop (.worker n)
                      control := c.control.setWorker n (.afterCycle last none) }
  /-- The run of an envelope begins. -/
  | opens {n k : Nat} {b : BodyStage σ V} (hy : c.cycles.get? (.worker n) = some (.dequeued k)) :
      Step c { c with begun := k :: c.begun, cycles := c.cycles.put (.worker n) (.running k b) }
  /-- The run of an envelope goes on, and may do something to its own cell. -/
  | body {n k : Nat} {b b' : BodyStage σ V} {f : Cell V → Cell V}
      (hy : c.cycles.get? (.worker n) = some (.running k b)) (hb : b.isCalling = false)
      (hf : ∀ a : Cell V, a.Grows (f a)) :
      Step c { c with envelopes := changeCellAt c.envelopes k f
                      cycles := c.cycles.put (.worker n) (.running k b') }
  /-- A task begins a call of the control. -/
  | bodyEnters {n k : Nat} {b : BodyStage σ V} {s : CallStage} {a : CallOfWriter σ V}
      {g : Except Failure (Option V) → BodyStage σ V}
      (hy : c.cycles.get? (.worker n) = some (.running k b)) (hb : b.isCalling = false)
      (ha : a.inControl = true) (hs : s.opening = true) :
      Step c { c with control := c.control.setCall (.worker n) s
                      calls := c.calls.put (.worker n) a
                      cycles := c.cycles.put (.worker n) (.running k (.calling g)) }
  /-- A task begins a write. -/
  | bodyWrites {n k : Nat} {b : BodyStage σ V} {s : Submission σ V}
      {g : Except Failure (Option V) → BodyStage σ V}
      (hy : c.cycles.get? (.worker n) = some (.running k b)) (hb : b.isCalling = false) :
      Step c { c with calls := c.calls.put (.worker n) (.writing s .checking)
                      cycles := c.cycles.put (.worker n) (.running k (.calling g)) }
  /-- A call made by a task has ended. -/
  | bodyReturns {n k : Nat} {r : Except Failure (Option V)}
      {g : Except Failure (Option V) → BodyStage σ V}
      (hy : c.cycles.get? (.worker n) = some (.running k (.calling g)))
      (hr : c.calls.get? (.worker n) = some (.ended r)) :
      Step c { c with calls := c.calls.drop (.worker n)
                      cycles := c.cycles.put (.worker n) (.running k (g r)) }
  /-- The run of an envelope ends. -/
  | finishes {n k : Nat} {b : BodyStage σ V}
      (hy : c.cycles.get? (.worker n) = some (.running k b)) (hb : b.isCalling = false) :
      Step c { c with done := k :: c.done, cycles := c.cycles.put (.worker n) (.counting k) }
  /-- The run of an envelope ends, and the fault of a log line ends the cycle. -/
  | breaks {n k : Nat} {b : BodyStage σ V} {last : Bool} {e : Failure}
      (hw : c.control.worker? n = some (.cycling last))
      (hy : c.cycles.get? (.worker n) = some (.running k b)) (hb : b.isCalling = false) :
      Step c { c with done := k :: c.done, cycles := c.cycles.drop (.worker n)
                      control := c.control.setWorker n (.afterCycle last (some e)) }
  | counts {n k : Nat} (hy : c.cycles.get? (.worker n) = some (.counting k)) :
      Step c { c with cycles := c.cycles.put (.worker n) (.measuring k) }
  /-- A cycle ends after its run. -/
  | closes {n k : Nat} {last : Bool} {f : Option Failure}
      (hw : c.control.worker? n = some (.cycling last))
      (hy : c.cycles.get? (.worker n) = some (.measuring k)) :
      Step c { c with cycles := c.cycles.drop (.worker n)
                      control := c.control.setWorker n (.afterCycle last f) }

/-! ### The parts of a move -/

namespace Control

variable {c d e : Control} {t : Thread} {s s' : CallStage} {now : Time} {j j' : Journal}

lemma isSome_setCall (hs : c.calls.get? t = some s) (he : Rouses c e) (u : Thread) :
    ((e.setCall t s').calls.get? u).isSome = (c.calls.get? u).isSome := by
  change ((e.calls.put t s').get? u).isSome = _
  rw [Roster.get?_put]
  split
  · rename_i hu
    rw [hu, hs]
    rfl
  · rcases he u with hsame | hsame
    · rw [hsame]
    · rw [hsame, Option.isSome_map]

lemma isSome_of_rouses (h : Rouses c d) (u : Thread) :
    (d.calls.get? u).isSome = (c.calls.get? u).isSome := by
  rcases h u with hsame | hsame
  · rw [hsame]
  · rw [hsame, Option.isSome_map]

lemma cycling_of_turn (hs : c.calls.get? t = some s) (h : CallTurn c t now j s d j') {n : Nat}
    {last : Bool} (hw : c.worker? n = some (.cycling last)) :
    d.worker? n = some (.cycling last) := by
  rcases keepsWorkers_of_turn hs h with hk | hk
  · rw [worker?, hk.workers]
    exact hw
  · exact worker?_append hk.workers hw

lemma cycling_of_workerTurn {n m : Nat} {w : WorkerStage} {last : Bool} (hw : c.worker? n = some w)
    (h : WorkerTurn c n j w d j') (hm : c.worker? m = some (.cycling last)) :
    d.worker? m = some (.cycling last) := by
  obtain ⟨-, ⟨w', hs⟩, -⟩ := workers_of_turn h
  have hmn : m ≠ n := fun hmn => by
    rw [hmn, hw, Option.some.injEq] at hm
    rw [hm] at h
    cases h
  exact (worker?_set_ne hs (Ne.symm hmn)).trans hm

end Control

namespace Writer

variable {σ V : Type} {w v u : Writer σ V} {t : Thread} {a : CallOfWriter σ V} {n k : Nat}

lemma course_withQueue (w : Writer σ V) {q : SharedQueue Nat}
    (h : SharedQueue.SameLog w.queue q) :
    ({ w with queue := q } : Writer σ V).course = w.course := by
  simp only [course, h.items, h.accepted, h.removed]

lemma course_setCall (w : Writer σ V) (t : Thread) (a : CallOfWriter σ V) :
    (w.setCall t a).course = { w.course with calls := w.course.calls.put t a } := rfl

lemma course_log {n : Notice} {f : Option Failure} (h : w.log t n = (v, f)) :
    v.course = w.course := by
  obtain ⟨j, -, rfl⟩ := journal_of_log h
  rfl

lemma course_endCycle {last : Bool} (hw : w.control.worker? n = some (.cycling last))
    (f : Option Failure) :
    (w.endCycle n f).course = { w.course with
      cycles := w.course.cycles.drop (.worker n)
      control := w.course.control.setWorker n (.afterCycle last f) } := by
  rw [← Control.endCycle_eq (c := w.course.control) hw]
  rfl

/-! ### Calls -/

lemma step_goes {b : CallOfWriter σ V} {u : Writer σ V} (ha : w.calls.get? t = some a)
    (hi : a.beside = true) (hu : u.course = w.course) (hb : b.Plain) :
    w.course.Step (u.setCall t b).course := by
  rw [course_setCall, hu]
  exact .goes ha hi hb

lemma course_of_inControl (h : w.InControl t v) : w.course.Step v.course := by
  cases h with
  | rings _ _ =>
    rw [course_withQueue w (.wake _ t)]
    exact .rests
  | @wakes q hw hq =>
    obtain ⟨closing, hs⟩ := Control.waking_iff.mp hw
    have hc : ({ w with queue := q, control := w.control.woken t w.now } : Writer σ V).course =
        { w.course with control := w.control.woken t w.now } :=
      course_withQueue { w with control := w.control.woken t w.now } (.notify hq)
    rw [hc, Control.woken_eq hs]
    exact .control (j := w.journal) (.wakes hs)
      (Control.isSome_setCall hs (.of_eq rfl)) fun _ _ hn => hn
  | turns _ hs hturn =>
    obtain ⟨e, x, rfl, hr, -⟩ := Control.eq_setCall_of_turn hturn
    exact .control (.calls hs hturn) (Control.isSome_setCall hs hr) fun _ _ hn =>
      Control.cycling_of_turn hs hturn hn

section Logs

variable {x : Notice} {b : Option Failure → CallOfWriter σ V}

lemma Logs.counts (h : w.Logs a u x b) :
    ∃ dropped timedOut, u = { w with dropped := dropped, timedOut := timedOut } := by
  cases h with
  | loses => exact ⟨w.dropped + 1, _, rfl⟩
  | expires => exact ⟨_, w.timedOut + 1, rfl⟩
  | reports | closes | complains | threw _ | interrupted => exact ⟨_, _, rfl⟩

lemma Logs.beside (h : w.Logs a u x b) (f : Option Failure) : a.beside = true ∧ (b f).Plain := by
  cases h with
  | reports =>
    cases f with
    | none => exact ⟨rfl, CallOfWriter.plain_afterWalk _⟩
    | some f => exact ⟨rfl, CallOfWriter.plain_faultOfWalk f _⟩
  | closes => exact ⟨rfl, CallOfWriter.plain_afterStop ..⟩
  | complains => cases f <;> exact ⟨rfl, rfl, rfl, rfl⟩
  | loses | threw _ | expires | interrupted => exact ⟨rfl, rfl, rfl, rfl⟩

lemma Logs.course (h : w.Logs a u x b) {f : Option Failure} (hl : u.log t x = (v, f)) :
    v.course = w.course := by
  obtain ⟨d, m, rfl⟩ := h.counts
  exact (course_log hl).trans rfl

end Logs

theorem course_of_call (ha : w.calls.get? t = some a) (h : w.CallMoves t a v) :
    w.course.Step v.course := by
  cases h with
  | inside _ h => exact course_of_inControl h
  | leaves hi hr => exact .leaves ha hi hr
  | walks => exact .walks ha (CallOfWriter.plain_walked ..)
  | logs hx hl =>
    obtain ⟨hi, hb⟩ := hx.beside _
    exact step_goes ha hi (hx.course hl) hb
  | stops _ => exact .stops ha
  | discards _ => exact .discards ha
  | clears => exact .clears ha
  | admits hp => exact .admits ha hp
  | makes he => exact .makes ha (Envelope.fresh_of_make he).1
  | @offers s k q hq =>
    obtain ⟨hi, hacc, hrem⟩ := SharedQueue.offer_true hq
    have hc : (({ w with queue := q } : Writer σ V).setCall t (.writing s (.notifying k))).course =
        { w.course with pending := w.course.pending ++ [k]
                        accepted := k :: w.course.accepted
                        calls := w.course.calls.put t (.writing s (.notifying k)) } := by
      simp only [course, setCall, hi, hacc, hrem]
    rw [hc]
    exact .offers ha
  | notifies hq => exact step_goes ha rfl (course_withQueue w (.notify hq)) ⟨rfl, rfl, rfl⟩
  | collects _ => exact .collects ha
  | refuses _ | breaks _ | misses _ | submits _ | awaits _ | hears _ =>
    exact .goes ha rfl ⟨rfl, rfl, rfl⟩

/-! ### Cycles -/

lemma step_breaks {b : BodyStage σ V} {u : Writer σ V} {last : Bool} {e : Failure}
    (hw : w.control.worker? n = some (.cycling last))
    (hy : w.cycles.get? (.worker n) = some (.running k b)) (hb : b.isCalling = false)
    (hu : u.course = w.course) : w.course.Step ((u.markDone k).endCycle n (some e)).course := by
  have hc : ((u.markDone k).endCycle n (some e)).course = { w.course with
      done := k :: w.course.done, cycles := w.course.cycles.drop (.worker n)
      control := w.course.control.setWorker n (.afterCycle last (some e)) } := by
    have hctl : u.control = w.control := congrArg Course.control hu
    rw [course_endCycle (w := u.markDone k) (hctl ▸ hw), ← hu]
    rfl
  rw [hc]
  exact .breaks hw hy hb

lemma course_of_body {e : Envelope σ V} {b : BodyStage σ V} {last : Bool}
    (hw : w.control.worker? n = some (.cycling last))
    (hy : w.cycles.get? (.worker n) = some (.running k b)) (h : w.BodyMoves n k e b v) :
    w.course.Step v.course := by
  cases h with
  | @turns _ _ d _ h =>
    have hb : b.isCalling = false := by cases h <;> rfl
    exact .body hy hb d.grows
  | reports _ _ =>
    have hstep : w.course.Step { w.course with
        envelopes := changeCellAt w.course.envelopes k id
        cycles := w.course.cycles.put (.worker n) (.running k (.verdict false)) } :=
      .body hy rfl fun a => .refl a
    rwa [changeCellAt_id] at hstep
  | enters _ _ hi hs => exact .bodyEnters hy rfl hi hs
  | writes _ _ => exact .bodyWrites hy rfl
  | returns hr => exact .bodyReturns hy hr
  | succeeds | fails _ => exact .finishes hy rfl
  | garbles _ _ => exact step_breaks (u := { w with journal := _ }) hw hy rfl rfl
  | spoils _ => exact step_breaks (u := { w with ledger := _, journal := _ }) hw hy rfl rfl

theorem course_of_work (h : w.WorkMoves n v) : w.course.Step v.course := by
  cases h with
  | works _ hx ht =>
    have hs : w.control.Step w.now w.journal _ _ := .works hx ht
    exact .control hs (Control.isSome_of_rouses (Control.rouses_of_turn ht))
      fun m last hm => Control.cycling_of_workerTurn hx ht hm
  | @takes last hw hy =>
    -- what the take gives decides how the cycle goes on
    have hp := SharedQueue.popped_pop w.queue (.worker n)
    generalize (w.queue.pop (.worker n)).1 = x at hp
    generalize (w.queue.pop (.worker n)).2 = q at hp
    cases x with
    | none =>
      have hq : SharedQueue.SameLog w.queue q :=
        ⟨hp.items.symm, hp.accepted, hp.removed, hp.size⟩
      have hc : (({ w with queue := q } : Writer σ V).tookTicket n none).course = { w.course with
          cycles := w.course.cycles.drop (.worker n)
          control := w.course.control.setWorker n (.afterCycle last none) } := by
        rw [← course_withQueue w hq]
        exact course_endCycle (w := { w with queue := q }) hw none
      rw [hc]
      exact .idles hw hy
    | some k =>
      have hc : (({ w with queue := q } : Writer σ V).tookTicket n (some k)).course =
          { w.course with pending := q.items, removed := k :: w.course.removed
                          cycles := w.course.cycles.put (.worker n) (.dequeued k) } := by
        change ({ w.course with pending := q.items, accepted := q.accepted, removed := q.removed
                                cycles := _ } : Course σ V) = _
        rw [hp.accepted, hp.removed]
        rfl
      rw [hc]
      exact .takes hw hy hp.items
  | waits _ _ _ _ =>
    rw [course_withQueue w ⟨rfl, rfl, rfl, rfl⟩]
    exact .rests
  | opens _ hy _ => exact .opens hy
  | body hw hy _ h => exact course_of_body hw hy h
  | counts _ hy => exact .counts hy
  | @measures _ _ f l j hw hy _ =>
    rw [course_endCycle (w := { w with ledger := l, journal := j }) hw f]
    exact .closes hw hy

/-! ### Moves -/

theorem step_course {m : Move σ V} (h : w.step m = some v) : w.course.Step v.course := by
  cases moves_of_step h with
  | @begins k r hn =>
    cases r with
    | start spawns => exact .enters hn rfl rfl
    | stop => exact .enters hn rfl rfl
    | write s => exact .requests hn ⟨rfl, rfl, rfl⟩
    | destroy => exact .requests hn ⟨rfl, rfl, rfl⟩
  | runs h =>
    cases h with
    | calls ha h => exact course_of_call ha h
    | works _ h => exact course_of_work h
  | acknowledges hr => exact .acknowledges hr
  | @stirs t s hs =>
    have hstep : w.control.Step w.now w.journal (w.control.setCall t s.roused) w.journal :=
      .stirs hs
    exact .control hstep (Control.isSome_setCall hs (.of_eq rfl)) fun _ _ hn => hn
  | @rouses t _ =>
    rw [course_withQueue w (.rouse _ t)]
    exact .rests
  | opensGate | opensAll | arms | passes => exact .rests

end Writer

end SerialWriter
