import SerialWriter.Proofs.Control.Advance
import SerialWriter.Proofs.Queue.Signals
import SerialWriter.Proofs.Writer.Conduct

/-!
What a thread does when it goes on: to the flag of the queue and those who wait at it, to its own
cycle, and to the worker threads. A thread touches no cycle but its own.
-/

namespace SerialWriter

variable {σ V : Type}

/-- No worker moves, but one may be created. -/
structure Control.SparesWorkers (c d : Control) : Prop where
  cycles : d.cycles = c.cycles
  workers : d.workers = c.workers ∨ d.workers = c.workers ++ [.created]

namespace Control.SparesWorkers

variable {c d : Control} {n : Nat} {s : WorkerStage}

lemma of_eq (hc : d.cycles = c.cycles) (hw : d.workers = c.workers) : c.SparesWorkers d :=
  ⟨hc, .inl hw⟩

lemma worker? (h : c.SparesWorkers d) (hs : c.worker? n = some s) : d.worker? n = some s := by
  rcases h.workers with hw | hw
  · rw [Control.worker?, hw]
    exact hs
  · exact worker?_append hw hs

lemma of_turn {t : Thread} {now : Time} {j j' : Journal} {a : CallStage}
    (ha : c.calls.get? t = some a) (h : CallTurn c t now j a d j') : c.SparesWorkers d := by
  rcases keepsWorkers_of_turn ha h with hk | hk
  · exact ⟨hk.cycles, .inl hk.workers⟩
  · exact ⟨hk.cycles, .inr hk.workers⟩

end Control.SparesWorkers

lemma Ledger.noteDepth_of_unarmed {l l' : Ledger} {now : Time} {pending : Nat} {t : Thread}
    {j j' : Journal} {f : Option Failure} (h : l.noteDepth now pending t j = (f, l', j'))
    (hj : j.armed = none) : f = none := by
  unfold noteDepth at h
  split at h
  · split at h
    · cases h
      rfl
    · rename_i hl
      cases Journal.fault_of_unarmed hl hj
  · cases h
    rfl

namespace Writer

variable {w v u : Writer σ V} {t : Thread} {a b : CallOfWriter σ V} {n k : Nat}

/-- **What a step of a call does at the queue.** -/
inductive Deals (t : Thread) (a : CallOfWriter σ V) (w v : Writer σ V) : Prop
  /-- Nothing that a waiting consumer could notice. -/
  | rests (ha : v.queue.queue.awake = w.queue.queue.awake) (hs : v.queue.stages = w.queue.stages)
      (hn : ∀ s k, a ≠ .writing s (.notifying k))
      (hw : a.inControl = true → w.control.waking t = false)
      (hv : ∀ s k, v.calls.get? t ≠ some (.writing s (.notifying k)))
  /-- A write makes its offer and is about to notify. -/
  | offers {s : Submission σ V} {k : Nat} (he : a = .writing s (.offering k))
      (ha : v.queue.queue.awake = w.queue.queue.awake)
      (hs : v.queue.stages = w.queue.stages.put t (.notifying false))
      (hc : v.calls = w.calls.put t (.writing s (.notifying k)))
  /-- A write notifies. -/
  | tells {s : Submission σ V} {k : Nat} {chosen : Option Thread}
      (he : a = .writing s (.notifying k)) (hq : w.queue.Notifies t chosen v.queue)
      (hv : ∀ s k, v.calls.get? t ≠ some (.writing s (.notifying k)))
  /-- A stop raises the flag. -/
  | rings (hw : w.control.waking t = true) (hn : ∀ b, w.queue.stages.get? t ≠ some (.notifying b))
      (hv : v = { w with queue := w.queue.wake t })
  /-- A stop notifies, and has woken the worker. -/
  | wakes (hw : w.control.waking t = true) (hq : w.queue.Notifies t none v.queue)
      (hc : v.control = w.control.woken t w.now)
      (hv : ∀ s k, v.calls.get? t ≠ some (.writing s (.notifying k)))

/-- **What `t` does when it goes on.** -/
inductive Goes (t : Thread) (w v : Writer σ V) : Prop
  /-- It goes on with its call. -/
  | calls {a : CallOfWriter σ V} (ha : w.calls.get? t = some a) (hy : v.cycles = w.cycles)
      (hk : w.control.SparesWorkers v.control) (hq : Deals t a w v)
  /-- It is a worker between cycles. -/
  | works {n : Nat} {s : WorkerStage} (ht : t = .worker n) (hr : w.Rests t)
      (hs : w.control.worker? n = some s)
      (hturn : WorkerTurn w.control n w.journal s v.control v.journal) (hy : v.cycles = w.cycles)
      (hq : v.queue = w.queue)
  /-- It is a worker, and its take ends. -/
  | takes {n : Nat} {last : Bool} (ht : t = .worker n) (hr : w.Rests t)
      (hw : w.control.worker? n = some (.cycling last)) (hy : w.cycles.get? t = none)
      (hv : v = ({ w with queue := (w.queue.pop t).2 } : Writer σ V).tookTicket n (w.queue.pop t).1)
  /-- It is a worker, and its take has to wait. -/
  | waits {n : Nat} {last : Bool} {d : Time} (ht : t = .worker n) (hr : w.Rests t)
      (hw : w.control.worker? n = some (.cycling last)) (hy : w.cycles.get? t = none)
      (hl : last = true → ∃ d b, w.queue.stages.get? t = some (.waiting d b))
      (hs : w.queue.queue.settled = false)
      (hv : v = { w with
        queue := { w.queue with stages := w.queue.stages.put t (.waiting d false) } })
  /-- It is a worker with a ticket in hand. Only a line of the log can break its cycle. -/
  | cycles {n : Nat} {last : Bool} {y : CycleStage σ V} (ht : t = .worker n) (hr : w.Rests t)
      (hw : w.control.worker? n = some (.cycling last)) (hy : w.cycles.get? t = some y)
      (ho : ∀ u, u ≠ t → v.cycles.get? u = w.cycles.get? u)
      (hc : v.control.cycles = w.control.cycles)
      (hk : (v.control.workers = w.control.workers ∧ ∃ y', v.cycles.get? t = some y') ∨
        ∃ e, (w.journal.armed = none → e = none) ∧
          v.control.workers = w.control.workers.set n (.afterCycle last e))
      (hq : v.queue = w.queue)

/-! ### Calls -/

/-- What a step of the call `a` of `t` does to the cycles, the workers and the queue. -/
structure CallGoes (t : Thread) (a : CallOfWriter σ V) (w v : Writer σ V) : Prop where
  cycles : v.cycles = w.cycles
  workers : w.control.SparesWorkers v.control
  deals : Deals t a w v

namespace CallGoes

lemma aside (hy : u.cycles = w.cycles) (hc : u.control = w.control) (hq : u.queue = w.queue)
    (hn : ∀ s k, a ≠ .writing s (.notifying k)) (hb : ∀ s k, b ≠ .writing s (.notifying k))
    (hi : a.inControl = false) : CallGoes t a w (u.setCall t b) := by
  refine ⟨hy, .of_eq (congrArg Control.cycles hc) (congrArg Control.workers hc),
    .rests (congrArg (·.queue.awake) hq) (congrArg SharedQueue.stages hq) hn
      (fun h => nomatch hi.symm.trans h) fun s k hv => hb s k ?_⟩
  rw [setCall, Roster.get?_put_self] at hv
  exact Option.some.inj hv

end CallGoes

lemma ne_notifying_of_isWrite (hw : a.isWrite = false) (s : Submission σ V) (k : Nat) :
    a ≠ .writing s (.notifying k) := by
  rintro rfl
  cases hw

lemma of_setCall (hb : b.isWrite = false) (s : Submission σ V) (k : Nat) :
    (u.setCall t b).calls.get? t ≠ some (.writing s (.notifying k)) := fun hv =>
  ne_notifying_of_isWrite hb s k (Option.some.inj ((Roster.get?_put_self ..).symm.trans hv))

lemma goes_of_inControl (ha : w.calls.get? t = some a) (hi : a.inControl = true)
    (h : w.InControl t v) : CallGoes t a w v := by
  have hn : ∀ s k, a ≠ .writing s (.notifying k) :=
    ne_notifying_of_isWrite (CallOfWriter.isWrite_of_inControl hi)
  have hv : ∀ s k, w.calls.get? t ≠ some (.writing s (.notifying k)) := fun s k hc =>
    hn s k (Option.some.inj (ha.symm.trans hc))
  cases h with
  | rings hw hne => exact ⟨rfl, .of_eq rfl rfl, .rings hw hne rfl⟩
  | wakes hw hq =>
    obtain ⟨closing, hc⟩ := Control.waking_iff.mp hw
    refine ⟨rfl, ?_, .wakes hw (SharedQueue.notifies_of_notify hq) rfl hv⟩
    rw [Control.woken_eq hc]
    exact .of_eq rfl rfl
  | turns hw hs hturn => exact ⟨rfl, .of_turn hs hturn, .rests rfl rfl hn (fun _ => hw) hv⟩

lemma Logs.quiet {x : Notice} {g : Option Failure → CallOfWriter σ V} (h : w.Logs a u x g) :
    a.inControl = false ∧ ∀ s k, a ≠ .writing s (.notifying k) := by
  cases h <;> exact ⟨rfl, by simp⟩

/-- **A call goes on.** -/
lemma goes_of_call (ha : w.calls.get? t = some a) (h : w.CallMoves t a v) : CallGoes t a w v := by
  cases h with
  | inside hi h => exact goes_of_inControl ha hi h
  | leaves hi hr =>
    refine ⟨rfl, .of_eq rfl rfl, .rests rfl rfl
      (ne_notifying_of_isWrite (CallOfWriter.isWrite_of_inControl hi)) (fun _ => ?_)
      (of_setCall (CallOfWriter.isWrite_afterControl hi _))⟩
    rw [Control.waking, hr]
  | walks =>
    exact .aside rfl rfl rfl (by simp)
      (ne_notifying_of_isWrite (CallOfWriter.isWrite_walked ..)) rfl
  | logs hx hl =>
    have hb := fun f => ne_notifying_of_isWrite (hx.isWrite f)
    obtain ⟨hi, hn⟩ := hx.quiet
    obtain ⟨d, m, rfl⟩ := hx.counts
    obtain ⟨j, -, rfl⟩ := journal_of_log hl
    exact .aside (u := { w with dropped := d, timedOut := m, journal := j }) rfl rfl rfl hn
      (hb _) hi
  | stops _ | clears =>
    exact ⟨rfl, .of_eq rfl rfl,
      .rests rfl rfl (by simp) (by simp [CallOfWriter.inControl]) (of_setCall rfl)⟩
  | offers hq =>
    obtain ⟨ha, hs⟩ := SharedQueue.offer_stages hq
    exact ⟨rfl, .of_eq rfl rfl, .offers rfl ha hs rfl⟩
  | notifies hq =>
    exact ⟨rfl, .of_eq rfl rfl, .tells rfl (SharedQueue.notifies_of_notify hq) fun s k' hv =>
      by cases (Roster.get?_put_self ..).symm.trans hv⟩
  | discards _ | admits _ | refuses _ | breaks _ | makes _ | misses _ | submits _ | awaits _
  | hears _ | collects _ => exact .aside rfl rfl rfl (by simp) (by simp) rfl

/-! ### Cycles -/

/-- What a step of worker `n` with a ticket in hand does: it moves nothing but itself. -/
structure CycleGoes (n : Nat) (last : Bool) (w v : Writer σ V) : Prop where
  others : ∀ u, u ≠ .worker n → v.cycles.get? u = w.cycles.get? u
  cycles : v.control.cycles = w.control.cycles
  workers : (v.control.workers = w.control.workers ∧ ∃ y, v.cycles.get? (.worker n) = some y) ∨
    ∃ e, (w.journal.armed = none → e = none) ∧
      v.control.workers = w.control.workers.set n (.afterCycle last e)
  queue : v.queue = w.queue

namespace CycleGoes

variable {last : Bool}

lemma on {y : CycleStage σ V} (hy : u.cycles = w.cycles)
    (hc : u.control.cycles = w.control.cycles) (hw : u.control.workers = w.control.workers)
    (hq : u.queue = w.queue) : CycleGoes n last w (u.setCycle n y) :=
  ⟨fun _ hu => (Roster.get?_put_ne _ _ hu).trans (hy ▸ rfl), hc,
    .inl ⟨hw, y, Roster.get?_put_self ..⟩, hq⟩

lemma out (hw : w.control.worker? n = some (.cycling last)) (hy : u.cycles = w.cycles)
    (hc : u.control = w.control) (hq : u.queue = w.queue) {e : Option Failure}
    (he : w.journal.armed = none → e = none) : CycleGoes n last w (u.endCycle n e) := by
  have hend : (u.endCycle n e).control = w.control.setWorker n (.afterCycle last e) := by
    rw [← Control.endCycle_eq hw, ← hc]
    rfl
  refine ⟨fun _ hu => (Roster.get?_drop_ne _ hu).trans (hy ▸ rfl), ?_, .inr ⟨e, he, ?_⟩, hq⟩
  · rw [hend]
    rfl
  · rw [hend]
    rfl

end CycleGoes

lemma goes_of_body {last : Bool} {e : Envelope σ V} {b : BodyStage σ V}
    (hw : w.control.worker? n = some (.cycling last)) (h : w.BodyMoves n k e b v) :
    CycleGoes n last w v := by
  cases h with
  | turns _ | reports _ _ | enters _ _ _ _ | writes _ _ | returns _ | succeeds | fails _ =>
    exact .on rfl rfl rfl rfl
  | @garbles _ x j _ hl =>
    exact .out (u := ({ w with journal := j } : Writer σ V).markDone k) hw rfl rfl rfl
      (Journal.fault_of_unarmed hl)
  | @spoils x j hl =>
    exact .out (u := { w.markDone k with ledger := _, journal := j }) hw rfl rfl rfl
      (Journal.fault_of_unarmed hl)

/-- **A worker goes on** outside calls. -/
lemma goes_of_work (hr : w.Rests (.worker n)) (h : w.WorkMoves n v) : Goes (.worker n) w v := by
  have hgoes : ∀ {last : Bool} {y : CycleStage σ V},
      w.control.worker? n = some (.cycling last) → w.cycles.get? (.worker n) = some y →
      CycleGoes n last w v → Goes (.worker n) w v := fun hw hy hg =>
    .cycles rfl hr hw hy hg.others hg.cycles hg.workers hg.queue
  cases h with
  | works _ hs hturn => exact .works rfl hr hs hturn rfl rfl
  | takes hw hy => exact .takes rfl hr hw hy rfl
  | waits hw hy hl hs => exact .waits rfl hr hw hy hl hs rfl
  | opens hw hy _ => exact hgoes hw hy (.on rfl rfl rfl rfl)
  | body hw hy _ h => exact hgoes hw hy (goes_of_body hw h)
  | counts hw hy => exact hgoes hw hy (.on rfl rfl rfl rfl)
  | @measures _ _ _ l j hw hy hd =>
    exact hgoes hw hy (.out (u := { w with ledger := l, journal := j }) hw rfl rfl rfl
      (Ledger.noteDepth_of_unarmed hd))

theorem goes_of_run (h : w.run t = some v) : Goes t w v := by
  cases moves_of_run h with
  | calls ha h =>
    obtain ⟨hy, hk, hq⟩ := goes_of_call ha h
    exact .calls ha hy hk hq
  | works hr h => exact goes_of_work hr h

/-! ### Every move -/

/-- **What any other move does**: it takes nobody further, but may tell someone to look again. -/
structure Aside (w v : Writer σ V) : Prop where
  cycles : v.cycles = w.cycles
  workers : w.control.SparesWorkers v.control
  calls : ∀ t a, w.calls.get? t = some a → (∀ r, a ≠ .ended r) → v.calls.get? t = some a
  queue : w.queue.Rouses v.queue

lemma Aside.of_eq (hy : v.cycles = w.cycles) (hk : v.control.cycles = w.control.cycles)
    (hw : v.control.workers = w.control.workers) (hc : v.calls = w.calls) (hq : v.queue = w.queue) :
    Aside w v :=
  ⟨hy, .of_eq hk hw, fun _ _ ha _ => hc ▸ ha, .of_eq (hq ▸ rfl) (hq ▸ rfl)⟩

theorem goes_of_step {m : Move σ V} (h : w.step m = some v) :
    (∃ t, m = .run t ∧ Goes t w v) ∨ (∀ t, m ≠ .run t) ∧ Aside w v := by
  cases moves_of_step h with
  | @runs t _ _ => exact .inl ⟨t, rfl, goes_of_run h⟩
  | @begins c r hn =>
    have hput : ∀ (b : CallOfWriter σ V) (t : Thread) (a : CallOfWriter σ V),
        w.calls.get? t = some a → (∀ r, a ≠ .ended r) →
        (w.calls.put (.client c) b).get? t = some a := by
      intro b t a ha _
      refine (Roster.get?_put_ne _ _ ?_).trans ha
      rintro rfl
      exact nomatch hn.symm.trans ha
    cases r <;> exact .inr ⟨by simp, rfl, .of_eq rfl rfl, hput _, .of_eq rfl rfl⟩
  | acknowledges hr =>
    refine .inr ⟨by simp, rfl, .of_eq rfl rfl, fun t a ha hne => ?_, .of_eq rfl rfl⟩
    refine (Roster.get?_drop_ne _ ?_).trans ha
    rintro rfl
    exact hne _ (Option.some.inj (ha.symm.trans hr))
  | rouses _ => exact .inr ⟨by simp, rfl, .of_eq rfl rfl, fun _ _ ha _ => ha, .rouse _ _⟩
  | stirs _ | opensGate | opensAll | arms | passes =>
    exact .inr ⟨by simp, .of_eq rfl rfl rfl rfl rfl⟩

end Writer

end SerialWriter
