import SerialWriter.Proofs.Writer.Stops
import SerialWriter.Proofs.Writer.Wakes

/-!
Calls that a task makes of its own writer. While the call lasts the worker is in a cycle, so the
writer is running or stopping, nobody else runs a task, and whoever waits for the worker waits for
the caller: where such a call may stand, and what it is told.
-/

namespace SerialWriter

variable {σ V : Type}

/-! ### Calls from inside a task -/

/-- A call that a task makes of its own writer. -/
inductive TaskCall (σ V : Type)
  | start
  | stop
  | write (s : Submission σ V)

def Program.asks : Program σ V → Option (TaskCall σ V)
  | .start _ => some .start
  | .stop _ => some .stop
  | .write work id wait _ => some (.write { work, id, wait })
  | _ => none

def WriteStage.ticket? : WriteStage → Option Nat
  | .offering k | .notifying k | .counting k | .waiting k _ | .told k _ => some k
  | .checking | .creating | .losing => none

/-- How a stop is refused that has not seen the worker end. -/
def Control.expiry (c : Control) : Refusal := .stopExpired c.config.name c.config.shutdownLimit

namespace Writer

variable {w v u x y z : Writer σ V} {t : Thread} {n k : Nat} {a : CallOfWriter σ V}
  {q : TaskCall σ V} {m : Move σ V} {es : List (Event σ V)}

/-- **Where a call that a task makes may stand.** -/
inductive Stands (w : Writer σ V) (t : Thread) : TaskCall σ V → CallOfWriter σ V → Prop
  | starts (hs : w.control.calls.get? t = some (.start true .entering)) :
      Stands w t .start .starting
  | refused {p : Phase} (hp : p = .running ∨ p = .stopping) (hs : w.control.calls.get? t =
      some (.ended (.error (.refused (.startWhile w.control.config.name p))))) :
      Stands w t .start .starting
  | started {p : Phase} (hp : p = .running ∨ p = .stopping) :
      Stands w t .start (.ended (.error (.refused (.startWhile w.control.config.name p))))
  | stops (hs : w.control.calls.get? t = some (.stop false .entering)) :
      Stands w t .stop (.stopping false)
  | wakes (hp : w.phase = .stopping) (hs : w.control.calls.get? t = some (.stop false .waking)) :
      Stands w t .stop (.stopping false)
  | awaits {d : Time} {b : Bool} (hp : w.phase = .stopping)
      (hs : w.control.calls.get? t = some (.stop false (.waiting d b))) :
      Stands w t .stop (.stopping false)
  | expires (hp : w.phase = .stopping)
      (hs : w.control.calls.get? t = some (.ended (.error (.refused w.control.expiry)))) :
      Stands w t .stop (.stopping false)
  | walks (hp : w.phase = .stopping) : Stands w t .stop (.walking (.refuse false w.control.expiry))
  | reports {i : Nat} (hp : w.phase = .stopping) :
      Stands w t .stop (.reporting i (.refuse false w.control.expiry))
  | stopped (hp : w.phase = .stopping) :
      Stands w t .stop (.ended (.error (.refused w.control.expiry)))
  /-- A write whose own task has not been run. -/
  | writes {s : Submission σ V} {stage : WriteStage} (hn : ∀ i, stage ≠ .told i .ready)
      (hc : ∀ i, stage.ticket? = some i → (w.cell i).ready = false) :
      Stands w t (.write s) (.writing s stage)
  | written {s : Submission σ V} {r : Except Failure (Option V)} :
      Stands w t (.write s) (.ended r)

/-! ### What holds while a worker runs a task -/

lemma phase_of_cycle (hl : w.course.Linked) {y : CycleStage σ V}
    (hy : w.cycles.get? (.worker n) = some y) : w.phase = .running ∨ w.phase = .stopping := by
  obtain ⟨last, hw⟩ := hl.cycling hy
  exact (WorkerStage.phase_of_cycle (.inr rfl) (hl.orderly.staffed.fits_of_present hw rfl)).1

lemma not_running_of_step (hl : w.course.Linked) (hp : w.phase = .stopping)
    (hs : w.step m = some v) : v.phase ≠ .running := by
  rcases hl.control_step (step_course hs) with hc | ⟨now, j, j', hc⟩
  · rw [phase, show v.control = w.control from hc, show w.control.phase = .stopping from hp]
    decide
  · obtain ⟨ev, ha⟩ := hl.orderly.advance hc
    exact ha.past_running hp

lemma config_of_step (hl : w.course.Linked) (hs : w.step m = some v) :
    v.control.config = w.control.config := by
  rcases hl.control_step (step_course hs) with hc | ⟨now, j, j', hc⟩
  · exact congrArg Control.config hc
  · exact hl.orderly.config_of_step hc

/-- **While a worker is inside a call, no cell is resolved.** -/
lemma ready_of_step (hl : w.course.Linked) {g : Except Failure (Option V) → BodyStage σ V}
    (hy : w.cycles.get? (.worker n) = some (.running k (.calling g))) (hs : w.step m = some v)
    (i : Nat) (hr : (v.cell i).ready = true) : (w.cell i).ready = true := by
  obtain ⟨last, hw⟩ := hl.cycling hy
  change (cellAt v.course.envelopes i).ready = true at hr
  change (cellAt w.course.envelopes i).ready = true
  have hstep := step_course hs
  generalize v.course = d at hstep hr
  cases hstep with
  | walks _ _ => exact (apply_cellAt_interruptAt Cell.ready (fun _ => rfl) ..).symm.trans hr
  | makes _ he => exact cellAt_push he i ▸ hr
  | collects _ => exact (apply_cellAt_take Cell.ready (fun _ => rfl) ..).symm.trans hr
  | @body n' _ _ _ _ hy' hb _ =>
    -- the only worker with a ticket in hand is inside the call
    by_cases hn : n' = n
    · subst hn
      obtain rfl := (CycleStage.running.inj (Option.some.inj (hy'.symm.trans hy))).2
      cases hb
    · have hnone := hl.others hw hn
      cases hnone.symm.trans hy'
  | _ => exact hr

/-! ### Everybody else -/

lemma Keeps.of_roused {c d : Control} {s : CallStage} (h : Keeps c d t)
    (hs : c.calls.get? t = some s) (hr : s.roused = s) : d.calls.get? t = some s := by
  rcases h with h | h
  · exact h.trans hs
  · rw [h, hs, Option.map_some, hr]

lemma Keeps.of_waiting {c d : Control} {d' : Time} {b closing : Bool} (h : Keeps c d t)
    (hs : c.calls.get? t = some (.stop closing (.waiting d' b))) :
    ∃ b', d.calls.get? t = some (.stop closing (.waiting d' b')) := by
  rcases h with h | h
  · exact ⟨b, h.trans hs⟩
  · exact ⟨true, by rw [h, hs]; rfl⟩

/-- **A call stands where it stood** while others go on. -/
lemma Stands.aside (h : Stands w t q a) (hk : Keeps w.control v.control t)
    (hg : v.control.config = w.control.config) (hp : w.phase = .stopping → v.phase = .stopping)
    (hr : ∀ i, (v.cell i).ready = true → (w.cell i).ready = true) : Stands v t q a := by
  have hname : w.control.config.name = v.control.config.name := by rw [hg]
  have hexpiry : w.control.expiry = v.control.expiry := by rw [Control.expiry, Control.expiry, hg]
  cases h with
  | starts hs => exact .starts (hk.of_roused hs rfl)
  | refused hp' hs => exact .refused hp' (hname ▸ hk.of_roused hs rfl)
  | started hp' =>
    rw [hname]
    exact .started hp'
  | stops hs => exact .stops (hk.of_roused hs rfl)
  | wakes hp' hs => exact .wakes (hp hp') (hk.of_roused hs rfl)
  | awaits hp' hs =>
    obtain ⟨b, hb⟩ := hk.of_waiting hs
    exact .awaits (hp hp') hb
  | expires hp' hs => exact .expires (hp hp') (hexpiry ▸ hk.of_roused hs rfl)
  | walks hp' =>
    rw [hexpiry]
    exact .walks (hp hp')
  | reports hp' =>
    rw [hexpiry]
    exact .reports (hp hp')
  | stopped hp' =>
    rw [hexpiry]
    exact .stopped (hp hp')
  | writes hn hc =>
    exact .writes hn fun i hi => Bool.eq_false_iff.mpr fun hv =>
      Bool.false_ne_true ((hc i hi).symm.trans (hr i hv))
  | written => exact .written

/-! ### The call itself -/

lemma CallMoves.inControl (h : w.CallMoves t a v) (hi : a.inControl = true) :
    w.InControl t v ∨ ∃ r, w.control.calls.get? t = some (.ended r) ∧
      v = ({ w with control := w.control.acknowledge t } : Writer σ V).setCall t
        (a.afterControl r) := by
  cases h with
  | inside _ h => exact .inl h
  | leaves _ hr => exact .inr ⟨_, hr, rfl⟩
  | logs hx _ => cases hx <;> cases hi
  | _ => cases hi

lemma InControl.turn {s : CallStage} (h : w.InControl t v) (hs : w.control.calls.get? t = some s)
    (hw : ∀ closing, s ≠ .stop closing .waking) :
    ∃ d j, CallTurn w.control t w.now w.journal s d j ∧
      v = { w with control := d, journal := j } := by
  cases h with
  | rings h _ | wakes h _ => cases (Control.waking_eq_false hs hw).symm.trans h
  | turns _ hs' hturn =>
    obtain rfl := Option.some.inj (hs.symm.trans hs')
    exact ⟨_, _, hturn, rfl⟩

lemma CallMoves.stays {s : CallStage} (h : w.CallMoves t a v) (hi : a.inControl = true)
    (hs : w.control.calls.get? t = some s) (hr : ∀ r, s ≠ .ended r) : w.InControl t v := by
  rcases h.inControl hi with h | ⟨r, hr', -⟩
  · exact h
  · exact absurd (Option.some.inj (hs.symm.trans hr')) (hr r)

lemma CallMoves.left {r : Except Failure Unit} (h : w.CallMoves t a v) (hi : a.inControl = true)
    (hs : w.control.calls.get? t = some (.ended r)) :
    v = ({ w with control := w.control.acknowledge t } : Writer σ V).setCall t
      (a.afterControl r) := by
  rcases h.inControl hi with h | ⟨r', hr', hv⟩
  · obtain ⟨_, _, hturn, -⟩ := h.turn hs nofun
    cases hturn
  · obtain rfl := CallStage.ended.inj (Option.some.inj (hs.symm.trans hr'))
    exact hv

/-- **A call that is over** lets the task go on. -/
lemma returns_of_run (hl : w.course.Linked) {g : Except Failure (Option V) → BodyStage σ V}
    (hy : w.cycles.get? (.worker n) = some (.running k (.calling g)))
    {r : Except Failure (Option V)} (ha : w.calls.get? (.worker n) = some (.ended r))
    (hs : w.step (.run (.worker n)) = some v) :
    v = ({ w with calls := w.calls.drop (.worker n) } : Writer σ V).setBody n k (g r) := by
  obtain ⟨last, hw⟩ := hl.cycling hy
  have hmove := workMoves_of_run (fun a hb => ⟨r, Option.some.inj (hb.symm.trans ha)⟩) hs
  obtain ⟨e, -, hmove⟩ := bodyMoves_of_work hmove hw hy
  cases hmove with
  | turns h => cases h
  | returns hr =>
    obtain rfl := CallOfWriter.ended.inj (Option.some.inj (ha.symm.trans hr))
    rfl

/-- Nothing has changed but where `t` stands in its call and its cycle. -/
structure Idle (t : Thread) (w v : Writer σ V) : Prop where
  same : v = { w with calls := v.calls, cycles := v.cycles
                      control := { w.control with calls := v.control.calls } }
  calls : ∀ u, u ≠ t → v.calls.get? u = w.calls.get? u
  cycles : ∀ u, u ≠ t → v.cycles.get? u = w.cycles.get? u
  control : ∀ u, u ≠ t → v.control.calls.get? u = w.control.calls.get? u

/-- **How a write that a task makes ends**, by the step that ends it in `u`: with no value and no
failure of its own task. -/
inductive Fate (s : Submission σ V) (t : Thread) (u : Writer σ V) :
    Except Failure (Option V) → Prop
  | rejected (ha : u.calls.get? t = some (.writing s .checking)) (hp : u.phase.accepts = false) :
      Fate s t u (.error (.refused (.notAccepting u.config.name)))
  /-- The factory fails. -/
  | broken {e : Failure} (ha : u.calls.get? t = some (.writing s .creating))
      (hf : u.factory.map (fun f => f u.made) = some (.error e)) : Fate s t u (.error e)
  | dropped (ha : u.calls.get? t = some (.writing s .losing)) : Fate s t u (.ok none)
  /-- Nobody waits for the outcome. -/
  | unawaited {i : Nat} (ha : u.calls.get? t = some (.writing s (.counting i))) (hw : s.wait ≤ 0) :
      Fate s t u (.ok none)
  | expired {i : Nat} (ha : u.calls.get? t = some (.writing s (.told i .timeout))) :
      Fate s t u (.ok none)
  | interrupted {i : Nat} (ha : u.calls.get? t = some (.writing s (.told i .interrupted))) :
      Fate s t u (.ok none)

lemma fault_of_log {x : Notice} {f : Option Failure} (h : w.log t x = (u, f))
    (hq : w.journal.armed = none) : f = none := by
  obtain ⟨j, hj, -⟩ := journal_of_log h
  exact Journal.fault_of_unarmed hj hq

lemma Logs.fault {x : Notice} {f : Option Failure} {b : Option Failure → CallOfWriter σ V}
    (h : w.Logs a u x b) (hl : u.log t x = (v, f)) (hq : w.journal.armed = none) : f = none := by
  obtain ⟨_, _, rfl⟩ := h.counts
  exact fault_of_log hl hq

section Own

variable {g : Except Failure (Option V) → BodyStage σ V}

/-- **A start from inside a task** is refused, and leaves everything else alone. -/
lemma Stands.start_own (h : Stands w (.worker n) .start a) (hl : w.course.Linked)
    (hy : w.cycles.get? (.worker n) = some (.running k (.calling g)))
    (ha : w.calls.get? (.worker n) = some a) (hs : w.step (.run (.worker n)) = some v) :
    Idle (.worker n) w v ∧ (v.calls.get? (.worker n) = none ∨
      ∃ b, v.calls.get? (.worker n) = some b ∧ Stands v (.worker n) .start b) := by
  have hphase := phase_of_cycle hl hy
  cases h with
  | starts hst =>
    obtain ⟨d, j, hturn, rfl⟩ :=
      ((callMoves_of_run ha nofun hs).stays rfl hst nofun).turn hst nofun
    cases hturn with
    | start hturn =>
      cases hturn with
      | @refused e hf he =>
        have hp : ∃ p, (p = .running ∨ p = .stopping) ∧
            e = .startWhile w.control.config.name p := by
          rcases hphase with hp | hp
          · exact ⟨_, .inl rfl, by simpa [Control.startRefusal?, show w.control.phase = _ from hp]
              using he.symm⟩
          · exact ⟨_, .inr rfl, by simpa [Control.startRefusal?, show w.control.phase = _ from hp]
              using he.symm⟩
        obtain ⟨p, hp, rfl⟩ := hp
        refine ⟨⟨?_, fun _ _ => rfl, fun _ _ => rfl, fun u hu => Roster.get?_put_ne _ _ hu⟩,
          .inr ⟨_, ha, .refused hp (Roster.get?_put_self ..)⟩⟩
        simp only [Control.finish, Control.unlock, Control.setCall, ← hf]
      | admitted _ he =>
        rcases Control.startRefusal?_eq_none_iff.mp he with hp | hp <;>
          rcases hphase with hp' | hp' <;> cases hp'.symm.trans hp
  | refused hp hst =>
    obtain rfl := (callMoves_of_run ha nofun hs).left rfl hst
    exact ⟨⟨rfl, fun u hu => Roster.get?_put_ne _ _ hu, fun _ _ => rfl,
      fun u hu => Roster.get?_drop_ne _ hu⟩, .inr ⟨_, Roster.get?_put_self .., .started hp⟩⟩
  | started hp =>
    obtain rfl := returns_of_run hl hy ha hs
    exact ⟨⟨rfl, fun u hu => Roster.get?_drop_ne _ hu, fun u hu => Roster.get?_put_ne _ _ hu,
      fun _ _ => rfl⟩, .inl (Roster.get?_drop_self ..)⟩

lemma not_over_of_cycle (hl : w.course.Linked) {y : CycleStage σ V}
    (hy : w.cycles.get? (.worker n) = some y) :
    w.control.phase ≠ .terminated ∧ w.control.phase ≠ .failed := by
  rcases phase_of_cycle hl hy with hp | hp <;> rw [show w.control.phase = _ from hp] <;> decide

/-! One lemma for each stage at which a stop from inside a task is in the control. -/

lemma stands_of_entering (hl : w.course.Linked) (hq : w.journal.armed = none)
    (hy : w.cycles.get? (.worker n) = some (.running k (.calling g)))
    (hst : w.control.calls.get? (.worker n) = some (.stop false .entering))
    (h : w.InControl (.worker n) v) : Stands v (.worker n) .stop (.stopping false) := by
  obtain ⟨d, j, hturn, rfl⟩ := h.turn hst nofun
  cases hturn with
  | stop hturn =>
    cases hturn with
    | halted _ _ he => exact .wakes (Control.enter_frame he).1 (Roster.get?_put_self ..)
    | halts _ hp => exact .wakes hp (Roster.get?_put_self ..)
    | haltFault _ _ he => cases Journal.fault_of_unarmed (Control.enter_cases he).1 hq
    | retired _ hp _ _ => rcases phase_of_cycle hl hy with hp' | hp' <;> cases hp'.symm.trans hp
    | already _ hp => exact absurd hp (not_over_of_cycle hl hy).1
    | buries _ hp => exact absurd hp (not_over_of_cycle hl hy).2

lemma stands_of_waking (hp : w.phase = .stopping)
    (hst : w.control.calls.get? (.worker n) = some (.stop false .waking))
    (h : w.InControl (.worker n) v) : Stands v (.worker n) .stop (.stopping false) := by
  cases h with
  | rings _ _ => exact .wakes hp hst
  | wakes _ _ =>
    have hwoken := Control.woken_eq hst w.now
    refine .awaits ?_ (d := w.now.after w.control.config.shutdownLimit) (b := false) ?_
    · rw [phase]
      dsimp only
      rw [hwoken]
      exact hp
    · dsimp only
      rw [hwoken]
      exact Roster.get?_put_self ..
  | turns _ hs' hturn =>
    obtain rfl := Option.some.inj (hst.symm.trans hs')
    cases hturn with
    | stop hturn => cases hturn

lemma stands_of_awaiting (hl : w.course.Linked)
    (hy : w.cycles.get? (.worker n) = some (.running k (.calling g))) (hp : w.phase = .stopping)
    {d' : Time} {b : Bool}
    (hst : w.control.calls.get? (.worker n) = some (.stop false (.waiting d' b)))
    (hexpiry : v.control.expiry = w.control.expiry)
    (h : w.InControl (.worker n) v) : Stands v (.worker n) .stop (.stopping false) := by
  have hover := not_over_of_cycle hl hy
  obtain ⟨d, j, hturn, rfl⟩ := h.turn hst (by simp)
  cases hturn with
  | stop hturn =>
    cases hturn with
    | collects _ _ hp' => exact (hp'.elim hover.1 hover.2).elim
    | expired _ _ _ =>
      refine .expires hp ?_
      rw [hexpiry]
      change (Control.finishStop ..).calls.get? _ = _
      rw [Control.finishStop_eq]
      exact Roster.get?_put_self ..
    | waits _ _ _ => exact .awaits (d := d') (b := false) hp (Roster.get?_put_self ..)

/-- **A stop from inside a task** can only expire: the worker that it waits for is the caller. -/
lemma Stands.stop_own (h : Stands w (.worker n) .stop a) (hl : w.course.Linked)
    (hq : w.journal.armed = none)
    (hy : w.cycles.get? (.worker n) = some (.running k (.calling g)))
    (ha : w.calls.get? (.worker n) = some a) (hs : w.step (.run (.worker n)) = some v) :
    v.calls.get? (.worker n) = none ∨
      ∃ b, v.calls.get? (.worker n) = some b ∧ Stands v (.worker n) .stop b := by
  have hexpiry : v.control.expiry = w.control.expiry := by
    rw [Control.expiry, Control.expiry, config_of_step hl hs]
  -- in the control the call goes on there, and in the writer it is where it was
  have hstays : w.calls.get? (.worker n) = some (.stopping false) → w.InControl (.worker n) v →
      Stands v (.worker n) .stop (.stopping false) → v.calls.get? (.worker n) = none ∨
        ∃ b, v.calls.get? (.worker n) = some b ∧ Stands v (.worker n) .stop b :=
    fun ha hin hstands => .inr ⟨_, by rw [hin.calls, ha], hstands⟩
  cases h with
  | stops hst =>
    have hin := (callMoves_of_run ha nofun hs).stays rfl hst nofun
    exact hstays ha hin (stands_of_entering hl hq hy hst hin)
  | wakes hp hst =>
    have hin := (callMoves_of_run ha nofun hs).stays rfl hst nofun
    exact hstays ha hin (stands_of_waking hp hst hin)
  | awaits hp hst =>
    have hin := (callMoves_of_run ha nofun hs).stays rfl hst nofun
    exact hstays ha hin (stands_of_awaiting hl hy hp hst hexpiry hin)
  | expires hp hst =>
    obtain rfl := (callMoves_of_run ha nofun hs).left rfl hst
    exact .inr ⟨_, Roster.get?_put_self .., .walks hp⟩
  | walks hp =>
    obtain rfl := step_walking ha hs
    refine .inr ⟨_, Roster.get?_put_self .., ?_⟩
    split
    · exact .stopped hp
    · exact .reports hp
  | @reports i hp =>
    cases callMoves_of_run ha nofun hs with
    | inside hi _ | leaves hi _ => cases hi
    | @logs _ _ u _ _ _ hx hlog =>
      cases hx with
      | reports =>
        obtain rfl := fault_of_log hlog hq
        have hu := congrArg Course.control (course_log hlog)
        refine .inr ⟨_, Roster.get?_put_self .., ?_⟩
        change Stands _ _ _ (CallOfWriter.ended (.error (.refused w.control.expiry)))
        rw [← hexpiry]
        exact .stopped ((congrArg Control.phase hu).trans hp)
  | stopped _ =>
    obtain rfl := returns_of_run hl hy ha hs
    exact .inl (Roster.get?_drop_self ..)

/-- **A write from inside a task** is never told the outcome of its own task, which nobody runs. -/
lemma Stands.write_own {s : Submission σ V} (h : Stands w (.worker n) (.write s) a)
    (hl : w.course.Linked) (hq : w.journal.armed = none)
    (hy : w.cycles.get? (.worker n) = some (.running k (.calling g)))
    (ha : w.calls.get? (.worker n) = some a) (hs : w.step (.run (.worker n)) = some v) :
    v.calls.get? (.worker n) = none ∨
      ∃ b, v.calls.get? (.worker n) = some b ∧ Stands v (.worker n) (.write s) b ∧
        ∀ r, b = .ended r → Fate s (.worker n) w r := by
  have hready := ready_of_step hl hy hs
  -- the write goes on, with its ticket if it has one
  have hgoes : ∀ {stage : WriteStage},
      v.calls.get? (.worker n) = some (.writing s stage) → (∀ i, stage ≠ .told i .ready) →
      (∀ i, stage.ticket? = some i → (w.cell i).ready = false) → v.calls.get? (.worker n) = none ∨
        ∃ b, v.calls.get? (.worker n) = some b ∧ Stands v (.worker n) (.write s) b ∧
          ∀ r, b = .ended r → Fate s (.worker n) w r := fun hb hn hc =>
    .inr ⟨_, hb, .writes hn fun i hi => Bool.eq_false_iff.mpr fun hv =>
      Bool.false_ne_true ((hc i hi).symm.trans (hready i hv)), by simp⟩
  have hends : ∀ {r : Except Failure (Option V)}, v.calls.get? (.worker n) = some (.ended r) →
      Fate s (.worker n) w r → v.calls.get? (.worker n) = none ∨
        ∃ b, v.calls.get? (.worker n) = some b ∧ Stands v (.worker n) (.write s) b ∧
          ∀ r, b = .ended r → Fate s (.worker n) w r := fun hb hf =>
    .inr ⟨_, hb, .written, fun r hr => CallOfWriter.ended.inj hr ▸ hf⟩
  cases h with
  | written =>
    obtain rfl := returns_of_run hl hy ha hs
    exact .inl (Roster.get?_drop_self ..)
  | @writes _ stage hn hc =>
    cases callMoves_of_run ha nofun hs with
    | inside hi _ | leaves hi _ => cases hi
    | admits _ => exact hgoes (Roster.get?_put_self ..) (by simp) (by simp [WriteStage.ticket?])
    | refuses hp => exact hends (Roster.get?_put_self ..) (.rejected ha hp)
    | breaks he =>
      exact hends (Roster.get?_put_self ..) (.broken ha (Envelope.factory_of_make he))
    | makes _ =>
      refine hgoes (Roster.get?_put_self ..) (by simp) fun i hi => ?_
      -- nobody has touched the cell of a new ticket
      obtain rfl := Option.some.inj hi
      rw [cell, Array.getElem?_eq_none (Nat.le_refl _)]
      rfl
    | offers _ | notifies _ | awaits _ => exact hgoes (Roster.get?_put_self ..) (by simp) hc
    | misses _ => exact hgoes (Roster.get?_put_self ..) (by simp) (by simp [WriteStage.ticket?])
    | submits hw => exact hends (Roster.get?_put_self ..) (.unawaited ha hw)
    | @hears _ i _ _ =>
      refine hgoes (Roster.get?_put_self ..) (fun i' hi' => ?_) hc
      -- the outcome does not show
      obtain ⟨-, hstatus⟩ := WriteStage.told.inj hi'
      rw [Cell.status, Cell.status?, hc i rfl] at hstatus
      split at hstatus
      · rename_i hfalse
        cases hfalse
      · split at hstatus <;> cases hstatus
    | collects _ => exact absurd rfl (hn _)
    | logs hx hlog =>
      obtain rfl := hx.fault hlog hq
      cases hx with
      | loses => exact hends (Roster.get?_put_self ..) (.dropped ha)
      | threw _ => exact absurd rfl (hn _)
      | expires => exact hends (Roster.get?_put_self ..) (.expired ha)
      | interrupted => exact hends (Roster.get?_put_self ..) (.interrupted ha)

end Own

/-! ### The call as it is made -/

/-- **The task of ticket `k` makes the call `q`** of its own writer. -/
structure Asks (n k : Nat) (q : TaskCall σ V) (x y : Writer σ V) : Prop where
  task : ∃ p back?, x.cycles.get? (.worker n) = some (.running k (.inner p back?)) ∧
    p.asks = some q
  step : x.step (.run (.worker n)) = some y

/-- Worker `n` is inside a call that the task of ticket `k` makes, and no line of the log is set to
fail. -/
structure During (n k : Nat) (w : Writer σ V) : Prop where
  quiet : w.journal.armed = none
  calling : (w.calls.get? (.worker n)).isSome = true
  task : ∃ g, w.cycles.get? (.worker n) = some (.running k (.calling g))

lemma stepBody_of_run (hl : w.course.Linked) {b : BodyStage σ V} (hb : b.isCalling = false)
    (hy : w.cycles.get? (.worker n) = some (.running k b))
    (hs : w.step (.run (.worker n)) = some v) :
    ∃ e, w.envelopes[k]? = some e ∧ w.stepBody n k e b = some v := by
  obtain ⟨last, hw⟩ := hl.cycling hy
  change w.control.worker? n = some (.cycling last) at hw
  have hn : w.calls.get? (.worker n) = none := hl.idle_of_running hy hb
  simp only [step, run, hn, stepWorker, Control.budget?, hw, stepCycle, hy] at hs
  split at hs
  · exact ⟨_, ‹_›, hs⟩
  · cases hs

lemma bodyMoves_of_run (hl : w.course.Linked) {b : BodyStage σ V} (hb : b.isCalling = false)
    (hy : w.cycles.get? (.worker n) = some (.running k b))
    (hs : w.step (.run (.worker n)) = some v) :
    ∃ e, w.envelopes[k]? = some e ∧ w.BodyMoves n k e b v := by
  obtain ⟨e, he, h⟩ := stepBody_of_run hl hb hy hs
  exact ⟨e, he, stepBody_moves he h⟩

lemma stepProgram_of_run (hl : w.course.Linked) {p : Program σ V}
    {back? : Option (Option Failure → Wrapper σ)}
    (hy : w.cycles.get? (.worker n) = some (.running k (.inner p back?)))
    (hs : w.step (.run (.worker n)) = some v) : w.stepProgram n k back? p = some v := by
  obtain ⟨_, -, h⟩ := stepBody_of_run hl rfl hy hs
  exact h

/-- **A call begins** where it may stand, and touches nothing else. -/
lemma Asks.begins (h : Asks n k q x y) (hl : x.course.Linked) :
    (∃ a g, y.calls.get? (.worker n) = some a ∧ Stands y (.worker n) q a ∧
      y.cycles.get? (.worker n) = some (.running k (.calling g)) ∧ ∀ r, a ≠ .ended r) ∧
      Idle (.worker n) x y := by
  obtain ⟨⟨p, back?, hy, hp⟩, hs⟩ := h
  have hprog := stepProgram_of_run hl hy hs
  cases p with
  | start next =>
    cases hp
    obtain rfl := Option.some.inj hprog
    exact ⟨⟨_, _, Roster.get?_put_self .., .starts (Roster.get?_put_self ..),
      Roster.get?_put_self .., nofun⟩, rfl, fun u hu => Roster.get?_put_ne _ _ hu,
      fun u hu => Roster.get?_put_ne _ _ hu, fun u hu => Roster.get?_put_ne _ _ hu⟩
  | stop next =>
    cases hp
    obtain rfl := Option.some.inj hprog
    exact ⟨⟨_, _, Roster.get?_put_self .., .stops (Roster.get?_put_self ..),
      Roster.get?_put_self .., nofun⟩, rfl, fun u hu => Roster.get?_put_ne _ _ hu,
      fun u hu => Roster.get?_put_ne _ _ hu, fun u hu => Roster.get?_put_ne _ _ hu⟩
  | write work id wait next =>
    cases hp
    obtain rfl := Option.some.inj hprog
    exact ⟨⟨_, _, Roster.get?_put_self .., .writes nofun nofun,
      Roster.get?_put_self .., nofun⟩, rfl, fun u hu => Roster.get?_put_ne _ _ hu,
      fun u hu => Roster.get?_put_ne _ _ hu, fun _ _ => rfl⟩
  | _ => cases hp

/-- **A call of a task stands where it may** until it has returned, whoever makes a step. -/
lemma Stands.step (h : Stands w (.worker n) q a) (hl : w.course.Linked) (hd : During n k w)
    (ha : w.calls.get? (.worker n) = some a) (hs : w.step m = some v) (hv : During n k v) :
    ∃ b, v.calls.get? (.worker n) = some b ∧ Stands v (.worker n) q b := by
  obtain ⟨g, hy⟩ := hd.task
  have hin : v.calls.get? (.worker n) ≠ none := fun hn => by
    have := hv.calling
    rw [hn] at this
    cases this
  by_cases hm : m = .run (.worker n)
  · subst hm
    cases q with
    | start => exact (h.start_own hl hy ha hs).2.resolve_left hin
    | stop => exact (h.stop_own hl hd.quiet hy ha hs).resolve_left hin
    | write s =>
      obtain ⟨b, hb, hst, -⟩ := (h.write_own hl hd.quiet hy ha hs).resolve_left hin
      exact ⟨b, hb, hst⟩
  · obtain ⟨hcall, hk⟩ := call_of_step hs hm ha
    obtain ⟨g', hy'⟩ := hv.task
    refine ⟨a, hcall.resolve_right hin, h.aside hk (config_of_step hl hs) (fun hp => ?_)
      (ready_of_step hl hy hs)⟩
    have hphase := phase_of_cycle (hl.step (step_course hs)) hy'
    exact hphase.resolve_left (not_running_of_step hl hp hs)

theorem stands_of_run (hl : x.course.Linked) (hq : Asks n k q x y)
    (h : Along Writer.step (During n k) y z) :
    z.course.Linked ∧ ∃ a, z.calls.get? (.worker n) = some a ∧ Stands z (.worker n) q a := by
  induction h with
  | refl _ =>
    obtain ⟨⟨a, g, ha, hst, -⟩, -⟩ := hq.begins hl
    exact ⟨hl.step (step_course hq.step), a, ha, hst⟩
  | step m h hs hv ih =>
    obtain ⟨hl', a, ha, hst⟩ := ih
    exact ⟨hl'.step (step_course hs), hst.step hl' h.holds ha hs hv⟩

/-! ### What a task is told -/

/-- On the way from `y` to `z`, inside the call, worker `n` makes a step of this kind. -/
def Passes (n k : Nat) (R : Writer σ V → Writer σ V → Prop) (y z : Writer σ V) : Prop :=
  ∃ u v, Along Writer.step (During n k) y u ∧ u.step (.run (.worker n)) = some v ∧
    Along Writer.step (During n k) v z ∧ R u v

/-- `t` walks over the pending tickets, and releases everyone who waits for one of them. -/
structure WalksOver (t : Thread) (u v : Writer σ V) : Prop where
  walking : ∃ after, u.calls.get? t = some (.walking after)
  released : ∀ i ∈ u.queue.items, (v.cell i).interrupted = true

lemma walksOver_of_step {after : AfterWalk} (hk : u.course.Known)
    (ha : u.calls.get? t = some (.walking after)) (hs : u.step (.run t) = some v) :
    WalksOver t u v := by
  refine ⟨⟨after, ha⟩, fun i hi => ?_⟩
  rw [step_walking ha hs]
  change (cellAt (interruptAt u.envelopes u.queue.items) i).interrupted = true
  rw [cellAt_interruptAt, if_pos ⟨hi, hk.tickets.known i (hk.pending i hi)⟩]
  rfl

lemma Stands.ne_releasing (h : Stands w t q a) : a ≠ .releasing := by
  rintro rfl
  cases h

/-- **A stop that has returned to a task has walked** over the pending tickets, once. -/
theorem walked_of_run (hl : x.course.Linked) (hk : x.course.Known) (hq : Asks n k .stop x y)
    (h : Chronicle Writer.step note (During n k) y es z) {r : Except Failure (Option V)}
    (hr : z.calls.get? (.worker n) = some (.ended r)) :
    (∃ l, walksOf (.worker n) es = [l]) ∧ Passes n k (WalksOver (.worker n)) y z := by
  obtain ⟨⟨a, -, ha, hst, -, hne⟩, -⟩ := hq.begins hl
  -- the stop begins at the beginning
  have hstart : y.calls.get? (.worker n) = some (.stopping false) ∧
      ∃ s, y.control.calls.get? (.worker n) = some (.stop false s) := by
    obtain ⟨⟨p, back?, hy, hp⟩, hs⟩ := hq
    have hprog := stepProgram_of_run hl hy hs
    cases p with
    | stop next =>
      obtain rfl := Option.some.inj hprog
      exact ⟨Roster.get?_put_self .., _, Roster.get?_put_self ..⟩
    | _ => cases hp
  obtain ⟨hcall, s, hs⟩ := hstart
  have hly : y.course.Linked := hl.step (step_course hq.step)
  have hstands := h.and (I := fun w => w.course.Linked ∧ ∃ a, w.calls.get? (.worker n) = some a ∧
      Stands w (.worker n) .stop a) (fun _ => ⟨hly, a, ha, hst⟩)
    fun u m v hu ⟨hlu, b, hb, hstu⟩ hs hv =>
      ⟨hlu.step (step_course hs), hstu.step hlu hu hb hs hv⟩
  obtain ⟨-, b, hb, hsofar⟩ := stop_of_run (fun w hw => by
    obtain ⟨hduring, -, a, ha, hst⟩ := hw
    exact ⟨hduring.calling, fun hrel => hst.ne_releasing (Option.some.inj (ha.symm.trans hrel))⟩)
    hly hcall hs hstands
  obtain rfl := Option.some.inj (hr.symm.trans hb)
  have hwalked : ∃ l, walksOf (.worker n) es = [l] := by
    refine hsofar.resolve_right ?_
    rintro ⟨-, e, -, u, v, hu, ⟨-, -, x, -, hline⟩, -⟩
    cases Journal.fault_of_unarmed hline hu.holds.1.quiet
  refine ⟨hwalked, ?_⟩
  obtain ⟨l, hwalk⟩ := hwalked
  obtain ⟨e, he, hwe⟩ := List.mem_filterMap.mp (hwalk ▸ List.mem_cons_self : l ∈ walksOf _ es)
  obtain rfl := Event.walkOf?_eq_some_iff.mp hwe
  obtain ⟨es₁, es₂, rfl⟩ := List.append_of_mem he
  obtain ⟨u, m, v, hu, hs', hnote, hv⟩ := Chronicle.exists_of_noted h
  obtain ⟨rfl, ⟨after, hafter⟩, -⟩ := walking_of_note hnote
  have hknown : u.course.Known :=
    hu.along.keeps (I := fun w => w.course.Known) (fun _ => hk.step (step_course hq.step))
      fun _ _ _ _ hkw hs _ => hkw.step (step_course hs)
  exact ⟨u, v, hu.along, hs', hv.along, walksOver_of_step hknown hafter hs'⟩

/-- **The fate of a write** that has returned to a task. -/
theorem fate_of_run {s : Submission σ V} (hl : x.course.Linked) (hq : Asks n k (.write s) x y)
    (h : Along Writer.step (During n k) y z) {r : Except Failure (Option V)}
    (hr : z.calls.get? (.worker n) = some (.ended r)) :
    Passes n k (fun u _ => Fate s (.worker n) u r) y z := by
  induction h generalizing r with
  | refl _ =>
    obtain ⟨⟨a, g, ha, -, -, hne⟩, -⟩ := hq.begins hl
    exact absurd (Option.some.inj (ha.symm.trans hr)) (hne r)
  | @step u v m h hs hv ih =>
    obtain ⟨hl', a, ha, hst⟩ := stands_of_run hl hq h
    obtain ⟨g, hy⟩ := h.holds.task
    by_cases hm : m = .run (.worker n)
    · subst hm
      rcases hst.write_own hl' h.holds.quiet hy ha hs with hnone | ⟨b, hb, -, hfate⟩
      · cases hnone.symm.trans hr
      · exact ⟨u, v, h, hs, .refl hv, hfate r (Option.some.inj (hb.symm.trans hr))⟩
    · obtain ⟨hcall | hnone, -⟩ := call_of_step hs hm ha
      · obtain ⟨u', v', h₁, hs', h₂, hfate⟩ := ih (ha.trans (hcall.symm.trans hr))
        exact ⟨u', v', h₁, hs', .step m h₂ hs hv, hfate⟩
      · cases hnone.symm.trans hr

end Writer

end SerialWriter
