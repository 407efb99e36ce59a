import SerialWriter.Proofs.Demo.MainThread

/-!
The worker of a demonstration between its tasks: it begins, looks at the phase, takes a task or
waits for one, and ends.
-/

namespace SerialWriter

lemma WorkerStage.Suits.afterCycle {p : Phase} {last : Bool}
    (h : (WorkerStage.cycling last).Suits p) : (WorkerStage.afterCycle last none).Suits p := by
  cases h with
  | cycling hp => exact .looking hp
  | lastCycling => exact .retiring

lemma SharedQueue.items_of_unsettled {α : Type} {s : SharedQueue α}
    (h : s.queue.settled = false) : s.items = [] := by
  rw [Queue.settled, Bool.or_eq_false_iff, Bool.not_eq_false'] at h
  exact (Fifo.isEmpty_iff _).mp h.1

namespace Demo

variable {d v : Demo} {s s' : WorkerStage} {u w : Writer Graph (Option Nat)} {last : Bool}

lemma Plot.hatching {x : View} (h : Plot x .alive) (hp : x.phase = .starting) : ∃ b told, x =
    ⟨.starting, some .starting, some (.start true (.waiting b told)), .starting, none⟩ := by
  cases h <;> first | exact ⟨_, _, rfl⟩ | cases hp

lemma Plot.ending {x : View} (h : Plot x .alive) (hp : x.phase = .stopping) :
    x = ⟨.stopping, some (.stopping false), some (.stop false .waking), .stopping,
      some (.client 0)⟩ ∨ ∃ b told, x = ⟨.stopping, some (.stopping false),
        some (.stop false (.waiting b told)), .stopping, none⟩ := by
  cases h <;> first | exact .inl rfl | exact .inr ⟨_, _, rfl⟩ | cases hp

namespace Script

/-- **The worker goes on**, and the main thread notices nothing. -/
lemma of_worker (h : Script d) (hplot : Plot d.view .alive)
    (hj : d.writer.control.joinable = some 0)
    (hrun : d.writer.step (.run (.worker 0)) = some u)
    (hcalls : u.calls = d.writer.calls) (hctl : u.control.calls = d.writer.control.calls)
    (hphase : u.control.phase = d.writer.control.phase)
    (hholder : u.control.holder = d.writer.control.holder)
    (hconfig : u.control.config = d.writer.control.config)
    (hjoin : u.control.joinable = d.writer.control.joinable) (hworkers : u.control.workers = [s'])
    (hsuits : s'.Suits d.writer.control.phase) (hnow : u.now = d.writer.now)
    (hfactory : u.factory = d.writer.factory) (hwriter : u.config = d.writer.config)
    (hqueue : u.queue.OfCapacity 1000) (hdropped : u.dropped = d.writer.dropped)
    (htimed : u.timedOut = d.writer.timedOut)
    (hfailed : u.ledger.failed = d.writer.ledger.failed)
    (hstages : u.queue.stages.get? (.client 0) = d.writer.queue.stages.get? (.client 0))
    (hwork : Work { d with writer := u })
    (halert : ∀ b, u.queue.stages.get? (.worker 0) = some (.waiting b false) →
      u.queue.items = [] ∨ ∃ t s k, u.calls.get? t = some (.writing s (.notifying k)))
    (hload : load u < load d.writer) :
    Script { d with writer := u } ∧ rank { d with writer := u } < d.rank := by
  have hkept := h.kept.run hrun h.intact (by
    rw [hcalls]
    exact h.intact _)
  have hget : ∀ t, u.calls.get? t = d.writer.calls.get? t := fun t => by rw [hcalls]
  -- what the main thread sees is as it was
  have hview : view { d with writer := u } = d.view :=
    View.ext rfl (hget _) (congrArg (·.get? (.client 0)) hctl) hphase hholder
  refine h.of_turn hkept
    (h.settings.of_eq hwriter hconfig hfactory hqueue hdropped htimed hfailed) hview hplot
    ⟨hjoin.trans hj, s', hworkers, hphase ▸ hsuits⟩ (fun t _ => hget t)
    (fun p => (h.producers p).congr rfl rfl (hget _)) rfl rfl h.output rfl
    hnow (fun b hb => ?_) hwork halert (fun hp hw => ?_) ?_
  · have hdeadline := callDeadline_congr (hget (.client 0)) (congrArg (·.get? (.client 0)) hctl)
    exact hnow ▸ h.inTime.waiting (.client 0) b (hdeadline ▸ hb)
  · refine h.heard_of_step hrun (hphase.symm.trans hp) ?_
    rw [← hw, Control.waking, Control.waking, hctl]
  · have hrung : rung u = rung d.writer := by rw [rung, rung, hstages]
    have hmain : mainDue { d with writer := u } = d.mainDue := by
      rw [mainDue, mainDue, controlDue, controlDue, hcalls, hctl, hrung]
    rw [hmain]
    exact Nat.add_lt_add_left hload _

lemma staff_of_step {n : Nat} (h : Script d) (hs : d.step (.worker n) = some v) :
    n = 0 ∧ Plot d.view .alive ∧ d.writer.control.joinable = some 0 ∧
      ∃ s, d.writer.control.workers = [s] ∧ s.Suits d.writer.control.phase ∧
        (d.writer.step (.run (.worker 0))).map (fun writer => { d with writer }) = some v := by
  have hsome : ∃ s, d.writer.control.worker? n = some s ∧ s ≠ .finished := by
    rw [step_worker] at hs
    obtain ⟨u, hu, -⟩ := Option.map_eq_some_iff.mp hs
    simp only [Writer.step, Writer.run, h.worker_idle, Writer.stepWorker, Control.budget?,
      Control.stepWorker] at hu
    cases hw : d.writer.control.worker? n with
    | none =>
      rw [hw] at hu
      cases hu
    | some s =>
      refine ⟨s, rfl, ?_⟩
      rintro rfl
      rw [hw] at hu
      cases hu
  obtain ⟨s, hw, hne⟩ := hsome
  obtain ⟨k, hplot, hstaff⟩ := h.main
  obtain rfl := hstaff.eq_zero hw
  cases k with
  | unborn =>
    rw [Control.worker?, hstaff.2] at hw
    cases hw
  | alive =>
    obtain ⟨hj, st, hworkers, hsuits⟩ := hstaff
    exact ⟨rfl, hplot, hj, st, hworkers, hsuits, hs⟩
  | buried =>
    rw [Control.worker?, hstaff.2] at hw
    exact absurd (Option.some.inj hw).symm hne

lemma step_of_worker (h : Script d) (hworkers : d.writer.control.workers = [s])
    (hn : ∀ last, s ≠ .cycling last) : d.writer.step (.run (.worker 0)) =
      (d.writer.control.stepWorker 0 d.writer.journal).map fun (control, journal) =>
        { d.writer with control, journal } := by
  have hbudget : d.writer.control.budget? 0 = none := by
    rw [Control.budget?, Control.worker?, hworkers]
    cases s with
    | cycling last => exact absurd rfl (hn last)
    | _ => rfl
  simp only [Writer.step, Writer.run, h.worker_idle, Writer.stepWorker, hbudget]

lemma step_of_cycle (h : Script d) (hworkers : d.writer.control.workers = [.cycling last]) :
    d.writer.step (.run (.worker 0)) = d.writer.stepCycle 0 (if last then 0 else 5) := by
  have hbudget : d.writer.control.budget? 0 = some (if last then 0 else 5) := by
    rw [Control.budget?, Control.worker?, hworkers, h.settings.control]
    rfl
  simp only [Writer.step, Writer.run, h.worker_idle, Writer.stepWorker, hbudget]

lemma cycleDue_of_between (h : Script d) (hworkers : d.writer.control.workers = [s])
    (hn : ∀ last, s ≠ .cycling last) : cycleDue d.writer = 5 := by
  have hnot : ∀ last, d.writer.control.worker? 0 ≠ some (.cycling last) := by
    intro last hw
    rw [Control.worker?, hworkers] at hw
    exact hn last (Option.some.inj hw)
  unfold cycleDue
  split
  · rename_i y hy
    obtain ⟨last, hw⟩ := h.kept.tuned.linked.cycling hy
    exact absurd hw (hnot last)
  · split
    · rename_i b told hb
      obtain ⟨n, hn', hw, -⟩ := h.kept.tuned.waiting _ b told hb
      cases hn'
      exact absurd hw (hnot false)
    · rfl

/-- The worker goes on between cycles, and the phase stays. -/
lemma of_worker_between (h : Script d) (hplot : Plot d.view .alive)
    (hj : d.writer.control.joinable = some 0) (hworkers : d.writer.control.workers = [s])
    {c : Control} {j : Journal}
    (hrun : d.writer.step (.run (.worker 0)) = some { d.writer with control := c, journal := j })
    (hctl : c.calls = d.writer.control.calls) (hphase : c.phase = d.writer.control.phase)
    (hholder : c.holder = d.writer.control.holder) (hconfig : c.config = d.writer.control.config)
    (hjoin : c.joinable = d.writer.control.joinable) (hworkers' : c.workers = [s'])
    (hsuits : s'.Suits d.writer.control.phase)
    (hdue : s'.due (cycleDue d.writer) < s.due (cycleDue d.writer)) :
    Script { d with writer := { d.writer with control := c, journal := j } } ∧
      rank { d with writer := { d.writer with control := c, journal := j } } < d.rank := by
  refine h.of_worker hplot hj hrun rfl hctl hphase hholder hconfig hjoin hworkers' hsuits rfl rfl
    rfl h.settings.queue rfl rfl rfl rfl ?_ h.alert ?_
  · exact h.work.works rfl rfl rfl rfl rfl h.work.done
      (h.work.worker.congr rfl rfl rfl rfl fun _ => rfl)
  · have hold : workerDue d.writer = s.due (cycleDue d.writer) := by rw [workerDue, hworkers]
    have hnew : workerDue { d.writer with control := c, journal := j } =
        s'.due (cycleDue d.writer) := by
      rw [workerDue, hworkers']
      rfl
    rw [load, load, hold, hnew]
    dsimp only
    omega

lemma worker_begins (h : Script d) (hplot : Plot d.view .alive)
    (hj : d.writer.control.joinable = some 0) (hworkers : d.writer.control.workers = [.created])
    (hp : d.writer.control.phase = .starting)
    (hs : (d.writer.step (.run (.worker 0))).map (fun writer => { d with writer }) = some v) :
    Script v ∧ v.rank < d.rank := by
  obtain ⟨b, told, hx⟩ := hplot.hatching hp
  obtain ⟨hstage, hcall, hctl, hphase, hholder⟩ := View.mk.inj hx
  have hworker : d.writer.control.worker? 0 = some .created := by
    rw [Control.worker?, hworkers]
    rfl
  have hrun := h.step_of_worker hworkers (by simp)
  simp only [Control.stepWorker, hworker, Control.free_iff.mpr hholder, if_true, hphase,
    Control.enter_of_unarmed h.kept.quiet, Option.map_some] at hrun
  rw [hrun] at hs
  cases hs
  have hctl' : (d.writer.control.calls.map CallStage.roused).get? (.client 0) =
      some (.start true (.waiting b true)) := by
    rw [Roster.get?_map, hctl]
    rfl
  have htime : d.writer.now < b :=
    h.inTime.waiting (.client 0) b (by simp [Writer.callDeadline?, hcall, Control.deadline?, hctl])
  refine h.of_control hrun hstage hcall hctl' rfl rfl hholder .starts
    ⟨hj, .looking, by rw [Control.setWorker, Control.notifyAll, hworkers]; rfl, .looking (.inl rfl)⟩
    (fun i hi => Option.some.inj hi ▸ htime) (fun hp => by cases hp) ?_
  have hle := Bool.toNat_le told
  simp only [controlDue, hctl, workerDue, Control.setWorker, Control.notifyAll, hworkers,
    List.set_cons_zero, Option.elim_some, CallStage.due, WorkerStage.due, Bool.toNat_true]
  omega

lemma worker_retires (h : Script d) (hplot : Plot d.view .alive)
    (hj : d.writer.control.joinable = some 0) (hworkers : d.writer.control.workers = [.retiring])
    (hp : d.writer.control.phase = .stopping)
    (hs : (d.writer.step (.run (.worker 0))).map (fun writer => { d with writer }) = some v) :
    Script v ∧ v.rank < d.rank := by
  have hworker : d.writer.control.worker? 0 = some .retiring := by
    rw [Control.worker?, hworkers]
    rfl
  have hrun := h.step_of_worker hworkers (by simp)
  rcases hplot.ending hp with hx | ⟨b, told, hx⟩
  · obtain ⟨hstage, hcall, hctl, hphase, hholder⟩ := View.mk.inj hx
    simp only [Control.stepWorker, hworker, Control.free, hholder, Option.isNone_some,
      Bool.false_eq_true, if_false, Option.map_none] at hrun
    rw [hrun] at hs
    cases hs
  · obtain ⟨hstage, hcall, hctl, hphase, hholder⟩ := View.mk.inj hx
    simp only [Control.stepWorker, hworker, Control.free_iff.mpr hholder, if_true,
      Control.enter_of_unarmed h.kept.quiet, Option.map_some] at hrun
    rw [hrun] at hs
    cases hs
    have hctl' : (d.writer.control.calls.map CallStage.roused).get? (.client 0) =
        some (.stop false (.waiting b true)) := by
      rw [Roster.get?_map, hctl]
      rfl
    have htime : d.writer.now < b :=
      h.inTime.waiting (.client 0) b
        (by simp [Writer.callDeadline?, hcall, Control.deadline?, hctl])
    refine h.of_control hrun hstage hcall hctl' rfl rfl hholder .hears
      ⟨hj, .leaving, by rw [Control.setWorker, Control.notifyAll, hworkers]; rfl, .leaving⟩
      (fun i hi => Option.some.inj hi ▸ htime) (fun hp => by cases hp) ?_
    have hle := Bool.toNat_le told
    simp only [controlDue, hctl, workerDue, Control.setWorker, Control.notifyAll, hworkers,
      List.set_cons_zero, Option.elim_some, CallStage.due, WorkerStage.due, Bool.toNat_true]
    omega

lemma worker_between (h : Script d) (hplot : Plot d.view .alive)
    (hj : d.writer.control.joinable = some 0) (hworkers : d.writer.control.workers = [s])
    (hsuits : s.Suits d.writer.control.phase) (hn : ∀ last, s ≠ .cycling last)
    (hs : (d.writer.step (.run (.worker 0))).map (fun writer => { d with writer }) = some v) :
    Script v ∧ v.rank < d.rank := by
  have hrun := h.step_of_worker hworkers hn
  have hworker : d.writer.control.worker? 0 = some s := by
    rw [Control.worker?, hworkers]
    rfl
  have hset : ∀ s', d.writer.control.workers.set 0 s' = [s'] := fun _ => by
    rw [hworkers]
    rfl
  have hdue := (h.cycleDue_of_between hworkers hn).le
  simp only [Control.stepWorker, hworker] at hrun
  generalize hp : d.writer.control.phase = p at hsuits
  cases hsuits with
  | created => exact h.worker_begins hplot hj hworkers hp hs
  | looking hrs =>
    rw [hrun] at hs
    cases hs
    refine h.of_worker_between hplot hj hworkers hrun rfl rfl rfl rfl rfl (hset _) ?_
      (by simp [WorkerStage.due])
    rw [hp]
    rcases hrs with rfl | rfl
    · exact .entering (.inl rfl)
    · exact .lastEntering
  | entering hrs =>
    rw [hrun] at hs
    cases hs
    exact h.of_worker_between hplot hj hworkers hrun rfl rfl rfl rfl rfl (hset _)
      (hp ▸ .cycling hrs) (hdue.trans_lt (by simp [WorkerStage.due]))
  | lastEntering =>
    rw [hrun] at hs
    cases hs
    exact h.of_worker_between hplot hj hworkers hrun rfl rfl rfl rfl rfl (hset _)
      (hp ▸ .lastCycling) (hdue.trans_lt (by simp [WorkerStage.due]))
  | cycling _ | lastCycling => exact absurd rfl (hn _)
  | retiring => exact h.worker_retires hplot hj hworkers hp hs
  | leaving =>
    rw [hrun] at hs
    cases hs
    exact h.of_worker_between hplot hj hworkers hrun rfl rfl rfl rfl rfl (hset _)
      (hp ▸ .finished) (by simp [WorkerStage.due])
  | finished =>
    rw [hrun] at hs
    cases hs

/-! ### Takes -/

variable {q : SharedQueue Nat} {k : Nat}

lemma worker_takes (h : Script d) (hplot : Plot d.view .alive)
    (hj : d.writer.control.joinable = some 0)
    (hworkers : d.writer.control.workers = [.cycling last])
    (hsuits : (WorkerStage.cycling last).Suits d.writer.control.phase)
    (hy : d.writer.cycles.get? (.worker 0) = none)
    (hpop : d.writer.queue.pop (.worker 0) = (some k, q))
    (hrun : d.writer.step (.run (.worker 0)) =
      some (({ d.writer with queue := q } : Writer _ _).setCycle 0 (.dequeued k)))
    (hv : v = { d with writer :=
      ({ d.writer with queue := q } : Writer _ _).setCycle 0 (.dequeued k) }) :
    Script v ∧ v.rank < d.rank := by
  subst hv
  have hpopped := SharedQueue.popped_pop d.writer.queue (.worker 0)
  have hstages := d.writer.queue.stages_pop (.worker 0)
  have hawake := d.writer.queue.awake_pop (.worker 0)
  have hqueue := h.settings.queue.pop (.worker 0)
  simp only [hpop] at hpopped hstages hawake hqueue
  have hself : (d.writer.cycles.put (.worker 0) (.dequeued k)).get? (.worker 0) =
      some (.dequeued k) := Roster.get?_put_self ..
  have hitems : d.writer.queue.items = k :: q.items := hpopped.items
  refine h.of_worker hplot hj hrun rfl rfl rfl rfl rfl rfl hworkers hsuits rfl rfl rfl hqueue rfl
    rfl rfl (hstages ▸ Roster.get?_drop_ne _ (by simp)) ?_ (fun b hb => ?_) ?_
  · exact h.work.takes rfl rfl rfl hpopped.accepted rfl hitems h.kept.ordered.split h.accepted_le
      hpopped.removed hy hself rfl rfl
  · change q.stages.get? (.worker 0) = _ at hb
    rw [hstages, Roster.get?_drop_self] at hb
    cases hb
  · simp only [load, workerDue, hworkers, WorkerStage.due, Writer.setCycle, cycleDue, hself,
      CycleStage.due, hawake, hitems, List.length_cons, Bool.toNat_false]
    omega

lemma worker_finds_nothing (h : Script d) (hplot : Plot d.view .alive)
    (hj : d.writer.control.joinable = some 0)
    (hworkers : d.writer.control.workers = [.cycling last])
    (hsuits : (WorkerStage.cycling last).Suits d.writer.control.phase)
    (hy : d.writer.cycles.get? (.worker 0) = none)
    (hpop : d.writer.queue.pop (.worker 0) = (none, q))
    (hdue : (WorkerStage.afterCycle last none).due 0 <
      cycleDue d.writer + 5 * d.writer.queue.queue.awake.toNat)
    (hrun : d.writer.step (.run (.worker 0)) =
      some (({ d.writer with queue := q } : Writer _ _).endCycle 0 none))
    (hv : v = { d with writer := ({ d.writer with queue := q } : Writer _ _).endCycle 0 none }) :
    Script v ∧ v.rank < d.rank := by
  subst hv
  have hpopped := SharedQueue.popped_pop d.writer.queue (.worker 0)
  have hstages := d.writer.queue.stages_pop (.worker 0)
  have hawake := d.writer.queue.awake_pop (.worker 0)
  have hqueue := h.settings.queue.pop (.worker 0)
  simp only [hpop] at hpopped hstages hawake hqueue
  have hworker : d.writer.control.worker? 0 = some (.cycling last) := by
    rw [Control.worker?, hworkers]
    rfl
  have hend := Control.endCycle_eq hworker none
  have hset : (d.writer.control.setWorker 0 (.afterCycle last none)).workers =
      [.afterCycle last none] := by
    rw [Control.setWorker, hworkers]
    rfl
  refine h.of_worker hplot hj hrun rfl (congrArg Control.calls hend :)
    (congrArg Control.phase hend :) (congrArg Control.holder hend :)
    (congrArg Control.config hend :)
    (congrArg Control.joinable hend :) ((congrArg Control.workers hend).trans hset)
    hsuits.afterCycle rfl rfl rfl hqueue rfl rfl rfl
    (hstages ▸ Roster.get?_drop_ne _ (by simp)) ?_ (fun b hb => ?_) ?_
  · refine h.work.works rfl rfl rfl hpopped.accepted rfl
      (fun hd => (congrArg List.length hpopped.removed).trans (h.work.done hd)) ?_
    cases h.work.worker with
    | rests _ hr he =>
      refine .rests (Roster.get?_drop_self ..) ?_ ?_
      · exact hr.trans (congrArg (fun l => Graph.after l.length) hpopped.removed.symm)
      · exact he.trans (congrArg List.length hpopped.removed.symm)
    | inHand hy' _ _ => cases hy.symm.trans hy'
  · change q.stages.get? (.worker 0) = _ at hb
    rw [hstages, Roster.get?_drop_self] at hb
    cases hb
  · -- nothing has gone out, so that the cycle itself and the flag have to pay
    have hitems : q.items = d.writer.queue.items := hpopped.items.symm
    have hany : ∀ i, (WorkerStage.afterCycle last none).due i =
        (WorkerStage.afterCycle last none).due 0 := by
      cases last <;> exact fun _ => rfl
    have hnew : workerDue (({ d.writer with queue := q } : Writer _ _).endCycle 0 none) =
        (WorkerStage.afterCycle last none).due 0 := by
      rw [workerDue, Writer.endCycle]
      dsimp only
      rw [hend, hset]
      exact hany _
    have hold : workerDue d.writer = cycleDue d.writer := by
      rw [workerDue, hworkers]
      rfl
    rw [load, load, hnew, hold]
    change _ + 20 * q.items.length + 5 * q.queue.awake.toNat < _
    rw [hitems, hawake, Bool.toNat_false]
    omega

lemma worker_waits (h : Script d) (hplot : Plot d.view .alive)
    (hj : d.writer.control.joinable = some 0)
    (hworkers : d.writer.control.workers = [.cycling last])
    (hsuits : (WorkerStage.cycling last).Suits d.writer.control.phase)
    (hy : d.writer.cycles.get? (.worker 0) = none) {b : Time} (hb : d.writer.now < b)
    (hidle : d.writer.queue.queue.settled = false) (hdue : 0 < cycleDue d.writer)
    (hq : q = { d.writer.queue with
      stages := d.writer.queue.stages.put (.worker 0) (.waiting b false) })
    (hrun : d.writer.step (.run (.worker 0)) = some { d.writer with queue := q })
    (hv : v = { d with writer := { d.writer with queue := q } }) :
    Script v ∧ v.rank < d.rank := by
  subst hv hq
  have hself : (d.writer.queue.stages.put (.worker 0) (.waiting b false)).get? (.worker 0) =
      some (.waiting b false) := Roster.get?_put_self ..
  refine h.of_worker hplot hj hrun rfl rfl rfl rfl rfl rfl hworkers hsuits rfl rfl rfl
    (h.settings.queue.put _ _) rfl rfl rfl (Roster.get?_put_ne _ _ (by simp)) ?_
    (fun _ _ => .inl (SharedQueue.items_of_unsettled hidle)) ?_
  · exact h.work.works rfl rfl rfl rfl rfl h.work.done
      (h.work.worker.congr rfl rfl rfl rfl fun _ => rfl)
  · have hnew : cycleDue { d.writer with queue := { d.writer.queue with
        stages := d.writer.queue.stages.put (.worker 0) (.waiting b false) } } = 0 := by
      simp only [cycleDue, hy, hself, Bool.false_eq_true, false_or, Int.not_le.mpr hb, if_false]
    refine Nat.add_lt_add_right (Nat.add_lt_add_right ?_ _) _
    rw [workerDue, workerDue, hworkers]
    dsimp only [WorkerStage.due]
    rw [hnew]
    exact hdue

lemma worker_took (h : Script d) (hplot : Plot d.view .alive)
    (hj : d.writer.control.joinable = some 0)
    (hworkers : d.writer.control.workers = [.cycling last])
    (hsuits : (WorkerStage.cycling last).Suits d.writer.control.phase)
    (hy : d.writer.cycles.get? (.worker 0) = none) {x : Option Nat}
    (hpop : d.writer.queue.pop (.worker 0) = (x, q))
    (hdue : x = none → (WorkerStage.afterCycle last none).due 0 <
      cycleDue d.writer + 5 * d.writer.queue.queue.awake.toNat)
    (hrun : d.writer.step (.run (.worker 0)) =
      some (({ d.writer with queue := q } : Writer _ _).tookTicket 0 x)) :
    Script { d with writer := ({ d.writer with queue := q } : Writer _ _).tookTicket 0 x } ∧
      rank { d with writer := ({ d.writer with queue := q } : Writer _ _).tookTicket 0 x } <
        d.rank := by
  cases x with
  | none => exact h.worker_finds_nothing hplot hj hworkers hsuits hy hpop (hdue rfl) hrun rfl
  | some k => exact h.worker_takes hplot hj hworkers hsuits hy hpop hrun rfl

lemma worker_seeks (h : Script d) (hplot : Plot d.view .alive)
    (hj : d.writer.control.joinable = some 0)
    (hworkers : d.writer.control.workers = [.cycling last])
    (hsuits : (WorkerStage.cycling last).Suits d.writer.control.phase)
    (hy : d.writer.cycles.get? (.worker 0) = none)
    (hst : d.writer.queue.stages.get? (.worker 0) = none)
    (hu : d.writer.step (.run (.worker 0)) = some u) :
    Script { d with writer := u } ∧ rank { d with writer := u } < d.rank := by
  have hrun := hu
  have hdue : cycleDue d.writer = 5 := by simp only [cycleDue, hy, hst]
  rw [h.step_of_cycle hworkers, Writer.stepCycle, hy, hst] at hu
  by_cases hi : d.writer.queue.queue.immediate (if last then 0 else 5) = true
  · rcases hpop : d.writer.queue.pop (.worker 0) with ⟨x, q⟩
    simp only [SharedQueue.take, hi, if_true, hpop, Option.some.injEq] at hu
    subst hu
    refine h.worker_took hplot hj hworkers hsuits hy hpop (fun hx => ?_) hrun
    rw [hdue]
    cases last with
    | true =>
      change 4 < _
      omega
    | false =>
      -- nothing is pending, so it is the flag that has ended the take
      have hitems : d.writer.queue.items = [] := by
        have hfst : d.writer.queue.queue.pop.1 = none := (congrArg Prod.fst hpop).trans hx
        rw [Queue.pop_fst] at hfst
        exact List.head?_eq_none_iff.mp hfst
      have hawake : d.writer.queue.queue.awake = true := by
        have hsettled : d.writer.queue.queue.settled = true := by
          simpa [Queue.immediate] using hi
        rw [Queue.settled, Bool.or_eq_true, Bool.not_eq_true'] at hsettled
        refine hsettled.resolve_left fun he => ?_
        rw [Bool.eq_false_iff] at he
        exact he ((Fifo.isEmpty_iff _).mpr hitems)
      rw [hawake]
      decide
  · simp only [SharedQueue.take, hi, Bool.false_eq_true, if_false, Option.some.injEq] at hu
    subst hu
    rw [Queue.immediate, Bool.or_eq_true, decide_eq_true_eq, not_or, Bool.not_eq_true] at hi
    refine h.worker_waits hplot hj hworkers hsuits hy ?_ hi.2 (by omega) rfl hrun rfl
    cases last with
    | true => exact absurd (Int.le_refl 0) hi.1
    | false => exact h.inTime.ahead 5 (by simp [waits, config])

lemma worker_seeks_again (h : Script d) (hplot : Plot d.view .alive)
    (hj : d.writer.control.joinable = some 0)
    (hworkers : d.writer.control.workers = [.cycling last])
    (hsuits : (WorkerStage.cycling last).Suits d.writer.control.phase)
    (hy : d.writer.cycles.get? (.worker 0) = none) {b : Time} {told : Bool}
    (hst : d.writer.queue.stages.get? (.worker 0) = some (.waiting b told))
    (hu : d.writer.step (.run (.worker 0)) = some u) :
    Script { d with writer := u } ∧ rank { d with writer := u } < d.rank := by
  have hrun := hu
  rw [h.step_of_cycle hworkers, Writer.stepCycle, hy, hst] at hu
  obtain ⟨⟨r, q⟩, hr, hu⟩ := Option.map_eq_some_iff.mp hu
  have hdue : told = true ∨ b ≤ d.writer.now → cycleDue d.writer = 8 := fun hwake => by
    simp only [cycleDue, hy, hst, hwake, if_true]
  simp only [SharedQueue.retake, hst] at hr
  split at hr
  · rw [Option.ite_none_right_eq_some] at hr
    obtain ⟨hwake, hr⟩ := hr
    rcases hpop : d.writer.queue.pop (.worker 0) with ⟨x, q'⟩
    simp only [hpop, Option.some.injEq, Prod.mk.injEq] at hr
    obtain ⟨rfl, rfl⟩ := hr
    subst hu
    refine h.worker_took hplot hj hworkers hsuits hy hpop (fun _ => ?_) hrun
    rw [hdue hwake]
    cases last
    · change 7 < _
      omega
    · change 4 < _
      omega
  · rename_i hn
    rw [Option.ite_none_right_eq_some] at hr
    obtain ⟨htold, hr⟩ := hr
    simp only [Option.some.injEq, Prod.mk.injEq] at hr
    obtain ⟨rfl, rfl⟩ := hr
    subst hu
    rw [not_or, Bool.not_eq_true, Int.not_le] at hn
    exact h.worker_waits hplot hj hworkers hsuits hy hn.2 hn.1
      (by rw [hdue (.inl htold)]; decide) rfl hrun rfl

end Script

end Demo

end SerialWriter
