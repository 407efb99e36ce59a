import SerialWriter.Proofs.Demo.Producers

/-!
The main thread of a demonstration, up to the end of the stop: every step it makes is the next of
the script.
-/

namespace SerialWriter

lemma WorkerStage.Suits.terminated {s : WorkerStage} (h : s.Suits .terminated) :
    s = .leaving ∨ s = .finished := by
  cases h with
  | looking hp | entering hp | cycling hp => rcases hp with hp | hp <;> cases hp
  | leaving => exact .inl rfl
  | finished => exact .inr rfl

lemma WorkerStage.Suits.stopping {s : WorkerStage} (h : s.Suits .running) : s.Suits .stopping := by
  cases h with
  | looking _ => exact .looking (.inr rfl)
  | entering _ => exact .entering (.inr rfl)
  | cycling _ => exact .cycling (.inr rfl)

/-- When the wait of a call runs out, if it waits. -/
def CallStage.deadline? : CallStage → Option Time
  | .start _ (.waiting b _) | .stop _ (.waiting b _) => some b
  | _ => none

lemma Control.deadline?_eq (c : Control) (t : Thread) :
    c.deadline? t = (c.calls.get? t).bind CallStage.deadline? := by
  unfold deadline?
  cases c.calls.get? t with
  | none => rfl
  | some s =>
    cases s with
    | start b s => cases s <;> rfl
    | stop b s => cases s <;> rfl
    | destroy s => rfl
    | ended r => rfl

namespace Demo

variable {d v : Demo} {t : Thread} {s : Staff} {c : Control} {j : Journal}
  {a? : Option CallStage} {u w : Writer Graph (Option Nat)}

/-! ### Steps that keep to the script -/

lemma mainDue_add (hs : v.stage = d.stage)
    (hc : v.writer.calls.get? (.client 0) = d.writer.calls.get? (.client 0))
    (hd : d.writer.course.Linked) (hv : v.writer.course.Linked) :
    v.mainDue + controlDue d.writer = d.mainDue + controlDue v.writer := by
  have hnone : ∀ {w : Writer Graph (Option Nat)}, w.course.Linked →
      (∀ a, w.calls.get? (.client 0) = some a → a.inControl = false) → controlDue w = 0 := by
    intro w hw ha
    have hcall : w.control.calls.get? (.client 0) = none := hw.outside ha
    rw [controlDue, hcall]
    rfl
  have hoff : (∀ a, d.writer.calls.get? (.client 0) = some a → a.inControl = false) →
      controlDue d.writer = 0 ∧ controlDue v.writer = 0 := fun ha =>
    ⟨hnone hd ha, hnone hv (hc ▸ ha)⟩
  rw [mainDue, mainDue, hs, hc]
  cases ha : d.writer.calls.get? (.client 0) with
  | none =>
    obtain ⟨h₁, h₂⟩ := hoff (by simp [ha])
    rw [h₁, h₂]
  | some a =>
    cases a with
    | starting | stopping _ | releasing =>
      simp only [Option.elim_some, CallOfWriter.due]
      omega
    | _ =>
      obtain ⟨h₁, h₂⟩ := hoff fun b hb => by
        cases ha.symm.trans hb
        rfl
      rw [h₁, h₂]

namespace Script

/-- **The demonstration after a move** that keeps to the script and does nothing for the
producers. -/
lemma turn (h : Script d) {x : View} (hkept : Kept v.writer) (hset : Settings v.writer)
    (hview : v.view = x) (hplot : Plot x s) (hstaff : s.Of v.writer.control)
    (hc : ∀ t, t ≠ .client 0 → v.writer.calls.get? t = d.writer.calls.get? t)
    (hproducers : ∀ p, Producer v p) (hsent : v.sent = d.sent) (hspawns : v.spawns = d.spawns)
    (ho : v.output = v.stage.printed) (he : v.errors = d.errors)
    (hahead : ∀ ms ∈ waits, v.writer.now < v.writer.now.after ms)
    (htime : ∀ b, v.writer.callDeadline? (.client 0) = some b → v.writer.now < b) (hwork : Work v)
    (halert : ∀ b, v.writer.queue.stages.get? (.worker 0) = some (.waiting b false) →
      v.writer.queue.items = [] ∨
        ∃ t s k, v.writer.calls.get? t = some (.writing s (.notifying k)))
    (hheard : v.writer.phase = .stopping → v.writer.control.waking (.client 0) = false →
      v.writer.Heard) : Script v := by
  have hidle : ∀ n, v.writer.calls.get? (.worker n) = none := fun n =>
    (hc _ (by simp)).trans (h.worker_idle n)
  exact ⟨hkept, hset, ⟨s, hview ▸ hplot, hstaff⟩, hproducers, hspawns.trans h.spawns,
    hsent ▸ h.four, ho, he.trans h.errors, inTime_of_main hkept hproducers hidle htime hahead,
    hwork, halert, hheard⟩

lemma of_turn (h : Script d) {x : View} (hkept : Kept v.writer) (hset : Settings v.writer)
    (hview : v.view = x) (hplot : Plot x s) (hstaff : s.Of v.writer.control)
    (hc : ∀ t, t ≠ .client 0 → v.writer.calls.get? t = d.writer.calls.get? t)
    (hproducers : ∀ p, Producer v p) (hsent : v.sent = d.sent) (hspawns : v.spawns = d.spawns)
    (ho : v.output = v.stage.printed) (he : v.errors = d.errors)
    (hnow : v.writer.now = d.writer.now)
    (htime : ∀ b, v.writer.callDeadline? (.client 0) = some b → v.writer.now < b) (hwork : Work v)
    (halert : ∀ b, v.writer.queue.stages.get? (.worker 0) = some (.waiting b false) →
      v.writer.queue.items = [] ∨
        ∃ t s k, v.writer.calls.get? t = some (.writing s (.notifying k)))
    (hheard : v.writer.phase = .stopping → v.writer.control.waking (.client 0) = false →
      v.writer.Heard)
    (hlt : v.mainDue + load v.writer < d.mainDue + load d.writer) :
    Script v ∧ v.rank < d.rank :=
  ⟨h.turn hkept hset hview hplot hstaff hc hproducers hsent hspawns ho he
      (hnow ▸ h.inTime.ahead) htime hwork halert hheard,
    rank_lt hsent (fun p => hc _ (by simp)) hlt⟩

lemma heard_of_step {m : Writer.Move Graph (Option Nat)} (h : Script d)
    (hs : d.writer.step m = some u) (hp : d.writer.phase = .stopping)
    (hw : d.writer.control.waking (.client 0) = false) : u.Heard :=
  (h.heard hp hw).step h.kept.tuned (by rw [hp]; decide) hs

/-- **The control goes on** by the script. -/
lemma of_control (h : Script d) {x : DemoStage} {y : Option (CallOfWriter Graph (Option Nat))}
    {p : Phase} {o : Option Thread}
    (hs : d.writer.step (.run t) = some { d.writer with control := c, journal := j })
    (hstage : d.stage = x) (hcall : d.writer.calls.get? (.client 0) = y)
    (hctl : c.calls.get? (.client 0) = a?) (hconfig : c.config = d.writer.control.config)
    (hphase : c.phase = p) (hholder : c.holder = o) (hplot : Plot ⟨x, y, a?, p, o⟩ s)
    (hstaff : s.Of c) (htime : ∀ b, a?.bind CallStage.deadline? = some b → d.writer.now < b)
    (hheard : c.phase = .stopping → c.waking (.client 0) = false →
      d.writer.phase = .stopping ∧ d.writer.control.waking (.client 0) = false)
    (hlt : a?.elim 0 (·.due (rung d.writer)) +
      workerDue { d.writer with control := c, journal := j } <
        controlDue d.writer + workerDue d.writer) :
    Script { d with writer := { d.writer with control := c, journal := j } } ∧
      rank { d with writer := { d.writer with control := c, journal := j } } < d.rank := by
  have hkept := h.kept.run hs h.intact (h.intact t)
  have hview : view { d with writer := { d.writer with control := c, journal := j } } =
      ⟨x, y, a?, p, o⟩ := View.ext hstage hcall hctl hphase hholder
  refine h.of_turn hkept (h.settings.of_eq rfl hconfig rfl h.settings.queue rfl rfl rfl)
    hview hplot hstaff (fun _ _ => rfl) (fun p => (h.producers p).congr rfl rfl rfl) rfl rfl
    h.output rfl rfl (fun b hb => ?_) ?_ h.alert (fun hp hw => ?_) ?_
  · unfold Writer.callDeadline? at hb
    split at hb
    · rename_i hwaits
      refine h.inTime.waiting (.client 0) b ?_
      have hwaits' : d.writer.calls.get? (.client 0) = _ := hwaits
      rw [Writer.callDeadline?, hwaits']
      exact hb
    · refine htime b ?_
      rw [← hctl, ← hb]
      exact (Control.deadline?_eq c (.client 0)).symm
  · exact h.work.works rfl rfl rfl rfl rfl h.work.done
      (h.work.worker.congr rfl rfl rfl rfl fun _ => rfl)
  · obtain ⟨hp', hw'⟩ := hheard hp hw
    exact h.heard_of_step hs hp' hw'
  · have hmain := mainDue_add (d := d)
      (v := { d with writer := { d.writer with control := c, journal := j } }) rfl rfl
        h.kept.tuned.linked hkept.tuned.linked
    have hcontrol : controlDue { d.writer with control := c, journal := j } =
        a?.elim 0 (·.due (rung d.writer)) := by
      rw [← hctl]
      rfl
    rw [hcontrol] at hmain
    rw [load, load]
    change mainDue _ + (workerDue { d.writer with control := c, journal := j } +
      20 * d.writer.queue.items.length + 5 * d.writer.queue.queue.awake.toNat) < _
    omega

/-! ### Steps of the main thread in the control -/

lemma of_own_control (h : Script d) {x : DemoStage} {y : Option (CallOfWriter Graph (Option Nat))}
    {p : Phase} {o : Option Thread} {st st' : CallStage}
    (hs : d.writer.step (.run t) = some { d.writer with control := c, journal := j })
    (hstage : d.stage = x) (hcall : d.writer.calls.get? (.client 0) = y)
    (hctl : d.writer.control.calls.get? (.client 0) = some st)
    (hctl' : c.calls.get? (.client 0) = some st') (hconfig : c.config = d.writer.control.config)
    (hphase : c.phase = p) (hholder : c.holder = o) (hplot : Plot ⟨x, y, some st', p, o⟩ s)
    (hstaff : s.Of c) (hworkers : c.workers = d.writer.control.workers)
    (htime : ∀ b, st'.deadline? = some b → d.writer.now < b)
    (hheard : c.phase = .stopping → c.waking (.client 0) = false →
      d.writer.phase = .stopping ∧ d.writer.control.waking (.client 0) = false)
    (hdue : st'.due (rung d.writer) < st.due (rung d.writer)) :
    Script { d with writer := { d.writer with control := c, journal := j } } ∧
      rank { d with writer := { d.writer with control := c, journal := j } } < d.rank := by
  refine h.of_control hs hstage hcall hctl' hconfig hphase hholder hplot hstaff htime hheard ?_
  have hold : controlDue d.writer = st.due (rung d.writer) := by
    rw [controlDue, hctl]
    rfl
  have hworker : workerDue { d.writer with control := c, journal := j } = workerDue d.writer :=
    workerDue_congr hworkers rfl rfl rfl
  rw [hold, hworker, Option.elim_some]
  omega

end Script

lemma step_inside {a : CallOfWriter Graph (Option Nat)} {st : CallStage}
    (ha : d.writer.calls.get? t = some a) (hi : a.inControl = true)
    (hc : d.writer.control.calls.get? t = some st) (hr : ∀ r, st ≠ .ended r)
    (hw : ∀ closing, st ≠ .stop closing .waking) (hs : d.step t = some v) :
    ∃ c j, d.writer.control.stepCall t d.writer.now d.writer.journal = some (c, j) ∧
      d.writer.step (.run t) = some { d.writer with control := c, journal := j } ∧
        v = { d with writer := { d.writer with control := c, journal := j } } := by
  have hne : ∀ r, a ≠ .ended r := by
    rintro r rfl
    cases hi
  rw [step_of_call ha hne, Option.map_eq_some_iff] at hs
  obtain ⟨u, hu, rfl⟩ := hs
  have hmap := Writer.run_inside ha hi hc hr hw
  rw [hmap, Option.map_eq_some_iff] at hu
  obtain ⟨⟨c, j⟩, hcj, rfl⟩ := hu
  exact ⟨c, j, hcj, by rw [hmap, hcj]; rfl, rfl⟩

namespace Script

variable {x : View}

lemma goes_of_enters (h : Script d) (hs : d.step (.client 0) = some v)
    (hx : d.view = ⟨.starting, some .starting, some (.start true .entering), .new, none⟩)
    (hstaff : Staff.unborn.Of d.writer.control) : Script v ∧ v.rank < d.rank := by
  obtain ⟨hstage, hcall, hctl, hphase, hholder⟩ := View.mk.inj hx
  obtain ⟨c, j, hcj, hrun, rfl⟩ := step_inside hcall rfl hctl (by simp) (by simp) hs
  simp only [Control.stepCall, hctl, Control.stepStart, Control.free_iff.mpr hholder, if_true,
    Control.startRefusal?_eq_none_iff.mpr (.inl hphase)] at hcj
  cases hcj
  exact h.of_own_control hrun hstage hcall hctl (Roster.get?_put_self ..) rfl hphase rfl .launches
    hstaff rfl (fun _ hb => by cases hb)
    (fun hp => by cases hphase.symm.trans hp) (by simp [CallStage.due])

lemma goes_of_launches (h : Script d) (hs : d.step (.client 0) = some v)
    (hx : d.view =
      ⟨.starting, some .starting, some (.start true .launching), .new, some (.client 0)⟩)
    (hstaff : Staff.unborn.Of d.writer.control) : Script v ∧ v.rank < d.rank := by
  obtain ⟨hstage, hcall, hctl, hphase, hholder⟩ := View.mk.inj hx
  obtain ⟨c, j, hcj, hrun, rfl⟩ := step_inside hcall rfl hctl (by simp) (by simp) hs
  simp only [Control.stepCall, hctl, Control.stepStart, Control.join, hstaff.1, Option.map_some,
    Control.enter_of_unarmed h.kept.quiet] at hcj
  cases hcj
  exact h.of_own_control hrun hstage hcall hctl (Roster.get?_put_self ..) rfl rfl hholder .spawns
    ⟨rfl, hstaff.2⟩ rfl (fun _ hb => by cases hb)
    (fun hp => by cases hp) (by simp [CallStage.due])

lemma goes_of_spawns (h : Script d) (hs : d.step (.client 0) = some v)
    (hx : d.view =
      ⟨.starting, some .starting, some (.start true .spawning), .starting, some (.client 0)⟩)
    (hstaff : Staff.unborn.Of d.writer.control) : Script v ∧ v.rank < d.rank := by
  obtain ⟨hstage, hcall, hctl, hphase, hholder⟩ := View.mk.inj hx
  obtain ⟨c, j, hcj, hrun, rfl⟩ := step_inside hcall rfl hctl (by simp) (by simp) hs
  simp only [Control.stepCall, hctl, Control.stepStart, if_true] at hcj
  cases hcj
  obtain ⟨-, hworkers⟩ := hstaff
  have hwaits : d.writer.now < d.writer.now.after d.writer.control.config.startupLimit :=
    h.inTime.ahead _ (by rw [h.settings.control, waits]; simp)
  refine h.of_control hrun hstage hcall (Roster.get?_put_self ..) rfl hphase rfl .hatches
    ⟨by rw [hworkers]; rfl, .created, by rw [hworkers]; rfl, ?_⟩
    (fun b hb => Option.some.inj hb ▸ hwaits) (fun hp => by cases hphase.symm.trans hp) ?_
  · exact hphase ▸ .created
  · simp only [controlDue, hctl, workerDue, Control.setCall, Control.unlock, hworkers,
      List.nil_append, Option.elim_some, CallStage.due, WorkerStage.due, Bool.toNat_false]
    omega

lemma goes_of_hatches (h : Script d) {b : Time} {told : Bool} (hs : d.step (.client 0) = some v)
    (hx : d.view =
      ⟨.starting, some .starting, some (.start true (.waiting b told)), .starting, none⟩)
    (hstaff : Staff.alive.Of d.writer.control) : Script v ∧ v.rank < d.rank := by
  obtain ⟨hstage, hcall, hctl, hphase, hholder⟩ := View.mk.inj hx
  obtain ⟨c, j, hcj, hrun, rfl⟩ := step_inside hcall rfl hctl (by simp) (by simp) hs
  have htime : d.writer.now < b :=
    h.inTime.waiting (.client 0) b (by simp [Writer.callDeadline?, hcall, Control.deadline?, hctl])
  simp only [Control.stepCall, hctl, Control.stepStart, Control.free_iff.mpr hholder,
    Int.not_le.mpr htime, decide_false, Bool.or_false, Bool.true_and, hphase, ne_eq,
    not_true_eq_false, if_false, Option.ite_none_right_eq_some, Option.some.injEq,
    Prod.mk.injEq] at hcj
  obtain ⟨rfl, rfl, rfl⟩ := hcj
  exact h.of_own_control hrun hstage hcall hctl (Roster.get?_put_self ..) rfl hphase hholder
    .hatches hstaff rfl (fun i hi => Option.some.inj hi ▸ htime)
    (fun hp => by cases hphase.symm.trans hp) (by simp [CallStage.due])

lemma goes_of_starts (h : Script d) {b : Time} (hs : d.step (.client 0) = some v)
    (hx : d.view =
      ⟨.starting, some .starting, some (.start true (.waiting b true)), .running, none⟩)
    (hstaff : Staff.alive.Of d.writer.control) : Script v ∧ v.rank < d.rank := by
  obtain ⟨hstage, hcall, hctl, hphase, hholder⟩ := View.mk.inj hx
  obtain ⟨c, j, hcj, hrun, rfl⟩ := step_inside hcall rfl hctl (by simp) (by simp) hs
  have hlog : d.writer.journal.log (.client 0) (.started d.writer.control.config.name) =
      (none, (d.writer.journal.log (.client 0) (.started d.writer.control.config.name)).2) :=
    Prod.ext (Journal.log_of_unarmed h.kept.quiet ..).1 rfl
  simp only [Control.stepCall, hctl, Control.stepStart, Control.free_iff.mpr hholder,
    Bool.true_or, Bool.and_true, if_true, hphase, ne_eq, reduceCtorEq, not_false_eq_true,
    Control.concludeStart, if_false, Option.some.injEq] at hcj
  rw [hlog] at hcj
  cases hcj
  exact h.of_own_control hrun hstage hcall hctl (Roster.get?_put_self ..) rfl hphase rfl .started
    hstaff rfl (fun _ hb => by cases hb)
    (fun hp => by cases hphase.symm.trans hp) (by simp [CallStage.due])

lemma goes_of_stops (h : Script d) (hs : d.step (.client 0) = some v)
    (hx : d.view =
      ⟨.stopping, some (.stopping false), some (.stop false .entering), .running, none⟩)
    (hstaff : Staff.alive.Of d.writer.control) : Script v ∧ v.rank < d.rank := by
  obtain ⟨hstage, hcall, hctl, hphase, hholder⟩ := View.mk.inj hx
  obtain ⟨c, j, hcj, hrun, rfl⟩ := step_inside hcall rfl hctl (by simp) (by simp) hs
  simp only [Control.stepCall, hctl, Control.stepStop, Control.free_iff.mpr hholder, if_true,
    hphase, Control.enter_of_unarmed h.kept.quiet] at hcj
  cases hcj
  obtain ⟨hj, st, hworkers, hsuits⟩ := hstaff
  refine h.of_own_control hrun hstage hcall hctl (Roster.get?_put_self ..) rfl rfl rfl .wakes
    ⟨hj, st, hworkers, (hphase ▸ hsuits).stopping⟩ rfl
    (fun _ hb => by cases hb) (fun _ hw => ?_) ?_
  · simp [Control.waking, Control.setCall] at hw
  · simp only [CallStage.due]
    split <;> omega

lemma goes_of_awaits (h : Script d) {b : Time} {told : Bool} (hs : d.step (.client 0) = some v)
    (hx : d.view = ⟨.stopping, some (.stopping false), some (.stop false (.waiting b told)),
      .stopping, none⟩)
    (hstaff : Staff.alive.Of d.writer.control) : Script v ∧ v.rank < d.rank := by
  obtain ⟨hstage, hcall, hctl, hphase, hholder⟩ := View.mk.inj hx
  obtain ⟨c, j, hcj, hrun, rfl⟩ := step_inside hcall rfl hctl (by simp) (by simp) hs
  have htime : d.writer.now < b :=
    h.inTime.waiting (.client 0) b (by simp [Writer.callDeadline?, hcall, Control.deadline?, hctl])
  simp only [Control.stepCall, hctl, Control.stepStop, Control.free_iff.mpr hholder,
    Int.not_le.mpr htime, decide_false, Bool.or_false, Bool.true_and, Control.isOver, hphase,
    reduceCtorEq, Bool.false_eq_true, if_false, Option.ite_none_right_eq_some, Option.some.injEq,
    Prod.mk.injEq] at hcj
  obtain ⟨rfl, rfl, rfl⟩ := hcj
  exact h.of_own_control hrun hstage hcall hctl (Roster.get?_put_self ..) rfl hphase hholder
    .awaits hstaff rfl (fun i hi => Option.some.inj hi ▸ htime)
    (fun _ _ => ⟨hphase, by simp [Control.waking, hctl]⟩) (by simp [CallStage.due])

lemma goes_of_hears (h : Script d) {b : Time} (hs : d.step (.client 0) = some v)
    (hx : d.view = ⟨.stopping, some (.stopping false), some (.stop false (.waiting b true)),
      .terminated, none⟩)
    (hstaff : Staff.alive.Of d.writer.control) : Script v ∧ v.rank < d.rank := by
  obtain ⟨hstage, hcall, hctl, hphase, hholder⟩ := View.mk.inj hx
  obtain ⟨c, j, hcj, hrun, rfl⟩ := step_inside hcall rfl hctl (by simp) (by simp) hs
  simp only [Control.stepCall, hctl, Control.stepStop, Control.free_iff.mpr hholder,
    Bool.true_or, Bool.and_true, if_true, Control.isOver, hphase, decide_true] at hcj
  cases hcj
  exact h.of_own_control hrun hstage hcall hctl (Roster.get?_put_self ..) rfl hphase rfl .collects
    hstaff rfl (fun _ hb => by cases hb)
    (fun hp => by cases hphase.symm.trans hp) (by simp [CallStage.due])

lemma goes_of_collects (h : Script d) (hs : d.step (.client 0) = some v)
    (hx : d.view = ⟨.stopping, some (.stopping false), some (.stop false .collecting),
      .terminated, some (.client 0)⟩)
    (hstaff : Staff.alive.Of d.writer.control) : Script v ∧ v.rank < d.rank := by
  obtain ⟨hstage, hcall, hctl, hphase, hholder⟩ := View.mk.inj hx
  obtain ⟨c, j, hcj, hrun, rfl⟩ := step_inside hcall rfl hctl (by simp) (by simp) hs
  obtain ⟨hj, st, hworkers, hsuits⟩ := hstaff
  have hlog : d.writer.journal.log (.client 0) (.stopped d.writer.control.config.name) =
      (none, (d.writer.journal.log (.client 0) (.stopped d.writer.control.config.name)).2) :=
    Prod.ext (Journal.log_of_unarmed h.kept.quiet ..).1 rfl
  rcases (hphase ▸ hsuits).terminated with rfl | rfl
  · simp [Control.stepCall, hctl, Control.stepStop, Control.join, hj, Control.gone,
      hworkers] at hcj
  · simp only [Control.stepCall, hctl, Control.stepStop, Control.join, hj, Control.gone,
      hworkers, List.getElem?_cons_zero, reduceCtorEq, if_false, if_true, Option.map_some,
      Control.concludeStop, hphase, Option.some.injEq] at hcj
    rw [hlog] at hcj
    cases hcj
    exact h.of_own_control hrun hstage hcall hctl (Roster.get?_put_self ..) rfl rfl rfl
      .stopped ⟨rfl, rfl⟩ hworkers.symm
      (fun _ hb => by cases hb)
      (fun hp => by cases hp) (by simp [CallStage.due])

end Script

end Demo

end SerialWriter
