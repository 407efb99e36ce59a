import SerialWriter.Proofs.Demo.TaskRuns

/-!
The end of a demonstration: once the writer has been stopped, the main thread prints what has become
of the graph and the tasks, destroys the writer, and the program is over.
-/

namespace SerialWriter

namespace Demo

variable {d v : Demo} {t : Thread} {x : View}

def report : String :=
  "\n\n====== dbwriter ======\nlast node id: 400\nnodes: 401, transactions: 401\n" ++
    "stats: submitted=401, dropped=0, executed=401, failed=0, timed_out=0, queued=0\n" ++
    "\n\n====== normal exit ======\n"

/-- Where the main thread stands once it has printed everything. -/
inductive AfterReport : View → Prop
  | destroys : AfterReport ⟨.leaving none, some .destroying, none, .terminated, none⟩
  | walks : AfterReport ⟨.leaving none, some (.walking .discard), none, .terminated, none⟩
  | clears : AfterReport ⟨.leaving none, some .clearing, none, .terminated, none⟩
  | looks :
      AfterReport ⟨.leaving none, some .releasing, some (.destroy .looking), .terminated, none⟩
  | locks :
      AfterReport ⟨.leaving none, some .releasing, some (.destroy .locking), .terminated, none⟩
  | joins :
      AfterReport ⟨.leaving none, some .releasing, some (.destroy .joining), .terminated,
        some (.client 0)⟩
  | joined :
      AfterReport ⟨.leaving none, some .releasing, some (.ended (.ok ())), .terminated, none⟩
  | left : AfterReport ⟨.leaving none, some (.ended (.ok none)), none, .terminated, none⟩
  | exited : AfterReport ⟨.exited 0, none, none, .terminated, none⟩

/-- **The demonstration has printed everything**, and has nothing left to do but to destroy the
writer. -/
structure Leaves (d : Demo) : Prop where
  stage : AfterReport d.view
  staff : Staff.buried.Of d.writer.control
  idle : ∀ t, t ≠ .client 0 → d.writer.calls.get? t = none
  outside : ∀ t, t ≠ .client 0 → d.writer.control.calls.get? t = none
  items : d.writer.queue.items = []
  output : d.output = report
  errors : d.errors = ""

/-! ### What is printed after the stop -/

namespace Script

lemma idle_of_late (h : Script d) (hl : d.stage.late = true) (ht : t ≠ .client 0) :
    d.writer.calls.get? t = none := by
  cases t with
  | worker n => exact h.worker_idle n
  | client c =>
    cases c with
    | zero => exact absurd rfl ht
    | succ p =>
      cases h.producers p with
      | absent _ ha => exact ha
      | idle _ _ _ ha => exact ha
      | writes hs _ _ _ _ | wrote hs _ _ _ =>
        rw [hs] at hl
        cases hl

/-- **At the end all 401 tasks have been submitted and run.** -/
lemma books_of_closed (h : Script d)
    (hx : d.view = ⟨.stopping, some (.ended (.ok none)), none, .terminated, none⟩)
    (hstaff : Staff.buried.Of d.writer.control) : d.writer.resource = .after 401 ∧
      d.writer.stats = { submitted := 401, executed := 401 } := by
  obtain ⟨hstage, hcall, -, -, -⟩ := View.mk.inj hx
  have hlate : d.stage.late = true := by rw [hstage]; rfl
  have htold : d.told = true := by rw [told, hstage]; rfl
  have hdone := h.work.done htold
  -- nobody owes a submission any more, so that all that was accepted is counted
  have hsubmitted : d.writer.submitted = 401 := by
    have hbalance : d.writer.submitted + d.writer.calls.count CallOfWriter.owing =
        d.writer.queue.accepted.length := h.kept.entered.balance
    have hproper : d.writer.calls.Proper := h.kept.entered.proper
    have howing : ¬ 0 < d.writer.calls.count CallOfWriter.owing := by
      rw [hproper.count_pos_iff]
      rintro ⟨t, a, ha, ho⟩
      by_cases ht : t = .client 0
      · subst ht
        cases hcall.symm.trans ha
        cases ho
      · cases (h.idle_of_late hlate ht).symm.trans ha
    have hcount := h.work.count
    rw [credit_of_late h.four h.producers hlate, mainCredit, hstage] at hcount
    change _ = 400 + 1 at hcount
    omega
  have hqueued : d.writer.queue.size = 0 := by
    have hsize : d.writer.queue.size = d.writer.queue.items.length := h.kept.stored.queued
    rw [hsize, h.items_nil htold]
    rfl
  cases h.work.worker with
  | rests _ hres hexecuted =>
    rw [hdone] at hres hexecuted
    refine ⟨hres, ?_⟩
    rw [Writer.stats, hsubmitted, h.settings.dropped, hexecuted, h.settings.failed,
      h.settings.timedOut, hqueued]
  | inHand hy _ _ =>
    -- the worker is gone
    obtain ⟨last, hw⟩ := h.kept.tuned.linked.cycling hy
    change d.writer.control.worker? 0 = _ at hw
    rw [Control.worker?, hstaff.2] at hw
    cases hw

/-- **The main thread prints its report** and turns to the destruction. -/
lemma leaves_of_closed (h : Script d) (hs : d.step (.client 0) = some v)
    (hx : d.view = ⟨.stopping, some (.ended (.ok none)), none, .terminated, none⟩)
    (hstaff : Staff.buried.Of d.writer.control) : Leaves v := by
  obtain ⟨hres, hstats⟩ := h.books_of_closed hx hstaff
  obtain ⟨hstage, hcall, hctl, hphase, hholder⟩ := View.mk.inj hx
  simp only [step_ended hcall, resume, resumeMain, hstage, Option.some.injEq] at hs
  have hself : ((d.writer.calls.drop (.client 0)).put (.client 0) .destroying).get? (.client 0) =
      some (.destroying : CallOfWriter Graph (Option Nat)) := Roster.get?_put_self ..
  have hview : v.view = ⟨.leaving none, some .destroying, none, .terminated, none⟩ := by
    subst hs
    exact View.ext rfl hself hctl hphase hholder
  subst hs
  have hidle : ∀ t, t ≠ .client 0 → d.writer.calls.get? t = none := fun t =>
    h.idle_of_late (by rw [hstage]; rfl)
  refine ⟨hview ▸ .destroys, hstaff, fun t ht => ?_,
    fun t ht => h.kept.tuned.linked.outside_of_none (hidle t ht),
    h.items_nil (by rw [told, hstage]; rfl), ?_, h.errors⟩
  · exact (Roster.get?_put_ne _ _ ht).trans ((Roster.get?_drop_ne _ ht).trans (hidle t ht))
  · have hclosing : d.closing = "nodes: 401, transactions: 401\nstats: " ++
        Stats.summary { submitted := 401, executed := 401 } ++
          "\n\n\n====== normal exit ======\n" := by
      rw [closing, hres, hstats]
      rfl
    change d.output ++ d.closing = report
    rw [h.output, hstage, hclosing]
    decide +kernel

theorem main_goes (h : Script d) (hs : d.step (.client 0) = some v) :
    Script v ∧ v.rank < d.rank ∨ Leaves v := by
  obtain ⟨s, hplot, hstaff⟩ := h.main
  generalize hx : d.view = x at hplot
  cases hplot with
  | opening => exact .inl (h.goes_of_opening hs hx hstaff)
  | enters => exact .inl (h.goes_of_enters hs hx hstaff)
  | launches => exact .inl (h.goes_of_launches hs hx hstaff)
  | spawns => exact .inl (h.goes_of_spawns hs hx hstaff)
  | hatches => exact .inl (h.goes_of_hatches hs hx hstaff)
  | starts => exact .inl (h.goes_of_starts hs hx hstaff)
  | started => exact .inl (h.goes_of_started hs hx hstaff)
  | sees => exact .inl (h.goes_of_sees hs hx hstaff)
  | produces => exact .inl (h.goes_of_produces hs hx hstaff)
  | writes hsmooth => exact .inl (h.goes_of_writes hs hx hsmooth hstaff)
  | wrote => exact .inl (h.goes_of_wrote hs hx hstaff)
  | stops => exact .inl (h.goes_of_stops hs hx hstaff)
  | wakes => exact .inl (h.goes_of_wakes hs hx hstaff)
  | awaits => exact .inl (h.goes_of_awaits hs hx hstaff)
  | hears => exact .inl (h.goes_of_hears hs hx hstaff)
  | collects => exact .inl (h.goes_of_collects hs hx hstaff)
  | stopped => exact .inl (h.goes_of_stopped hs hx hstaff)
  | walks => exact .inl (h.goes_of_walks hs hx hstaff)
  | closes => exact .inl (h.goes_of_closes hs hx hstaff)
  | closed => exact .inr (h.leaves_of_closed hs hx hstaff)

end Script

/-! ### The destruction -/

namespace Leaves

variable {u : Writer Graph (Option Nat)}

lemma mainDue_eq (hx : d.view = x) : d.mainDue =
    x.stage.due + x.call.elim 0 (·.due (x.control.elim 0 (·.due (rung d.writer)))) := by
  subst hx
  rfl

lemma of_run (h : Leaves d) {a a' : CallOfWriter Graph (Option Nat)} {c c' : Option CallStage}
    {o o' : Option Thread} (hx : d.view = ⟨.leaving none, some a, c, .terminated, o⟩)
    (hn : ∀ r, a ≠ .ended r) (hu : d.writer.step (.run (.client 0)) = some u)
    (hcall : u.calls.get? (.client 0) = some a') (hctl : u.control.calls.get? (.client 0) = c')
    (hphase : u.control.phase = .terminated) (hholder : u.control.holder = o')
    (hreport : AfterReport ⟨.leaving none, some a', c', .terminated, o'⟩)
    (hstaff : Staff.buried.Of u.control)
    (hc : ∀ t, t ≠ .client 0 → u.calls.get? t = d.writer.calls.get? t)
    (hcc : ∀ t, t ≠ .client 0 → u.control.calls.get? t = d.writer.control.calls.get? t)
    (hitems : u.queue.items = []) (hdue : ∀ r r', a'.due (c'.elim 0 (·.due r)) <
      a.due (c.elim 0 (·.due r'))) :
    ∃ v, d.step (.client 0) = some v ∧ Leaves v ∧ v.mainDue < d.mainDue := by
  have hview : view { d with writer := u } = ⟨.leaving none, some a', c', .terminated, o'⟩ :=
    View.ext (congrArg View.stage hx :) hcall hctl hphase hholder
  refine ⟨{ d with writer := u }, ?_, ⟨hview ▸ hreport, hstaff,
    fun t ht => (hc t ht).trans (h.idle t ht), fun t ht => (hcc t ht).trans (h.outside t ht),
    hitems, h.output, h.errors⟩, ?_⟩
  · rw [step_of_call (congrArg View.call hx :) hn, hu, Option.map_some]
  · rw [mainDue_eq hview, mainDue_eq hx]
    exact Nat.add_lt_add_left (hdue _ _) _

lemma of_control (h : Leaves d) {st st' : CallStage} {o o' : Option Thread} {c : Control}
    (hx : d.view = ⟨.leaving none, some .releasing, some st, .terminated, o⟩)
    (hr : ∀ r, st ≠ .ended r) (hw : ∀ closing, st ≠ .stop closing .waking)
    (hs : d.writer.control.stepCall (.client 0) d.writer.now d.writer.journal =
      some (c, d.writer.journal)) (hctl : c.calls.get? (.client 0) = some st')
    (hphase : c.phase = .terminated) (hholder : c.holder = o')
    (hreport : AfterReport ⟨.leaving none, some .releasing, some st', .terminated, o'⟩)
    (hstaff : Staff.buried.Of c)
    (hcc : ∀ t, t ≠ .client 0 → c.calls.get? t = d.writer.control.calls.get? t)
    (hdue : ∀ r r', st'.due r < st.due r') :
    ∃ v, d.step (.client 0) = some v ∧ Leaves v ∧ v.mainDue < d.mainDue := by
  obtain ⟨-, hcall, hst, -, -⟩ := View.mk.inj hx
  have hu : d.writer.step (.run (.client 0)) = some { d.writer with control := c } := by
    rw [Writer.run_inside hcall rfl hst hr hw, hs, Option.map_some]
  exact h.of_run hx (by simp) hu hcall hctl hphase hholder hreport hstaff (fun _ _ => rfl) hcc
    h.items fun r r' => Nat.add_lt_add_left (hdue r r') _

lemma goes_of_destroys (h : Leaves d)
    (hx : d.view = ⟨.leaving none, some .destroying, none, .terminated, none⟩) :
    ∃ v, d.step (.client 0) = some v ∧ Leaves v ∧ v.mainDue < d.mainDue := by
  obtain ⟨-, hcall, hctl, hphase, hholder⟩ := View.mk.inj hx
  have hu : d.writer.step (.run (.client 0)) =
      some (d.writer.setCall (.client 0) (.walking .discard)) := by
    simp only [Writer.step, Writer.run, hcall, Writer.stepCall, Writer.phase, hphase]
    rfl
  exact h.of_run hx (by simp) hu (Roster.get?_put_self ..) hctl hphase hholder .walks h.staff
    (fun _ ht => Roster.get?_put_ne _ _ ht) (fun _ _ => rfl) h.items (by simp [CallOfWriter.due])

lemma goes_of_walks (h : Leaves d)
    (hx : d.view = ⟨.leaving none, some (.walking .discard), none, .terminated, none⟩) :
    ∃ v, d.step (.client 0) = some v ∧ Leaves v ∧ v.mainDue < d.mainDue := by
  obtain ⟨-, hcall, hctl, hphase, hholder⟩ := View.mk.inj hx
  have hu : d.writer.step (.run (.client 0)) = some (d.writer.setCall (.client 0) .clearing) := by
    simp only [Writer.step, Writer.run, hcall, Writer.stepCall, Writer.interruptPending, h.items,
      List.length_nil, Nat.lt_irrefl, if_false, List.foldl_nil, Writer.afterWalk]
  exact h.of_run hx (by simp) hu (Roster.get?_put_self ..) hctl hphase hholder .clears h.staff
    (fun _ ht => Roster.get?_put_ne _ _ ht) (fun _ _ => rfl) h.items (by simp [CallOfWriter.due])

lemma goes_of_clears (h : Leaves d)
    (hx : d.view = ⟨.leaving none, some .clearing, none, .terminated, none⟩) :
    ∃ v, d.step (.client 0) = some v ∧ Leaves v ∧ v.mainDue < d.mainDue := by
  obtain ⟨-, hcall, hctl, hphase, hholder⟩ := View.mk.inj hx
  have hu : d.writer.step (.run (.client 0)) = some (({ d.writer with
      queue := d.writer.queue.clear
      control := d.writer.control.beginDestroy (.client 0) } : Writer _ _).setCall (.client 0)
        .releasing) := by
    simp only [Writer.step, Writer.run, hcall, Writer.stepCall]
  have hcself : (d.writer.control.beginDestroy (.client 0)).calls.get? (.client 0) =
      some (.destroy .looking) := Roster.get?_put_self ..
  exact h.of_run hx (by simp) hu (Roster.get?_put_self ..) hcself hphase hholder .looks h.staff
    (fun _ ht => Roster.get?_put_ne _ _ ht) (fun _ ht => Roster.get?_put_ne _ _ ht) rfl
    (by simp [CallOfWriter.due, CallStage.due])

lemma goes_of_releasing (h : Leaves d) {st : DestroyStage} {o : Option Thread}
    (hx : d.view = ⟨.leaving none, some .releasing, some (.destroy st), .terminated, o⟩)
    (hreport : AfterReport ⟨.leaving none, some .releasing, some (.destroy st), .terminated, o⟩) :
    ∃ v, d.step (.client 0) = some v ∧ Leaves v ∧ v.mainDue < d.mainDue := by
  obtain ⟨-, -, hctl, hphase, hholder⟩ := View.mk.inj hx
  cases hreport with
  | looks =>
    refine h.of_control (c := d.writer.control.setCall (.client 0) (.destroy .locking)) hx
      (by simp) (by simp) ?_ (Roster.get?_put_self ..) hphase hholder .locks h.staff
      (fun _ ht => Roster.get?_put_ne _ _ ht) (by simp [CallStage.due])
    simp only [Control.stepCall, hctl, Control.stepDestroy, hphase]
    rfl
  | locks =>
    refine h.of_control
      (c := (d.writer.control.lock (.client 0)).setCall (.client 0) (.destroy .joining)) hx
      (by simp) (by simp) ?_ (Roster.get?_put_self ..) hphase rfl .joins h.staff
      (fun _ ht => Roster.get?_put_ne _ _ ht) (by simp [CallStage.due])
    simp only [Control.stepCall, hctl, Control.stepDestroy, Control.free_iff.mpr hholder, if_true]
  | joins =>
    refine h.of_control (c := d.writer.control.finish (.client 0) (.ok ())) hx
      (by simp) (by simp) ?_ (Roster.get?_put_self ..) hphase rfl .joined h.staff
      (fun _ ht => Roster.get?_put_ne _ _ ht) (by simp [CallStage.due])
    simp only [Control.stepCall, hctl, Control.stepDestroy, Control.join, h.staff.1,
      Option.map_some]

lemma goes_of_joined (h : Leaves d)
    (hx : d.view =
      ⟨.leaving none, some .releasing, some (.ended (.ok ())), .terminated, none⟩) :
    ∃ v, d.step (.client 0) = some v ∧ Leaves v ∧ v.mainDue < d.mainDue := by
  obtain ⟨-, hcall, hctl, hphase, hholder⟩ := View.mk.inj hx
  have hu : d.writer.step (.run (.client 0)) = some (({ d.writer with
      control := d.writer.control.acknowledge (.client 0) } : Writer _ _).finish (.client 0)
        (.ok none)) := by
    simp only [Writer.step, Writer.run, hcall, Writer.stepCall, Writer.throughControl,
      Control.result?_eq_some_iff.mpr hctl, Except.map]
  have hcself : (d.writer.control.acknowledge (.client 0)).calls.get? (.client 0) = none :=
    Roster.get?_drop_self ..
  exact h.of_run hx (by simp) hu (Roster.get?_put_self ..) hcself hphase hholder .left h.staff
    (fun _ ht => Roster.get?_put_ne _ _ ht) (fun _ ht => Roster.get?_drop_ne _ ht) h.items
    (by simp [CallOfWriter.due, CallStage.due])

lemma goes_of_left (h : Leaves d)
    (hx : d.view = ⟨.leaving none, some (.ended (.ok none)), none, .terminated, none⟩) :
    ∃ v, d.step (.client 0) = some v ∧ Leaves v ∧ v.mainDue < d.mainDue := by
  obtain ⟨hstage, hcall, hctl, hphase, hholder⟩ := View.mk.inj hx
  have hs : d.step (.client 0) = some { d with
      writer := { d.writer with calls := d.writer.calls.drop (.client 0) }
      stage := .exited 0 } := by
    simp only [step_ended hcall, resume, resumeMain, hstage]
  have hview : view { d with
      writer := { d.writer with calls := d.writer.calls.drop (.client 0) }
      stage := .exited 0 } = ⟨.exited 0, none, none, .terminated, none⟩ :=
    View.ext rfl (Roster.get?_drop_self ..) hctl hphase hholder
  refine ⟨_, hs, ⟨hview ▸ .exited, h.staff, fun t ht => ?_, h.outside, h.items, h.output,
    h.errors⟩, ?_⟩
  · exact (Roster.get?_drop_ne _ ht).trans (h.idle t ht)
  · rw [mainDue_eq hview, mainDue_eq hx]
    simp [DemoStage.due]

/-- **The main thread destroys the writer**, and then the program is over. -/
lemma main_goes (h : Leaves d) : d.exit? = some 0 ∨
    ∃ v, d.step (.client 0) = some v ∧ Leaves v ∧ v.mainDue < d.mainDue := by
  have hreport := h.stage
  generalize hx : d.view = x at hreport
  cases hreport with
  | destroys => exact .inr (h.goes_of_destroys hx)
  | walks => exact .inr (h.goes_of_walks hx)
  | clears => exact .inr (h.goes_of_clears hx)
  | looks => exact .inr (h.goes_of_releasing hx .looks)
  | locks => exact .inr (h.goes_of_releasing hx .locks)
  | joins => exact .inr (h.goes_of_releasing hx .joins)
  | joined => exact .inr (h.goes_of_joined hx)
  | left => exact .inr (h.goes_of_left hx)
  | exited => exact .inl (by rw [exit?, show d.stage = .exited 0 from congrArg View.stage hx])

lemma alone (h : Leaves d) (hs : d.step t = some v) : t = .client 0 := by
  have hstage : d.stage = .leaving none ∨ d.stage = .exited 0 := by
    have hreport := h.stage
    generalize hx : d.view = x at hreport
    have hstage : d.stage = x.stage := congrArg View.stage hx
    rw [hstage]
    cases hreport with
    | exited => exact .inr rfl
    | _ => exact .inl rfl
  by_contra ht
  have hnone := h.idle t ht
  cases t with
  | client c =>
    cases c with
    | zero => exact ht rfl
    | succ p =>
      rw [step_idle hnone, begin?] at hs
      rcases hstage with hstage | hstage <;> simp [hstage] at hs
  | worker n =>
    obtain ⟨-, hworkers⟩ := h.staff
    have hworker : d.writer.control.worker? n = none ∨
        d.writer.control.worker? n = some .finished := by
      rw [Control.worker?, hworkers, List.getElem?_singleton]
      split
      · exact .inr rfl
      · exact .inl rfl
    rcases hworker with hw | hw <;>
      simp [step_worker, Writer.step, Writer.run, hnone, Writer.stepWorker, Control.budget?,
        Control.stepWorker, hw] at hs

lemma callDeadline?_eq_none (h : Leaves d) (t : Thread) : d.writer.callDeadline? t = none := by
  rw [Writer.callDeadline?, Control.deadline?_eq]
  by_cases ht : t = .client 0
  · subst ht
    have hreport := h.stage
    generalize hx : d.view = x at hreport
    rw [show d.writer.calls.get? _ = x.call from congrArg View.call hx,
      show d.writer.control.calls.get? _ = x.control from congrArg View.control hx]
    cases hreport <;> rfl
  · rw [h.idle t ht, h.outside t ht]
    rfl

/-- **Whoever goes on**, it is towards the end. -/
theorem goes (h : Leaves d) (hs : d.step t = some v) : Leaves v ∧ v.mainDue < d.mainDue := by
  obtain rfl := h.alone hs
  rcases h.main_goes with hexit | ⟨v', hv, hgoes⟩
  · have hreport := h.stage
    generalize hx : d.view = x at hreport
    cases hreport with
    | exited =>
      obtain ⟨hstage, hcall, -, -, -⟩ := View.mk.inj hx
      rw [step_idle hcall, begin?, hstage] at hs
      cases hs
    | _ =>
      rw [exit?, show d.stage = .leaving none from congrArg View.stage hx] at hexit
      cases hexit
  · rw [hs, Option.some.injEq] at hv
    exact hv ▸ hgoes

end Leaves

end Demo

end SerialWriter
