import SerialWriter.Proofs.Demo.MainControl

/-!
The main thread of a demonstration between its calls and at the queue, up to the end of the stop.
-/

namespace SerialWriter

namespace Demo

variable {d v : Demo} {t : Thread} {s : Staff} {x : View} {u w : Writer Graph (Option Nat)}

/-! ### Steps beside the queue -/

lemma Producer.restage {p : Nat} (h : Producer d p) (hs : d.stage ≠ .producing)
    (hl : v.stage.late = true → d.stage.late = true) (hi : v.sent = d.sent)
    (hc : ∀ t, t ≠ .client 0 → v.writer.calls.get? t = d.writer.calls.get? t) : Producer v p := by
  have hcall := hc (.client (p + 1)) (by simp)
  cases h with
  | absent hi' ha => exact .absent (hi ▸ hi') (hcall.trans ha)
  | idle hi' hle hd ha => exact .idle (hi ▸ hi') hle (fun hv => hd (hl hv)) (hcall.trans ha)
  | writes hs' _ _ _ _ | wrote hs' _ _ _ => exact absurd hs' hs

lemma Work.leads (h : Work d) (hsent : v.sent = d.sent)
    (hc : ∀ t, t ≠ .client 0 → v.writer.calls.get? t = d.writer.calls.get? t)
    (hno : ∀ s stage, v.writer.calls.get? (.client 0) = some (.writing s stage) →
      stage = .checking)
    (hq : v.writer.queue = d.writer.queue) (he : v.writer.envelopes = d.writer.envelopes)
    (htold : v.told = d.told) (hcredit : v.mainCredit = d.mainCredit) (ht : WorkerPart v.writer) :
    Work v := by
  have hsum := credit_of_main hsent hc
  rw [hcredit, Nat.add_right_cancel_iff] at hsum
  refine h.turn (.of_eq (hq ▸ rfl) he) ⟨htold, fun s stage k hv hs _ => ?_, fun s k hv => ?_⟩ hsum
    (fun t s k hv => ?_) (fun hd => hq ▸ h.done hd) ht
  · rw [hno s stage hv] at hs
    cases hs
  · cases hno s _ hv
  · by_cases h0 : t = .client 0
    · cases hno s _ (h0 ▸ hv)
    · rw [he]
      exact h.offered t s k ((hc t h0).symm.trans hv)

namespace Script

/-- **The main thread goes on outside the queue**, and outside its write. -/
lemma of_lead (h : Script d) {x : View} {st : DemoStage}
    {a? : Option (CallOfWriter Graph (Option Nat))} {c? : Option CallStage} {p : Phase}
    {o : Option Thread} (hx : d.view = x) (hstage : v.stage = st)
    (hcall : v.writer.calls.get? (.client 0) = a?)
    (hctl : v.writer.control.calls.get? (.client 0) = c?) (hphase : v.writer.control.phase = p)
    (hholder : v.writer.control.holder = o) (hplot : Plot ⟨st, a?, c?, p, o⟩ s)
    (hkept : Kept v.writer) (hset : Settings v.writer)
    (hstaff : s.Of v.writer.control)
    (hc : ∀ t, t ≠ .client 0 → v.writer.calls.get? t = d.writer.calls.get? t)
    (hproducers : ∀ p, Producer v p) (hsent : v.sent = d.sent) (hspawns : v.spawns = d.spawns)
    (ho : v.output = v.stage.printed) (he : v.errors = d.errors)
    (hq : v.writer.queue = d.writer.queue) (henv : v.writer.envelopes = d.writer.envelopes)
    (hcycles : v.writer.cycles = d.writer.cycles)
    (hworkers : v.writer.control.workers = d.writer.control.workers)
    (hnow : v.writer.now = d.writer.now) (hres : v.writer.resource = d.writer.resource)
    (hledger : v.writer.ledger = d.writer.ledger)
    (hn : ∀ s stage, x.call ≠ some (.writing s stage))
    (hno : ∀ s stage, a? = some (.writing s stage) → stage = .checking)
    (htime : c?.bind CallStage.deadline? = none) (hp : p ≠ .stopping)
    (htold : st.told a? = x.stage.told x.call) (hcredit : st.credit a? = x.stage.credit x.call)
    (hdue : ∀ r, st.due + a?.elim 0 (·.due (c?.elim 0 (·.due r))) <
      x.stage.due + x.call.elim 0 (·.due (x.control.elim 0 (·.due r)))) :
    Script v ∧ v.rank < d.rank := by
  subst hx hstage hcall hctl hphase hholder
  have hcell : ∀ k, v.writer.cell k = d.writer.cell k := fun k => by
    rw [Writer.cell, Writer.cell, henv]
  have hworker : WorkerPart v.writer := h.work.worker.congr hcycles (hq ▸ rfl) hres (hledger ▸ rfl)
    fun k => by rw [hcell]
  refine h.of_turn hkept hset rfl hplot hstaff hc hproducers hsent hspawns ho he hnow
    (fun b hb => ?_) (h.work.leads hsent hc hno hq henv htold hcredit hworker)
    (h.alert_of_call (fun s k => hn s _) hq hc) (fun hp' => absurd hp' hp) ?_
  · unfold Writer.callDeadline? at hb
    split at hb
    · rename_i hw
      cases hno _ _ hw
    · rw [Control.deadline?_eq] at hb
      cases htime.symm.trans hb
  · have hload : load v.writer = load d.writer := by
      rw [load, load, workerDue_congr hworkers hcycles (hq ▸ rfl) hnow, hq]
    have hrung : rung v.writer = rung d.writer := by rw [rung, rung, hq]
    rw [hload]
    refine Nat.add_lt_add_right ?_ _
    rw [mainDue, mainDue, controlDue, controlDue, hrung]
    exact hdue (rung d.writer)

lemma goes_of_opening (h : Script d) (hs : d.step (.client 0) = some v)
    (hx : d.view = ⟨.opening, none, none, .new, none⟩)
    (hstaff : Staff.unborn.Of d.writer.control) : Script v ∧ v.rank < d.rank := by
  obtain ⟨hstage, hcall, hctl, hphase, hholder⟩ := View.mk.inj hx
  rw [step_idle hcall, begin?, hstage] at hs
  cases hs
  have hself : (d.writer.request (.client 0) (.start d.spawns)).calls.get? (.client 0) =
      some .starting := Roster.get?_put_self ..
  have hcself : (d.writer.request (.client 0) (.start d.spawns)).control.calls.get? (.client 0) =
      some (.start true .entering) := h.spawns ▸ Roster.get?_put_self ..
  have hc : ∀ t, t ≠ .client 0 → (d.writer.request (.client 0) (.start d.spawns)).calls.get? t =
      d.writer.calls.get? t := fun t ht => Roster.get?_put_ne _ _ ht
  exact h.of_lead hx (show _ = DemoStage.starting from rfl) hself hcself hphase hholder .enters
    (h.kept.request (.start _) hcall h.intact)
    (h.settings.of_eq rfl rfl rfl h.settings.queue rfl rfl rfl) hstaff hc
    (fun p => (h.producers p).restage (by simp [hstage]) (fun hl => by cases hl) rfl hc) rfl
    rfl (h.output.trans (by rw [hstage]; rfl)) rfl rfl rfl rfl rfl rfl rfl rfl (by simp) (by simp)
    rfl (by simp) rfl rfl (by simp [DemoStage.due, CallOfWriter.due, CallStage.due])

lemma goes_of_started (h : Script d) (hs : d.step (.client 0) = some v)
    (hx : d.view = ⟨.starting, some .starting, some (.ended (.ok ())), .running, none⟩)
    (hstaff : Staff.alive.Of d.writer.control) : Script v ∧ v.rank < d.rank := by
  obtain ⟨hstage, hcall, hctl, hphase, hholder⟩ := View.mk.inj hx
  have hrun := Writer.Inside.run_left hcall (.inl rfl) hctl
  rw [step_of_call hcall (by simp), hrun, Option.map_some] at hs
  cases hs
  have hself : (d.writer.calls.put (.client 0) (CallOfWriter.starting.afterControl (.ok ()))).get?
      (.client 0) = some (.ended (.ok none)) := Roster.get?_put_self ..
  have hcself : (d.writer.control.calls.drop (.client 0)).get? (.client 0) = none :=
    Roster.get?_drop_self ..
  have hkept := h.kept.run hrun h.intact (fun hr => by cases hself.symm.trans hr)
  exact h.of_lead hx hstage hself hcself hphase hholder .sees hkept
    (h.settings.of_eq rfl rfl rfl h.settings.queue rfl rfl rfl) hstaff
    (fun t ht => Roster.get?_put_ne _ _ ht) (fun p => (h.producers p).congr rfl rfl
      (Roster.get?_put_ne _ _ (by simp))) rfl rfl h.output rfl rfl rfl rfl rfl rfl rfl rfl
    (by simp) (by simp) rfl (by simp) rfl rfl
    (by simp [DemoStage.due, CallOfWriter.due, CallStage.due])

lemma goes_of_sees (h : Script d) (hs : d.step (.client 0) = some v)
    (hx : d.view = ⟨.starting, some (.ended (.ok none)), none, .running, none⟩)
    (hstaff : Staff.alive.Of d.writer.control) : Script v ∧ v.rank < d.rank := by
  obtain ⟨hstage, hcall, hctl, hphase, hholder⟩ := View.mk.inj hx
  simp only [step_ended hcall, resume, resumeMain, hstage, Option.some.injEq] at hs
  subst hs
  have hself : (d.writer.calls.drop (.client 0)).get? (.client 0) = none :=
    Roster.get?_drop_self ..
  have hc : ∀ t, t ≠ .client 0 →
      (d.writer.calls.drop (.client 0)).get? t = d.writer.calls.get? t :=
    fun t ht => Roster.get?_drop_ne _ ht
  exact h.of_lead hx (show _ = DemoStage.producing from rfl) hself hctl hphase hholder .produces
    (h.kept.acknowledge hcall h.intact)
    (h.settings.of_eq rfl rfl rfl h.settings.queue rfl rfl rfl) hstaff hc
    (fun p => (h.producers p).restage (by simp [hstage]) (fun hl => by cases hl) rfl hc) rfl
    rfl (h.output.trans (by rw [hstage]; rfl)) rfl rfl rfl rfl rfl rfl rfl rfl (by simp) (by simp)
    rfl (by simp) rfl rfl (by simp [DemoStage.due, CallOfWriter.due])

lemma goes_of_produces (h : Script d) (hs : d.step (.client 0) = some v)
    (hx : d.view = ⟨.producing, none, none, .running, none⟩)
    (hstaff : Staff.alive.Of d.writer.control) : Script v ∧ v.rank < d.rank := by
  obtain ⟨hstage, hcall, hctl, hphase, hholder⟩ := View.mk.inj hx
  simp only [step_idle hcall, begin?, hstage, Option.ite_none_right_eq_some,
    Option.some.injEq] at hs
  obtain ⟨hproduced, hs⟩ := hs
  subst hs
  rw [produced, Bool.and_eq_true, List.all_eq_true, List.all_eq_true] at hproduced
  have hself : (d.writer.request (.client 0) (.write lastTask)).calls.get? (.client 0) =
      some (.writing lastTask .checking) := Roster.get?_put_self ..
  have hc : ∀ t, t ≠ .client 0 → (d.writer.request (.client 0) (.write lastTask)).calls.get? t =
      d.writer.calls.get? t := fun t ht => Roster.get?_put_ne _ _ ht
  have hproducers : ∀ p, Producer ({ d with stage := .waiting }.request 0 (.write lastTask)) p := by
    intro p
    cases hi : d.sent[p]? with
    | none =>
      have hnone : d.writer.calls.get? (.client (p + 1)) = none := by
        by_contra hne
        have hlt := h.exists_producer hne
        rw [← h.four] at hlt
        rw [List.getElem?_eq_getElem hlt] at hi
        cases hi
      exact .absent hi ((hc _ (by simp)).trans hnone)
    | some i =>
      have hshare : i = share := of_decide_eq_true (hproduced.1 i (List.mem_of_getElem? hi))
      have hnone := hproduced.2 p (List.mem_range.mpr (List.getElem?_eq_some_iff.mp hi).1)
      rw [Option.isNone_iff_eq_none] at hnone
      exact .idle hi hshare.le (fun _ => hshare) ((hc _ (by simp)).trans hnone)
  refine h.of_lead hx (show _ = DemoStage.waiting from rfl) hself hctl hphase hholder (.writes rfl)
    (h.kept.request (.write lastTask) hcall h.intact)
    (h.settings.of_eq rfl rfl rfl h.settings.queue rfl rfl rfl) hstaff hc hproducers rfl
    rfl (h.output.trans (by rw [hstage]; rfl)) rfl rfl rfl rfl rfl rfl rfl rfl (by simp)
    (fun s stage hw => ?_) rfl (by simp) rfl rfl
    (by simp [DemoStage.due, CallOfWriter.due, WriteStage.due])
  cases hw
  rfl

lemma goes_of_wrote (h : Script d) (hs : d.step (.client 0) = some v)
    (hx : d.view = ⟨.waiting, some (.ended (.ok (some (some 400)))), none, .running, none⟩)
    (hstaff : Staff.alive.Of d.writer.control) : Script v ∧ v.rank < d.rank := by
  obtain ⟨hstage, hcall, hctl, hphase, hholder⟩ := View.mk.inj hx
  simp only [step_ended hcall, resume, resumeMain, hstage, Option.some.injEq] at hs
  subst hs
  have hnone : (d.writer.calls.drop (.client 0)).get? (.client 0) = none :=
    Roster.get?_drop_self ..
  have hkept := (h.kept.acknowledge hcall h.intact).request (k := 0) .stop hnone fun t ht => by
    rw [Roster.get?_drop, Option.ite_none_left_eq_some] at ht
    exact h.intact t ht.2
  have hself : ((d.writer.calls.drop (.client 0)).put (.client 0) (.stopping false)).get?
      (.client 0) = some (.stopping false : CallOfWriter Graph (Option Nat)) :=
    Roster.get?_put_self ..
  have hcself : (d.writer.control.beginStop (.client 0)).calls.get? (.client 0) =
      some (.stop false .entering) := Roster.get?_put_self ..
  have hc : ∀ t, t ≠ .client 0 →
      ((d.writer.calls.drop (.client 0)).put (.client 0) (.stopping false)).get? t =
        d.writer.calls.get? t := fun t ht =>
    (Roster.get?_put_ne _ _ ht).trans (Roster.get?_drop_ne _ ht)
  refine h.of_lead hx (show _ = DemoStage.stopping from rfl) hself hcself hphase hholder .stops
    hkept (h.settings.of_eq rfl rfl rfl h.settings.queue rfl rfl rfl) hstaff hc
    (fun p => (h.producers p).restage (by simp [hstage]) (fun _ => by rw [hstage]; rfl) rfl hc) rfl
    rfl ?_ rfl rfl rfl rfl rfl rfl rfl rfl (by simp) (by simp) rfl (by simp) rfl rfl
    (by simp [DemoStage.due, CallOfWriter.due, CallStage.due])
  change d.output ++ ("last node id: " ++ toString 400 ++ "\n") = DemoStage.stopping.printed
  rw [h.output, hstage]
  decide

lemma goes_of_stopped (h : Script d) (hs : d.step (.client 0) = some v)
    (hx : d.view =
      ⟨.stopping, some (.stopping false), some (.ended (.ok ())), .terminated, none⟩)
    (hstaff : Staff.buried.Of d.writer.control) : Script v ∧ v.rank < d.rank := by
  obtain ⟨hstage, hcall, hctl, hphase, hholder⟩ := View.mk.inj hx
  have hrun := Writer.Inside.run_left hcall (.inr ⟨_, rfl⟩) hctl
  rw [step_of_call hcall (by simp), hrun, Option.map_some] at hs
  cases hs
  have hself : (d.writer.calls.put (.client 0) ((CallOfWriter.stopping false).afterControl
      (.ok ()))).get? (.client 0) = some (.walking (.close false)) := Roster.get?_put_self ..
  have hcself : (d.writer.control.calls.drop (.client 0)).get? (.client 0) = none :=
    Roster.get?_drop_self ..
  have hkept := h.kept.run hrun h.intact (fun hr => by cases hself.symm.trans hr)
  exact h.of_lead hx hstage hself hcself hphase hholder .walks hkept
    (h.settings.of_eq rfl rfl rfl h.settings.queue rfl rfl rfl) hstaff
    (fun t ht => Roster.get?_put_ne _ _ ht) (fun p => (h.producers p).congr rfl rfl
      (Roster.get?_put_ne _ _ (by simp))) rfl rfl h.output rfl rfl rfl rfl rfl rfl rfl rfl
    (by simp) (by simp) rfl (by simp) rfl rfl
    (by simp [DemoStage.due, CallOfWriter.due, CallStage.due])

/-- Once the last task has been told, nothing is pending. -/
lemma items_nil (h : Script d) (ht : d.told = true) : d.writer.queue.items = [] := by
  have hsplit : d.writer.queue.accepted.length =
      d.writer.queue.items.length + d.writer.queue.removed.length := h.kept.stored.split
  have hle := h.accepted_le
  rw [h.work.done ht] at hsplit
  exact List.length_eq_zero_iff.mp (by omega)

lemma run_of_walks (h : Script d)
    (hx : d.view = ⟨.stopping, some (.walking (.close false)), none, .terminated, none⟩) :
    d.writer.step (.run (.client 0)) =
      some (d.writer.setCall (.client 0) (.closing false)) := by
  obtain ⟨hstage, hcall, -, -, -⟩ := View.mk.inj hx
  have hitems : d.writer.queue.items = [] := h.items_nil (by rw [told, hstage]; rfl)
  simp only [Writer.step, Writer.run, hcall, Writer.stepCall, Writer.interruptPending, hitems,
    List.length_nil, Nat.lt_irrefl, if_false, List.foldl_nil, Writer.afterWalk]

lemma goes_of_walks (h : Script d) (hs : d.step (.client 0) = some v)
    (hx : d.view = ⟨.stopping, some (.walking (.close false)), none, .terminated, none⟩)
    (hstaff : Staff.buried.Of d.writer.control) : Script v ∧ v.rank < d.rank := by
  obtain ⟨hstage, hcall, hctl, hphase, hholder⟩ := View.mk.inj hx
  have hrun := h.run_of_walks hx
  rw [step_of_call hcall (by simp), hrun, Option.map_some] at hs
  cases hs
  have hself : (d.writer.calls.put (.client 0) (.closing false)).get? (.client 0) =
      some (.closing false : CallOfWriter Graph (Option Nat)) := Roster.get?_put_self ..
  have hkept := h.kept.run hrun h.intact (fun hr => by cases hself.symm.trans hr)
  exact h.of_lead hx hstage hself hctl hphase hholder .closes hkept
    (h.settings.of_eq rfl rfl rfl h.settings.queue rfl rfl rfl) hstaff
    (fun t ht => Roster.get?_put_ne _ _ ht) (fun p => (h.producers p).congr rfl rfl
      (Roster.get?_put_ne _ _ (by simp))) rfl rfl h.output rfl rfl rfl rfl rfl rfl rfl rfl
    (by simp) (by simp) rfl (by simp) rfl rfl (by simp [DemoStage.due, CallOfWriter.due])

lemma run_of_closes (h : Script d)
    (hx : d.view = ⟨.stopping, some (.closing false), none, .terminated, none⟩) :
    ∃ j, d.writer.step (.run (.client 0)) =
      some (({ d.writer with journal := j } : Writer _ _).finish (.client 0) (.ok none)) := by
  have hcall : d.writer.calls.get? (.client 0) = _ := congrArg View.call hx
  simp only [Writer.step, Writer.run, hcall, Writer.stepCall, Writer.log_of_quiet h.kept.quiet]
  exact ⟨_, rfl⟩

lemma goes_of_closes (h : Script d) (hs : d.step (.client 0) = some v)
    (hx : d.view = ⟨.stopping, some (.closing false), none, .terminated, none⟩)
    (hstaff : Staff.buried.Of d.writer.control) : Script v ∧ v.rank < d.rank := by
  obtain ⟨hstage, hcall, hctl, hphase, hholder⟩ := View.mk.inj hx
  obtain ⟨j, hrun⟩ := h.run_of_closes hx
  rw [step_of_call hcall (by simp), hrun, Option.map_some] at hs
  cases hs
  have hself : (d.writer.calls.put (.client 0) (.ended (.ok none))).get? (.client 0) =
      some (.ended (.ok none) : CallOfWriter Graph (Option Nat)) := Roster.get?_put_self ..
  have hkept := h.kept.run hrun h.intact (fun hr => by cases hself.symm.trans hr)
  exact h.of_lead hx hstage hself hctl hphase hholder .closed hkept
    (h.settings.of_eq rfl rfl rfl h.settings.queue rfl rfl rfl) hstaff
    (fun t ht => Roster.get?_put_ne _ _ ht) (fun p => (h.producers p).congr rfl rfl
      (Roster.get?_put_ne _ _ (by simp))) rfl rfl h.output rfl rfl rfl rfl rfl rfl rfl rfl
    (by simp) (by simp) rfl (by simp) rfl rfl (by simp [DemoStage.due, CallOfWriter.due])

/-! ### Steps at the queue -/

lemma rings (h : Script d)
    (hx : d.view = ⟨.stopping, some (.stopping false), some (.stop false .waking), .stopping,
      some (.client 0)⟩)
    (hstaff : Staff.alive.Of d.writer.control)
    (hn : ∀ b, d.writer.queue.stages.get? (.client 0) ≠ some (.notifying b))
    (hrun : d.writer.step (.run (.client 0)) =
      some { d.writer with queue := d.writer.queue.wake (.client 0) })
    (hv : v = { d with writer := { d.writer with queue := d.writer.queue.wake (.client 0) } }) :
    Script v ∧ v.rank < d.rank := by
  subst hv
  obtain ⟨hstage, hcall, hctl, hphase, hholder⟩ := View.mk.inj hx
  have hkept := h.kept.run hrun h.intact (h.intact _)
  have hwaking : d.writer.control.waking (.client 0) = true := Control.waking_iff.mpr ⟨_, hctl⟩
  have hworker : (d.writer.queue.stages.put (.client 0) (.notifying true)).get? (.worker 0) =
      d.writer.queue.stages.get? (.worker 0) := Roster.get?_put_ne _ _ (by simp)
  refine h.of_turn hkept (h.settings.of_eq rfl rfl rfl
      ⟨h.settings.queue.capacity, h.settings.queue.proper.put _ _⟩ rfl rfl rfl)
    hx .wakes hstaff (fun _ _ => rfl) (fun p => (h.producers p).congr rfl rfl rfl) rfl rfl
    h.output rfl rfl
    (fun b hb => h.inTime.waiting (.client 0) b (hb ▸ callDeadline_congr rfl rfl)) ?_
    (fun b hb => h.alert b (hworker ▸ hb)) (fun _ hw => by cases hwaking.symm.trans hw) ?_
  · exact h.work.works rfl rfl rfl rfl rfl h.work.done
      (h.work.worker.congr rfl rfl rfl rfl fun _ => rfl)
  · -- the raised flag costs the worker one more take, and the main thread has paid for it
    have hload : load { d.writer with queue := d.writer.queue.wake (.client 0) } ≤
        load d.writer + 5 := by
      rw [load, load, show workerDue { d.writer with queue := d.writer.queue.wake (.client 0) } =
        workerDue d.writer from workerDue_congr rfl rfl hworker rfl]
      have hle := Bool.toNat_le (d.writer.queue.wake (.client 0)).queue.awake
      dsimp only
      rw [SharedQueue.items_wake]
      omega
    have hold : rung d.writer = false := by
      unfold rung
      split
      · rename_i b hb
        exact absurd hb (hn b)
      · rfl
    have hnew : rung { d.writer with queue := d.writer.queue.wake (.client 0) } = true := by
      rw [rung, show (d.writer.queue.wake (.client 0)).stages.get? (.client 0) = _ from
        Roster.get?_put_self ..]
    have hmain : mainDue { d with writer := { d.writer with
        queue := d.writer.queue.wake (.client 0) } } + 10 = d.mainDue := by
      simp only [mainDue, controlDue, hcall, hctl, hold, hnew, Option.elim_some, CallOfWriter.due,
        CallStage.due, if_true, Bool.false_eq_true, if_false]
    refine Nat.lt_of_le_of_lt (Nat.add_le_add_left hload _) ?_
    omega

lemma wakes (h : Script d)
    (hx : d.view = ⟨.stopping, some (.stopping false), some (.stop false .waking), .stopping,
      some (.client 0)⟩)
    (hstaff : Staff.alive.Of d.writer.control) {q : SharedQueue Nat} {b : Bool}
    (hb : d.writer.queue.stages.get? (.client 0) = some (.notifying b))
    (hq : d.writer.queue.notify (.client 0) none = some q)
    (hrun : d.writer.step (.run (.client 0)) = some { d.writer with
      queue := q
      control := d.writer.control.woken (.client 0) d.writer.now })
    (hv : v = { d with writer := { d.writer with
      queue := q
      control := d.writer.control.woken (.client 0) d.writer.now } }) :
    Script v ∧ v.rank < d.rank := by
  obtain ⟨hstage, hcall, hctl, hphase, hholder⟩ := View.mk.inj hx
  have hwaking : d.writer.control.waking (.client 0) = true := Control.waking_iff.mpr ⟨_, hctl⟩
  rw [Control.woken_eq hctl] at hrun hv
  subst hv
  have hcself : (d.writer.control.unlock.setCall (.client 0) (.stop false (.waiting
      (d.writer.now.after d.writer.control.config.shutdownLimit) false))).calls.get? (.client 0) =
      some (.stop false (.waiting (d.writer.now.after d.writer.control.config.shutdownLimit)
        false)) := Roster.get?_put_self ..
  have hkept := h.kept.run hrun h.intact (h.intact _)
  have hheard := Writer.heard_of_wakes h.kept.tuned ⟨hwaking, hrun, by
    rw [Control.waking, hcself]⟩
  have hlog := SharedQueue.SameLog.notify hq
  have hrouses := (SharedQueue.notifies_of_notify hq).rouses
  have hdrop : (d.writer.queue.stages.drop (.client 0)).get? (.worker 0) =
      d.writer.queue.stages.get? (.worker 0) := Roster.get?_drop_ne _ (by simp)
  have hview : view { d with writer := { d.writer with
      queue := q
      control := d.writer.control.unlock.setCall (.client 0) (.stop false (.waiting
        (d.writer.now.after d.writer.control.config.shutdownLimit) false)) } } =
      ⟨.stopping, some (.stopping false), some (.stop false (.waiting
        (d.writer.now.after d.writer.control.config.shutdownLimit) false)), .stopping, none⟩ :=
    View.ext hstage hcall hcself hphase rfl
  refine h.of_turn hkept (h.settings.of_eq rfl rfl rfl (h.settings.queue.notify hq) rfl rfl rfl)
    hview .awaits hstaff (fun _ _ => rfl) (fun p => (h.producers p).congr rfl rfl rfl) rfl rfl
    h.output rfl rfl (fun i hi => ?_) ?_ (fun i hi => by cases hheard.told _ i false hi)
    (fun _ _ => hheard) ?_
  · simp only [Writer.callDeadline?, hcall, Control.deadline?_eq, hcself, Option.bind_some,
      CallStage.deadline?, Option.some.injEq] at hi
    rw [← hi]
    exact h.inTime.ahead _ (by rw [h.settings.control, waits]; simp)
  · exact h.work.works rfl rfl rfl hlog.accepted rfl
      (fun hd => (congrArg List.length hlog.removed).trans (h.work.done hd))
      (h.work.worker.congr rfl hlog.removed rfl rfl fun _ => rfl)
  · -- a worker that is told has a take before it that it may have had to wait for
    have hworker : workerDue { d.writer with
        queue := q
        control := d.writer.control.unlock.setCall (.client 0) (.stop false (.waiting
          (d.writer.now.after d.writer.control.config.shutdownLimit) false)) } ≤
        workerDue d.writer + 8 :=
      workerDue_le rfl (cycleDue_le rfl rfl (hdrop ▸ hrouses.stages (.worker 0)))
    have hawake : q.queue.awake = d.writer.queue.queue.awake := hrouses.awake
    have hold : rung d.writer = true := by rw [rung, hb]
    simp only [mainDue, load, controlDue, hcall, hctl, hcself, hold, hlog.items, hawake,
      Option.elim_some, CallOfWriter.due, CallStage.due, if_true, Bool.toNat_false] at hworker ⊢
    omega

lemma goes_of_wakes (h : Script d) (hs : d.step (.client 0) = some v)
    (hx : d.view = ⟨.stopping, some (.stopping false), some (.stop false .waking), .stopping,
      some (.client 0)⟩)
    (hstaff : Staff.alive.Of d.writer.control) : Script v ∧ v.rank < d.rank := by
  obtain ⟨hstage, hcall, hctl, hphase, hholder⟩ := View.mk.inj hx
  have hwaking : d.writer.control.waking (.client 0) = true := Control.waking_iff.mpr ⟨_, hctl⟩
  have hrun := Writer.run_of_waking h.kept.tuned hwaking
  rw [step_of_call hcall (by simp), hrun, Option.map_eq_some_iff] at hs
  obtain ⟨u, hu, rfl⟩ := hs
  have hstep := hrun.trans hu
  unfold Writer.stepControl at hu
  rw [if_pos hwaking] at hu
  split at hu
  · rename_i b hb
    obtain ⟨q, hq, rfl⟩ := Option.map_eq_some_iff.mp hu
    exact h.wakes hx hstaff hb hq hstep rfl
  · rename_i hn
    cases hu
    exact h.rings hx hstaff hn hstep rfl

/-! ### The last task -/

lemma inWrite_of_main (h : Script d) {stage : WriteStage}
    (hx : d.view = ⟨.waiting, some (.writing lastTask stage), none, .running, none⟩)
    (hs : stage.smooth = true) : InWrite d 0 lastTask stage := by
  obtain ⟨hstage, hcall, hctl, hphase, hholder⟩ := View.mk.inj hx
  have hcount := h.work.count
  rw [credit_of_late h.four h.producers (by rw [hstage]; rfl), mainCredit, hstage, hcall] at hcount
  have hoffer : ∀ k, stage = .offering k → d.writer.queue.accepted.length = 400 := by
    rintro k rfl
    exact hcount
  refine ⟨hcall, hs, fun v hv hsent hc => ?_, fun k hk => ?_, fun k hk => (hoffer k hk).le,
    fun k hk _ => hoffer k hk, h.accepted_le, hphase, by decide, fun hw => absurd hw (by decide),
    fun _ => hstage, fun _ => rfl⟩
  · have hcredit := credit_of_main hsent hc
    rw [mainCredit, mainCredit, hv, hstage] at hcredit
    exact hcredit
  · rw [hoffer k hk]
    rfl

lemma goes_of_writes (h : Script d) {stage : WriteStage} (hs : d.step (.client 0) = some v)
    (hx : d.view = ⟨.waiting, some (.writing lastTask stage), none, .running, none⟩)
    (hsmooth : stage.smooth = true) (hstaff : Staff.alive.Of d.writer.control) :
    Script v ∧ v.rank < d.rank := by
  obtain ⟨hstage, hcall, hctl, hphase, hholder⟩ := View.mk.inj hx
  rw [step_of_call hcall (by simp), Option.map_eq_some_iff] at hs
  obtain ⟨u, hu, rfl⟩ := hs
  obtain ⟨a, hstep, hturn⟩ := h.write_goes_on (h.inWrite_of_main hx hsmooth) hu
  have hself : u.calls.get? (.client 0) = some a := hstep.calls ▸ Roster.get?_put_self ..
  have hother : ∀ t, t ≠ .client 0 → u.calls.get? t = d.writer.calls.get? t := fun t ht =>
    hstep.calls ▸ Roster.get?_put_ne _ _ ht
  have hkept : Kept u := by
    refine h.kept.run hu h.intact ?_
    rw [hself]
    cases hturn <;> simp
  have hnone : u.control.calls.get? (.client 0) = none := hstep.control ▸ hctl
  have hview : view { d with writer := u } = ⟨.waiting, some a, none, .running, none⟩ :=
    View.ext hstage hself hnone ((congrArg Control.phase hstep.control).trans hphase)
      ((congrArg Control.holder hstep.control).trans hholder)
  have hplot : Plot ⟨.waiting, some a, none, .running, none⟩ .alive := by
    cases hturn with
    | goesOn hs _ _ => exact .writes hs
    | untold hw => exact absurd hw (by decide)
    | told _ => exact .wrote
  have hdue : ∀ i, a.due i = a.due 0 := by
    cases hturn <;> exact fun _ => rfl
  refine h.of_turn hkept hstep.settings hview hplot (hstep.control ▸ hstaff) hother
    (fun p => (h.producers p).congr rfl rfl (hother _ (by simp))) rfl rfl h.output rfl
    hstep.now (fun b hb => ?_) hstep.work hstep.alert
    (fun hp => by cases (hstep.control ▸ hphase : u.control.phase = _).symm.trans hp) ?_
  · simp only [Writer.callDeadline?, hself, Control.deadline?_eq, hnone, Option.bind_none] at hb
    cases hturn with
    | @goesOn stage' _ _ hw =>
      cases stage' with
      | waiting k b' =>
        cases hb
        exact hstep.now ▸ hw k b rfl
      | _ => cases hb
    | untold _ => cases hb
    | told _ => cases hb
  · have hload := hstep.load
    have hold : stage.due = (CallOfWriter.writing lastTask stage).due (controlDue d.writer) := rfl
    rw [mainDue, mainDue, hcall]
    change d.stage.due + (u.calls.get? (.client 0)).elim 0 (·.due (controlDue u)) + load u < _
    rw [hself, Option.elim_some, Option.elim_some, hdue]
    omega

end Script

end Demo

end SerialWriter
