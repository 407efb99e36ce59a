import SerialWriter.Proofs.Demo.Cast

/-!
The writes of a demonstration: none of them is turned away, since the queue is never full, and none
of the producers waits.
-/

namespace SerialWriter

open Finset

namespace Demo

variable {d v : Demo} {t : Thread} {n k p c : Nat} {s : Submission Graph (Option Nat)}
  {stage stage' : WriteStage} {u w : Writer Graph (Option Nat)}

/-! ### What is told to the worker -/

lemma WorkerStage.due_le {s : WorkerStage} {i j : Nat} (h : i ≤ j + 8) : s.due i ≤ s.due j + 8 := by
  cases s <;> simp only [SerialWriter.WorkerStage.due] <;> omega

lemma workerDue_le (hw : u.control.workers = w.control.workers)
    (h : cycleDue u ≤ cycleDue w + 8) : workerDue u ≤ workerDue w + 8 := by
  rw [workerDue, workerDue, hw]
  cases w.control.workers with
  | nil => exact Nat.zero_le _
  | cons s _ => exact WorkerStage.due_le h

lemma workerDue_congr (hw : u.control.workers = w.control.workers) (hy : u.cycles = w.cycles)
    (hs : u.queue.stages.get? (.worker 0) = w.queue.stages.get? (.worker 0)) (hn : u.now = w.now) :
    workerDue u = workerDue w := by
  rw [workerDue, workerDue, cycleDue, cycleDue, hw, hy, hs, hn]

/-- A worker that is told has a take before it that it may have had to wait for. -/
lemma cycleDue_le (hy : u.cycles = w.cycles) (hn : u.now = w.now)
    (hs : u.queue.stages.get? (.worker 0) = w.queue.stages.get? (.worker 0) ∨ ∃ b c,
      w.queue.stages.get? (.worker 0) = some (.waiting b c) ∧
        u.queue.stages.get? (.worker 0) = some (.waiting b true)) :
    cycleDue u ≤ cycleDue w + 8 := by
  unfold cycleDue
  rw [hy, hn]
  cases w.cycles.get? (.worker 0) with
  | some y => exact Nat.le_add_right ..
  | none =>
    rcases hs with hs | ⟨b, c, hs, hs'⟩
    · rw [hs]
      exact Nat.le_add_right ..
    · rw [hs, hs']
      dsimp only
      rw [if_pos (.inl rfl)]
      exact Nat.le_add_left ..

/-! ### One write -/

lemma Settings.of_eq (h : Settings w) (hconfig : u.config = w.config)
    (hcontrol : u.control.config = w.control.config) (hfactory : u.factory = w.factory)
    (hq : u.queue.OfCapacity 1000) (hdropped : u.dropped = w.dropped)
    (htimed : u.timedOut = w.timedOut) (hfailed : u.ledger.failed = w.ledger.failed) :
    Settings u :=
  ⟨hconfig.trans h.config, hcontrol.trans h.control, hfactory.trans h.factory, hq,
    hdropped.trans h.dropped, htimed.trans h.timedOut, hfailed.trans h.failed⟩

/-- **Client `c` is in the middle of writing the task `s`**, which comes when it does. -/
structure InWrite (d : Demo) (c : Nat) (s : Submission Graph (Option Nat)) (stage : WriteStage) :
    Prop where
  call : d.writer.calls.get? (.client c) = some (.writing s stage)
  smooth : stage.smooth = true
  credit : ∀ v : Demo, v.stage = d.stage → v.sent = d.sent →
    (∀ t, t ≠ .client c → v.writer.calls.get? t = d.writer.calls.get? t) →
    v.credit + enteredBy (d.writer.calls.get? (.client c)) =
      d.credit + enteredBy (v.writer.calls.get? (.client c))
  job : ∀ k, stage = .offering k → s.work = Graph.job d.writer.queue.accepted.length
  room : ∀ k, stage = .offering k → d.writer.queue.accepted.length ≤ 400
  main : ∀ k, stage = .offering k → c = 0 → d.writer.queue.accepted.length = 400
  bound : d.writer.queue.accepted.length ≤ 401
  phase : d.writer.phase = .running
  /-- The main thread waits, and nobody else. -/
  patient : c = 0 ↔ 0 < s.wait
  brief : s.wait ≤ 0 → stage.brief = true
  lead : c = 0 → d.stage = .waiting
  last : c = 0 → s = lastTask

/-- What comes after a stage of a write. -/
inductive WriteTurn (s : Submission Graph (Option Nat)) (now : Time) :
    CallOfWriter Graph (Option Nat) → Prop
  | goesOn {stage : WriteStage} (hs : stage.smooth = true) (hb : s.wait ≤ 0 → stage.brief = true)
      (hw : ∀ k b, stage = .waiting k b → now < b) : WriteTurn s now (.writing s stage)
  | untold (hw : s.wait ≤ 0) : WriteTurn s now (.ended (.ok none))
  | told (hw : 0 < s.wait) : WriteTurn s now (.ended (.ok (some (some 400))))

/-- **A write has gone on**, and nothing else but the queue and the envelopes has changed. -/
structure WriteStep (d : Demo) (c : Nat) (stage : WriteStage) (a : CallOfWriter Graph (Option Nat))
    (u : Writer Graph (Option Nat)) : Prop where
  calls : u.calls = d.writer.calls.put (.client c) a
  control : u.control = d.writer.control
  now : u.now = d.writer.now
  settings : Settings u
  work : Work { d with writer := u }
  alert : ∀ b, u.queue.stages.get? (.worker 0) = some (.waiting b false) →
    u.queue.items = [] ∨ ∃ t s k, u.calls.get? t = some (.writing s (.notifying k))
  load : a.due 0 + load u < stage.due + load d.writer

namespace Script

lemma alert_of_call (h : Script d)
    (hn : ∀ s k, d.writer.calls.get? t ≠ some (.writing s (.notifying k)))
    (hq : u.queue = d.writer.queue)
    (hc : ∀ t', t' ≠ t → u.calls.get? t' = d.writer.calls.get? t') (i : Time)
    (hi : u.queue.stages.get? (.worker 0) = some (.waiting i false)) :
    u.queue.items = [] ∨ ∃ t s k, u.calls.get? t = some (.writing s (.notifying k)) := by
  rw [hq] at hi ⊢
  refine (h.alert i hi).imp_right fun ⟨t', s', k', h'⟩ => ⟨t', s', k', ?_⟩
  rw [hc, h']
  rintro rfl
  exact hn s' k' h'

lemma eq_of_waiting (h : Script d) {b : Time} {told : Bool}
    (ht : d.writer.queue.stages.get? t = some (.waiting b told)) : t = .worker 0 := by
  obtain ⟨n, rfl, hw, -⟩ := h.kept.tuned.waiting t b told ht
  obtain ⟨s, -, hs⟩ := h.main
  rw [hs.eq_zero hw]

lemma work_of_turn (h : Script d) (hp : InWrite d c s stage) (he : stage'.entered = stage.entered)
    (hk : stage'.entered = true → stage'.ticket? = stage.ticket?)
    (hr : ∀ k, stage' = .told k .ready → (d.writer.cell k).ready = true)
    (hc : u.calls = d.writer.calls.put (.client c) (.writing s stage'))
    (hacc : u.queue.accepted = d.writer.queue.accepted)
    (hrem : u.queue.removed = d.writer.queue.removed) (hy : u.cycles = d.writer.cycles)
    (hres : u.resource = d.writer.resource) (hx : u.ledger = d.writer.ledger)
    (hcarries : ∀ k p, Carries d.writer.envelopes k p → Carries u.envelopes k p)
    (hcell : ∀ k, u.cell k = d.writer.cell k)
    (hoff : ∀ k, stage' = .offering k → Carries u.envelopes k s.work) :
    Work { d with writer := u } := by
  have ha := hp.call
  have hself : u.calls.get? (.client c) = some (.writing s stage') :=
    hc ▸ Roster.get?_put_self ..
  have hother : ∀ t, t ≠ .client c → u.calls.get? t = d.writer.calls.get? t := fun t ht =>
    hc ▸ Roster.get?_put_ne _ _ ht
  have hcredit := hp.credit { d with writer := u } rfl rfl hother
  rw [ha, hself, enteredBy, enteredBy, he, Nat.add_right_cancel_iff] at hcredit
  refine h.work.turn ⟨hacc, hcarries, hcell⟩ ⟨?_, ?_, ?_⟩ hcredit ?_
    (fun hd => (congrArg List.length hrem).trans (h.work.done hd))
    (h.work.worker.congr hy hrem hres (congrArg Ledger.executed hx) fun k => by rw [hcell])
  · unfold told
    by_cases h0 : c = 0
    · subst h0
      simp only [ha, hself]
      cases d.stage <;> rfl
    · rw [hother _ (by simpa using Ne.symm h0)]
  · intro s' st k hv he' hk'
    by_cases h0 : c = 0
    · subst h0
      cases hself.symm.trans hv
      exact ⟨stage, ha, he ▸ he', (hk he').symm.trans hk'⟩
    · rw [hother _ (by simpa using Ne.symm h0)] at hv
      exact ⟨st, hv, he', hk'⟩
  · intro s' k hv
    by_cases h0 : c = 0
    · subst h0
      cases hself.symm.trans hv
      exact hr k rfl
    · rw [hother _ (by simpa using Ne.symm h0)] at hv
      exact h.work.ready s' k hv
  · intro t s' k hv
    by_cases htc : t = .client c
    · subst htc
      cases hself.symm.trans hv
      exact hoff k rfl
    · rw [hother t htc] at hv
      exact hcarries _ _ (h.work.offered t s' k hv)

lemma writeStep_of_turn (h : Script d) (hp : InWrite d c s stage)
    (hn : ∀ k, stage ≠ .notifying k) (he : stage'.entered = stage.entered)
    (hk : stage'.entered = true → stage'.ticket? = stage.ticket?)
    (hr : ∀ k, stage' = .told k .ready → (d.writer.cell k).ready = true)
    (hc : u.calls = d.writer.calls.put (.client c) (.writing s stage'))
    (hcontrol : u.control = d.writer.control) (hnow : u.now = d.writer.now)
    (hset : Settings u) (hq : u.queue = d.writer.queue) (hy : u.cycles = d.writer.cycles)
    (hres : u.resource = d.writer.resource) (hx : u.ledger = d.writer.ledger)
    (hcarries : ∀ k p, Carries d.writer.envelopes k p → Carries u.envelopes k p)
    (hcell : ∀ k, u.cell k = d.writer.cell k)
    (hoff : ∀ k, stage' = .offering k → Carries u.envelopes k s.work)
    (hdue : stage'.due < stage.due) :
    WriteStep d c stage (.writing s stage') u := by
  have hload : load u = load d.writer := by
    rw [load, load, workerDue_congr (congrArg Control.workers hcontrol) hy (hq ▸ rfl) hnow, hq]
  refine ⟨hc, hcontrol, hnow, hset, ?_, fun i hi => ?_, ?_⟩
  · exact h.work_of_turn hp he hk hr hc (congrArg SharedQueue.accepted hq)
      (congrArg SharedQueue.removed hq) hy hres hx hcarries hcell hoff
  · refine h.alert_of_call (t := .client c) (fun s' k' hk' => ?_) hq (fun _ ht => ?_) i hi
    · cases hp.call.symm.trans hk'
      exact hn k' rfl
    · rw [hc, Roster.get?_put_ne _ _ ht]
  · rw [hload]
    exact Nat.add_lt_add_right hdue _

lemma writeStep_of_creating (h : Script d) (hp : InWrite d c s .creating)
    (hs : d.writer.stepWrite (.client c) s .creating = some u) :
    WriteStep d c .creating (.writing s (.offering d.writer.envelopes.size)) u := by
  simp only [Writer.stepWrite, h.settings.factory, Option.map_some, Envelope.make] at hs
  cases hs
  refine h.writeStep_of_turn hp (by simp) rfl (by simp [WriteStage.entered]) (by simp) rfl rfl rfl
    (h.settings.of_eq rfl rfl h.settings.factory.symm h.settings.queue rfl rfl rfl) rfl rfl rfl rfl
    (fun k p hk => hk.push _) (fun k => cellAt_push rfl k) (fun k hk => ?_)
    (by simp [WriteStage.due])
  cases hk
  exact ⟨_, Array.getElem?_push_size, rfl⟩

lemma writeStep_of_offering (h : Script d) (hp : InWrite d c s (.offering k))
    (hs : d.writer.stepWrite (.client c) s (.offering k) = some u) :
    WriteStep d c (.offering k) (.writing s (.notifying k)) u := by
  have hlen : d.writer.queue.accepted.length =
      d.writer.queue.items.length + d.writer.queue.removed.length := h.kept.stored.split
  have hroom : d.writer.queue.items.length < d.writer.queue.queue.capacity := by
    have hle := hp.room k rfl
    rw [h.settings.queue.capacity]
    omega
  obtain ⟨q, hq⟩ := SharedQueue.exists_offer (.client c) k hroom
  simp only [Writer.stepWrite, hq] at hs
  cases hs
  obtain ⟨hitems, hacc, hrem⟩ := SharedQueue.offer_true hq
  obtain ⟨hawake, hstages⟩ := SharedQueue.offer_stages hq
  have hcell : (d.writer.cell k).ready = false := by
    refine Bool.eq_false_iff.mpr fun hr => (h.kept.ordered.tickets.fresh _ s k hp.call).2 ?_
    refine h.kept.ordered.mem_accepted (h.kept.ordered.begun_suffix.1.subset ?_)
    refine h.kept.ordered.touched.settled k ?_
    rw [Cell.settled, Bool.or_eq_true]
    exact .inr hr
  have hother : ∀ t, t ≠ .client c →
      (d.writer.calls.put (.client c) (.writing s (.notifying k))).get? t =
        d.writer.calls.get? t := fun t ht => Roster.get?_put_ne _ _ ht
  have hcredit := hp.credit { d with writer :=
    ({ d.writer with queue := q }).setCall (.client c) (.writing s (.notifying k)) } rfl rfl hother
  refine ⟨rfl, rfl, rfl, h.settings.of_eq rfl rfl rfl (h.settings.queue.offer hq) rfl rfl rfl, ?_,
    fun _ _ => .inr ⟨_, s, k, Roster.get?_put_self ..⟩, ?_⟩
  · refine h.work.offers hp.call rfl rfl hacc hrem rfl
      (h.work.worker.congr rfl hrem rfl rfl fun _ => rfl) ?_ (hp.job k rfl) (fun h0 => ?_) hcell
    · rw [hp.call, show enteredBy _ = 0 from rfl] at hcredit
      exact hcredit.trans (congrArg (d.credit + enteredBy ·) (Roster.get?_put_self ..))
    · exact hp.main k rfl (by simpa using h0)
  · have hworker : workerDue (({ d.writer with queue := q }).setCall (.client c)
        (.writing s (.notifying k))) = workerDue d.writer :=
      workerDue_congr rfl rfl (hstages ▸ Roster.get?_put_ne _ _ (by simp)) rfl
    have hlength : q.items.length = d.writer.queue.items.length + 1 := by
      rw [hitems, List.length_append]
      rfl
    rw [load, load, hworker]
    simp only [Writer.setCall, hlength, hawake, CallOfWriter.due, WriteStage.due]
    omega

lemma writeStep_of_notifying (h : Script d) (hp : InWrite d c s (.notifying k))
    (hs : d.writer.stepWrite (.client c) s (.notifying k) = some u) :
    WriteStep d c (.notifying k) (.writing s (.counting k)) u := by
  obtain ⟨q, hq⟩ := SharedQueue.exists_notify ((h.kept.sounds _).mpr ⟨s, k, hp.call⟩)
  simp only [Writer.stepWrite, hq, Option.map_some] at hs
  cases hs
  have hlog := SharedQueue.SameLog.notify hq
  have hrouses := (SharedQueue.notifies_of_notify hq).rouses
  have hdrop : (d.writer.queue.stages.drop (.client c)).get? (.worker 0) =
      d.writer.queue.stages.get? (.worker 0) := Roster.get?_drop_ne _ (by simp)
  refine ⟨rfl, rfl, rfl, h.settings.of_eq rfl rfl rfl (h.settings.queue.notify hq) rfl rfl rfl,
    ?_, fun i hi => ?_, ?_⟩
  · have hcalls : (({ d.writer with queue := q }).setCall (.client c)
        (.writing s (.counting k))).calls =
          d.writer.calls.put (.client c) (.writing s (.counting k)) := rfl
    refine h.work_of_turn hp ?_ ?_ ?_ hcalls hlog.accepted hlog.removed rfl rfl rfl
      (fun _ _ hk => hk) (fun _ => rfl) ?_
    · rfl
    · exact fun _ => rfl
    · simp
    · simp
  · exact absurd hi (SharedQueue.told_of_notify h.settings.queue.proper
      (fun _ _ => h.eq_of_waiting) hq)
  · have hle : workerDue (({ d.writer with queue := q }).setCall (.client c)
        (.writing s (.counting k))) ≤ workerDue d.writer + 8 :=
      workerDue_le rfl (cycleDue_le rfl rfl (hdrop ▸ hrouses.stages (.worker 0)))
    have hawake : q.queue.awake = d.writer.queue.queue.awake := hrouses.awake
    rw [load, load]
    simp only [Writer.setCall, hlog.items, hawake, CallOfWriter.due, WriteStage.due] at hle ⊢
    omega

lemma writeStep_of_counted (h : Script d) (hp : InWrite d c s (.counting k)) (hw : s.wait ≤ 0)
    (hc : u = ({ d.writer with submitted := d.writer.submitted + 1 }).finish (.client c)
      (.ok none)) : WriteStep d c (.counting k) (.ended (.ok none)) u := by
  subst hc
  have h0 : Thread.client 0 ≠ .client c := fun he => by
    cases he
    exact absurd (hp.patient.mp rfl) (Int.not_lt.mpr hw)
  have hother : ∀ t, t ≠ .client c → (d.writer.calls.put (.client c)
      (.ended (.ok none))).get? t = d.writer.calls.get? t := fun t ht => Roster.get?_put_ne _ _ ht
  have hcredit := hp.credit { d with writer :=
    ({ d.writer with submitted := d.writer.submitted + 1 }).finish (.client c) (.ok none) } rfl rfl
      hother
  have hself : enteredBy ((({ d.writer with submitted := d.writer.submitted + 1 }).finish
      (.client c) (.ok none)).calls.get? (.client c)) = 1 :=
    congrArg enteredBy (Roster.get?_put_self ..)
  rw [hp.call, hself, show enteredBy _ = 1 from rfl, Nat.add_right_cancel_iff] at hcredit
  refine ⟨rfl, rfl, rfl, h.settings.of_eq rfl rfl rfl h.settings.queue rfl rfl rfl, ?_,
    h.alert_of_call (by simp [hp.call]) rfl hother, ?_⟩
  · refine h.work.turn (.of_eq rfl rfl) (h.work.sameLast rfl (hother _ h0)) hcredit
      (fun t s' i hv => ?_) h.work.done (h.work.worker.congr rfl rfl rfl rfl fun _ => rfl)
    refine h.work.offered t s' i ?_
    by_cases htc : t = .client c
    · subst htc
      cases (Roster.get?_put_self ..).symm.trans hv
    · exact (hother t htc).symm.trans hv
  · exact Nat.add_lt_add_right (by simp [CallOfWriter.due, WriteStage.due]) _

lemma writeStep_of_counting (h : Script d) (hp : InWrite d c s (.counting k))
    (hs : d.writer.stepWrite (.client c) s (.counting k) = some u) :
    ∃ a, WriteStep d c (.counting k) a u ∧ WriteTurn s d.writer.now a := by
  simp only [Writer.stepWrite] at hs
  split at hs
  · rename_i hw
    exact ⟨_, h.writeStep_of_counted hp hw (Option.some.inj hs).symm, .untold hw⟩
  · rename_i hw
    cases hs
    refine ⟨.writing s (.waiting k (d.writer.now.after s.wait)), ?_,
      .goesOn rfl (fun hle => absurd hle hw) fun i b hb => ?_⟩
    · exact h.writeStep_of_turn hp (by simp) rfl (fun _ => rfl) (by simp) rfl rfl rfl
        (h.settings.of_eq rfl rfl rfl h.settings.queue rfl rfl rfl) rfl rfl rfl rfl
        (fun _ _ hk => hk) (fun _ => rfl) (by simp) (by simp [WriteStage.due])
    · cases hb
      rw [hp.last (hp.patient.mpr (Int.not_le.mp hw))]
      exact h.inTime.ahead _ (by rw [waits, lastTask]; simp)

lemma writeStep_of_waiting (h : Script d) {b : Time} (hp : InWrite d c s (.waiting k b))
    (hw : 0 < s.wait) (hs : d.writer.stepWrite (.client c) s (.waiting k b) = some u) :
    WriteStep d c (.waiting k b) (.writing s (.told k .ready)) u := by
  have h0 := hp.patient.mpr hw
  have hstage := hp.lead h0
  have hcall := hp.call
  rw [h0] at hcall
  have huntold : d.told = false := by
    rw [told, hstage, hcall]
    rfl
  have hcalm := (h.work.calm huntold k).1
  have htime : d.writer.now < b :=
    h.inTime.waiting (.client c) b (by rw [Writer.callDeadline?, hp.call])
  simp only [Writer.stepWrite, Cell.status?, hcalm] at hs
  split at hs
  · rename_i status hready
    split at hready
    · rename_i hr
      cases hready
      cases hs
      exact h.writeStep_of_turn hp (by simp) rfl (fun _ => rfl) (fun i hi => by cases hi; exact hr)
        rfl rfl rfl (h.settings.of_eq rfl rfl rfl h.settings.queue rfl rfl rfl) rfl rfl rfl rfl
        (fun _ _ hk => hk) (fun _ => rfl) (by simp)
        (by simp [WriteStage.due])
    · cases hready
  · rw [if_neg (Int.not_le.mpr htime)] at hs
    cases hs

lemma removed_length {c : Course Graph (Option Nat)} (h : c.Ordered)
    (hlen : c.accepted.length ≤ 401) (hk : c.accepted.reverse[400]? = some k)
    (hr : k ∈ c.removed) : c.removed.length = 401 := by
  have hsplit := congrArg List.length h.split
  rw [List.length_append] at hsplit
  rw [h.split, List.reverse_append, List.reverse_reverse] at hk
  by_cases hlt : 400 < c.removed.length
  · omega
  · rw [List.getElem?_append_right (by rw [List.length_reverse]; omega)] at hk
    exact absurd hr (h.pending_not_removed (List.mem_of_getElem? hk))

lemma writeStep_of_told (h : Script d) (hp : InWrite d c s (.told k .ready)) (hw : 0 < s.wait)
    (hs : d.writer.stepWrite (.client c) s (.told k .ready) = some u) :
    WriteStep d c (.told k .ready) (.ended (.ok (some (some 400)))) u := by
  obtain rfl := hp.patient.mpr hw
  have hstage := hp.lead rfl
  have huntold : d.told = false := by
    rw [told, hstage, hp.call]
    rfl
  have hready := h.work.ready s k hp.call
  have hlast := h.work.last s _ k hp.call rfl rfl
  have hvalue := h.work.shows huntold 400 k hlast hready
  have hremoved : d.writer.queue.removed.length = 401 := by
    refine removed_length h.kept.ordered hp.bound hlast
      (h.kept.ordered.begun_suffix.1.subset (h.kept.ordered.touched.settled k ?_))
    rw [Cell.settled, Bool.or_eq_true]
    exact .inr hready
  simp only [Writer.stepWrite, (h.work.calm huntold k).2, Cell.take, hvalue] at hs
  cases hs
  have hother : ∀ t, t ≠ .client 0 → (d.writer.calls.put (.client 0)
      (.ended (.ok (some (some 400))))).get? t = d.writer.calls.get? t :=
    fun t ht => Roster.get?_put_ne _ _ ht
  have hcredit := hp.credit { d with writer :=
    (d.writer.changeCell k fun c => c.take.2).finish (.client 0) (.ok (some (some 400))) } rfl rfl
      hother
  have hself : enteredBy (((d.writer.changeCell k fun c => c.take.2).finish (.client 0)
      (.ok (some (some 400)))).calls.get? (.client 0)) = 1 :=
    congrArg enteredBy (Roster.get?_put_self ..)
  rw [hp.call, hself, show enteredBy _ = 1 from rfl, Nat.add_right_cancel_iff] at hcredit
  refine ⟨rfl, rfl, rfl, h.settings.of_eq rfl rfl rfl h.settings.queue rfl rfl rfl, ?_,
    h.alert_of_call (by simp [hp.call]) rfl hother, ?_⟩
  · refine h.work.collects (k := k) hstage (Roster.get?_put_self ..) hother hcredit rfl hremoved
      rfl (h.work.worker.congr rfl rfl rfl rfl fun i => ?_)
    exact apply_cellAt_take Cell.claimed (fun _ => rfl) d.writer.envelopes k i
  · exact Nat.add_lt_add_right (by simp [CallOfWriter.due, WriteStage.due]) _

theorem write_goes_on (h : Script d) (hp : InWrite d c s stage)
    (hs : d.writer.step (.run (.client c)) = some u) :
    ∃ a, WriteStep d c stage a u ∧ WriteTurn s d.writer.now a := by
  simp only [Writer.step, Writer.run, hp.call, Writer.stepCall] at hs
  have hwait : stage.brief = false → 0 < s.wait := fun hb =>
    Int.not_le.mp fun hle => by
      rw [hp.brief hle] at hb
      cases hb
  cases stage with
  | checking =>
    have haccepts : d.writer.phase.accepts = true := by
      rw [hp.phase]
      rfl
    simp only [Writer.stepWrite, haccepts, if_true] at hs
    cases hs
    refine ⟨.writing s .creating, ?_, .goesOn rfl (fun _ => rfl) (by simp)⟩
    exact h.writeStep_of_turn hp (by simp) rfl (by simp [WriteStage.entered]) (by simp) rfl rfl rfl
      (h.settings.of_eq rfl rfl rfl h.settings.queue rfl rfl rfl) rfl rfl rfl rfl
      (fun _ _ hk => hk) (fun _ => rfl) (by simp)
      (by simp [WriteStage.due])
  | creating => exact ⟨_, h.writeStep_of_creating hp hs, .goesOn rfl (fun _ => rfl) (by simp)⟩
  | offering k => exact ⟨_, h.writeStep_of_offering hp hs, .goesOn rfl (fun _ => rfl) (by simp)⟩
  | notifying k => exact ⟨_, h.writeStep_of_notifying hp hs, .goesOn rfl (fun _ => rfl) (by simp)⟩
  | counting k => exact h.writeStep_of_counting hp hs
  | waiting k b =>
    have hw := hwait rfl
    exact ⟨_, h.writeStep_of_waiting hp hw hs, .goesOn rfl
      (fun hle => absurd hle (Int.not_le.mpr hw)) (by simp)⟩
  | losing => cases hp.smooth
  | told k status =>
    cases status with
    | ready =>
      have hw := hwait rfl
      exact ⟨_, h.writeStep_of_told hp hw hs, .told hw⟩
    | timeout => cases hp.smooth
    | interrupted => cases hp.smooth

end Script

end Demo

end SerialWriter
