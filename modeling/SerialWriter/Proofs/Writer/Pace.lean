import SerialWriter.Proofs.Writer.Quiet

/-!
A worker gets on. Whatever call its task makes comes back, the task ends, and so does the cycle; a
worker that has been told to stop ends the writer. For that nobody else has to go on but a stop that
is about to wake the worker, the gates have to open and time has to pass.
-/

namespace SerialWriter

variable {σ V : Type}

/-- How many steps a write has before it at most. -/
def WriteStage.ahead : WriteStage → Nat
  | .checking => 6
  | .creating => 5
  | .offering _ => 4
  | .notifying _ => 3
  | .counting _ => 2
  | .waiting _ _ | .losing => 1
  | .told _ _ => 0

namespace Writer

variable {w v u : Writer σ V} {t : Thread} {a : CallOfWriter σ V} {n k : Nat}
  {q : TaskCall σ V} {last : Bool} {P : Writer σ V → Prop}

/-! ### The lock -/

/-- Calls, cycles and the clock are as they were. -/
structure Untouched (w v : Writer σ V) : Prop where
  calls : v.calls = w.calls
  cycles : v.cycles = w.cycles
  now : v.now = w.now

lemma run_of_waking (h : w.Tuned) (ht : w.control.waking t = true) :
    w.step (.run t) = w.stepControl t := by
  obtain ⟨-, a, ha, hi⟩ := h.phase_of_waking ht
  obtain ⟨closing, hc⟩ := Control.waking_iff.mp ht
  have hr : w.control.result? t = none := by rw [Control.result?, hc]
  cases a with
  | starting | stopping _ | releasing =>
    simp only [step, run, ha, stepCall, throughControl, hr]
  | _ => cases hi

lemma run_inside {s : CallStage} (ha : w.calls.get? t = some a) (hi : a.inControl = true)
    (hc : w.control.calls.get? t = some s) (hr : ∀ r, s ≠ .ended r)
    (hw : ∀ closing, s ≠ .stop closing .waking) :
    w.step (.run t) = (w.control.stepCall t w.now w.journal).map fun r =>
      { w with control := r.1, journal := r.2 } := by
  have hresult := Control.result?_eq_none hc hr
  have hwaking := Control.waking_eq_false hc hw
  cases a with
  | starting | stopping _ | releasing =>
    simp only [step, run, ha, stepCall, throughControl, hresult, stepControl, hwaking,
      Bool.false_eq_true, if_false]
  | _ => cases hi

/-- **A stop that is about to wake the worker** can be made to wake it. -/
lemma Fit.woken (h : Fit n w) (ht : w.control.waking t = true)
    (hP : ∀ v, Fit n v → Untouched w v →
      (v.control = w.control ∨ v.control = w.control.woken t w.now) → P v) :
    LeadsTo Writer.step P (fun v => Untouched w v ∧ v.control = w.control.woken t w.now) w := by
  obtain ⟨closing, hcall⟩ := Control.waking_iff.mp ht
  -- the flag is up, and the notification is left
  have hlast : ∀ x : Writer σ V, Fit n x → Untouched w x → x.control = w.control →
      (∃ b, x.queue.stages.get? t = some (.notifying b)) →
      LeadsTo Writer.step P (fun v => Untouched w v ∧ v.control = w.control.woken t w.now) x := by
    intro x hx hux hcx ⟨b, hb⟩
    have hw : x.control.waking t = true := hcx ▸ ht
    obtain rfl : b = true := by
      cases b with
      | true => rfl
      | false =>
        obtain ⟨s, i, hs⟩ := (hx.sounds t).mp hb
        obtain ⟨-, a, ha, hi⟩ := hx.tuned.phase_of_waking hw
        cases ha.symm.trans hs
        cases hi
    have hs : x.step (.run t) = some { x with
        queue := x.queue.waiters.foldl SharedQueue.rouse
          { x.queue with stages := x.queue.stages.drop t }
        control := x.control.woken t x.now } := by
      rw [run_of_waking hx.tuned hw]
      simp only [stepControl, hw, if_true, hb, SharedQueue.notify, Option.map_some]
    have hcv : x.control.woken t x.now = w.control.woken t w.now := by rw [hcx, hux.now]
    have hfit := hx.run hs fun _ hd => by
      change (x.control.woken t x.now).calls.get? t = _ at hd
      rw [hcv, Control.woken_eq hcall] at hd
      cases (Roster.get?_put_self ..).symm.trans hd
    exact .next _ (hP x hx hux (.inl hcx)) hs
      (.here (hP _ hfit ⟨hux.calls, hux.cycles, hux.now⟩ (.inr hcv))
        ⟨⟨hux.calls, hux.cycles, hux.now⟩, hcv⟩)
  by_cases hb : ∃ b, w.queue.stages.get? t = some (.notifying b)
  · exact hlast w h ⟨rfl, rfl, rfl⟩ rfl hb
  · have hs : w.step (.run t) = some { w with queue := w.queue.wake t } := by
      rw [run_of_waking h.tuned ht]
      simp only [stepControl, ht, if_true]
      split
      · rename_i b hb'
        exact absurd ⟨b, hb'⟩ hb
      · rfl
    have hfit := h.run hs fun _ hd => by
      cases hcall.symm.trans hd
    exact .next _ (hP w h ⟨rfl, rfl, rfl⟩ (.inl rfl)) hs
      (hlast _ hfit ⟨rfl, rfl, rfl⟩ rfl ⟨true, Roster.get?_put_self ..⟩)

/-- In the control all is as it was for worker `n`. -/
structure SameFor (n : Nat) (c d : Control) : Prop where
  config : d.config = c.config
  phase : d.phase = c.phase
  workers : d.workers = c.workers
  cycles : d.cycles = c.cycles
  calls : d.calls.get? (.worker n) = c.calls.get? (.worker n)

/-- **The worker gets the lock**, if need be after the stop that is about to wake it. -/
lemma Fit.freed (h : Fit n w) (hp : w.phase = .running ∨ w.phase = .stopping)
    (hn : ∀ s, w.control.calls.get? (.worker n) = some s → s.holds = false)
    (hP : ∀ v, Fit n v → Untouched w v → SameFor n w.control v.control → P v) :
    LeadsTo Writer.step P (fun v => Fit n v ∧ Untouched w v ∧ SameFor n w.control v.control ∧
      v.control.holder = none) w := by
  have hself : SameFor n w.control w.control := ⟨rfl, rfl, rfl, rfl, rfl⟩
  cases hh : w.control.holder with
  | none => exact .here (hP w h ⟨rfl, rfl, rfl⟩ hself) ⟨h, ⟨rfl, rfl, rfl⟩, hself, hh⟩
  | some t =>
    have hkeeper : (∃ closing, w.control.calls.get? t = some (.stop closing .waking)) ∨
        w.control.calls.get? t = some (.destroy .joining) :=
      h.tuned.linked.orderly.keeper_of_active hp hh
    have htn : t ≠ .worker n := by
      rintro rfl
      rcases hkeeper with ⟨closing, hc⟩ | hc <;> cases hn _ hc
    obtain ⟨closing, hc⟩ := hkeeper.resolve_right (h.intact t htn)
    have hwoken := Control.woken_eq hc w.now
    have hsame : SameFor n w.control (w.control.woken t w.now) := by
      rw [hwoken]
      exact ⟨rfl, rfl, rfl, rfl, Roster.get?_put_ne _ _ htn.symm⟩
    have hfree : (w.control.woken t w.now).holder = none := by
      rw [hwoken]
      rfl
    have hQ : ∀ v, Fit n v → Untouched w v →
        (v.control = w.control ∨ v.control = w.control.woken t w.now) →
        P v ∧ Fit n v := fun v hv hu hcv =>
      ⟨hP v hv hu (hcv.elim (fun hcv => hcv ▸ hself) fun hcv => hcv ▸ hsame), hv⟩
    obtain ⟨v, hv, hu, hcv⟩ := h.woken (Control.waking_iff.mpr ⟨closing, hc⟩) hQ
    exact ⟨v, hv.mono fun _ hx => hx.1, hv.holds.2, hu, hcv ▸ hsame, hcv ▸ hfree⟩

/-! ### Calls -/

lemma log_of_quiet (hq : w.journal.armed = none) {x : Notice} :
    w.log t x = ({ w with journal := (w.journal.log t x).2 }, none) := by
  rw [log, ← (Journal.log_of_unarmed hq t x).1]

/-- **Worker `n` is inside a call** that its task makes and will see the result of. -/
structure Inside (n k : Nat) (g : Except Failure (Option V) → BodyStage σ V) (w : Writer σ V) :
    Prop where
  fit : Fit n w
  cycle : w.cycles.get? (.worker n) = some (.running k (.calling g))
  call : (w.calls.get? (.worker n)).isSome = true

def Over (n : Nat) (w : Writer σ V) : Prop :=
  ∃ r, w.calls.get? (.worker n) = some (.ended r)

namespace Inside

variable {g : Except Failure (Option V) → BodyStage σ V}

lemma phase (h : Inside n k g w) : w.phase = .running ∨ w.phase = .stopping :=
  phase_of_cycle h.fit.tuned.linked h.cycle

lemma own (h : Inside n k g w) (hs : w.step (.run (.worker n)) = some v)
    (hy : v.cycles = w.cycles) (hc : (v.calls.get? (.worker n)).isSome = true) :
    Inside n k g v :=
  ⟨h.fit.own hs, hy ▸ h.cycle, hc⟩

lemma ends {r : Except Failure (Option V)} (h : Inside n k g w)
    (hs : w.step (.run (.worker n)) = some v) (hy : v.cycles = w.cycles)
    (hr : v.calls.get? (.worker n) = some (.ended r)) : LeadsTo step (Inside n k g) (Over n) w :=
  .next _ h hs (.here (h.own hs hy (by rw [hr]; rfl)) ⟨r, hr⟩)

lemma passed (h : Inside n k g w) (d : Time) :
    ∃ i : Nat, w.step (.pass i) = some { w with now := w.now + i } ∧ d ≤ w.now + i ∧
      Inside n k g { w with now := w.now + i } := by
  refine ⟨(d - w.now).toNat, rfl, ?_, h.fit.pass _, h.cycle, h.call⟩
  exact Int.le_add_of_sub_left_le (Int.self_le_toNat (d - w.now))

lemma untouched (h : Inside n k g w) (hv : Fit n v) (hu : Untouched w v) : Inside n k g v :=
  ⟨hv, hu.cycles ▸ h.cycle, hu.calls ▸ h.call⟩

/-! #### Start and stop -/

lemma run_control {s : CallStage} {d : Control} {j : Journal}
    (ha : w.calls.get? t = some a) (hi : a.inControl = true)
    (hc : w.control.calls.get? t = some s) (hr : ∀ r, s ≠ .ended r)
    (hw : ∀ closing, s ≠ .stop closing .waking)
    (hd : w.control.stepCall t w.now w.journal = some (d, j)) :
    w.step (.run t) = some { w with control := d, journal := j } := by
  rw [run_inside ha hi hc hr hw, hd, Option.map_some]

lemma run_left {r : Except Failure Unit} (ha : w.calls.get? t = some a)
    (hi : a = .starting ∨ ∃ closing, a = .stopping closing)
    (hc : w.control.calls.get? t = some (.ended r)) :
    w.step (.run t) = some (({ w with control := w.control.acknowledge t } : Writer σ V).setCall t
      (a.afterControl r)) := by
  have hresult : w.control.result? t = some r := Control.result?_eq_some_iff.mpr hc
  rcases hi with rfl | ⟨closing, rfl⟩
  · simp only [step, run, ha, stepCall, throughControl, hresult]
    rfl
  · simp only [step, run, ha, stepCall, throughControl, hresult]
    exact congrArg some (afterStop_eq ..)

lemma start_left {r : Except Failure Unit} (h : Inside n k g w)
    (ha : w.calls.get? (.worker n) = some .starting)
    (hc : w.control.calls.get? (.worker n) = some (.ended r)) :
    LeadsTo step (Inside n k g) (Over n) w :=
  h.ends (run_left ha (.inl rfl) hc) rfl (Roster.get?_put_self ..)

lemma start_ends (h : Inside n k g w) (ha : w.calls.get? (.worker n) = some .starting)
    (hc : w.control.calls.get? (.worker n) = some (.start true .entering)) :
    LeadsTo step (Inside n k g) (Over n) w := by
  refine (h.fit.freed h.phase (fun s hs => ?_) fun _ hv hu _ => h.untouched hv hu).trans ?_
  · cases hc.symm.trans hs
    rfl
  · rintro v - ⟨hv, hu, hsame, hfree⟩
    have hin := h.untouched hv hu
    have hav := hu.calls ▸ ha
    have hcv := hsame.calls.trans hc
    obtain ⟨e, he⟩ : ∃ e, v.control.startRefusal? = some e := by
      cases hr : v.control.startRefusal? with
      | some e => exact ⟨e, rfl⟩
      | none =>
        rcases Control.startRefusal?_eq_none_iff.mp hr with hp | hp <;>
          rcases hin.phase with hp' | hp' <;> cases hp'.symm.trans hp
    have hs := run_control hav rfl hcv nofun nofun
      (d := v.control.finish (.worker n) (.error (.refused e))) (j := v.journal) (by
        simp only [Control.stepCall, hcv, Control.stepStart, Control.free_iff.mpr hfree, if_true,
          he])
    exact .next _ hin hs (start_left (hin.own hs rfl hin.call) hav (Roster.get?_put_self ..))

lemma report_ends {i : Nat} {r : Refusal} (h : Inside n k g w)
    (ha : w.calls.get? (.worker n) = some (.reporting i (.refuse false r))) :
    LeadsTo step (Inside n k g) (Over n) w := by
  have hs : w.step (.run (.worker n)) = some
      (({ w with journal := (w.journal.log (.worker n) (.abandoned w.config.name i)).2 } :
        Writer σ V).afterWalk (.worker n) (.refuse false r)) := by
    simp only [step, run, ha, stepCall, log_of_quiet h.fit.quiet]
  exact h.ends hs rfl (Roster.get?_put_self ..)

/-- **A stop that has been refused** passes by what is pending, and comes back. -/
lemma walk_ends {r : Refusal} (h : Inside n k g w)
    (ha : w.calls.get? (.worker n) = some (.walking (.refuse false r))) :
    LeadsTo step (Inside n k g) (Over n) w := by
  have hs : ∃ v, w.step (.run (.worker n)) = some v := by
    simp only [step, run, ha, stepCall]
    split <;> exact ⟨_, rfl⟩
  obtain ⟨v, hs⟩ := hs
  have hv := step_walking ha hs
  have hy : v.cycles = w.cycles := by rw [hv]; rfl
  split at hv
  · exact h.ends hs hy (by rw [hv]; exact Roster.get?_put_self ..)
  · have hav : v.calls.get? (.worker n) =
        some (.reporting w.queue.items.length (.refuse false r)) := by
      rw [hv]
      exact Roster.get?_put_self ..
    have hin := h.own hs hy (by rw [hav]; rfl)
    exact .next _ h hs (hin.report_ends hav)

lemma stop_left {r : Refusal} (h : Inside n k g w)
    (ha : w.calls.get? (.worker n) = some (.stopping false))
    (hc : w.control.calls.get? (.worker n) = some (.ended (.error (.refused r)))) :
    LeadsTo step (Inside n k g) (Over n) w := by
  have hs := run_left ha (.inr ⟨_, rfl⟩) hc
  have hav : (({ w with control := w.control.acknowledge (.worker n) } : Writer σ V).setCall
      (.worker n) (.walking (.refuse false r))).calls.get? (.worker n) =
        some (.walking (.refuse false r)) := Roster.get?_put_self ..
  have hin := h.own hs rfl (Option.isSome_iff_exists.mpr ⟨_, hav⟩)
  exact .next _ h hs (hin.walk_ends hav)

/-- **A stop waits in vain** for the worker that makes it. -/
lemma wait_ends {d : Time} {b : Bool} (h : Inside n k g w) (hp : w.phase = .stopping)
    (ha : w.calls.get? (.worker n) = some (.stopping false))
    (hc : w.control.calls.get? (.worker n) = some (.stop false (.waiting d b))) :
    LeadsTo step (Inside n k g) (Over n) w := by
  obtain ⟨i, hpass, hd, hi⟩ := h.passed d
  refine .next _ h hpass ((hi.fit.freed hi.phase (fun s hs => ?_) fun _ hv hu _ =>
    hi.untouched hv hu).trans ?_)
  · cases hc.symm.trans hs
    rfl
  · rintro v - ⟨hv, hu, hsame, hfree⟩
    have hin := hi.untouched hv hu
    have hav : v.calls.get? (.worker n) = some (.stopping false) := hu.calls ▸ ha
    have hcv := hsame.calls.trans hc
    have hdv : d ≤ v.now := hu.now ▸ hd
    have hphase : v.control.phase = .stopping := hsame.phase.trans hp
    have hs := run_control hav rfl hcv nofun nofun
      (d := v.control.finishStop (.worker n) false (.error (.refused
        (.stopExpired v.control.config.name v.control.config.shutdownLimit)))) (j := v.journal) (by
        simp only [Control.stepCall, hcv, Control.stepStop, Control.free_iff.mpr hfree,
          hdv, decide_true, Bool.or_true, Bool.and_true, if_true, Control.isOver, hphase,
          reduceCtorEq, decide_false, Bool.or_false, Bool.false_eq_true, if_false])
    exact .next _ hin hs (stop_left (hin.own hs rfl hin.call) hav (Roster.get?_put_self ..))

lemma wake_ends (h : Inside n k g w) (hp : w.phase = .stopping)
    (ha : w.calls.get? (.worker n) = some (.stopping false))
    (hc : w.control.calls.get? (.worker n) = some (.stop false .waking)) :
    LeadsTo step (Inside n k g) (Over n) w := by
  refine (h.fit.woken (Control.waking_iff.mpr ⟨_, hc⟩) (P := Inside n k g) fun v hv hu _ =>
    h.untouched hv hu).trans ?_
  rintro v hv ⟨hu, hcv⟩
  have hwoken := Control.woken_eq hc w.now
  refine wait_ends hv.holds ?_ (hu.calls ▸ ha) (d := w.now.after w.control.config.shutdownLimit)
    (b := false) ?_
  · rw [Writer.phase, hcv, hwoken]
    exact hp
  · rw [hcv, hwoken]
    exact Roster.get?_put_self ..

lemma stop_ends (h : Inside n k g w) (ha : w.calls.get? (.worker n) = some (.stopping false))
    (hc : w.control.calls.get? (.worker n) = some (.stop false .entering)) :
    LeadsTo step (Inside n k g) (Over n) w := by
  refine (h.fit.freed h.phase (fun s hs => ?_) fun _ hv hu _ => h.untouched hv hu).trans ?_
  · cases hc.symm.trans hs
    rfl
  · rintro v - ⟨hv, hu, hsame, hfree⟩
    have hin := h.untouched hv hu
    have hav : v.calls.get? (.worker n) = some (.stopping false) := hu.calls ▸ ha
    have hcv := hsame.calls.trans hc
    -- the phase is stopping from here on
    obtain ⟨d, j, hd, hdp, hdc⟩ : ∃ d j,
        v.control.stepCall (.worker n) v.now v.journal = some (d, j) ∧ d.phase = .stopping ∧
          d.calls.get? (.worker n) = some (.stop false .waking) := by
      rcases hin.phase with hp | hp
      · have hp' : v.control.phase = .running := hp
        simp only [Control.stepCall, hcv, Control.stepStop, Control.free_iff.mpr hfree, if_true,
          hp', Control.enter_of_unarmed hv.quiet]
        exact ⟨_, _, rfl, rfl, Roster.get?_put_self ..⟩
      · have hp' : v.control.phase = .stopping := hp
        simp only [Control.stepCall, hcv, Control.stepStop, Control.free_iff.mpr hfree, if_true,
          hp']
        exact ⟨_, _, rfl, hp', Roster.get?_put_self ..⟩
    have hs := run_control hav rfl hcv (by simp) (by simp) hd
    exact .next _ hin hs (wake_ends (hin.own hs rfl hin.call) hdp hav hdc)

/-! #### Write -/

/-- **A write that goes on** is over, or nearer to its end. -/
lemma write_nears {s : Submission σ V} {stage : WriteStage}
    (h : w.CallMoves t (.writing s stage) v) : v.cycles = w.cycles ∧
      ((∃ r, v.calls.get? t = some (.ended r)) ∨
        ∃ stage', v.calls.get? t = some (.writing s stage') ∧ stage'.ahead < stage.ahead) := by
  cases h with
  | inside hi _ | leaves hi _ => cases hi
  | logs hx hl =>
    obtain ⟨j, -, rfl⟩ := journal_of_log hl
    cases hx <;> exact ⟨rfl, .inl ⟨_, Roster.get?_put_self ..⟩⟩
  | refuses _ | breaks _ | submits _ | collects _ =>
    exact ⟨rfl, .inl ⟨_, Roster.get?_put_self ..⟩⟩
  | admits _ | makes _ | offers _ | misses _ | notifies _ | awaits _ | hears _ =>
    exact ⟨rfl, .inr ⟨_, Roster.get?_put_self .., by simp [WriteStage.ahead]⟩⟩

lemma write_ends {s : Submission σ V} {stage : WriteStage} (h : Inside n k g w)
    (ha : w.calls.get? (.worker n) = some (.writing s stage)) :
    LeadsTo step (Inside n k g) (Over n) w := by
  induction hr : stage.ahead using Nat.strongRecOn generalizing w stage with
  | ind r ih =>
    subst hr
    -- a wait first runs out
    have hgo : ∀ u : Writer σ V, Inside n k g u →
        u.calls.get? (.worker n) = some (.writing s stage) →
        (∀ i d, stage = .waiting i d → d ≤ u.now) → LeadsTo step (Inside n k g) (Over n) u := by
      intro u hu hau hd
      obtain ⟨v, hs⟩ := hu.fit.sounds.write_goes hau fun i d he => .inr (hd i d he)
      obtain ⟨hy, ⟨r, hr⟩ | ⟨stage', hv, hlt⟩⟩ := write_nears (callMoves_of_run hau nofun hs)
      · exact hu.ends hs hy hr
      · exact .next _ hu hs (ih _ hlt (hu.own hs hy (by rw [hv]; rfl)) hv rfl)
    by_cases hd : ∃ i d, stage = .waiting i d
    · obtain ⟨i, d, rfl⟩ := hd
      obtain ⟨j, hpass, hle, hj⟩ := h.passed d
      exact .next _ h hpass (hgo _ hj ha fun i' d' he => (WriteStage.waiting.inj he).2 ▸ hle)
    · exact hgo w h ha fun i d he => absurd ⟨i, d, he⟩ hd

theorem comes_back (h : Inside n k g w) : LeadsTo step (Inside n k g) (Over n) w := by
  obtain ⟨q, a, ha, hst⟩ := h.fit.task k g h.cycle
  cases hst with
  | starts hs => exact h.start_ends ha hs
  | refused _ hs => exact h.start_left ha hs
  | stops hs => exact h.stop_ends ha hs
  | wakes hp hs => exact h.wake_ends hp ha hs
  | awaits hp hs => exact h.wait_ends hp ha hs
  | expires _ hs => exact h.stop_left ha hs
  | walks _ => exact h.walk_ends ha
  | reports _ => exact h.report_ends ha
  | writes _ _ => exact h.write_ends ha
  | started _ | stopped _ | written => exact .here h ⟨_, ha⟩

end Inside

/-! ### Cycles -/

/-- **Worker `n` is in a cycle**, the last one or not, and nothing stands in its way. -/
structure Busy (n : Nat) (last : Bool) (w : Writer σ V) : Prop where
  fit : Fit n w
  cycling : w.control.worker? n = some (.cycling last)

/-- The cycle is over, and nothing has gone wrong. -/
structure Back (n : Nat) (last : Bool) (w : Writer σ V) : Prop where
  fit : Fit n w
  back : w.control.worker? n = some (.afterCycle last none)

/-- **What a move does to worker `n`** at the stage `s`. -/
inductive Shifts (n : Nat) (s : WorkerStage) (m : Move σ V) (w v : Writer σ V) : Prop
  | rests (hw : v.control.worker? n = some s) (hc : v.control.cycles = w.control.cycles)
  /-- It goes on between its cycles. -/
  | turns (hm : m = .run (.worker n))
      (h : WorkerTurn w.control n w.journal s v.control v.journal)
  /-- Its cycle ends. Only a line of the log can break it. -/
  | exits {last : Bool} {e : Option Failure} (hm : m = .run (.worker n)) (hs : s = .cycling last)
      (he : w.journal.armed = none → e = none)
      (hw : v.control.workers = w.control.workers.set n (.afterCycle last e))
      (hc : v.control.cycles = w.control.cycles)

/-- **Every move** does one of these to a worker that is there. -/
lemma shifts_of_step {m : Move σ V} {s : WorkerStage} (hl : w.course.Linked)
    (hw : w.control.worker? n = some s) (hp : s.present = true) (hs : w.step m = some v) :
    Shifts n s m w v := by
  rcases goes_of_step hs with ⟨t, rfl, hg⟩ | ⟨-, ha⟩
  · cases hg with
    | calls _ _ hk _ => exact .rests (hk.worker? hw) hk.cycles
    | @works i s' ht _ hi hturn _ _ =>
      obtain ⟨ev, hworks, -⟩ := hl.orderly.works hi hturn
      obtain ⟨s₁, s₂, hs₁, -, -, hgoes⟩ := hworks.goes
      obtain rfl : i = n := hl.orderly.staffed.eq_of_present hs₁ hgoes.present hw hp
      obtain rfl := Option.some.inj (hw.symm.trans hi)
      exact .turns (ht ▸ rfl) hturn
    | @takes i last ht _ hi _ hv =>
      obtain rfl : i = n := hl.orderly.staffed.eq_of_present hi rfl hw hp
      obtain rfl := Option.some.inj (hw.symm.trans hi)
      rcases (took_of_pop hw hv).1.done with ⟨hc, -⟩ | hc
      · exact .rests (hc ▸ hw) (hc ▸ rfl)
      · exact .exits (ht ▸ rfl) rfl (fun _ => rfl) (congrArg Control.workers hc) (by rw [hc]; rfl)
    | waits _ _ _ _ _ _ hv => exact .rests (by rw [hv]; exact hw) (by rw [hv])
    | @cycles i last y ht _ hi _ _ hc hk _ =>
      obtain rfl : i = n := hl.orderly.staffed.eq_of_present hi rfl hw hp
      obtain rfl := Option.some.inj (hw.symm.trans hi)
      rcases hk with ⟨hk, -⟩ | ⟨e, he, hk⟩
      · exact .rests ((congrArg (·[i]?) hk).trans hw) hc
      · exact .exits (ht ▸ rfl) rfl he hk hc
  · exact .rests (ha.workers.worker? hw) ha.workers.cycles

namespace Busy

lemma linked (h : Busy n last w) : w.course.Linked := h.fit.tuned.linked

lemma of_step {m : Move σ V} (h : Busy n last w) (hs : w.step m = some v) (hv : Fit n v)
    {y : CycleStage σ V} (hy : v.cycles.get? (.worker n) = some y) : Busy n last v := by
  cases shifts_of_step h.linked h.cycling rfl hs with
  | rests hw _ => exact ⟨hv, hw⟩
  | turns _ hturn => cases hturn
  | @exits last' e _ hl _ hk _ =>
    obtain ⟨last'', hw⟩ := hv.tuned.linked.cycling hy
    have hw' := (Control.worker?_set_self hk h.cycling).symm.trans hw
    cases e <;> cases last' <;> simp [WorkerStage.afterCycle] at hw'

lemma run_cycle (h : Busy n last w) (hn : w.calls.get? (.worker n) = none) :
    w.step (.run (.worker n)) = w.stepCycle n (if last then 0 else w.control.config.idleDelay) := by
  simp only [step, run, hn, stepWorker, Control.budget?, h.cycling]

lemma run_body {b : BodyStage σ V} (h : Busy n last w)
    (hy : w.cycles.get? (.worker n) = some (.running k b)) (hb : b.isCalling = false) :
    ∃ e, w.envelopes[k]? = some e ∧ w.step (.run (.worker n)) = w.stepBody n k e b := by
  obtain ⟨e, he⟩ : ∃ e, w.envelopes[k]? = some e := h.fit.known.exists_envelope hy
  refine ⟨e, he, ?_⟩
  rw [h.run_cycle (h.linked.idle_of_running hy hb)]
  simp only [stepCycle, hy, he]

end Busy

/-- The cycle of worker `n` can be brought to its end. -/
def Ends (n : Nat) (last : Bool) (w : Writer σ V) : Prop :=
  LeadsTo step (fun v => Busy n last v ∨ Back n last v) (Back n last) w

/-- **From this stage of a body** the cycle can be brought to its end. -/
def Good (n : Nat) (last : Bool) (b : BodyStage σ V) : Prop :=
  ∀ w k, Busy n last w → w.cycles.get? (.worker n) = some (.running k b) → Ends n last w

lemma Busy.goes {y : CycleStage σ V} (h : Busy n last w)
    (hs : w.step (.run (.worker n)) = some v) (hy : v.cycles.get? (.worker n) = some y)
    (hv : Busy n last v → Ends n last v) : Ends n last w :=
  .next _ (.inl h) hs (hv (h.of_step hs (h.fit.own hs) hy))

lemma Busy.ends (h : Busy n last w) (hs : w.step (.run (.worker n)) = some (u.endCycle n none))
    (hu : u.control = w.control) : Ends n last w := by
  have hback : Back n last (u.endCycle n none) := by
    refine ⟨h.fit.own hs, ?_⟩
    change (u.control.endCycle n none).worker? n = _
    rw [hu, Control.endCycle_eq h.cycling]
    exact Control.worker?_set_self rfl h.cycling
  exact .next _ (.inl h) hs (.here (.inr hback) hback)

lemma measuring_ends (h : Busy n last w)
    (hy : w.cycles.get? (.worker n) = some (.measuring k)) : Ends n last w := by
  generalize hd : w.ledger.noteDepth w.now w.queue.size (.worker n) w.journal = r
  obtain ⟨f, ledger, journal⟩ := r
  obtain rfl := Ledger.noteDepth_of_unarmed hd h.fit.quiet
  refine h.ends (u := { w with ledger, journal }) ?_ rfl
  rw [h.run_cycle (h.linked.idle hy nofun)]
  simp only [stepCycle, hy, hd]

lemma counting_ends (h : Busy n last w)
    (hy : w.cycles.get? (.worker n) = some (.counting k)) : Ends n last w := by
  have hs : w.step (.run (.worker n)) =
      some (({ w with ledger := w.ledger.noteExecuted } : Writer σ V).setCycle n
        (.measuring k)) := by
    rw [h.run_cycle (h.linked.idle hy nofun)]
    simp only [stepCycle, hy]
  exact h.goes hs (Roster.get?_put_self ..) fun hv =>
    measuring_ends hv (Roster.get?_put_self ..)

namespace Good

lemma step {b : BodyStage σ V} (h : Busy n last w)
    (hs : w.step (.run (.worker n)) = some (u.setBody n k b)) (hb : Good n last b) :
    Ends n last w :=
  h.goes hs (Roster.get?_put_self ..) fun hv => hb _ k hv (Roster.get?_put_self ..)

lemma verdict (ok : Bool) : Good n last (.verdict ok : BodyStage σ V) := by
  intro w k h hy
  obtain ⟨e, -, hrun⟩ := h.run_body hy rfl
  have hon : ∀ {u : Writer σ V}, w.step (.run (.worker n)) = some (u.setCycle n (.counting k)) →
      Ends n last w := fun hs =>
    h.goes hs (Roster.get?_put_self ..) fun hv => counting_ends hv (Roster.get?_put_self ..)
  cases ok with
  | true => exact hon hrun
  | false =>
    have hlog := (Journal.log_of_unarmed h.fit.quiet (.worker n)
      (.taskFailed w.ledger.writer e.id)).1
    simp only [stepBody, Bool.false_eq_true, if_false, Ledger.noteFailure, markDone, hlog] at hrun
    exact hon hrun

lemma publishing {o : Outcome V} {b : BodyStage σ V} (hb : Good n last b) :
    Good n last (.publishing o b) := by
  intro w k h hy
  obtain ⟨e, -, hrun⟩ := h.run_body hy rfl
  exact step h hrun hb

lemma claim {o : Outcome V} {won lost : BodyStage σ V} (h : Busy n last w)
    (hs : w.step (.run (.worker n)) = some (w.claimFor n k o won lost)) (hw : Good n last won)
    (hl : Good n last lost) : Ends n last w := by
  unfold claimFor at hs
  split at hs
  · exact step h hs hw.publishing
  · exact step h hs hl

lemma left (escaped : Option Failure) : Good n last (.left escaped : BodyStage σ V) := by
  intro w k h hy
  obtain ⟨e, -, hrun⟩ := h.run_body hy rfl
  simp only [stepBody] at hrun
  cases escaped with
  | none =>
    simp only [stepLeft] at hrun
    split at hrun
    · exact step h hrun (verdict _)
    · exact claim h hrun (verdict _) (verdict _)
  | some f =>
    simp only [stepLeft, log_of_quiet h.fit.quiet] at hrun
    split at hrun
    · exact step h hrun (verdict _)
    · exact claim h hrun (verdict _) (verdict _)

/-- **A call that the task makes** comes back to it. -/
lemma calling {g : Except Failure (Option V) → BodyStage σ V} (hg : ∀ r, Good n last (g r)) :
    Good n last (.calling g) := by
  intro w k h hy
  obtain ⟨q, a, ha, -⟩ := h.fit.task k g hy
  have hin : Inside n k g w := ⟨h.fit, hy, by rw [ha]; rfl⟩
  obtain ⟨v, hv, r, hr⟩ := hin.comes_back
  have hbusy : Along Writer.step (fun u => Inside n k g u ∧ Busy n last u) w v :=
    hv.and (fun _ => h) fun u m x hu hbu hs hx => hbu.of_step hs hx.fit hx.cycle
  obtain ⟨hiv, hbv⟩ := hbusy.holds
  have hs : v.step (.run (.worker n)) = some
      (({ v with calls := v.calls.drop (.worker n) } : Writer σ V).setBody n k (g r)) := by
    obtain ⟨e, he⟩ : ∃ e, v.envelopes[k]? = some e := hiv.fit.known.exists_envelope hiv.cycle
    have hresult : v.result? (.worker n) = some r := result?_eq_some_iff.mpr hr
    simp only [Writer.step, run, hr, stepWorker, Control.budget?, hbv.cycling, stepCycle,
      hiv.cycle, he, stepBody, hresult]
  obtain ⟨x, hx, hq⟩ := step hbv hs (hg r)
  exact ⟨x, (hbusy.mono fun _ hu => .inl hu.2).trans hx, hq⟩

lemma inner {back? : Option (Option Failure → Wrapper σ)}
    (hb : ∀ next, back? = some next → ∀ e, Good n last (.outer (next e) : BodyStage σ V))
    (p : Program σ V) : Good n last (.inner p back?) := by
  induction p with
  | ret x =>
    intro w k h hy
    obtain ⟨e, -, hrun⟩ := h.run_body hy rfl
    simp only [stepBody, stepProgram] at hrun
    cases back? with
    | none => exact step h hrun (left _)
    | some next => exact claim h hrun (hb next rfl _) (hb next rfl _)
  | fail f =>
    intro w k h hy
    obtain ⟨e, -, hrun⟩ := h.run_body hy rfl
    simp only [stepBody, stepProgram] at hrun
    cases back? with
    | none => exact step h hrun (left _)
    | some next => exact step h hrun (hb next rfl _)
  | update f next ih =>
    intro w k h hy
    obtain ⟨e, -, hrun⟩ := h.run_body hy rfl
    exact step h hrun (ih _)
  | resolve o next ih =>
    intro w k h hy
    obtain ⟨e, -, hrun⟩ := h.run_body hy rfl
    exact claim h hrun (ih _) (ih _)
  | interrupt next ih =>
    intro w k h hy
    obtain ⟨e, -, hrun⟩ := h.run_body hy rfl
    exact step h hrun ih
  | pass gate next ih =>
    intro w k h hy
    -- a task that waits at a gate goes on when the gates open
    have hopen : Busy n last { w with gates := { w.gates with all := true } } :=
      ⟨h.fit.openAll, h.cycling⟩
    obtain ⟨e, -, hrun⟩ := hopen.run_body hy rfl
    exact .next .openAll (.inl h) rfl (step hopen hrun ih)
  | phase next ih | stats next ih =>
    intro w k h hy
    obtain ⟨e, -, hrun⟩ := h.run_body hy rfl
    exact step h hrun (ih _)
  | start next ih | stop next ih =>
    intro w k h hy
    obtain ⟨e, -, hrun⟩ := h.run_body hy rfl
    exact step h hrun (calling fun r => ih _)
  | write work id wait next _ ih =>
    intro w k h hy
    obtain ⟨e, -, hrun⟩ := h.run_body hy rfl
    exact step h hrun (calling fun r => ih r)

lemma outer (x : Wrapper σ) : Good n last (.outer x : BodyStage σ V) := by
  induction x with
  | done | fail f =>
    intro w k h hy
    obtain ⟨e, -, hrun⟩ := h.run_body hy rfl
    exact step h hrun (left _)
  | update f next ih =>
    intro w k h hy
    obtain ⟨e, -, hrun⟩ := h.run_body hy rfl
    exact step h hrun (ih _)
  | invoke next ih =>
    intro w k h hy
    obtain ⟨e, -, hrun⟩ := h.run_body hy rfl
    exact step h hrun (inner (fun next' hn e => Option.some.inj hn ▸ ih e) _)

/-- **Every body** comes to an end, whatever task and wrapper it is made of. -/
theorem of_fair {b : BodyStage σ V} (hb : b.fair = true) : Good n last b := by
  induction b with
  | outer x => exact outer x
  | inner p back? => exact inner (fun _ _ _ => outer _) p
  | publishing o after ih => exact (ih hb).publishing
  | calling after _ => cases hb
  | left escaped => exact left escaped
  | verdict ok => exact verdict ok

end Good

lemma dequeued_ends (h : Busy n last w)
    (hy : w.cycles.get? (.worker n) = some (.dequeued k)) : Ends n last w := by
  obtain ⟨e, he⟩ : ∃ e, w.envelopes[k]? = some e := h.fit.known.exists_envelope hy
  have hs : w.step (.run (.worker n)) =
      some (({ w with begun := k :: w.begun } : Writer σ V).setBody n k e.body.begin) := by
    rw [h.run_cycle (h.linked.idle hy nofun)]
    simp only [stepCycle, hy, he]
  exact Good.step h hs (.of_fair (by cases e.body <;> rfl))

lemma Busy.takes {q : SharedQueue Nat} {r : Option Nat} (h : Busy n last w)
    (hs : w.step (.run (.worker n)) = some (({ w with queue := q } : Writer σ V).tookTicket n r)) :
    Ends n last w := by
  cases r with
  | none => exact h.ends hs rfl
  | some k =>
    exact h.goes hs (Roster.get?_put_self ..) fun hv => dequeued_ends hv (Roster.get?_put_self ..)

/-- A worker that waits in a take waits for its time at most. -/
lemma waiting_ends {d : Time} {b : Bool} (h : Busy n last w)
    (hy : w.cycles.get? (.worker n) = none)
    (hw : w.queue.stages.get? (.worker n) = some (.waiting d b)) : Ends n last w := by
  have hle : d ≤ w.now + (d - w.now).toNat := Int.le_add_of_sub_left_le (Int.self_le_toNat _)
  have hpass : Busy n last { w with now := w.now + (d - w.now).toNat } :=
    ⟨h.fit.pass _, h.cycling⟩
  refine .next (.pass (d - w.now).toNat) (.inl h) rfl (hpass.takes
    (q := (w.queue.pop (.worker n)).2) (r := (w.queue.pop (.worker n)).1) ?_)
  rw [hpass.run_cycle (h.linked.idle hy nofun)]
  simp only [stepCycle, hy, hw, SharedQueue.retake, hle, or_true, if_true, Option.map_some]

lemma idle_ends (h : Busy n last w) (hy : w.cycles.get? (.worker n) = none) : Ends n last w := by
  have hn : w.calls.get? (.worker n) = none := h.linked.idle hy nofun
  have hrun := h.run_cycle hn
  simp only [stepCycle, hy] at hrun
  cases hst : w.queue.stages.get? (.worker n) with
  | none =>
    simp only [hst] at hrun
    split at hrun
    · exact h.takes hrun
    · rename_i queue htake
      have hfit := h.fit.own hrun
      rcases SharedQueue.ends_or_waits_of_take htake with ⟨x, hx, -⟩ | ⟨-, -, -, d, rfl⟩
      · cases hx
      · exact .next _ (.inl h) hrun
          (waiting_ends ⟨hfit, h.cycling⟩ hy (d := d) (b := false) (Roster.get?_put_self ..))
  | some st =>
    cases st with
    | waiting d b => exact waiting_ends h hy hst
    | notifying b =>
      refine absurd hst (h.fit.tuned.not_notifying (.inl fun a ha => ?_))
      cases hn.symm.trans ha

/-- **Every cycle** can be brought to its end. -/
theorem Busy.comes_back (h : Busy n last w) : Ends n last w := by
  cases hy : w.cycles.get? (.worker n) with
  | none => exact idle_ends h hy
  | some y =>
    cases y with
    | dequeued k => exact dequeued_ends h hy
    | running k b =>
      rcases h.fit.fair _ _ _ hy with hb | ⟨g, rfl, hg⟩
      · exact Good.of_fair hb w k h hy
      · exact Good.calling (fun r => .of_fair (hg r)) w k h hy
    | counting k => exact counting_ends h hy
    | measuring k => exact measuring_ends h hy

/-! ### The end of the writer -/

lemma Fit.run_between {s : WorkerStage} {d : Control} {j : Journal} (h : Fit n w)
    (hw : w.control.worker? n = some s) (hs : ∀ last, s ≠ .cycling last)
    (hd : w.control.stepWorker n w.journal = some (d, j)) :
    w.step (.run (.worker n)) = some { w with control := d, journal := j } := by
  have hn : w.calls.get? (.worker n) = none := by
    cases ha : w.calls.get? (.worker n) with
    | none => rfl
    | some a =>
      obtain ⟨k, g, hy⟩ := (h.tuned.linked.fits _).task n a rfl ha
      obtain ⟨last, hc⟩ := h.tuned.linked.cycling hy
      exact absurd (Option.some.inj (hw.symm.trans hc)) (hs last)
  have hb : w.control.budget? n = none := by
    rw [Control.budget?, hw]
    cases s with
    | cycling last => exact absurd rfl (hs last)
    | _ => rfl
  simp only [Writer.step, Writer.run, hn, stepWorker, hb, hd, Option.map_some]

/-- **Worker `n` has been told to stop**, and has yet to end the writer. -/
structure Halting (n : Nat) (w : Writer σ V) : Prop where
  fit : Fit n w
  stopping : w.phase = .stopping

lemma Halting.retires (h : Halting n w) (hw : w.control.worker? n = some .retiring) :
    LeadsTo step (fun v => v.journal.armed = none) (fun v => v.phase = .terminated) w := by
  have hout : ∀ s, w.control.calls.get? (.worker n) = some s → s.holds = false := by
    intro s hs
    obtain ⟨last, hc⟩ := h.fit.tuned.linked.orderly.guarded.busy n s hs
    cases hw.symm.trans hc
  refine (h.fit.freed (.inr h.stopping) hout fun v hv _ _ => hv.quiet).trans ?_
  rintro v - ⟨hv, -, hsame, hfree⟩
  have hwv : v.control.worker? n = some .retiring :=
    (congrArg (·[n]?) hsame.workers).trans hw
  have hs := hv.run_between hwv nofun
    (d := ({ v.control with phase := .terminated } : Control).notifyAll.setWorker n .leaving)
    (j := (v.journal.log (.worker n) (.moved v.control.config.name v.control.phase .terminated)).2)
    (by simp only [Control.stepWorker, hwv, Control.free_iff.mpr hfree, if_true,
      Control.enter_of_unarmed hv.quiet])
  exact .next _ hv.quiet hs (.here (hv.own hs).quiet rfl)

lemma stopping_of_ends (hp : w.phase = .stopping)
    (h : Along step (fun v => Busy n last v ∨ Back n last v) w v) : v.phase = .stopping := by
  refine h.keeps (I := fun u => u.phase = .stopping) (fun _ => hp) fun u m x hu hpu hs hx => ?_
  have hl : u.course.Linked := hu.elim (·.linked) (·.fit.tuned.linked)
  have hphase : x.phase = .running ∨ x.phase = .stopping := by
    rcases hx with hx | hx
    · exact (WorkerStage.phase_of_cycle (.inr rfl)
        (hx.linked.orderly.staffed.fits_of_present hx.cycling rfl)).1
    · have hfits := fun hp => hx.fit.tuned.linked.orderly.staffed.fits_of_present hx.back hp
      cases last with
      | true => exact .inr (hfits rfl)
      | false => exact hfits rfl
  exact hphase.resolve_left (not_running_of_step hl hpu hs)

namespace Halting

lemma ends_of_last (h : Halting n w) (hw : w.control.worker? n = some (.cycling true)) :
    LeadsTo step (fun v => v.journal.armed = none) (fun v => v.phase = .terminated) w := by
  obtain ⟨v, hv, hback⟩ := Busy.comes_back ⟨h.fit, hw⟩
  have hhalt : Halting n v := ⟨hback.fit, stopping_of_ends h.stopping hv⟩
  obtain ⟨u, hu, hend⟩ := hhalt.retires hback.back
  refine ⟨u, (hv.mono fun x hx => ?_).trans hu, hend⟩
  exact hx.elim (·.fit.quiet) (·.fit.quiet)

lemma ends_of_entering (h : Halting n w) (hw : w.control.worker? n = some (.entering true)) :
    LeadsTo step (fun v => v.journal.armed = none) (fun v => v.phase = .terminated) w := by
  have hs := h.fit.run_between hw nofun (d := w.control.enterCycle n true) (j := w.journal)
    (by simp only [Control.stepWorker, hw])
  exact .next _ h.fit.quiet hs (ends_of_last ⟨h.fit.own hs, h.stopping⟩
    (Control.worker?_set_self rfl hw))

lemma ends_of_looking (h : Halting n w) (hw : w.control.worker? n = some .looking) :
    LeadsTo step (fun v => v.journal.armed = none) (fun v => v.phase = .terminated) w := by
  have hp : w.control.phase = .stopping := h.stopping
  have hs := h.fit.run_between hw nofun (d := w.control.setWorker n (.entering true))
    (j := w.journal) (by simp [Control.stepWorker, hw, hp])
  exact .next _ h.fit.quiet hs (ends_of_entering ⟨h.fit.own hs, h.stopping⟩
    (Control.worker?_set_self rfl hw))

lemma ends_of_cycling (h : Halting n w) (hw : w.control.worker? n = some (.cycling last)) :
    LeadsTo step (fun v => v.journal.armed = none) (fun v => v.phase = .terminated) w := by
  cases last with
  | true => exact h.ends_of_last hw
  | false =>
    obtain ⟨v, hv, hback⟩ := Busy.comes_back ⟨h.fit, hw⟩
    have hhalt : Halting n v := ⟨hback.fit, stopping_of_ends h.stopping hv⟩
    obtain ⟨u, hu, hend⟩ := hhalt.ends_of_looking hback.back
    refine ⟨u, (hv.mono fun x hx => ?_).trans hu, hend⟩
    exact hx.elim (·.fit.quiet) (·.fit.quiet)

end Halting

end Writer

end SerialWriter
