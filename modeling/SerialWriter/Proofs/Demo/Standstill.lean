import SerialWriter.Proofs.Demo.Moves

/-!
A demonstration never comes to a standstill: until the program is over, the main thread, a producer
or the worker can go on, whoever waits for whom.
-/

namespace SerialWriter

namespace Demo

variable {d : Demo} {t : Thread} {c p : Nat} {s : Submission Graph (Option Nat)}
  {stage : WriteStage} {last : Bool}

/-- Some thread can go on. -/
def Moves (d : Demo) : Prop := ∃ t v, d.step t = some v

lemma moves_of_run {a : CallOfWriter Graph (Option Nat)} {u : Writer Graph (Option Nat)}
    (ha : d.writer.calls.get? t = some a) (hn : ∀ r, a ≠ .ended r)
    (hu : d.writer.step (.run t) = some u) : d.Moves :=
  ⟨t, { d with writer := u }, by rw [step_of_call ha hn, hu, Option.map_some]⟩

lemma moves_of_ended {r : Except Failure (Option (Option Nat))}
    (ha : d.writer.calls.get? (.client c) = some (.ended r)) : d.Moves :=
  ⟨_, _, step_ended ha⟩

namespace Script

/-! ### Writes -/

lemma moves_of_write (h : Script d)
    (ha : d.writer.calls.get? (.client c) = some (.writing s stage))
    (hw : ∀ k b, stage = .waiting k b → (d.writer.cell k).status?.isSome = true) : d.Moves := by
  obtain ⟨u, hu⟩ := h.kept.sounds.write_goes ha fun k b he => .inl (hw k b he)
  exact moves_of_run ha (by simp) hu

lemma moves_of_notifying (h : Script d) {k : Nat}
    (ht : d.writer.calls.get? t = some (.writing s (.notifying k))) : d.Moves := by
  cases t with
  | worker n =>
    rw [h.worker_idle n] at ht
    cases ht
  | client c => exact h.moves_of_write ht (by simp)

/-- **As long as they are at work, a producer can go on**, or else the main thread. -/
lemma moves_of_producing (h : Script d) (hs : d.stage = .producing) : d.Moves := by
  obtain ⟨-, hcall, -, -, -⟩ := View.mk.inj (h.producing hs)
  by_cases hproduced : d.produced = true
  · exact ⟨.client 0, _, by rw [step_idle hcall, begin?, hs]; exact if_pos hproduced⟩
  · obtain ⟨p, i, hi, hp⟩ : ∃ p i, d.sent[p]? = some i ∧
        (i ≠ share ∨ d.writer.calls.get? (.client (p + 1)) ≠ none) := by
      rw [produced, Bool.and_eq_true, not_and_or, List.all_eq_true, List.all_eq_true] at hproduced
      rcases hproduced with hn | hn
      · push Not at hn
        obtain ⟨i, hmem, hi⟩ := hn
        obtain ⟨p, hp⟩ := List.mem_iff_getElem?.mp hmem
        exact ⟨p, i, hp, .inl fun he => hi (decide_eq_true he)⟩
      · push Not at hn
        obtain ⟨p, hmem, hp⟩ := hn
        refine ⟨p, _, List.getElem?_eq_getElem (List.mem_range.mp hmem), .inr fun he => hp ?_⟩
        rw [he]
        rfl
    cases h.producers p with
    | absent hi' _ =>
      rw [hi] at hi'
      cases hi'
    | idle hi' hle _ ha =>
      obtain rfl := Option.some.inj (hi.symm.trans hi')
      have hlt : i < share := lt_of_le_of_ne hle (hp.resolve_right fun hn => hn ha)
      exact ⟨.client (p + 1), _, by rw [step_idle ha, begin?, hs, hi]; exact if_pos hlt⟩
    | writes _ _ _ ha hb =>
      refine h.moves_of_write ha ?_
      rintro k b rfl
      cases hb
    | wrote _ _ _ ha => exact moves_of_ended ha

/-! ### The worker -/

lemma moves_of_worker {u : Writer Graph (Option Nat)}
    (hu : d.writer.step (.run (.worker 0)) = some u) : d.Moves :=
  ⟨.worker 0, { d with writer := u }, by rw [step_worker, hu, Option.map_some]⟩

lemma moves_of_atWork (h : Script d) {k : Nat} {l : List Nat} {y : CycleStage Graph (Option Nat)}
    (ha : AtWork d last k l y)
    (hd : TaskProgress (d.writer.cell k) l.length k y d.writer.resource d.writer.ledger.executed) :
    d.Moves := by
  suffices hu : ∃ u, d.writer.step (.run (.worker 0)) = some u by
    obtain ⟨u, hu⟩ := hu
    exact moves_of_worker hu
  generalize d.writer.resource = g at hd
  generalize d.writer.ledger.executed = i at hd
  cases hd with
  | dequeued =>
    obtain ⟨e, hk, -⟩ := h.carries ha
    simp only [h.step_of_atWork ha, Writer.stepCycle, ha.cycle, hk]
    exact ⟨_, rfl⟩
  | opens | invokes | publishes | returns | leaves | succeeds =>
    obtain ⟨e, -, hstep⟩ := h.step_of_body ha
    exact ⟨_, hstep⟩
  | works =>
    obtain ⟨e, -, hstep⟩ := h.step_of_body ha
    rw [hstep, Graph.job]
    split
    · exact ⟨_, rfl⟩
    · exact ⟨_, rfl⟩
  | gives =>
    obtain ⟨e, -, hstep⟩ := h.step_of_body ha
    exact ⟨_, hstep⟩
  | counts | measures =>
    simp only [h.step_of_atWork ha, Writer.stepCycle, ha.cycle]
    exact ⟨_, rfl⟩

lemma worker_silent (h : Script d) (b : Bool) :
    d.writer.queue.stages.get? (.worker 0) ≠ some (.notifying b) := by
  intro hb
  rcases h.kept.tuned.notifying _ b hb with ⟨s, k, hc⟩ | ⟨hw, -⟩
  · rw [h.worker_idle] at hc
    cases hc
  · obtain ⟨closing, hc⟩ := Control.waking_iff.mp hw
    cases (h.kept.tuned.linked.outside_of_none (h.worker_idle 0)).symm.trans hc

/-- **The worker goes on in its cycle** unless it waits, has not been told to look again, and has
time left. -/
lemma moves_of_cycle (h : Script d) (hplot : Plot d.view .alive)
    (hj : d.writer.control.joinable = some 0)
    (hworkers : d.writer.control.workers = [.cycling last])
    (hsuits : (WorkerStage.cycling last).Suits d.writer.control.phase)
    (hwait : ∀ b, d.writer.queue.stages.get? (.worker 0) ≠ some (.waiting b false)) : d.Moves := by
  cases h.work.worker with
  | inHand hy hl hd => exact h.moves_of_atWork ⟨hplot, hj, hworkers, hsuits, hy, hl⟩ hd
  | rests hy _ _ =>
    suffices hu : ∃ u, d.writer.step (.run (.worker 0)) = some u by
      obtain ⟨u, hu⟩ := hu
      exact moves_of_worker hu
    rw [h.step_of_cycle hworkers, Writer.stepCycle, hy]
    cases hst : d.writer.queue.stages.get? (.worker 0) with
    | none =>
      dsimp only
      split <;> exact ⟨_, rfl⟩
    | some st =>
      cases st with
      | notifying b => exact absurd hst (h.worker_silent b)
      | waiting b told =>
        obtain rfl : told = true := by
          cases told with
          | true => rfl
          | false => exact absurd hst (hwait b)
        simp only [SharedQueue.retake, hst, true_or, if_true]
        split <;> exact ⟨_, rfl⟩

lemma moves_of_staff (h : Script d) (hplot : Plot d.view .alive)
    (hstaff : Staff.alive.Of d.writer.control) (hfree : d.writer.control.holder = none)
    (hp : d.writer.control.phase ≠ .terminated)
    (hwait : ∀ b, d.writer.queue.stages.get? (.worker 0) ≠ some (.waiting b false)) : d.Moves := by
  obtain ⟨hj, s, hworkers, hsuits⟩ := hstaff
  by_cases hn : ∃ last, s = .cycling last
  · obtain ⟨last, rfl⟩ := hn
    exact h.moves_of_cycle hplot hj hworkers hsuits hwait
  · have hstep := h.step_of_worker hworkers fun last hl => hn ⟨last, hl⟩
    have hworker : d.writer.control.worker? 0 = some s := by
      rw [Control.worker?, hworkers]
      rfl
    have hfree' := Control.free_iff.mpr hfree
    generalize hphase : d.writer.control.phase = p at hsuits hp
    suffices hc : ∃ r, d.writer.control.stepWorker 0 d.writer.journal = some r by
      obtain ⟨r, hr⟩ := hc
      exact moves_of_worker (hstep.trans (congrArg _ hr))
    cases hsuits with
    | created =>
      simp only [Control.stepWorker, hworker, hfree', hphase, if_true,
        Control.enter_of_unarmed h.kept.quiet]
      exact ⟨_, rfl⟩
    | retiring =>
      simp only [Control.stepWorker, hworker, hfree', if_true,
        Control.enter_of_unarmed h.kept.quiet]
      exact ⟨_, rfl⟩
    | looking _ | entering _ | lastEntering =>
      simp only [Control.stepWorker, hworker]
      exact ⟨_, rfl⟩
    | cycling _ | lastCycling => exact absurd ⟨_, rfl⟩ hn
    | leaving | finished => exact absurd rfl hp

/-! ### The main thread -/

/-- **The main thread does not wait in vain for the last task**: its outcome has been shown, or the
worker can go on. -/
lemma moves_of_waiting (h : Script d) {k : Nat} {b : Time}
    (hx : d.view = ⟨.waiting, some (.writing lastTask (.waiting k b)), none, .running, none⟩)
    (hplot : Plot d.view .alive) (hstaff : Staff.alive.Of d.writer.control) : d.Moves := by
  obtain ⟨hstage, hcall, hctl, hphase, hholder⟩ := View.mk.inj hx
  by_cases hready : (d.writer.cell k).status?.isSome = true
  · refine h.moves_of_write hcall ?_
    rintro _ _ ⟨⟩
    exact hready
  · by_cases hnotify : ∃ t s k, d.writer.calls.get? t = some (.writing s (.notifying k))
    · obtain ⟨t, s, k, ht⟩ := hnotify
      exact h.moves_of_notifying ht
    · refine h.moves_of_staff hplot hstaff hholder (by rw [hphase]; simp) fun i hi => hready ?_
      -- a worker that waits has run all the tasks there are
      have hitems : d.writer.queue.items = [] := (h.alert i hi).resolve_right hnotify
      obtain ⟨n, hn, hw, hidle⟩ := h.kept.tuned.waiting _ _ _ hi
      have hcycles : ∀ m, d.writer.affairs.cycles.get? (.worker m) = none := by
        intro m
        by_contra hm
        obtain ⟨y, hy⟩ := Option.ne_none_iff_exists'.mp hm
        obtain ⟨last, hcycling⟩ := h.kept.tuned.linked.cycling hy
        obtain rfl := hstaff.eq_zero hcycling
        cases hidle.symm.trans hy
      have hmem : k ∈ d.writer.queue.accepted :=
        List.mem_reverse.mp (List.mem_of_getElem? (h.work.last _ _ k hcall rfl rfl))
      have hsplit : d.writer.queue.accepted =
          d.writer.queue.items.reverse ++ d.writer.queue.removed := h.kept.ordered.split
      rw [hsplit, hitems, List.reverse_nil, List.nil_append] at hmem
      have hshown : (d.writer.cell k).ready = true := h.kept.decided.ready_of_idle hcycles hmem
      rw [Cell.status?, if_pos hshown]
      rfl

lemma moves_of_control {a : CallOfWriter Graph (Option Nat)} {st : CallStage}
    (ha : d.writer.calls.get? (.client 0) = some a)
    (hi : a.inControl = true) (hc : d.writer.control.calls.get? (.client 0) = some st)
    (hr : ∀ r, st ≠ .ended r)
    (hw : ∀ closing, st ≠ .stop closing .waking)
    (hs : (d.writer.control.stepCall (.client 0) d.writer.now d.writer.journal).isSome = true) :
    d.Moves := by
  obtain ⟨⟨c, j⟩, hcj⟩ := Option.isSome_iff_exists.mp hs
  exact moves_of_run ha (by rintro r rfl; cases hi)
    (Writer.Inside.run_control ha hi hc hr hw hcj)

lemma moves_of_starting (h : Script d) {st : StartStage} {p : Phase} {o : Option Thread} {s : Staff}
    (hx : d.view = ⟨.starting, some .starting, some (.start true st), p, o⟩)
    (hplot : Plot ⟨.starting, some .starting, some (.start true st), p, o⟩ s)
    (hstaff : s.Of d.writer.control) : d.Moves := by
  obtain ⟨hstage, hcall, hctl, hphase, hholder⟩ := View.mk.inj hx
  cases hplot with
  | hatches =>
    obtain ⟨-, s, hworkers, hsuits⟩ := id hstaff
    refine h.moves_of_staff (hx ▸ .hatches) hstaff hholder (by rw [hphase]; simp) fun i hi => ?_
    -- a worker that has yet to begin is in no take
    obtain ⟨n, hn, hw, -⟩ := h.kept.tuned.waiting _ _ _ hi
    obtain rfl := hstaff.eq_zero hw
    rw [Control.worker?, hworkers] at hw
    cases hw
    rw [hphase] at hsuits
    rcases hsuits with _ | _ | _ | ⟨hp | hp⟩ <;> cases hp
  | enters =>
    refine moves_of_control hcall rfl hctl (by simp) (by simp) ?_
    simp only [Control.stepCall, hctl, Control.stepStart, Control.free_iff.mpr hholder, if_true,
      Control.startRefusal?_eq_none_iff.mpr (.inl hphase), Option.isSome_some]
  | launches =>
    refine moves_of_control hcall rfl hctl (by simp) (by simp) ?_
    simp only [Control.stepCall, hctl, Control.stepStart, Control.join, hstaff.1, Option.map_some,
      Option.isSome_some]
  | spawns =>
    refine moves_of_control hcall rfl hctl (by simp) (by simp) ?_
    simp only [Control.stepCall, hctl, Control.stepStart, if_true, Option.isSome_some]
  | starts =>
    refine moves_of_control hcall rfl hctl (by simp) (by simp) ?_
    simp only [Control.stepCall, hctl, Control.stepStart, Control.free_iff.mpr hholder,
      Bool.true_or, Bool.and_true, if_true, hphase, ne_eq, reduceCtorEq, not_false_eq_true,
      Option.isSome_some]

lemma moves_of_stopping (h : Script d) {st : StopStage} {p : Phase} {o : Option Thread} {s : Staff}
    (hx : d.view = ⟨.stopping, some (.stopping false), some (.stop false st), p, o⟩)
    (hplot : Plot ⟨.stopping, some (.stopping false), some (.stop false st), p, o⟩ s)
    (hstaff : s.Of d.writer.control) : d.Moves := by
  obtain ⟨hstage, hcall, hctl, hphase, hholder⟩ := View.mk.inj hx
  cases hplot with
  | stops =>
    refine moves_of_control hcall rfl hctl (by simp) (by simp) ?_
    simp only [Control.stepCall, hctl, Control.stepStop, Control.free_iff.mpr hholder, if_true,
      hphase, Control.enter_of_unarmed h.kept.quiet, Option.isSome_some]
  | wakes =>
    have hwaking : d.writer.control.waking (.client 0) = true := Control.waking_iff.mpr ⟨_, hctl⟩
    have hrun := Writer.run_of_waking h.kept.tuned hwaking
    suffices hu : ∃ u, d.writer.stepControl (.client 0) = some u by
      obtain ⟨u, hu⟩ := hu
      exact moves_of_run hcall (by simp) (hrun.trans hu)
    unfold Writer.stepControl
    rw [if_pos hwaking]
    split
    · rename_i b hb
      cases b with
      | true => exact ⟨_, by rw [SharedQueue.notify, hb]; rfl⟩
      | false =>
        -- only a write notifies one consumer
        obtain ⟨s, k, hc⟩ := (h.kept.sounds _).mp hb
        cases hcall.symm.trans hc
    · exact ⟨_, rfl⟩
  | awaits =>
    have hwaking : d.writer.control.waking (.client 0) = false :=
      Control.waking_eq_false hctl (by simp)
    exact h.moves_of_staff (hx ▸ .awaits) hstaff hholder (by rw [hphase]; simp) fun i hi => by
      cases (h.heard hphase hwaking).told _ i false hi
  | hears =>
    refine moves_of_control hcall rfl hctl (by simp) (by simp) ?_
    simp only [Control.stepCall, hctl, Control.stepStop, Control.free_iff.mpr hholder,
      Bool.true_or, Bool.and_true, if_true, Control.isOver, hphase, decide_true,
      Option.isSome_some]
  | collects =>
    obtain ⟨hj, s, hworkers, hsuits⟩ := hstaff
    rcases (hphase ▸ hsuits).terminated with rfl | rfl
    · have hworker : d.writer.control.worker? 0 = some .leaving := by
        rw [Control.worker?, hworkers]
        rfl
      have hstep := h.step_of_worker hworkers (by simp)
      simp only [Control.stepWorker, hworker, Option.map_some] at hstep
      exact moves_of_worker hstep
    · refine moves_of_control hcall rfl hctl (by simp) (by simp) ?_
      simp only [Control.stepCall, hctl, Control.stepStop, Control.join, hj, Control.gone,
        hworkers, List.getElem?_cons_zero, reduceCtorEq, if_false, if_true, Option.map_some,
        Option.isSome_some]

/-- **The demonstration never comes to a standstill.** -/
theorem moves (h : Script d) : d.Moves := by
  obtain ⟨s, hplot, hstaff⟩ := h.main
  generalize hx : d.view = x at hplot
  have hview := hplot
  cases hplot with
  | opening =>
    obtain ⟨hstage, hcall, -, -, -⟩ := View.mk.inj hx
    exact ⟨.client 0, _, by rw [step_idle hcall, begin?, hstage]⟩
  | enters | launches | spawns | hatches | starts => exact h.moves_of_starting hx hview hstaff
  | started | stopped =>
    obtain ⟨-, hcall, hctl, -, -⟩ := View.mk.inj hx
    exact moves_of_run hcall (by simp) (Writer.Inside.run_left hcall (by simp) hctl)
  | sees | wrote | closed => exact moves_of_ended (congrArg View.call hx :)
  | produces => exact h.moves_of_producing (congrArg View.stage hx :)
  | @writes stage hs =>
    by_cases hw : ∃ k b, stage = .waiting k b
    · obtain ⟨k, b, rfl⟩ := hw
      exact h.moves_of_waiting hx (hx ▸ hview) hstaff
    · exact h.moves_of_write (congrArg View.call hx :) fun k b hk => absurd ⟨k, b, hk⟩ hw
  | stops | wakes | awaits | hears | collects => exact h.moves_of_stopping hx hview hstaff
  | walks => exact moves_of_run (congrArg View.call hx :) (by simp) (h.run_of_walks hx)
  | closes =>
    obtain ⟨j, hrun⟩ := h.run_of_closes hx
    exact moves_of_run (congrArg View.call hx :) (by simp) hrun

end Script

end Demo

end SerialWriter
