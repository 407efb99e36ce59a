import SerialWriter.Proofs.Demo.WorkerCycles

/-!
The worker of a demonstration with a task in hand: it opens the transaction, runs the task, shows
what the task gives, and keeps the books.
-/

namespace SerialWriter

namespace Demo

variable {d v : Demo} {u w : Writer Graph (Option Nat)} {last : Bool} {k : Nat} {l : List Nat}
  {y y' : CycleStage Graph (Option Nat)}

/-- **The worker has the ticket `k` in hand**, after those of `l`. -/
structure AtWork (d : Demo) (last : Bool) (k : Nat) (l : List Nat)
    (y : CycleStage Graph (Option Nat)) : Prop where
  plot : Plot d.view .alive
  joinable : d.writer.control.joinable = some 0
  workers : d.writer.control.workers = [.cycling last]
  suits : (WorkerStage.cycling last).Suits d.writer.control.phase
  cycle : d.writer.cycles.get? (.worker 0) = some y
  removed : d.writer.queue.removed = k :: l

namespace Script

/-- **The worker goes on with its task**, and touches nothing but the resource, the cell and the
books. -/
lemma of_taskTurn (h : Script d) (ha : AtWork d last k l y)
    (hrun : d.writer.step (.run (.worker 0)) = some u)
    (hu : u = { d.writer with resource := u.resource, envelopes := u.envelopes, ledger := u.ledger
                              begun := u.begun, done := u.done
                              cycles := d.writer.cycles.put (.worker 0) y' })
    (hfailed : u.ledger.failed = d.writer.ledger.failed)
    (hprogress : TaskProgress (u.cell k) l.length k y' u.resource u.ledger.executed)
    (hwork : WorkerPart u → Work { d with writer := u }) (hdue : y'.due < y.due) :
    Script { d with writer := u } ∧ rank { d with writer := u } < d.rank := by
  have hcalls : u.calls = d.writer.calls := (congrArg Writer.calls hu :)
  have hcontrol : u.control = d.writer.control := (congrArg Writer.control hu :)
  have hq : u.queue = d.writer.queue := (congrArg Writer.queue hu :)
  have hcycles : u.cycles = d.writer.cycles.put (.worker 0) y' := (congrArg Writer.cycles hu :)
  have hself : u.cycles.get? (.worker 0) = some y' := hcycles ▸ Roster.get?_put_self ..
  have hworkers : u.control.workers = [.cycling last] := hcontrol ▸ ha.workers
  refine h.of_worker ha.plot ha.joinable hrun hcalls (hcontrol ▸ rfl) (hcontrol ▸ rfl)
    (hcontrol ▸ rfl) (hcontrol ▸ rfl) (hcontrol ▸ rfl) hworkers ha.suits (congrArg Writer.now hu :)
    (congrArg Writer.factory hu :) (congrArg Writer.config hu :) (hq ▸ h.settings.queue)
    (congrArg Writer.dropped hu :) (congrArg Writer.timedOut hu :) hfailed (hq ▸ rfl)
    (hwork (.inHand hself (hq ▸ ha.removed) hprogress)) ?_ ?_
  · rw [hq, hcalls]
    exact h.alert
  · rw [load, load, workerDue, workerDue, hworkers, ha.workers, hq]
    refine Nat.add_lt_add_right (Nat.add_lt_add_right ?_ _) _
    dsimp only [WorkerStage.due]
    rw [cycleDue, cycleDue, hself, ha.cycle]
    exact hdue

lemma carries (h : Script d) (ha : AtWork d last k l y) :
    Carries d.writer.envelopes k (Graph.job l.length) :=
  h.work.tickets _ _ ((Work.index_of_inHand h.kept.ordered.split h.kept.ordered.tickets.nodup
    ha.removed).mpr rfl)

lemma step_of_atWork (h : Script d) (ha : AtWork d last k l y) :
    d.writer.step (.run (.worker 0)) = d.writer.stepCycle 0 (if last then 0 else 5) :=
  h.step_of_cycle ha.workers

lemma work_of_same (h : Script d) (hcalls : u.calls = d.writer.calls)
    (hq : u.queue = d.writer.queue) (he : u.envelopes = d.writer.envelopes) (ht : WorkerPart u) :
    Work { d with writer := u } :=
  h.work.works rfl rfl hcalls (hq ▸ rfl) he (fun hd => hq ▸ h.work.done hd) ht

lemma goes_of_dequeued (h : Script d) (ha : AtWork d last k l (.dequeued k))
    (hu : d.writer.step (.run (.worker 0)) = some u) (hg : d.writer.resource = .after l.length)
    (he : d.writer.ledger.executed = l.length) :
    Script { d with writer := u } ∧ rank { d with writer := u } < d.rank := by
  obtain ⟨e, hk, hbody⟩ := h.carries ha
  have hrun := hu
  simp only [h.step_of_atWork ha, Writer.stepCycle, ha.cycle, hk, hbody, Body.begin,
    Option.some.injEq] at hu
  subst hu
  have hclaimed : (d.writer.cell k).claimed = false := by
    refine Bool.eq_false_iff.mpr fun hc => ?_
    have hbegun : k ∈ d.writer.begun := h.kept.ordered.touched.settled k (by
      rw [Cell.settled, Bool.or_eq_true]
      exact .inl hc)
    obtain ⟨hr, -⟩ : d.writer.queue.removed = k :: d.writer.begun ∧ _ :=
      h.kept.ordered.runs.inHand 0 _ ha.cycle
    have hnodup := h.kept.ordered.tickets.nodup
    rw [h.kept.ordered.split] at hnodup
    have hremoved : d.writer.queue.removed.Nodup := hnodup.of_append_right
    rw [hr] at hremoved
    exact (List.nodup_cons.mp hremoved).1 hbegun
  refine h.of_taskTurn ha hrun rfl rfl ?_
    (h.work_of_same rfl rfl rfl) (Nat.lt_succ_self 18)
  change TaskProgress (d.writer.cell k) _ k _ d.writer.resource d.writer.ledger.executed
  rw [hg, he]
  exact .opens hclaimed

lemma step_of_body (h : Script d) {b : BodyStage Graph (Option Nat)}
    (ha : AtWork d last k l (.running k b)) : ∃ e : Envelope Graph (Option Nat),
      e.body = .wrapped Graph.transaction (Graph.job l.length) ∧
        d.writer.step (.run (.worker 0)) = d.writer.stepBody 0 k e b := by
  obtain ⟨e, hk, hbody⟩ := h.carries ha
  refine ⟨e, hbody, ?_⟩
  simp only [h.step_of_atWork ha, Writer.stepCycle, ha.cycle, hk]

lemma goes_of_opens (h : Script d)
    (ha : AtWork d last k l (.running k (.outer Graph.transaction)))
    (hu : d.writer.step (.run (.worker 0)) = some u) (hg : d.writer.resource = .after l.length)
    (he : d.writer.ledger.executed = l.length) (hc : (d.writer.cell k).claimed = false) :
    Script { d with writer := u } ∧ rank { d with writer := u } < d.rank := by
  obtain ⟨e, -, hstep⟩ := h.step_of_body ha
  have hrun := hu
  rw [hstep] at hu
  cases hu
  refine h.of_taskTurn ha hrun rfl rfl ?_
    (h.work_of_same rfl rfl rfl) (Nat.lt_succ_self 17)
  change TaskProgress (d.writer.cell k) _ k _ d.writer.resource.beginTransaction
    d.writer.ledger.executed
  rw [hg, he]
  exact .invokes hc

lemma goes_of_invokes (h : Script d) (ha : AtWork d last k l (.running k (.outer .plain)))
    (hu : d.writer.step (.run (.worker 0)) = some u)
    (hg : d.writer.resource = (Graph.after l.length).beginTransaction)
    (he : d.writer.ledger.executed = l.length) (hc : (d.writer.cell k).claimed = false) :
    Script { d with writer := u } ∧ rank { d with writer := u } < d.rank := by
  obtain ⟨e, hbody, hstep⟩ := h.step_of_body ha
  have hrun := hu
  simp only [hstep, Writer.stepBody, Writer.stepWrapper, Wrapper.plain, hbody, Body.task,
    Option.some.injEq] at hu
  subst hu
  refine h.of_taskTurn ha hrun rfl rfl ?_
    (h.work_of_same rfl rfl rfl) ?_
  · change TaskProgress (d.writer.cell k) _ k _ d.writer.resource d.writer.ledger.executed
    rw [hg, he]
    exact .works hc rfl
  · rw [Graph.job]
    split <;> exact Nat.lt_succ_self 16

lemma goes_of_works (h : Script d) {f : Option Failure → Wrapper Graph}
    (ha : AtWork d last k l (.running k (.inner (Graph.job l.length) (some f))))
    (hu : d.writer.step (.run (.worker 0)) = some u)
    (hg : d.writer.resource = (Graph.after l.length).beginTransaction)
    (he : d.writer.ledger.executed = l.length) (hc : (d.writer.cell k).claimed = false)
    (hf : f none = .done) :
    Script { d with writer := u } ∧ rank { d with writer := u } < d.rank := by
  obtain ⟨e, -, hstep⟩ := h.step_of_body ha
  have hrun := hu
  have hu' : u = ({ d.writer with resource := d.writer.resource.addNode } : Writer _ _).setBody 0 k
      (.inner (.ret (Graph.gift l.length)) (some f)) := by
    rw [hstep, Graph.job] at hu
    rw [Graph.gift]
    split at hu
    · rename_i hn
      rw [if_pos hn, ← show d.writer.resource.nodes = l.length by rw [hg]; rfl]
      exact (Option.some.inj hu).symm
    · rename_i hn
      rw [if_neg hn]
      exact (Option.some.inj hu).symm
  subst hu'
  refine h.of_taskTurn ha hrun rfl rfl ?_
    (h.work_of_same rfl rfl rfl) ?_
  · change TaskProgress (d.writer.cell k) _ k _ d.writer.resource.addNode d.writer.ledger.executed
    rw [hg, he]
    exact .gives hc hf
  · rw [Graph.job]
    split <;> exact Nat.lt_succ_self 15

lemma work_of_cell (h : Script d) (ha : AtWork d last k l y) {f : Cell (Option Nat) → Cell _}
    (hcalls : u.calls = d.writer.calls) (hq : u.queue = d.writer.queue)
    (henv : u.envelopes = changeCellAt d.writer.envelopes k f)
    (hcalm : ∀ a, (f a).interrupted = a.interrupted ∧ (f a).error = a.error)
    (hready : ∀ a, a.ready = true → (f a).ready = true)
    (hvalue : ∀ a, (f a).ready = true → (f a).value = some (Graph.gift l.length) ∨
      a.ready = true ∧ (f a).value = a.value) (ht : WorkerPart u) : Work { d with writer := u } :=
  h.work.of_cellChange rfl rfl hcalls (hq ▸ rfl) (hq ▸ rfl) h.kept.ordered.split
    h.kept.ordered.tickets.nodup ha.removed henv hcalm hready hvalue ht

lemma cell_changed (h : Script d) (ha : AtWork d last k l y)
    (f : Cell (Option Nat) → Cell (Option Nat)) :
    cellAt (changeCellAt d.writer.envelopes k f) k = f (d.writer.cell k) := by
  obtain ⟨e, he, -⟩ := h.carries ha
  rw [cellAt_changeCellAt_self he, Writer.cell_eq he]

lemma goes_of_gives (h : Script d) {f : Option Failure → Wrapper Graph}
    (ha : AtWork d last k l (.running k (.inner (.ret (Graph.gift l.length)) (some f))))
    (hu : d.writer.step (.run (.worker 0)) = some u)
    (hg : d.writer.resource = .after (l.length + 1))
    (he : d.writer.ledger.executed = l.length) (hc : (d.writer.cell k).claimed = false)
    (hf : f none = .done) :
    Script { d with writer := u } ∧ rank { d with writer := u } < d.rank := by
  obtain ⟨e, -, hstep⟩ := h.step_of_body ha
  have hrun := hu
  simp only [hstep, Writer.stepBody, Writer.stepProgram, Writer.claimFor, Cell.claim, hc,
    Bool.not_false, hf, Option.some.injEq] at hu
  subst hu
  refine h.of_taskTurn ha hrun rfl rfl ?_
    (h.work_of_cell (f := fun a => { a with claimed := true }) ha rfl rfl rfl
      (fun _ => ⟨rfl, rfl⟩) (fun _ hr => hr) fun _ hr => .inr ⟨hr, rfl⟩) (Nat.lt_succ_self 14)
  change TaskProgress
    (cellAt (changeCellAt d.writer.envelopes k fun a => { a with claimed := true }) k)
    _ k _ d.writer.resource d.writer.ledger.executed
  rw [h.cell_changed ha, hg, he]
  exact .publishes rfl

lemma goes_of_publishes (h : Script d)
    (ha : AtWork d last k l
      (.running k (.publishing (.value (Graph.gift l.length)) (.outer .done))))
    (hu : d.writer.step (.run (.worker 0)) = some u)
    (hg : d.writer.resource = .after (l.length + 1))
    (he : d.writer.ledger.executed = l.length) (hc : (d.writer.cell k).claimed = true) :
    Script { d with writer := u } ∧ rank { d with writer := u } < d.rank := by
  obtain ⟨e, -, hstep⟩ := h.step_of_body ha
  have hrun := hu
  simp only [hstep, Writer.stepBody, Option.some.injEq] at hu
  subst hu
  refine h.of_taskTurn ha hrun rfl rfl ?_
    (h.work_of_cell (f := fun a => a.publish (.value (Graph.gift l.length))) ha rfl rfl rfl
      (fun _ => ⟨rfl, rfl⟩) (fun _ _ => rfl) fun _ _ => .inl rfl) (Nat.lt_succ_self 13)
  change TaskProgress (cellAt (changeCellAt d.writer.envelopes k fun a =>
    a.publish (.value (Graph.gift l.length))) k) _ k _ d.writer.resource d.writer.ledger.executed
  rw [h.cell_changed ha, hg, he]
  exact .returns hc

lemma goes_of_returns (h : Script d) (ha : AtWork d last k l (.running k (.outer .done)))
    (hu : d.writer.step (.run (.worker 0)) = some u)
    (hg : d.writer.resource = .after (l.length + 1))
    (he : d.writer.ledger.executed = l.length) (hc : (d.writer.cell k).claimed = true) :
    Script { d with writer := u } ∧ rank { d with writer := u } < d.rank := by
  obtain ⟨e, -, hstep⟩ := h.step_of_body ha
  have hrun := hu
  simp only [hstep, Writer.stepBody, Writer.stepWrapper, Option.some.injEq] at hu
  subst hu
  refine h.of_taskTurn ha hrun rfl rfl ?_
    (h.work_of_same rfl rfl rfl) (Nat.lt_succ_self 12)
  change TaskProgress (d.writer.cell k) _ k _ d.writer.resource d.writer.ledger.executed
  rw [hg, he]
  exact .leaves hc

lemma goes_of_leaves (h : Script d) (ha : AtWork d last k l (.running k (.left none)))
    (hu : d.writer.step (.run (.worker 0)) = some u)
    (hg : d.writer.resource = .after (l.length + 1))
    (he : d.writer.ledger.executed = l.length) (hc : (d.writer.cell k).claimed = true) :
    Script { d with writer := u } ∧ rank { d with writer := u } < d.rank := by
  obtain ⟨e, -, hstep⟩ := h.step_of_body ha
  have hrun := hu
  simp only [hstep, Writer.stepBody, Writer.stepLeft, hc, if_true, Option.some.injEq] at hu
  subst hu
  refine h.of_taskTurn ha hrun rfl rfl ?_
    (h.work_of_same rfl rfl rfl) (Nat.lt_succ_self 11)
  change TaskProgress (d.writer.cell k) _ k _ d.writer.resource d.writer.ledger.executed
  rw [hg, he]
  exact .succeeds

lemma goes_of_succeeds (h : Script d) (ha : AtWork d last k l (.running k (.verdict true)))
    (hu : d.writer.step (.run (.worker 0)) = some u)
    (hg : d.writer.resource = .after (l.length + 1))
    (he : d.writer.ledger.executed = l.length) :
    Script { d with writer := u } ∧ rank { d with writer := u } < d.rank := by
  obtain ⟨e, -, hstep⟩ := h.step_of_body ha
  have hrun := hu
  simp only [hstep, Writer.stepBody, if_true, Option.some.injEq] at hu
  subst hu
  refine h.of_taskTurn ha hrun rfl rfl ?_
    (h.work_of_same rfl rfl rfl) (Nat.lt_succ_self 10)
  change TaskProgress (d.writer.cell k) _ k _ d.writer.resource d.writer.ledger.executed
  rw [hg, he]
  exact .counts

lemma goes_of_counts (h : Script d) (ha : AtWork d last k l (.counting k))
    (hu : d.writer.step (.run (.worker 0)) = some u)
    (hg : d.writer.resource = .after (l.length + 1))
    (he : d.writer.ledger.executed = l.length) :
    Script { d with writer := u } ∧ rank { d with writer := u } < d.rank := by
  have hrun := hu
  simp only [h.step_of_atWork ha, Writer.stepCycle, ha.cycle, Option.some.injEq] at hu
  subst hu
  refine h.of_taskTurn ha hrun rfl rfl ?_
    (h.work_of_same rfl rfl rfl) (Nat.lt_succ_self 9)
  change TaskProgress (d.writer.cell k) _ k _ d.writer.resource (d.writer.ledger.executed + 1)
  rw [hg, he]
  exact .measures

lemma goes_of_measures (h : Script d) (ha : AtWork d last k l (.measuring k))
    (hu : d.writer.step (.run (.worker 0)) = some u)
    (hg : d.writer.resource = .after (l.length + 1))
    (he : d.writer.ledger.executed = l.length + 1) :
    Script { d with writer := u } ∧ rank { d with writer := u } < d.rank := by
  have hrun := hu
  simp only [h.step_of_atWork ha, Writer.stepCycle, ha.cycle, Option.some.injEq] at hu
  rcases hd : d.writer.ledger.noteDepth d.writer.now d.writer.queue.size (.worker 0)
    d.writer.journal with ⟨fault, ledger, j⟩
  obtain rfl := Ledger.noteDepth_of_unarmed hd h.kept.quiet
  obtain ⟨hexecuted, hfailed⟩ := Writer.noteDepth_books hd
  simp only [hd] at hu
  subst hu
  have hworker : d.writer.control.worker? 0 = some (.cycling last) := by
    rw [Control.worker?, ha.workers]
    rfl
  have hend := Control.endCycle_eq hworker none
  have hset : (d.writer.control.setWorker 0 (.afterCycle last none)).workers =
      [.afterCycle last none] := by
    rw [Control.setWorker, ha.workers]
    rfl
  have hlength : d.writer.queue.removed.length = l.length + 1 := by
    rw [ha.removed]
    rfl
  refine h.of_worker ha.plot ha.joinable hrun rfl (congrArg Control.calls hend :)
    (congrArg Control.phase hend :) (congrArg Control.holder hend :)
    (congrArg Control.config hend :)
    (congrArg Control.joinable hend :) ((congrArg Control.workers hend).trans hset)
    ha.suits.afterCycle rfl rfl rfl h.settings.queue rfl rfl hfailed rfl
    (h.work_of_same rfl rfl rfl (.rests (Roster.get?_drop_self ..) ?_ ?_)) h.alert ?_
  · exact hg.trans (congrArg Graph.after hlength.symm)
  · exact hexecuted.trans (he.trans hlength.symm)
  · have hdue : ∀ i, (WorkerStage.afterCycle last none).due i ≤ 7 := by
      cases last <;> simp [WorkerStage.afterCycle, WorkerStage.due]
    have hold : workerDue d.writer = 9 := by
      rw [workerDue, ha.workers]
      dsimp only [WorkerStage.due]
      rw [cycleDue, ha.cycle]
      rfl
    refine Nat.add_lt_add_right (Nat.add_lt_add_right ?_ _) _
    rw [hold, workerDue, Writer.endCycle]
    dsimp only
    rw [hend, hset]
    exact Nat.lt_of_le_of_lt (hdue _) (by decide)

lemma worker_runs_task (h : Script d) (ha : AtWork d last k l y)
    (hd : TaskProgress (d.writer.cell k) l.length k y d.writer.resource d.writer.ledger.executed)
    (hu : d.writer.step (.run (.worker 0)) = some u) :
    Script { d with writer := u } ∧ rank { d with writer := u } < d.rank := by
  generalize hg : d.writer.resource = g at hd
  generalize he : d.writer.ledger.executed = i at hd
  cases hd with
  | dequeued => exact h.goes_of_dequeued ha hu hg he
  | opens hc => exact h.goes_of_opens ha hu hg he hc
  | invokes hc => exact h.goes_of_invokes ha hu hg he hc
  | works hc hf => exact h.goes_of_works ha hu hg he hc hf
  | gives hc hf => exact h.goes_of_gives ha hu hg he hc hf
  | publishes hc => exact h.goes_of_publishes ha hu hg he hc
  | returns hc => exact h.goes_of_returns ha hu hg he hc
  | leaves hc => exact h.goes_of_leaves ha hu hg he hc
  | succeeds => exact h.goes_of_succeeds ha hu hg he
  | counts => exact h.goes_of_counts ha hu hg he
  | measures => exact h.goes_of_measures ha hu hg he

lemma worker_cycles (h : Script d) (hplot : Plot d.view .alive)
    (hj : d.writer.control.joinable = some 0)
    (hworkers : d.writer.control.workers = [.cycling last])
    (hsuits : (WorkerStage.cycling last).Suits d.writer.control.phase)
    (hu : d.writer.step (.run (.worker 0)) = some u) :
    Script { d with writer := u } ∧ rank { d with writer := u } < d.rank := by
  cases h.work.worker with
  | inHand hy hl hd => exact h.worker_runs_task ⟨hplot, hj, hworkers, hsuits, hy, hl⟩ hd hu
  | rests hy _ _ =>
    cases hst : d.writer.queue.stages.get? (.worker 0) with
    | none => exact h.worker_seeks hplot hj hworkers hsuits hy hst hu
    | some st =>
      cases st with
      | waiting b told => exact h.worker_seeks_again hplot hj hworkers hsuits hy hst hu
      | notifying everyone =>
        rw [h.step_of_cycle hworkers, Writer.stepCycle, hy, hst] at hu
        simp only [SharedQueue.retake, hst, Option.map_none, reduceCtorEq] at hu

theorem worker_goes {n : Nat} (h : Script d) (hs : d.step (.worker n) = some v) :
    Script v ∧ v.rank < d.rank := by
  obtain ⟨-, hplot, hj, s, hworkers, hsuits, hs⟩ := h.staff_of_step hs
  by_cases hn : ∃ last, s = .cycling last
  · obtain ⟨last, rfl⟩ := hn
    obtain ⟨u, hu, rfl⟩ := Option.map_eq_some_iff.mp hs
    exact h.worker_cycles hplot hj hworkers hsuits hu
  · exact h.worker_between hplot hj hworkers hsuits (fun last hl => hn ⟨last, hl⟩) hs

end Script

end Demo

end SerialWriter
