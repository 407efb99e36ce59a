import SerialWriter.Proofs.Depth
import SerialWriter.Proofs.Writer.Turns

/-!
What a step of a thread leaves behind at the pending tasks, in the books and in the log. It changes
the queue in one way at most and logs one line at most; only a worker at the end of its cycle logs
one about the depth of the queue, and nothing else touches the time since which the interval for
such lines runs.
-/

namespace SerialWriter

variable {σ V : Type}

/-- **One line at most is logged**, and none about the depth. -/
inductive Journal.Grows (j : Journal) : Journal → Prop
  | nothing : j.Grows j
  | line {t : Thread} {x : Notice} {f : Option Failure} {j' : Journal} (hx : x.depth? = none)
      (h : j.log t x = (f, j')) : j.Grows j'

namespace Journal.Grows

variable {j j' : Journal}

lemma depths (h : j.Grows j') : j'.depths = j.depths := by
  cases h with
  | nothing => rfl
  | line hx hl => rw [depths_log hl, hx, Option.toList_none, List.append_nil]

lemma unarmed (h : j.Grows j') (hj : j.armed = none) : j'.armed = none := by
  cases h with
  | nothing => exact hj
  | line _ hl => exact unarmed_log hl hj

end Journal.Grows

/-! ### In the control -/

namespace Control

variable {c d : Control} {t : Thread} {now : Time} {j j' : Journal} {n : Nat}

lemma grows_enter {p : Phase} {f : Option Failure} (h : c.enter p t j = (f, d, j')) :
    j.Grows j' := .line rfl (enter_cases h).1

lemma grows_concludeStart (c : Control) (t : Thread) (j : Journal) :
    j.Grows (c.concludeStart t j).2 := by
  unfold concludeStart
  split
  · exact .nothing
  · split <;> (rename_i hl; exact .line rfl hl)

lemma grows_concludeStop (c : Control) (t : Thread) (closing : Bool) (j : Journal) :
    j.Grows (c.concludeStop t closing j).2 := by
  unfold concludeStop
  split
  · exact .nothing
  · split <;> (rename_i hl; exact .line rfl hl)

lemma grows_of_turn {s : CallStage} (h : CallTurn c t now j s d j') : j.Grows j' := by
  cases h with
  | start h =>
    cases h with
    | launched _ he | launchFault _ he | unmanned _ he _ => exact grows_enter he
    | concluded _ _ _ => exact grows_concludeStart ..
    | _ => exact .nothing
  | stop h =>
    cases h with
    | retired _ _ he _ | halted _ _ he | haltFault _ _ he => exact grows_enter he
    | collected _ => exact grows_concludeStop ..
    | _ => exact .nothing
  | destroy h =>
    cases h with
    | reported hl => exact .line rfl hl
    | _ => exact .nothing

lemma grows_of_workerTurn {s : WorkerStage} (h : WorkerTurn c n j s d j') : j.Grows j' := by
  cases h with
  | opens _ _ he | retires _ he | fails _ he => exact grows_enter he
  | reports hl => exact .line rfl hl
  | _ => exact .nothing

end Control

/-! ### In a writer -/

namespace Writer

variable {w v u : Writer σ V} {t : Thread} {a : CallOfWriter σ V} {n k : Nat} {m : Move σ V}

/-- **What a step leaves behind** that logs nothing about the depth. -/
structure Trail (w v : Writer σ V) : Prop where
  queue : w.queue.Changes v.queue
  meter : w.ledger.SameMeter v.ledger
  journal : w.journal.Grows v.journal

namespace Trail

lemma none (hq : v.queue = w.queue) (hl : v.ledger = w.ledger) (hj : v.journal = w.journal) :
    w.Trail v :=
  ⟨hq ▸ .rests, hl ▸ .refl _, hj ▸ .nothing⟩

lemma queued (hq : w.queue.Changes v.queue) (hl : v.ledger = w.ledger)
    (hj : v.journal = w.journal) : w.Trail v :=
  ⟨hq, hl ▸ .refl _, hj ▸ .nothing⟩

end Trail

/-! ### Calls -/

lemma trail_of_inControl (h : w.InControl t v) : w.Trail v := by
  cases h with
  | rings _ _ => exact .queued (.wakes t) rfl rfl
  | wakes _ hq => exact .queued (.notifies hq) rfl rfl
  | turns _ _ hturn => exact ⟨.rests, .refl _, Control.grows_of_turn hturn⟩

lemma trail_of_call (h : w.CallMoves t a v) : w.Trail v := by
  cases h with
  | inside _ h => exact trail_of_inControl h
  | @logs _ _ _ x _ _ hx hl =>
    have hdepth : x.depth? = Option.none := by cases hx <;> rfl
    obtain ⟨_, _, rfl⟩ := hx.counts
    obtain ⟨j, hj, rfl⟩ := journal_of_log hl
    exact ⟨.rests, .refl _, .line hdepth hj⟩
  | clears => exact .queued .clears rfl rfl
  | offers hq => exact .queued (.offers hq) rfl rfl
  | notifies hq => exact .queued (.notifies hq) rfl rfl
  | leaves _ _ | walks | stops _ | discards _ | admits _ | refuses _ | breaks _ | makes _
  | misses _ | submits _ | awaits _ | hears _ | collects _ => exact .none rfl rfl rfl

/-! ### Cycles -/

lemma trail_of_body {e : Envelope σ V} {b : BodyStage σ V} (h : w.BodyMoves n k e b v) :
    w.Trail v := by
  cases h with
  | turns _ | enters _ _ _ _ | writes _ _ | returns _ | succeeds => exact .none rfl rfl rfl
  | reports _ hl | garbles _ hl => exact ⟨.rests, .refl _, .line rfl hl⟩
  | fails hl | spoils hl => exact ⟨.rests, ⟨rfl, rfl⟩, .line rfl hl⟩

/-- **What a thread leaves behind** when it goes on. -/
inductive Marks (t : Thread) (w v : Writer σ V) : Prop
  /-- It logs nothing about the depth. A worker that has come to that line stays in its cycle. -/
  | trail (h : w.Trail v) (hm : ∀ n k, t = .worker n → w.cycles.get? t = some (.measuring k) →
      (w.control.budget? n).isSome → (v.control.budget? n).isSome)
  /-- A worker has come to the line about the depth, and its cycle ends. -/
  | measures {n k : Nat} {last : Bool} {f : Option Failure} (ht : t = .worker n)
      (hw : w.control.worker? n = some (.cycling last))
      (hy : w.cycles.get? t = some (.measuring k))
      (hd : w.ledger.noteDepth w.now w.queue.size t w.journal = (f, v.ledger, v.journal))
      (hq : v.queue = w.queue) (hc : v.control = w.control.setWorker n (.afterCycle last f))

lemma marks_of_work (h : w.WorkMoves n v) : Marks (.worker n) w v := by
  have hunmeasured : ∀ {y? : Option (CycleStage σ V)}, w.cycles.get? (.worker n) = y? →
      (∀ k, y? ≠ some (.measuring k)) → w.Trail v → Marks (.worker n) w v := by
    intro y? hy hne htrail
    exact .trail htrail fun i k _ hm => absurd (hy.symm.trans hm) (hne k)
  cases h with
  | works hb _ hturn =>
    refine .trail ⟨.rests, .refl _, Control.grows_of_workerTurn hturn⟩ ?_
    rintro i k hi - hbudget
    cases hi
    exact nomatch hb ▸ hbudget
  | takes _ hy =>
    refine hunmeasured hy nofun ?_
    have hq : w.queue.Changes (w.queue.pop (.worker n)).2 := .pops _
    cases (w.queue.pop (.worker n)).1 <;> exact .queued hq rfl rfl
  | waits _ hy _ _ => exact hunmeasured hy nofun (.queued (.waits _ _) rfl rfl)
  | opens _ hy _ => exact hunmeasured hy nofun (.none rfl rfl rfl)
  | body _ hy _ h => exact hunmeasured hy nofun (trail_of_body h)
  | counts _ hy => exact hunmeasured hy nofun ⟨.rests, ⟨rfl, rfl⟩, .nothing⟩
  | measures hw hy hd => exact .measures rfl hw hy hd rfl (Control.endCycle_eq hw _)

theorem marks_of_run (h : w.run t = some v) : Marks t w v := by
  cases moves_of_run h with
  | calls ha h =>
    refine .trail (trail_of_call h) fun n k _ _ hb => ?_
    -- a call takes no worker out of its cycle
    obtain ⟨last, hw⟩ := Control.budget?_isSome_iff.mp hb
    exact Control.budget?_isSome_iff.mpr ⟨last, (goes_of_call ha h).workers.worker? hw⟩
  | works _ h => exact marks_of_work h

/-! ### Every move -/

theorem changes_of_step (h : w.step m = some v) : w.queue.Changes v.queue := by
  cases moves_of_step h with
  | @runs t _ _ =>
    cases marks_of_run h with
    | trail h _ => exact h.queue
    | measures _ _ _ _ hq _ =>
      rw [hq]
      exact .rests
  | @begins _ r _ => cases r <;> exact .rests
  | @rouses t _ => exact .rouses t
  | acknowledges _ | stirs _ | opensGate | opensAll | arms | passes => exact .rests

theorem step_withinCapacity {c : Nat} (h : w.queue.WithinCapacity c) (hs : w.step m = some v) :
    v.queue.WithinCapacity c :=
  (changes_of_step hs).withinCapacity h

/-- **A writer's queue never holds more than its settings allow.** -/
theorem Reachable.withinCapacity {w₀ : Writer σ V} {config : Config} {target : String}
    {factory : Option (Factory σ)} {resource : σ} {now : Time} {j j' : Journal}
    (hc : create config target factory resource now t j = (.ok w₀, j')) (h : Reachable w₀ w) :
    w.queue.WithinCapacity config.capacity := by
  induction h with
  | refl =>
    unfold create at hc
    split at hc
    · cases hc
    · split at hc <;> cases hc
      exact .new _
  | step m _ hs ih => exact step_withinCapacity ih hs

end Writer

end SerialWriter
