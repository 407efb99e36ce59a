import SerialWriter.Proofs.Control.Orderly
import SerialWriter.Proofs.Run

/-!
One worker at a time: workers of different lives never overlap, nor do their cycles, and a start
creates a worker only when the one before has been joined.
-/

namespace SerialWriter

/-! ### Where workers, cycles and joins come from -/

/-- The workers stay as they are, but the one that is gone may have been joined. -/
structure KeepsWorkers (c d : Control) : Prop where
  cycles : d.cycles = c.cycles
  workers : d.workers = c.workers
  joinable : d.joinable = c.joinable ∨
    ∃ n, c.joinable = some n ∧ c.worker? n = some .finished ∧ d.joinable = none

namespace KeepsWorkers

variable {c d e : Control} {t : Thread} {j j' : Journal}

lemma refl (c : Control) : KeepsWorkers c c := ⟨rfl, rfl, .inl rfl⟩

lemma trans (h : KeepsWorkers c d) (he : KeepsWorkers d e) : KeepsWorkers c e := by
  refine ⟨he.cycles.trans h.cycles, he.workers.trans h.workers, ?_⟩
  rcases h.joinable with hj | ⟨n, hn, hw, hj⟩
  · rcases he.joinable with hk | ⟨m, hm, hv, hk⟩
    · exact .inl (hk.trans hj)
    · refine .inr ⟨m, hj ▸ hm, ?_, hk⟩
      rw [Control.worker?, h.workers] at hv
      exact hv
  · rcases he.joinable with hk | ⟨m, hm, -, -⟩
    · exact .inr ⟨n, hn, hw, hk.trans hj⟩
    · rw [hj] at hm
      cases hm

lemma enter {p : Phase} {f : Option Failure} (h : c.enter p t j = (f, d, j')) :
    KeepsWorkers c d := by
  obtain ⟨-, -, hj, hw, -, -, hc⟩ := Control.enter_frame h
  exact ⟨hc, hw, .inl hj⟩

lemma join (h : c.join t = some d) : KeepsWorkers c d := by
  rcases Control.join_cases h with ⟨-, rfl⟩ | ⟨n, -, -, rfl⟩ | ⟨n, hj, -, hw, rfl⟩
  · exact refl _
  · exact refl _
  · exact ⟨rfl, rfl, .inr ⟨n, hj, hw, rfl⟩⟩

lemma concludeStart (c : Control) (t : Thread) (j : Journal) :
    KeepsWorkers c (c.concludeStart t j).1 := by
  obtain ⟨r, hr⟩ := Control.concludeStart_eq c t j
  rw [hr]
  exact ⟨rfl, rfl, .inl rfl⟩

lemma concludeStop (c : Control) (t : Thread) (closing : Bool) (j : Journal) :
    KeepsWorkers c (c.concludeStop t closing j).1 := by
  obtain ⟨r, hr⟩ := Control.concludeStop_eq c t closing j
  rw [hr]
  exact ⟨rfl, rfl, .inl rfl⟩

lemma of_eq (hc : d.cycles = c.cycles) (hw : d.workers = c.workers)
    (hj : d.joinable = c.joinable) : KeepsWorkers c d := ⟨hc, hw, .inl hj⟩

lemma finishStop (c : Control) (t : Thread) (closing : Bool) (r : Except Failure Unit) :
    KeepsWorkers c (c.finishStop t closing r) := by
  rw [Control.finishStop_eq]
  exact of_eq rfl rfl rfl

end KeepsWorkers

namespace Control

variable {c d : Control} {t : Thread} {s : CallStage} {now : Time} {j j' : Journal}

/-- The creation of a worker by a start. -/
structure Creates (c d : Control) : Prop where
  stage : ∃ t, c.calls.get? t = some (.start true .spawning)
  workers : d.workers = c.workers ++ [.created]
  joinable : d.joinable = some c.workers.length
  cycles : d.cycles = c.cycles
  holder : d.holder = none

lemma keepsWorkers_of_turn (hs : c.calls.get? t = some s) (h : CallTurn c t now j s d j') :
    KeepsWorkers c d ∨ c.Creates d := by
  cases h with
  | start h =>
    cases h with
    | refused _ _ => exact .inl (.of_eq rfl rfl rfl)
    | admitted _ _ => exact .inl (.of_eq rfl rfl rfl)
    | launched hd he =>
      exact .inl (((KeepsWorkers.join hd).trans (.enter he)).trans (.of_eq rfl rfl rfl))
    | launchFault hd he =>
      exact .inl (((KeepsWorkers.join hd).trans (.enter he)).trans (.of_eq rfl rfl rfl))
    | spawned hsp => exact .inr ⟨⟨t, hsp ▸ hs⟩, rfl, rfl, rfl, rfl⟩
    | unmanned _ he _ =>
      obtain ⟨-, -, hj, hw, -, -, hc⟩ := enter_frame he
      exact .inl (.of_eq hc hw hj)
    | concluded _ _ _ => exact .inl (.concludeStart ..)
    | expired _ _ _ => exact .inl (.of_eq rfl rfl rfl)
    | waits _ _ _ => exact .inl (.of_eq rfl rfl rfl)
  | stop h =>
    left
    cases h with
    | retired _ _ he _ => exact (KeepsWorkers.enter he).trans (.finishStop ..)
    | already _ _ => exact .finishStop ..
    | buries _ _ => exact .of_eq rfl rfl rfl
    | halted _ _ he => exact (KeepsWorkers.enter he).trans (.of_eq rfl rfl rfl)
    | haltFault _ _ he => exact (KeepsWorkers.enter he).trans (.finishStop ..)
    | halts _ _ => exact .of_eq rfl rfl rfl
    | buried hd => exact (KeepsWorkers.join hd).trans (.finishStop ..)
    | collects _ _ _ => exact .of_eq rfl rfl rfl
    | expired _ _ _ => exact .finishStop ..
    | waits _ _ _ => exact .of_eq rfl rfl rfl
    | collected hd => exact (KeepsWorkers.join hd).trans (.concludeStop ..)
  | destroy h =>
    left
    cases h with
    | stops _ => exact .of_eq rfl rfl rfl
    | skips _ => exact .of_eq rfl rfl rfl
    | reported _ => exact .of_eq rfl rfl rfl
    | locks _ => exact .of_eq rfl rfl rfl
    | joined hd => exact (KeepsWorkers.join hd).trans (.of_eq rfl rfl rfl)

lemma workers_of_turn {n : Nat} {w : WorkerStage} (h : WorkerTurn c n j w d j') :
    d.joinable = c.joinable ∧ (∃ w', d.workers = c.workers.set n w') ∧
      (d.cycles = c.cycles ∨ ∃ last, w = .entering last) := by
  cases h with
  | opens _ _ he =>
    obtain ⟨-, -, hj, hw, -, -, hc⟩ := enter_frame he
    exact ⟨hj, ⟨_, congrArg (List.set · n _) hw⟩, .inl hc⟩
  | hurries _ _ => exact ⟨rfl, ⟨_, rfl⟩, .inl rfl⟩
  | looks => exact ⟨rfl, ⟨_, rfl⟩, .inl rfl⟩
  | @enters last => exact ⟨rfl, ⟨_, rfl⟩, .inr ⟨last, rfl⟩⟩
  | retires _ he =>
    obtain ⟨-, -, hj, hw, -, -, hc⟩ := enter_frame he
    exact ⟨hj, ⟨_, congrArg (List.set · n _) hw⟩, .inl hc⟩
  | fails _ he =>
    obtain ⟨-, -, hj, hw, -, -, hc⟩ := enter_frame he
    exact ⟨hj, ⟨_, congrArg (List.set · n _) hw⟩, .inl hc⟩
  | reports _ => exact ⟨rfl, ⟨_, rfl⟩, .inl rfl⟩
  | leaves => exact ⟨rfl, ⟨_, rfl⟩, .inl rfl⟩

/-- **Where workers, cycles and joins come from**: a step leaves them alone or joins a worker that
is gone, creates a worker, moves a worker outside its cycles, or begins a cycle. -/
lemma Step.workers (h : c.Step now j d j') :
    KeepsWorkers c d ∨ c.Creates d ∨
      d.joinable = c.joinable ∧ (∃ n w', d.workers = c.workers.set n w') ∧
        (d.cycles = c.cycles ∨ ∃ n last, c.worker? n = some (.entering last)) := by
  cases h with
  | begins _ _ _ => exact .inl (.of_eq rfl rfl rfl)
  | calls hs h => exact (keepsWorkers_of_turn hs h).imp_right .inl
  | wakes _ => exact .inl (.of_eq rfl rfl rfl)
  | acknowledges _ => exact .inl (.of_eq rfl rfl rfl)
  | works hw h =>
    obtain ⟨hj, ⟨w', hs⟩, hc⟩ := workers_of_turn h
    exact .inr (.inr ⟨hj, ⟨_, w', hs⟩, hc.imp_right fun ⟨last, he⟩ => ⟨_, last, he ▸ hw⟩⟩)
  | endsCycle e _ _ => exact .inr (.inr ⟨rfl, ⟨_, _, rfl⟩, .inl rfl⟩)
  | stirs _ => exact .inl (.of_eq rfl rfl rfl)

lemma building_roused (s : CallStage) : s.roused.building = s.building := by
  unfold CallStage.roused
  split <;> rfl

lemma Step.building (h : c.Step now j d j') {u : Thread} {a : CallStage}
    (ha : d.calls.get? u = some a) (hb : a.building = true) :
    (∃ b, c.calls.get? u = some b ∧ b.building = true) ∨
      c.phase = .new ∨ c.phase = .terminated := by
  -- a call that the step does not move on is where it was
  have hrest : ∀ e : Control, Rouses c e → e.calls.get? u = some a →
      ∃ b, c.calls.get? u = some b ∧ b.building = true := by
    intro e he hu
    rcases he u with hsame | hsame
    · exact ⟨a, hsame ▸ hu, hb⟩
    · rw [hsame] at hu
      obtain ⟨b, hbu, rfl⟩ := Option.map_eq_some_iff.mp hu
      exact ⟨b, hbu, building_roused b ▸ hb⟩
  have hput : ∀ (e : Control) (t : Thread) (s' : CallStage), Rouses c e →
      (e.setCall t s').calls.get? u = some a → u ≠ t →
        ∃ b, c.calls.get? u = some b ∧ b.building = true := by
    intro e t s' he hu hut
    rw [setCall, Roster.get?_put_ne _ _ hut] at hu
    exact hrest e he hu
  cases h with
  | @begins t s hn ht ho =>
    by_cases hut : u = t
    · rw [hut, setCall, Roster.get?_put_self, Option.some.injEq] at ha
      rw [← ha] at hb
      unfold CallStage.opening at ho
      split at ho
      all_goals first | cases hb | cases ho
    · exact .inl (hput c t s (.of_eq rfl) ha hut)
  | @calls t s d j' hs h =>
    obtain ⟨e, s', rfl, he, hgo⟩ := eq_setCall_of_turn h
    by_cases hut : u = t
    · rw [hut, setCall, Roster.get?_put_self, Option.some.injEq] at ha
      rw [← ha] at hb
      exact (hgo hb).imp_left fun h => ⟨s, hut ▸ hs, h⟩
    · exact .inl (hput e t s' he ha hut)
  | @wakes t closing hs =>
    by_cases hut : u = t
    · rw [hut, setCall, Roster.get?_put_self, Option.some.injEq] at ha
      rw [← ha] at hb
      cases hb
    · exact .inl (hput c.unlock t _ (.of_eq rfl) ha hut)
  | acknowledges hs =>
    simp only [acknowledge, Roster.get?_drop, Option.ite_none_left_eq_some] at ha
    exact .inl ⟨a, ha.2, hb⟩
  | works hw h => exact .inl (hrest d (rouses_of_turn h) ha)
  | endsCycle e hw hn => exact .inl ⟨a, ha, hb⟩
  | @stirs t s hs =>
    by_cases hut : u = t
    · rw [hut, setCall, Roster.get?_put_self, Option.some.injEq] at ha
      exact .inl ⟨s, hut ▸ hs, by rw [← building_roused, ha, hb]⟩
    · exact .inl (hput c t _ (.of_eq rfl) ha hut)

lemma holds_of_building {s : CallStage} (h : s.building = true) : s.holds = true := by
  unfold CallStage.building at h
  split at h
  all_goals first | rfl | cases h

lemma Orderly.of_creates (h : c.Orderly) (hc : c.Creates d) :
    c.joinable = none ∧ ∀ n w, c.worker? n = some w → w = .finished := by
  obtain ⟨t, ht⟩ := hc.stage
  have hj : c.joinable = none := (h.guarded.suited t _ ht).2
  exact ⟨hj, fun n w hw => h.staffed.vacant hj hw⟩

end Control

/-! ### The discipline -/

namespace ControlScene

variable {config : Config} {s s' : ControlScene} {m : Move}

/-- The move from `s` to `s'` creates a worker. -/
def creates (s s' : ControlScene) : Prop := s.control.workers.length < s'.control.workers.length

lemma step_workers (h : s.step m = some s') :
    KeepsWorkers s.control s'.control ∨ s.control.Creates s'.control ∨
      s'.control.joinable = s.control.joinable ∧
        (∃ n w', s'.control.workers = s.control.workers.set n w') ∧
          (s'.control.cycles = s.control.cycles ∨
            ∃ n last, s.control.worker? n = some (.entering last)) := by
  rcases step_cases h with ⟨_, -, rfl⟩ | ⟨_, -, rfl⟩ | ⟨hstep, -⟩
  · exact .inl (.refl _)
  · exact .inl (.refl _)
  · exact hstep.workers

lemma creates_of_step (h : s.step m = some s') (hc : s.creates s') :
    s.control.Creates s'.control := by
  unfold creates at hc
  rcases step_workers h with hk | hk | ⟨-, ⟨n, w', hk⟩, -⟩
  · rw [hk.workers] at hc
    omega
  · exact hk
  · rw [hk, List.length_set] at hc
    omega

/-- No start is about to create a worker. -/
def Calm (s : ControlScene) : Prop :=
  ∀ t a, s.control.calls.get? t = some a → a.building = false

lemma Calm.step (hc : s.Calm) (hp : s.control.phase ≠ .new ∧ s.control.phase ≠ .terminated)
    (h : s.step m = some s') : s'.Calm := by
  intro t a ha
  rcases step_cases h with ⟨_, -, rfl⟩ | ⟨_, -, rfl⟩ | ⟨hstep, -⟩
  · exact hc t a ha
  · exact hc t a ha
  · refine Bool.eq_false_iff.mpr fun hb => ?_
    rcases hstep.building ha hb with ⟨b, hbc, hbb⟩ | hn | ht
    · rw [hc t b hbc] at hbb
      cases hbb
    · exact hp.1 hn
    · exact hp.2 ht

/-- **One worker at a time**, in a scene and across every move out of it. -/
structure OneWorker (s : ControlScene) : Prop where
  /-- At most one worker thread has yet to go. -/
  alone : ∀ n k v w, s.control.worker? n = some v → v ≠ .finished →
    s.control.worker? k = some w → w ≠ .finished → n = k
  /-- At most one worker is in a cycle. -/
  apart : ∀ n k a b, s.control.worker? n = some (.cycling a) →
    s.control.worker? k = some (.cycling b) → n = k
  /-- A cycle begins when no other is going on. -/
  begins : ∀ m s', s.step m = some s' → s'.control.cycles ≠ s.control.cycles →
    ∀ n last, s.control.worker? n ≠ some (.cycling last)
  /-- A worker is created when there is none to join and every earlier one is gone; from then on the
  new one is to be joined. -/
  creates : ∀ m s', s.step m = some s' → s.creates s' →
    s.control.joinable = none ∧ (∀ n w, s.control.worker? n = some w → w = .finished) ∧
      s'.control.joinable = some s.control.workers.length
  /-- A worker is to be joined until it has been joined, which it is once it is gone. -/
  joins : ∀ m s' n, s.step m = some s' → s.control.joinable = some n →
    s'.control.joinable ≠ some n →
      s.control.worker? n = some .finished ∧ s'.control.joinable = none
  /-- Between two creations the control is found new or terminated. -/
  once : ∀ m s₁ s₂ m' s₃, s.step m = some s₁ → s.creates s₁ →
    Along step (fun u => u.control.phase ≠ .new ∧ u.control.phase ≠ .terminated) s₁ s₂ →
      s₂.step m' = some s₃ → ¬ s₂.creates s₃

/-- **The discipline of the single writer**: whatever starts, stops and destructions are made, by
clients or by tasks, and however long cycles take and whatever escapes them. -/
theorem oneWorker_of_reachable (h : Reachable config s) : s.OneWorker := by
  have ho := h.orderly
  have hpresent : ∀ v : WorkerStage, v ≠ .finished → v.present = true := fun v hv =>
    Bool.not_eq_false _ ▸ fun hp => hv (WorkerStage.eq_finished hp)
  refine ⟨fun n k v w hv hvp hw hwp => ?_, fun n k a b ha hb => ?_, fun m s' hs hc n last hn => ?_,
    fun m s' hs hc => ?_, fun m s' n hs hn hn' => ?_, fun m s₁ s₂ m' s₃ hs hc hrun hs' hc' => ?_⟩
  · exact ho.staffed.eq_of_present hv (hpresent v hvp) hw (hpresent w hwp)
  · exact ho.staffed.eq_of_present ha rfl hb rfl
  · rcases step_workers hs with hk | hk | ⟨-, -, hk | ⟨k, last', hk⟩⟩
    · exact hc hk.cycles
    · exact hc hk.cycles
    · exact hc hk
    · -- the worker that begins the cycle is the only one present
      have hkn := ho.staffed.eq_of_present hk rfl hn rfl
      rw [hkn, hn] at hk
      cases hk
  · have hcr := creates_of_step hs hc
    obtain ⟨hj, hall⟩ := ho.of_creates hcr
    exact ⟨hj, hall, hcr.joinable⟩
  · rcases step_workers hs with hk | hk | ⟨hk, -, -⟩
    · rcases hk.joinable with hj | ⟨k, hk', hw, hj⟩
      · exact absurd (hj.trans hn) hn'
      · rw [hn, Option.some.injEq] at hk'
        exact ⟨hk' ▸ hw, hj⟩
    · rw [(ho.of_creates hk).1] at hn
      cases hn
    · exact absurd (hk.trans hn) hn'
  · have hcr := creates_of_step hs hc
    have h₁ : Reachable config s₁ := .step m h hs
    have hcalm : s₂.Calm := by
      refine hrun.keeps (fun _ t a ha => ?_) fun u m v hp hu hstep _ => hu.step hp hstep
      -- the lock is free after a creation, and a start that builds would hold it
      refine Bool.eq_false_iff.mpr fun hb => ?_
      have hheld := h₁.orderly.guarded.held t a ha (Control.holds_of_building hb)
      rw [hcr.holder] at hheld
      cases hheld
    obtain ⟨t, ht⟩ := (creates_of_step hs' hc').stage
    have := hcalm t _ ht
    cases this

/-- A start, a stop that gives up on a long cycle, the end of that cycle and of its worker, and a
second start. -/
def lateEnd : List Move :=
  [.start (.client 0) true, .call (.client 0), .call (.client 0), .call (.client 0), .work 0,
    .call (.client 0), .work 0, .work 0, .stop (.client 1), .call (.client 1), .call (.client 1),
    .pass 30000000000, .call (.client 1), .endCycle 0 none, .work 0, .work 0, .endCycle 0 none,
    .work 0, .work 0, .start (.client 2) true, .call (.client 2), .call (.client 2),
    .call (.client 2)]

theorem oneWorker_after_lateEnd : ∃ s, Reachable {} s ∧ s.control.workers.length = 2 ∧
    s.control.joinable = some 1 ∧ s.OneWorker := by
  obtain ⟨s, hs, hc⟩ : ∃ s, Along step (fun _ => true = true) { control := { config := {} } } s ∧
      (s.control.workers.length, s.control.joinable) = (2, some 1) :=
    exists_along lateEnd rfl
  obtain ⟨hw, hj⟩ := Prod.mk.inj hc
  have hr : Reachable {} s := Reachable.init.along hs
  exact ⟨s, hr, hw, hj, oneWorker_of_reachable hr⟩

end ControlScene

end SerialWriter
