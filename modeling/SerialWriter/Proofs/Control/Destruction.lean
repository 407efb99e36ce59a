import SerialWriter.Proofs.Control.Orderly
import SerialWriter.Proofs.Run

/-!
The end of a destruction: with the lock in its hands it joins the worker, so that it gets through
exactly if the worker needs the lock no more.
-/

namespace SerialWriter

/-! ### What happens while the lock is held -/

/-- The moves of a worker that need no lock. -/
inductive WorkerStage.MovesAlone : WorkerStage → WorkerStage → Prop
  | looks (last : Bool) : MovesAlone .looking (.entering last)
  | enters (last : Bool) : MovesAlone (.entering last) (.cycling last)
  | ends (last : Bool) (e : Option Failure) : MovesAlone (.cycling last) (.afterCycle last e)
  | reports (e : Failure) (f : Option Failure) :
      MovesAlone (.reporting e) (f.elim .leaving fun _ => .aborted)
  | leaves : MovesAlone .leaving .finished

/-- The worker has yet to take the lock, or will never be gone. -/
def WorkerStage.blocks : WorkerStage → Bool
  | .reporting _ | .leaving | .finished => false
  | _ => true

lemma WorkerStage.MovesAlone.blocks {w w' : WorkerStage} (h : w.MovesAlone w')
    (hb : w.blocks = true) : w'.blocks = true := by
  cases h with
  | looks last => rfl
  | enters last => rfl
  | ends last e =>
    cases e with
    | some _ => rfl
    | none => cases last <;> rfl
  | reports e f => cases hb
  | leaves => cases hb

/-- What a thread without the lock can change while another thread holds it. -/
structure KeepsHeld (t : Thread) (c d : Control) : Prop where
  joinable : d.joinable = c.joinable
  call : d.calls.get? t = c.calls.get? t
  workers : d.workers = c.workers ∨ ∃ n w w', c.worker? n = some w ∧ w.present = true ∧
    w.MovesAlone w' ∧ d.workers = c.workers.set n w'

section

variable {c : Control} {t u : Thread}

lemma KeepsHeld.of_setCall {s : CallStage} (hu : u ≠ t) : KeepsHeld t c (c.setCall u s) :=
  ⟨rfl, Roster.get?_put_ne _ _ (Ne.symm hu), .inl rfl⟩

lemma KeepsHeld.of_setWorker {n : Nat} {w w' : WorkerStage} (hw : c.worker? n = some w)
    (hp : w.present = true) (hm : w.MovesAlone w') : KeepsHeld t c (c.setWorker n w') :=
  ⟨rfl, rfl, .inr ⟨n, w, w', hw, hp, hm, rfl⟩⟩

end

namespace Control

variable {c d : Control} {t u : Thread} {s : CallStage} {now : Time} {j j' : Journal}

/-- A call of another thread gets nowhere but beside the lock. -/
lemma keepsHeld_of_turn (ho : c.Orderly) (hk : c.holder = some t) (hu : u ≠ t)
    (hs : c.calls.get? u = some s) (h : CallTurn c u now j s d j') : KeepsHeld t c d := by
  have hfree : c.holder ≠ none := fun hn => by
    rw [hk] at hn
    cases hn
  have hholds : s.holds ≠ true := fun hh => by
    have := ho.guarded.held u s hs hh
    rw [hk, Option.some.injEq] at this
    exact hu this.symm
  cases h with
  | start h =>
    cases h with
    | refused hf _ => exact absurd hf hfree
    | admitted hf _ => exact absurd hf hfree
    | launched _ _ => exact absurd rfl hholds
    | launchFault _ _ => exact absurd rfl hholds
    | spawned _ => exact absurd rfl hholds
    | unmanned _ _ _ => exact absurd rfl hholds
    | concluded hf _ _ => exact absurd hf hfree
    | expired hf _ _ => exact absurd hf hfree
    | waits hf _ _ => exact absurd hf hfree
  | stop h =>
    cases h with
    | retired hf _ _ _ => exact absurd hf hfree
    | already hf _ => exact absurd hf hfree
    | buries hf _ => exact absurd hf hfree
    | halted hf _ _ => exact absurd hf hfree
    | haltFault hf _ _ => exact absurd hf hfree
    | halts hf _ => exact absurd hf hfree
    | buried _ => exact absurd rfl hholds
    | collects hf _ _ => exact absurd hf hfree
    | expired hf _ _ => exact absurd hf hfree
    | waits hf _ _ => exact absurd hf hfree
    | collected _ => exact absurd rfl hholds
  | destroy h =>
    cases h with
    | stops _ => exact .of_setCall hu
    | skips _ => exact .of_setCall hu
    | reported _ => exact .of_setCall hu
    | locks hf => exact absurd hf hfree
    | joined _ => exact absurd rfl hholds

lemma keepsHeld_of_workerTurn (hk : c.holder = some t) {n : Nat} {w : WorkerStage}
    (hw : c.worker? n = some w) (h : WorkerTurn c n j w d j') : KeepsHeld t c d := by
  have hfree : c.holder ≠ none := fun hn => by
    rw [hk] at hn
    cases hn
  cases h with
  | opens hf _ _ => exact absurd hf hfree
  | hurries hf _ => exact absurd hf hfree
  | looks => exact .of_setWorker hw rfl (.looks _)
  | enters => exact ⟨rfl, rfl, .inr ⟨n, _, _, hw, rfl, .enters _, rfl⟩⟩
  | retires hf _ => exact absurd hf hfree
  | fails hf _ => exact absurd hf hfree
  | @reports e f _ _ => exact .of_setWorker hw rfl (.reports e f)
  | leaves => exact .of_setWorker hw rfl .leaves

theorem Step.own_or_keepsHeld (ho : c.Orderly) (hk : c.holder = some t)
    (hc : c.calls.get? t = some s) (h : c.Step now j d j') :
    CallTurn c t now j s d j' ∨ (∃ closing, s = .stop closing .waking) ∨ KeepsHeld t c d := by
  have hs : s.holds = true := by
    obtain ⟨a, ha, hh⟩ := ho.guarded.keeper t hk
    rw [hc, Option.some.injEq] at ha
    exact ha ▸ hh
  cases h with
  | @begins u a hn _ _ =>
    have hu : u ≠ t := fun hu => by
      rw [hu, hc] at hn
      cases hn
    exact .inr (.inr (.of_setCall hu))
  | @calls u a d j' ha h =>
    by_cases hu : u = t
    · subst hu
      rw [hc, Option.some.injEq] at ha
      exact .inl (ha ▸ h)
    · exact .inr (.inr (keepsHeld_of_turn ho hk hu ha h))
  | @wakes u closing ha =>
    have := ho.guarded.held u _ ha rfl
    rw [hk, Option.some.injEq] at this
    rw [← this, hc, Option.some.injEq] at ha
    exact .inr (.inl ⟨closing, ha⟩)
  | @acknowledges u r ha =>
    have hu : u ≠ t := fun hu => by
      rw [hu, hc, Option.some.injEq] at ha
      rw [ha] at hs
      cases hs
    exact .inr (.inr ⟨rfl, Roster.get?_drop_ne _ (Ne.symm hu), .inl rfl⟩)
  | works hw h => exact .inr (.inr (keepsHeld_of_workerTurn hk hw h))
  | endsCycle e hw _ => exact .inr (.inr (.of_setWorker hw rfl (.ends _ e)))
  | @stirs u a ha =>
    refine .inr (.inr ⟨rfl, ?_, .inl rfl⟩)
    rw [setCall, Roster.get?_put]
    split
    · rename_i hu
      rw [← hu, hc, Option.some.injEq] at ha
      rw [← ha, hc]
      -- a stage that holds the lock is not a wait
      unfold CallStage.roused
      split
      · cases hs
      · cases hs
      · rfl
    · rfl

/-! ### Joining for good -/

/-- The thread waits for a worker that cannot go without the lock. -/
def Jammed (c : Control) (t : Thread) : Prop :=
  ∃ n w, c.joinable = some n ∧ t ≠ .worker n ∧ c.worker? n = some w ∧ w.blocks = true

/-- **A jam lasts**: no step of anyone lets the worker go or the destruction get through. -/
theorem Jammed.step (hj : c.Jammed t) (ho : c.Orderly)
    (hc : c.calls.get? t = some (.destroy .joining)) (h : c.Step now j d j') :
    d.Jammed t ∧ d.calls.get? t = some (.destroy .joining) := by
  obtain ⟨n, w, hn, ht, hw, hb⟩ := hj
  have hk : c.holder = some t := ho.guarded.held t _ hc rfl
  rcases h.own_or_keepsHeld ho hk hc with h | ⟨_, h⟩ | h
  · -- its own step would be the end of the join
    cases h with
    | destroy h =>
      cases h with
      | joined hd =>
        have hnone : c.join t = none :=
          join_eq_none_iff.mpr ⟨n, hn, ht, fun he => by
            rw [hw, Option.some.injEq] at he
            rw [he] at hb
            cases hb⟩
        rw [hnone] at hd
        cases hd
  · cases h
  · refine ⟨?_, h.call.trans hc⟩
    rcases h.workers with hs | ⟨k, v, v', hv, hp, hm, hs⟩
    · refine ⟨n, w, h.joinable.trans hn, ht, ?_, hb⟩
      rw [worker?, hs]
      exact hw
    · -- only the worker that has yet to be joined can move
      have hkn : k = n := by
        have := ho.staffed.lone k v hv hp
        rw [hn, Option.some.injEq] at this
        exact this.symm
      subst hkn
      rw [hw, Option.some.injEq] at hv
      subst hv
      exact ⟨k, v', h.joinable.trans hn, ht, worker?_set_self hs hw, hm.blocks hb⟩

/-- Where the phase expects a worker, or the worker has yet to report how it failed, it blocks. -/
lemma Orderly.blocks_iff (ho : c.Orderly) {n : Nat} {w : WorkerStage} (hn : c.joinable = some n)
    (hw : c.worker? n = some w) :
    w.blocks = true ↔ c.phase.active = true ∨ (∃ e, w = .failing e) ∨ w = .aborted := by
  have hf := ho.staffed.suited n w hn hw
  constructor
  · intro hb
    cases w with
    | created => exact .inl (by rcases hf with hf | hf <;> rw [hf] <;> rfl)
    | looking => exact .inl (by rcases hf with hf | hf <;> rw [hf] <;> rfl)
    | entering last =>
      cases last with
      | false => exact .inl (by rcases hf with hf | hf <;> rw [hf] <;> rfl)
      | true => exact .inl (by rw [show c.phase = .stopping from hf]; rfl)
    | cycling last =>
      cases last with
      | false => exact .inl (by rcases hf with hf | hf <;> rw [hf] <;> rfl)
      | true => exact .inl (by rw [show c.phase = .stopping from hf]; rfl)
    | retiring => exact .inl (by rw [show c.phase = .stopping from hf]; rfl)
    | failing e => exact .inr (.inl ⟨e, rfl⟩)
    | aborted => exact .inr (.inr rfl)
    | reporting e => cases hb
    | leaving => cases hb
    | finished => cases hb
  · rintro (hp | ⟨e, rfl⟩ | rfl)
    · cases w with
      | reporting e =>
        rw [show c.phase = .failed from hf] at hp
        cases hp
      | leaving => rcases hf with hf | hf <;> rw [hf] at hp <;> cases hp
      | finished => rcases hf with hf | hf <;> rw [hf] at hp <;> cases hp
      | _ => rfl
    · rfl
    · rfl

end Control

namespace ControlScene

variable {config : Config} {s u : ControlScene} {t : Thread}

lemma jammed_along (h : Reachable config s)
    (ht : s.control.calls.get? t = some (.destroy .joining)) (hj : s.control.Jammed t)
    (hu : Along step (fun _ => True) s u) :
    u.control.Jammed t ∧ u.control.calls.get? t = some (.destroy .joining) := by
  induction hu with
  | refl _ => exact ⟨hj, ht⟩
  | step m hu hs _ ih =>
    rcases step_cases hs with ⟨_, -, rfl⟩ | ⟨_, -, rfl⟩ | ⟨hstep, -⟩
    · exact ih
    · exact ih
    · exact ih.1.step (h.along hu).orderly ih.2 hstep

lemma step_joining (ht : s.control.calls.get? t = some (.destroy .joining)) {d : Control}
    (hd : s.control.join t = some d) :
    s.step (.call t) = some { s with control := d.finish t (.ok ()) } := by
  have hw : s.control.waking t = false := Control.waking_eq_false ht nofun
  have hc : s.control.stepCall t s.now s.journal = some (d.finish t (.ok ()), s.journal) := by
    unfold Control.stepCall
    rw [ht]
    change (s.control.join t).map _ = _
    rw [hd]
    rfl
  simp only [step, hw, hc]
  rfl

lemma ends_of_join (ht : s.control.calls.get? t = some (.destroy .joining))
    (hd : s.control.join t ≠ none) :
    ∃ u, Along step (fun _ => True) s u ∧ u.control.result? t = some (.ok ()) := by
  obtain ⟨d, hd⟩ := Option.ne_none_iff_exists'.mp hd
  refine ⟨_, .step _ (.refl trivial) (step_joining ht hd) trivial, ?_⟩
  exact Control.result?_eq_some_iff.mpr (Roster.get?_put_self ..)

lemma step_reporting {n : Nat} {e : Failure} (hw : s.control.worker? n = some (.reporting e))
    (hj : s.journal.armed = none) : ∃ j, s.step (.work n) =
      some { s with control := s.control.setWorker n .leaving, journal := j } := by
  have hl := (Journal.log_of_unarmed hj (.worker n)
    (.workerFailed s.control.config.name e.describe)).1
  refine ⟨(s.journal.log (.worker n) (.workerFailed s.control.config.name e.describe)).2, ?_⟩
  simp only [step, Control.stepWorker, hw]
  split
  · rename_i hlog
    rw [hlog]
    rfl
  · rename_i hlog
    rw [hlog] at hl
    cases hl

lemma step_leaving {n : Nat} (hw : s.control.worker? n = some .leaving) :
    s.step (.work n) = some { s with control := s.control.setWorker n .finished } := by
  simp only [step, Control.stepWorker, hw]
  rfl

lemma ends_of_leaving {n : Nat} (ht : s.control.calls.get? t = some (.destroy .joining))
    (hn : s.control.joinable = some n) (hw : s.control.worker? n = some .leaving) :
    ∃ u, Along step (fun _ => True) s u ∧ u.control.result? t = some (.ok ()) := by
  have hgone : (s.control.setWorker n .finished).join t ≠ none := fun hj => by
    obtain ⟨k, hk, -, hne⟩ := Control.join_eq_none_iff.mp hj
    rw [show (s.control.setWorker n .finished).joinable = some n from hn, Option.some.injEq] at hk
    exact hne (hk ▸ Control.worker?_set_self rfl hw)
  obtain ⟨u, hu, hr⟩ := ends_of_join
    (s := { s with control := s.control.setWorker n .finished }) ht hgone
  exact ⟨u, (Along.step _ (.refl trivial) (step_leaving hw) trivial).trans hu, hr⟩

lemma ends_of_not_jammed (h : Reachable config s)
    (ht : s.control.calls.get? t = some (.destroy .joining)) (hj : s.journal.armed = none)
    (hn : ¬ s.control.Jammed t) :
    ∃ u, Along step (fun _ => True) s u ∧ u.control.result? t = some (.ok ()) := by
  by_cases hjoin : s.control.join t = none
  · obtain ⟨n, hjn, htn, hne⟩ := Control.join_eq_none_iff.mp hjoin
    obtain ⟨w, hw⟩ : ∃ w, s.control.worker? n = some w :=
      ⟨_, List.getElem?_eq_getElem (h.orderly.staffed.known n hjn)⟩
    have hb : w.blocks = false :=
      Bool.eq_false_iff.mpr fun hb => hn ⟨n, w, hjn, htn, hw, hb⟩
    cases w with
    | reporting e =>
      obtain ⟨j, hs⟩ := step_reporting hw hj
      obtain ⟨u, hu, hr⟩ := ends_of_leaving
        (s := { s with control := s.control.setWorker n .leaving, journal := j }) ht hjn
        (Control.worker?_set_self rfl hw)
      exact ⟨u, (Along.step _ (.refl trivial) hs trivial).trans hu, hr⟩
    | leaving => exact ends_of_leaving ht hjn hw
    | finished => exact absurd hw hne
    | created => cases hb
    | looking => cases hb
    | entering last => cases hb
    | cycling last => cases hb
    | retiring => cases hb
    | failing e => cases hb
    | aborted => cases hb
  · exact ends_of_join ht hjoin

/-- **When a destruction gets through.** It joins the worker with the lock in its hands; so it can
end exactly if the worker needs the lock no more, and otherwise neither of them ever moves on,
whatever becomes of the worker's cycle. The worker needs the lock as long as the phase is one that
expects a worker, and until it has reported what it failed with. -/
theorem destruction_ends_iff (h : Reachable config s)
    (ht : s.control.calls.get? t = some (.destroy .joining)) (hj : s.journal.armed = none) :
    s.control.holder = some t ∧
    ((∃ u, Along step (fun _ => True) s u ∧ u.control.result? t = some (.ok ())) ↔
      ¬ s.control.Jammed t) ∧
    (s.control.Jammed t → ∀ u, Along step (fun _ => True) s u →
      u.control.holder = some t ∧ u.control.Jammed t ∧
        u.control.calls.get? t = some (.destroy .joining)) ∧
    (s.control.Jammed t ↔ ∃ n w, s.control.joinable = some n ∧ t ≠ .worker n ∧
      s.control.worker? n = some w ∧
        (s.control.phase.active = true ∨ (∃ e, w = .failing e) ∨ w = .aborted)) := by
  refine ⟨h.orderly.guarded.held t _ ht rfl, ⟨?_, ends_of_not_jammed h ht hj⟩,
    fun hjam u hu => ?_, ?_⟩
  · rintro ⟨u, hu, hr⟩ hjam
    have hc := (jammed_along h ht hjam hu).2
    rw [Control.result?_eq_some_iff, hc] at hr
    cases hr
  · obtain ⟨hju, hc⟩ := jammed_along h ht hjam hu
    exact ⟨(h.along hu).orderly.guarded.held t _ hc rfl, hju, hc⟩
  · constructor
    · rintro ⟨n, w, hn, htn, hw, hb⟩
      exact ⟨n, w, hn, htn, hw, (h.orderly.blocks_iff hn hw).mp hb⟩
    · rintro ⟨n, w, hn, htn, hw, hb⟩
      exact ⟨n, w, hn, htn, hw, (h.orderly.blocks_iff hn hw).mpr hb⟩

/-- A start and a destruction whose stop gives up on the worker's cycle. -/
def hangingDestruction : List Move :=
  [.start (.client 0) true, .call (.client 0), .call (.client 0), .call (.client 0), .work 0,
    .call (.client 0), .acknowledge (.client 0), .work 0, .work 0, .destroy (.client 0),
    .call (.client 0), .call (.client 0), .call (.client 0), .pass 30000000000, .call (.client 0),
    .call (.client 0), .call (.client 0)]

/-- At the end of that run the cycle can still return, and the worker then needs the lock. -/
lemma exists_hanging : ∃ s, Reachable {} s ∧
    s.control.calls.get? (.client 0) = some (.destroy .joining) ∧ s.control.Jammed (.client 0) ∧
      s.control.worker? 0 = some (.cycling false) ∧ s.journal.armed = none ∧
        ∃ u, Along step (fun _ => True) s u ∧ u.control.worker? 0 = some .retiring := by
  obtain ⟨s, hs, hc⟩ : ∃ s, Along step (fun _ => true = true) { control := { config := {} } } s ∧
      (s.control.calls.get? (.client 0), s.control.joinable, s.control.worker? 0,
        s.journal.armed,
        (follow step (fun _ => true) s [.endCycle 0 none, .work 0, .work 0, .endCycle 0 none]).map
          fun u => u.control.worker? 0) =
        (some (.destroy .joining), some 0, some (.cycling false), none, some (some .retiring)) :=
    exists_along hangingDestruction rfl
  simp only [Prod.mk.injEq] at hc
  obtain ⟨ht, hj, hw, ha, hmore⟩ := hc
  obtain ⟨u, hu, hwu⟩ := exists_along _ hmore
  have hjam : s.control.Jammed (.client 0) := ⟨0, _, hj, by simp, hw, rfl⟩
  exact ⟨s, Reachable.init.along hs, ht, hjam, hw, ha, u, hu.mono fun _ _ => trivial, hwu⟩

/-- **A destruction can be a deadlock.** Its stop has given up on a cycle that goes on; the
destruction holds the lock and joins; when the cycle has returned, the worker cannot end, and the
destruction never does. -/
theorem destruction_deadlock : ∃ s t n, Reachable {} s ∧
    s.control.calls.get? t = some (.destroy .joining) ∧ s.control.holder = some t ∧
      s.control.worker? n = some (.cycling false) ∧
        (∃ u, Along step (fun _ => True) s u ∧ u.control.worker? n = some .retiring) ∧
          ∀ u, Along step (fun _ => True) s u →
            u.control.calls.get? t = some (.destroy .joining) := by
  obtain ⟨s, h, ht, hjam, hw, -, hret⟩ := exists_hanging
  exact ⟨s, .client 0, 0, h, ht, h.orderly.guarded.held _ _ ht rfl, hw, hret,
    fun u hu => (jammed_along h ht hjam hu).2⟩

theorem destruction_ends_iff_hanging : ∃ s, Reachable {} s ∧
    s.control.calls.get? (.client 0) = some (.destroy .joining) ∧
      ¬ ∃ u, Along step (fun _ => True) s u ∧ u.control.result? (.client 0) = some (.ok ()) := by
  obtain ⟨s, h, ht, hjam, -, ha, -⟩ := exists_hanging
  exact ⟨s, h, ht, fun hu => (destruction_ends_iff h ht ha).2.1.mp hu hjam⟩

end ControlScene

end SerialWriter
