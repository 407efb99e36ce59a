import SerialWriter.Proofs.Control.Destruction
import SerialWriter.Proofs.Control.Phases

/-!
The joins of starts and stops. Whoever joins holds the lock, and the worker that is joined has made
known how it ended and uses the lock no more; so no start and no stop waits for a worker that waits
for the lock.
-/

namespace SerialWriter

/-- The stages at which a start or a stop joins the worker. -/
def CallStage.joins : CallStage → Bool
  | .start _ .launching | .stop _ .burying | .stop _ .collecting => true
  | _ => false

lemma CallStage.holds_of_joins {a : CallStage} (h : a.joins = true) : a.holds = true := by
  unfold joins at h
  split at h
  all_goals first | rfl | cases h

/-- The stages at which a worker is about to take the lock. -/
def WorkerStage.locks : WorkerStage → Bool
  | .created | .retiring | .failing _ => true
  | _ => false

lemma WorkerStage.locks_of_settled {w : WorkerStage} (h : w.settled = true) : w.locks = false := by
  cases w <;> first | rfl | cases h

lemma WorkerStage.Goes.settled {n : Nat} {idle : Int} {quiet : Prop} {w w' : WorkerStage}
    {p q : Phase} {ev : Option ControlScene.Event} (h : w.Goes n idle quiet p ev w' q)
    (hq : quiet) (hw : w.settled = true) : w'.settled = true := by
  cases h with
  | reports hf =>
    obtain rfl := hf hq
    rfl
  | leaves _ => rfl
  | opens _ | hurries | looks _ | enters _ _ | exits _ _ _ | retires _ | fails _ _ => cases hw

namespace ControlScene

/-! ### The use of the lock -/

/-- The same scene with the lock in these hands. -/
def withHolder (s : ControlScene) (h : Option Thread) : ControlScene :=
  { s with control := { s.control with holder := h } }

/-- **The thread of worker `n` is about to use the lock**: with what it does next, by itself or in a
call made by a task, it can go on if nobody holds the lock, and only then. -/
def UsesLock (s : ControlScene) (n : Nat) : Prop :=
  ∃ m, (m = .work n ∨ m = .call (.worker n)) ∧ ((s.withHolder none).step m).isSome = true ∧
    ∀ t, (s.withHolder (some t)).step m = none

section Lock

variable {s : ControlScene} {n : Nat} {w : WorkerStage}

lemma step_call_of_idle {t : Thread} (h : s.control.calls.get? t = none) :
    s.step (.call t) = none := by
  simp only [step, Control.waking, Control.stepCall, h, Bool.false_eq_true, if_false,
    Option.map_none]

lemma usesLock_iff (hw : s.control.worker? n = some w)
    (hc : s.control.calls.get? (.worker n) = none) : s.UsesLock n ↔ w.locks = true := by
  have hstep : ∀ h, (s.withHolder h).step (.work n) =
      (({ s.control with holder := h } : Control).stepWorker n s.journal).map
        fun r => { s with control := r.1, journal := r.2 } := fun _ => rfl
  have hworker : ∀ h, ({ s.control with holder := h } : Control).worker? n = some w := fun _ => hw
  constructor
  · -- a stage without use for the lock moves with the lock in other hands, or not at all
    rintro ⟨m, rfl | rfl, hfree, hheld⟩
    · have hnone := hheld (.client 0)
      rw [hstep, Option.map_eq_none_iff] at hnone
      rw [hstep, Option.isSome_map] at hfree
      cases w with
      | created | retiring | failing _ => rfl
      | looking | entering _ | leaving =>
        simp only [Control.stepWorker, hworker] at hnone
        cases hnone
      | reporting e =>
        simp only [Control.stepWorker, hworker] at hnone
        split at hnone <;> cases hnone
      | cycling _ | finished | aborted =>
        simp only [Control.stepWorker, hworker] at hfree
        cases hfree
    · rw [step_call_of_idle (s := s.withHolder none) hc] at hfree
      cases hfree
  · intro hl
    refine ⟨.work n, .inl rfl, ?_, fun t => ?_⟩
    · rw [hstep, Option.isSome_map]
      cases w with
      | created =>
        simp only [Control.stepWorker, hworker, Control.free, Option.isNone_none, if_true]
        split
        · split <;> rfl
        · rfl
      | retiring | failing _ =>
        simp only [Control.stepWorker, hworker, Control.free, Option.isNone_none, if_true]
        split <;> rfl
      | looking | entering _ | cycling _ | reporting _ | leaving | finished | aborted => cases hl
    · rw [hstep, Option.map_eq_none_iff]
      cases w with
      | created | retiring | failing _ =>
        simp only [Control.stepWorker, hworker, Control.free, Option.isNone_some,
          Bool.false_eq_true, if_false]
      | looking | entering _ | cycling _ | reporting _ | leaving | finished | aborted => cases hl

lemma not_usesLock (ho : s.control.Orderly) (hw : s.control.worker? n = some w)
    (hset : w.settled = true) : ¬ s.UsesLock n := by
  have hcycle : ∀ last, w ≠ .cycling last := by
    rintro last rfl
    cases hset
  rw [usesLock_iff hw (ho.idle_of_not_cycling hw hcycle), WorkerStage.locks_of_settled hset]
  exact Bool.false_ne_true

end Lock

/-! ### The moment of a join -/

section Join

variable {config : Config} {s u : ControlScene} {t : Thread} {a : CallStage} {n : Nat}
  {w : WorkerStage} {es : List Event}

lemma isSome_of_join (ha : s.control.calls.get? t = some a) (hj : a.joins = true)
    (hd : s.control.join t ≠ none) : (s.step (.call t)).isSome = true := by
  obtain ⟨d, hd⟩ := Option.ne_none_iff_exists'.mp hd
  have hwaking : s.control.waking t = false :=
    Control.waking_eq_false ha (by rintro closing rfl; cases hj)
  simp only [step, hwaking, Bool.false_eq_true, if_false, Option.isSome_map]
  unfold CallStage.joins at hj
  split at hj
  · simp only [Control.stepCall, ha, Control.stepStart, hd, Option.isSome_map, Option.isSome_some]
  · simp only [Control.stepCall, ha, Control.stepStop, hd, Option.isSome_map, Option.isSome_some]
  · simp only [Control.stepCall, ha, Control.stepStop, hd, Option.isSome_map, Option.isSome_some]
  · cases hj

lemma join_eq_none_of_stuck (ho : s.control.Orderly) (hh : s.control.holder = some t)
    (hd : s.control.calls.get? t ≠ some (.destroy .joining)) (hs : s.step (.call t) = none) :
    ∃ a, s.control.calls.get? t = some a ∧ a.joins = true ∧ s.control.join t = none := by
  obtain ⟨a, ha, hheld⟩ := ho.guarded.keeper t hh
  -- at any other stage that holds the lock the call goes on
  have hnext : s.control.waking t = false → s.control.stepCall t s.now s.journal = none := by
    intro hw
    rw [step, hw] at hs
    exact Option.map_eq_none_iff.mp hs
  have hjoins : a.joins = true → ∃ a, s.control.calls.get? t = some a ∧ a.joins = true ∧
      s.control.join t = none := by
    intro hj
    cases hd : s.control.join t with
    | none => exact ⟨a, ha, hj, rfl⟩
    | some d =>
      have hsome := isSome_of_join ha hj (hd ▸ Option.some_ne_none d)
      rw [hs] at hsome
      cases hsome
  cases a with
  | start spawns st =>
    cases st with
    | entering | waiting _ _ => cases hheld
    | launching => exact hjoins rfl
    | spawning =>
      have hstep := hnext (by simp only [Control.waking, ha])
      simp only [Control.stepCall, ha, Control.stepStart] at hstep
      split at hstep
      · cases hstep
      · split at hstep <;> cases hstep
  | stop closing st =>
    cases st with
    | entering | waiting _ _ => cases hheld
    | burying | collecting => exact hjoins rfl
    | waking =>
      rw [step, Control.waking_iff.mpr ⟨closing, ha⟩] at hs
      cases hs
  | destroy st =>
    cases st with
    | looking | reporting _ | locking => cases hheld
    | joining => exact (hd ha).elim
  | ended _ => cases hheld

/-- No worker joins: a task makes its calls while the phase is running or stopping. -/
lemma ne_worker_of_joins (ho : s.control.Orderly) (ha : s.control.calls.get? t = some a)
    (hj : a.joins = true) (k : Nat) : t ≠ .worker k := by
  rintro rfl
  have hp := ho.phase_of_caller ha
  have hfit := ho.guarded.suited _ _ ha
  unfold CallStage.joins at hj
  split at hj
  · rcases hp with hp | hp <;> rw [hp] at hfit <;> rcases hfit with h | h <;> cases h
  · rcases hp with hp | hp <;> rw [hp] at hfit <;> cases hfit
  · rcases hp with hp | hp <;> rw [hp] at hfit <;> rcases hfit with h | h <;> cases h
  · cases hj

/-- Without faults of the log, a worker that is joined has made known how it ended. -/
lemma settled_of_joins (h : QuietRun (fresh config) es s) (ha : s.control.calls.get? t = some a)
    (hj : a.joins = true) (hn : s.control.joinable = some n)
    (hw : s.control.worker? n = some w) : w.settled = true := by
  have ho := (h.reachable .init).orderly
  have hfit := ho.staffed.suited n w hn hw
  have hphase : s.control.phase.active = false := by
    have hcall := ho.guarded.suited _ _ ha
    unfold CallStage.joins at hj
    split at hj
    · rcases hcall with hp | hp <;> rw [hp] <;> rfl
    · rw [show s.control.phase = .failed from hcall]
      rfl
    · rcases hcall with hp | hp <;> rw [hp] <;> rfl
    · cases hj
  have hsf := (soFar_of_run h n).2 w hw
  have hactive : ¬ (s.control.phase = .starting ∨ s.control.phase = .stopping) ∧
      ¬ (s.control.phase = .running ∨ s.control.phase = .stopping) := by
    constructor <;> rintro (hp | hp) <;> rw [hp] at hphase <;> cases hphase
  cases w with
  | reporting _ | leaving | finished => rfl
  | created => exact (hactive.1 hfit).elim
  | looking => exact (hactive.2 hfit).elim
  | entering last | cycling last =>
    cases last with
    | false => exact (hactive.2 hfit).elim
    | true => exact (hactive.2 (.inr hfit)).elim
  | retiring => exact (hactive.2 (.inr hfit)).elim
  | failing e => exact (hactive.2 hsf.phase_of_failing).elim
  | aborted => cases hsf with | past hset _ => exact hset

lemma Life.last {idle : Int} {l : List Event} (h : Life n idle l) :
    ∃ l' p q, l = l' ++ [.reached n p q] ∧ (q = .terminated ∨ q = .failed) := by
  cases h with
  | served ran k _ =>
    exact ⟨_ ++ [.entered n true 0, .left n none], _, _,
      (List.append_assoc _ [_, _] [_]).symm, .inl rfl⟩
  | broken e _ _ _ =>
    exact ⟨_ ++ [.entered n _ _, .left n (some e)], _, _,
      (List.append_assoc _ [_, _] [_]).symm, .inr rfl⟩

lemma not_usesLock_along (hr : Reachable config s) (hw : s.control.worker? n = some w)
    (hset : w.settled = true) (hu : QuietRun s es u) : ¬ u.UsesLock n := by
  obtain ⟨v, hv, hvset⟩ := hu.keeps (I := fun v _ _ => v.settled = true) hr hw hset
    fun _ _ _ _ _ _ hi hm => by
      cases hm with
      | goes hq hg => exact hg.settled hq hi
      | halted _ | rests _ _ => exact hi
      | gone _ => rfl
  exact not_usesLock (QuietRun.reachable hu hr).orderly hv hvset

/-- The worker that is joined is gone after two more steps of its own, and the join is made. -/
lemma joined_of_settled (hq : s.Quiet) (ha : s.control.calls.get? t = some a)
    (hj : a.joins = true) (hn : s.control.joinable = some n)
    (hw : s.control.worker? n = some w) (hset : w.settled = true) :
    ∃ k ≤ 2, ∃ u, follow step (fun _ => true) s (List.replicate k (.work n)) = some u ∧
      (u.step (.call t)).isSome = true := by
  -- the worker that is gone lets the join through
  have hgone : ∀ v : ControlScene, v.control.calls.get? t = some a →
      v.control.joinable = some n → v.control.worker? n = some .finished →
        (v.step (.call t)).isSome = true := fun v hva hvn hvw =>
    isSome_of_join hva hj fun hd => by
      obtain ⟨k, hk, -, hne⟩ := Control.join_eq_none_iff.mp hd
      rw [hvn, Option.some.injEq] at hk
      exact hne (hk ▸ hvw)
  have hleaves : ∀ v : ControlScene, v.control.calls.get? t = some a →
      v.control.joinable = some n → v.control.worker? n = some .leaving →
        ∃ u, v.step (.work n) = some u ∧ (u.step (.call t)).isSome = true :=
    fun v hva hvn hvw => ⟨_, step_leaving hvw, hgone _ hva hvn (Control.worker?_set_self rfl hvw)⟩
  cases w with
  | finished => exact ⟨0, by decide, s, rfl, hgone s ha hn hw⟩
  | leaving =>
    obtain ⟨u, hu, hut⟩ := hleaves s ha hn hw
    refine ⟨1, by decide, u, ?_, hut⟩
    simp only [List.replicate, follow, if_true, hu, Option.bind_some]
  | reporting e =>
    obtain ⟨j, hv⟩ := step_reporting hw hq
    obtain ⟨u, hu, hut⟩ := hleaves
      { s with control := s.control.setWorker n .leaving, journal := j }
      ha hn (Control.worker?_set_self rfl hw)
    refine ⟨2, Nat.le_refl 2, u, ?_, hut⟩
    simp only [List.replicate, follow, if_true, hv, hu, Option.bind_some]
  | created | looking | entering _ | cycling _ | retiring | failing _ | aborted => cases hset

/-- **Worker `n` has parted from the lock** when `t` joins it, at the end of a run. -/
structure Parted (es : List Event) (s : ControlScene) (t : Thread) (n : Nat) : Prop where
  /-- The last thing it did was to enter the terminated or the failed phase. -/
  told : ∃ l p q, eventsOf n es = l ++ [.reached n p q] ∧ (q = .terminated ∨ q = .failed)
  /-- However the run goes on, it does not use the lock again. -/
  spent : ∀ es' u, QuietRun s es' u → ¬ u.UsesLock n
  /-- After two more steps of its own at most the join is made. -/
  ends : ∃ k ≤ 2, ∃ u, follow step (fun _ => true) s (List.replicate k (.work n)) = some u ∧
    (u.step (.call t)).isSome = true

/-- **The joins of starts and stops** at the end of a run. -/
structure JoinsParted (es : List Event) (s : ControlScene) : Prop where
  /-- Who joins holds the lock, and is no worker. -/
  joins : ∀ t a, s.control.calls.get? t = some a → a.joins = true →
    s.control.holder = some t ∧ ∀ k, t ≠ .worker k
  /-- Who holds the lock and cannot go on waits for a worker to be gone, unless in a destruction. -/
  waits : ∀ t, s.control.holder = some t →
    s.control.calls.get? t ≠ some (.destroy .joining) → s.step (.call t) = none →
      ∃ a n, s.control.calls.get? t = some a ∧ a.joins = true ∧ s.control.joinable = some n ∧
        s.control.worker? n ≠ some .finished
  /-- The worker that is joined has parted from the lock. -/
  parted : ∀ t a n, s.control.calls.get? t = some a → a.joins = true →
    s.control.joinable = some n → Parted es s t n

/-- **No start and no stop waits for a worker that waits for the lock**, whatever calls are made by
clients or by tasks, and whatever becomes of the cycles. -/
theorem joinsParted_of_run (h : QuietRun (fresh config) es s) : JoinsParted es s := by
  have hr : Reachable config s := h.reachable .init
  have ho := hr.orderly
  refine ⟨fun t a ha hj => ⟨ho.guarded.held t a ha (CallStage.holds_of_joins hj),
    ne_worker_of_joins ho ha hj⟩, fun t hh hd hs => ?_, fun t a n ha hj hn => ?_⟩
  · obtain ⟨a, ha, hj, hjoin⟩ := join_eq_none_of_stuck ho hh hd hs
    obtain ⟨n, hn, -, hw⟩ := Control.join_eq_none_iff.mp hjoin
    exact ⟨a, n, ha, hj, hn, hw⟩
  · obtain ⟨w, hw⟩ : ∃ w, s.control.worker? n = some w :=
      ⟨_, List.getElem?_eq_getElem (ho.staffed.known n hn)⟩
    have hset := settled_of_joins h ha hj hn hw
    exact ⟨(((soFar_of_run h n).2 w hw).life_of_settled hset).last,
      fun _ _ hu => not_usesLock_along hr hw hset hu,
      joined_of_settled h.along.holds ha hj hn hw hset⟩

/-- A start, a cycle broken while a stop waits, and that stop about to join the worker that is
about to report how it failed. -/
def joinedInTime : List Move :=
  [.start (.client 0) true, .call (.client 0), .call (.client 0), .call (.client 0), .work 0,
    .work 0, .work 0, .stop (.client 1), .call (.client 1), .call (.client 1),
    .endCycle 0 (some (.number 3)), .work 0, .call (.client 1)]

theorem joinsParted_of_joinedInTime : ∃ es s, QuietRun (fresh {}) es s ∧
    s.control.calls.get? (.client 1) = some (.stop false .collecting) ∧
      s.control.joinable = some 0 ∧ s.control.worker? 0 = some (.reporting (.number 3)) ∧
        s.control.holder = some (.client 1) ∧ (s.step (.call (.client 1))).isSome = false ∧
          JoinsParted es s := by
  obtain ⟨es, s, h, hf⟩ : ∃ es s, QuietRun (fresh {}) es s ∧
      (s.control.calls.get? (.client 1), s.control.joinable, s.control.worker? 0,
        s.control.holder, (s.step (.call (.client 1))).isSome) =
      (some (.stop false .collecting), some 0, some (.reporting (.number 3)),
        some (.client 1), false) := exists_quietRun joinedInTime rfl
  simp only [Prod.mk.injEq] at hf
  obtain ⟨ha, hj, hw, hh, hs⟩ := hf
  exact ⟨es, s, h, ha, hj, hw, hh, hs, joinsParted_of_run h⟩

end Join

end ControlScene

end SerialWriter
