import SerialWriter.Proofs.Control.Advance
import SerialWriter.Proofs.Writer.Calls
import SerialWriter.Proofs.Writer.Serial
import SerialWriter.Proofs.Writer.Turns

/-!
A stop is heard by an idle worker. The phase is stored before the flag is raised, and a worker reads
the phase before it takes: so a worker that may yet wait finds the flag up, and a take that lowers
the flag is the last that was allowed to wait.
-/

namespace SerialWriter

variable {σ V : Type}

/-! ### Who may wait -/

/-- The next take, or the present one, is allowed to wait. -/
def WorkerStage.mayWait : WorkerStage → Bool
  | .entering false | .cycling false => true
  | _ => false

lemma WorkerStage.present_of_mayWait {s : WorkerStage} (h : s.mayWait = true) :
    s.present = true := by
  cases s with
  | finished => cases h
  | _ => rfl

lemma WorkerStage.mayWait_afterCycle (last : Bool) (e : Option Failure) :
    (afterCycle last e).mayWait = false := by
  cases e with
  | some _ => rfl
  | none => cases last <;> rfl

/-- Once the writer is told to stop, no worker decides to wait. -/
lemma WorkerStage.Goes.mayWait {n : Nat} {idle : Int} {quiet : Prop} {s s' : WorkerStage}
    {p q : Phase} {ev : Option ControlScene.Event} (h : s.Goes n idle quiet p ev s' q)
    (hp : p ≠ .running) (hs : s'.mayWait = true) : s.mayWait = true := by
  cases h with
  | looks _ =>
    rw [decide_eq_true hp] at hs
    cases hs
  | @enters _ last _ _ =>
    cases last with
    | true => cases hs
    | false => rfl
  | exits e _ _ =>
    rw [mayWait_afterCycle] at hs
    cases hs
  | @opens f _ | @retires f _ | @fails _ _ f _ _ | @reports _ f _ => cases f <;> cases hs
  | hurries | leaves _ => cases hs

lemma Control.cycles_of_entering {c d : Control} {n : Nat} {j j' : Journal} {last : Bool}
    (h : WorkerTurn c n j (.entering last) d j') :
    d.cycles = (n, if last then 0 else c.config.idleDelay) :: c.cycles := by
  cases h
  rfl

namespace Writer

variable {w v u x y : Writer σ V} {s t : Thread} {n m k : Nat} {last b : Bool} {d : Time}

/-- Worker `n` may yet begin a take that is allowed to wait, or is in the middle of one. -/
def MayWait (w : Writer σ V) (n : Nat) : Prop :=
  ∃ s, w.control.worker? n = some s ∧ s.mayWait = true ∧ w.cycles.get? (.worker n) = none

lemma MayWait.eq_of_cycling (h : w.MayWait n) (hl : w.course.Linked)
    (hm : w.control.worker? m = some (.cycling last)) : n = m := by
  obtain ⟨s, hs, hs', -⟩ := h
  exact hl.orderly.staffed.eq_of_present hs (WorkerStage.present_of_mayWait hs') hm rfl

lemma mayWait_of_spared (hk : w.control.SparesWorkers v.control) (hy : v.cycles = w.cycles)
    (h : v.MayWait n) : w.MayWait n := by
  obtain ⟨s, hs, hs', hn⟩ := h
  refine ⟨s, ?_, hs', hy ▸ hn⟩
  rcases hk.workers with hw | hw
  · rwa [Control.worker?, hw] at hs
  · rw [Control.worker?, hw, List.getElem?_append] at hs
    split at hs
    · exact hs
    · rw [List.getElem?_singleton, Option.ite_none_right_eq_some, Option.some.injEq] at hs
      rw [← hs.2] at hs'
      cases hs'

lemma mayWait_of_other {s' : WorkerStage} (hm : n ≠ m)
    (hk : v.control.workers = w.control.workers.set m s')
    (hy : v.cycles.get? (.worker n) = w.cycles.get? (.worker n)) (h : v.MayWait n) :
    w.MayWait n := by
  obtain ⟨s, hs, hs', hn⟩ := h
  exact ⟨s, (Control.worker?_set_ne hk (Ne.symm hm)).symm.trans hs, hs', hy ▸ hn⟩

lemma not_mayWait_of_afterCycle {e : Option Failure}
    (hw : w.control.worker? n = some (.cycling last))
    (hk : v.control.workers = w.control.workers.set n (.afterCycle last e)) : ¬ v.MayWait n := by
  rintro ⟨s, hs, hs', -⟩
  rw [Control.worker?_set_self hk hw, Option.some.injEq] at hs
  rw [← hs, WorkerStage.mayWait_afterCycle] at hs'
  cases hs'

/-- What is left of a take that has ended. -/
structure Took (n : Nat) (last : Bool) (w v : Writer σ V) : Prop where
  others : ∀ t, t ≠ .worker n → v.cycles.get? t = w.cycles.get? t
  cycles : v.control.cycles = w.control.cycles
  done : (v.control = w.control ∧ ∃ k, v.cycles.get? (.worker n) = some (.dequeued k)) ∨
    v.control = w.control.setWorker n (.afterCycle last none)

lemma took_of_pop {q : SharedQueue Nat} {r : Option Nat}
    (hw : w.control.worker? n = some (.cycling last))
    (hv : v = ({ w with queue := q } : Writer σ V).tookTicket n r) :
    Took n last w v ∧ v.queue = q := by
  subst hv
  cases r with
  | none =>
    have hc : (({ w with queue := q } : Writer σ V).tookTicket n none).control =
        w.control.setWorker n (.afterCycle last none) := Control.endCycle_eq hw none
    exact ⟨⟨fun _ ht => Roster.get?_drop_ne _ ht, by rw [hc]; rfl, .inr hc⟩, rfl⟩
  | some k =>
    exact ⟨⟨fun _ ht => Roster.get?_put_ne _ _ ht, rfl, .inl ⟨rfl, k, Roster.get?_put_self ..⟩⟩,
      rfl⟩

lemma Took.not_mayWait (h : Took n last w v) (hw : w.control.worker? n = some (.cycling last)) :
    ¬ v.MayWait n := by
  rcases h.done with ⟨-, k, hk⟩ | hc
  · rintro ⟨s, -, -, hn⟩
    rw [hk] at hn
    cases hn
  · exact not_mayWait_of_afterCycle hw (congrArg Control.workers hc)

lemma Took.mayWait_of_other (h : Took n last w v) (hm : m ≠ n) (hv : v.MayWait m) :
    w.MayWait m := by
  rcases h.done with ⟨hc, -⟩ | hc
  · obtain ⟨s, hs, hs', hy⟩ := hv
    exact ⟨s, hc ▸ hs, hs', (h.others _ fun hmn => hm (Thread.worker.inj hmn)) ▸ hy⟩
  · exact Writer.mayWait_of_other hm (congrArg Control.workers hc)
      (h.others _ fun hmn => hm (Thread.worker.inj hmn)) hv

/-- **Once the writer is told to stop, who may not wait stays so.** -/
lemma Goes.mayWait (h : Goes t w v) (hl : w.course.Linked) (hp : w.phase ≠ .running)
    (hn : v.MayWait n) : w.MayWait n := by
  cases h with
  | calls _ hy hk _ => exact mayWait_of_spared hk hy hn
  | @works m s ht _ hs hturn hy _ =>
    obtain ⟨ev, hworks, -⟩ := hl.orderly.works hs hturn
    obtain ⟨s₁, s₂, hs₁, hset, -, hgoes⟩ := hworks.goes
    by_cases hnm : n = m
    · subst hnm
      obtain ⟨s₃, hs₃, hmay, hnone⟩ := hn
      rw [Control.worker?_set_self hset hs₁, Option.some.injEq] at hs₃
      exact ⟨s₁, hs₁, hgoes.mayWait hp (hs₃ ▸ hmay), hy ▸ hnone⟩
    · exact mayWait_of_other hnm hset (hy ▸ rfl) hn
  | @takes m last ht _ hw _ hv =>
    have htook := (took_of_pop hw hv).1
    by_cases hnm : n = m
    · exact absurd (hnm ▸ hn) (htook.not_mayWait hw)
    · exact htook.mayWait_of_other hnm hn
  | waits _ _ _ _ _ _ hv =>
    rw [hv] at hn
    exact hn
  | @cycles m last y ht _ hw hy ho _ hk _ =>
    subst ht
    have hother : n ≠ m → v.cycles.get? (.worker n) = w.cycles.get? (.worker n) := fun hnm =>
      ho _ fun he => hnm (Thread.worker.inj he)
    rcases hk with ⟨hk, y', hy'⟩ | ⟨e, -, hk⟩
    · by_cases hnm : n = m
      · obtain ⟨-, -, -, hnone⟩ := hn
        rw [hnm, hy'] at hnone
        cases hnone
      · obtain ⟨s, hs, hs', hnone⟩ := hn
        exact ⟨s, (congrArg (·[n]?) hk).symm.trans hs, hs', hother hnm ▸ hnone⟩
    · by_cases hnm : n = m
      · exact absurd (hnm ▸ hn) (not_mayWait_of_afterCycle hw hk)
      · exact mayWait_of_other hnm hk (hother hnm) hn

/-! ### The flag -/

/-- Whoever may yet wait finds the flag up. -/
def Alert (w : Writer σ V) : Prop := ∀ n, w.MayWait n → w.queue.queue.awake = true

/-- **Only a take lowers the flag**, and it leaves nobody who may wait once the writer is told to
stop. -/
lemma Alert.goes (h : w.Alert) (hl : w.course.Linked) (hp : w.phase ≠ .running)
    (hg : Goes t w v) : v.Alert := by
  intro n hn
  have hawake := h n (hg.mayWait hl hp hn)
  cases hg with
  | calls _ _ _ hq =>
    cases hq with
    | rests ha _ _ _ _ => exact ha.trans hawake
    | offers _ ha _ _ => exact ha.trans hawake
    | tells _ hq _ => exact hq.rouses.awake.trans hawake
    | rings _ _ hv =>
      rw [hv]
      rfl
    | wakes _ hq _ _ => exact hq.rouses.awake.trans hawake
  | works _ _ _ _ _ hq =>
    rw [hq]
    exact hawake
  | @takes m last ht _ hw _ hv =>
    obtain ⟨htook, -⟩ := took_of_pop hw hv
    have hnm : n ≠ m := fun hnm => htook.not_mayWait hw (hnm ▸ hn)
    exact absurd ((htook.mayWait_of_other hnm hn).eq_of_cycling hl hw) hnm
  | waits _ _ _ _ _ _ hv =>
    rw [hv]
    exact hawake
  | cycles _ _ _ _ _ _ _ hq =>
    rw [hq]
    exact hawake

lemma Alert.aside (h : w.Alert) (ha : Aside w v) : v.Alert := fun n hn =>
  ha.queue.awake.trans (h n (mayWait_of_spared ha.workers ha.cycles hn))

lemma Alert.step {m : Move σ V} (h : w.Alert) (hl : w.course.Linked) (hp : w.phase ≠ .running)
    (hs : w.step m = some v) : v.Alert := by
  rcases goes_of_step hs with ⟨t, -, hg⟩ | ⟨-, ha⟩
  · exact h.goes hl hp hg
  · exact h.aside ha

/-! ### Threads at the queue -/

/-- **What threads are in the middle of at the queue.** -/
structure Tuned (w : Writer σ V) : Prop where
  linked : w.course.Linked
  /-- Who waits is a worker in a take. -/
  waiting : ∀ t d b, w.queue.stages.get? t = some (.waiting d b) → ∃ n, t = .worker n ∧
    w.control.worker? n = some (.cycling false) ∧ w.cycles.get? t = none
  /-- Who is about to notify has made an offer, or is about to wake the worker and has raised the
  flag. -/
  notifying : ∀ t b, w.queue.stages.get? t = some (.notifying b) →
    (∃ s k, w.calls.get? t = some (.writing s (.notifying k))) ∨
      w.control.waking t = true ∧ w.Alert

/-- Where a wait comes from: it has begun before and is told no less, or it goes on for want of the
flag. -/
lemma Goes.waiting (h : Goes t w v) {u : Thread}
    (hu : v.queue.stages.get? u = some (.waiting d b)) :
    (∃ b', w.queue.stages.get? u = some (.waiting d b') ∧ (b' = true → b = true)) ∨
      u = t ∧ w.queue.queue.settled = false ∧ v.control = w.control ∧ v.cycles = w.cycles ∧
        ∃ n last, t = .worker n ∧ w.control.worker? n = some (.cycling last) ∧
          w.cycles.get? t = none ∧
            (last = true → ∃ d b, w.queue.stages.get? t = some (.waiting d b)) := by
  have hput : ∀ {c : Bool}, (w.queue.stages.put t (.notifying c)).get? u = some (.waiting d b) →
      w.queue.stages.get? u = some (.waiting d b) := by
    intro c hc
    rw [Roster.get?_put] at hc
    split at hc
    · cases hc
    · exact hc
  have hdrop : ∀ {c : Bool}, (w.queue.stages.drop t).get? u = some (.waiting d c) →
      w.queue.stages.get? u = some (.waiting d c) := by
    intro c hc
    rw [Roster.get?_drop, Option.ite_none_left_eq_some] at hc
    exact hc.2
  have hnotify : ∀ {chosen : Option Thread}, w.queue.Notifies t chosen v.queue →
      ∃ b', w.queue.stages.get? u = some (.waiting d b') ∧ (b' = true → b = true) := by
    intro chosen hq
    obtain ⟨b', hb', hle⟩ := hq.rouses.waiting hu
    exact ⟨b', hdrop hb', hle⟩
  cases h with
  | calls _ _ _ hq =>
    refine .inl ?_
    cases hq with
    | rests _ hs _ _ _ => exact ⟨b, hs ▸ hu, id⟩
    | offers _ _ hs _ =>
      rw [hs] at hu
      exact ⟨b, hput hu, id⟩
    | tells _ hq _ => exact hnotify hq
    | rings _ _ hv =>
      rw [hv] at hu
      exact ⟨b, hput hu, id⟩
    | wakes _ hq _ _ => exact hnotify hq
  | works _ _ _ _ _ hq => exact .inl ⟨b, hq ▸ hu, id⟩
  | takes _ _ hw _ hv =>
    rw [(took_of_pop hw hv).2] at hu
    exact .inl ⟨b, hdrop hu, id⟩
  | @waits n last _ ht _ hw hy hlast hs hv =>
    subst hv
    by_cases hut : u = t
    · exact .inr ⟨hut, hs, rfl, rfl, n, last, ht, hw, hy, hlast⟩
    · exact .inl ⟨b, (Roster.get?_put_ne _ _ hut).symm.trans hu, id⟩
  | cycles _ _ _ _ _ _ _ hq => exact .inl ⟨b, hq ▸ hu, id⟩

namespace Tuned

lemma phase_of_waking (h : w.Tuned) (ht : w.control.waking t = true) :
    w.phase = .stopping ∧ ∃ a, w.calls.get? t = some a ∧ a.inControl = true := by
  obtain ⟨closing, hc⟩ := Control.waking_iff.mp ht
  exact ⟨h.linked.orderly.guarded.suited _ _ hc,
    (h.linked.fits t).call (Option.isSome_iff_exists.mpr ⟨_, hc⟩)⟩

lemma not_notifying (h : w.Tuned) (hr : w.Rests t ∨ ∃ a, w.calls.get? t = some a ∧
      (∀ s k, a ≠ .writing s (.notifying k)) ∧ (a.inControl = true → w.control.waking t = false)) :
    w.queue.stages.get? t ≠ some (.notifying b) := by
  intro hb
  have hcall : ∃ a, w.calls.get? t = some a ∧ (∀ r, a ≠ .ended r) ∧
      ((∃ s k, a = .writing s (.notifying k)) ∨
        a.inControl = true ∧ w.control.waking t = true) := by
    rcases h.notifying t b hb with ⟨s, k, hc⟩ | ⟨hw, -⟩
    · exact ⟨_, hc, nofun, .inl ⟨s, k, rfl⟩⟩
    · obtain ⟨-, a, ha, hi⟩ := h.phase_of_waking hw
      have hne : ∀ r, a ≠ .ended r := by
        rintro r rfl
        cases hi
      exact ⟨a, ha, hne, .inr ⟨hi, hw⟩⟩
  obtain ⟨a, ha, hne, hcase⟩ := hcall
  rcases hr with hr | ⟨a', ha', hn, hw⟩
  · obtain ⟨r, rfl⟩ := hr a ha
    exact hne r rfl
  · obtain rfl := Option.some.inj (ha.symm.trans ha')
    rcases hcase with ⟨s, k, rfl⟩ | ⟨hi, hwaking⟩
    · exact hn s k rfl
    · rw [hw hi] at hwaking
      cases hwaking

lemma notifying_of_goes (h : w.Tuned) (hg : Goes t w v) {u : Thread}
    (hu : v.queue.stages.get? u = some (.notifying b)) :
    u ≠ t ∧ w.queue.stages.get? u = some (.notifying b) ∨
      u = t ∧ ((∃ s k, v.calls.get? t = some (.writing s (.notifying k))) ∨
        v.control.waking t = true ∧ v.Alert) := by
  have hkeep : w.queue.stages.get? u = some (.notifying b) → (w.Rests t ∨ ∃ a,
      w.calls.get? t = some a ∧ (∀ s k, a ≠ .writing s (.notifying k)) ∧
        (a.inControl = true → w.control.waking t = false)) →
      u ≠ t ∧ w.queue.stages.get? u = some (.notifying b) := fun hw hr =>
    ⟨fun hut => h.not_notifying hr (hut ▸ hw), hw⟩
  have hdrop : (w.queue.stages.drop t).get? u = some (.notifying b) →
      u ≠ t ∧ w.queue.stages.get? u = some (.notifying b) := fun hw => by
    rwa [Roster.get?_drop, Option.ite_none_left_eq_some] at hw
  cases hg with
  | @calls a ha _ _ hq =>
    cases hq with
    | rests _ hs hn hw _ => exact .inl (hkeep (hs ▸ hu) (.inr ⟨a, ha, hn, hw⟩))
    | @offers s k _ _ hs hc =>
      by_cases hut : u = t
      · exact .inr ⟨hut, .inl ⟨s, k, hc ▸ Roster.get?_put_self ..⟩⟩
      · rw [hs, Roster.get?_put_ne _ _ hut] at hu
        exact .inl ⟨hut, hu⟩
    | tells _ hq _ => exact .inl (hdrop (hq.rouses.notifying.mp hu))
    | rings hw _ hv =>
      subst hv
      by_cases hut : u = t
      · exact .inr ⟨hut, .inr ⟨hw, fun _ _ => rfl⟩⟩
      · exact .inl ⟨hut, (Roster.get?_put_ne _ _ hut).symm.trans hu⟩
    | wakes _ hq _ _ => exact .inl (hdrop (hq.rouses.notifying.mp hu))
  | works _ hr _ _ _ hq => exact .inl (hkeep (hq ▸ hu) (.inl hr))
  | takes _ _ hw _ hv =>
    rw [(took_of_pop hw hv).2] at hu
    exact .inl (hdrop hu)
  | waits _ _ _ _ _ _ hv =>
    subst hv
    by_cases hut : u = t
    · subst hut
      have hself := (Roster.get?_put_self ..).symm.trans hu
      cases hself
    · exact .inl ⟨hut, (Roster.get?_put_ne _ _ hut).symm.trans hu⟩
  | cycles _ hr _ _ _ _ _ hq => exact .inl (hkeep (hq ▸ hu) (.inl hr))

lemma waiting_of_goes (h : w.Tuned) (hg : Goes t w v) {u : Thread}
    (hu : v.queue.stages.get? u = some (.waiting d b)) : ∃ n, u = .worker n ∧
      v.control.worker? n = some (.cycling false) ∧ v.cycles.get? u = none := by
  rcases hg.waiting hu with ⟨b', hb', -⟩ | ⟨rfl, -, hc, hy, n, last, rfl, hw, hnone, hlast⟩
  · obtain ⟨n, rfl, hw, hnone⟩ := h.waiting u d b' hb'
    have hlone : ∀ {m : Nat} {last : Bool}, w.control.worker? m = some (.cycling last) → n = m :=
      fun hm => h.linked.orderly.staffed.eq_of_present hw rfl hm rfl
    refine ⟨n, rfl, ?_⟩
    cases hg with
    | calls _ hy hk _ => exact ⟨hk.worker? hw, hy ▸ hnone⟩
    | @works m s _ _ hs hturn hy _ =>
      obtain ⟨-, ⟨s', hset⟩, -⟩ := Control.workers_of_turn hturn
      have hnm : n ≠ m := by
        rintro rfl
        obtain rfl := Option.some.inj (hw.symm.trans hs)
        cases hturn
      exact ⟨(Control.worker?_set_ne hset (Ne.symm hnm)).trans hw, hy ▸ hnone⟩
    | takes ht _ hm _ hv =>
      obtain rfl := hlone hm
      subst ht
      rw [(took_of_pop hm hv).2, SharedQueue.stages_pop, Roster.get?_drop_self] at hu
      cases hu
    | waits _ _ _ _ _ _ hv =>
      subst hv
      exact ⟨hw, hnone⟩
    | cycles ht _ hm hy _ _ _ _ =>
      obtain rfl := hlone hm
      subst ht
      rw [hnone] at hy
      cases hy
  · refine ⟨n, rfl, ?_, hy ▸ hnone⟩
    cases last with
    | false => exact hc ▸ hw
    | true =>
      obtain ⟨d', b', hb'⟩ := hlast rfl
      obtain ⟨n', hn', hw', -⟩ := h.waiting _ d' b' hb'
      cases hn'
      rw [hw] at hw'
      cases hw'

theorem step {m : Move σ V} (h : w.Tuned) (hs : w.step m = some v) : v.Tuned := by
  have hlinked := h.linked.step (step_course hs)
  -- who is woken by others stays so
  have hwaking : ∀ u, m ≠ .run u → w.control.waking u = true → v.control.waking u = true := by
    intro u hu hw
    obtain ⟨-, a, ha, -⟩ := h.phase_of_waking hw
    obtain ⟨closing, hc⟩ := Control.waking_iff.mp hw
    refine Control.waking_iff.mpr ⟨closing, ?_⟩
    rcases (call_of_step hs hu ha).2 with hk | hk
    · exact hk.trans hc
    · rw [hk, hc]
      rfl
  rcases goes_of_step hs with ⟨t, rfl, hg⟩ | ⟨hrun, ha⟩
  · refine ⟨hlinked, fun u d b hu => h.waiting_of_goes hg hu, fun u b hu => ?_⟩
    rcases h.notifying_of_goes hg hu with ⟨hut, hw⟩ | ⟨rfl, hnew⟩
    · rcases h.notifying u b hw with ⟨s, k, hc⟩ | ⟨hw, halert⟩
      · exact .inl ⟨s, k, ((run_sameBut hs).calls u hut).trans hc⟩
      · have hp := (h.phase_of_waking hw).1
        refine .inr ⟨hwaking u (fun he => hut (Move.run.inj he).symm) hw,
          halert.goes h.linked (hp ▸ by decide) hg⟩
    · exact hnew
  · refine ⟨hlinked, fun u d b hu => ?_, fun u b hu => ?_⟩
    · obtain ⟨b', hb', -⟩ := ha.queue.waiting hu
      obtain ⟨n, hn, hw, hnone⟩ := h.waiting u d b' hb'
      exact ⟨n, hn, ha.workers.worker? hw, ha.cycles ▸ hnone⟩
    · rcases h.notifying u b (ha.queue.notifying.mp hu) with ⟨s, k, hc⟩ | ⟨hw, halert⟩
      · exact .inl ⟨s, k, ha.calls u _ hc nofun⟩
      · exact .inr ⟨hwaking u (hrun u) hw, halert.aside ha⟩

end Tuned

/-! ### Who has been heard -/

/-- A worker that waits has been told to look again and finds the flag up. -/
structure Heard (w : Writer σ V) : Prop where
  alert : w.Alert
  told : ∀ t d b, w.queue.stages.get? t = some (.waiting d b) → b = true

/-- **Who has been heard stays so** until the phase changes. -/
lemma Heard.step {m : Move σ V} (h : w.Heard) (ht : w.Tuned) (hp : w.phase ≠ .running)
    (hs : w.step m = some v) : v.Heard := by
  refine ⟨h.alert.step ht.linked hp hs, fun u d b hu => ?_⟩
  rcases goes_of_step hs with ⟨t, -, hg⟩ | ⟨-, ha⟩
  · rcases hg.waiting hu with ⟨b', hb', hle⟩ | ⟨rfl, hsettled, hc, hy, -⟩
    · exact hle (h.told u d b' hb')
    · -- a worker that finds the flag up does not wait
      obtain ⟨n, rfl, hw, hnone⟩ := ht.waiting_of_goes hg hu
      have hawake := h.alert n ⟨_, hc ▸ hw, rfl, hy ▸ hnone⟩
      rw [SharedQueue.settled_of_awake hawake] at hsettled
      cases hsettled
  · obtain ⟨b', hb', hle⟩ := ha.queue.waiting hu
    exact hle (h.told u d b' hb')

/-- `t` completes its call of the wake-up: it notifies, with the flag raised. -/
structure Wakes (t : Thread) (x y : Writer σ V) : Prop where
  waking : x.control.waking t = true
  step : x.step (.run t) = some y
  done : y.control.waking t = false

/-- **A stop that has woken the worker has been heard.** -/
lemma heard_of_wakes (h : x.Tuned) (hw : Wakes t x y) : y.Heard := by
  obtain ⟨hp, a, ha, hi⟩ := h.phase_of_waking hw.waking
  have hdeals : Deals t a x y := by
    cases goes_of_run hw.step with
    | calls ha' _ _ hq => exact Option.some.inj (ha'.symm.trans ha) ▸ hq
    | works _ hr _ _ _ _ | takes _ hr _ _ _ | waits _ hr _ _ _ _ _ | cycles _ hr _ _ _ _ _ _ =>
      obtain ⟨r, rfl⟩ := hr a ha
      cases hi
  have halert : x.Alert → y.Alert := fun hx => hx.step h.linked (hp ▸ by decide) hw.step
  cases hdeals with
  | rests _ _ _ hno _ =>
    have hx := hw.waking
    rw [hno hi] at hx
    cases hx
  | offers he _ _ _ | tells he _ _ =>
    rw [he] at hi
    cases hi
  | rings _ _ hv =>
    have hy := hw.done
    rw [hv] at hy
    exact absurd hw.waking (Bool.eq_false_iff.mp hy)
  | wakes _ hq _ _ =>
    obtain ⟨b, hb⟩ := hq.stage
    refine ⟨halert ?_, hq.all rfl⟩
    rcases h.notifying t b hb with ⟨s, k, hc⟩ | ⟨-, hx⟩
    · obtain rfl := Option.some.inj (ha.symm.trans hc)
      cases hi
    · exact hx

/-! ### Who has waited for the last time -/

/-- **Worker `n` never waits again**: it is gone, or the writer is past its running phase and the
worker may not wait any more. -/
def Spent (w : Writer σ V) (n : Nat) : Prop :=
  ∃ s, w.control.worker? n = some s ∧
    (s = .finished ∨ w.phase ≠ .running ∧ w.phase ≠ .starting ∧ ¬ w.MayWait n)

lemma spent_of_advance {j : Journal} {ev : Option ControlScene.Event} {s : WorkerStage}
    (ha : w.control.Advance j ev v.control) (hs : w.control.worker? n = some s)
    (hw : s = .finished ∨ w.phase ≠ .running ∧ w.phase ≠ .starting ∧ ¬ v.MayWait n) :
    v.Spent n := by
  have hsame : v.control.worker? n = some s → v.phase = w.phase → v.Spent n := fun hk hp =>
    ⟨s, hk, hw.imp_right fun ⟨hr, hst, hm⟩ => ⟨hp ▸ hr, hp ▸ hst, hm⟩⟩
  cases ha with
  | rests hp hk _ => exact hsame ((congrArg (·[n]?) hk).trans hs) hp
  | turns hturn hk _ =>
    refine ⟨s, (congrArg (·[n]?) hk).trans hs, .inl ?_⟩
    rcases hw with rfl | ⟨hr, hst, -⟩
    · rfl
    · generalize v.control.phase = q at hturn
      cases hturn with
      | starts _ hv | retires _ hv => exact hv n s hs
      | halts hp => exact (hp.elim hst hr).elim
      | denied _ hp _ => exact (hst hp).elim
  | creates _ _ _ hp hk _ => exact hsame (Control.worker?_append hk hs) hp
  | @works _ m a a' _ hm hset _ hgoes =>
    by_cases hnm : n = m
    · subst hnm
      rcases hw with rfl | ⟨hr, hst, hmay⟩
      · have hp := hgoes.present
        rw [Option.some.inj (hm.symm.trans hs)] at hp
        cases hp
      · refine ⟨a', Control.worker?_set_self hset hm, .inr ?_⟩
        suffices hq : v.phase ≠ .running ∧ v.phase ≠ .starting from ⟨hq.1, hq.2, hmay⟩
        exact hgoes.past_running hr hst
    · have hs' := (Control.worker?_set_ne hset (Ne.symm hnm)).trans hs
      rcases hw with rfl | ⟨hr, hst, hmay⟩
      · exact ⟨_, hs', .inl rfl⟩
      · obtain ⟨hr', hst'⟩ := hgoes.past_running hr hst
        exact ⟨s, hs', .inr ⟨hr', hst', hmay⟩⟩

lemma mayWait_of_step {m : Move σ V} (hl : w.course.Linked) (hp : w.phase ≠ .running)
    (hs : w.step m = some v) (hn : v.MayWait n) : w.MayWait n := by
  rcases goes_of_step hs with ⟨t, -, hg⟩ | ⟨-, ha⟩
  · exact hg.mayWait hl hp hn
  · exact mayWait_of_spared ha.workers ha.cycles hn

lemma Spent.step {m : Move σ V} (h : w.Spent n) (hl : w.course.Linked) (hs : w.step m = some v) :
    v.Spent n := by
  obtain ⟨s, hw, hcase⟩ := h
  have hcase' : s = .finished ∨ w.phase ≠ .running ∧ w.phase ≠ .starting ∧ ¬ v.MayWait n :=
    hcase.imp_right fun ⟨hr, hst, hm⟩ => ⟨hr, hst, fun hn => hm (mayWait_of_step hl hr hs hn)⟩
  rcases hl.control_step (step_course hs) with hc | ⟨now, j, j', hc⟩
  · have hc : v.control = w.control := hc
    have hrests : w.control.Advance w.journal none v.control := by
      rw [hc]
      exact .rests rfl rfl rfl
    exact spent_of_advance hrests hw hcase'
  · obtain ⟨ev, ha⟩ := hl.orderly.advance hc
    exact spent_of_advance (v := v) ha hw hcase'

lemma Spent.not_waiting (h : w.Spent n) (ht : w.Tuned) :
    w.queue.stages.get? (.worker n) ≠ some (.waiting d b) := by
  intro hd
  obtain ⟨n', hn, hw, hnone⟩ := ht.waiting _ d b hd
  cases hn
  obtain ⟨s, hs, hcase⟩ := h
  obtain rfl := Option.some.inj (hw.symm.trans hs)
  rcases hcase with hf | ⟨-, -, hm⟩
  · cases hf
  · exact hm ⟨_, hw, rfl, hnone⟩

lemma Spent.cycles {m : Move σ V} (h : w.Spent n) (hl : w.course.Linked) (hs : w.step m = some v) :
    ∃ new, v.control.cycles = new ++ w.control.cycles ∧ ∀ b, (n, b) ∈ new → b = 0 := by
  have hnone : v.control.cycles = w.control.cycles →
      ∃ new, v.control.cycles = new ++ w.control.cycles ∧ ∀ b, (n, b) ∈ new → b = 0 :=
    fun he => ⟨[], he, fun _ hb => nomatch hb⟩
  rcases goes_of_step hs with ⟨t, -, hg⟩ | ⟨-, ha⟩
  · cases hg with
    | calls _ _ hk _ => exact hnone hk.cycles
    | @works m s _ _ hm hturn _ _ =>
      rcases (Control.workers_of_turn hturn).2.2 with he | ⟨last, rfl⟩
      · exact hnone he
      · refine ⟨[_], Control.cycles_of_entering hturn, fun b hb => ?_⟩
        rw [List.mem_singleton, Prod.mk.injEq] at hb
        obtain ⟨rfl, rfl⟩ := hb
        cases last with
        | true => rfl
        | false =>
          -- a worker about to enter a cycle that waits has no ticket in hand
          have hcycle : w.cycles.get? (.worker n) = none := by
            refine Option.eq_none_iff_forall_ne_some.mpr fun y hy => ?_
            obtain ⟨l, hcyc⟩ := hl.cycling hy
            cases hm.symm.trans hcyc
          obtain ⟨s, hs, hcase⟩ := h
          obtain rfl := Option.some.inj (hm.symm.trans hs)
          rcases hcase with hf | ⟨-, -, hmay⟩
          · cases hf
          · exact absurd ⟨_, hm, rfl, hcycle⟩ hmay
    | takes _ _ hw _ hv => exact hnone (took_of_pop hw hv).1.cycles
    | waits _ _ _ _ _ _ hv => exact hnone (hv ▸ rfl)
    | cycles _ _ _ _ _ hc _ _ => exact hnone hc
  · exact hnone ha.workers.cycles

/-- A take of worker `n` ends. -/
structure EndsTake (n : Nat) (w v : Writer σ V) : Prop where
  cycling : ∃ last, w.control.worker? n = some (.cycling last)
  fresh : w.cycles.get? (.worker n) = none
  step : w.step (.run (.worker n)) = some v
  done : ∀ d b, v.queue.stages.get? (.worker n) ≠ some (.waiting d b)

/-- **Who ends a take while the writer is stopping has waited for the last time.** -/
lemma spent_of_endsTake (hl : w.course.Linked) (hp : w.phase = .stopping) (h : EndsTake n w v) :
    v.Spent n := by
  obtain ⟨last, hw⟩ := h.cycling
  have hphase : w.phase ≠ .running ∧ w.phase ≠ .starting := by
    rw [hp]
    decide
  cases goes_of_run h.step with
  | calls ha _ _ _ =>
    have hnone : w.calls.get? (.worker n) = none := hl.idle h.fresh nofun
    cases hnone.symm.trans ha
  | works ht _ hs hturn _ _ =>
    cases ht
    obtain rfl := Option.some.inj (hw.symm.trans hs)
    cases hturn
  | takes ht _ hw' _ hv =>
    cases ht
    obtain ⟨htook, -⟩ := took_of_pop hw' hv
    have hmay := htook.not_mayWait hw'
    rcases htook.done with ⟨hc, -⟩ | hc
    · refine ⟨_, hc ▸ hw', .inr ?_⟩
      rw [phase, hc]
      exact ⟨hphase.1, hphase.2, hmay⟩
    · refine ⟨_, Control.worker?_set_self (congrArg Control.workers hc) hw', .inr ?_⟩
      rw [phase, hc]
      exact ⟨hphase.1, hphase.2, hmay⟩
  | waits _ _ _ _ _ _ hv =>
    subst hv
    exact absurd (Roster.get?_put_self ..) (h.done _ false)
  | cycles _ _ _ hy _ _ _ _ =>
    rw [h.fresh] at hy
    cases hy

/-! ### No stop is lost on an idle worker -/

/-- **A worker that waits is about to return**: it has been told to look again, finds the flag up,
and ends its take with the next step that it makes, which is possible. -/
structure Returning (w : Writer σ V) (t : Thread) : Prop where
  told : ∀ d b, w.queue.stages.get? t = some (.waiting d b) → b = true
  awake : w.queue.queue.awake = true
  ends : ∃ n v, t = .worker n ∧ EndsTake n w v

/-- **Worker `n` waits no more** after `w`: in `u` it does not wait, and the cycles that it has
entered in between are not allowed to. -/
structure WaitsNoMore (n : Nat) (w u : Writer σ V) : Prop where
  unwaiting : ∀ d b, u.queue.stages.get? (.worker n) ≠ some (.waiting d b)
  budgets : ∃ new, u.control.cycles = new ++ w.control.cycles ∧ ∀ b, (n, b) ∈ new → b = 0

lemma Heard.returning (h : w.Heard) (ht : w.Tuned)
    (hs : w.queue.stages.get? t = some (.waiting d b)) : w.Returning t := by
  obtain ⟨n, rfl, hw, hnone⟩ := ht.waiting t d b hs
  have hawake := h.alert n ⟨_, hw, rfl, hnone⟩
  refine ⟨h.told _, hawake, n, ?_⟩
  obtain rfl := h.told _ d b hs
  have hcall : w.calls.get? (.worker n) = none := ht.linked.idle hnone nofun
  have hstep : w.step (.run (.worker n)) = some (({ w with
      queue := (w.queue.pop (.worker n)).2 } : Writer σ V).tookTicket n
        (w.queue.pop (.worker n)).1) := by
    simp only [Writer.step, run, hcall, stepWorker, Control.budget?, hw, stepCycle, hnone, hs,
      SharedQueue.retake_of_awake hawake hs, Option.map_some]
  refine ⟨_, rfl, ⟨_, hw⟩, hnone, hstep, fun d b hd => ?_⟩
  rw [(took_of_pop hw rfl).2, SharedQueue.stages_pop, Roster.get?_drop_self] at hd
  cases hd

variable {w₀ : Writer σ V} {config : Config} {target : String} {factory : Option (Factory σ)}
  {resource : σ} {now : Time} {j j' : Journal}

lemma Reachable.tuned (hc : create config target factory resource now s j = (.ok w₀, j'))
    (h : Reachable w₀ w) : w.Tuned := by
  induction h with
  | refl =>
    have hqueue : w₀.queue.stages = {} := by
      unfold create at hc
      split at hc
      · cases hc
      · split at hc <;> cases hc
        rfl
    refine ⟨?_, fun t d b ht => ?_, fun t b ht => ?_⟩
    · rw [course_of_create hc]
      exact ⟨.init config, fun t => ⟨nofun, nofun, nofun⟩⟩
    · rw [hqueue] at ht
      cases ht
    · rw [hqueue] at ht
      cases ht
  | step m _ hs ih => exact ih.step hs

/-- **A stop is never lost on an idle worker.** In any run of a writer, whoever calls what: from the
moment at which a stop has woken the worker until the phase changes, no worker is blocked in a take;
and a worker that ends a take while the writer is stopping, as the one does that uses up the
wake-up, never waits again. -/
theorem stop_is_heard (hc : create config target factory resource now s j = (.ok w₀, j')) :
    (∀ t x y w, Reachable w₀ x → Wakes t x y → Along step (fun z => z.phase = .stopping) y w →
      ∀ u d b, w.queue.stages.get? u = some (.waiting d b) → w.Returning u) ∧
    (∀ n x y w, Reachable w₀ x → x.phase = .stopping → EndsTake n x y → Reachable y w →
      WaitsNoMore n y w) := by
  refine ⟨fun t x y w hx hw h u d b hu => ?_, fun n x y w hx hp hend h => ?_⟩
  · have hy : y.Tuned := (hx.step _ hw.step).tuned hc
    have hheard : w.Heard ∧ w.Tuned :=
      h.keeps (I := fun z => z.Heard ∧ z.Tuned) (fun _ => ⟨heard_of_wakes (hx.tuned hc) hw, hy⟩)
        fun z m z' hz ⟨hh, ht⟩ hs _ => ⟨hh.step ht (by rw [hz]; decide) hs, ht.step hs⟩
    exact hheard.1.returning hheard.2 hu
  · have hx' := hx.tuned hc
    suffices hI : w.Tuned ∧ w.Spent n ∧
        ∃ new, w.control.cycles = new ++ y.control.cycles ∧ ∀ b, (n, b) ∈ new → b = 0 from
      ⟨fun d b => hI.2.1.not_waiting hI.1, hI.2.2⟩
    induction h with
    | refl =>
      exact ⟨hx'.step hend.step, spent_of_endsTake hx'.linked hp hend, [], rfl, nofun⟩
    | step m _ hs ih =>
      obtain ⟨ht, hspent, new, hnew, hzero⟩ := ih
      obtain ⟨new', hnew', hzero'⟩ := hspent.cycles ht.linked hs
      refine ⟨ht.step hs, hspent.step ht.linked hs, new' ++ new, ?_, fun b hb => ?_⟩
      · rw [hnew', hnew, List.append_assoc]
      · exact (List.mem_append.mp hb).elim (hzero' b) (hzero b)

/-- Client 0 starts the writer, and the worker waits for a task; client 1 stops the writer, and is
about to notify the worker. -/
def stopIdle : List (Move Nat Unit) :=
  startUp ++ goOn (.worker 0) 3 ++ [.request 1 .stop] ++ goOn (.client 1) 2

/-- The worker that waits returns at once, and has only a cycle before it that does not wait. -/
theorem stop_is_heard_by_idle : ∃ (w₀ x y v u : Writer Nat Unit) (j : Journal),
    create {} "target" none 0 0 (.client 0) {} = (.ok w₀, j) ∧ Reachable w₀ x ∧
      Wakes (.client 1) x y ∧ y.phase = .stopping ∧
      y.queue.stages.get? (.worker 0) = some (.waiting 5000000 true) ∧ y.Returning (.worker 0) ∧
      EndsTake 0 y v ∧ Reachable v u ∧ u.phase = .terminated ∧
      u.control.cycles = (0, 0) :: v.control.cycles ∧ WaitsNoMore 0 v u := by
  obtain ⟨w₀, j, hc⟩ : ∃ (w₀ : Writer Nat Unit) (j : Journal),
      create {} "target" none 0 0 (.client 0) {} = (.ok w₀, j) := ⟨_, _, rfl⟩
  obtain ⟨x, hx, hs⟩ : ∃ x, Along step (fun _ => true = true) w₀ x ∧
      (x.control.waking (.client 1), (x.step (.run (.client 1))).bind fun y =>
        (y.step (.run (.worker 0))).bind fun v =>
          (follow step (fun _ => true) v (goOn (.worker 0) 5)).map fun u =>
            ((y.control.waking (.client 1), y.phase, y.queue.stages.get? (.worker 0)),
              (v.control.cycles, u.phase, u.control.cycles))) =
      (true, some ((false, .stopping, some (.waiting 5000000 true)),
        ([(0, 5)], .terminated, [(0, 0), (0, 5)]))) := by
    cases hc
    exact exists_along stopIdle rfl
  obtain ⟨hwaking, hmore⟩ := Prod.mk.inj hs
  obtain ⟨y, hy, hmore⟩ := Option.bind_eq_some_iff.mp hmore
  obtain ⟨v, hv, hmore⟩ := Option.bind_eq_some_iff.mp hmore
  obtain ⟨u, hu, hseen⟩ := Option.map_eq_some_iff.mp hmore
  simp only [Prod.mk.injEq] at hseen
  obtain ⟨⟨hdone, hphase, hwaits⟩, hcycles, hended, hcycles'⟩ := hseen
  have hx : Reachable w₀ x := .of_along .refl hx
  have hwakes : Wakes (.client 1) x y := ⟨hwaking, hy, hdone⟩
  have hu : Reachable v u := .of_along .refl (along_of_follow hu)
  have hreturning := (stop_is_heard hc).1 _ x y y hx hwakes (.refl hphase) _ _ _ hwaits
  obtain ⟨n, v', hn, hend⟩ := hreturning.ends
  obtain rfl : 0 = n := Thread.worker.inj hn
  obtain rfl := Option.some.inj (hend.step.symm.trans hv)
  refine ⟨w₀, x, y, v', u, j, hc, hx, hwakes, hphase, hwaits, hreturning, hend, hu, hended, ?_,
    (stop_is_heard hc).2 _ y v' u (hx.step _ hy) hphase hend hu⟩
  rw [hcycles', hcycles]

end Writer

end SerialWriter
