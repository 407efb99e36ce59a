import SerialWriter.Proofs.Control.Phases

/-!
What the calls that wait can tell of the worker: a start that returns, and a stop that gives up or
returns, after whatever other calls did meanwhile.
-/

namespace SerialWriter

namespace CallStage

def startWaits : CallStage → Bool
  | .start _ (.waiting _ _) => true
  | _ => false

def stopWaits : CallStage → Bool
  | .stop false (.waiting _ _) => true
  | _ => false

@[simp] lemma startWaits_roused (s : CallStage) : s.roused.startWaits = s.startWaits := by
  unfold roused
  split <;> rfl

@[simp] lemma stopWaits_roused (s : CallStage) : s.roused.stopWaits = s.stopWaits := by
  unfold roused
  split
  · rfl
  · rename_i b _ _
    cases b <;> rfl
  · rfl

lemma not_waits_afterStop (closing : Bool) (r : Except Failure Unit) :
    (afterStop closing r).startWaits = false ∧ (afterStop closing r).stopWaits = false := by
  unfold afterStop
  split
  · split <;> exact ⟨rfl, rfl⟩
  · exact ⟨rfl, rfl⟩

lemma not_waits_of_opening {s : CallStage} (h : s.opening = true) :
    s.startWaits = false ∧ s.stopWaits = false := by
  unfold opening at h
  split at h
  · exact ⟨rfl, rfl⟩
  · exact ⟨rfl, rfl⟩
  · exact ⟨rfl, rfl⟩
  · cases h

end CallStage

/-- **A call at `a` goes on to `x`** without beginning a wait, unless it is a start that has just
created its worker. -/
structure CallStage.KeepsWait (a x : CallStage) : Prop where
  start : x.startWaits = true → a.startWaits = true ∨ a = .start true .spawning
  stop : x.stopWaits = true → a.stopWaits = true

lemma CallStage.KeepsWait.of_not {a x : CallStage}
    (h : x.startWaits = false ∧ x.stopWaits = false) : a.KeepsWait x where
  start hx := by simp [h.1] at hx
  stop hx := by simp [h.2] at hx

/-- A step of a call begins no wait but that of a start; a stop begins its wait by waking. -/
lemma Control.keepsWait_of_turn {c d : Control} {t : Thread} {now : Time} {j j' : Journal}
    {a : CallStage} (h : CallTurn c t now j a d j') :
    ∃ (e : Control) (x : CallStage), d = e.setCall t x ∧ a.KeepsWait x := by
  have hstop : ∀ (e : Control) closing r, d = e.finishStop t closing r →
      ∃ (e : Control) (x : CallStage), d = e.setCall t x ∧ a.KeepsWait x :=
    fun e closing r hd =>
      ⟨_, _, hd.trans (finishStop_eq ..), .of_not (CallStage.not_waits_afterStop closing r)⟩
  cases h with
  | start h =>
    cases h with
    | refused _ _ | admitted _ _ | launched _ _ | launchFault _ _ | unmanned _ _ _
    | expired _ _ _ => exact ⟨_, _, rfl, .of_not ⟨rfl, rfl⟩⟩
    | spawned hs => exact ⟨_, _, rfl, fun _ => .inr (hs ▸ rfl), nofun⟩
    | concluded _ _ _ =>
      obtain ⟨r, hr⟩ := concludeStart_eq c t j
      exact ⟨_, _, hr, .of_not ⟨rfl, rfl⟩⟩
    | waits _ _ _ => exact ⟨_, _, rfl, fun _ => .inl rfl, nofun⟩
  | @stop closing _ _ _ h =>
    cases h with
    | retired _ _ _ _ | already _ _ | haltFault _ _ _ | buried _ | expired _ _ _ =>
      exact hstop _ _ _ rfl
    | buries _ _ | halted _ _ _ | halts _ _ | collects _ _ _ =>
      exact ⟨_, _, rfl, .of_not ⟨rfl, by cases closing <;> rfl⟩⟩
    | waits _ _ _ => exact ⟨_, _, rfl, nofun, by cases closing <;> exact id⟩
    | @collected e hd =>
      obtain ⟨r, hr⟩ := concludeStop_eq e t closing j
      exact hstop e closing r (hr.trans (finishStop_eq ..).symm)
  | destroy h =>
    cases h with
    | stops _ | skips _ | locks _ | joined _ => exact ⟨_, _, rfl, .of_not ⟨rfl, rfl⟩⟩
    | @reported _ _ f _ => exact ⟨_, _, rfl, .of_not (by cases f <;> exact ⟨rfl, rfl⟩)⟩

namespace ControlScene

variable {config : Config} {s s' u : ControlScene} {m : Move} {t : Thread} {es : List Event}
  {a : CallStage}

/-! ### Where a call is after a move -/

/-- What a move of somebody else leaves of the call of `t`: it is where it was, or is told to look
again, or has just begun. -/
lemma stage_of_step (h : s.step m = some s') (hm : m ≠ .call t)
    (ha : s'.control.calls.get? t = some a) :
    (∃ b, s.control.calls.get? t = some b ∧ (a = b ∨ a = b.roused)) ∨ a.opening = true := by
  have hrouses : ∀ d : Control, Rouses s.control d → d.calls.get? t = some a →
      ∃ b, s.control.calls.get? t = some b ∧ (a = b ∨ a = b.roused) := by
    intro d hd hda
    rcases hd t with h | h
    · exact ⟨a, h.symm.trans hda, .inl rfl⟩
    · rw [h] at hda
      obtain ⟨b, hb, rfl⟩ := Option.map_eq_some_iff.mp hda
      exact ⟨b, hb, .inr rfl⟩
  have hput : ∀ (d : Control) (v : Thread) (x : CallStage), Rouses s.control d → t ≠ v →
      (d.setCall v x).calls.get? t = some a →
        ∃ b, s.control.calls.get? t = some b ∧ (a = b ∨ a = b.roused) := by
    intro d v x hd hv hda
    rw [Control.setCall, Roster.get?_put_ne _ _ hv] at hda
    exact hrouses d hd hda
  have hbegin : ∀ (v : Thread) (x : CallStage), x.opening = true →
      (s.control.setCall v x).calls.get? t = some a →
        (∃ b, s.control.calls.get? t = some b ∧ (a = b ∨ a = b.roused)) ∨ a.opening = true := by
    intro v x hx hda
    by_cases hv : t = v
    · rw [hv, Control.setCall, Roster.get?_put_self, Option.some.injEq] at hda
      exact .inr (hda ▸ hx)
    · exact .inl (hput _ v x (.of_eq rfl) hv hda)
  cases m with
  | start v _ | stop v | destroy v =>
    simp only [step, Option.ite_none_right_eq_some, Option.some.injEq] at h
    obtain ⟨-, rfl⟩ := h
    exact hbegin v _ rfl ha
  | call v =>
    have hv : t ≠ v := fun hv => hm (hv ▸ rfl)
    left
    obtain ⟨⟨closing, -, hd, -⟩ | ⟨x, -, hturn⟩, -⟩ := step_call h
    · rw [hd] at ha
      exact hput s.control.unlock v _ (.of_eq rfl) hv ha
    · obtain ⟨e, x', hd, hr, -⟩ := Control.eq_setCall_of_turn hturn
      rw [hd] at ha
      exact hput e v x' hr hv ha
  | acknowledge v =>
    simp only [step, Option.ite_none_right_eq_some, Option.some.injEq] at h
    obtain ⟨-, rfl⟩ := h
    simp only [Control.acknowledge, Roster.get?_drop, Option.ite_none_left_eq_some] at ha
    exact .inl ⟨a, ha.2, .inl rfl⟩
  | work n =>
    obtain ⟨⟨_, -, hturn⟩, -⟩ := step_work h
    exact .inl (hrouses _ (Control.rouses_of_turn hturn) ha)
  | endCycle n e =>
    obtain ⟨_, -, -, rfl⟩ := step_endCycle h
    exact .inl ⟨a, ha, .inl rfl⟩
  | stir v =>
    left
    simp only [step] at h
    split at h
    · rename_i x hx
      cases h
      by_cases hv : t = v
      · rw [hv, Control.setCall, Roster.get?_put_self, Option.some.injEq] at ha
        exact ⟨x, hv ▸ hx, .inr ha.symm⟩
      · exact hput _ v _ (.of_eq rfl) hv ha
    · cases h
  | arm _ | pass _ =>
    cases h
    exact .inl ⟨a, ha, .inl rfl⟩

/-- The call of `t` is a start that waits. -/
def StartWaits (t : Thread) (s : ControlScene) : Prop :=
  ∃ a, s.control.calls.get? t = some a ∧ a.startWaits = true

/-- The call of `t` is a stop that waits. -/
def StopWaits (t : Thread) (s : ControlScene) : Prop :=
  ∃ a, s.control.calls.get? t = some a ∧ a.stopWaits = true

/-- The move by which a start of `t` creates worker `n` and begins to wait. -/
def CreatesFor (t : Thread) (n : Nat) (s s' : ControlScene) : Prop :=
  s.control.calls.get? t = some (.start true .spawning) ∧ s.step (.call t) = some s' ∧
    s.note (.call t) s' = some (.created t n)

/-- The move by which a stop of `t` wakes the worker and begins to wait. -/
def WakesFor (t : Thread) (s s' : ControlScene) : Prop :=
  s.control.calls.get? t = some (.stop false .waking) ∧ s.step (.call t) = some s'

lemma startWaits_of_step (h : s.step m = some s') (hw : StartWaits t s') :
    StartWaits t s ∨ m = .call t ∧ ∃ n, CreatesFor t n s s' := by
  obtain ⟨a, ha, hwa⟩ := hw
  by_cases hm : m = .call t
  · subst hm
    obtain ⟨⟨closing, -, hd, -⟩ | ⟨b, hb, hturn⟩, -⟩ := step_call h
    · rw [hd, Control.setCall, Roster.get?_put_self, Option.some.injEq] at ha
      subst ha
      cases hwa
    · obtain ⟨e, x, hd, hx⟩ := Control.keepsWait_of_turn hturn
      rw [hd, Control.setCall, Roster.get?_put_self, Option.some.injEq] at ha
      rcases hx.start (ha ▸ hwa) with hb' | rfl
      · exact .inl ⟨b, hb, hb'⟩
      · refine .inr ⟨rfl, s.control.workers.length, hb, h, ?_⟩
        generalize hd' : s'.control = d at hturn
        generalize s'.journal = j at hturn
        cases hturn with
        | start hturn =>
          cases hturn with
          | spawned _ => simp [note, hd', Control.setCall, Control.unlock]
          | unmanned hs _ _ => cases hs
  · left
    rcases stage_of_step h hm ha with ⟨b, hb, rfl | rfl⟩ | ho
    · exact ⟨a, hb, hwa⟩
    · exact ⟨b, hb, CallStage.startWaits_roused b ▸ hwa⟩
    · simp [(CallStage.not_waits_of_opening ho).1] at hwa

lemma stopWaits_of_step (h : s.step m = some s') (hw : StopWaits t s') :
    StopWaits t s ∨ m = .call t ∧ WakesFor t s s' := by
  obtain ⟨a, ha, hwa⟩ := hw
  by_cases hm : m = .call t
  · subst hm
    obtain ⟨⟨closing, hs, hd, -⟩ | ⟨b, hb, hturn⟩, -⟩ := step_call h
    · rw [hd, Control.setCall, Roster.get?_put_self, Option.some.injEq] at ha
      subst ha
      cases closing with
      | false => exact .inr ⟨rfl, hs, h⟩
      | true => cases hwa
    · obtain ⟨e, x, hd, hx⟩ := Control.keepsWait_of_turn hturn
      rw [hd, Control.setCall, Roster.get?_put_self, Option.some.injEq] at ha
      exact .inl ⟨b, hb, hx.stop (ha ▸ hwa)⟩
  · left
    rcases stage_of_step h hm ha with ⟨b, hb, rfl | rfl⟩ | ho
    · exact ⟨a, hb, hwa⟩
    · exact ⟨b, hb, CallStage.stopWaits_roused b ▸ hwa⟩
    · simp [(CallStage.not_waits_of_opening ho).2] at hwa

/-! ### A start that returns -/

def changes (es : List Event) : List (Phase × Phase) := es.filterMap Event.change?

/-- **A start of `t` that waits**: it has created worker `n`, and `es` was noted since. -/
inductive Awaits (config : Config) (t : Thread) (n : Nat) (es : List Event) (s : ControlScene) :
    Prop
  | intro {s₀ s₁ : ControlScene} (hr : Reachable config s₀) (hc : CreatesFor t n s₀ s₁)
    (h : Chronicle ControlScene.step note (fun u => u.Quiet ∧ StartWaits t u) s₁ es s) :
    Awaits config t n es s

lemma exists_awaits (h : QuietRun (fresh config) es s) (hw : StartWaits t s) :
    ∃ es₁ n es₂, es = es₁ ++ .created t n :: es₂ ∧ Awaits config t n es₂ s := by
  induction h with
  | refl _ =>
    obtain ⟨a, ha, -⟩ := hw
    cases ha
  | @step es s s' m h hs hq ih =>
    rcases startWaits_of_step hs hw with hw' | ⟨rfl, n, hc⟩
    · obtain ⟨es₁, n, es₂, rfl, ⟨hr, hc, hrun⟩⟩ := ih hw'
      exact ⟨es₁, n, _, List.append_assoc .., hr, hc, hrun.step m hs ⟨hq, hw⟩⟩
    · exact ⟨es, n, [], by rw [hc.2.2]; rfl, QuietRun.reachable h .init, hc, .refl ⟨hq, hw⟩⟩

/-- **How a worker left the starting phase behind**, if it did: it opened the writer, or a stop came
first. -/
inductive Opened (n : Nat) : WorkerStage → Phase → List Event → Prop
  | unopened {l : List Event} (hc : changes l = []) : Opened n .created .starting l
  | opened {w : WorkerStage} {p : Phase} {l : List Event} (hw : w ≠ .created)
    (hc : (changes l).head? = some (.starting, .running))
    (hr : .reached n .starting .running ∈ l) : Opened n w p l
  | hurried {w : WorkerStage} {p : Phase} {l : List Event}
    (hc : (changes l).head? = some (.starting, .stopping)) (h : Hurried n w p l) : Opened n w p l

section Opening

variable {n : Nat} {idle : Int} {w w' : WorkerStage} {p q : Phase} {ev : Option Event}
  {l : List Event} {x : Phase × Phase}

lemma changes_append (l : List Event) (ev : Option Event) :
    changes (l ++ ev.toList) = changes l ++ (ev.bind Event.change?).toList :=
  filterMap_append_toList ..

lemma head_changes (h : (changes l).head? = some x) (ev : Option Event) :
    (changes (l ++ ev.toList)).head? = some x := by
  rw [changes_append, List.head?_append, h]
  rfl

lemma Opened.meets (h : Opened n w p l) (hm : Meets n idle w p ev w' q) :
    Opened n w' q (l ++ ev.toList) := by
  cases h with
  | unopened hc =>
    cases hm with
    | goes hq hg =>
      cases hg with
      | opens hf =>
        obtain rfl := hf hq
        refine .opened nofun ?_ (List.mem_append_right _ List.mem_cons_self)
        rw [changes_append, hc]
        rfl
    | halted _ =>
      refine .hurried ?_ ⟨fun _ => rfl, fun hin => ?_⟩
      · rw [changes_append, hc]
        rfl
      · -- nothing has been stored yet, let alone by the worker
        rcases List.mem_append.mp hin with hin | hin
        · have hmem : (Phase.starting, Phase.running) ∈ changes l :=
            List.mem_filterMap.mpr ⟨_, hin, rfl⟩
          rw [hc] at hmem
          cases hmem
        · cases List.mem_singleton.mp hin
    | rests _ hn =>
      refine .unopened ?_
      rw [changes_append, hc, hn]
      rfl
  | opened hw hc hr =>
    have hr' : .reached n .starting .running ∈ l ++ ev.toList := List.mem_append_left _ hr
    refine .opened (fun hc' => ?_) (head_changes hc ev) hr'
    cases hm with
    | goes _ hg => exact hg.ne_created hc'
    | halted _ | rests _ _ => exact hw hc'
    | gone _ => cases hc'
  | hurried hc hh => exact .hurried (head_changes hc ev) (hh.meets hm)

end Opening

lemma worker_of_creates {n : Nat} (ho : s.control.Orderly) (h : CreatesFor t n s s') :
    s'.control.worker? n = some .created ∧ s'.control.phase = .starting := by
  have hadv := (shows_of_step ho h.2.1).advance
  have hn := h.2.2
  generalize s.note (.call t) s' = ev at hn hadv
  cases hadv with
  | rests _ _ _ | turns _ _ _ => cases hn
  | creates _ hp _ hp' hw _ =>
    cases hn
    refine ⟨?_, hp'.trans hp⟩
    rw [Control.worker?, hw]
    exact List.getElem?_concat_length
  | works _ _ _ hgoes =>
    have hown := hgoes.all_isOf
    rw [hn] at hown
    cases hown

/-- A start that waits knows that its worker was created, and what came first after that. -/
lemma opened_of_awaits {n : Nat} (h : Awaits config t n es s) :
    ∃ w, s.control.worker? n = some w ∧ Opened n w s.control.phase es := by
  obtain ⟨hr, hc, hrun⟩ := h
  obtain ⟨hw, hp⟩ := worker_of_creates hr.orderly hc
  have hquiet : QuietRun _ es s := hrun.mono fun _ h => h.1
  exact hquiet.keeps (hr.step _ hc.2.1) hw (hp ▸ .unopened rfl) fun _ _ _ _ _ _ hi hm => hi.meets hm

lemma eq_ended_of_setCall {d : Control} {r : Except Failure Unit} (hr : d.result? t = some r)
    (e : Control) (x : CallStage) (hd : d = e.setCall t x) : x = .ended r := by
  rw [Control.result?_eq_some_iff, hd, Control.setCall, Roster.get?_put_self,
    Option.some.injEq] at hr
  exact hr

lemma of_started {c d : Control} {now : Time} {j j' : Journal} {b : Bool} {st : StartStage}
    (h : StartTurn c t now j b st d j') (hok : d.result? t = some (.ok ())) :
    (CallStage.start b st).startWaits = true ∧ c.phase ≠ .starting ∧
      j'.entries = (t, .started c.config.name) :: j.entries := by
  have hself := eq_ended_of_setCall hok
  cases h with
  | refused _ _ | admitted _ _ | launched _ _ | launchFault _ _ | spawned _ | unmanned _ _ _
  | expired _ _ _ | waits _ _ _ => cases hself _ _ rfl
  | concluded _ _ hp =>
    refine ⟨rfl, hp, ?_⟩
    generalize hd : (c.concludeStart t j).1 = d at hself
    unfold Control.concludeStart at hd ⊢
    split at hd
    · cases hself _ _ hd.symm
    · rename_i hf
      rw [if_neg hf]
      split
      · rename_i hl
        have := Journal.log_entries j t (.started c.config.name)
        rwa [hl] at this
      · rename_i hl
        rw [hl] at hd
        cases hself _ _ hd.symm

/-- **A start that returns**: its worker has opened the writer in the meantime exactly if that was
the first change of phase after it was created; otherwise a stop came first. -/
theorem started_of_run (h : QuietRun (fresh config) es s) {b : Bool} {st : StartStage}
    (ht : s.control.calls.get? t = some (.start b st)) (hs : s.step (.call t) = some s')
    (hok : s'.control.result? t = some (.ok ())) :
    s'.journal.entries.head? = some (t, .started config.name) ∧
      ∃ es₁ n es₂, es = es₁ ++ .created t n :: es₂ ∧ Awaits config t n es₂ s ∧
        ((changes es₂).head? = some (.starting, .running) ∨
          (changes es₂).head? = some (.starting, .stopping)) ∧
        (.reached n .starting .running ∈ es₂ ↔
          (changes es₂).head? = some (.starting, .running)) := by
  have hr : Reachable config s := h.reachable .init
  obtain ⟨⟨closing, hw, -⟩ | ⟨a, ha, hturn⟩, -⟩ := step_call hs
  · exact nomatch ht.symm.trans hw
  obtain rfl := Option.some.inj (ht.symm.trans ha)
  obtain ⟨hwaits, hp, hj⟩ : (CallStage.start b st).startWaits = true ∧
      s.control.phase ≠ .starting ∧
        s'.journal.entries = (t, .started s.control.config.name) :: s.journal.entries := by
    cases hturn with
    | start hturn => exact of_started hturn hok
  rw [hr.config_eq] at hj
  refine ⟨by rw [hj]; rfl, ?_⟩
  obtain ⟨es₁, n, es₂, hes, hawaits⟩ := exists_awaits h ⟨_, ht, hwaits⟩
  refine ⟨es₁, n, es₂, hes, hawaits, ?_⟩
  obtain ⟨w, -, hopened⟩ := opened_of_awaits hawaits
  generalize s.control.phase = p at hp hopened
  cases hopened with
  | unopened _ => exact (hp rfl).elim
  | opened _ hc hreached => exact ⟨.inl hc, iff_of_true hreached hc⟩
  | hurried hc hh =>
    refine ⟨.inr hc, iff_of_false hh.unopened fun hc' => ?_⟩
    rw [hc] at hc'
    cases hc'

/-- A start whose worker has opened the writer. -/
def openedStart : List Move :=
  [.start (.client 0) true, .call (.client 0), .call (.client 0), .call (.client 0), .work 0]

theorem started_openedStart : ∃ s s', QuietRun (fresh {})
      [.turned (.client 0) .new .starting, .created (.client 0) 0,
        .reached 0 .starting .running] s ∧
    s.step (.call (.client 0)) = some s' ∧ s'.control.result? (.client 0) = some (.ok ()) ∧
      ∃ es₁ n es₂, [.turned (.client 0) .new .starting, .created (.client 0) 0,
        .reached 0 .starting .running] = es₁ ++ .created (.client 0) n :: es₂ ∧
        (.reached n .starting .running ∈ es₂ ↔
          (changes es₂).head? = some (.starting, .running)) := by
  obtain ⟨es, s, h, hf⟩ : ∃ es s, QuietRun (fresh {}) es s ∧
      (es, s.control.calls.get? (.client 0),
        (s.step (.call (.client 0))).map fun u => u.control.result? (.client 0)) =
      ([.turned (.client 0) .new .starting, .created (.client 0) 0, .reached 0 .starting .running],
        some (.start true (.waiting 10000000000 true)), some (some (.ok ()))) :=
    exists_quietRun openedStart rfl
  simp only [Prod.mk.injEq] at hf
  obtain ⟨rfl, ht, hs⟩ := hf
  obtain ⟨s', hs, hok⟩ := Option.map_eq_some_iff.mp hs
  obtain ⟨-, es₁, n, es₂, hes, -, -, hiff⟩ := started_of_run h ht hs hok
  exact ⟨s, s', h, hs, hok, es₁, n, es₂, hes, hiff⟩

/-- A start, and a stop that comes before its worker has begun. -/
def overtakenStart : List Move :=
  [.start (.client 0) true, .call (.client 0), .call (.client 0), .call (.client 0),
    .stop (.client 1), .call (.client 1), .call (.client 1), .work 0, .work 0, .work 0,
    .endCycle 0 none, .work 0]

def overtakenEvents : List Event :=
  [.turned (.client 0) .new .starting, .created (.client 0) 0,
    .turned (.client 1) .starting .stopping, .entered 0 true 0, .left 0 none,
    .reached 0 .stopping .terminated]

/-- **A start can return though the writer has never been running.** A stop has come before the
worker has begun; the worker has run its last cycle and has ended the writer, and that the starting
phase is over is all that the start waits for. -/
theorem started_overtaken : (∃ s s', QuietRun (fresh {}) overtakenEvents s ∧
      s.step (.call (.client 0)) = some s' ∧ s'.control.result? (.client 0) = some (.ok ()) ∧
        s'.journal.entries.head? = some (.client 0, .started "writer")) ∧
    ∀ n, .reached n .starting .running ∉ overtakenEvents := by
  obtain ⟨es, s, h, hf⟩ : ∃ es s, QuietRun (fresh {}) es s ∧
      (es, (s.step (.call (.client 0))).map fun u =>
        (u.control.result? (.client 0), u.journal.entries.head?)) =
      (overtakenEvents, some (some (.ok ()), some (.client 0, .started "writer"))) :=
    exists_quietRun overtakenStart rfl
  obtain ⟨rfl, hs⟩ := Prod.mk.inj hf
  obtain ⟨s', hs, hr⟩ := Option.map_eq_some_iff.mp hs
  obtain ⟨hok, hl⟩ := Prod.mk.inj hr
  refine ⟨⟨s, s', h, hs, hok, hl⟩, fun n hn => ?_⟩
  simp [overtakenEvents] at hn

/-! ### A stop that gives up or returns -/

/-- **A stop of `t` that waits**: it has woken the worker, and `es` was noted since. -/
inductive AwaitsEnd (config : Config) (t : Thread) (es : List Event) (s : ControlScene) : Prop
  | intro {s₀ s₁ : ControlScene} (hr : Reachable config s₀) (hw : WakesFor t s₀ s₁)
    (h : Chronicle ControlScene.step note (StopWaits t) s₁ es s) : AwaitsEnd config t es s

lemma exists_awaitsEnd {P : ControlScene → Prop}
    (h : Chronicle ControlScene.step note P (fresh config) es s) (hw : StopWaits t s) :
    ∃ es₁ es₂, es = es₁ ++ es₂ ∧ AwaitsEnd config t es₂ s := by
  induction h with
  | refl _ =>
    obtain ⟨a, ha, -⟩ := hw
    cases ha
  | @step es s s' m h hs _ ih =>
    rcases stopWaits_of_step hs hw with hw' | ⟨rfl, hwake⟩
    · obtain ⟨es₁, es₂, rfl, ⟨hr, hwake, hrun⟩⟩ := ih hw'
      exact ⟨es₁, _, List.append_assoc .., hr, hwake, hrun.step m hs hw⟩
    · exact ⟨_, [], (List.append_nil _).symm, Reachable.init.along h.along, hwake, .refl hw⟩

lemma noted_of_step (ho : s.control.Orderly) (h : s.step m = some s') :
    (s.note m s').bind Event.change? = none ∧ s'.control.phase = s.control.phase ∨
      (s.note m s').bind Event.change? = some (s.control.phase, s'.control.phase) := by
  have hadv := (shows_of_step ho h).advance
  generalize s.note m s' = ev at hadv
  cases hadv with
  | rests hp _ _ => exact .inl ⟨rfl, hp⟩
  | turns _ _ _ => exact .inr rfl
  | creates _ _ _ hp _ _ => exact .inl ⟨rfl, hp⟩
  | works _ _ _ hgoes =>
    generalize s.control.phase = p at hgoes ⊢
    generalize s'.control.phase = q at hgoes ⊢
    cases hgoes with
    | opens _ | retires _ | fails _ _ => exact .inr rfl
    | hurries | looks _ | enters _ _ | exits _ _ _ | reports _ | leaves _ => exact .inl ⟨rfl, rfl⟩

/-- A terminated control is started again, or fails if a line has failed that its worker logged. -/
lemma of_terminated (ho : s.control.Orderly) (h : s.step m = some s')
    (hp : s.control.phase = .terminated) :
    s'.control.phase = .terminated ∨ s'.control.phase = .starting ∨ s'.control.phase = .failed := by
  have hadv := (shows_of_step ho h).advance
  generalize s.note m s' = ev at hadv
  cases hadv with
  | rests hsame _ _ => exact .inl (hsame.trans hp)
  | turns hturn _ _ =>
    have hleads := hturn.leadsTo
    rw [hp] at hleads
    generalize s'.control.phase = q at hleads ⊢
    cases q with
    | starting => exact .inr (.inl rfl)
    | new | running | stopping | terminated | failed => cases hleads
  | creates _ _ _ hsame _ _ => exact .inl (hsame.trans hp)
  | works _ _ _ hgoes =>
    rw [hp] at hgoes
    generalize s'.control.phase = q at hgoes ⊢
    cases hgoes with
    | looks hr | enters hr _ | exits _ hr _ => rcases hr with hr | hr <;> cases hr
    | fails _ _ => exact .inr (.inr rfl)
    | leaves _ => exact .inl rfl

/-- **What a run has stored** after it has begun outside the terminated phase: if it ever stored
that phase, it is still there, has failed, or has been started again. -/
structure Ended (es : List Event) (p : Phase) : Prop where
  kept : (∃ q, (q, .terminated) ∈ changes es) →
    p = .terminated ∨ p = .failed ∨ (.terminated, .starting) ∈ changes es
  stored : p = .terminated ∨ (.terminated, .starting) ∈ changes es →
    ∃ q, (q, .terminated) ∈ changes es

lemma Ended.change {es' : List Event} {p q : Phase} (h : Ended es p)
    (hc : changes es' = changes es ++ [(p, q)])
    (ht : p = .terminated → q = .terminated ∨ q = .starting ∨ q = .failed)
    (hf : p = .failed → q = .failed) : Ended es' q := by
  have hlast : (p, q) ∈ changes es' := by simp [hc]
  have hmono : ∀ x, x ∈ changes es → x ∈ changes es' := by
    intro x hx
    simp [hc, hx]
  have hcases : ∀ x, x ∈ changes es' → x ∈ changes es ∨ x = (p, q) := by
    intro x hx
    rwa [hc, List.mem_append, List.mem_singleton] at hx
  constructor
  · rintro ⟨r, hr⟩
    rcases hcases _ hr with hr | hr
    · rcases h.kept ⟨r, hr⟩ with rfl | rfl | hmem
      · rcases ht rfl with rfl | rfl | rfl
        · exact .inl rfl
        · exact .inr (.inr hlast)
        · exact .inr (.inl rfl)
      · exact .inr (.inl (hf rfl))
      · exact .inr (.inr (hmono _ hmem))
    · exact .inl (Prod.mk.inj hr).2.symm
  · rintro (rfl | hmem)
    · exact ⟨p, hlast⟩
    · rcases hcases _ hmem with hmem | hmem
      · obtain ⟨r, hr⟩ := h.stored (.inr hmem)
        exact ⟨r, hmono _ hr⟩
      · obtain ⟨r, hr⟩ := h.stored (.inl (Prod.mk.inj hmem).1.symm)
        exact ⟨r, hmono _ hr⟩

lemma ended_of_run {P : ControlScene → Prop} (hr : Reachable config s)
    (hp : s.control.phase ≠ .terminated) (h : Chronicle ControlScene.step note P s es u) :
    Ended es u.control.phase := by
  induction h with
  | refl _ => exact ⟨nofun, fun h => h.elim (fun h => (hp h).elim) nofun⟩
  | @step es u v m h hs _ ih =>
    have ho := (hr.along h.along).orderly
    rcases noted_of_step ho hs with ⟨hn, hsame⟩ | hn
    · have hc : changes (es ++ (u.note m v).toList) = changes es := by
        rw [changes_append, hn]
        exact List.append_nil _
      constructor
      · rw [hc, hsame]
        exact ih.kept
      · rw [hc, hsame]
        exact ih.stored
    · refine ih.change ?_ (of_terminated ho hs) fun hf => (rests_of_failed ho hs hf).2.1
      rw [changes_append, hn]
      rfl

lemma of_gaveUp {c d : Control} {now : Time} {j j' : Journal} {st : StopStage} {name : String}
    {limit : Int} (h : StopTurn c t now j false st d j')
    (hx : d.result? t = some (.error (.refused (.stopExpired name limit)))) :
    (CallStage.stop false st).stopWaits = true ∧ c.isOver = false := by
  have hself := eq_ended_of_setCall hx
  have hlog : ∀ {e : Failure}, e = Journal.fault →
      CallStage.ended (.error e) ≠ .ended (.error (.refused (.stopExpired name limit))) := by
    rintro _ rfl
    exact nofun
  cases h with
  | @retired _ _ f _ _ _ he hr =>
    subst hr
    have hend := hself _ _ rfl
    cases f with
    | none => cases hend
    | some e => exact (hlog (Journal.eq_fault (Control.enter_cases he).1) hend).elim
  | haltFault _ _ he =>
    exact (hlog (Journal.eq_fault (Control.enter_cases he).1) (hself _ _ rfl)).elim
  | already _ _ | buries _ _ | halted _ _ _ | halts _ _ | buried _ | collects _ _ _ | waits _ _ _ =>
    cases hself _ _ rfl
  | expired _ _ hp => exact ⟨rfl, hp⟩
  | @collected e _ =>
    generalize hd : (e.concludeStop t false j).1 = d at hself
    unfold Control.concludeStop at hd
    split at hd
    · cases hself _ _ hd.symm
    · split at hd
      · cases hself _ _ hd.symm
      · rename_i hl
        exact (hlog (Journal.eq_fault hl) (hself _ _ hd.symm)).elim

/-- A stop that returns leaves the terminated phase behind, and no worker, unless it has found that
phase and has not looked further. -/
lemma of_stopped {c d : Control} {now : Time} {j j' : Journal} {st : StopStage} (ho : c.Orderly)
    (ht : c.calls.get? t = some (.stop false st)) (h : StopTurn c t now j false st d j')
    (hok : d.result? t = some (.ok ())) :
    d.phase = .terminated ∧ d.workers = c.workers ∧
      (c.Vacant ∨ st = .entering ∧ c.phase = .terminated) := by
  have hself := eq_ended_of_setCall hok
  cases h with
  | retired _ hp he _ =>
    obtain ⟨hp', -, -, hw, -, -, -⟩ := Control.enter_frame he
    exact ⟨hp', hw, .inl (ho.vacant_of_new hp)⟩
  | already _ hp => exact ⟨hp, rfl, .inr ⟨rfl, hp⟩⟩
  | buries _ _ | halted _ _ _ | haltFault _ _ _ | halts _ _ | buried _ | collects _ _ _
  | expired _ _ _ | waits _ _ _ => cases hself _ _ rfl
  | @collected e hd =>
    obtain ⟨hp, -, hw, -, -, -, -⟩ := Control.join_frame hd
    have hfit : c.phase = .terminated ∨ c.phase = .failed := ho.guarded.suited _ _ ht
    have hv : c.Vacant := ho.vacant_of_join ht
      (by rcases hfit with h | h <;> rw [h] <;> exact ⟨nofun, nofun⟩) hd
    have hnf : e.phase ≠ .failed := by
      intro hf
      have hend : (e.concludeStop t false j).1 = e.finishStop t false
          (.error (.refused (.stopFailed e.config.name (Failure.describe? e.cause)))) := by
        rw [Control.concludeStop, if_pos hf]
      cases hself _ _ hend
    obtain ⟨r, hr⟩ := Control.concludeStop_eq e t false j
    rw [hr]
    refine ⟨?_, hw, .inl hv⟩
    exact hp.trans (hfit.resolve_right (hp ▸ hnf))

lemma phase_of_wakes (ho : s.control.Orderly) (h : WakesFor t s s') :
    s'.control.phase = .stopping := by
  have hp : s.control.phase = .stopping := ho.guarded.suited _ _ h.1
  obtain ⟨⟨closing, -, hd, -⟩ | ⟨a, ha, hturn⟩, -⟩ := step_call h.2
  · rw [hd]
    exact hp
  · obtain rfl := Option.some.inj (h.1.symm.trans ha)
    cases hturn with
    | stop hturn => nomatch hturn

lemma eq_leaving_of_fits {w : WorkerStage} (h : w.fits .terminated) (hf : ∀ e, w ≠ .failing e)
    (hp : w.present = true) : w = .leaving := by
  cases w with
  | leaving => rfl
  | failing e => exact (hf e rfl).elim
  | finished => cases hp
  | created | looking | retiring | reporting _ | aborted => simp [WorkerStage.fits] at h
  | entering last | cycling last => cases last <;> simp [WorkerStage.fits] at h

/-- No worker has met a fault. -/
def Unbroken (s : ControlScene) : Prop := ∀ w ∈ s.control.workers, w.fault? = none

/-- **A stop that gives up or returns.** It gives up though the worker has ended the writer exactly
if the writer was started again meanwhile. When it returns, the writer is terminated and all workers
are gone; only a stop that finds the writer terminated does not look whether the last worker has got
past its last step. -/
theorem stopped_of_run (h : Chronicle ControlScene.step note Unbroken (fresh config) es s)
    {st : StopStage} (ht : s.control.calls.get? t = some (.stop false st))
    (hs : s.step (.call t) = some s') :
    (∀ name limit,
      s'.control.result? t = some (.error (.refused (.stopExpired name limit))) →
        ∃ es₁ es₂, es = es₁ ++ es₂ ∧ AwaitsEnd config t es₂ s ∧
          ((∃ q, (q, .terminated) ∈ changes es₂) ↔ (.terminated, .starting) ∈ changes es₂)) ∧
    (s'.control.result? t = some (.ok ()) → s'.control.phase = .terminated ∧
      ((∀ n w, s'.control.worker? n = some w → w = .finished) ∨
        st = .entering ∧ s.control.phase = .terminated ∧
          ∀ n w, s'.control.worker? n = some w → w = .leaving ∨ w = .finished)) := by
  have hr : Reachable config s := Reachable.init.along h.along
  have hturn : ∀ r, s'.control.result? t = some r →
      StopTurn s.control t s.now s.journal false st s'.control s'.journal := by
    intro r hres
    obtain ⟨⟨closing, -, hd, -⟩ | ⟨a, ha, hturn⟩, -⟩ := step_call hs
    · cases eq_ended_of_setCall hres _ _ hd
    · obtain rfl := Option.some.inj (ht.symm.trans ha)
      cases hturn with
      | stop hturn => exact hturn
  refine ⟨fun name limit hx => ?_, fun hok => ?_⟩
  · obtain ⟨hwaits, hover⟩ := of_gaveUp (hturn _ hx) hx
    obtain ⟨es₁, es₂, hes, hawaits⟩ := exists_awaitsEnd h ⟨_, ht, hwaits⟩
    refine ⟨es₁, es₂, hes, hawaits, ?_⟩
    obtain ⟨hr₀, hwake, hrun⟩ := hawaits
    have hend := ended_of_run (hr₀.step _ hwake.2) (by
      rw [phase_of_wakes hr₀.orderly hwake]
      exact nofun) hrun
    -- the stop has found neither of these, so that only a start can have come after the end
    have hno : ¬ (s.control.phase = .terminated ∨ s.control.phase = .failed) := fun hp =>
      Bool.false_ne_true (hover.symm.trans (Control.isOver_iff.mpr hp))
    refine ⟨fun hst => ?_, fun hmem => hend.stored (.inr hmem)⟩
    rcases hend.kept hst with hp | hp | hmem
    · exact (hno (.inl hp)).elim
    · exact (hno (.inr hp)).elim
    · exact hmem
  · obtain ⟨hp, hw, hcases⟩ := of_stopped hr.orderly ht (hturn _ hok) hok
    have hsame : ∀ n, s'.control.worker? n = s.control.worker? n := fun n =>
      congrArg (·[n]?) hw
    refine ⟨hp, hcases.imp (fun hv n w hn => hv n w (hsame n ▸ hn)) fun ⟨hst, hterm⟩ =>
      ⟨hst, hterm, fun n w hn => ?_⟩⟩
    rw [hsame] at hn
    cases hpres : w.present with
    | false => exact .inr (WorkerStage.eq_finished hpres)
    | true =>
      have hfit := hr.orderly.staffed.fits_of_present hn hpres
      rw [hterm] at hfit
      refine .inl (eq_leaving_of_fits hfit (fun e he => ?_) hpres)
      have hfault := h.along.holds w (List.mem_of_getElem? hn)
      rw [he] at hfault
      cases hfault

/-- The test for a stop of `t` that waits while no worker has met a fault. -/
def waitsUnbroken (t : Thread) (s : ControlScene) : Bool :=
  (s.control.calls.get? t).any CallStage.stopWaits && s.control.workers.all (·.fault?.isNone)

lemma of_waitsUnbroken (h : waitsUnbroken t s = true) : StopWaits t s ∧ Unbroken s := by
  obtain ⟨ha, hw⟩ := (Bool.and_eq_true ..).mp h
  exact ⟨(Option.any_eq_true ..).mp ha, fun w hm =>
    Option.isNone_iff_eq_none.mp (List.all_eq_true.mp hw w hm)⟩

lemma exists_unbroken {α : Type} {f : List Event → ControlScene → α} {x : α} (ms : List Move)
    (h : (record ControlScene.step note (·.control.workers.all (·.fault?.isNone)) s ms).map
      (fun r => f r.1 r.2) = some x) :
    ∃ es u, Chronicle ControlScene.step note Unbroken s es u ∧ f es u = x := by
  obtain ⟨es, u, hrun, hf⟩ := exists_chronicle ms h
  exact ⟨es, u, hrun.mono fun _ hu w hw =>
    Option.isNone_iff_eq_none.mp (List.all_eq_true.mp hu w hw), hf⟩

/-- A start, and a stop that is woken by the end of the worker. -/
def awaitedStop : List Move :=
  stopInCycle ++ [.work 0, .call (.client 1)]

theorem stopped_awaitedStop : ∃ es s s',
    Chronicle ControlScene.step note Unbroken (fresh {}) es s ∧
      s.step (.call (.client 1)) = some s' ∧ s'.control.result? (.client 1) = some (.ok ()) ∧
        s'.control.phase = .terminated ∧
          ∀ n w, s'.control.worker? n = some w → w = .finished := by
  obtain ⟨es, s, h, hf⟩ : ∃ es s, Chronicle ControlScene.step note Unbroken (fresh {}) es s ∧
      (s.control.calls.get? (.client 1),
        (s.step (.call (.client 1))).map fun u => u.control.result? (.client 1)) =
      (some (.stop false .collecting), some (some (.ok ()))) :=
    exists_unbroken awaitedStop rfl
  obtain ⟨ht, hs⟩ := Prod.mk.inj hf
  obtain ⟨s', hs, hok⟩ := Option.map_eq_some_iff.mp hs
  obtain ⟨hp, hw⟩ := (stopped_of_run h ht hs).2 hok
  exact ⟨es, s, s', h, hs, hok, hp, hw.resolve_right fun ⟨hst, _⟩ => nomatch hst⟩

/-- A start, and a stop about to wake the worker in its first cycle. -/
def wakingStop : List Move :=
  [.start (.client 0) true, .call (.client 0), .call (.client 0), .call (.client 0), .work 0,
    .call (.client 0), .work 0, .work 0, .stop (.client 1), .call (.client 1)]

/-- The end of a worker, and a start before the stop that has waited for that end gets the lock. -/
def restartedMeanwhile : List Move :=
  [.endCycle 0 none, .work 0, .work 0, .endCycle 0 none, .work 0, .work 0, .start (.client 2) true,
    .call (.client 2), .call (.client 2), .call (.client 2), .pass 30000000000]

def restartedEvents : List Event :=
  [.left 0 none, .entered 0 true 0, .left 0 none, .reached 0 .stopping .terminated,
    .turned (.client 2) .terminated .starting, .created (.client 2) 1]

/-- **A stop can give up on a worker that has ended in time.** The writer has been started again
before the stop, told to look again, has got the lock. -/
theorem stop_misses_end : (∃ es s₀ s₁ s₂ s₃,
      Chronicle ControlScene.step note Unbroken (fresh {}) es s₀ ∧ WakesFor (.client 1) s₀ s₁ ∧
        Chronicle ControlScene.step note (fun u => StopWaits (.client 1) u ∧ Unbroken u) s₁
          restartedEvents s₂ ∧
        s₂.step (.call (.client 1)) = some s₃ ∧ s₃.control.result? (.client 1) =
          some (.error (.refused (.stopExpired "writer" 30000)))) ∧
    .reached 0 .stopping .terminated ∈ restartedEvents := by
  obtain ⟨es, s₀, h₀, hf⟩ : ∃ es s₀, Chronicle ControlScene.step note Unbroken (fresh {}) es s₀ ∧
      (s₀.control.calls.get? (.client 1), (s₀.step (.call (.client 1))).bind fun s₁ =>
        (record ControlScene.step note (waitsUnbroken (.client 1)) s₁ restartedMeanwhile).map
          fun r => (r.1, (r.2.step (.call (.client 1))).map
            fun s₃ => s₃.control.result? (.client 1))) =
      (some (.stop false .waking), some (restartedEvents,
        some (some (.error (.refused (.stopExpired "writer" 30000)))))) :=
    exists_unbroken wakingStop rfl
  obtain ⟨ht, hf⟩ := Prod.mk.inj hf
  obtain ⟨s₁, h₁, hf⟩ := Option.bind_eq_some_iff.mp hf
  obtain ⟨⟨es₂, s₂⟩, h₂, hf⟩ := Option.map_eq_some_iff.mp hf
  obtain ⟨rfl, hf⟩ := Prod.mk.inj hf
  obtain ⟨s₃, h₃, hx⟩ := Option.map_eq_some_iff.mp hf
  refine ⟨⟨es, s₀, s₁, s₂, s₃, h₀, ⟨ht, h₁⟩, ?_, h₃, hx⟩, by simp [restartedEvents]⟩
  exact (chronicle_of_record h₂).mono fun u hu => of_waitsUnbroken hu

end ControlScene

end SerialWriter
