import SerialWriter.Proofs.Control.Destruction
import SerialWriter.Proofs.Control.Life

/-!
Who mans an active phase. Outside starts and stops it is the worker, whatever lines of the log fail,
with one exception: a start that the failure of its line breaks off just after it has entered the
starting phase leaves that phase with nobody to leave it, and the control is stranded.
-/

namespace SerialWriter

def CallStage.steers : CallStage → Bool
  | .start _ _ | .stop _ _ => true
  | .destroy _ | .ended _ => false

/-- The steps that a worker has before it until it ends the writer, if its next cycle breaks. -/
def WorkerStage.toBreak : WorkerStage → Nat
  | .created => 4
  | .looking => 3
  | .entering _ => 2
  | .cycling _ => 1
  | _ => 0

lemma WorkerStage.ahead_ne_zero {w : WorkerStage} {p : Phase} (h : w.fits p)
    (hp : p.active = true) : w.ahead ≠ 0 := by
  intro h0
  cases w with
  | created | looking | retiring | failing _ => cases h0
  | entering last | cycling last => cases last <;> cases h0
  | reporting _ | aborted =>
    rw [show p = .failed from h] at hp
    cases hp
  | leaving | finished => rcases h with rfl | rfl <;> cases hp

lemma WorkerStage.Goes.nearerBreak {n : Nat} {idle : Int} {quiet : Prop} {w w' : WorkerStage}
    {p q : Phase} {ev : Option ControlScene.Event} (h : w.Goes n idle quiet p ev w' q)
    (hc : ∀ last, w ≠ .cycling last) (hp : p.active = true) :
    (q = .terminated ∨ q = .failed) ∨
      w'.toBreak < w.toBreak ∧ q.active = true ∧ w' ≠ .finished := by
  cases h with
  | @opens f _ =>
    cases f with
    | none => exact .inr ⟨Nat.lt_succ_self 3, rfl, nofun⟩
    | some _ => exact .inr ⟨Nat.zero_lt_succ 3, rfl, nofun⟩
  | hurries | looks _ | enters _ _ => exact .inr ⟨Nat.lt_succ_self _, hp, nofun⟩
  | exits _ _ _ => exact (hc _ rfl).elim
  | retires _ => exact .inl (.inl rfl)
  | fails _ _ | reports _ => exact .inl (.inr rfl)
  | leaves hq => exact .inl hq

namespace Control

/-- **A worker thread is there that has not ended.** -/
def Manned (c : Control) : Prop :=
  ∃ n w, c.worker? n = some w ∧ w ≠ .finished ∧ w ≠ .aborted

/-- A start of `t` is about to create the worker. -/
def Hires (c : Control) (t : Thread) : Prop := ∃ b, c.calls.get? t = some (.start b .spawning)

/-- An active phase has a worker, or a start that is about to create it. -/
def Crewed (c : Control) : Prop := c.phase.active = true → c.Manned ∨ ∃ t, c.Hires t

/-- **The control is stranded**: nobody will ever leave the phase but for the stopping phase. -/
structure Stranded (c : Control) : Prop where
  phase : c.phase = .starting ∨ c.phase = .stopping
  nobody : c.joinable = none
  calm : ∀ t a, c.calls.get? t = some a → a.building = false

variable {c d : Control} {t : Thread} {now : Time} {j j' : Journal} {ev : Option ControlScene.Event}

lemma Orderly.manned_of_fits (ho : c.Orderly) (hp : c.phase.active = true) {n : Nat}
    (hn : c.joinable = some n) : c.Manned := by
  obtain ⟨w, hw⟩ : ∃ w, c.worker? n = some w :=
    ⟨_, List.getElem?_eq_getElem (ho.staffed.known n hn)⟩
  have hfit := ho.staffed.suited n w hn hw
  refine ⟨n, w, hw, ?_, ?_⟩
  · rintro rfl
    rcases hfit with h | h <;> rw [h] at hp <;> cases hp
  · rintro rfl
    rw [show c.phase = .failed from hfit] at hp
    cases hp

lemma Orderly.manned_iff (ho : c.Orderly) (hp : c.phase.active = true) :
    c.Manned ↔ c.joinable ≠ none := by
  constructor
  · rintro ⟨n, w, hw, hfin, -⟩ hj
    exact hfin (ho.staffed.vacant hj hw)
  · intro hj
    obtain ⟨n, hn⟩ := Option.ne_none_iff_exists'.mp hj
    exact ho.manned_of_fits hp hn

/-! ### One step of a stranded control -/

theorem Stranded.step (h : c.Stranded) (ho : c.Orderly) (hs : c.Step now j d j') :
    d.Stranded := by
  have hnew : ¬ (c.phase = .new ∨ c.phase = .terminated) := by
    rcases h.phase with hp | hp <;> rw [hp] <;> rintro (hn | hn) <;> cases hn
  refine ⟨?_, ?_, fun t a ha => Bool.eq_false_iff.mpr fun hb => ?_⟩
  · obtain ⟨ev, ha⟩ := ho.advance hs
    cases ha with
    | rests hp _ _ => exact hp ▸ h.phase
    | turns hturn _ _ =>
      generalize d.phase = q at hturn ⊢
      cases hturn with
      | starts hp _ => exact (hnew hp).elim
      | retires hp _ => exact (hnew (.inl hp)).elim
      | halts _ => exact .inr rfl
      | denied hc _ _ => cases h.calm _ _ hc
    | creates hc _ _ _ _ _ => cases h.calm _ _ hc
    | works hw _ _ hgoes =>
      have hn := ho.staffed.lone _ _ hw hgoes.present
      rw [h.nobody] at hn
      cases hn
  · rcases hs.workers with hk | hk | ⟨hk, -, -⟩
    · rcases hk.joinable with hj | ⟨_, -, -, hj⟩
      · exact hj.trans h.nobody
      · exact hj
    · obtain ⟨u, hu⟩ := hk.stage
      cases h.calm _ _ hu
    · exact hk.trans h.nobody
  · rcases hs.building ha hb with ⟨b, hbc, hbb⟩ | hp
    · rw [h.calm t b hbc] at hbb
      cases hbb
    · exact hnew hp

/-! ### One step of a crewed control -/

lemma ne_ended_of_goes {n : Nat} {idle : Int} {quiet : Prop} {w w' : WorkerStage} {p q : Phase}
    (h : w.Goes n idle quiet p ev w' q) (hq : q.active = true) :
    w' ≠ .finished ∧ w' ≠ .aborted := by
  cases h with
  | @opens f _ => cases f <;> exact ⟨nofun, nofun⟩
  | @exits _ last e _ _ => cases e <;> cases last <;> exact ⟨nofun, nofun⟩
  | hurries | looks _ | enters _ _ => exact ⟨nofun, nofun⟩
  | retires _ | fails _ _ | reports _ => cases hq
  | leaves hp => rcases hp with rfl | rfl <;> cases hq

/-- The worker of an active phase stays until that phase is left. -/
lemma Manned.advance (h : c.Manned) (hd : d.phase.active = true) (ha : c.Advance j ev d) :
    d.Manned := by
  obtain ⟨n, w, hw, hfin, hab⟩ := h
  have hsame : d.workers = c.workers → d.Manned := fun hs =>
    ⟨n, w, (congrArg (·[n]?) hs).trans hw, hfin, hab⟩
  cases ha with
  | rests _ hs _ => exact hsame hs
  | turns _ hs _ => exact hsame hs
  | creates _ _ _ _ hs _ => exact ⟨n, w, worker?_append hs hw, hfin, hab⟩
  | @works _ k v v' _ hv hs _ hgoes =>
    obtain ⟨hfin', hab'⟩ := ne_ended_of_goes hgoes hd
    exact ⟨k, v', worker?_set_self hs hv, hfin', hab'⟩

lemma Hires.step (h : c.Hires t) (ho : c.Orderly) (hd : d.phase.active = true)
    (hs : c.Step now j d j') : d.Manned ∨ ∃ u, d.Hires u := by
  obtain ⟨b, hb⟩ := h
  rcases hs.own_or_keepsHeld ho (ho.guarded.held t _ hb rfl) hb with hturn | ⟨_, hturn⟩ | hkeep
  · cases hturn with
    | start hturn =>
      cases hturn with
      | spawned _ =>
        exact .inl ⟨c.workers.length, .created, List.getElem?_concat_length, nofun, nofun⟩
      | @unmanned e _ _ _ _ he _ =>
        have hp : e.phase = .failed := (enter_frame he).1
        rw [show (e.finish t _).phase = .failed from hp] at hd
        cases hd
  · cases hturn
  · exact .inr ⟨t, b, hkeep.call.trans hb⟩

/-- **The start that begins an active phase**: it goes on to create the worker, or its line has
failed, and nothing comes of it. -/
inductive Launches (c : Control) (t : Thread) (j : Journal) (d : Control) (j' : Journal) : Prop
  | hires (h : d.Hires t)
  | breaks (hd : d.calls.get? t = some (.ended (.error Journal.fault))) (hp : d.phase = .starting)
      (hh : d.holder = none) (hn : d.joinable = none)
      (hl : j'.entries = (t, .moved c.config.name c.phase .starting) :: j.entries)

lemma launches_of_launching (ho : c.Orderly) {b : Bool}
    (hc : c.calls.get? t = some (.start b .launching))
    (h : StartTurn c t now j b .launching d j') : c.Launches t j d j' := by
  cases h with
  | launched _ _ => exact .hires ⟨b, Roster.get?_put_self ..⟩
  | @launchFault b' d' _ e hd he =>
    obtain ⟨hp, -, hj, -, -, -, -⟩ := enter_frame he
    obtain ⟨hl, -⟩ := enter_cases he
    obtain ⟨hbp, -, -, -, hbg, -, -⟩ := join_frame hd
    obtain rfl := Journal.eq_fault hl
    refine .breaks (Roster.get?_put_self ..) hp rfl (hj.trans (ho.joinable_of_launching hc hd)) ?_
    rw [← hbg, ← hbp, ← Journal.log_entries, hl]

lemma launching_of_turn {a : CallStage} (h : CallTurn c t now j a d j')
    (hc : c.phase.active = false) (hd : d.phase.active = true) :
    ∃ b, a = .start b .launching := by
  have hsame : d.phase ≠ c.phase := fun hp => by
    rw [hp, hc] at hd
    cases hd
  -- what is left are the turns that change the phase
  cases h with
  | start h =>
    cases h with
    | launched _ _ | launchFault _ _ => exact ⟨_, rfl⟩
    | @unmanned e _ _ _ _ he _ =>
      have hp : e.phase = .failed := (enter_frame he).1
      rw [show (e.finish t _).phase = .failed from hp] at hd
      cases hd
    | refused _ _ | admitted _ _ | spawned _ | expired _ _ _ | waits _ _ _ =>
      exact (hsame rfl).elim
    | concluded _ _ _ =>
      obtain ⟨r, hr⟩ := concludeStart_eq c t j
      rw [hr] at hsame
      exact (hsame rfl).elim
  | stop h =>
    cases h with
    | @retired e _ _ r _ _ he _ =>
      have hp : e.phase = .terminated := (enter_frame he).1
      rw [finishStop_eq, show (e.unlock.setCall t _).phase = .terminated from hp] at hd
      cases hd
    | halted _ hp _ | haltFault _ hp _ => rcases hp with hp | hp <;> rw [hp] at hc <;> cases hc
    | already _ _ | expired _ _ _ =>
      rw [finishStop_eq] at hsame
      exact (hsame rfl).elim
    | buries _ _ | halts _ _ | collects _ _ _ | waits _ _ _ => exact (hsame rfl).elim
    | buried hj =>
      rw [finishStop_eq] at hsame
      exact (hsame (join_frame hj).1).elim
    | @collected e hj =>
      obtain ⟨r, hr⟩ := concludeStop_eq e t _ j
      rw [hr] at hsame
      exact (hsame (join_frame hj).1).elim
  | destroy h =>
    cases h with
    | stops _ | skips _ | reported _ | locks _ => exact (hsame rfl).elim
    | joined hj => exact (hsame (join_frame hj).1).elim

lemma active_of_goes {n : Nat} {idle : Int} {quiet : Prop} {w w' : WorkerStage} {p q : Phase}
    (h : w.Goes n idle quiet p ev w' q) (hq : q.active = true) : p.active = true := by
  cases h with
  | opens _ | hurries => rfl
  | looks hp | enters hp _ | exits _ hp _ => rcases hp with rfl | rfl <;> rfl
  | retires _ | fails _ _ | reports _ => cases hq
  | leaves _ => exact hq

end Control

namespace ControlScene

variable {config : Config} {s s' u : ControlScene} {m : Move} {t : Thread} {es : List Thread}

/-! ### Broken starts -/

/-- **The start that a move breaks off**: it was about to enter the starting phase, and now it is
over. -/
def brokenStart (s : ControlScene) (m : Move) (s' : ControlScene) : Option Thread :=
  match m with
  | .call t =>
    match s.control.calls.get? t, s'.control.calls.get? t with
    | some (.start _ .launching), some (.ended _) => some t
    | _, _ => none
  | _ => none

lemma launches_of_step (hr : Reachable config s) (hs : s.step (.call t) = some s') {b : Bool}
    (hc : s.control.calls.get? t = some (.start b .launching)) :
    s.control.Launches t s.journal s'.control s'.journal := by
  obtain ⟨⟨_, hw, -⟩ | ⟨a, ha, hturn⟩, -⟩ := step_call hs
  · rw [hc] at hw
    cases hw
  · rw [hc, Option.some.injEq] at ha
    subst ha
    cases hturn with
    | start hturn => exact Control.launches_of_launching hr.orderly hc hturn

/-- **What a broken start leaves behind**: its line is in the log, it has ended with the fault of
that line, and the phase is starting. -/
lemma breaks_of_brokenStart (hr : Reachable config s) (hs : s.step m = some s')
    (hb : s.brokenStart m s' = some t) :
    s'.control.calls.get? t = some (.ended (.error Journal.fault)) ∧ s'.control.Stranded ∧
      s'.control.phase = .starting ∧ s'.journal.entries =
        (t, .moved s.control.config.name s.control.phase .starting) :: s.journal.entries := by
  unfold brokenStart at hb
  split at hb
  · split at hb
    · rename_i hc hd
      cases hb
      cases launches_of_step hr hs hc with
      | hires h =>
        obtain ⟨b, h⟩ := h
        rw [hd] at h
        cases h
      | breaks hd hp hh hn hl =>
        refine ⟨hd, ⟨.inl hp, hn, fun u a ha => Bool.eq_false_iff.mpr fun hb => ?_⟩, hp, hl⟩
        -- a start on its way to create a worker would hold the lock
        have hheld := (hr.step _ hs).orderly.guarded.held u a ha (Control.holds_of_building hb)
        rw [hh] at hheld
        cases hheld
    · cases hb
  · cases hb

/-- A move that breaks off no start leaves an active phase with a worker, or with a start about to
create it. -/
lemma crewed_of_step (hr : Reachable config s) (h : s.control.Crewed) (hs : s.step m = some s')
    (hb : s.brokenStart m s' = none) : s'.control.Crewed := by
  intro hd
  have hadv := (shows_of_step hr.orderly hs).advance
  cases hc : s.control.phase.active with
  | true =>
    rcases h hc with hman | ⟨t, ht⟩
    · exact .inl (hman.advance hd hadv)
    · rcases step_cases hs with ⟨_, -, rfl⟩ | ⟨_, -, rfl⟩ | ⟨hstep, -⟩
      · exact .inr ⟨t, ht⟩
      · exact .inr ⟨t, ht⟩
      · exact ht.step hr.orderly hd hstep
  | false =>
    -- the active phase has just begun, and only a start begins one
    have hsame : s'.control.phase ≠ s.control.phase := fun hp => by
      rw [hp, hc] at hd
      cases hd
    generalize hn : s.note m s' = ev at hadv
    cases hadv with
    | rests hp _ _ => exact (hsame hp).elim
    | creates _ _ _ hp _ _ => exact (hsame hp).elim
    | works _ _ _ hgoes =>
      rw [Control.active_of_goes hgoes hd] at hc
      cases hc
    | @turns _ t _ _ _ =>
      obtain ⟨rfl, -, -⟩ := call_of_turned hn
      obtain ⟨⟨_, -, hw, -⟩ | ⟨a, ha, hturn⟩, -⟩ := step_call hs
      · rw [hw] at hsame
        exact (hsame rfl).elim
      · obtain ⟨b, rfl⟩ := Control.launching_of_turn hturn hc hd
        cases launches_of_step hr hs ha with
        | hires h => exact .inr ⟨t, h⟩
        | breaks hended _ _ _ _ =>
          simp only [brokenStart, ha, hended] at hb
          cases hb

lemma stranded_of_step (hr : Reachable config s) (h : s.control.Stranded)
    (hs : s.step m = some s') : s'.control.Stranded := by
  rcases step_cases hs with ⟨_, -, rfl⟩ | ⟨_, -, rfl⟩ | ⟨hstep, -⟩
  · exact h
  · exact h
  · exact h.step hr.orderly hstep

/-- **Every run** leaves the control crewed if it has broken off no start, and stranded if it has
broken off one. -/
theorem crewed_of_run (h : Chronicle ControlScene.step brokenStart (fun _ => True) (fresh config)
    es s) : (es = [] → s.control.Crewed) ∧ (es ≠ [] → s.control.Stranded) := by
  induction h with
  | refl _ => exact ⟨fun _ => nofun, fun hne => (hne rfl).elim⟩
  | @step es s s' m h hs _ ih =>
    have hr : Reachable config s := Reachable.init.along h.along
    by_cases hes : es = []
    · subst hes
      cases hb : s.brokenStart m s' with
      | none => exact ⟨fun _ => crewed_of_step hr (ih.1 rfl) hs hb, fun hne => (hne rfl).elim⟩
      | some t => exact ⟨nofun, fun _ => (breaks_of_brokenStart hr hs hb).2.1⟩
    · exact ⟨fun hnil => (hes (List.append_eq_nil_iff.mp hnil).1).elim,
        fun _ => stranded_of_step hr (ih.2 hes) hs⟩

lemma stranded_along {P : ControlScene → Prop} (hr : Reachable config s)
    (h : s.control.Stranded) (hu : Along ControlScene.step P s u) : u.control.Stranded := by
  induction hu with
  | refl _ => exact h
  | step m hu hs _ ih => exact stranded_of_step (hr.along hu) ih hs

/-! ### The way to an end -/

/-- No call is in progress. -/
def Idle (s : ControlScene) : Prop :=
  ∀ t a, s.control.calls.get? t = some a → ∃ r, a = .ended r

lemma Idle.free (h : s.Idle) (ho : s.control.Orderly) : s.control.holder = none := by
  refine Option.eq_none_iff_forall_ne_some.mpr fun t ht => ?_
  obtain ⟨a, ha, hh⟩ := ho.guarded.keeper t ht
  obtain ⟨r, rfl⟩ := h t a ha
  cases hh

lemma Idle.rouses (h : s.Idle) (hr : Rouses s.control s'.control) : s'.Idle := by
  intro t a ha
  rcases hr t with hsame | hsame
  · exact h t a (hsame ▸ ha)
  · rw [hsame] at ha
    obtain ⟨b, hb, rfl⟩ := Option.map_eq_some_iff.mp ha
    obtain ⟨r, rfl⟩ := h t b hb
    exact ⟨r, rfl⟩

lemma Idle.goes (h : s.Idle) (hr : Reachable config s) {n : Nat} {w : WorkerStage}
    (hw : s.control.worker? n = some w) (hc : ∀ last, w ≠ .cycling last) (ha : w.ahead ≠ 0) :
    ∃ s' w' ev, s.step (.work n) = some s' ∧ s'.Idle ∧ s'.control.worker? n = some w' ∧
      w.Goes n s.control.config.idleDelay (s.journal.armed = none) s.control.phase ev w'
        s'.control.phase := by
  obtain ⟨s', w', hs, hw', hgoes, hrouses, -⟩ := exists_worked hr (h.free hr.orderly) hw hc ha
  exact ⟨s', w', _, hs, h.rouses hrouses, hw', hgoes⟩

lemma Idle.breaks (h : s.Idle) {n : Nat} {last : Bool}
    (hw : s.control.worker? n = some (.cycling last)) (e : Failure) :
    ∃ u, Along ControlScene.step (fun _ => True) s u ∧ u.Idle ∧
      u.control.worker? n = some (.failing e) ∧ u.control.phase = s.control.phase := by
  have hend : ∀ v : ControlScene, v.control.calls.get? (.worker n) = none →
      v.control.worker? n = some (.cycling last) → v.step (.endCycle n (some e)) =
        some { v with control := v.control.setWorker n (.failing e) } := by
    intro v hv hvw
    simp only [step, Control.endCycle_eq hvw, Control.budget?_isSome_iff.mpr ⟨last, hvw⟩, hv,
      Option.isNone_none, true_and, if_true]
    rfl
  cases hc : s.control.calls.get? (.worker n) with
  | none =>
    exact ⟨_, .step _ (.refl trivial) (hend s hc hw) trivial, h, Control.worker?_set_self rfl hw,
      rfl⟩
  | some a =>
    -- the task has yet to see the result of its call
    obtain ⟨r, rfl⟩ := h _ a hc
    let v : ControlScene := { s with control := s.control.acknowledge (.worker n) }
    have hv : s.step (.acknowledge (.worker n)) = some v := by
      simp only [step, Control.result?_eq_some_iff.mpr hc, Option.isSome_some, if_true, v]
    have hvc : v.control.calls.get? (.worker n) = none := by
      simp only [v, Control.acknowledge, Roster.get?_drop, if_true]
    refine ⟨_, .step _ (.step _ (.refl trivial) hv trivial) (hend v hvc hw) trivial,
      fun t a ha => ?_, Control.worker?_set_self rfl hw, rfl⟩
    change (s.control.calls.drop (.worker n)).get? t = some a at ha
    rw [Roster.get?_drop, Option.ite_none_left_eq_some] at ha
    exact h t a ha.2

/-- **A worker in an active phase can always bring the writer to an end**: if nothing else, its next
cycle can break. -/
theorem Idle.exists_over (h : s.Idle) (hr : Reachable config s) {n : Nat} {w : WorkerStage}
    (hw : s.control.worker? n = some w) (hfin : w ≠ .finished)
    (hp : s.control.phase.active = true) :
    ∃ u, Along ControlScene.step (fun _ => True) s u ∧
      (u.control.phase = .terminated ∨ u.control.phase = .failed) := by
  induction hk : w.toBreak using Nat.strongRecOn generalizing s w with
  | ind k ih =>
    subst hk
    have hfit := hr.orderly.staffed.fits_of_present hw
      (Bool.not_eq_false _ ▸ fun hf => hfin (WorkerStage.eq_finished hf))
    by_cases hc : ∃ last, w = .cycling last
    · obtain ⟨last, rfl⟩ := hc
      obtain ⟨v, hv, hidle, hvw, hvp⟩ := h.breaks hw (.number 0)
      obtain ⟨u, hu, hover⟩ := ih _ Nat.zero_lt_one hidle (hr.along hv) hvw nofun (hvp ▸ hp) rfl
      exact ⟨u, hv.trans hu, hover⟩
    · have hcycle : ∀ last, w ≠ .cycling last := fun last hl => hc ⟨last, hl⟩
      obtain ⟨v, w', ev, hs, hidle, hvw, hgoes⟩ :=
        h.goes hr hw hcycle (WorkerStage.ahead_ne_zero hfit hp)
      have hv := Along.step (P := fun _ => True) _ (.refl trivial) hs trivial
      rcases hgoes.nearerBreak hcycle hp with hover | ⟨hlt, hq, hfin'⟩
      · exact ⟨v, hv, hover⟩
      · obtain ⟨u, hu, hover⟩ := ih _ hlt hidle (hr.along hv) hvw hfin' hq rfl
        exact ⟨u, hv.trans hu, hover⟩

/-! ### Every run -/

/-- **Who mans the phase** at the end of a run that has broken off these starts. -/
structure Staffs (starts : List Thread) (s : ControlScene) : Prop where
  /-- Outside starts and stops, an active phase has a worker exactly if no start was broken off. -/
  manned : (∀ t a, s.control.calls.get? t = some a → a.steers = false) →
    s.control.phase.active = true → (s.control.Manned ↔ starts = [])
  /-- A start is broken off by the fault of its line, and leaves the starting phase behind. -/
  breaks : ∀ m s' t, s.step m = some s' → s.brokenStart m s' = some t →
    s'.control.result? t = some (.error Journal.fault) ∧ s'.control.phase = .starting ∧
      s'.journal.entries =
        (t, .moved s.control.config.name s.control.phase .starting) :: s.journal.entries
  /-- With a worker, the writer can be brought to an end. -/
  ends : starts = [] → s.Idle → s.control.phase.active = true →
    ∃ u, Along ControlScene.step (fun _ => True) s u ∧
      (u.control.phase = .terminated ∨ u.control.phase = .failed)
  /-- After a broken start it never comes to an end, and nobody runs. -/
  stranded : starts ≠ [] → ∀ u, Along ControlScene.step (fun _ => True) s u →
    (u.control.phase = .starting ∨ u.control.phase = .stopping) ∧
      ∀ n w, u.control.worker? n = some w → w = .finished

/-- **An active phase has a worker unless the log has broken off the start that began it**, whatever
calls are made, whichever lines of the log fail, and whatever becomes of the cycles. -/
theorem staffs_of_run {starts : List Thread} (h : Chronicle ControlScene.step brokenStart
    (fun _ => True) (fresh config) starts s) : Staffs starts s := by
  have hr : Reachable config s := Reachable.init.along h.along
  obtain ⟨hcrewed, hstranded⟩ := crewed_of_run h
  -- between calls nobody is about to create a worker
  have hmanned : (∀ t a, s.control.calls.get? t = some a → a.steers = false) → starts = [] →
      s.control.phase.active = true → s.control.Manned := fun hc hnil hp =>
    (hcrewed hnil hp).resolve_right fun ⟨t, b, ht⟩ => nomatch hc t _ ht
  refine ⟨fun hc hp => ⟨fun hman => ?_, fun hnil => hmanned hc hnil hp⟩,
    fun m s' t hs hb => ?_, fun hnil hidle hp => ?_, fun hne u hu => ?_⟩
  · cases starts with
    | nil => rfl
    | cons _ _ => exact ((hr.orderly.manned_iff hp).mp hman (hstranded nofun).nobody).elim
  · obtain ⟨hended, -, hp, hl⟩ := breaks_of_brokenStart hr hs hb
    exact ⟨Control.result?_eq_some_iff.mpr hended, hp, hl⟩
  · have hquiet : ∀ t a, s.control.calls.get? t = some a → a.steers = false := fun t a ha => by
      obtain ⟨r, rfl⟩ := hidle t a ha
      rfl
    obtain ⟨n, w, hw, hfin, -⟩ := hmanned hquiet hnil hp
    exact hidle.exists_over hr hw hfin hp
  · have hu' := stranded_along hr (hstranded hne) hu
    exact ⟨hu'.phase, fun n w hw => (hr.along hu).orderly.staffed.vacant hu'.nobody hw⟩

lemma exists_starts {α : Type} {f : List Thread → ControlScene → α} {a : α} (ms : List Move)
    (h : (record ControlScene.step brokenStart (fun _ => true) s ms).map (fun r => f r.1 r.2) =
      some a) :
    ∃ es u, Chronicle ControlScene.step brokenStart (fun _ => True) s es u ∧ f es u = a := by
  obtain ⟨es, u, hrun, hf⟩ := exists_chronicle ms h
  exact ⟨es, u, hrun.mono fun _ _ => trivial, hf⟩

/-- A start whose first line fails. -/
def brokenLaunch : List Move :=
  [.arm "NEW -> STARTING", .start (.client 0) true, .call (.client 0), .call (.client 0),
    .acknowledge (.client 0)]

/-- A start, and a stop whose first line fails. -/
def brokenHalt : List Move :=
  [.start (.client 0) true, .call (.client 0), .call (.client 0), .call (.client 0), .work 0,
    .call (.client 0), .acknowledge (.client 0), .arm "RUNNING -> STOPPING", .stop (.client 1),
    .call (.client 1), .acknowledge (.client 1)]

/-- The stop that is broken off leaves the worker to end the writer; the start that is broken off
leaves nobody. -/
theorem staffs_brokenHalt : (∃ s, Chronicle ControlScene.step brokenStart (fun _ => True)
    (fresh {}) [] s ∧ s.control.phase = .stopping ∧ s.control.calls = {} ∧ Staffs [] s) ∧
      ∃ s, Chronicle ControlScene.step brokenStart (fun _ => True) (fresh {}) [.client 0] s ∧
        s.control.phase = .starting ∧ s.control.calls = {} ∧ Staffs [.client 0] s := by
  obtain ⟨es, s, h, hf⟩ : ∃ es s, Chronicle ControlScene.step brokenStart (fun _ => True)
      (fresh {}) es s ∧ (es, s.control.phase, s.control.calls) = ([], .stopping, {}) :=
    exists_starts brokenHalt rfl
  obtain ⟨es', u, h', hf'⟩ : ∃ es s, Chronicle ControlScene.step brokenStart (fun _ => True)
      (fresh {}) es s ∧ (es, s.control.phase, s.control.calls) = ([.client 0], .starting, {}) :=
    exists_starts brokenLaunch rfl
  simp only [Prod.mk.injEq] at hf hf'
  obtain ⟨rfl, hp, hc⟩ := hf
  obtain ⟨rfl, hp', hc'⟩ := hf'
  exact ⟨⟨s, h, hp, hc, staffs_of_run h⟩, u, h', hp', hc', staffs_of_run h'⟩

/-- **A start that throws can leave the starting phase behind with nobody in it**: no thread is in a
call, there has never been a worker, and neither the terminated nor the failed phase is ever
reached. -/
theorem start_strands : ∃ s, Reachable {} s ∧ s.control.calls = {} ∧
    s.control.phase = .starting ∧ s.control.workers = [] ∧
      ∀ u, Along ControlScene.step (fun _ => True) s u →
        u.control.phase ≠ .terminated ∧ u.control.phase ≠ .failed := by
  obtain ⟨es, s, h, hf⟩ : ∃ es s, Chronicle ControlScene.step brokenStart (fun _ => True)
      (fresh {}) es s ∧ (es, s.control.calls, s.control.phase, s.control.workers) =
        ([.client 0], {}, .starting, []) := exists_starts brokenLaunch rfl
  simp only [Prod.mk.injEq] at hf
  obtain ⟨rfl, hc, hp, hw⟩ := hf
  have hr : Reachable {} s := Reachable.init.along h.along
  refine ⟨s, hr, hc, hp, hw, fun u hu => ?_⟩
  rcases (stranded_along hr ((crewed_of_run h).2 nofun) hu).phase with hp | hp <;> rw [hp] <;>
    exact ⟨nofun, nofun⟩

end ControlScene

end SerialWriter
