import SerialWriter.Proofs.Control.Manning
import SerialWriter.Proofs.Control.Phases
import SerialWriter.Proofs.Control.Waits

/-!
The outcomes of a start. Every way in which it can end, by the phase that it finds and what it is
told; that an active phase has its worker as long as no line of the log fails; and the life of a
worker that a start has given up waiting for.
-/

namespace SerialWriter

/-! ### How a start ends -/

section Ends

variable {c d : Control} {t : Thread} {now : Time} {j j' : Journal} {b : Bool} {st : StartStage}
  {r : Except Failure Unit} {e : Refusal}

lemma Control.finish_of_free (h : c.holder = none) (t : Thread) (r : Except Failure Unit) :
    c.finish t r = c.setCall t (.ended r) := by
  obtain ⟨config, phase, holder, joinable, cause, workers, calls, cycles⟩ := c
  cases (show holder = none from h)
  rfl

lemma Control.kind_of_startRefusal? (h : c.startRefusal? = some e) : e.kind = .illegalState := by
  unfold startRefusal? at h
  split at h <;> cases h <;> rfl

/-- **How a start of `t` ends** while no line of the log fails: at which stage, with which result,
and what it leaves behind. -/
inductive StartEnd (c : Control) (t : Thread) (j : Journal) (b : Bool) :
    StartStage → Except Failure Unit → Control → Journal → Prop
  | refused {e : Refusal} (he : c.startRefusal? = some e) :
      StartEnd c t j b .entering (.error (.refused e))
        (c.setCall t (.ended (.error (.refused e)))) j
  /-- The thread of the worker cannot be created. -/
  | unmanned {d : Control} {j' : Journal} (hb : b = false) (hp : d.phase = .failed)
      (hc : d.cause = some .noThread) (hj : d.joinable = c.joinable)
      (hw : d.workers = c.workers) :
      StartEnd c t j b .spawning
        (.error (.refused (.startWithoutThread c.config.name Failure.noThread.what))) d j'
  | expired {deadline : Time} {notified : Bool} (hf : c.holder = none) (hp : c.phase = .starting) :
      StartEnd c t j b (.waiting deadline notified)
        (.error (.refused (.startExpired c.config.name c.config.startupLimit)))
        (c.setCall t (.ended
          (.error (.refused (.startExpired c.config.name c.config.startupLimit))))) j
  | failed {deadline : Time} {notified : Bool} {d : Control} (hp : d.phase = .failed)
      (hc : d.cause = c.cause) :
      StartEnd c t j b (.waiting deadline notified)
        (.error (.refused (.startFailed c.config.name (Failure.describe? c.cause)))) d j
  | returned {deadline : Time} {notified : Bool} {d : Control} {j' : Journal}
      (hs : d.phase ≠ .starting) (hf : d.phase ≠ .failed) :
      StartEnd c t j b (.waiting deadline notified) (.ok ()) d j'

lemma startEnd_of_turn (hq : j.armed = none) (h : StartTurn c t now j b st d j')
    (hr : d.result? t = some r) : StartEnd c t j b st r d j' := by
  have hself := ControlScene.eq_ended_of_setCall hr
  cases h with
  | refused hf he =>
    cases hself _ _ rfl
    rw [Control.finish_of_free hf]
    exact .refused he
  | unmanned hb he hr' =>
    obtain rfl := Journal.fault_of_unarmed (Control.enter_cases he).1 hq
    obtain ⟨hp, -, hj, hw, -, hc, -⟩ := Control.enter_frame he
    subst hr'
    cases hself _ _ rfl
    exact .unmanned hb hp hc hj hw
  | launchFault _ he => cases Journal.fault_of_unarmed (Control.enter_cases he).1 hq
  | concluded hf _ hp =>
    generalize hd : c.concludeStart t j = x at hr hself
    unfold Control.concludeStart at hd
    split at hd
    · rename_i hfail
      subst hd
      cases hself _ _ rfl
      exact .failed hfail rfl
    · rename_i hfail
      split at hd
      · subst hd
        cases hself _ _ rfl
        exact .returned hp hfail
      · rename_i hl
        cases Journal.fault_of_unarmed hl hq
  | expired hf _ hp =>
    cases hself _ _ rfl
    rw [Control.finish_of_free hf]
    exact .expired hf hp
  | admitted _ _ | launched _ _ | spawned _ | waits _ _ _ => cases hself _ _ rfl

lemma StartEnd.of_illegal (h : StartEnd c t j b st (.error (.refused e)) d j')
    (hk : e.kind = .illegalState) : st = .entering ∧ c.startRefusal? = some e ∧
      d = c.setCall t (.ended (.error (.refused e))) ∧ j' = j := by
  cases h with
  | refused he => exact ⟨rfl, he, rfl, rfl⟩
  | unmanned _ _ _ _ _ | expired _ _ | failed _ _ => cases hk

lemma StartEnd.cases (h : StartEnd c t j b st r d j') :
    r = .ok () ∨ ∃ e, r = .error (.refused e) ∧ (e.kind = .illegalState ∨
      e = .startWithoutThread c.config.name Failure.noThread.what ∨
        e = .startExpired c.config.name c.config.startupLimit ∨
          ∃ reason, e = .startFailed c.config.name reason) := by
  cases h with
  | refused he => exact .inr ⟨_, rfl, .inl (Control.kind_of_startRefusal? he)⟩
  | unmanned _ _ _ _ _ => exact .inr ⟨_, rfl, .inr (.inl rfl)⟩
  | expired _ _ => exact .inr ⟨_, rfl, .inr (.inr (.inl rfl))⟩
  | failed _ _ => exact .inr ⟨_, rfl, .inr (.inr (.inr ⟨_, rfl⟩))⟩
  | returned _ _ => exact .inl rfl

lemma unmanned_of_turn (hq : j.armed = none) (h : StartTurn c t now j false .spawning d j') :
    d.result? t = some (.error (.refused
      (.startWithoutThread c.config.name Failure.noThread.what))) ∧
      d.phase = .failed ∧ d.cause = some .noThread ∧ d.joinable = c.joinable ∧
        d.workers = c.workers := by
  cases h with
  | spawned hb => cases hb
  | unmanned _ he hr =>
    obtain rfl := Journal.fault_of_unarmed (Control.enter_cases he).1 hq
    obtain ⟨hp, -, hj, hw, -, hc, -⟩ := Control.enter_frame he
    subst hr
    exact ⟨Control.result?_eq_some_iff.mpr (Roster.get?_put_self ..), hp, hc, hj, hw⟩

lemma illegal_iff_of_turn (hq : j.armed = none) (h : StartTurn c t now j b st d j') :
    (∃ e, d.result? t = some (.error (.refused e)) ∧ e.kind = .illegalState) ↔
      st = .entering ∧ c.phase ≠ .new ∧ c.phase ≠ .terminated := by
  constructor
  · rintro ⟨e, he, hk⟩
    obtain ⟨rfl, hp, -, -⟩ := (startEnd_of_turn hq h he).of_illegal hk
    have hne : c.startRefusal? ≠ none := fun hn => nomatch hp.symm.trans hn
    exact ⟨rfl, not_or.mp (mt Control.startRefusal?_eq_none_iff.mpr hne)⟩
  · rintro ⟨rfl, hnew, hterminated⟩
    cases h with
    | refused _ hp =>
      exact ⟨_, Control.result?_eq_some_iff.mpr (Roster.get?_put_self ..),
        Control.kind_of_startRefusal? hp⟩
    | admitted _ hp =>
      exact ((Control.startRefusal?_eq_none_iff.mp hp).elim hnew hterminated).elim

lemma unmanned_iff_of_turn (hq : j.armed = none) (h : StartTurn c t now j b st d j') :
    d.result? t = some (.error (.refused
      (.startWithoutThread c.config.name Failure.noThread.what))) ↔
        st = .spawning ∧ b = false := by
  constructor
  · intro he
    cases startEnd_of_turn hq h he with
    | refused hp => cases Control.kind_of_startRefusal? hp
    | unmanned hb _ _ _ _ => exact ⟨rfl, hb⟩
  · rintro ⟨rfl, rfl⟩
    exact (unmanned_of_turn hq h).1

end Ends

namespace ControlScene

variable {config : Config} {s s' u : ControlScene} {m : Move} {t : Thread} {n : Nat} {b : Bool}
  {st : StartStage} {es : List Event}

lemma start_of_step (ht : s.control.calls.get? t = some (.start b st))
    (hs : s.step (.call t) = some s') :
    ∃ d j, StartTurn s.control t s.now s.journal b st d j ∧
      s' = { s with control := d, journal := j } := by
  have hw : s.control.waking t = false := Control.waking_eq_false ht nofun
  simp only [step, hw, Bool.false_eq_true, if_false] at hs
  obtain ⟨⟨d, j⟩, hd, rfl⟩ := Option.map_eq_some_iff.mp hs
  obtain ⟨a, ha, hturn⟩ := Control.stepCall_turn hd
  obtain rfl := Option.some.inj (ht.symm.trans ha)
  cases hturn with
  | start hturn => exact ⟨d, j, hturn, rfl⟩

/-! ### The worker of an active phase -/

lemma brokenStart_eq_none (hq : s.Quiet) (hs : s.step m = some s') :
    s.brokenStart m s' = none := by
  refine Option.eq_none_iff_forall_ne_some.mpr fun t hb => ?_
  unfold brokenStart at hb
  split at hb
  · split at hb
    · rename_i hc hd
      obtain ⟨d, j, hturn, rfl⟩ := start_of_step hc hs
      -- no start ends as it enters the starting phase
      cases startEnd_of_turn hq hturn (Control.result?_eq_some_iff.mpr hd)
    · cases hb
  · cases hb

lemma crewed_of_quietRun (h : QuietRun (fresh config) es s) : s.control.Crewed := by
  induction h with
  | refl _ => exact nofun
  | step m h hs _ ih =>
    have hr : Reachable config _ := QuietRun.reachable h .init
    exact crewed_of_step hr ih hs (brokenStart_eq_none h.along.holds hs)

/-- When nobody holds the lock in the starting phase, the worker to be joined has yet to begin. -/
lemma exists_created (h : QuietRun (fresh config) es s) (hf : s.control.holder = none)
    (hp : s.control.phase = .starting) :
    ∃ n, s.control.joinable = some n ∧ s.control.worker? n = some .created := by
  have ho := (h.reachable .init).orderly
  have hactive : s.control.phase.active = true := by
    rw [hp]
    rfl
  rcases crewed_of_quietRun h hactive with ⟨n, w, hw, hfin, -⟩ | ⟨t, b, hb⟩
  · have hpresent : w.present = true :=
      Bool.not_eq_false _ ▸ fun hn => hfin (WorkerStage.eq_finished hn)
    have hfit := ho.staffed.fits_of_present hw hpresent
    rw [hp] at hfit
    obtain rfl := eq_created_of_fits hfit
    exact ⟨n, ho.staffed.lone n _ hw rfl, hw⟩
  · cases hf.symm.trans (ho.guarded.held t _ hb rfl)

/-! ### A worker that nobody waits for -/

/-- **Worker `n` has its whole life before it**, in the starting phase. -/
structure Unbegun (n : Nat) (idle : Int) (s : ControlScene) : Prop where
  /-- Unless a stop comes first, its next step opens the writer, and the rest of its life
  follows. -/
  opens : ∀ es u, QuietRun s es u → (changes es).head? ≠ some (.starting, .stopping) →
    (u.control.worker? n ≠ some .created → .reached n .starting .running ∈ es) ∧
      ∃ life, Life n idle (.reached n .starting .running :: life) ∧
        eventsOf n es <+: .reached n .starting .running :: life
  /-- Whatever comes first, it lives one of the lives of a worker. -/
  lives : ∀ es u, QuietRun s es u → ∃ life, Life n idle life ∧ eventsOf n es <+: life
  /-- As long as the phase has not changed, it can open the writer and enter a cycle whenever
  nobody holds the lock. -/
  enters : ∀ es u, QuietRun s es u → changes es = [] → u.control.holder = none →
    ∃ v, QuietRun u [.reached n .starting .running, .entered n false idle] v

lemma Life.eq_cons_of_opened {idle : Int} {l : List Event} (h : Life n idle l)
    (hr : .reached n .starting .running ∈ l) :
    ∃ life, l = .reached n .starting .running :: life := by
  cases h with
  | served ran k hk =>
    cases ran with
    | true => exact ⟨_, rfl⟩
    | false =>
      obtain rfl := hk rfl
      simp [begun, opening, rounds] at hr
  | broken e hk hp hl =>
    rename_i ran last k p
    cases ran with
    | true => exact ⟨_, rfl⟩
    | false =>
      obtain ⟨rfl, rfl⟩ := hk rfl
      simp [begun, opening, rounds] at hr

lemma exists_entered (hr : Reachable config s) (hq : s.Quiet) (hf : s.control.holder = none)
    (hp : s.control.phase = .starting) (hw : s.control.worker? n = some .created) :
    ∃ v, QuietRun s [.reached n .starting .running, .entered n false config.idleDelay] v := by
  -- it opens the writer,
  obtain ⟨s₁, w₁, hs₁, hw₁, hg₁, -, hf₁⟩ := exists_worked hr hf hw nofun nofun
  have h₁ := QuietRun.of_step hq hs₁ (quiet_of_work hq hs₁)
  have hr₁ := h₁.reachable hr
  generalize s.note (.work n) s₁ = ev₁ at hg₁ h₁
  generalize hp₁ : s₁.control.phase = p₁ at hg₁
  rw [hp] at hg₁
  cases hg₁ with
  | opens hfault =>
    obtain rfl := hfault hq
    -- finds it running,
    obtain ⟨s₂, w₂, hs₂, hw₂, hg₂, -, hf₂⟩ := exists_worked hr₁ hf₁ hw₁ nofun nofun
    have h₂ := QuietRun.of_step h₁.along.holds hs₂ (quiet_of_work h₁.along.holds hs₂)
    have hr₂ := h₂.reachable hr₁
    generalize s₁.note (.work n) s₂ = ev₂ at hg₂ h₂
    generalize s₂.control.phase = p₂ at hg₂
    rw [hp₁] at hg₂
    cases hg₂ with
    | looks _ =>
      -- and enters a cycle that may wait
      obtain ⟨s₃, w₃, hs₃, -, hg₃, -, -⟩ := exists_worked hr₂ hf₂ hw₂ nofun nofun
      have h₃ := QuietRun.of_step h₂.along.holds hs₃ (quiet_of_work h₂.along.holds hs₃)
      generalize s₂.note (.work n) s₃ = ev₃ at hg₃ h₃
      generalize s₃.control.phase = p₃ at hg₃
      rw [hr₂.config_eq] at hg₃
      cases hg₃ with
      | enters _ _ => exact ⟨s₃, (h₁.trans h₂).trans h₃⟩

/-- A worker that has yet to begin in the starting phase has its whole life before it. -/
theorem unbegun_of_run (h : QuietRun (fresh config) es s) (hp : s.control.phase = .starting)
    (hw : s.control.worker? n = some .created) : Unbegun n config.idleDelay s := by
  have hr : Reachable config s := h.reachable .init
  have hnil := ((soFar_of_run h n).2 _ hw).eq_nil_of_created
  -- what the worker does from here on is all it ever did
  have hlater : ∀ es' u, QuietRun s es' u → ∃ w, u.control.worker? n = some w ∧
      Opened n w u.control.phase es' ∧
        SoFar n config.idleDelay u.control.phase w (eventsOf n es') := by
    intro es' u hu
    obtain ⟨w, hwu, ho⟩ := hu.keeps (I := Opened n) hr hw (hp ▸ .unopened rfl)
      fun _ _ _ _ _ _ hi hm => hi.meets hm
    have hsf := (soFar_of_run (h.trans hu) n).2 w hwu
    rw [eventsOf, List.filter_append, ← eventsOf, hnil, List.nil_append] at hsf
    exact ⟨w, hwu, ho, hsf⟩
  refine ⟨fun es' u hu hstop => ?_, fun es' u hu => ?_, fun es' u hu hc hf => ?_⟩
  · obtain ⟨w, hwu, ho, hsf⟩ := hlater es' u hu
    obtain ⟨life, hlife, hpre⟩ := hsf.prefix_life
    generalize u.control.phase = p at ho hsf
    cases ho with
    | unopened _ =>
      rw [hsf.eq_nil_of_created]
      exact ⟨fun hne => (hne hwu).elim, _, .served true 0 fun h => Bool.noConfusion h,
        List.nil_prefix⟩
    | opened _ _ hin =>
      have hevent : .reached n .starting .running ∈ eventsOf n es' :=
        List.mem_filter.mpr ⟨hin, beq_self_eq_true n⟩
      obtain ⟨rest, rfl⟩ := hlife.eq_cons_of_opened (hpre.subset hevent)
      exact ⟨fun _ => hin, rest, hlife, hpre⟩
    | hurried hc _ => exact (hstop hc).elim
  · obtain ⟨w, -, -, hsf⟩ := hlater es' u hu
    exact hsf.prefix_life
  · obtain ⟨w, hwu, ho, -⟩ := hlater es' u hu
    generalize hpu : u.control.phase = p at ho
    cases ho with
    | unopened _ => exact exists_entered (hu.reachable hr) hu.along.holds hf hpu hwu
    | opened _ hc' _ | hurried hc' _ =>
      rw [hc] at hc'
      cases hc'

/-! ### Every start -/

/-- The call of `t` has ended with this refusal. -/
def Refused (t : Thread) (e : Refusal) (s : ControlScene) : Prop :=
  s.control.result? t = some (.error (.refused e))

/-- The scene in which the call of `t` is over, with that refusal, and nothing else has changed. -/
def refuse (s : ControlScene) (t : Thread) (e : Refusal) : ControlScene :=
  { s with control := s.control.setCall t (.ended (.error (.refused e))) }

/-- **What a start of `t` is told** by its move from `s` to `s'`, made at the stage `st`. -/
structure StartTold (config : Config) (t : Thread) (b : Bool) (st : StartStage)
    (s s' : ControlScene) : Prop where
  /-- It is refused as illegal exactly if it finds another phase than the first one and the
  terminated one as it enters, -/
  illegal : (∃ e, Refused t e s' ∧ e.kind = .illegalState) ↔
    st = .entering ∧ s.control.phase ≠ .new ∧ s.control.phase ≠ .terminated
  /-- and then it changes nothing. -/
  untouched : ∀ e, Refused t e s' → e.kind = .illegalState → s' = s.refuse t e
  /-- It misses the thread of its worker exactly if that cannot be created, -/
  unmanned : Refused t (.startWithoutThread config.name Failure.noThread.what) s' ↔
    st = .spawning ∧ b = false
  /-- and then the control has failed for that, without a worker. -/
  abandoned : st = .spawning → b = false → s'.control.phase = .failed ∧
    s'.control.cause = some .noThread ∧ s'.control.joinable = none ∧ s'.control.Vacant
  /-- It gives up only in the starting phase, with a worker that has yet to begin; the worker has
  its whole life before it. -/
  expired : Refused t (.startExpired config.name config.startupLimit) s' →
    s.control.phase = .starting ∧
      s' = s.refuse t (.startExpired config.name config.startupLimit) ∧
      ∃ n, s'.control.joinable = some n ∧ s'.control.worker? n = some .created ∧
        Unbegun n config.idleDelay s'
  /-- It tells of a failure only of a control that has failed, and tells its cause. -/
  failed : ∀ reason, Refused t (.startFailed config.name reason) s' →
    s'.control.phase = .failed ∧ ∃ e, s'.control.cause = some e ∧ reason = e.describe
  /-- It returns only when the control has left the starting phase and has not failed. -/
  returned : s'.control.result? t = some (.ok ()) →
    s'.control.phase ≠ .starting ∧ s'.control.phase ≠ .failed
  /-- There is no other end. -/
  ends : ∀ r, s'.control.result? t = some r → r = .ok () ∨ ∃ e, r = .error (.refused e) ∧
    (e.kind = .illegalState ∨ e = .startWithoutThread config.name Failure.noThread.what ∨
      e = .startExpired config.name config.startupLimit ∨
        ∃ reason, e = .startFailed config.name reason)

/-- **Every start** is told what the control is like when it ends, whoever else starts, stops and
destroys meanwhile, and whatever time it is given. -/
theorem startTold_of_run (h : QuietRun (fresh config) es s)
    (ht : s.control.calls.get? t = some (.start b st)) (hs : s.step (.call t) = some s') :
    StartTold config t b st s s' := by
  have hr : Reachable config s := h.reachable .init
  have hq : s.Quiet := h.along.holds
  obtain rfl := hr.config_eq
  have hsuit := hr.orderly.guarded.suited t _ ht
  obtain ⟨d, j, hturn, rfl⟩ := start_of_step ht hs
  have hend : ∀ r, d.result? t = some r → StartEnd s.control t s.journal b st r d j :=
    fun r hr => startEnd_of_turn hq hturn hr
  refine ⟨illegal_iff_of_turn hq hturn, ?_, unmanned_iff_of_turn hq hturn, ?_, ?_, ?_, ?_, ?_⟩
  · intro e he hk
    obtain ⟨-, -, rfl, rfl⟩ := (hend _ he).of_illegal hk
    rfl
  · -- without a thread nobody is created, and all earlier workers are gone
    rintro rfl rfl
    obtain ⟨-, hp, hc, hj, hw⟩ := unmanned_of_turn hq hturn
    exact ⟨hp, hc, hj.trans hsuit.2, fun n w hn =>
      hr.orderly.staffed.vacant hsuit.2 ((congrArg (·[n]?) hw).symm.trans hn)⟩
  · intro he
    cases hend _ he with
    | refused hp => cases Control.kind_of_startRefusal? hp
    | expired hf hp =>
      obtain ⟨n, hj, hw⟩ := exists_created h hf hp
      exact ⟨hp, rfl, n, hj, hw, unbegun_of_run (Chronicle.step _ h hs hq) hp hw⟩
  · intro reason he
    cases hend _ he with
    | refused hp => cases Control.kind_of_startRefusal? hp
    | failed hp hc =>
      obtain ⟨f, hf⟩ := Option.isSome_iff_exists.mp
        ((cause_iff_of_reachable (hr.step _ hs)).mpr hp)
      exact ⟨hp, f, hf, congrArg Failure.describe? (hc.symm.trans hf)⟩
  · intro he
    cases hend _ he with
    | returned hs hf => exact ⟨hs, hf⟩
  · exact fun r he => (hend r he).cases

/-- A start that is given up while its worker has yet to begin. -/
def expiringStart : List Move :=
  [.start (.client 0) true, .call (.client 0), .call (.client 0), .call (.client 0),
    .pass 10000000000]

theorem startTold_expiringStart : ∃ es s s', QuietRun (fresh {}) es s ∧
    s.step (.call (.client 0)) = some s' ∧
      Refused (.client 0) (.startExpired "writer" 10000) s' ∧
        StartTold {} (.client 0) true (.waiting 10000000000 false) s s' := by
  obtain ⟨es, s, h, hf⟩ : ∃ es s, QuietRun (fresh {}) es s ∧
      (s.control.calls.get? (.client 0),
        (s.step (.call (.client 0))).map fun u => u.control.result? (.client 0)) =
      (some (.start true (.waiting 10000000000 false)),
        some (some (.error (.refused (.startExpired "writer" 10000))))) :=
    exists_quietRun expiringStart rfl
  obtain ⟨ht, hs⟩ := Prod.mk.inj hf
  obtain ⟨s', hs, he⟩ := Option.map_eq_some_iff.mp hs
  exact ⟨es, s, s', h, hs, he, startTold_of_run h ht hs⟩

end ControlScene

end SerialWriter
