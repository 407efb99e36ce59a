import SerialWriter.Proofs.Control.Turn

/-!
What stays true of a control whatever its threads do: only the worker that has yet to be joined can
be alive, every worker is where the phase lets it be, the lock is held by the call that took it, and
a worker makes calls only from inside a cycle.
-/

namespace SerialWriter

/-! ### The invariant -/

/-- The worker has yet to go. -/
def WorkerStage.present : WorkerStage → Bool
  | .finished => false
  | _ => true

/-- **Where the worker that has yet to be joined can be in a phase.** -/
def WorkerStage.fits (p : Phase) : WorkerStage → Prop
  | .created => p = .starting ∨ p = .stopping
  | .looking | .entering false | .cycling false => p = .running ∨ p = .stopping
  | .entering true | .cycling true | .retiring => p = .stopping
  | .failing _ => p = .running ∨ p = .stopping ∨ p = .terminated
  | .reporting _ | .aborted => p = .failed
  | .leaving | .finished => p = .terminated ∨ p = .failed

/-- **What a call that holds the lock can count on**: the phase, and for a start about to create a
worker also that there is none to join. -/
def CallStage.fits (p : Phase) (k : Option Nat) : CallStage → Prop
  | .start _ .launching => p = .new ∨ p = .terminated
  | .start _ .spawning => p = .starting ∧ k = none
  | .stop _ .burying => p = .failed
  | .stop _ .waking => p = .stopping
  | .stop _ .collecting => p = .terminated ∨ p = .failed
  | _ => True

lemma WorkerStage.eq_finished {w : WorkerStage} (h : w.present = false) : w = .finished := by
  cases w <;> first | rfl | cases h

lemma WorkerStage.phase_of_cycle {w : WorkerStage} {last : Bool} {p : Phase}
    (hw : w = .entering last ∨ w = .cycling last) (h : w.fits p) :
    (p = .running ∨ p = .stopping) ∧ (last = true → p = .stopping) := by
  cases last with
  | false => rcases hw with rfl | rfl <;> exact ⟨h, nofun⟩
  | true => rcases hw with rfl | rfl <;> exact ⟨.inr h, fun _ => h⟩

lemma CallStage.fits_of_not_holds {s : CallStage} (h : s.holds = false) (p : Phase)
    (k : Option Nat) : s.fits p k := by
  unfold fits
  split
  all_goals trivial

/-- The workers of all lives are accounted for. -/
structure Staffed (c : Control) : Prop where
  /-- A worker that has yet to go is the one that has yet to be joined. -/
  lone : ∀ n w, c.worker? n = some w → w.present = true → c.joinable = some n
  known : ∀ n, c.joinable = some n → n < c.workers.length
  suited : ∀ n w, c.joinable = some n → c.worker? n = some w → w.fits c.phase

/-- The calls keep to the lock. -/
structure Guarded (c : Control) : Prop where
  held : ∀ t s, c.calls.get? t = some s → s.holds = true → c.holder = some t
  keeper : ∀ t, c.holder = some t → ∃ s, c.calls.get? t = some s ∧ s.holds = true
  suited : ∀ t s, c.calls.get? t = some s → s.fits c.phase c.joinable
  /-- A worker that is in a call is in a cycle. -/
  busy : ∀ n s, c.calls.get? (.worker n) = some s → ∃ last, c.worker? n = some (.cycling last)

/-- **A control in order.** -/
structure Control.Orderly (c : Control) : Prop where
  staffed : Staffed c
  guarded : Guarded c

lemma Control.Orderly.init (config : Config) : ({ config } : Control).Orderly where
  staffed :=
    { lone := fun _ _ h => nomatch h
      known := fun _ h => nomatch h
      suited := fun _ _ _ h => nomatch h }
  guarded :=
    { held := fun _ _ h => nomatch h
      keeper := fun _ h => nomatch h
      suited := fun _ _ h => nomatch h
      busy := fun _ _ h => nomatch h }

/-! ### Workers -/

namespace Control

variable {c d : Control} {n m : Nat} {v w : WorkerStage}

lemma worker?_set_self (hs : d.workers = c.workers.set n v) (hw : c.worker? n = some w) :
    d.worker? n = some v := by
  rw [worker?, hs]
  exact List.getElem?_set_self (List.getElem?_eq_some_iff.mp hw).1

lemma worker?_set_ne (hs : d.workers = c.workers.set n v) (hm : n ≠ m) :
    d.worker? m = c.worker? m := by
  rw [worker?, hs, List.getElem?_set_ne hm]
  rfl

lemma worker?_append (hs : d.workers = c.workers ++ [v]) (hw : c.worker? n = some w) :
    d.worker? n = some w := by
  rw [worker?, hs]
  exact (List.getElem?_append_left (List.getElem?_eq_some_iff.mp hw).1).trans hw

end Control

namespace Staffed

variable {c d : Control} {n m : Nat} {w : WorkerStage}

lemma vacant (h : Staffed c) (hj : c.joinable = none) (hw : c.worker? n = some w) :
    w = .finished := by
  refine WorkerStage.eq_finished (Bool.eq_false_iff.mpr fun hp => ?_)
  have := h.lone n w hw hp
  rw [hj] at this
  cases this

lemma eq_of_present (h : Staffed c) {w' : WorkerStage} (hw : c.worker? n = some w)
    (hp : w.present = true) (hw' : c.worker? m = some w') (hp' : w'.present = true) : n = m := by
  have h1 := h.lone n w hw hp
  rw [h.lone m w' hw' hp'] at h1
  exact (Option.some.inj h1).symm

lemma fits_of_present (h : Staffed c) (hw : c.worker? n = some w) (hp : w.present = true) :
    w.fits c.phase := h.suited n w (h.lone n w hw hp) hw

lemma rephase (h : Staffed c) (hj : d.joinable = c.joinable) (hs : d.workers = c.workers)
    (hp : ∀ w : WorkerStage, w.fits c.phase → w.fits d.phase) : Staffed d where
  lone n w hw := by
    rw [Control.worker?, hs] at hw
    rw [hj]
    exact h.lone n w hw
  known n hn := by
    rw [hj] at hn
    rw [hs]
    exact h.known n hn
  suited n w hn hw := by
    rw [hj] at hn
    rw [Control.worker?, hs] at hw
    exact hp w (h.suited n w hn hw)

lemma same (h : Staffed c) (hj : d.joinable = c.joinable) (hs : d.workers = c.workers)
    (hp : d.phase = c.phase) : Staffed d :=
  h.rephase hj hs fun _ hf => hp ▸ hf

lemma vacate (h : Staffed c) (hn : c.joinable = none) (hj : d.joinable = c.joinable)
    (hs : d.workers = c.workers) : Staffed d := by
  have hd : d.joinable = none := hj.trans hn
  refine ⟨fun n w hw hp => ?_, fun n hm => ?_, fun n w hm => ?_⟩
  · rw [Control.worker?, hs] at hw
    rw [hj]
    exact h.lone n w hw hp
  · rw [hd] at hm
    cases hm
  · rw [hd] at hm
    cases hm

lemma set (h : Staffed c) {w' : WorkerStage} (hw : c.worker? n = some w) (hp : w.present = true)
    (hj : d.joinable = c.joinable) (hs : d.workers = c.workers.set n w') (hf : w'.fits d.phase) :
    Staffed d := by
  have hget : ∀ m, m ≠ n → d.worker? m = c.worker? m := fun m hm =>
    Control.worker?_set_ne hs (Ne.symm hm)
  have hself : d.worker? n = some w' := Control.worker?_set_self hs hw
  have hothers : ∀ m v, m ≠ n → d.worker? m = some v → v = .finished := by
    intro m v hm hv
    rw [hget m hm] at hv
    refine WorkerStage.eq_finished (Bool.eq_false_iff.mpr fun hv' => hm ?_)
    exact h.eq_of_present hv hv' hw hp
  have hn : d.joinable = some n := hj.trans (h.lone n w hw hp)
  refine ⟨fun m v hv hpv => ?_, fun m hm => ?_, fun m v hm hv => ?_⟩
  · by_cases hm : m = n
    · rw [hm, hn]
    · rw [hothers m v hm hv] at hpv
      cases hpv
  · rw [hs, List.length_set]
    exact h.known m (hj ▸ hm)
  · rw [hn, Option.some.injEq] at hm
    rw [← hm, hself, Option.some.injEq] at hv
    exact hv ▸ hf

lemma spawn (h : Staffed c) (hn : c.joinable = none) (hp : c.phase = .starting)
    (hj : d.joinable = some c.workers.length) (hs : d.workers = c.workers ++ [.created])
    (hd : d.phase = c.phase) : Staffed d := by
  have hget : ∀ m v, d.worker? m = some v →
      m < c.workers.length ∧ v = .finished ∨ m = c.workers.length ∧ v = .created := by
    intro m v hv
    rw [Control.worker?, hs, List.getElem?_append] at hv
    split at hv
    · rename_i hm
      exact .inl ⟨hm, h.vacant hn hv⟩
    · rename_i hm
      rw [List.getElem?_singleton] at hv
      split at hv
      · exact .inr ⟨by omega, (Option.some.inj hv).symm⟩
      · cases hv
  refine ⟨fun m v hv hpv => ?_, fun m hm => ?_, fun m v hm hv => ?_⟩
  · rcases hget m v hv with ⟨-, rfl⟩ | ⟨rfl, -⟩
    · cases hpv
    · exact hj
  · rw [hj, Option.some.injEq] at hm
    rw [hs, List.length_append, List.length_singleton, ← hm]
    omega
  · rw [hj, Option.some.injEq] at hm
    rcases hget m v hv with ⟨hlt, -⟩ | ⟨-, rfl⟩
    · omega
    · exact .inl (hd.trans hp)

lemma join (h : Staffed c) {t : Thread} (hd : c.join t = some d) : Staffed d := by
  rcases Control.join_cases hd with ⟨-, rfl⟩ | ⟨n, -, -, rfl⟩ | ⟨n, hj, -, hw, rfl⟩
  · exact h
  · exact h
  · refine ⟨fun m v hv hpv => ?_, fun _ hm => (nomatch hm), fun _ _ hm => (nomatch hm)⟩
    -- the worker that could be present is the one that has just been found gone
    have hm := h.lone m v hv hpv
    rw [hj, Option.some.injEq] at hm
    rw [hm] at hw
    rw [show c.worker? m = some v from hv, Option.some.injEq] at hw
    rw [hw] at hpv
    cases hpv

lemma fits_stopping {w : WorkerStage} {p : Phase} (hp : p = .starting ∨ p = .running)
    (h : w.fits p) : w.fits .stopping := by
  rcases hp with rfl | rfl
  all_goals
    unfold WorkerStage.fits at h ⊢
    split at h
    all_goals trivial

lemma not_fits_new (w : WorkerStage) : ¬ w.fits .new := by
  unfold WorkerStage.fits
  split
  all_goals simp

end Staffed

/-! ### Calls -/

namespace Guarded

variable {c d e : Control} {t : Thread} {s : CallStage}

lemma holds_eq_false (h : Guarded c) (hs : c.calls.get? t = some s) (ht : c.holder ≠ some t) :
    s.holds = false :=
  Bool.eq_false_iff.mpr fun hh => ht (h.held t s hs hh)

/-- **A step of `t` that nobody else's lock forbids**: the other calls are left alone or roused, and
`t` ends up with the lock exactly if its new stage holds it. -/
lemma turn (h : Guarded c) (hx : c.holder = none ∨ c.holder = some t)
    (hc : c.calls.get? t = some s)
    (hcalls : Rouses c e)
    (hw : ∀ n last, c.worker? n = some (.cycling last) → e.worker? n = some (.cycling last))
    {s' : CallStage} (hh : e.holder = if s'.holds then some t else none)
    (hf : s'.fits e.phase e.joinable) : Guarded (e.setCall t s') := by
  -- the others hold nothing, before and after
  have hothers : ∀ u a, u ≠ t → e.calls.get? u = some a →
      a.holds = false ∧ ∃ b, c.calls.get? u = some b := by
    intro u a hu ha
    have hnot : c.holder ≠ some u := by
      rcases hx with hx | hx
      · rw [hx]
        exact fun h => (nomatch h)
      · rw [hx]
        exact fun h => hu (Option.some.inj h).symm
    rcases hcalls u with hsame | hsame
    · rw [hsame] at ha
      exact ⟨h.holds_eq_false ha hnot, a, ha⟩
    · rw [hsame] at ha
      obtain ⟨b, hb, rfl⟩ := Option.map_eq_some_iff.mp ha
      exact ⟨b.holds_roused ▸ h.holds_eq_false hb hnot, b, hb⟩
  refine ⟨fun u a ha hha => ?_, fun u hu => ?_, fun u a ha => ?_, fun n a ha => ?_⟩
  · change e.holder = some u
    simp only [Control.setCall, Roster.get?_put] at ha
    split at ha
    · rename_i hut
      rw [Option.some.injEq] at ha
      rw [hh, ha, hha, hut]
      rfl
    · rename_i hut
      rw [(hothers u a hut ha).1] at hha
      cases hha
  · change e.holder = some u at hu
    rw [hh] at hu
    split at hu
    · rename_i hs'
      obtain rfl := Option.some.inj hu
      exact ⟨s', Roster.get?_put_self .., hs'⟩
    · cases hu
  · simp only [Control.setCall, Roster.get?_put] at ha
    split at ha
    · rw [Option.some.injEq] at ha
      exact ha ▸ hf
    · rename_i hut
      exact CallStage.fits_of_not_holds (hothers u a hut ha).1 _ _
  · simp only [Control.setCall, Roster.get?_put] at ha
    split at ha
    · rename_i hut
      obtain ⟨last, hl⟩ := h.busy n s (hut ▸ hc)
      exact ⟨last, hw n last hl⟩
    · rename_i hut
      obtain ⟨b, hb⟩ := (hothers _ a hut ha).2
      obtain ⟨last, hl⟩ := h.busy n b hb
      exact ⟨last, hw n last hl⟩

/-- **A step of `t` beside the lock**: neither its old stage nor its new one holds it. -/
lemma aside (h : Guarded c) (ht : ∀ a, c.calls.get? t = some a → a.holds = false)
    (hb : ∀ n, t = .worker n → ∃ last, c.worker? n = some (.cycling last)) {s' : CallStage}
    (hs : s'.holds = false) : Guarded (c.setCall t s') := by
  refine ⟨fun u a ha hha => ?_, fun u hu => ?_, fun u a ha => ?_, fun n a ha => ?_⟩
  · simp only [Control.setCall, Roster.get?_put] at ha
    split at ha
    · rw [Option.some.injEq] at ha
      rw [← ha, hs] at hha
      cases hha
    · exact h.held u a ha hha
  · obtain ⟨a, ha, hha⟩ := h.keeper u hu
    have hut : u ≠ t := fun hut => by
      rw [ht a (hut ▸ ha)] at hha
      cases hha
    exact ⟨a, (Roster.get?_put_ne _ _ hut).trans ha, hha⟩
  · simp only [Control.setCall, Roster.get?_put] at ha
    split at ha
    · rw [Option.some.injEq] at ha
      exact ha ▸ CallStage.fits_of_not_holds hs _ _
    · exact h.suited u a ha
  · simp only [Control.setCall, Roster.get?_put] at ha
    split at ha
    · rename_i hut
      exact hb n hut.symm
    · exact h.busy n a ha

lemma congr (h : Guarded c) (hp : e.phase = c.phase) (hh : e.holder = c.holder)
    (hj : e.joinable = c.joinable) (hw : e.workers = c.workers)
    (hcalls : ∀ u, e.calls.get? u = c.calls.get? u) : Guarded e := by
  refine ⟨fun u a ha => ?_, fun u hu => ?_, fun u a ha => ?_, fun n a ha => ?_⟩
  · rw [hh]
    exact h.held u a (hcalls u ▸ ha)
  · obtain ⟨a, ha⟩ := h.keeper u (hh ▸ hu)
    exact ⟨a, (hcalls u).trans ha.1, ha.2⟩
  · rw [hp, hj]
    exact h.suited u a (hcalls u ▸ ha)
  · rw [Control.worker?, hw]
    exact h.busy n a (hcalls _ ▸ ha)

lemma drop (h : Guarded c) (hc : c.calls.get? t = some s) (hs : s.holds = false) :
    Guarded (c.acknowledge t) := by
  refine ⟨fun u a ha => ?_, fun u hu => ?_, fun u a ha => ?_, fun n a ha => ?_⟩
  · simp only [Control.acknowledge, Roster.get?_drop, Option.ite_none_left_eq_some] at ha
    exact h.held u a ha.2
  · obtain ⟨a, ha, hha⟩ := h.keeper u hu
    have hut : u ≠ t := fun hut => by
      rw [← hut, ha, Option.some.injEq] at hc
      rw [← hc, hha] at hs
      cases hs
    exact ⟨a, (Roster.get?_drop_ne _ hut).trans ha, hha⟩
  · simp only [Control.acknowledge, Roster.get?_drop, Option.ite_none_left_eq_some] at ha
    exact h.suited u a ha.2
  · simp only [Control.acknowledge, Roster.get?_drop, Option.ite_none_left_eq_some] at ha
    exact h.busy n a ha.2

/-- A step of a worker that takes and gives back a free lock, or leaves the phase alone. -/
lemma worker (h : Guarded c) {n : Nat} {w' : WorkerStage}
    (hp : c.holder = none ∨ e.phase = c.phase) (hh : e.holder = c.holder)
    (hj : e.joinable = c.joinable)
    (hcalls : Rouses c e)
    (hn : c.calls.get? (.worker n) = none) (hs : e.workers = c.workers.set n w') : Guarded e := by
  have hback : ∀ u a, e.calls.get? u = some a →
      ∃ b, c.calls.get? u = some b ∧ (a = b ∨ a = b.roused) := by
    intro u a ha
    rcases hcalls u with hsame | hsame
    · exact ⟨a, hsame ▸ ha, .inl rfl⟩
    · rw [hsame] at ha
      obtain ⟨b, hb, rfl⟩ := Option.map_eq_some_iff.mp ha
      exact ⟨b, hb, .inr rfl⟩
  refine ⟨fun u a ha hha => ?_, fun u hu => ?_, fun u a ha => ?_, fun m a ha => ?_⟩
  · obtain ⟨b, hb, rfl | rfl⟩ := hback u a ha
    · exact hh ▸ h.held u a hb hha
    · exact hh ▸ h.held u b hb (b.holds_roused ▸ hha)
  · obtain ⟨b, hb, hhb⟩ := h.keeper u (hh ▸ hu)
    rcases hcalls u with hsame | hsame
    · exact ⟨b, hsame.trans hb, hhb⟩
    · exact ⟨b.roused, by rw [hsame, hb]; rfl, b.holds_roused ▸ hhb⟩
  · obtain ⟨b, hb, hab⟩ := hback u a ha
    cases hba : a.holds with
    | false => exact CallStage.fits_of_not_holds hba _ _
    | true =>
      have hhb : b.holds = true := by
        rcases hab with rfl | rfl
        · exact hba
        · exact b.holds_roused ▸ hba
      rcases hp with hp | hp
      · have := h.held u b hb hhb
        rw [hp] at this
        cases this
      · rw [hp, hj]
        have hfit := h.suited u b hb
        rcases hab with rfl | rfl
        · exact hfit
        · unfold CallStage.roused
          split
          · trivial
          · trivial
          · exact hfit
  · obtain ⟨b, hb, -⟩ := hback _ a ha
    obtain ⟨last, hl⟩ := h.busy m b hb
    have hmn : m ≠ n := fun hmn => by
      rw [hmn, hn] at hb
      cases hb
    exact ⟨last, (Control.worker?_set_ne hs (Ne.symm hmn)).trans hl⟩

end Guarded

/-! ### Every step keeps a control in order -/

namespace Control.Orderly

variable {c d e : Control} {t : Thread} {s : CallStage} {now : Time} {j j' : Journal}

lemma exclusive (h : c.Orderly) (hs : c.calls.get? t = some s)
    (hx : c.holder = none ∨ s.holds = true) : c.holder = none ∨ c.holder = some t :=
  hx.imp id (h.guarded.held t s hs)

lemma phase_of_caller (h : c.Orderly) {n : Nat} (hs : c.calls.get? (.worker n) = some s) :
    c.phase = .running ∨ c.phase = .stopping := by
  obtain ⟨last, hw⟩ := h.guarded.busy n s hs
  exact (WorkerStage.phase_of_cycle (.inr rfl) (h.staffed.fits_of_present hw rfl)).1

/-- While a worker runs cycles, a stop holds the lock that is about to wake it, or a destruction
that joins it. -/
lemma keeper_of_active (h : c.Orderly) (hp : c.phase = .running ∨ c.phase = .stopping)
    (ht : c.holder = some t) : (∃ closing, c.calls.get? t = some (.stop closing .waking)) ∨
      c.calls.get? t = some (.destroy .joining) := by
  obtain ⟨a, ha, hheld⟩ := h.guarded.keeper t ht
  have hfit := h.guarded.suited t a ha
  have hout : c.phase ≠ .new ∧ c.phase ≠ .starting ∧ c.phase ≠ .terminated ∧
      c.phase ≠ .failed := by
    rcases hp with hp | hp <;> rw [hp] <;> decide
  obtain ⟨hnew, hstarting, hterminated, hfailed⟩ := hout
  cases a with
  | start b st =>
    cases st with
    | entering | waiting _ _ => cases hheld
    | launching => exact (hfit.elim hnew hterminated).elim
    | spawning => exact (hstarting hfit.1).elim
  | stop closing st =>
    cases st with
    | entering | waiting _ _ => cases hheld
    | burying => exact (hfailed hfit).elim
    | waking => exact .inl ⟨closing, ha⟩
    | collecting => exact (hfit.elim hterminated hfailed).elim
  | destroy st =>
    cases st with
    | looking | reporting _ | locking => cases hheld
    | joining => exact .inr ha
  | ended _ => cases hheld

lemma turn (h : c.Orderly) (he : Staffed e) (hx : c.holder = none ∨ c.holder = some t)
    (hc : c.calls.get? t = some s)
    (hcalls : Rouses c e)
    (hw : ∀ n last, c.worker? n = some (.cycling last) → e.worker? n = some (.cycling last))
    {s' : CallStage} (hh : e.holder = if s'.holds then some t else none)
    (hf : s'.fits e.phase e.joinable) : (e.setCall t s').Orderly :=
  ⟨he.same rfl rfl rfl, h.guarded.turn hx hc hcalls hw hh hf⟩

lemma enterUnlock (h : c.Orderly) (hx : c.holder = none ∨ c.holder = some t)
    (hc : c.calls.get? t = some s) {p : Phase} {f : Option Failure}
    (hd : d.calls = c.calls ∧ d.workers = c.workers) (he : d.enter p t j = (f, e, j'))
    (hst : Staffed e) {s' : CallStage} (hs' : s'.holds = false) :
    (e.unlock.setCall t s').Orderly := by
  obtain ⟨-, -, -, hws, -, -, -⟩ := enter_frame he
  refine h.turn (e := e.unlock) (hst.same rfl rfl rfl) hx hc (fun u => Rouses.enter hd.1 he u)
    (fun n last hn => ?_) ?_ (CallStage.fits_of_not_holds hs' _ _)
  · change e.workers[n]? = _
    rw [hws, hd.2]
    exact hn
  · rw [hs']
    rfl

lemma unlock (h : c.Orderly) (hx : c.holder = none ∨ c.holder = some t)
    (hc : c.calls.get? t = some s) {s' : CallStage} (hs' : s'.holds = false) :
    (c.unlock.setCall t s').Orderly := by
  refine h.turn (e := c.unlock) (h.staffed.same rfl rfl rfl) hx hc (.of_eq rfl)
    (fun _ _ hn => hn) ?_ (CallStage.fits_of_not_holds hs' _ _)
  rw [hs']
  rfl

lemma lock (h : c.Orderly) (hf : c.holder = none) (hc : c.calls.get? t = some s) {s' : CallStage}
    (hs' : s'.holds = true) (hfit : s'.fits c.phase c.joinable) :
    ((c.lock t).setCall t s').Orderly := by
  refine h.turn (e := c.lock t) (h.staffed.same rfl rfl rfl) (.inl hf) hc (.of_eq rfl)
    (fun _ _ hn => hn) ?_ hfit
  rw [hs']
  rfl

lemma joinUnlock (h : c.Orderly) (hs : c.calls.get? t = some s) (hhs : s.holds = true)
    (hd : c.join t = some d) {s' : CallStage} (hs' : s'.holds = false) :
    (d.unlock.setCall t s').Orderly := by
  obtain ⟨-, -, hws, hcs, -, -, -⟩ := join_frame hd
  refine h.turn (e := d.unlock) ((h.staffed.join hd).same rfl rfl rfl)
    (h.exclusive hs (.inr hhs)) hs (.of_eq hcs) (fun n last hn => ?_) ?_
    (CallStage.fits_of_not_holds hs' _ _)
  · change d.workers[n]? = _
    rw [hws]
    exact hn
  · rw [hs']
    rfl

lemma aside (h : c.Orderly) (hc : c.calls.get? t = some s) (hs : s.holds = false) {s' : CallStage}
    (hs' : s'.holds = false) : (c.setCall t s').Orderly := by
  refine ⟨h.staffed.same rfl rfl rfl, h.guarded.aside (fun a ha => ?_) (fun n hn => ?_) hs'⟩
  · rw [hc, Option.some.injEq] at ha
    exact ha ▸ hs
  · exact h.guarded.busy n s (hn ▸ hc)

lemma joinable_of_join (h : c.Orderly) (hs : c.calls.get? t = some s)
    (hp : c.phase ≠ .running ∧ c.phase ≠ .stopping) (hd : c.join t = some d) :
    d.joinable = none := by
  rcases join_cases hd with ⟨hn, rfl⟩ | ⟨n, -, rfl, -⟩ | ⟨n, -, -, -, rfl⟩
  · exact hn
  · -- a worker that makes a call is in a cycle
    exact ((h.phase_of_caller hs).elim hp.1 hp.2).elim
  · rfl

lemma joinable_of_launching (h : c.Orderly) {spawns : Bool}
    (hs : c.calls.get? t = some (.start spawns .launching)) (hd : c.join t = some d) :
    d.joinable = none := by
  refine h.joinable_of_join hs ?_ hd
  rcases h.guarded.suited _ _ hs with hp | hp <;> rw [hp] <;> exact ⟨nofun, nofun⟩

lemma startTurn (h : c.Orderly) {spawns : Bool} {s : StartStage}
    (hs : c.calls.get? t = some (.start spawns s)) (ht : StartTurn c t now j spawns s d j') :
    d.Orderly := by
  have hsuit := h.guarded.suited _ _ hs
  cases ht with
  | refused hf he => exact h.unlock (.inl hf) hs rfl
  | admitted hf he => exact h.lock hf hs rfl (startRefusal?_eq_none_iff.mp he)
  | @launched b d' _ hd he =>
    have hx := h.exclusive hs (.inr rfl)
    have hjn := h.joinable_of_launching hs hd
    obtain ⟨-, hbh, hbw, hbc, -, -, -⟩ := join_frame hd
    obtain ⟨hp, hh, hj, hw, -, -, -⟩ := enter_frame he
    refine h.turn ((h.staffed.join hd).vacate hjn hj hw) hx hs
      (.enter hbc he) (fun n last hn => ?_) ?_ ⟨hp, hj.trans hjn⟩
    · rw [worker?, hw, hbw]
      exact hn
    · rw [hh, hbh]
      exact h.guarded.held _ _ hs rfl
  | @launchFault b d' _ e hd he =>
    obtain ⟨-, -, hj, hw, -, -, -⟩ := enter_frame he
    obtain ⟨-, -, hbw, hbc, -, -, -⟩ := join_frame hd
    exact h.enterUnlock (h.exclusive hs (.inr rfl)) hs ⟨hbc, hbw⟩ he
      ((h.staffed.join hd).vacate (h.joinable_of_launching hs hd) hj hw) rfl
  | spawned hsp =>
    refine h.turn (e := ({ c with
        workers := c.workers ++ [.created], joinable := some c.workers.length } : Control).unlock)
      (h.staffed.spawn hsuit.2 hsuit.1 rfl rfl rfl) (h.exclusive hs (.inr rfl)) hs
      (.of_eq rfl) (fun n last hn => ?_) rfl trivial
    exact worker?_append rfl hn
  | @unmanned d _ f e hsp he hr =>
    obtain ⟨-, -, hj, hw, -, -, -⟩ := enter_frame he
    exact h.enterUnlock (d := { c with cause := some .noThread }) (h.exclusive hs (.inr rfl)) hs
      ⟨rfl, rfl⟩ he (h.staffed.vacate hsuit.2 hj hw) rfl
  | concluded hf hn hp =>
    obtain ⟨r, hr⟩ := concludeStart_eq c t j
    rw [hr]
    exact h.unlock (.inl hf) hs rfl
  | expired hf hd hp => exact h.unlock (.inl hf) hs rfl
  | waits hf hd hp => exact h.aside hs rfl rfl

lemma stopTurn (h : c.Orderly) {closing : Bool} {s : StopStage}
    (hs : c.calls.get? t = some (.stop closing s)) (ht : StopTurn c t now j closing s d j') :
    d.Orderly := by
  cases ht with
  | @retired e _ f r hf hp he hr =>
    rw [finishStop_eq]
    obtain ⟨hpe, -, hj, hw, -, -, -⟩ := enter_frame he
    refine h.enterUnlock (.inl hf) hs ⟨rfl, rfl⟩ he (h.staffed.rephase hj hw fun w hfit => ?_)
      (CallStage.holds_afterStop ..)
    exact absurd (hp ▸ hfit) (Staffed.not_fits_new w)
  | already hf hp =>
    rw [finishStop_eq]
    exact h.unlock (.inl hf) hs (CallStage.holds_afterStop ..)
  | buries hf hp => exact h.lock hf hs rfl hp
  | @halted e _ hf hp he =>
    obtain ⟨hpe, -, hj, hw, -, -, -⟩ := enter_frame he
    have hst : Staffed e := h.staffed.rephase hj hw fun w hfit =>
      hpe ▸ Staffed.fits_stopping hp hfit
    refine h.turn (e := e.lock t) (hst.same rfl rfl rfl) (.inl hf) hs
      (fun u => enter_calls he u) (fun n last hn => ?_) rfl hpe
    change e.workers[n]? = _
    rw [hw]
    exact hn
  | @haltFault e _ _ hf hp he =>
    rw [finishStop_eq]
    obtain ⟨hpe, -, hj, hw, -, -, -⟩ := enter_frame he
    exact h.enterUnlock (.inl hf) hs ⟨rfl, rfl⟩ he
      (h.staffed.rephase hj hw fun w hfit => hpe ▸ Staffed.fits_stopping hp hfit)
      (CallStage.holds_afterStop ..)
  | halts hf hp => exact h.lock hf hs rfl hp
  | buried hd =>
    rw [finishStop_eq]
    exact h.joinUnlock hs rfl hd (CallStage.holds_afterStop ..)
  | collects hf hn hp => exact h.lock hf hs rfl hp
  | expired hf hd hp =>
    rw [finishStop_eq]
    exact h.unlock (.inl hf) hs (CallStage.holds_afterStop ..)
  | waits hf hd hp => exact h.aside hs rfl rfl
  | @collected e hd =>
    obtain ⟨r, hr⟩ := concludeStop_eq e t closing j
    rw [hr]
    exact h.joinUnlock hs rfl hd (CallStage.holds_afterStop ..)

lemma destroyTurn (h : c.Orderly) {s : DestroyStage} (hs : c.calls.get? t = some (.destroy s))
    (ht : DestroyTurn c t j s d j') : d.Orderly := by
  cases ht with
  | stops hp => exact h.aside hs rfl rfl
  | skips hp => exact h.aside hs rfl rfl
  | @reported r _ f hl => exact h.aside hs rfl (by cases f <;> rfl)
  | locks hf => exact h.lock hf hs rfl trivial
  | joined hd => exact h.joinUnlock hs rfl hd rfl

lemma callTurn (h : c.Orderly) (hs : c.calls.get? t = some s)
    (ht : CallTurn c t now j s d j') : d.Orderly := by
  cases ht with
  | start ht => exact h.startTurn hs ht
  | stop ht => exact h.stopTurn hs ht
  | destroy ht => exact h.destroyTurn hs ht

lemma idle_of_not_cycling (h : c.Orderly) {n : Nat} {w : WorkerStage} (hw : c.worker? n = some w)
    (hn : ∀ last, w ≠ .cycling last) : c.calls.get? (.worker n) = none := by
  refine Option.eq_none_iff_forall_ne_some.mpr fun a ha => ?_
  obtain ⟨last, hl⟩ := h.guarded.busy n a ha
  rw [hw, Option.some.injEq] at hl
  exact hn last hl

lemma workerEnter (h : c.Orderly) {n : Nat} {w w' : WorkerStage} (hw : c.worker? n = some w)
    (hp : w.present = true) (hn : ∀ last, w ≠ .cycling last) {p : Phase} {f : Option Failure}
    (hf : c.holder = none) (hd : d.calls = c.calls ∧ d.workers = c.workers ∧
      d.holder = c.holder ∧ d.joinable = c.joinable)
    (he : d.enter p (.worker n) j = (f, e, j')) (hfit : w'.fits p) :
    (e.setWorker n w').Orderly := by
  obtain ⟨hpe, hh, hj, hws, -, -, -⟩ := enter_frame he
  obtain ⟨hdc, hdw, hdh, hdj⟩ := hd
  have hset : (e.setWorker n w').workers = c.workers.set n w' :=
    congrArg (List.set · n w') (hws.trans hdw)
  exact ⟨h.staffed.set hw hp (hj.trans hdj) hset (show w'.fits e.phase from hpe ▸ hfit),
    h.guarded.worker (.inl hf) (hh.trans hdh) (hj.trans hdj) (fun u => Rouses.enter hdc he u)
      (h.idle_of_not_cycling hw hn) hset⟩

lemma workerMove (h : c.Orderly) {n : Nat} {w w' : WorkerStage} (hw : c.worker? n = some w)
    (hp : w.present = true) (hn : c.calls.get? (.worker n) = none) (hfit : w'.fits c.phase) :
    (c.setWorker n w').Orderly :=
  ⟨h.staffed.set hw hp rfl rfl hfit,
    h.guarded.worker (.inr rfl) rfl rfl (.of_eq rfl) hn rfl⟩

lemma workerTurn (h : c.Orderly) {n : Nat} {w : WorkerStage} (hw : c.worker? n = some w)
    (ht : WorkerTurn c n j w d j') : d.Orderly := by
  cases ht with
  | @opens f _ _ hf hp he =>
    refine h.workerEnter hw rfl (fun _ h => by cases h) hf ⟨rfl, rfl, rfl, rfl⟩ he ?_
    cases f with
    | none => exact .inl rfl
    | some _ => exact .inl rfl
  | hurries hf hp =>
    have hfit := h.staffed.fits_of_present hw rfl
    exact h.workerMove hw rfl (h.idle_of_not_cycling hw fun _ h => by cases h)
      (.inr (hfit.resolve_left hp))
  | looks =>
    have hfit := h.staffed.fits_of_present hw rfl
    refine h.workerMove hw rfl (h.idle_of_not_cycling hw fun _ h => by cases h) ?_
    rcases hfit with hr | hr
    · rw [hr]
      exact .inl rfl
    · rw [hr]
      exact rfl
  | @enters last =>
    have hfit := h.staffed.fits_of_present hw rfl
    have hidle := h.idle_of_not_cycling hw fun _ h => by cases h
    have hnext : (WorkerStage.cycling last).fits c.phase := by
      cases last with
      | false => exact hfit
      | true => exact hfit
    exact ⟨h.staffed.set hw rfl rfl rfl hnext,
      h.guarded.worker (.inr rfl) rfl rfl (.of_eq rfl) hidle rfl⟩
  | @retires f _ _ hf he =>
    refine h.workerEnter hw rfl (fun _ h => by cases h) hf ⟨rfl, rfl, rfl, rfl⟩ he ?_
    cases f with
    | none => exact .inl rfl
    | some _ => exact .inr (.inr rfl)
  | @fails e f _ _ hf he =>
    refine h.workerEnter (d := { c with cause := some e }) hw rfl (fun _ h => by cases h) hf
      ⟨rfl, rfl, rfl, rfl⟩ he ?_
    cases f with
    | none => exact rfl
    | some _ => exact rfl
  | @reports e f _ hl =>
    have hfit := h.staffed.fits_of_present hw rfl
    refine h.workerMove hw rfl (h.idle_of_not_cycling hw fun _ h => by cases h) ?_
    cases f with
    | none => exact .inr hfit
    | some _ => exact hfit
  | leaves =>
    have hfit := h.staffed.fits_of_present hw rfl
    exact h.workerMove hw rfl (h.idle_of_not_cycling hw fun _ h => by cases h) hfit

theorem step (h : c.Orderly) (hs : c.Step now j d j') : d.Orderly := by
  cases hs with
  | @begins t s hn ht ho =>
    have hs : s.holds = false := by
      unfold CallStage.opening at ho
      split at ho
      all_goals first | rfl | cases ho
    refine ⟨h.staffed.same rfl rfl rfl, h.guarded.aside (fun a ha => ?_) ht hs⟩
    rw [hn] at ha
    cases ha
  | calls hs ht => exact h.callTurn hs ht
  | wakes hs => exact h.unlock (h.exclusive hs (.inr rfl)) hs rfl
  | acknowledges hs => exact ⟨h.staffed.same rfl rfl rfl, h.guarded.drop hs rfl⟩
  | works hw ht => exact h.workerTurn hw ht
  | @endsCycle n last e hw hn =>
    refine h.workerMove hw rfl hn ?_
    have hfit := h.staffed.fits_of_present hw rfl
    cases e with
    | some _ =>
      cases last with
      | false => exact hfit.elim .inl fun hp => .inr (.inl hp)
      | true => exact .inr (.inl hfit)
    | none =>
      cases last with
      | false => exact hfit
      | true => exact hfit
  | @stirs t s hs =>
    -- rousing keeps a stage that holds the lock as it is
    unfold CallStage.roused
    split
    · exact h.aside hs rfl rfl
    · exact h.aside hs rfl rfl
    · refine ⟨h.staffed.same rfl rfl rfl, h.guarded.congr rfl rfl rfl rfl fun u => ?_⟩
      change (c.calls.put t s).get? u = _
      rw [Roster.get?_put]
      split
      · rename_i hut
        rw [hut, hs]
      · rfl

end Control.Orderly

lemma ControlScene.Reachable.orderly {config : Config} {s : ControlScene}
    (h : Reachable config s) : s.control.Orderly := by
  induction h with
  | init => exact .init config
  | step m _ hs ih =>
    rcases step_cases hs with ⟨_, -, rfl⟩ | ⟨_, -, rfl⟩ | ⟨hstep, -⟩
    · exact ih
    · exact ih
    · exact ih.step hstep

end SerialWriter
