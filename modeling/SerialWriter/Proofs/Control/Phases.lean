import SerialWriter.Proofs.Control.Life

/-!
The phases as a state machine: the changes that can happen, the cause that goes with the failed
phase, and the path that the log tells.
-/

namespace SerialWriter

/-- **The changes of phase.** -/
def Phase.leadsTo : Phase → Phase → Bool
  | .new, .starting | .new, .terminated => true
  | .starting, .running | .starting, .stopping | .starting, .failed => true
  | .running, .stopping | .running, .failed => true
  | .stopping, .terminated | .stopping, .failed => true
  | .terminated, .starting => true
  | _, _ => false

/-- **Lines that tell of a path** from `p` on, in the log of the control of that name: each change
begins where the one before ended. -/
inductive Tells (name : String) (p : Phase) : List (Thread × Notice) → Phase → Prop
  | start : Tells name p [] p
  | change {l : List (Thread × Notice)} {q r : Phase} (t : Thread) (h : Tells name p l q)
    (hr : q.leadsTo r = true) : Tells name p (l ++ [(t, .moved name q r)]) r

/-! ### One move -/

lemma Control.Turns.leadsTo {c : Control} {t : Thread} {q : Phase} (h : c.Turns t q) :
    c.phase.leadsTo q = true := by
  cases h with
  | starts hp _ => rcases hp with hp | hp <;> rw [hp] <;> rfl
  | retires hp _ =>
    rw [hp]
    rfl
  | halts hp => rcases hp with hp | hp <;> rw [hp] <;> rfl
  | denied _ hp _ =>
    rw [hp]
    rfl

lemma WorkerStage.Goes.leadsTo {n : Nat} {idle : Int} {quiet : Prop} {w w' : WorkerStage}
    {p q : Phase} {ev : Option ControlScene.Event} (h : w.Goes n idle quiet p ev w' q)
    (hf : ∀ e, w = .failing e → p ≠ .terminated) (name : String) :
    ev.bind (ControlScene.Event.line? name) = none ∧ q = p ∨
      ev.bind (ControlScene.Event.line? name) = some (.worker n, .moved name p q) ∧
        p.leadsTo q = true := by
  cases h with
  | opens _ => exact .inr ⟨rfl, rfl⟩
  | retires _ => exact .inr ⟨rfl, rfl⟩
  | fails _ hp =>
    refine .inr ⟨rfl, ?_⟩
    rcases hp with rfl | rfl | rfl
    · rfl
    · rfl
    · exact (hf _ rfl rfl).elim
  | hurries | looks _ | enters _ _ | exits _ _ _ | reports _ | leaves _ => exact .inl ⟨rfl, rfl⟩

lemma Control.Advance.rests_of_failed {c d : Control} {j : Journal}
    {ev : Option ControlScene.Event} (h : c.Advance j ev d) (hp : c.phase = .failed) :
    ev = none ∧ d.phase = .failed ∧ d.cause = c.cause := by
  cases h with
  | rests hsame _ hc => exact ⟨rfl, hsame.trans hp, hc⟩
  | turns hturn _ _ =>
    have hleads := hturn.leadsTo
    rw [hp] at hleads
    cases hleads
  | creates _ hstart _ _ _ _ =>
    rw [hp] at hstart
    cases hstart
  | works _ _ hc hgoes =>
    rw [hp] at hgoes
    generalize d.phase = q at hgoes ⊢
    cases hgoes with
    | looks hr | enters hr _ | exits _ hr _ => rcases hr with hr | hr <;> cases hr
    | fails _ hr => rcases hr with hr | hr | hr <;> cases hr
    | reports _ => exact ⟨rfl, rfl, hc⟩
    | leaves _ => exact ⟨rfl, rfl, hc⟩

namespace ControlScene

variable {config : Config} {s s' u : ControlScene} {m : Move} {es : List Event}

/-- Without faults of the log, no worker fails that has ended the writer. -/
lemma phase_of_failing (h : QuietRun (fresh config) es s) (n : Nat) (e : Failure)
    (hw : s.control.worker? n = some (.failing e)) : s.control.phase ≠ .terminated := by
  rcases ((soFar_of_run h n).2 _ hw).phase_of_failing with hp | hp <;> rw [hp] <;> exact nofun

theorem change_of_step (h : QuietRun (fresh config) es s) (hs : s.step m = some s') :
    s'.journal.moves = s.journal.moves ∧ s'.control.phase = s.control.phase ∨
      (∃ t, s'.journal.moves = s.journal.moves ++
        [(t, .moved config.name s.control.phase s'.control.phase)]) ∧
          s.control.phase.leadsTo s'.control.phase = true := by
  have hr : Reachable config s := h.reachable .init
  obtain ⟨hadv, -, hlines⟩ := shows_of_step hr.orderly hs
  rw [hr.config_eq] at hlines
  rw [hlines]
  generalize s.note m s' = ev at hadv
  cases hadv with
  | rests hp _ _ => exact .inl ⟨List.append_nil _, hp⟩
  | @turns _ t hturn _ _ => exact .inr ⟨⟨t, rfl⟩, hturn.leadsTo⟩
  | creates _ _ _ hp _ _ => exact .inl ⟨List.append_nil _, hp⟩
  | @works _ n w _ _ hw _ _ hgoes =>
    have hf : ∀ e, w = .failing e → s.control.phase ≠ .terminated := fun e he =>
      phase_of_failing h n e (he ▸ hw)
    rcases hgoes.leadsTo hf config.name with ⟨hnone, hp⟩ | ⟨hsome, hp⟩
    · rw [hnone]
      exact .inl ⟨List.append_nil _, hp⟩
    · rw [hsome]
      exact .inr ⟨⟨_, rfl⟩, hp⟩

lemma denied_of_step (ho : s.control.Orderly) (hs : s.step m = some s')
    (hp : s.control.phase = .starting) (hp' : s'.control.phase = .failed) :
    ∃ t, m = .call t ∧ s.control.calls.get? t = some (.start false .spawning) := by
  have hadv := (shows_of_step ho hs).advance
  generalize hn : s.note m s' = ev at hadv
  have hne : s'.control.phase ≠ s.control.phase := by
    rw [hp, hp']
    exact nofun
  cases hadv with
  | rests hsame _ _ => exact (hne hsame).elim
  | @turns _ t hturn _ _ =>
    refine ⟨t, (call_of_turned hn).1, ?_⟩
    rw [hp'] at hturn
    cases hturn with
    | denied hd _ _ => exact hd
  | creates _ _ _ hsame _ _ => exact (hne hsame).elim
  | works _ _ _ hgoes =>
    rw [hp, hp'] at hgoes
    cases hgoes with
    | fails _ h => rcases h with h | h | h <;> cases h

/-! ### The cause -/

/-- **Where a failure comes from**: it escaped the last cycle of a worker that then failed the
control, or it is that of a start whose thread could not be created. -/
def Origin (es : List Event) (e : Failure) : Prop :=
  (∃ n p, [.left n (some e), .reached n p .failed] <:+ eventsOf n es) ∨
    e = .noThread ∧ ∃ t, .turned t .starting .failed ∈ es

lemma rests_of_failed (ho : s.control.Orderly) (hs : s.step m = some s')
    (hp : s.control.phase = .failed) :
    s.note m s' = none ∧ s'.control.phase = .failed ∧ s'.control.cause = s.control.cause :=
  (shows_of_step ho hs).advance.rests_of_failed hp

theorem failed_along (hr : Reachable config s) (hp : s.control.phase = .failed)
    {P : ControlScene → Prop} (h : Chronicle ControlScene.step note P s es u) :
    es = [] ∧ u.control.phase = .failed ∧ u.control.cause = s.control.cause := by
  induction h with
  | refl _ => exact ⟨rfl, hp, rfl⟩
  | @step es u v m h hs _ ih =>
    obtain ⟨rfl, hup, huc⟩ := ih
    obtain ⟨hn, hvp, hvc⟩ := rests_of_failed (hr.along h.along).orderly hs hup
    refine ⟨?_, hvp, hvc.trans huc⟩
    rw [hn]
    rfl

/-- **A move that makes a control fail** gives it its cause; no other move does. -/
lemma cause_of_step (ho : s.control.Orderly) (hs : s.step m = some s')
    (hp : s.control.phase ≠ .failed) :
    s'.control.phase ≠ .failed ∧ s'.control.cause = s.control.cause ∨
      s'.control.phase = .failed ∧ ((∃ t, s'.control.cause = some .noThread ∧
          s.note m s' = some (.turned t .starting .failed)) ∨
        ∃ n p e, s'.control.cause = some e ∧ s.control.worker? n = some (.failing e) ∧
          s.note m s' = some (.reached n p .failed)) := by
  have hadv := (shows_of_step ho hs).advance
  generalize s.note m s' = ev at hadv
  cases hadv with
  | rests hsame _ hc => exact .inl ⟨hsame ▸ hp, hc⟩
  | @turns _ t hturn _ hc =>
    generalize s'.control.phase = q at hturn hc ⊢
    cases hturn with
    | starts _ _ | retires _ _ | halts _ => exact .inl ⟨nofun, hc⟩
    | denied _ hstart _ => exact .inr ⟨rfl, .inl ⟨t, hc, by rw [hstart]⟩⟩
  | creates _ _ _ hsame _ hc => exact .inl ⟨hsame ▸ hp, hc⟩
  | @works _ n w _ _ hw _ hc hgoes =>
    generalize s.control.phase = p at hp hgoes
    generalize s'.control.phase = q at hgoes ⊢
    cases hgoes with
    | fails _ _ => exact .inr ⟨rfl, .inr ⟨n, p, _, hc, hw, rfl⟩⟩
    | opens _ | hurries | retires _ => exact .inl ⟨nofun, hc⟩
    | looks _ | enters _ _ | exits _ _ _ | leaves _ => exact .inl ⟨hp, hc⟩
    | reports _ => exact (hp rfl).elim

theorem cause_iff_of_reachable (h : Reachable config s) :
    s.control.cause.isSome = true ↔ s.control.phase = .failed := by
  induction h with
  | init => exact ⟨nofun, nofun⟩
  | @step s s' m h hs ih =>
    by_cases hp : s.control.phase = .failed
    · obtain ⟨-, hp', hc⟩ := rests_of_failed h.orderly hs hp
      rw [hc]
      exact ⟨fun _ => hp', fun _ => ih.mpr hp⟩
    · rcases cause_of_step h.orderly hs hp with ⟨hp', hc⟩ | ⟨hp', hc⟩
      · rw [hc]
        exact ⟨fun h => (hp (ih.mp h)).elim, fun h => (hp' h).elim⟩
      · refine ⟨fun _ => hp', fun _ => ?_⟩
        rcases hc with ⟨_, hc, -⟩ | ⟨_, _, _, hc, -, -⟩ <;> rw [hc] <;> rfl

lemma SoFar.left_of_failing {n : Nat} {idle : Int} {p : Phase} {e : Failure} {l : List Event}
    (h : SoFar n idle p (.failing e) l) : [.left n (some e)] <:+ l := by
  cases h with
  | failing _ _ _ =>
    exact (List.suffix_append [_] [_]).trans (List.suffix_append _ _)
  | past hw _ => cases hw

theorem origin_of_run (h : QuietRun (fresh config) es s) {e : Failure}
    (he : s.control.cause = some e) : Origin es e := by
  induction h with
  | refl _ => cases he
  | @step es s s' m h hs _ ih =>
    have hr : Reachable config s := QuietRun.reachable h .init
    by_cases hp : s.control.phase = .failed
    · obtain ⟨hn, -, hc⟩ := rests_of_failed hr.orderly hs hp
      rw [hn, Option.toList_none, List.append_nil]
      exact ih (hc ▸ he)
    · rcases cause_of_step hr.orderly hs hp with ⟨-, hc⟩ | ⟨-, ⟨t, hc, hn⟩ | ⟨n, p, f, hc, hw, hn⟩⟩
      · -- without having failed there was no cause
        have hnone := mt (cause_iff_of_reachable hr).mp hp
        rw [← hc, he] at hnone
        exact (hnone rfl).elim
      · obtain rfl := Option.some.inj (hc.symm.trans he)
        rw [hn]
        exact .inr ⟨rfl, t, List.mem_append_right _ List.mem_cons_self⟩
      · obtain rfl := Option.some.inj (hc.symm.trans he)
        obtain ⟨l, hl⟩ := ((soFar_of_run h n).2 _ hw).left_of_failing
        have hevents : eventsOf n (es ++ (some (Event.reached n p .failed)).toList) =
            eventsOf n es ++ [.reached n p .failed] :=
          eventsOf_own (beq_self_eq_true n)
        refine .inl ⟨n, p, l, ?_⟩
        rw [hn, hevents, ← hl, List.append_assoc]
        rfl

/-! ### Every run -/

/-- The lines of the log tell of one path, from the first phase to the present one. -/
theorem tells_of_run (h : QuietRun (fresh config) es s) :
    Tells config.name .new s.journal.moves s.control.phase := by
  induction h with
  | refl _ => exact .start
  | @step es s s' m h hs _ ih =>
    rcases change_of_step h hs with ⟨hl, hp⟩ | ⟨⟨t, hl⟩, hleads⟩
    · rw [hl, hp]
      exact ih
    · rw [hl]
      exact .change t ih hleads

/-- **The phases as a state machine**, at the end of a run and in whatever follows. -/
structure Lawful (config : Config) (es : List Event) (s : ControlScene) : Prop where
  /-- A move changes the phase in one of the ten ways, and a control that is starting fails only
  when the thread of its worker cannot be created. -/
  steps : ∀ m s', s.step m = some s' → s'.control.phase ≠ s.control.phase →
    s.control.phase.leadsTo s'.control.phase = true ∧
      (s.control.phase = .starting → s'.control.phase = .failed →
        ∃ t, m = .call t ∧ s.control.calls.get? t = some (.start false .spawning))
  /-- There is a cause in the failed phase, and only there. -/
  cause : s.control.cause.isSome = true ↔ s.control.phase = .failed
  /-- The cause is what escaped the cycle, or that no thread could be created. -/
  origin : ∀ e, s.control.cause = some e → Origin es e
  /-- The failed phase is never left, nor does its cause change. -/
  final : s.control.phase = .failed → ∀ es' u,
    Chronicle ControlScene.step note (fun _ => True) s es' u →
      u.control.phase = .failed ∧ u.control.cause = s.control.cause
  /-- The log tells of one path from the first phase to the present one. -/
  log : Tells config.name .new s.journal.moves s.control.phase

/-- **Every run keeps to the state machine**, whatever calls are made and whatever escapes the
cycles. -/
theorem lawful_of_run (h : QuietRun (fresh config) es s) : Lawful config es s := by
  have hr : Reachable config s := h.reachable .init
  refine ⟨fun m s' hs hne => ⟨?_, denied_of_step hr.orderly hs⟩, cause_iff_of_reachable hr,
    fun e he => origin_of_run h he, fun hp es' u hu => (failed_along hr hp hu).2, tells_of_run h⟩
  rcases change_of_step h hs with ⟨-, hp⟩ | ⟨-, hleads⟩
  · exact (hne hp).elim
  · exact hleads

/-- A start, a cycle that a task breaks while a stop waits, and the failure of the worker. -/
def brokenCycle : List Move :=
  [.start (.client 0) true, .call (.client 0), .call (.client 0), .call (.client 0), .work 0,
    .work 0, .work 0, .stop (.client 1), .call (.client 1), .call (.client 1),
    .endCycle 0 (some (.number 3)), .work 0]

theorem lawful_brokenCycle : ∃ es s, QuietRun (fresh {}) es s ∧ s.control.phase = .failed ∧
    s.control.cause = some (.number 3) ∧ Lawful {} es s := by
  obtain ⟨es, s, h, hf⟩ : ∃ es s, QuietRun (fresh {}) es s ∧
      (s.control.phase, s.control.cause) = (.failed, some (.number 3)) :=
    exists_quietRun brokenCycle rfl
  obtain ⟨hp, hc⟩ := Prod.mk.inj hf
  exact ⟨es, s, h, hp, hc, lawful_of_run h⟩

end ControlScene

end SerialWriter
