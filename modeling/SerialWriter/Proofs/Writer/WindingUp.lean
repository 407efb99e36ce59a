import SerialWriter.Proofs.Writer.Pace

/-!
The end of a writer that a task has stopped. The worker that runs the task is told to stop in the
middle of a cycle: it enters one more, the last one, unless it is in that already, and ends the
writer. Main statement: what a task is told of the calls that it makes of its own writer.
-/

namespace SerialWriter

variable {σ V : Type}

lemma WorkerStage.Goes.ne {n : Nat} {idle : Int} {quiet : Prop} {s s' : WorkerStage} {p q : Phase}
    {ev : Option ControlScene.Event} (h : s.Goes n idle quiet p ev s' q) : s' ≠ s := by
  cases h with
  | @opens f _ | @retires f _ | @fails _ _ f _ _ | @reports _ f _ => cases f <;> exact nofun
  | @exits _ last e _ _ => cases e <;> cases last <;> exact nofun
  | hurries | looks _ | enters _ _ | leaves _ => exact nofun

/-- Only a step of its worker takes a stopping writer into another phase. -/
lemma Control.Advance.stopping {c d : Control} {j : Journal} {ev : Option ControlScene.Event}
    {n : Nat} {s : WorkerStage} (h : c.Advance j ev d) (hs : Staffed c) (hp : c.phase = .stopping)
    (hw : c.worker? n = some s) (hpres : s.present = true) : d.phase = .stopping ∨
      ∃ s', d.worker? n = some s' ∧
        s.Goes n c.config.idleDelay (j.armed = none) .stopping ev s' d.phase := by
  cases h with
  | rests hd _ _ | creates _ _ _ hd _ _ => exact .inl (hd.trans hp)
  | turns hturn _ _ =>
    exfalso
    generalize d.phase = q at hturn
    cases hturn with
    | starts hp' _ | halts hp' => rcases hp' with hp' | hp' <;> cases hp.symm.trans hp'
    | retires hp' _ | denied _ hp' _ => cases hp.symm.trans hp'
  | @works d i s₁ s₂ ev hi hset _ hgoes =>
    obtain rfl : i = n := hs.eq_of_present hi hgoes.present hw hpres
    obtain rfl := Option.some.inj (hw.symm.trans hi)
    exact .inr ⟨_, worker?_set_self hset hw, hp ▸ hgoes⟩

namespace Writer

variable {w v u w₀ x y z : Writer σ V} {n k : Nat} {m : Move σ V} {last : Bool}
  {base new : List (Nat × Int)} {s : WorkerStage}

/-! ### One more cycle -/

/-- The cycles that worker `n` enters after it has been told to stop in a cycle: one that does not
wait, unless it is in its last one. -/
def lastCycles (n : Nat) (last : Bool) : List (Nat × Int) := if last then [] else [(n, 0)]

/-- **Where worker `n` is on its way out**, and the cycles it has entered since it was told to stop
in a cycle, which was the last one or not. -/
inductive Winds (n : Nat) (last : Bool) : WorkerStage → List (Nat × Int) → Prop
  | ends : Winds n last (.cycling last) []
  | looks (hl : last = false) : Winds n last .looking []
  | turns (hl : last = false) : Winds n last (.entering true) []
  | finals (hl : last = false) : Winds n last (.cycling true) [(n, 0)]
  | retires : Winds n last .retiring (lastCycles n last)
  | breaks {e : Failure} {new : List (Nat × Int)} (hn : new = [] ∨ new = lastCycles n last) :
      Winds n last (.failing e) new

lemma Winds.present (h : Winds n last s new) : s.present = true := by
  cases h <;> rfl

lemma Winds.entered (h : Winds n last s new) : new = [] ∨ new = lastCycles n last := by
  cases h with
  | ends | looks _ | turns _ => exact .inl rfl
  | finals hl => exact .inr (hl ▸ rfl)
  | retires => exact .inr rfl
  | breaks hn => exact hn

/-- In the step from `x` to `y` a line of the log fails that worker `n` writes in its cycle, which
breaks the cycle. -/
structure BreaksCycle (n : Nat) (x y : Writer σ V) : Prop where
  step : x.step (.run (.worker n)) = some y
  cycling : ∃ last, x.control.worker? n = some (.cycling last)
  failing : ∃ e, y.control.worker? n = some (.failing e)
  armed : x.journal.armed ≠ none

/-- **Worker `n` is on its way out** of a stopping writer. -/
structure Winding (n : Nat) (last : Bool) (base : List (Nat × Int)) (w : Writer σ V) : Prop where
  linked : w.course.Linked
  stopping : w.phase = .stopping
  stage : ∃ s new, w.control.worker? n = some s ∧ Winds n last s new ∧
    w.control.cycles = new ++ base

/-- **What a move does** to a worker on its way out. -/
inductive WindsOn (n : Nat) (last : Bool) (base : List (Nat × Int)) (m : Move σ V)
    (w v : Writer σ V) : Prop
  | rests (h : Winding n last base v)
      (hf : ∀ e, v.control.worker? n = some (.failing e) → w.control.worker? n = some (.failing e))
  | breaks (h : Winding n last base v) (hb : BreaksCycle n w v)
  | ends (hm : m = .run (.worker n)) (hp : v.phase = .terminated)
      (hc : v.control.cycles = lastCycles n last ++ base)
  | fails {e : Failure} (hm : m = .run (.worker n)) (hp : v.phase = .failed)
      (hw : w.control.worker? n = some (.failing e))

lemma stopping_of_step {s' : WorkerStage} (hl : w.course.Linked) (hp : w.phase = .stopping)
    (hw : w.control.worker? n = some s) (hpres : s.present = true) (hs : w.step m = some v)
    (hv : v.control.worker? n = some s') (hss : s' = s ∨ ∃ last, s = .cycling last) :
    v.phase = .stopping := by
  rcases hl.control_step (step_course hs) with hc | ⟨now, j, j', hc⟩
  · rw [phase, show v.control = w.control from hc]
    exact hp
  · obtain ⟨ev, ha⟩ := hl.orderly.advance hc
    rcases ha.stopping hl.orderly.staffed hp hw hpres with hv' | ⟨s'', hs'', hgoes⟩
    · exact hv'
    · obtain rfl := Option.some.inj (hv.symm.trans hs'')
      rcases hss with rfl | ⟨last, rfl⟩
      · exact absurd rfl hgoes.ne
      · change v.control.phase = _
        change WorkerStage.Goes n _ _ _ _ _ _ v.control.phase at hgoes
        generalize v.control.phase = p at hgoes
        cases hgoes
        rfl

theorem Winding.step (h : Winding n last base w) (hs : w.step m = some v) :
    WindsOn n last base m w v := by
  obtain ⟨hl, hp, s, new, hw, hwinds, hcycles⟩ := h
  have hlv : v.course.Linked := hl.step (step_course hs)
  cases shifts_of_step hl hw hwinds.present hs with
  | rests hv hc =>
    refine .rests ⟨hlv, stopping_of_step hl hp hw hwinds.present hs hv (.inl rfl),
      s, new, hv, hwinds, hc.trans hcycles⟩ fun e he => ?_
    obtain rfl := Option.some.inj (hv.symm.trans he)
    exact hw
  | @exits last' e hm hsl he hk hc =>
    subst hsl
    have hv := Control.worker?_set_self hk hw
    have hphase := stopping_of_step hl hp hw rfl hs hv (.inr ⟨_, rfl⟩)
    have hon : ∀ {new'}, Winds n last (.afterCycle last' e) new' →
        v.control.cycles = new' ++ base → Winding n last base v := fun hw' hc' =>
      ⟨hlv, hphase, _, _, hv, hw', hc'⟩
    cases e with
    | some e =>
      exact .breaks (hon (.breaks hwinds.entered) (hc.trans hcycles))
        ⟨hm ▸ hs, ⟨_, hw⟩, ⟨e, hv⟩, fun hq => nomatch he hq⟩
    | none =>
      have hnot : ∀ e, v.control.worker? n ≠ some (.failing e) := by
        intro e he
        have := hv.symm.trans he
        cases last' <;> cases this
      refine .rests ?_ fun e he => absurd he (hnot e)
      -- a last cycle that comes back lets the worker retire, any other one lets it look again
      cases hwinds with
      | ends =>
        cases last with
        | false => exact hon (.looks rfl) (hc.trans hcycles)
        | true => exact hon .retires (hc.trans hcycles)
      | finals hlast =>
        subst hlast
        exact hon .retires (hc.trans hcycles)
  | turns hm hturn =>
    -- the turns that keep the phase
    have hon : ∀ {s' new'}, v.control.workers = w.control.workers.set n s' →
        v.control.phase = w.control.phase → v.control.cycles = new' ++ base →
        Winds n last s' new' → (∀ e, s' ≠ .failing e) → WindsOn n last base m w v := by
      intro s' new' hset hphase hc hw' hne
      have hv := Control.worker?_set_self hset hw
      exact .rests ⟨hlv, hphase.trans hp, s', new', hv, hw', hc⟩ fun e he =>
        absurd (Option.some.inj (hv.symm.trans he)) (hne e)
    have hp' : w.control.phase = .stopping := hp
    generalize hd : v.control = d at hturn
    generalize v.journal = j' at hturn
    cases hturn with
    | looks =>
      rw [hp'] at hd
      cases hwinds with
      | looks hlast =>
        exact hon (by rw [hd]; rfl) (by rw [hd]; rfl) (by rw [hd]; exact hcycles) (.turns hlast)
          nofun
    | enters =>
      cases hwinds with
      | turns hlast =>
        have hc : v.control.cycles = [(n, 0)] ++ base := by
          rw [hd]
          exact congrArg (_ :: ·) hcycles
        exact hon (by rw [hd]; rfl) (by rw [hd]; rfl) hc (.finals hlast) nofun
    | retires _ he =>
      cases hwinds with
      | retires =>
        refine .ends hm ?_ ?_
        · rw [phase, hd]
          exact (Control.enter_frame he).1
        · rw [hd]
          exact (Control.enter_frame he).2.2.2.2.2.2.trans hcycles
    | fails _ he =>
      refine .fails hm ?_ hw
      rw [phase, hd]
      exact (Control.enter_frame he).1
    | opens _ _ _ | hurries _ _ | reports _ | leaves => cases hwinds

def Stopping (w : Writer σ V) : Prop := w.phase = .stopping

/-- On the way from `z` to `u`, while the writer is stopping, a cycle of worker `n` is broken. -/
def Broken (n : Nat) (z u : Writer σ V) : Prop :=
  ∃ x y, Along Writer.step Stopping z x ∧ BreaksCycle n x y ∧ Along Writer.step Stopping y u

/-- **The whole way out**: the worker is where it may be, and fails only after a broken cycle. -/
theorem winding_of_run (hz : Winding n last base z)
    (hne : ∀ e, z.control.worker? n ≠ some (.failing e)) (h : Along Writer.step Stopping z u) :
    Winding n last base u ∧ ∀ e, u.control.worker? n = some (.failing e) → Broken n z u := by
  induction h with
  | refl _ => exact ⟨hz, fun e he => absurd he (hne e)⟩
  | @step u v m h hs hv ih =>
    obtain ⟨hu, hbroken⟩ := ih
    cases hu.step hs with
    | rests hw hf =>
      refine ⟨hw, fun e he => ?_⟩
      obtain ⟨x, y, hx, hxy, hy⟩ := hbroken e (hf e he)
      exact ⟨x, y, hx, hxy, .step m hy hs hv⟩
    | breaks hw hb => exact ⟨hw, fun e _ => ⟨u, v, h, hb, .refl hv⟩⟩
    | ends _ hp _ => cases hp.symm.trans hv
    | fails _ hp _ => cases hp.symm.trans hv

/-! ### The end of the writer -/

/-- **What comes of a writer** that has been told to stop at `z`, in a cycle of worker `n`. -/
structure WindsUp (n : Nat) (last : Bool) (z : Writer σ V) : Prop where
  cycling : z.control.worker? n = some (.cycling last)
  /-- The worker enters the last cycle once, unless it is in that already, and no other. -/
  cycles : ∀ u, Along Writer.step Stopping z u → u.control.cycles = z.control.cycles ∨
    u.control.cycles = lastCycles n last ++ z.control.cycles
  /-- It has done so when it ends the writer, and nobody else takes the writer out of this phase.
  The writer fails only if a cycle is broken on the way. -/
  ends : ∀ u m v, Along Writer.step Stopping z u → u.step m = some v → v.phase ≠ .stopping →
    m = .run (.worker n) ∧
      (v.phase = .terminated ∧ v.control.cycles = lastCycles n last ++ z.control.cycles ∨
        v.phase = .failed ∧ Broken n z u)
  /-- The worker can be brought to end the writer from wherever it has got to, if no line is set to
  fail and nobody joins it to destroy the writer. -/
  reaches : ∀ u, Along Writer.step (fun v => Stopping v ∧ v.journal.armed = none) z u →
    Undestroyed u → LeadsTo Writer.step (fun v => v.journal.armed = none)
      (fun v => v.phase = .terminated) u

lemma Winding.reaches (h : Winding n last base w) (hf : Fit n w)
    (hne : ∀ e, w.control.worker? n ≠ some (.failing e)) :
    LeadsTo Writer.step (fun v => v.journal.armed = none) (fun v => v.phase = .terminated) w := by
  obtain ⟨s, new, hw, hwinds, -⟩ := h.stage
  have hhalt : Halting n w := ⟨hf, h.stopping⟩
  cases hwinds with
  | ends | finals _ => exact hhalt.ends_of_cycling hw
  | looks _ => exact hhalt.ends_of_looking hw
  | turns _ => exact hhalt.ends_of_entering hw
  | retires => exact hhalt.retires hw
  | breaks _ => exact absurd hw (hne _)

lemma windsUp_of_cycling (hz : Poised n z) (hp : z.phase = .stopping)
    (hw : z.control.worker? n = some (.cycling last)) : WindsUp n last z := by
  have hwinding : Winding n last z.control.cycles z :=
    ⟨hz.tuned.linked, hp, _, _, hw, .ends, rfl⟩
  have hne : ∀ e, z.control.worker? n ≠ some (.failing e) := fun e he => nomatch hw.symm.trans he
  refine ⟨hw, fun u hu => ?_, fun u m v hu hs hv => ?_, fun u hu hd => ?_⟩
  · obtain ⟨s, new, -, hwinds, hc⟩ := (winding_of_run hwinding hne hu).1.stage
    rcases hwinds.entered with rfl | rfl
    · exact .inl hc
    · exact .inr hc
  · obtain ⟨hwu, hbroken⟩ := winding_of_run hwinding hne hu
    cases hwu.step hs with
    | rests hw' _ | breaks hw' _ => exact absurd hw'.stopping hv
    | ends hm hp' hc => exact ⟨hm, .inl ⟨hp', hc⟩⟩
    | fails hm hp' he => exact ⟨hm, .inr ⟨hp', hbroken _ he⟩⟩
  · -- no cycle is broken as long as no line is set to fail
    obtain ⟨hpu, hwu, hneu⟩ := hu.keeps
      (I := fun v => Poised n v ∧ Winding n last z.control.cycles v ∧
        ∀ e, v.control.worker? n ≠ some (.failing e)) (fun _ => ⟨hz, hwinding, hne⟩) <| by
      rintro v m v' ⟨-, hq⟩ ⟨hpv, hwv, hnv⟩ hs ⟨hst, hq'⟩
      refine ⟨hpv.step hs hq', ?_⟩
      cases hwv.step hs with
      | rests hw' hf => exact ⟨hw', fun e he => hnv e (hf e he)⟩
      | breaks _ hb => exact absurd hq hb.armed
      | ends _ hp' _ | fails _ hp' _ => cases hp'.symm.trans hst
    exact hwu.reaches ⟨hpu, fun t _ => hd t⟩ hneu

/-! ### What a task is told -/

variable {q : TaskCall σ V} {es : List (Event σ V)} {config : Config} {target : String}
  {factory : Option (Factory σ)} {resource : σ} {now : Time} {j j' : Journal} {t : Thread}

/-- **What a task is told of a call** of its own writer which it began in `y` and which is over
in `z`, and what has come of it. -/
inductive Told (n k : Nat) (y : Writer σ V) (es : List (Event σ V)) (z : Writer σ V) :
    TaskCall σ V → Except Failure (Option V) → Prop
  | start {p : Phase} (hp : p = .running ∨ p = .stopping) :
      Told n k y es z .start (.error (.refused (.startWhile z.control.config.name p)))
  /-- The stop has walked over the pending tickets, once. -/
  | stop {l : List Nat} {last : Bool} (hp : z.phase = .stopping)
      (hl : walksOf (.worker n) es = [l]) (hw : Passes n k (WalksOver (.worker n)) y z)
      (he : WindsUp n last z) : Told n k y es z .stop (.error (.refused z.control.expiry))
  | write {s : Submission σ V} {r : Except Failure (Option V)}
      (hf : Passes n k (fun u _ => Fate s (.worker n) u r) y z) : Told n k y es z (.write s) r

lemma Asks.poised (h : Asks n k q x y)
    (hc : create config target factory resource now t j = (.ok w₀, j')) (hx : Reachable w₀ x)
    (hq : y.journal.armed = none) : Poised n x := by
  obtain ⟨p, back?, hy, -⟩ := h.task
  have hquiet : x.journal.armed = none := by
    rw [← hq, (h.begins (hx.tuned hc).linked).2.same]
  refine .of_reachable hc hx hquiet fun k' g hg => ?_
  cases hy.symm.trans hg

/-- A call that a task makes can be brought to its end, if nobody joins the worker to destroy the
writer. -/
lemma During.comes_back (h : During n k z) (hz : Poised n z) (hu : Undestroyed z) :
    LeadsTo Writer.step (During n k) (Over n) z := by
  obtain ⟨g, hy⟩ := h.task
  have hin : Inside n k g z := ⟨⟨hz, fun t _ => hu t⟩, hy, h.calling⟩
  exact hin.comes_back.mono (fun v hv => ⟨hv.fit.quiet, hv.call, g, hv.cycle⟩) fun _ hv => hv

/-- **Calls from inside a task.** In any run of a writer, whatever its other threads do, let the
task of ticket `k` make a call of the writer, and no line of the log be set to fail meanwhile.

A start is refused and changes nothing. A stop is refused as expired; it leaves the writer stopping
and has released everyone who waits for a pending ticket, and the worker enters the last cycle,
unless it is in that already, and ends the writer. A write is rejected, fails in the factory, is
dropped, expires or is interrupted, or nobody waits for its outcome: it is never told of its own
task. And each call comes to its end, wherever it has got to. -/
theorem told_of_call (hc : create config target factory resource now t j = (.ok w₀, j'))
    (hx : Reachable w₀ x) (hq : Asks n k q x y)
    (h : Chronicle Writer.step note (During n k) y es z) :
    (∀ r, z.calls.get? (.worker n) = some (.ended r) → Told n k y es z q r) ∧
    (q = .start → Idle (.worker n) x y ∧
      ∀ v, z.step (.run (.worker n)) = some v → Idle (.worker n) z v) ∧
    (Undestroyed z → LeadsTo Writer.step (During n k) (Over n) z) := by
  have hpx : Poised n x := hq.poised hc hx h.along.start.quiet
  have hl := hpx.tuned.linked
  have hz : Poised n z := h.along.keeps (I := Poised n) (fun hy => hpx.step hq.step hy.quiet)
    fun u m v _ hu hs hv => hu.step hs hv.quiet
  obtain ⟨hlz, a, ha, hst⟩ := stands_of_run hl hq h.along
  obtain ⟨g, hg⟩ := h.along.holds.task
  refine ⟨fun r hr => ?_, fun he => ?_, h.along.holds.comes_back hz⟩
  · obtain rfl := Option.some.inj (hr.symm.trans ha)
    cases hst with
    | started hp => exact .start hp
    | stopped hp =>
      obtain ⟨⟨l, hl'⟩, hwalks⟩ := walked_of_run hl hpx.known hq h hr
      obtain ⟨last, hw⟩ := hlz.cycling hg
      exact .stop hp hl' hwalks (windsUp_of_cycling hz hp hw)
    | written => exact .write (fate_of_run hl hq h.along hr)
  · subst he
    exact ⟨(hq.begins hl).2, fun v hs => (hst.start_own hlz hg ha hs).1⟩

/-- The first task is about to stop the writer. -/
def aboutToStop (w : Writer Nat Unit) : Bool :=
  match w.cycles.get? (.worker 0) with
  | some (.running 0 (.inner (.stop _) _)) => true
  | _ => false

/-- Worker 0 is inside a call that the first task makes, and no line is set to fail. -/
def inFirstTask (w : Writer Nat Unit) : Bool :=
  w.journal.armed.isNone && (w.calls.get? (.worker 0)).isSome &&
    match w.cycles.get? (.worker 0) with
    | some (.running 0 (.calling _)) => true
    | _ => false

lemma Asks.of_aboutToStop {x y : Writer Nat Unit} (h : aboutToStop x = true)
    (hs : x.step (.run (.worker 0)) = some y) : Asks 0 0 .stop x y := by
  unfold aboutToStop at h
  split at h
  · rename_i hg
    exact ⟨⟨_, _, hg, rfl⟩, hs⟩
  · cases h

lemma During.of_inFirstTask {w : Writer Nat Unit} (h : inFirstTask w = true) : During 0 0 w := by
  rw [inFirstTask, Bool.and_eq_true, Bool.and_eq_true] at h
  obtain ⟨⟨hq, hc⟩, hy⟩ := h
  refine ⟨Option.isNone_iff_eq_none.mp hq, hc, ?_⟩
  split at hy
  · rename_i g hg
    exact ⟨g, hg⟩
  · cases hy

/-- A start and two writes that nobody waits for; the first task is about to stop the writer. -/
def stopFromTask : List (Move Nat Unit) :=
  startUp ++ submit 1 (.stop fun _ => .ret ()) ++ submit 2 (.ret ()) ++ goOn (.worker 0) 5

/-- The stop, which waits for its own worker for as long as it may. -/
def stopInVain : List (Move Nat Unit) :=
  goOn (.worker 0) 3 ++ [.pass 30000000000] ++ goOn (.worker 0) 4

/-- The first task stops the writer, and is told that it has not ended in time; the second one is
still pending when it is, and is run in the last cycle. -/
theorem told_of_ownStop : ∃ (w₀ x y z u : Writer Nat Unit) (j : Journal)
    (es : List (Event Nat Unit)),
    create {} "target" none 0 0 (.client 0) {} = (.ok w₀, j) ∧ Reachable w₀ x ∧
      Asks 0 0 .stop x y ∧ Chronicle Writer.step note (During 0 0) y es z ∧
      z.calls.get? (.worker 0) = some (.ended (.error (.refused (.stopExpired "writer" 30000)))) ∧
      walksOf (.worker 0) es = [[1]] ∧
      Told 0 0 y es z .stop (.error (.refused (.stopExpired "writer" 30000))) ∧
      Reachable z u ∧ u.phase = .terminated ∧ u.control.cycles = (0, 0) :: z.control.cycles ∧
      u.begun = [1, 0] := by
  obtain ⟨w₀, j, hc⟩ : ∃ (w₀ : Writer Nat Unit) (j : Journal),
      create {} "target" none 0 0 (.client 0) {} = (.ok w₀, j) := ⟨_, _, rfl⟩
  obtain ⟨x, hx, hs⟩ : ∃ x, Along step (fun _ => true = true) w₀ x ∧
      (aboutToStop x, (x.step (.run (.worker 0))).bind fun y =>
        (record step note inFirstTask y stopInVain).bind fun r =>
          (follow step (fun _ => true) r.2 (goOn (.worker 0) 21)).map fun u =>
            ((r.2.calls.get? (.worker 0), walksOf (.worker 0) r.1, r.2.control.cycles),
              (u.phase, u.control.cycles, u.begun))) =
      (true, some ((some (.ended (.error (.refused (.stopExpired "writer" 30000)))), [[1]],
        [(0, 5)]), (.terminated, [(0, 0), (0, 5)], [1, 0]))) := by
    cases hc
    exact exists_along stopFromTask rfl
  obtain ⟨hasks, hmore⟩ := Prod.mk.inj hs
  obtain ⟨y, hy, hmore⟩ := Option.bind_eq_some_iff.mp hmore
  obtain ⟨⟨es, z⟩, hz, hmore⟩ := Option.bind_eq_some_iff.mp hmore
  obtain ⟨u, hu, hseen⟩ := Option.map_eq_some_iff.mp hmore
  simp only [Prod.mk.injEq] at hseen
  obtain ⟨⟨hended, hwalks, hcycles⟩, hphase, hcycles', hbegun⟩ := hseen
  have hx : Reachable w₀ x := .of_along .refl hx
  have hasks := Asks.of_aboutToStop hasks hy
  have hz := (chronicle_of_record hz).mono fun _ => During.of_inFirstTask
  exact ⟨w₀, x, y, z, u, j, es, hc, hx, hasks, hz, hended, hwalks,
    (told_of_call hc hx hasks hz).1 _ hended, .of_along .refl (along_of_follow hu), hphase,
    by rw [hcycles', hcycles], hbegun⟩

end Writer

end SerialWriter
