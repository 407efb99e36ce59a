import SerialWriter.Proofs.Writer.Nested
import SerialWriter.Proofs.Writer.Trail

/-!
A writer of which no line of the log is set to fail: a run keeps it so. What its threads are in the
middle of at the queue, and what its worker is in the middle of in a task, is always something that
can go on.
-/

namespace SerialWriter

variable {σ V : Type}

/-! ### Lines that do not fail -/

lemma Control.enter_of_unarmed {c : Control} {p : Phase} {t : Thread} {j : Journal}
    (hj : j.armed = none) : c.enter p t j =
      (none, ({ c with phase := p } : Control).notifyAll,
        (j.log t (.moved c.config.name c.phase p)).2) := by
  have hlog : j.log t (.moved c.config.name c.phase p) =
      (none, (j.log t (.moved c.config.name c.phase p)).2) :=
    Prod.ext (Journal.log_of_unarmed hj ..).1 rfl
  rw [enter, hlog]

/-- **Only a client arms a line.** -/
lemma Writer.unarmed_of_run {w v : Writer σ V} {t : Thread} (h : w.run t = some v)
    (hj : w.journal.armed = none) : v.journal.armed = none := by
  cases marks_of_run h with
  | trail h _ => exact h.journal.unarmed hj
  | measures _ _ _ hd _ _ =>
    rcases Ledger.noteDepth_cases hd with ⟨-, -, -, hsame⟩ | ⟨-, hlog, -⟩
    · rw [hsame]
      exact hj
    · exact Journal.unarmed_log hlog hj

/-! ### Writes that are about to notify -/

lemma Affairs.Step.notifying {c d : Affairs σ V} {ev : Option (Writer.Event σ V)}
    (h : c.Step ev d) {t : Thread} {s : Submission σ V} {k : Nat}
    (hd : d.calls.get? t = some (.writing s (.notifying k))) :
    c.calls.get? t = some (.writing s (.notifying k)) ∨
      c.calls.get? t = some (.writing s (.offering k)) := by
  have hput : ∀ {u : Thread} {a : CallOfWriter σ V}, (∀ k, a ≠ .writing s (.notifying k)) →
      (c.calls.put u a).get? t = some (.writing s (.notifying k)) →
      c.calls.get? t = some (.writing s (.notifying k)) ∨
        c.calls.get? t = some (.writing s (.offering k)) := by
    intro u a ha hu
    by_cases htu : t = u
    · rw [htu, Roster.get?_put_self] at hu
      exact absurd (Option.some.inj hu) (ha k)
    · exact .inl ((Roster.get?_put_ne _ _ htu).symm.trans hu)
  have hdrop : ∀ {u : Thread}, (c.calls.drop u).get? t = some (.writing s (.notifying k)) →
      c.calls.get? t = some (.writing s (.notifying k)) ∨
        c.calls.get? t = some (.writing s (.offering k)) := by
    intro u hu
    rw [Roster.get?_drop, Option.ite_none_left_eq_some] at hu
    exact .inl hu.2
  have hnot : ∀ {a : CallOfWriter σ V}, a.isWrite = false → ∀ k, a ≠ .writing s (.notifying k) := by
    rintro _ ha k rfl
    cases ha
  cases h with
  | turns _ ha | walks _ ha => exact hput (hnot ha) hd
  | quits _ | bodyReturns _ _ => exact hdrop hd
  | clears _ | requests _ | admits _ | refuses _ _ | makes _ _ | misses _ | notifies _ | drops _
  | hears _ | collects _ _ | parts _ _ =>
    refine hput ?_ hd
    simp
  | submits _ ha =>
    refine hput ?_ hd
    rcases ha with rfl | ⟨d, rfl⟩ <;> simp
  | bodyCalls _ _ _ ha _ =>
    refine hput ?_ hd
    rcases ha with ha | ⟨s', rfl⟩
    · exact hnot ha
    · simp
  | @offers u s' k' ht =>
    by_cases htu : t = u
    · subst htu
      cases (Roster.get?_put_self ..).symm.trans hd
      exact .inr ht
    · exact .inl ((Roster.get?_put_ne _ _ htu).symm.trans hd)
  | _ => exact .inl hd

namespace Writer

variable {w v u : Writer σ V} {t : Thread} {a : CallOfWriter σ V} {n k : Nat} {m : Move σ V}

/-- **Whoever is about to notify one consumer** is a write that has made its offer. -/
def Sounds (w : Writer σ V) : Prop :=
  ∀ t, w.queue.stages.get? t = some (.notifying false) ↔
    ∃ s k, w.calls.get? t = some (.writing s (.notifying k))

lemma Goes.notifying (h : Goes t w v) {u : Thread} (hu : u ≠ t) {b : Bool} :
    v.queue.stages.get? u = some (.notifying b) ↔ w.queue.stages.get? u = some (.notifying b) := by
  have hdrop : (w.queue.stages.drop t).get? u = w.queue.stages.get? u :=
    Roster.get?_drop_ne _ hu
  cases h with
  | calls _ _ _ hq =>
    cases hq with
    | rests _ hs _ _ _ => rw [hs]
    | offers _ _ hs _ => rw [hs, Roster.get?_put_ne _ _ hu]
    | tells _ hq _ | wakes _ hq _ _ =>
      rw [hq.rouses.notifying]
      exact iff_of_eq (congrArg (· = some (QueueStage.notifying b)) hdrop)
    | rings _ _ hv =>
      subst hv
      exact iff_of_eq (congrArg (· = some (QueueStage.notifying b)) (Roster.get?_put_ne _ _ hu))
  | works _ _ _ _ _ hq | cycles _ _ _ _ _ _ _ hq => rw [hq]
  | takes _ _ hw _ hv => rw [(took_of_pop hw hv).2, SharedQueue.stages_pop, hdrop]
  | waits _ _ _ _ _ _ hv =>
    subst hv
    exact iff_of_eq (congrArg (· = some (QueueStage.notifying b)) (Roster.get?_put_ne _ _ hu))

/-- A thread that goes on is about to notify one consumer only if it has just made its offer. -/
lemma Sounds.goes (h : w.Sounds) (ht : w.Tuned) (hs : w.step (.run t) = some v)
    (hg : Goes t w v) : v.queue.stages.get? t = some (.notifying false) ↔
      ∃ s k, v.calls.get? t = some (.writing s (.notifying k)) := by
  have hrests : w.Rests t → ∀ s k, v.calls.get? t ≠ some (.writing s (.notifying k)) := by
    intro hr s k hv
    rcases (affairs_of_step ht.linked hs).notifying hv with hw | hw
    · obtain ⟨r, hr⟩ := hr _ hw
      cases hr
    · obtain ⟨r, hr⟩ := hr _ hw
      cases hr
  have hboth : v.queue.stages.get? t ≠ some (.notifying false) →
      (∀ s k, v.calls.get? t ≠ some (.writing s (.notifying k))) →
      (v.queue.stages.get? t = some (.notifying false) ↔
        ∃ s k, v.calls.get? t = some (.writing s (.notifying k))) := fun hq hc =>
    ⟨fun hv => absurd hv hq, fun ⟨s, k, hv⟩ => absurd hv (hc s k)⟩
  have hkept : v.queue = w.queue → w.Rests t →
      v.queue.stages.get? t ≠ some (.notifying false) := fun hq hr hv =>
    ht.not_notifying (.inl hr) (hq ▸ hv)
  have hnotify : ∀ {chosen : Option Thread}, w.queue.Notifies t chosen v.queue →
      v.queue.stages.get? t ≠ some (.notifying false) := by
    intro chosen hq hv
    rw [hq.rouses.notifying] at hv
    cases (Roster.get?_drop_self ..).symm.trans hv
  cases hg with
  | calls ha _ _ hq =>
    cases hq with
    | rests _ hs hn _ hv =>
      refine hboth (fun hq => ?_) hv
      obtain ⟨s, k, hc⟩ := (h t).mp (hs ▸ hq)
      exact hn s k (Option.some.inj (ha.symm.trans hc))
    | offers _ _ hs hc =>
      rw [hs, hc]
      exact ⟨fun _ => ⟨_, _, Roster.get?_put_self ..⟩, fun _ => Roster.get?_put_self ..⟩
    | tells _ hq hv | wakes _ hq _ hv => exact hboth (hnotify hq) hv
    | rings hw _ hv =>
      subst hv
      -- a stop that has raised the flag is about to notify everyone
      refine hboth (fun hq => ?_) fun s k hc => ?_
      · cases (Roster.get?_put_self ..).symm.trans hq
      · obtain ⟨-, b, hb, hi⟩ := ht.phase_of_waking hw
        cases hb.symm.trans hc
        cases hi
  | works _ hr _ _ _ hq | cycles _ hr _ _ _ _ _ hq => exact hboth (hkept hq hr) (hrests hr)
  | takes _ hr hw _ hv =>
    refine hboth (fun hq => ?_) (hrests hr)
    rw [(took_of_pop hw hv).2] at hq
    cases (Roster.get?_drop_self ..).symm.trans hq
  | waits _ hr _ _ _ _ hv =>
    refine hboth (fun hq => ?_) (hrests hr)
    subst hv
    cases (Roster.get?_put_self ..).symm.trans hq

lemma Sounds.step (h : w.Sounds) (ht : w.Tuned) (hs : w.step m = some v) : v.Sounds := by
  intro u
  rcases goes_of_step hs with ⟨t, rfl, hg⟩ | ⟨-, ha⟩
  · by_cases hu : u = t
    · exact hu ▸ h.goes ht hs hg
    · rw [hg.notifying hu, (run_sameBut hs).calls u hu]
      exact h u
  · rw [ha.queue.notifying, h u]
    refine ⟨fun ⟨s, k, hc⟩ => ⟨s, k, ha.calls u _ hc (by simp)⟩, fun ⟨s, k, hc⟩ => ⟨s, k, ?_⟩⟩
    refine ((affairs_of_step ht.linked hs).notifying hc).resolve_right fun hw => ?_
    cases (ha.calls u _ hw (by simp)).symm.trans hc

lemma Reachable.sounds {w₀ : Writer σ V} {config : Config} {target : String}
    {factory : Option (Factory σ)} {resource : σ} {now : Time} {j j' : Journal}
    (hc : create config target factory resource now t j = (.ok w₀, j')) (h : Reachable w₀ w) :
    w.Sounds := by
  induction h with
  | refl =>
    unfold create at hc
    split at hc
    · cases hc
    · split at hc <;> cases hc
      exact fun t => ⟨nofun, nofun⟩
  | step m hr hs ih => exact ih.step (hr.tuned hc) hs

theorem Sounds.write_goes {s : Submission σ V} {stage : WriteStage} (h : w.Sounds)
    (ha : w.calls.get? t = some (.writing s stage))
    (hw : ∀ k d, stage = .waiting k d → (w.cell k).status?.isSome = true ∨ d ≤ w.now) :
    ∃ v, w.step (.run t) = some v := by
  simp only [Writer.step, run, ha, stepCall]
  cases stage with
  | checking | creating | offering _ | counting _ | losing =>
    simp only [stepWrite]
    split <;> exact ⟨_, rfl⟩
  | notifying k =>
    obtain ⟨q, hq⟩ := SharedQueue.exists_notify ((h t).mpr ⟨s, k, ha⟩)
    exact ⟨_, by rw [stepWrite, hq, Option.map_some]⟩
  | waiting k d =>
    simp only [stepWrite]
    split
    · exact ⟨_, rfl⟩
    · rename_i hnone
      have hd := (hw k d rfl).resolve_left (by simp [hnone])
      exact ⟨_, if_pos hd⟩
  | told k status =>
    cases status with
    | ready =>
      simp only [stepWrite]
      split
      · split <;> exact ⟨_, rfl⟩
      · exact ⟨_, rfl⟩
    | timeout | interrupted =>
      simp only [stepWrite]
      split <;> exact ⟨_, rfl⟩

end Writer

/-! ### Bodies -/

/-- A stage at which no call of the task is under way, nor will be before the task makes one. -/
def BodyStage.fair : BodyStage σ V → Bool
  | .calling _ => false
  | .publishing _ after => after.fair
  | .outer _ | .inner _ _ | .left _ | .verdict _ => true

lemma BodyTurn.fair {e : Envelope σ V} {b b' : BodyStage σ V} {s s' : σ} {d : CellChange V}
    (h : BodyTurn e b s d b' s') (hb : b.fair = true) : b'.fair = true := by
  cases h with
  | fails f back? => cases back? <;> rfl
  | reaches _ hd => cases hd <;> rfl
  | publishes o after => exact hb
  | _ => rfl

/-- **A call of a task** comes back to the task. -/
def Affairs.Fair (c : Affairs σ V) : Prop :=
  ∀ t k b, c.cycles.get? t = some (.running k b) →
    b.fair = true ∨ ∃ g, b = .calling g ∧ ∀ r, (g r).fair = true

lemma Affairs.Fair.step {c d : Affairs σ V} {ev : Option (Writer.Event σ V)} (h : c.Fair)
    (hs : c.Step ev d) : d.Fair := by
  have hput : ∀ {t : Thread} {y : CycleStage σ V},
      (∀ k b, y = .running k b → b.fair = true ∨ ∃ g, b = .calling g ∧ ∀ r, (g r).fair = true) →
      ∀ t' k b, (c.cycles.put t y).get? t' = some (.running k b) →
        b.fair = true ∨ ∃ g, b = .calling g ∧ ∀ r, (g r).fair = true := by
    intro t y hy t' k b hb
    by_cases ht : t' = t
    · rw [ht, Roster.get?_put_self] at hb
      exact hy k b (Option.some.inj hb)
    · exact h t' k b ((Roster.get?_put_ne _ _ ht).symm.trans hb)
  have hdrop : ∀ {t : Thread} (t' : Thread) (k : Nat) (b : BodyStage σ V),
      (c.cycles.drop t).get? t' = some (.running k b) →
        b.fair = true ∨ ∃ g, b = .calling g ∧ ∀ r, (g r).fair = true := by
    intro t t' k b hb
    rw [Roster.get?_drop, Option.ite_none_left_eq_some] at hb
    exact h t' k b hb.2
  intro t' k' b' hb'
  cases hs with
  | idles _ | spoils _ _ | closes _ => exact hdrop _ _ _ hb'
  | @opens _ _ e _ _ =>
    refine hput ?_ t' k' b' hb'
    rintro k b hb
    cases hb
    cases e.body <;> exact .inl rfl
  | body hy _ hturn =>
    refine hput ?_ t' k' b' hb'
    rintro k b hb
    cases hb
    rcases h _ _ _ hy with hfair | ⟨g, rfl, -⟩
    · exact .inl (hturn.fair hfair)
    · cases hturn
  | bodyCalls _ _ _ _ hg =>
    refine hput ?_ t' k' b' hb'
    rintro k b hb
    cases hb
    -- whatever the call gives, the task goes on as one that has yet to make its next call
    refine .inr ⟨_, rfl, fun r => ?_⟩
    obtain ⟨p, back?, hr⟩ := hg r
    rw [hr]
    rfl
  | @bodyReturns _ _ r g hy _ =>
    refine hput ?_ t' k' b' hb'
    rintro k b hb
    cases hb
    rcases h _ _ _ hy with hfair | ⟨g', hg, hall⟩
    · cases hfair
    · cases hg
      exact .inl (hall r)
  | takes _ _ | finishes _ | counts _ =>
    refine hput ?_ t' k' b' hb'
    rintro k b hb
    cases hb
  | _ => exact h t' k' b' hb'

lemma Affairs.Fair.calling {c d : Affairs σ V} {ev : Option (Writer.Event σ V)} (h : c.Fair)
    (hs : c.Step ev d) {t : Thread} {k : Nat} {g : Except Failure (Option V) → BodyStage σ V}
    (hd : d.cycles.get? t = some (.running k (.calling g))) :
    c.cycles.get? t = some (.running k (.calling g)) ∨
      ∃ p back?, c.cycles.get? t = some (.running k (.inner p back?)) := by
  have hput : ∀ {u : Thread} {y : CycleStage σ V}, (∀ k g, y ≠ .running k (.calling g)) →
      (c.cycles.put u y).get? t = some (.running k (.calling g)) →
      c.cycles.get? t = some (.running k (.calling g)) ∨
        ∃ p back?, c.cycles.get? t = some (.running k (.inner p back?)) := by
    intro u y hy hu
    by_cases htu : t = u
    · rw [htu, Roster.get?_put_self] at hu
      exact absurd (Option.some.inj hu) (hy k g)
    · exact .inl ((Roster.get?_put_ne _ _ htu).symm.trans hu)
  have hfair : ∀ {b : BodyStage σ V}, b.fair = true → ∀ k' (k : Nat) g,
      CycleStage.running k' b ≠ .running k (.calling g) := by
    rintro b hb k' k g he
    obtain ⟨-, rfl⟩ := CycleStage.running.inj he
    cases hb
  have hdrop : ∀ {u : Thread}, (c.cycles.drop u).get? t = some (.running k (.calling g)) →
      c.cycles.get? t = some (.running k (.calling g)) ∨
        ∃ p back?, c.cycles.get? t = some (.running k (.inner p back?)) := by
    intro u hu
    rw [Roster.get?_drop, Option.ite_none_left_eq_some] at hu
    exact .inl hu.2
  cases hs with
  | idles _ | spoils _ _ | closes _ => exact hdrop hd
  | @opens _ _ e _ _ => exact hput (hfair (by cases e.body <;> rfl) _) hd
  | body hy _ hturn =>
    rcases h _ _ _ hy with hb | ⟨g, rfl, -⟩
    · exact hput (hfair (hturn.fair hb) _) hd
    · cases hturn
  | @bodyCalls n _ p back? _ _ hy _ _ _ _ =>
    by_cases htu : t = .worker n
    · subst htu
      cases (Roster.get?_put_self ..).symm.trans hd
      exact .inr ⟨p, back?, hy⟩
    · exact .inl ((Roster.get?_put_ne _ _ htu).symm.trans hd)
  | bodyReturns hy _ =>
    rcases h _ _ _ hy with hb | ⟨g', hg, hall⟩
    · cases hb
    · cases hg
      exact hput (hfair (hall _) _) hd
  | takes _ _ | finishes _ | counts _ =>
    refine hput ?_ hd
    simp
  | _ => exact .inl hd

lemma Affairs.Step.underway {c d : Affairs σ V} {ev : Option (Writer.Event σ V)}
    (h : c.Step ev d) {t : Thread} {a : CallOfWriter σ V} (ha : c.calls.get? t = some a)
    (hne : ∀ r, a ≠ .ended r) : (d.calls.get? t).isSome = true := by
  have hput : ∀ {u : Thread} {b : CallOfWriter σ V},
      ((c.calls.put u b).get? t).isSome = true := by
    intro u b
    rw [Roster.get?_put]
    split
    · rfl
    · rw [ha]
      rfl
  have hdrop : ∀ {u : Thread} {r : Except Failure (Option V)},
      c.calls.get? u = some (.ended r) → ((c.calls.drop u).get? t).isSome = true := by
    intro u r hr
    rw [Roster.get?_drop_ne, ha]
    · rfl
    · rintro rfl
      exact hne r (Option.some.inj (ha.symm.trans hr))
  have hkeep : (c.calls.get? t).isSome = true := by
    rw [ha]
    rfl
  cases h with
  | quits hr | bodyReturns _ hr => exact hdrop hr
  | turns _ _ | walks _ _ | clears _ | requests _ | admits _ | refuses _ _ | makes _ _ | offers _
  | misses _ | notifies _ | submits _ _ | drops _ | hears _ | collects _ _ | parts _ _
  | bodyCalls _ _ _ _ _ => exact hput
  | _ => exact hkeep

/-! ### A worker that nobody stands in the way of -/

namespace Writer

variable {w v u : Writer σ V} {t : Thread} {a : CallOfWriter σ V} {n k : Nat} {m : Move σ V}
  {q : TaskCall σ V} {last : Bool}

/-- **Worker `n` is somewhere it can go on from**: no line of the log is set to fail, and a call
that its task makes stands where it may. -/
structure Poised (n : Nat) (w : Writer σ V) : Prop where
  tuned : w.Tuned
  sounds : w.Sounds
  known : w.course.Known
  fair : w.affairs.Fair
  quiet : w.journal.armed = none
  task : ∀ k g, w.cycles.get? (.worker n) = some (.running k (.calling g)) →
    ∃ q a, w.calls.get? (.worker n) = some a ∧ Stands w (.worker n) q a

/-- Nobody joins a worker to destroy the writer. -/
def Undestroyed (w : Writer σ V) : Prop := ∀ t, w.control.calls.get? t ≠ some (.destroy .joining)

/-- **Nothing stands in the way of worker `n`.** -/
structure Fit (n : Nat) (w : Writer σ V) : Prop extends Poised n w where
  intact : ∀ t, t ≠ .worker n → w.control.calls.get? t ≠ some (.destroy .joining)

lemma cycles_of_step (h : w.step m = some v) (hm : m ≠ .run t) :
    v.cycles.get? t = w.cycles.get? t := by
  rcases goes_of_step h with ⟨u, rfl, hg⟩ | ⟨-, ha⟩
  · have htu : t ≠ u := fun htu => hm (htu ▸ rfl)
    cases hg with
    | calls _ hy _ _ | works _ _ _ _ hy _ => rw [hy]
    | @takes n last hu _ hw _ hv => exact (took_of_pop hw hv).1.others t (hu ▸ htu)
    | waits _ _ _ _ _ _ hv => rw [hv]
    | cycles _ _ _ _ ho _ _ _ => exact ho t htu
  · rw [ha.cycles]

lemma calls_of_step (h : w.step m = some v) (hm : m ≠ .run (.worker n)) :
    v.calls.get? (.worker n) = w.calls.get? (.worker n) := by
  cases moves_of_step h with
  | @begins _ r _ => cases r <;> exact Roster.get?_put_ne _ _ (by simp)
  | @runs u _ _ => exact (run_sameBut h).calls _ fun hu => hm (hu ▸ rfl)
  | acknowledges _ => exact Roster.get?_drop_ne _ (by simp)
  | stirs _ | rouses _ | opensGate | opensAll | arms | passes => rfl

lemma asks_of_stepProgram {p : Program σ V} {back? : Option (Option Failure → Wrapper σ)}
    {g : Except Failure (Option V) → BodyStage σ V} (h : w.stepProgram n k back? p = some v)
    (hv : v.cycles.get? (.worker n) = some (.running k (.calling g))) : ∃ q, p.asks = some q := by
  have hput : ∀ {r : Roster (CycleStage σ V)} {b : BodyStage σ V}, b.fair = true →
      (r.put (.worker n) (.running k b)).get? (.worker n) ≠ some (.running k (.calling g)) := by
    intro r b hb hr
    cases (Roster.get?_put_self ..).symm.trans hr
    cases hb
  have hclaim : ∀ {o : Outcome V} {won lost : BodyStage σ V}, won.fair = true →
      lost.fair = true →
      (w.claimFor n k o won lost).cycles.get? (.worker n) ≠ some (.running k (.calling g)) := by
    intro o won lost hwon hlost
    unfold claimFor
    split
    · exact hput hwon
    · exact hput hlost
  cases p with
  | start next | stop next | write work id wait next => exact ⟨_, rfl⟩
  | ret x =>
    simp only [stepProgram] at h
    split at h <;> cases h
    · exact absurd hv (hput rfl)
    · exact absurd hv (hclaim rfl rfl)
  | fail e =>
    cases h
    cases back? <;> exact absurd hv (hput rfl)
  | resolve o next =>
    cases h
    exact absurd hv (hclaim rfl rfl)
  | pass gate next =>
    simp only [stepProgram, Option.ite_none_right_eq_some, Option.some.injEq] at h
    obtain ⟨-, rfl⟩ := h
    exact absurd hv (hput rfl)
  | update | interrupt | phase | stats =>
    cases h
    exact absurd hv (hput rfl)

/-- A call that stands where it may does so after a step of its own, or is over. -/
lemma Stands.own (h : Stands w (.worker n) q a) (hl : w.course.Linked)
    (hq : w.journal.armed = none) {g : Except Failure (Option V) → BodyStage σ V}
    (hy : w.cycles.get? (.worker n) = some (.running k (.calling g)))
    (ha : w.calls.get? (.worker n) = some a) (hs : w.step (.run (.worker n)) = some v) :
    v.calls.get? (.worker n) = none ∨
      ∃ b, v.calls.get? (.worker n) = some b ∧ Stands v (.worker n) q b := by
  cases q with
  | start => exact (h.start_own hl hy ha hs).2
  | stop => exact h.stop_own hl hq hy ha hs
  | write s =>
    exact (h.write_own hl hq hy ha hs).imp_right fun ⟨b, hb, hst, _⟩ => ⟨b, hb, hst⟩

namespace Poised

lemma task_of_step (h : Poised n w) (hs : w.step m = some v)
    {g : Except Failure (Option V) → BodyStage σ V}
    (hv : v.cycles.get? (.worker n) = some (.running k (.calling g))) :
    ∃ q a, v.calls.get? (.worker n) = some a ∧ Stands v (.worker n) q a := by
  have hl := h.tuned.linked
  have haff := affairs_of_step hl hs
  by_cases hm : m = .run (.worker n)
  · subst hm
    rcases h.fair.calling haff hv with hy | ⟨p, back?, hy⟩
    · obtain ⟨q, a, ha, hst⟩ := h.task k g hy
      by_cases hr : ∃ r, a = .ended r
      · -- the task goes on, and is in no call
        obtain ⟨r, rfl⟩ := hr
        have hreturn := returns_of_run hl hy ha hs
        rw [hreturn] at hv
        obtain ⟨-, hg⟩ := CycleStage.running.inj
          (Option.some.inj ((Roster.get?_put_self ..).symm.trans hv))
        rcases h.fair _ _ _ hy with hb | ⟨g', hg', hall⟩
        · cases hb
        · cases hg'
          have hfair := hall r
          rw [hg] at hfair
          cases hfair
      · have hunder := haff.underway ha fun r hra => hr ⟨r, hra⟩
        rcases hst.own hl h.quiet hy ha hs with hn | ⟨b, hb, hstb⟩
        · change (v.calls.get? (.worker n)).isSome = true at hunder
          rw [hn] at hunder
          cases hunder
        · exact ⟨q, b, hb, hstb⟩
    · obtain ⟨q, hq⟩ := asks_of_stepProgram (stepProgram_of_run hl hy hs) hv
      obtain ⟨⟨a, g', ha, hst, -⟩, -⟩ := Asks.begins ⟨⟨p, back?, hy, hq⟩, hs⟩ hl
      exact ⟨q, a, ha, hst⟩
  · have hy := (cycles_of_step hs hm).symm.trans hv
    obtain ⟨q, a, ha, hst⟩ := h.task k g hy
    refine ⟨q, a, (calls_of_step hs hm).trans ha, hst.aside (call_of_step hs hm ha).2
      (config_of_step hl hs) (fun hp => ?_) (ready_of_step hl hy hs)⟩
    exact (phase_of_cycle (hl.step (step_course hs)) hv).resolve_left
      (not_running_of_step hl hp hs)

/-- **Every step keeps it so** if no line is set to fail. -/
lemma step (h : Poised n w) (hs : w.step m = some v) (hq : v.journal.armed = none) : Poised n v :=
  ⟨h.tuned.step hs, h.sounds.step h.tuned hs, h.known.step (step_course hs),
    h.fair.step (affairs_of_step h.tuned.linked hs), hq, fun _ _ => h.task_of_step hs⟩

lemma of_reachable {w₀ : Writer σ V} {config : Config} {target : String}
    {factory : Option (Factory σ)} {resource : σ} {now : Time} {j j' : Journal} {s : Thread}
    (hc : create config target factory resource now s j = (.ok w₀, j')) (h : Reachable w₀ w)
    (hq : w.journal.armed = none)
    (ht : ∀ k g, w.cycles.get? (.worker n) ≠ some (.running k (.calling g))) : Poised n w := by
  suffices hall : w.course.Known ∧ w.affairs.Fair from
    ⟨h.tuned hc, h.sounds hc, hall.1, hall.2, hq, fun k g hy => absurd hy (ht k g)⟩
  clear hq ht
  induction h with
  | refl =>
    unfold create at hc
    split at hc
    · cases hc
    · split at hc <;> cases hc
      exact ⟨⟨⟨.nil, nofun, nofun, nofun⟩, nofun, nofun⟩, nofun⟩
  | step m hr hs ih =>
    obtain ⟨hknown, hfair⟩ := ih
    exact ⟨hknown.step (step_course hs),
      hfair.step (affairs_of_step (hr.tuned hc).linked hs)⟩

end Poised

namespace Fit

lemma run (h : Fit n w) (hs : w.step (.run t) = some v)
    (ht : t ≠ .worker n → v.control.calls.get? t ≠ some (.destroy .joining)) : Fit n v := by
  refine ⟨h.toPoised.step hs (unarmed_of_run hs h.quiet), fun u hu => ?_⟩
  by_cases hut : u = t
  · exact hut ▸ ht (hut ▸ hu)
  · intro hv
    rcases (run_sameBut hs).control u hut with hc | hc
    · exact h.intact u hu (hc ▸ hv)
    · rw [hc] at hv
      obtain ⟨s, hs, hroused⟩ := Option.map_eq_some_iff.mp hv
      -- nobody is told to look again who destroys
      cases s with
      | start b st => cases st <;> cases hroused
      | stop b st => cases st <;> cases hroused
      | destroy st => exact h.intact u hu (hroused ▸ hs)
      | ended r => cases hroused

lemma own (h : Fit n w) (hs : w.step (.run (.worker n)) = some v) : Fit n v :=
  h.run hs fun hne => absurd rfl hne

lemma pass (h : Fit n w) (d : Nat) : Fit n { w with now := w.now + d } :=
  ⟨h.toPoised.step (m := .pass d) rfl h.quiet, h.intact⟩

lemma openAll (h : Fit n w) : Fit n { w with gates := { w.gates with all := true } } :=
  ⟨h.toPoised.step (m := .openAll) rfl h.quiet, h.intact⟩

end Fit

end Writer

end SerialWriter
