import SerialWriter.Proofs.Control.Advance

/-!
The life of a worker, as its own events tell it: it opens the writer unless a stop came first, runs
cycles that may wait, runs one last cycle that does not, and ends the writer; or a cycle breaks, and
the writer fails.
-/

namespace SerialWriter

/-- The worker has made known how it ended. -/
def WorkerStage.settled : WorkerStage → Bool
  | .reporting _ | .leaving | .finished => true
  | _ => false

/-- How many steps a worker told to stop has before it until it has made known how it ended, if its
cycles come back. -/
def WorkerStage.ahead : WorkerStage → Nat
  | .entering false => 6
  | .created | .cycling false => 5
  | .looking => 4
  | .entering true => 3
  | .cycling true => 2
  | .retiring | .failing _ => 1
  | .reporting _ | .leaving | .finished | .aborted => 0

lemma WorkerStage.Goes.nearer {n : Nat} {idle : Int} {quiet : Prop} {w w' : WorkerStage}
    {p q : Phase} {ev : Option ControlScene.Event} (h : w.Goes n idle quiet p ev w' q) (hq : quiet)
    (hp : p = .stopping ∨ p = .running ∧ ∃ e, w = .failing e) :
    w'.settled = true ∨
      w'.ahead < w.ahead ∧ (q = .stopping ∨ q = .running ∧ ∃ e, w' = .failing e) := by
  have hstop : (∀ e, w ≠ .failing e) → p = .stopping := by
    intro hw
    rcases hp with hp | ⟨-, e, he⟩
    · exact hp
    · exact (hw e he).elim
  cases h with
  | opens _ => cases hstop nofun
  | hurries => exact .inr ⟨by decide, .inl rfl⟩
  | looks _ =>
    obtain rfl := hstop nofun
    exact .inr ⟨by decide, .inl rfl⟩
  | @enters _ last _ _ =>
    obtain rfl := hstop nofun
    exact .inr ⟨by cases last <;> decide, .inl rfl⟩
  | @exits _ last e _ _ =>
    obtain rfl := hstop nofun
    refine .inr ⟨?_, .inl rfl⟩
    cases e <;> cases last <;> simp only [WorkerStage.afterCycle, WorkerStage.ahead] <;> decide
  | retires hf =>
    obtain rfl := hf hq
    exact .inl rfl
  | fails hf _ =>
    obtain rfl := hf hq
    exact .inl rfl
  | reports hf =>
    obtain rfl := hf hq
    exact .inl rfl
  | leaves _ => exact .inl rfl

namespace ControlScene

/-- No line of the log is set to fail. -/
def Quiet (s : ControlScene) : Prop := s.journal.armed = none

/-! ### The events of a worker -/

/-- The cycle that worker `n` enters: whether it is its last one, and the wait it is allowed. -/
def Event.entry? (n : Nat) : Event → Option (Bool × Int)
  | .entered k last wait => if k = n then some (last, wait) else none
  | _ => none

/-- What worker `n` did, in order. -/
def eventsOf (n : Nat) (es : List Event) : List Event := es.filter (Event.isOf n)

def entries (n : Nat) (es : List Event) : List (Bool × Int) := es.filterMap (Event.entry? n)

/-! ### Whole lives -/

/-- The first event of a worker that finds the writer starting. -/
def opening (n : Nat) (ran : Bool) : List Event :=
  if ran then [.reached n .starting .running] else []

/-- Cycles that may wait, all of which come back. -/
def rounds (n : Nat) (idle : Int) (k : Nat) : List Event :=
  (List.replicate k [.entered n false idle, .left n none]).flatten

/-- What a worker has done between two of its cycles. -/
def begun (n : Nat) (idle : Int) (ran : Bool) (k : Nat) : List Event :=
  opening n ran ++ rounds n idle k

/-- **The whole lives of a worker**. One that does not open the writer enters its last cycle at
once. -/
inductive Life (n : Nat) (idle : Int) : List Event → Prop
  /-- The last cycle comes back. -/
  | served (ran : Bool) (k : Nat) (hr : ran = false → k = 0) :
    Life n idle (begun n idle ran k ++
      [.entered n true 0, .left n none, .reached n .stopping .terminated])
  /-- A cycle, the last one or not, is broken by what escapes it. -/
  | broken {ran last : Bool} {k : Nat} {p : Phase} (e : Failure)
    (hr : ran = false → k = 0 ∧ last = true) (hp : p = .running ∨ p = .stopping)
    (hl : last = true → p = .stopping) :
    Life n idle (begun n idle ran k ++
      [.entered n last (allowance idle last), .left n (some e), .reached n p .failed])

/-- **How much of its life a worker has behind it** at a stage, in a phase. -/
inductive SoFar (n : Nat) (idle : Int) : Phase → WorkerStage → List Event → Prop
  | created {p : Phase} : SoFar n idle p .created []
  | looking {p : Phase} (ran : Bool) (k : Nat) (hr : ran = false → k = 0 ∧ p = .stopping) :
    SoFar n idle p .looking (begun n idle ran k)
  | entering {p : Phase} {ran last : Bool} {k : Nat} (hr : ran = false → k = 0 ∧ last = true) :
    SoFar n idle p (.entering last) (begun n idle ran k)
  | cycling {p : Phase} {ran last : Bool} {k : Nat} (hr : ran = false → k = 0 ∧ last = true) :
    SoFar n idle p (.cycling last)
      (begun n idle ran k ++ [.entered n last (allowance idle last)])
  | retiring {p : Phase} {ran : Bool} {k : Nat} (hr : ran = false → k = 0) :
    SoFar n idle p .retiring (begun n idle ran k ++ [.entered n true 0, .left n none])
  | failing {p : Phase} {ran last : Bool} {k : Nat} {e : Failure}
    (hr : ran = false → k = 0 ∧ last = true) (hp : p = .running ∨ p = .stopping)
    (hl : last = true → p = .stopping) :
    SoFar n idle p (.failing e)
      (begun n idle ran k ++ [.entered n last (allowance idle last), .left n (some e)])
  | past {p : Phase} {w : WorkerStage} {l : List Event}
    (hw : w.settled = true) (h : Life n idle l) :
    SoFar n idle p w l

variable {n : Nat} {idle : Int} {p q : Phase} {w w' : WorkerStage} {l : List Event}

lemma rounds_succ (n : Nat) (idle : Int) (k : Nat) :
    rounds n idle (k + 1) = rounds n idle k ++ [.entered n false idle, .left n none] := by
  rw [rounds, List.replicate_succ', List.flatten_append, List.flatten_singleton]
  rfl

lemma begun_succ (n : Nat) (idle : Int) (ran : Bool) (k : Nat) :
    begun n idle ran (k + 1) =
      begun n idle ran k ++ [.entered n false idle, .left n none] := by
  rw [begun, begun, rounds_succ, List.append_assoc]

namespace SoFar

lemma goes {quiet : Prop} {ev : Option Event} (h : SoFar n idle p w l) (hq : quiet)
    (hg : w.Goes n idle quiet p ev w' q) : SoFar n idle q w' (l ++ ev.toList) := by
  cases hg with
  | @opens f hf =>
    cases h with
    | created =>
      obtain rfl := hf hq
      exact .looking true 0 nofun
    | past hw _ => cases hw
  | hurries =>
    cases h with
    | created => exact .looking false 0 fun _ => ⟨rfl, rfl⟩
    | past hw _ => cases hw
  | looks hp =>
    cases h with
    | looking _ _ hr =>
      rw [Option.toList_none, List.append_nil]
      refine .entering fun hran => ⟨(hr hran).1, ?_⟩
      rw [(hr hran).2]
      rfl
    | past hw _ => cases hw
  | enters _ _ =>
    cases h with
    | entering hr => exact .cycling hr
    | past hw _ => cases hw
  | @exits _ last e hp hl =>
    cases h with
    | @cycling ran _ k hr =>
      rw [Option.toList_some, List.append_assoc]
      cases e with
      | some e => exact .failing hr hp hl
      | none =>
        cases last with
        | true => exact .retiring fun hran => (hr hran).1
        | false =>
          change SoFar n idle p .looking
            (begun n idle ran k ++ [.entered n false idle, .left n none])
          rw [← begun_succ]
          exact .looking ran (k + 1) fun hran => nomatch (hr hran).2
    | past hw _ => cases hw
  | retires hf =>
    cases h with
    | retiring hr =>
      obtain rfl := hf hq
      rw [Option.toList_some, List.append_assoc]
      exact .past rfl (.served _ _ hr)
    | past hw _ => cases hw
  | fails hf _ =>
    cases h with
    | failing hr hp hl =>
      obtain rfl := hf hq
      rw [Option.toList_some, List.append_assoc]
      exact .past rfl (.broken _ hr hp hl)
    | past hw _ => cases hw
  | reports hf =>
    cases h with
    | past _ hl =>
      obtain rfl := hf hq
      rw [Option.toList_none, List.append_nil]
      exact .past rfl hl
  | leaves _ =>
    cases h with
    | past _ hl =>
      rw [Option.toList_none, List.append_nil]
      exact .past rfl hl

lemma halt (h : SoFar n idle p w l) : SoFar n idle .stopping w l := by
  cases h with
  | created => exact .created
  | looking ran k hr => exact .looking ran k fun hran => ⟨(hr hran).1, rfl⟩
  | entering hr => exact .entering hr
  | cycling hr => exact .cycling hr
  | retiring hr => exact .retiring hr
  | failing hr _ _ => exact .failing hr (.inr rfl) fun _ => rfl
  | past hw hl => exact .past hw hl

lemma gone (h : SoFar n idle p .finished l) : SoFar n idle q .finished l := by
  cases h with
  | past hw hl => exact .past hw hl

lemma prefix_life (h : SoFar n idle p w l) : ∃ life, Life n idle life ∧ l <+: life := by
  cases h with
  | created => exact ⟨_, .served true 0 nofun, List.nil_prefix⟩
  | looking _ _ hr => exact ⟨_, .served _ _ fun hran => (hr hran).1, List.prefix_append ..⟩
  | entering hr => exact ⟨_, .served _ _ fun hran => (hr hran).1, List.prefix_append ..⟩
  | @cycling ran last k hr =>
    cases last with
    | true =>
      refine ⟨_, .served _ _ fun hran => (hr hran).1, List.prefix_append_right_inj _ |>.mpr ?_⟩
      exact List.prefix_append [_] _
    | false =>
      refine ⟨_, .served ran (k + 1) fun hran => (nomatch (hr hran).2), ?_⟩
      rw [begun_succ, List.append_assoc, List.prefix_append_right_inj]
      exact List.prefix_append [_] _
  | retiring hr =>
    refine ⟨_, .served _ _ hr, List.prefix_append_right_inj _ |>.mpr ?_⟩
    exact List.prefix_append [_, _] _
  | @failing _ _ _ e hr hp hl =>
    refine ⟨_, .broken e hr hp hl, List.prefix_append_right_inj _ |>.mpr ?_⟩
    exact List.prefix_append [_, _] _
  | past _ hl => exact ⟨_, hl, List.prefix_refl _⟩

end SoFar

/-! ### What a move means for one worker -/

/-- **What a move means for worker `n`**: it is a step of the worker, a stop that changes the phase
around it, or nothing that the worker minds. -/
inductive Meets (n : Nat) (idle : Int) :
    WorkerStage → Phase → Option Event → WorkerStage → Phase → Prop
  | goes {quiet : Prop} {p q : Phase} {w w' : WorkerStage} {ev : Option Event} (hq : quiet)
    (h : w.Goes n idle quiet p ev w' q) : Meets n idle w p ev w' q
  | halted {p : Phase} {w : WorkerStage} {t : Thread} (hp : p = .starting ∨ p = .running) :
    Meets n idle w p (some (.turned t p .stopping)) w .stopping
  | rests {p : Phase} {w : WorkerStage} {ev : Option Event} (he : ev.any (Event.isOf n) = false)
    (hc : ev.bind Event.change? = none) : Meets n idle w p ev w p
  | gone {p q : Phase} {ev : Option Event} (he : ev.any (Event.isOf n) = false) :
    Meets n idle .finished p ev .finished q

section Moves

variable {config : Config} {s s' u : ControlScene} {m : Move} {ev : Option Event} {es : List Event}

theorem meets_of_step (ho : s.control.Orderly) (hq : s.Quiet) (h : s.step m = some s')
    (hw : s.control.worker? n = some w) :
    ∃ w', s'.control.worker? n = some w' ∧ Meets n s.control.config.idleDelay w s.control.phase
      (s.note m s') w' s'.control.phase := by
  have hsame : s'.control.workers = s.control.workers → s'.control.worker? n = some w :=
    fun hs => by rw [Control.worker?, hs]; exact hw
  generalize hnote : s.note m s' = ev
  have hadv := (shows_of_step ho h).advance
  rw [hnote] at hadv
  cases hadv with
  | rests hp hs _ => exact ⟨w, hsame hs, hp ▸ .rests rfl rfl⟩
  | @turns _ t hturn hs _ =>
    refine ⟨w, hsame hs, ?_⟩
    generalize s'.control.phase = q at hturn ⊢
    cases hturn with
    | starts _ hv =>
      obtain rfl := hv n w hw
      exact .gone rfl
    | retires _ hv =>
      obtain rfl := hv n w hw
      exact .gone rfl
    | halts hp => exact .halted hp
    | denied _ _ hv =>
      obtain rfl := hv n w hw
      exact .gone rfl
  | creates _ _ _ hp hs _ =>
    exact ⟨w, Control.worker?_append hs hw, hp ▸ .rests rfl rfl⟩
  | @works _ k v v' _ hv hs _ hgoes =>
    by_cases hk : k = n
    · subst hk
      obtain rfl : v = w := Option.some.inj (hv.symm.trans hw)
      exact ⟨v', Control.worker?_set_self hs hw, .goes hq hgoes⟩
    · -- the worker that moves is the only one that has yet to go
      have hgone : w = .finished := WorkerStage.eq_finished (Bool.eq_false_iff.mpr fun hp =>
        hk (ho.staffed.eq_of_present hv hgoes.present hw hp))
      subst hgone
      exact ⟨.finished, (Control.worker?_set_ne hs hk).trans hw, .gone (hgoes.any_isOf hk)⟩

lemma unborn_of_step (ho : s.control.Orderly) (h : s.step m = some s')
    (hn : s.control.worker? n = none) :
    (s.note m s').any (Event.isOf n) = false ∧
      ∀ w, s'.control.worker? n = some w → w = .created := by
  have hlen : s.control.workers.length ≤ n := List.getElem?_eq_none_iff.mp hn
  have hsame : ∀ w, s'.control.workers = s.control.workers → s'.control.worker? n ≠ some w := by
    intro w hs hw
    rw [Control.worker?, hs] at hw
    exact Option.some_ne_none w (hw.symm.trans hn)
  generalize hnote : s.note m s' = ev
  have hadv := (shows_of_step ho h).advance
  rw [hnote] at hadv
  cases hadv with
  | rests _ hs _ => exact ⟨rfl, fun w hw => (hsame w hs hw).elim⟩
  | turns _ hs _ => exact ⟨rfl, fun w hw => (hsame w hs hw).elim⟩
  | creates _ _ _ _ hs _ =>
    refine ⟨rfl, fun w hw => ?_⟩
    rw [Control.worker?, hs, List.getElem?_append_right hlen, List.getElem?_singleton] at hw
    split at hw
    · exact (Option.some.inj hw).symm
    · cases hw
  | @works _ k v v' _ hv hs _ hgoes =>
    have hk : k ≠ n := fun hk => Option.some_ne_none v (hv.symm.trans (hk ▸ hn))
    refine ⟨hgoes.any_isOf hk, fun w hw => ?_⟩
    rw [Control.worker?_set_ne hs hk] at hw
    exact (Option.some_ne_none w (hw.symm.trans hn)).elim

end Moves

/-! ### A worker along a run -/

/-- **A run in which no line of the log is set to fail**, with what is noted of it. -/
def QuietRun (s : ControlScene) (es : List Event) (u : ControlScene) : Prop :=
  Chronicle ControlScene.step note Quiet s es u

/-- A control that nothing has happened to. -/
def fresh (config : Config) : ControlScene := { control := { config } }

section Runs

variable {config : Config} {s s' u : ControlScene} {m : Move} {ev : Option Event}
  {es es' : List Event} {r : List (Bool × Int)}

/-- A quiet run found by computing it, with what is to be seen of it and at its end. -/
lemma exists_quietRun {α : Type} {f : List Event → ControlScene → α} {a : α} (ms : List Move)
    (h : (record ControlScene.step note (·.journal.armed.isNone) s ms).map (fun r => f r.1 r.2) =
      some a) : ∃ es u, QuietRun s es u ∧ f es u = a := by
  obtain ⟨es, u, hrun, hf⟩ := exists_chronicle ms h
  exact ⟨es, u, hrun.mono fun _ hq => Option.isNone_iff_eq_none.mp hq, hf⟩

lemma QuietRun.reachable (h : QuietRun s es u) (hr : Reachable config s) : Reachable config u :=
  hr.along h.along

lemma QuietRun.of_step (hq : s.Quiet) (h : s.step m = some s') (hq' : s'.Quiet) :
    QuietRun s (s.note m s').toList s' :=
  .step m (.refl hq) h hq'

theorem QuietRun.keeps {I : WorkerStage → Phase → List Event → Prop} (hr : Reachable config s)
    (h : QuietRun s es u) (hw : s.control.worker? n = some w) (hi : I w s.control.phase [])
    (hstep : ∀ v p l ev v' q, I v p l → Meets n config.idleDelay v p ev v' q →
      I v' q (l ++ ev.toList)) :
    ∃ v, u.control.worker? n = some v ∧ I v u.control.phase es := by
  induction h with
  | refl _ => exact ⟨w, hw, hi⟩
  | step m h hs _ ih =>
    obtain ⟨v, hv, hiv⟩ := ih
    have hreach := QuietRun.reachable h hr
    obtain ⟨v', hv', hm⟩ := meets_of_step hreach.orderly h.along.holds hs hv
    rw [hreach.config_eq] at hm
    exact ⟨v', hv', hstep _ _ _ _ _ _ hiv hm⟩

lemma eventsOf_own (he : ev.all (Event.isOf n) = true) :
    eventsOf n (l ++ ev.toList) = eventsOf n l ++ ev.toList := by
  cases ev with
  | none => simp [eventsOf]
  | some e =>
    have hown : e.isOf n = true := he
    simp [eventsOf, hown]

lemma eventsOf_other (he : ev.any (Event.isOf n) = false) :
    eventsOf n (l ++ ev.toList) = eventsOf n l := by
  cases ev with
  | none => simp [eventsOf]
  | some e =>
    have hother : e.isOf n = false := he
    simp [eventsOf, hother]

lemma SoFar.meets (h : SoFar n idle p w (eventsOf n l)) (hm : Meets n idle w p ev w' q) :
    SoFar n idle q w' (eventsOf n (l ++ ev.toList)) := by
  cases hm with
  | goes hq hg =>
    rw [eventsOf_own hg.all_isOf]
    exact h.goes hq hg
  | halted _ =>
    rw [eventsOf_other rfl]
    exact h.halt
  | rests he _ =>
    rw [eventsOf_other he]
    exact h
  | gone he =>
    rw [eventsOf_other he]
    exact h.gone

theorem soFar_of_run (h : QuietRun (fresh config) es s) (n : Nat) :
    (s.control.worker? n = none → eventsOf n es = []) ∧
      ∀ w, s.control.worker? n = some w →
        SoFar n config.idleDelay s.control.phase w (eventsOf n es) := by
  induction h with
  | refl _ => exact ⟨fun _ => rfl, nofun⟩
  | @step es s u m h hs _ ih =>
    have hreach := QuietRun.reachable h .init
    cases hw : s.control.worker? n with
    | none =>
      obtain ⟨hother, hnew⟩ := unborn_of_step hreach.orderly hs hw
      have hnil := (eventsOf_other hother).trans (ih.1 hw)
      refine ⟨fun _ => hnil, fun w hw' => ?_⟩
      obtain rfl := hnew w hw'
      rw [hnil]
      exact .created
    | some w =>
      obtain ⟨w', hw', hm⟩ := meets_of_step hreach.orderly h.along.holds hs hw
      rw [hreach.config_eq] at hm
      refine ⟨fun hn => (nomatch hn.symm.trans hw'), fun v hv => ?_⟩
      obtain rfl := Option.some.inj (hw'.symm.trans hv)
      exact (ih.2 w hw).meets hm

/-! ### After a stop -/

/-- The cycles that a worker may yet enter once the phase is stopping. -/
def remaining (idle : Int) : WorkerStage → List (Bool × Int)
  | .created | .looking | .entering true | .cycling false => [(true, 0)]
  | .entering false => [(false, idle), (true, 0)]
  | _ => []

/-- The worker has been told to stop, and with the cycles it may yet enter it keeps to `r`. -/
structure Halting (n : Nat) (idle : Int) (r : List (Bool × Int)) (w : WorkerStage) (p : Phase)
    (l : List Event) : Prop where
  told : p = .stopping ∨ w.settled = true
  keeps : entries n l ++ remaining idle w <+: r

lemma entry?_of_other (he : ev.any (Event.isOf n) = false) :
    ev.bind (Event.entry? n) = none := by
  cases ev with
  | none => rfl
  | some e =>
    cases e with
    | entered k last wait => exact if_neg (beq_eq_false_iff_ne.mp he)
    | turned _ _ _ | reached _ _ _ | created _ _ | left _ _ => rfl

lemma remaining_cases (idle : Int) (w : WorkerStage) :
    remaining idle w <+: [(true, 0)] ∨ remaining idle w <+: [(false, idle), (true, 0)] := by
  unfold remaining
  split
  · exact .inl (List.prefix_refl _)
  · exact .inl (List.prefix_refl _)
  · exact .inl (List.prefix_refl _)
  · exact .inl (List.prefix_refl _)
  · exact .inr (List.prefix_refl _)
  · exact .inl List.nil_prefix

namespace Halting

lemma skip (h : entries n l ++ remaining idle w <+: r) (he : ev.bind (Event.entry? n) = none)
    (hr : remaining idle w' <+: remaining idle w) (ht : q = .stopping ∨ w'.settled = true) :
    Halting n idle r w' q (l ++ ev.toList) := by
  refine ⟨ht, ?_⟩
  rw [entries, filterMap_append_toList, he, Option.toList_none, List.append_nil]
  exact ((List.prefix_append_right_inj _).mpr hr).trans h

lemma goes {quiet : Prop} (h : Halting n idle r w p l) (hq : quiet)
    (hg : w.Goes n idle quiet p ev w' q) : Halting n idle r w' q (l ++ ev.toList) := by
  obtain ⟨htold, hkeeps⟩ := h
  have hstop : w.settled = false → p = .stopping := by
    intro hw
    rcases htold with hp | hset
    · exact hp
    · rw [hw] at hset
      cases hset
  cases hg with
  | opens _ => cases hstop rfl
  | hurries => exact skip hkeeps rfl (List.prefix_refl _) (.inl rfl)
  | looks _ =>
    obtain rfl := hstop rfl
    exact skip hkeeps rfl (List.prefix_refl _) (.inl rfl)
  | @enters _ last _ _ =>
    obtain rfl := hstop rfl
    have hent : Event.entry? n (.entered n last (allowance idle last)) =
        some (last, allowance idle last) := if_pos rfl
    refine ⟨.inl rfl, ?_⟩
    rw [entries, filterMap_append_toList, Option.bind_some, hent, List.append_assoc]
    cases last <;> exact hkeeps
  | @exits _ last e _ _ =>
    obtain rfl := hstop rfl
    refine skip hkeeps rfl ?_ (.inl rfl)
    cases e with
    | none => cases last <;> exact List.prefix_refl _
    | some e => exact List.nil_prefix
  | retires hf =>
    obtain rfl := hf hq
    exact skip hkeeps rfl List.nil_prefix (.inr rfl)
  | fails hf _ =>
    obtain rfl := hf hq
    exact skip hkeeps rfl List.nil_prefix (.inr rfl)
  | reports hf =>
    obtain rfl := hf hq
    exact skip hkeeps rfl List.nil_prefix (.inr rfl)
  | leaves _ => exact skip hkeeps rfl List.nil_prefix (.inr rfl)

lemma meets (h : Halting n idle r w p l) (hm : Meets n idle w p ev w' q) :
    Halting n idle r w' q (l ++ ev.toList) := by
  cases hm with
  | goes hq hg => exact h.goes hq hg
  | halted _ => exact skip h.keeps rfl (List.prefix_refl _) (.inl rfl)
  | rests he _ => exact skip h.keeps (entry?_of_other he) (List.prefix_refl _) h.told
  | gone he => exact skip h.keeps (entry?_of_other he) List.nil_prefix (.inr rfl)

end Halting

theorem entries_of_stopping (hr : Reachable config s) (hp : s.control.phase = .stopping)
    (hw : s.control.worker? n = some w) (h : QuietRun s es u) :
    entries n es <+: remaining config.idleDelay w := by
  obtain ⟨v, -, hv⟩ := h.keeps (I := Halting n config.idleDelay (remaining config.idleDelay w)) hr
    hw ⟨.inl hp, List.prefix_refl _⟩ fun _ _ _ _ _ _ hi hm => hi.meets hm
  exact (List.prefix_append ..).trans hv.keeps

/-! ### A stop before the worker opens the writer -/

/-- The worker has not opened the writer, and will not. -/
structure Hurried (n : Nat) (w : WorkerStage) (p : Phase) (l : List Event) : Prop where
  told : w = .created → p = .stopping
  unopened : .reached n .starting .running ∉ l

lemma Hurried.goes {quiet : Prop} (h : Hurried n w p l) (hg : w.Goes n idle quiet p ev w' q) :
    Hurried n w' q (l ++ ev.toList) := by
  have hmem : ∀ e' : Event, e' ≠ .reached n .starting .running →
      .reached n .starting .running ∉ l ++ (some e').toList := by
    intro e' hne hm
    rcases List.mem_append.mp hm with hm | hm
    · exact h.unopened hm
    · exact hne (List.mem_singleton.mp hm).symm
  have hrest : .reached n .starting .running ∉ l ++ (none : Option Event).toList := by
    rw [Option.toList_none, List.append_nil]
    exact h.unopened
  refine ⟨fun hc => (hg.ne_created hc).elim, ?_⟩
  cases hg with
  | opens _ => exact nomatch h.told rfl
  | enters _ _ | exits _ _ _ | retires _ | fails _ _ => exact hmem _ nofun
  | hurries | looks _ | reports _ | leaves _ => exact hrest

lemma Hurried.meets (h : Hurried n w p l) (hm : Meets n idle w p ev w' q) :
    Hurried n w' q (l ++ ev.toList) := by
  have hmem : ev.any (Event.isOf n) = false →
      .reached n .starting .running ∉ l ++ ev.toList := by
    intro he hin
    rcases List.mem_append.mp hin with hin | hin
    · exact h.unopened hin
    · rw [Option.mem_toList.mp hin] at he
      exact Bool.false_ne_true (he.symm.trans (beq_self_eq_true n))
  cases hm with
  | goes _ hg => exact h.goes hg
  | halted _ => exact ⟨fun _ => rfl, hmem rfl⟩
  | rests he _ => exact ⟨h.told, hmem he⟩
  | gone he => exact ⟨nofun, hmem he⟩

lemma SoFar.hurried (h : SoFar n idle p w l) (hl : .reached n .starting .running ∉ l) :
    l <+: [.entered n true 0, .left n none, .reached n .stopping .terminated] ∨
      ∃ e, l <+: [.entered n true 0, .left n (some e), .reached n .stopping .failed] := by
  obtain ⟨life, hlife, hpre⟩ := h.prefix_life
  -- a life that begins with the opening has no other beginning without it than the empty one
  have hnil : ∀ rest, life = .reached n .starting .running :: rest → l = [] := by
    intro rest hr
    rcases List.prefix_cons_iff.mp (hr ▸ hpre) with rfl | ⟨t, rfl, -⟩
    · rfl
    · exact (hl List.mem_cons_self).elim
  cases hlife with
  | served ran k hr =>
    cases ran with
    | false =>
      obtain rfl := hr rfl
      exact .inl hpre
    | true => exact .inl (hnil _ rfl ▸ List.nil_prefix)
  | @broken ran last k p e hr _ hlast =>
    cases ran with
    | false =>
      obtain ⟨rfl, rfl⟩ := hr rfl
      obtain rfl := hlast rfl
      exact .inr ⟨e, hpre⟩
    | true => exact .inl (hnil _ rfl ▸ List.nil_prefix)

end Runs

/-! ### The end of a life -/

section Ends

variable {config : Config} {s s' u : ControlScene} {es : List Event}

/-- **Nothing stands in the worker's way**: it makes no call itself, and nobody destroys the
control. -/
structure Unhindered (n : Nat) (s : ControlScene) : Prop where
  quiet : s.Quiet
  alone : s.control.calls.get? (.worker n) = none
  intact : ∀ t, s.control.calls.get? t ≠ some (.destroy .joining)

lemma free_or_waking (ho : s.control.Orderly) (hu : Unhindered n s)
    (hp : s.control.phase = .running ∨ s.control.phase = .stopping) :
    s.control.holder = none ∨
      ∃ t closing, s.control.calls.get? t = some (.stop closing .waking) := by
  cases hh : s.control.holder with
  | none => exact .inl rfl
  | some t => exact .inr ⟨t, (ho.keeper_of_active hp hh).resolve_right (hu.intact t)⟩

/-- The worker gets the lock, if need be after the stop that is about to wake it. -/
lemma exists_free (hr : Reachable config s) (hu : Unhindered n s)
    (hp : s.control.phase = .running ∨ s.control.phase = .stopping) :
    ∃ u, QuietRun s [] u ∧ Unhindered n u ∧ u.control.holder = none ∧
      u.control.phase = s.control.phase ∧ u.control.workers = s.control.workers := by
  rcases free_or_waking hr.orderly hu hp with hf | ⟨t, closing, ht⟩
  · exact ⟨s, .refl hu.quiet, hu, hf, rfl, rfl⟩
  · have hw : s.control.waking t = true := Control.waking_iff.mpr ⟨closing, ht⟩
    have htn : Thread.worker n ≠ t := by
      intro h
      rw [← h, hu.alone] at ht
      cases ht
    let u : ControlScene := { s with control := s.control.woken t s.now, wakes := s.wakes + 1 }
    have hstep : s.step (.call t) = some u := by simp [step, hw, u]
    have heq : u.control = s.control.unlock.setCall t (.stop closing
        (.waiting (s.now.after s.control.config.shutdownLimit) false)) := Control.woken_eq ht s.now
    have hnote : s.note (.call t) u = none := by
      simp [note, heq, Control.setCall, Control.unlock]
    refine ⟨u, ?_, ⟨hu.quiet, ?_, fun k => ?_⟩, ?_, ?_, ?_⟩
    · have := QuietRun.of_step hu.quiet hstep (show u.Quiet from hu.quiet)
      rwa [hnote] at this
    · rw [heq, Control.setCall, Roster.get?_put_ne _ _ htn]
      exact hu.alone
    · rw [heq, Control.setCall]
      by_cases hk : k = t
      · rw [hk, Roster.get?_put_self]
        intro h
        cases h
      · rw [Roster.get?_put_ne _ _ hk]
        exact hu.intact k
    all_goals
      rw [heq]
      rfl

lemma quiet_of_work (hq : s.Quiet) (h : s.step (.work n) = some s') : s'.Quiet := by
  obtain ⟨⟨w, -, ht⟩, -⟩ := step_work h
  unfold Quiet
  generalize s'.control = d at ht
  generalize s'.journal = j at ht ⊢
  cases ht with
  | opens _ _ he => exact Journal.unarmed_log (Control.enter_cases he).1 hq
  | retires _ he => exact Journal.unarmed_log (Control.enter_cases he).1 hq
  | fails _ he => exact Journal.unarmed_log (Control.enter_cases he).1 hq
  | reports hl => exact Journal.unarmed_log hl hq
  | hurries _ _ | looks | enters | leaves => exact hq

lemma exists_work (hf : s.control.holder = none) (hw : s.control.worker? n = some w)
    (hc : ∀ last, w ≠ .cycling last) (ha : w.ahead ≠ 0) : ∃ s', s.step (.work n) = some s' := by
  have hfree : s.control.free = true := Control.free_iff.mpr hf
  refine Option.isSome_iff_exists.mp ?_
  rw [step, Option.isSome_map]
  cases w with
  | created =>
    simp only [Control.stepWorker, hw, hfree, if_true]
    split
    · split <;> rfl
    · rfl
  | looking | entering _ =>
    simp only [Control.stepWorker, hw]
    rfl
  | retiring | failing _ =>
    simp only [Control.stepWorker, hw, hfree, if_true]
    split <;> rfl
  | cycling last => exact (hc last rfl).elim
  | reporting _ | leaving | finished | aborted => exact (ha rfl).elim

lemma exists_worked (hr : Reachable config s) (hf : s.control.holder = none)
    (hw : s.control.worker? n = some w) (hc : ∀ last, w ≠ .cycling last) (ha : w.ahead ≠ 0) :
    ∃ s' w', s.step (.work n) = some s' ∧ s'.control.worker? n = some w' ∧
      w.Goes n s.control.config.idleDelay s.Quiet s.control.phase (s.note (.work n) s') w'
        s'.control.phase ∧ Rouses s.control s'.control ∧ s'.control.holder = none := by
  obtain ⟨s', hs⟩ := exists_work hf hw hc ha
  obtain ⟨⟨v, hv, hturn⟩, -⟩ := step_work hs
  obtain ⟨ev, hworks, hev⟩ := hr.orderly.works hv hturn
  obtain ⟨v', w', hv', hset, -, hgoes⟩ := hworks.goes
  obtain rfl := Option.some.inj (hw.symm.trans hv')
  refine ⟨s', w', hs, Control.worker?_set_self hset hw, note_work hev ▸ hgoes,
    Control.rouses_of_turn hturn, ?_⟩
  generalize s'.control = d at hturn
  generalize s'.journal = j at hturn
  cases hturn with
  | opens _ _ he | retires _ he | fails _ he => exact (Control.enter_frame he).2.1.trans hf
  | hurries _ _ | looks | enters | reports _ | leaves => exact hf

lemma exists_goes (hr : Reachable config s) (hu : Unhindered n s) (hf : s.control.holder = none)
    (hw : s.control.worker? n = some w) (ha : w.ahead ≠ 0) :
    ∃ m s' w' ev, s.step m = some s' ∧ s'.Quiet ∧ s'.control.worker? n = some w' ∧
      w.Goes n s.control.config.idleDelay s.Quiet s.control.phase ev w' s'.control.phase ∧
        Rouses s.control s'.control := by
  by_cases hc : ∃ last, w = .cycling last
  · obtain ⟨last, rfl⟩ := hc
    obtain ⟨hp, hlast⟩ :=
      WorkerStage.phase_of_cycle (.inr rfl) (hr.orderly.staffed.fits_of_present hw rfl)
    have hstep : s.step (.endCycle n none) =
        some { s with control := s.control.setWorker n (.afterCycle last none) } := by
      simp only [step, Control.endCycle_eq hw, Control.budget?_isSome_iff.mpr ⟨last, hw⟩, hu.alone,
        Option.isNone_none, true_and, if_true]
    exact ⟨_, _, _, _, hstep, hu.quiet, Control.worker?_set_self rfl hw, .exits none hp hlast,
      .of_eq rfl⟩
  · obtain ⟨s', w', hstep, hw', hgoes, hrouses, -⟩ :=
      exists_worked hr hf hw (fun last h => hc ⟨last, h⟩) ha
    exact ⟨_, s', w', _, hstep, quiet_of_work hu.quiet hstep, hw', hgoes, hrouses⟩

lemma Unhindered.rouses (hu : Unhindered n s) (hq : s'.Quiet)
    (hr : Rouses s.control s'.control) : Unhindered n s' := by
  refine ⟨hq, ?_, fun t ht => ?_⟩
  · rcases hr (.worker n) with h | h
    · exact h.trans hu.alone
    · rw [h, hu.alone]
      rfl
  · rcases hr t with h | h
    · exact hu.intact t (h.symm.trans ht)
    · rw [h] at ht
      obtain ⟨a, ha, hroused⟩ := Option.map_eq_some_iff.mp ht
      cases a with
      | start b st => cases st <;> cases hroused
      | stop b st => cases st <;> cases hroused
      | destroy st => exact hu.intact t (hroused ▸ ha)
      | ended r => cases hroused

theorem exists_settled (hr : Reachable config s) (hu : Unhindered n s)
    (hw : s.control.worker? n = some w)
    (hp : s.control.phase = .stopping ∨ s.control.phase = .running ∧ ∃ e, w = .failing e) :
    ∃ es u v, QuietRun s es u ∧ u.control.worker? n = some v ∧ v.settled = true := by
  induction ha : w.ahead using Nat.strongRecOn generalizing s w with
  | ind k ih =>
    subst ha
    by_cases hset : w.settled = true
    · exact ⟨[], s, w, .refl hu.quiet, hw, hset⟩
    · have hne : w.ahead ≠ 0 := by
        intro h0
        cases w with
        | aborted =>
          have hfit : s.control.phase = .failed := hr.orderly.staffed.fits_of_present hw rfl
          rw [hfit] at hp
          rcases hp with hp | ⟨hp, -⟩ <;> cases hp
        | entering last | cycling last => cases last <;> cases h0
        | created | looking | retiring | failing _ => cases h0
        | reporting _ | leaving | finished => exact hset rfl
      obtain ⟨v, hrun, hv, hf, hvp, hvw⟩ := exists_free hr hu (hp.symm.imp_left (·.1))
      have hvr := hrun.reachable hr
      have hwv : v.control.worker? n = some w := by
        rw [Control.worker?, hvw]
        exact hw
      obtain ⟨m, u, w', ev, hstep, hq, hw', hgoes, hrouses⟩ := exists_goes hvr hv hf hwv hne
      have hrun' := hrun.trans (QuietRun.of_step hv.quiet hstep hq)
      rw [hvp] at hgoes
      rcases hgoes.nearer hv.quiet hp with hset' | ⟨hlt, hstop⟩
      · exact ⟨_, u, w', hrun', hw', hset'⟩
      · obtain ⟨es, x, y, hx, hy, hyset⟩ := ih _ hlt (QuietRun.reachable hrun' hr)
          (hv.rouses hq hrouses) hw' hstop rfl
        exact ⟨_, x, y, hrun'.trans hx, hy, hyset⟩

/-! ### The shape of every life -/

lemma SoFar.life_of_settled (h : SoFar n idle p w l) (hw : w.settled = true) : Life n idle l := by
  cases h with
  | past _ hl => exact hl
  | created | looking _ _ _ | entering _ | cycling _ | retiring _ | failing _ _ _ => cases hw

lemma SoFar.phase_of_failing {e : Failure} (h : SoFar n idle p (.failing e) l) :
    p = .running ∨ p = .stopping := by
  cases h with
  | failing _ hp _ => exact hp
  | past hw _ => cases hw

lemma SoFar.eq_nil_of_created (h : SoFar n idle p .created l) : l = [] := by
  cases h with
  | created => rfl
  | past hw _ => cases hw

lemma eq_created_of_fits (h : w.fits .starting) : w = .created := by
  cases w with
  | created => rfl
  | entering last | cycling last => cases last <;> simp [WorkerStage.fits] at h
  | looking | retiring | failing _ | reporting _ | aborted | leaving | finished =>
    simp [WorkerStage.fits] at h

lemma call_of_turned {m : Move} {t : Thread} (h : s.note m s' = some (.turned t p q)) :
    m = .call t ∧ s.control.phase = p ∧ s'.control.phase = q := by
  unfold note at h
  split at h
  · split at h
    · cases h
      exact ⟨rfl, rfl, rfl⟩
    · split at h <;> cases h
  · split at h
    · cases h
    · split at h <;> cases h
  · cases h
  · cases h

lemma worker_of_turned (ho : s.control.Orderly) {m : Move} {t : Thread} (h : s.step m = some s')
    (hn : s.note m s' = some (.turned t p q)) (hw : s.control.worker? n = some w) :
    s'.control.worker? n = some w := by
  have hadv := (shows_of_step ho h).advance
  generalize s.note m s' = ev at hn hadv
  cases hadv with
  | rests _ _ _ | creates _ _ _ _ _ _ => cases hn
  | turns _ hs _ => rwa [Control.worker?, hs]
  | works _ _ _ hgoes =>
    have hown := hgoes.all_isOf
    rw [hn] at hown
    cases hown

/-- **The life of worker `n`** in a run to `s`, and in whatever follows. -/
structure Lives (n : Nat) (idle : Int) (es : List Event) (s : ControlScene) : Prop where
  /-- What the worker has done is the beginning of a whole life, and all of it once it has made
  known how it ended. -/
  shape : ∃ life, Life n idle life ∧ eventsOf n es <+: life ∧
    ∀ w, s.control.worker? n = some w → w.settled = true → eventsOf n es = life
  /-- The last cycle begins in the stopping phase. -/
  last : ∀ m s' wait, s.step m = some s' → s.note m s' = some (.entered n true wait) →
    s.control.phase = .stopping
  /-- Once the phase is stopping, one cycle that may wait at most comes before the last one, however
  many stops are made. -/
  stopped : ∀ es' u, s.control.phase = .stopping → (s.control.worker? n).isSome = true →
    QuietRun s es' u →
      entries n es' <+: [(true, 0)] ∨ entries n es' <+: [(false, idle), (true, 0)]
  /-- A stop that comes before the worker has opened the writer leaves it one cycle. -/
  hurried : ∀ w m s' t es' u, s.control.worker? n = some w → w ≠ .finished →
    s.step m = some s' → s.note m s' = some (.turned t .starting .stopping) → QuietRun s' es' u →
      eventsOf n es = [] ∧
        (eventsOf n es' <+: [.entered n true 0, .left n none, .reached n .stopping .terminated] ∨
          ∃ e, eventsOf n es' <+:
            [.entered n true 0, .left n (some e), .reached n .stopping .failed])
  /-- A worker told to stop, or broken, can always be brought to the end of its life. -/
  ends : ∀ w, s.control.worker? n = some w →
    (s.control.phase = .stopping ∨ ∃ e, w = .failing e) → Unhindered n s →
      ∃ es' u, QuietRun s es' u ∧ Life n idle (eventsOf n (es ++ es'))

/-- **The shape of every worker's life**, whatever calls are made by clients or by tasks, and
whatever becomes of the cycles. -/
theorem lives_of_run (h : QuietRun (fresh config) es s) (n : Nat) :
    Lives n config.idleDelay es s := by
  have hr : Reachable config s := h.reachable .init
  obtain ⟨hunborn, hborn⟩ := soFar_of_run h n
  refine ⟨?_, fun m s' wait hs hn => ?_, fun es' u hp hw hu => ?_,
    fun w m s' t es' u hw hgone hs hn hu => ?_, fun w hw hp hu => ?_⟩
  · -- an unborn worker has the beginning of any life behind it
    cases hw : s.control.worker? n with
    | none =>
      rw [hunborn hw]
      exact ⟨_, .served true 0 nofun, List.nil_prefix, nofun⟩
    | some w =>
      have hsf := hborn w hw
      by_cases hset : w.settled = true
      · exact ⟨_, hsf.life_of_settled hset, List.prefix_refl _, fun _ _ _ => rfl⟩
      · obtain ⟨life, hlife, hpre⟩ := hsf.prefix_life
        refine ⟨life, hlife, hpre, fun v hv hvset => (hset ?_).elim⟩
        obtain rfl := Option.some.inj hv
        exact hvset
  · have hadv := (shows_of_step hr.orderly hs).advance
    rw [hn] at hadv
    cases hadv with
    | works _ _ _ hgoes =>
      obtain rfl := beq_iff_eq.mp hgoes.all_isOf
      exact hgoes.stopping_of_last
  · obtain ⟨w, hw⟩ := Option.isSome_iff_exists.mp hw
    have hent := entries_of_stopping hr hp hw hu
    rcases remaining_cases config.idleDelay w with hrem | hrem
    · exact .inl (hent.trans hrem)
    · exact .inr (hent.trans hrem)
  · -- a stop that ends the starting phase finds the worker before its first step
    obtain ⟨-, hp, hp'⟩ := call_of_turned hn
    have hfit := hr.orderly.staffed.fits_of_present hw (Bool.not_eq_false _ ▸ fun hf =>
      hgone (WorkerStage.eq_finished hf))
    rw [hp] at hfit
    obtain rfl := eq_created_of_fits hfit
    have hnil := (hborn _ hw).eq_nil_of_created
    have hw' : s'.control.worker? n = some .created := worker_of_turned hr.orderly hs hn hw
    obtain ⟨v, hv, hh⟩ := hu.keeps (I := Hurried n) (hr.step m hs) hw' ⟨fun _ => hp', nofun⟩
      fun _ _ _ _ _ _ hi hm => hi.meets hm
    have hrun : QuietRun (fresh config) (es ++ (s.note m s').toList ++ es') u :=
      (Chronicle.step m h hs hu.along.start).trans hu
    have hevents : eventsOf n (es ++ (s.note m s').toList ++ es') = eventsOf n es' := by
      rw [eventsOf, List.filter_append, List.filter_append, hn]
      exact congrArg (· ++ [] ++ eventsOf n es') hnil
    refine ⟨hnil, ?_⟩
    have hsf := (soFar_of_run hrun n).2 v hv
    rw [hevents] at hsf
    exact hsf.hurried fun hin => hh.unopened (List.mem_filter.mp hin).1
  · have hsf := hborn w hw
    have hphase : s.control.phase = .stopping ∨ s.control.phase = .running ∧ ∃ e, w = .failing e :=
      hp.elim .inl fun ⟨e, he⟩ => by
        subst he
        exact hsf.phase_of_failing.symm.imp_right fun hp => ⟨hp, e, rfl⟩
    obtain ⟨es', u, v, hu', hv, hset⟩ := exists_settled hr hu hw hphase
    exact ⟨es', u, hu', ((soFar_of_run (h.trans hu') n).2 v hv).life_of_settled hset⟩

/-- A start, and a stop while the worker is in its first cycle. -/
def stopInCycle : List Move :=
  [.start (.client 0) true, .call (.client 0), .call (.client 0), .call (.client 0), .work 0,
    .work 0, .work 0, .stop (.client 1), .call (.client 1), .call (.client 1), .endCycle 0 none,
    .work 0, .work 0, .endCycle 0 none, .work 0]

/-- The life of the worker in that run: one cycle that may wait, and the last one. -/
theorem lives_stopInCycle : ∃ es s, QuietRun (fresh {}) es s ∧
    entries 0 es = [(false, 5), (true, 0)] ∧ s.control.phase = .terminated ∧ Lives 0 5 es s := by
  obtain ⟨es, s, h, hf⟩ : ∃ es s, QuietRun (fresh {}) es s ∧
      (entries 0 es, s.control.phase) = ([(false, 5), (true, 0)], .terminated) :=
    exists_quietRun stopInCycle rfl
  obtain ⟨he, hp⟩ := Prod.mk.inj hf
  exact ⟨es, s, h, he, hp, lives_of_run h 0⟩

end Ends

end ControlScene

end SerialWriter
