import SerialWriter.Proofs.Control.Discipline

/-!
What a control shows of its phases and its workers: the event of each move, and every move as one
that touches neither, a change of phase by a call, the creation of a worker, or a step of a worker.
-/

namespace SerialWriter

/-! ### Events -/

namespace ControlScene

/-- **What can be noted of a move.** -/
inductive Event
  /-- A call of the thread changes the phase. -/
  | turned (t : Thread) (before after : Phase)
  /-- The worker changes the phase. -/
  | reached (n : Nat) (before after : Phase)
  /-- A start of the thread creates the worker. -/
  | created (t : Thread) (n : Nat)
  /-- The worker enters a cycle, which may be its last one, with the wait it is allowed. -/
  | entered (n : Nat) (last : Bool) (wait : Int)
  /-- The worker leaves its cycle, by what escaped it if anything did. -/
  | left (n : Nat) (escaped : Option Failure)

/-- The change of phase that an event is. -/
def Event.change? : Event → Option (Phase × Phase)
  | .turned _ p q | .reached _ p q => some (p, q)
  | _ => none

/-- The line that tells of an event, in the log of the control of that name. -/
def Event.line? (name : String) : Event → Option (Thread × Notice)
  | .turned t p q => some (t, .moved name p q)
  | .reached n p q => some (.worker n, .moved name p q)
  | _ => none

/-- The event is a event of worker `n`. -/
def Event.isOf (n : Nat) : Event → Bool
  | .reached k _ _ | .entered k _ _ | .left k _ => k == n
  | .turned _ _ _ | .created _ _ => false

/-- **What is noted of a move** from `s` to `s'`. -/
def note (s : ControlScene) (m : Move) (s' : ControlScene) : Option Event :=
  match m with
  | .call t =>
    if s'.control.phase ≠ s.control.phase then
      some (.turned t s.control.phase s'.control.phase)
    else if s.control.workers.length < s'.control.workers.length then
      some (.created t s.control.workers.length)
    else none
  | .work n =>
    if s'.control.phase ≠ s.control.phase then
      some (.reached n s.control.phase s'.control.phase)
    else
      match s'.control.worker? n, s'.control.cycles with
      | some (.cycling last), (_, wait) :: _ => some (.entered n last wait)
      | _, _ => none
  | .endCycle n e => some (.left n e)
  | _ => none

end ControlScene

/-- The notice tells of a change of phase. -/
def Notice.isMove : Notice → Bool
  | .moved _ _ _ => true
  | _ => false

/-- The lines about changes of phase, the earliest first. -/
def Journal.moves (j : Journal) : List (Thread × Notice) := j.entries.reverse.filter (·.2.isMove)

namespace Journal

variable {j j' : Journal} {t : Thread} {n : Notice} {f : Option Failure}

lemma moves_log (h : j.log t n = (f, j')) :
    j'.moves = j.moves ++ if n.isMove then [(t, n)] else [] := by
  have he : j'.entries = (t, n) :: j.entries := by
    rw [← log_entries j t n, h]
  rw [moves, he, List.reverse_cons, List.filter_append, List.filter_cons, List.filter_nil]
  rfl

lemma moves_log_other (h : j.log t n = (f, j')) (hn : n.isMove = false) : j'.moves = j.moves := by
  rw [moves_log h, hn]
  exact List.append_nil _

lemma fault_of_unarmed (h : j.log t n = (f, j')) (hj : j.armed = none) : f = none := by
  rw [← (log_of_unarmed hj t n).1, h]

lemma eq_fault {e : Failure} (h : j.log t n = (some e, j')) : e = fault := by
  unfold log at h
  split at h
  · cases h
    rfl
  · cases h

lemma unarmed_log (h : j.log t n = (f, j')) (hj : j.armed = none) : j'.armed = none := by
  rw [← (log_of_unarmed hj t n).2, h]

end Journal

/-! ### Changes of phase by calls -/

namespace Control

/-- All workers are gone. -/
def Vacant (c : Control) : Prop := ∀ n w, c.worker? n = some w → w = .finished

/-- **The changes of phase that a call of `t` makes.** -/
inductive Turns (c : Control) (t : Thread) : Phase → Prop
  | starts (hp : c.phase = .new ∨ c.phase = .terminated) (hv : c.Vacant) : Turns c t .starting
  | retires (hp : c.phase = .new) (hv : c.Vacant) : Turns c t .terminated
  | halts (hp : c.phase = .starting ∨ c.phase = .running) : Turns c t .stopping
  /-- The worker cannot be created. -/
  | denied (hs : c.calls.get? t = some (.start false .spawning)) (hp : c.phase = .starting)
      (hv : c.Vacant) : Turns c t .failed

variable {c d e : Control} {t : Thread} {now : Time} {j j' : Journal}

lemma Turns.ne {q : Phase} (h : c.Turns t q) : q ≠ c.phase := by
  cases h with
  | starts hp _ => rcases hp with hp | hp <;> rw [hp] <;> exact nofun
  | retires hp _ =>
    rw [hp]
    exact nofun
  | halts hp => rcases hp with hp | hp <;> rw [hp] <;> exact nofun
  | denied _ hp _ =>
    rw [hp]
    exact nofun

/-- **What a step of a call does to the phase and the workers.** -/
inductive Acts (c : Control) (t : Thread) (j : Journal) (d : Control) (j' : Journal) : Prop
  | rests (hp : d.phase = c.phase) (hw : d.workers = c.workers) (hc : d.cause = c.cause)
      (hg : d.config = c.config) (hl : j'.moves = j.moves)
  | turns (h : c.Turns t d.phase) (hw : d.workers = c.workers)
      (hc : d.cause = if d.phase = .failed then some .noThread else c.cause)
      (hg : d.config = c.config)
      (hl : j'.moves = j.moves ++ [(t, .moved c.config.name c.phase d.phase)])
  | creates (hs : c.calls.get? t = some (.start true .spawning)) (hp : c.phase = .starting)
      (hv : c.Vacant) (hd : d.phase = c.phase) (hw : d.workers = c.workers ++ [.created])
      (hc : d.cause = c.cause) (hg : d.config = c.config) (hl : j'.moves = j.moves)

namespace Acts

lemma congr (h : Acts c t j e j') (hp : d.phase = e.phase) (hw : d.workers = e.workers)
    (hc : d.cause = e.cause) (hg : d.config = e.config) : Acts c t j d j' := by
  cases h with
  | rests hp' hw' hc' hg' hl =>
    exact .rests (hp.trans hp') (hw.trans hw') (hc.trans hc') (hg.trans hg') hl
  | turns h hw' hc' hg' hl =>
    exact .turns (hp ▸ h) (hw.trans hw') (hc.trans (hp ▸ hc')) (hg.trans hg') (hp ▸ hl)
  | creates hs hp' hv hd hw' hc' hg' hl =>
    exact .creates hs hp' hv (hp.trans hd) (hw.trans hw') (hc.trans hc') (hg.trans hg') hl

lemma of_join (h : c.join t = some d) : Acts c t j d j := by
  obtain ⟨hp, -, hw, -, hg, hc, -⟩ := join_frame h
  exact .rests hp hw hc hg rfl

lemma of_enter {b : Control} {p : Phase} {f : Option Failure} (h : c.Turns t p)
    (hb : b.phase = c.phase ∧ b.workers = c.workers ∧ b.config = c.config)
    (hc : b.cause = if p = .failed then some .noThread else c.cause)
    (he : b.enter p t j = (f, d, j')) : Acts c t j d j' := by
  obtain ⟨hbp, hbw, hbg⟩ := hb
  obtain ⟨rfl, -, -, hw, hg, hcause, -⟩ := enter_frame he
  refine .turns h (hw.trans hbw) (hcause.trans hc) (hg.trans hbg) ?_
  rw [Journal.moves_log (enter_cases he).1, hbg, hbp]
  rfl

lemma finishStop (h : Acts c t j e j') (closing : Bool) (r : Except Failure Unit) :
    Acts c t j (e.finishStop t closing r) j' := by
  rw [finishStop_eq]
  exact h.congr rfl rfl rfl rfl

end Acts

lemma concludeStart_moves (c : Control) (t : Thread) (j : Journal) :
    (c.concludeStart t j).2.moves = j.moves := by
  unfold concludeStart
  split
  · rfl
  · split
    · rename_i hl
      exact Journal.moves_log_other hl rfl
    · rename_i hl
      exact Journal.moves_log_other hl rfl

lemma concludeStop_moves (c : Control) (t : Thread) (closing : Bool) (j : Journal) :
    (c.concludeStop t closing j).2.moves = j.moves := by
  unfold concludeStop
  split
  · rfl
  · split
    · rename_i hl
      exact Journal.moves_log_other hl rfl
    · rename_i hl
      exact Journal.moves_log_other hl rfl

namespace Orderly

lemma vacant_of_new (h : c.Orderly) (hp : c.phase = .new) : c.Vacant := by
  refine fun n w hw => h.staffed.vacant (Option.eq_none_iff_forall_ne_some.mpr fun m hm => ?_) hw
  obtain ⟨v, hv⟩ : ∃ v, c.worker? m = some v :=
    ⟨_, List.getElem?_eq_getElem (h.staffed.known m hm)⟩
  exact Staffed.not_fits_new v (hp ▸ h.staffed.suited m v hm hv)

lemma vacant_of_join (h : c.Orderly) {s : CallStage} (hs : c.calls.get? t = some s)
    (hp : c.phase ≠ .running ∧ c.phase ≠ .stopping) (hd : c.join t = some d) : c.Vacant :=
  fun n _ hw => (h.staffed.join hd).vacant (h.joinable_of_join hs hp hd)
    ((congrArg (·[n]?) (join_frame hd).2.2.1).trans hw)

lemma vacant_of_launching (h : c.Orderly) {spawns : Bool}
    (hs : c.calls.get? t = some (.start spawns .launching)) (hd : c.join t = some d) :
    c.Vacant := by
  refine h.vacant_of_join hs ?_ hd
  rcases h.guarded.suited _ _ hs with hp | hp <;> rw [hp] <;> exact ⟨nofun, nofun⟩

lemma startActs (h : c.Orderly) {spawns : Bool} {s : StartStage}
    (hs : c.calls.get? t = some (.start spawns s)) (ht : StartTurn c t now j spawns s d j') :
    Acts c t j d j' := by
  have hsuit := h.guarded.suited _ _ hs
  cases ht with
  | refused _ _ => exact .rests rfl rfl rfl rfl rfl
  | admitted _ _ => exact .rests rfl rfl rfl rfl rfl
  | @launched b _ _ hd he =>
    obtain ⟨hp, -, hw, -, hg, hc, -⟩ := join_frame hd
    have hv := h.vacant_of_launching hs hd
    exact (Acts.of_enter (.starts hsuit hv) ⟨hp, hw, hg⟩ hc he).congr rfl rfl rfl rfl
  | @launchFault b _ _ e hd he =>
    obtain ⟨hp, -, hw, -, hg, hc, -⟩ := join_frame hd
    have hv := h.vacant_of_launching hs hd
    exact (Acts.of_enter (.starts hsuit hv) ⟨hp, hw, hg⟩ hc he).congr rfl rfl rfl rfl
  | spawned hsp =>
    exact .creates (hsp ▸ hs) hsuit.1 (fun _ _ hw => h.staffed.vacant hsuit.2 hw) rfl rfl rfl rfl
      rfl
  | unmanned hsp he _ =>
    have hd : c.Turns t .failed :=
      .denied (hsp ▸ hs) hsuit.1 fun _ _ hw => h.staffed.vacant hsuit.2 hw
    exact (Acts.of_enter (b := { c with cause := some .noThread }) hd ⟨rfl, rfl, rfl⟩ rfl
      he).congr rfl rfl rfl rfl
  | concluded _ _ _ =>
    obtain ⟨r, hr⟩ := concludeStart_eq c t j
    rw [hr]
    exact .rests rfl rfl rfl rfl (concludeStart_moves ..)
  | expired _ _ _ => exact .rests rfl rfl rfl rfl rfl
  | waits _ _ _ => exact .rests rfl rfl rfl rfl rfl

lemma stopActs (h : c.Orderly) {closing : Bool} {s : StopStage}
    (ht : StopTurn c t now j closing s d j') : Acts c t j d j' := by
  cases ht with
  | retired _ hp he _ =>
    exact (Acts.of_enter (.retires hp (h.vacant_of_new hp)) ⟨rfl, rfl, rfl⟩ rfl he).finishStop ..
  | already _ _ => exact (Acts.rests rfl rfl rfl rfl rfl).finishStop ..
  | buries _ _ => exact .rests rfl rfl rfl rfl rfl
  | halted _ hp he =>
    exact (Acts.of_enter (.halts hp) ⟨rfl, rfl, rfl⟩ rfl he).congr rfl rfl rfl rfl
  | haltFault _ hp he =>
    exact (Acts.of_enter (.halts hp) ⟨rfl, rfl, rfl⟩ rfl he).finishStop ..
  | halts _ _ => exact .rests rfl rfl rfl rfl rfl
  | buried hd => exact (Acts.of_join hd).finishStop ..
  | collects _ _ _ => exact .rests rfl rfl rfl rfl rfl
  | expired _ _ _ => exact (Acts.rests rfl rfl rfl rfl rfl).finishStop ..
  | waits _ _ _ => exact .rests rfl rfl rfl rfl rfl
  | @collected e hd =>
    obtain ⟨hp, -, hw, -, hg, hc, -⟩ := join_frame hd
    obtain ⟨r, hr⟩ := concludeStop_eq e t closing j
    rw [hr]
    exact .rests hp hw hc hg (concludeStop_moves ..)

lemma destroyActs {s : DestroyStage} (ht : DestroyTurn c t j s d j') : Acts c t j d j' := by
  cases ht with
  | stops _ => exact .rests rfl rfl rfl rfl rfl
  | skips _ => exact .rests rfl rfl rfl rfl rfl
  | reported hl => exact .rests rfl rfl rfl rfl (Journal.moves_log_other hl rfl)
  | locks _ => exact .rests rfl rfl rfl rfl rfl
  | joined hd => exact (Acts.of_join hd).congr rfl rfl rfl rfl

/-- **A step of a call** leaves the phase and the workers alone, changes the phase, or creates a
worker. -/
theorem acts (h : c.Orderly) {s : CallStage} (hs : c.calls.get? t = some s)
    (ht : CallTurn c t now j s d j') : Acts c t j d j' := by
  cases ht with
  | start ht => exact h.startActs hs ht
  | stop ht => exact h.stopActs ht
  | destroy ht => exact destroyActs ht

end Orderly

end Control

/-! ### The life of a worker, step by step -/

/-- The failure that a worker is about to make known. -/
def WorkerStage.fault? : WorkerStage → Option Failure
  | .failing e => some e
  | _ => none

/-- The wait that a worker is allowed in a cycle. -/
def allowance (idle : Int) (last : Bool) : Int := if last then 0 else idle

/-- **The steps of worker `n`**: from a stage and a phase, with what is noted, to the next stage and
phase. A line can only fail if it is not `quiet`. -/
inductive WorkerStage.Goes (n : Nat) (idle : Int) (quiet : Prop) :
    WorkerStage → Phase → Option ControlScene.Event → WorkerStage → Phase → Prop
  | opens {f : Option Failure} (hf : quiet → f = none) :
      Goes n idle quiet .created .starting (some (.reached n .starting .running))
        (f.elim .looking .failing) .running
  | hurries : Goes n idle quiet .created .stopping none .looking .stopping
  | looks {p : Phase} (hp : p = .running ∨ p = .stopping) :
      Goes n idle quiet .looking p none (.entering (decide (p ≠ .running))) p
  | enters {p : Phase} {last : Bool} (hp : p = .running ∨ p = .stopping)
      (hl : last = true → p = .stopping) :
      Goes n idle quiet (.entering last) p (some (.entered n last (allowance idle last)))
        (.cycling last) p
  | exits {p : Phase} {last : Bool} (e : Option Failure) (hp : p = .running ∨ p = .stopping)
      (hl : last = true → p = .stopping) :
      Goes n idle quiet (.cycling last) p (some (.left n e)) (.afterCycle last e) p
  | retires {f : Option Failure} (hf : quiet → f = none) :
      Goes n idle quiet .retiring .stopping (some (.reached n .stopping .terminated))
        (f.elim .leaving .failing) .terminated
  | fails {p : Phase} {e : Failure} {f : Option Failure} (hf : quiet → f = none)
      (hp : p = .running ∨ p = .stopping ∨ p = .terminated) :
      Goes n idle quiet (.failing e) p (some (.reached n p .failed))
        (f.elim (.reporting e) fun _ => .aborted) .failed
  | reports {e : Failure} {f : Option Failure} (hf : quiet → f = none) :
      Goes n idle quiet (.reporting e) .failed none (f.elim .leaving fun _ => .aborted) .failed
  | leaves {p : Phase} (hp : p = .terminated ∨ p = .failed) :
      Goes n idle quiet .leaving p none .finished p

namespace WorkerStage.Goes

variable {n : Nat} {idle : Int} {quiet : Prop} {w w' : WorkerStage} {p q : Phase}
  {ev : Option ControlScene.Event}

lemma present (h : w.Goes n idle quiet p ev w' q) : w.present = true := by
  cases h <;> rfl

lemma all_isOf (h : w.Goes n idle quiet p ev w' q) : ev.all (ControlScene.Event.isOf n) = true := by
  cases h with
  | opens _ | enters _ _ | exits _ _ _ | retires _ | fails _ _ => exact beq_self_eq_true n
  | hurries | looks _ | reports _ | leaves _ => rfl

lemma any_isOf (h : w.Goes n idle quiet p ev w' q) {k : Nat} (hk : n ≠ k) :
    ev.any (ControlScene.Event.isOf k) = false := by
  cases h with
  | opens _ | enters _ _ | exits _ _ _ | retires _ | fails _ _ => exact beq_eq_false_iff_ne.mpr hk
  | hurries | looks _ | reports _ | leaves _ => rfl

lemma ne_created (h : w.Goes n idle quiet p ev w' q) : w' ≠ .created := by
  intro hc
  cases h with
  | @opens f _ | @retires f _ | @fails _ _ f _ _ | @reports _ f _ => cases f <;> cases hc
  | @exits _ last e _ _ => cases e <;> cases last <;> cases hc
  | hurries | looks _ | enters _ _ | leaves _ => cases hc

lemma stopping_of_last {wait : Int} (h : w.Goes n idle quiet p (some (.entered n true wait)) w' q) :
    p = .stopping := by
  cases h with
  | enters _ hl => exact hl rfl

end WorkerStage.Goes

namespace Control

/-- **What a step of worker `n` does to the phase and the workers.** -/
structure Works (c : Control) (n : Nat) (j : Journal) (ev : Option ControlScene.Event) (d : Control)
    (j' : Journal) : Prop where
  goes : ∃ w w', c.worker? n = some w ∧ d.workers = c.workers.set n w' ∧
    d.cause = w.fault?.or c.cause ∧
      w.Goes n c.config.idleDelay (j.armed = none) c.phase ev w' d.phase
  config : d.config = c.config
  lines : j'.moves = j.moves ++ (ev.bind (ControlScene.Event.line? c.config.name)).toList

variable {c d : Control} {n : Nat} {j j' : Journal}

namespace Works

lemma of_enter {w w' : WorkerStage} {p : Phase} {f : Option Failure} {b e : Control}
    (hw : c.worker? n = some w)
    (hb : b.phase = c.phase ∧ b.workers = c.workers ∧ b.config = c.config ∧
      b.cause = w.fault?.or c.cause) (he : b.enter p (.worker n) j = (f, e, j'))
    (hg : (j.armed = none → f = none) →
      w.Goes n c.config.idleDelay (j.armed = none) c.phase (some (.reached n c.phase p)) w' p) :
    c.Works n j (some (.reached n c.phase p)) (e.setWorker n w') j' := by
  obtain ⟨hbp, hbw, hbg, hbc⟩ := hb
  obtain ⟨rfl, -, -, hws, hgs, hcs, -⟩ := enter_frame he
  have hl := (enter_cases he).1
  refine ⟨⟨w, w', hw, congrArg (List.set · n w') (hws.trans hbw), hcs.trans hbc,
    hg (Journal.fault_of_unarmed hl)⟩, hgs.trans hbg, ?_⟩
  rw [Journal.moves_log hl, hbg, hbp]
  rfl

lemma of_move {w w' : WorkerStage} {ev : Option ControlScene.Event} (hw : c.worker? n = some w)
    (hd : d.workers = c.workers.set n w' ∧ d.phase = c.phase ∧ d.cause = w.fault?.or c.cause ∧
      d.config = c.config) (hl : j'.moves = j.moves)
    (he : ev.bind (ControlScene.Event.line? c.config.name) = none)
    (hg : w.Goes n c.config.idleDelay (j.armed = none) c.phase ev w' c.phase) :
    c.Works n j ev d j' := by
  obtain ⟨hs, hp, hc, hcfg⟩ := hd
  refine ⟨⟨w, w', hw, hs, hc, hp ▸ hg⟩, hcfg, ?_⟩
  rw [he, hl]
  exact (List.append_nil _).symm

end Works

theorem Orderly.works (h : c.Orderly) {w : WorkerStage} (hw : c.worker? n = some w)
    (ht : WorkerTurn c n j w d j') :
    ∃ ev, c.Works n j ev d j' ∧ (d.phase ≠ c.phase ∧ ev = some (.reached n c.phase d.phase) ∨
      d.phase = c.phase ∧ (ev = none ∧ (∀ last, d.worker? n ≠ some (.cycling last)) ∨
        ∃ last wait, ev = some (.entered n last wait) ∧ d.worker? n = some (.cycling last) ∧
          d.cycles = (n, wait) :: c.cycles)) := by
  cases ht with
  | @opens f b _ hf hp he =>
    have hpb := (enter_frame he).1
    refine ⟨_, .of_enter hw ⟨rfl, rfl, rfl, rfl⟩ he fun hq => hp ▸ .opens hq, .inl ⟨?_, ?_⟩⟩
    · change b.phase ≠ _
      rw [hpb, hp]
      decide
    · exact congrArg (fun q => some (ControlScene.Event.reached n c.phase q)) hpb.symm
  | hurries hf hp =>
    have hfit := (h.staffed.fits_of_present hw rfl).resolve_left hp
    refine ⟨none, .of_move hw ⟨rfl, rfl, rfl, rfl⟩ rfl rfl (hfit ▸ .hurries),
      .inr ⟨rfl, .inl ⟨rfl, fun last hl => ?_⟩⟩⟩
    rw [worker?_set_self rfl hw] at hl
    cases hl
  | looks =>
    have hfit := h.staffed.fits_of_present hw rfl
    refine ⟨none, .of_move hw ⟨rfl, rfl, rfl, rfl⟩ rfl rfl (.looks hfit),
      .inr ⟨rfl, .inl ⟨rfl, fun last hl => ?_⟩⟩⟩
    rw [worker?_set_self rfl hw] at hl
    cases hl
  | @enters last =>
    obtain ⟨hp, hlast⟩ :=
      WorkerStage.phase_of_cycle (.inl rfl) (h.staffed.fits_of_present hw rfl)
    exact ⟨_, .of_move hw ⟨rfl, rfl, rfl, rfl⟩ rfl rfl (.enters hp hlast),
      .inr ⟨rfl, .inr ⟨last, _, rfl, worker?_set_self rfl hw, rfl⟩⟩⟩
  | @retires f b _ hf he =>
    have hfit : c.phase = .stopping := h.staffed.fits_of_present hw rfl
    have hpb := (enter_frame he).1
    refine ⟨_, .of_enter hw ⟨rfl, rfl, rfl, rfl⟩ he fun hq => hfit ▸ .retires hq, .inl ⟨?_, ?_⟩⟩
    · change b.phase ≠ _
      rw [hpb, hfit]
      decide
    · exact congrArg (fun q => some (ControlScene.Event.reached n c.phase q)) hpb.symm
  | @fails e f b _ hf he =>
    have hfit := h.staffed.fits_of_present hw rfl
    have hpb := (enter_frame he).1
    refine ⟨_, .of_enter (b := { c with cause := some e }) hw ⟨rfl, rfl, rfl, rfl⟩ he
      fun hq => .fails hq hfit, .inl ⟨?_, ?_⟩⟩
    · change b.phase ≠ _
      rw [hpb]
      rcases hfit with hp | hp | hp <;> rw [hp] <;> decide
    · exact congrArg (fun q => some (ControlScene.Event.reached n c.phase q)) hpb.symm
  | @reports e f _ hl =>
    have hfit : c.phase = .failed := h.staffed.fits_of_present hw rfl
    refine ⟨none, .of_move hw ⟨rfl, rfl, rfl, rfl⟩ (Journal.moves_log_other hl rfl) rfl
      (hfit ▸ .reports (Journal.fault_of_unarmed hl)), .inr ⟨rfl, .inl ⟨rfl, fun last hl' => ?_⟩⟩⟩
    rw [worker?_set_self rfl hw] at hl'
    cases f <;> cases hl'
  | leaves =>
    have hfit := h.staffed.fits_of_present hw rfl
    refine ⟨none, .of_move hw ⟨rfl, rfl, rfl, rfl⟩ rfl rfl (.leaves hfit),
      .inr ⟨rfl, .inl ⟨rfl, fun last hl => ?_⟩⟩⟩
    rw [worker?_set_self rfl hw] at hl
    cases hl

end Control

/-! ### Every move -/

/-- **What a move does to the phase and the workers**, with what is noted of it. -/
inductive Control.Advance (c : Control) (j : Journal) : Option ControlScene.Event → Control → Prop
  | rests {d : Control} (hp : d.phase = c.phase) (hw : d.workers = c.workers)
      (hc : d.cause = c.cause) : Advance c j none d
  | turns {d : Control} {t : Thread} (h : c.Turns t d.phase) (hw : d.workers = c.workers)
      (hc : d.cause = if d.phase = .failed then some .noThread else c.cause) :
      Advance c j (some (.turned t c.phase d.phase)) d
  | creates {d : Control} {t : Thread} (hs : c.calls.get? t = some (.start true .spawning))
      (hp : c.phase = .starting) (hv : c.Vacant) (hd : d.phase = c.phase)
      (hw : d.workers = c.workers ++ [.created]) (hc : d.cause = c.cause) :
      Advance c j (some (.created t c.workers.length)) d
  | works {d : Control} {n : Nat} {w w' : WorkerStage} {ev : Option ControlScene.Event}
      (hw : c.worker? n = some w) (hs : d.workers = c.workers.set n w')
      (hc : d.cause = w.fault?.or c.cause)
      (h : w.Goes n c.config.idleDelay (j.armed = none) c.phase ev w' d.phase) : Advance c j ev d

/-- Every step of a control does one of these. -/
lemma Control.Orderly.advance {c d : Control} {now : Time} {j j' : Journal} (h : c.Orderly)
    (hs : c.Step now j d j') : ∃ ev, c.Advance j ev d := by
  cases hs with
  | begins _ _ _ => exact ⟨none, .rests rfl rfl rfl⟩
  | calls hs ht =>
    cases h.acts hs ht with
    | rests hp hw hc _ _ => exact ⟨none, .rests hp hw hc⟩
    | turns hturn hw hc _ _ => exact ⟨_, .turns hturn hw hc⟩
    | creates hs hp hv hd hw hc _ _ => exact ⟨_, .creates hs hp hv hd hw hc⟩
  | wakes _ => exact ⟨none, .rests rfl rfl rfl⟩
  | acknowledges _ => exact ⟨none, .rests rfl rfl rfl⟩
  | works hw ht =>
    obtain ⟨ev, hworks, -⟩ := h.works hw ht
    obtain ⟨v, v', hv, hs, hc, hgoes⟩ := hworks.goes
    exact ⟨ev, .works hv hs hc hgoes⟩
  | @endsCycle n last e hw _ =>
    obtain ⟨hp, hlast⟩ :=
      WorkerStage.phase_of_cycle (.inr rfl) (h.staffed.fits_of_present hw rfl)
    exact ⟨_, .works hw rfl rfl (.exits e hp hlast)⟩
  | stirs _ => exact ⟨none, .rests rfl rfl rfl⟩

lemma Control.Orderly.config_of_step {c d : Control} {now : Time} {j j' : Journal} (h : c.Orderly)
    (hs : c.Step now j d j') : d.config = c.config := by
  cases hs with
  | calls hs ht =>
    cases h.acts hs ht with
    | rests _ _ _ hg _ | turns _ _ _ hg _ | creates _ _ _ _ _ _ hg _ => exact hg
  | works hw ht =>
    obtain ⟨ev, hworks, -⟩ := h.works hw ht
    exact hworks.config
  | _ => rfl

lemma WorkerStage.Goes.past_running {n : Nat} {idle : Int} {quiet : Prop} {s s' : WorkerStage}
    {p q : Phase} {ev : Option ControlScene.Event} (h : s.Goes n idle quiet p ev s' q)
    (hr : p ≠ .running) (hs : p ≠ .starting) : q ≠ .running ∧ q ≠ .starting := by
  cases h with
  | opens _ => exact (hs rfl).elim
  | hurries | retires _ | fails _ _ | reports _ => decide
  | looks _ | enters _ _ | exits _ _ _ | leaves _ => exact ⟨hr, hs⟩

lemma Control.Advance.past_running {c d : Control} {j : Journal} {ev : Option ControlScene.Event}
    (h : c.Advance j ev d) (hp : c.phase = .stopping) : d.phase ≠ .running := by
  cases h with
  | rests hd _ _ | creates _ _ _ hd _ _ =>
    rw [hd, hp]
    decide
  | turns hturn _ _ =>
    generalize d.phase = q at hturn
    cases hturn <;> decide
  | works _ _ _ hgoes => exact (hgoes.past_running (hp ▸ by decide) (hp ▸ by decide)).1

namespace ControlScene

variable {s s' : ControlScene} {m : Move}

/-- **Everything a move shows.** -/
structure Shows (s : ControlScene) (m : Move) (s' : ControlScene) : Prop where
  advance : s.control.Advance s.journal (s.note m s') s'.control
  config : s'.control.config = s.control.config
  lines : s'.journal.moves = s.journal.moves ++
    ((s.note m s').bind (Event.line? s.control.config.name)).toList

lemma Shows.of_rest (hn : s.note m s' = none) (hp : s'.control.phase = s.control.phase)
    (hw : s'.control.workers = s.control.workers) (hc : s'.control.cause = s.control.cause)
    (hg : s'.control.config = s.control.config) (hl : s'.journal.moves = s.journal.moves) :
    s.Shows m s' := by
  refine ⟨hn ▸ .rests hp hw hc, hg, ?_⟩
  rw [hn, hl]
  exact (List.append_nil _).symm

lemma shows_call (t : Thread)
    (h : s.control.Acts t s.journal s'.control s'.journal) : s.Shows (.call t) s' := by
  cases h with
  | rests hp hw hc hg hl =>
    refine .of_rest ?_ hp hw hc hg hl
    simp [note, hp, hw]
  | turns h hw hc hg hl =>
    have hn : s.note (.call t) s' = some (.turned t s.control.phase s'.control.phase) := by
      simp [note, h.ne]
    exact ⟨hn ▸ .turns h hw hc, hg, hn ▸ hl⟩
  | creates hs hp hv hd hw hc hg hl =>
    have hn : s.note (.call t) s' = some (.created t s.control.workers.length) := by
      simp [note, hd, hw]
    refine ⟨hn ▸ .creates hs hp hv hd hw hc, hg, ?_⟩
    rw [hn, hl]
    exact (List.append_nil _).symm

lemma note_work {n : Nat} {ev : Option Event}
    (h : s'.control.phase ≠ s.control.phase ∧
        ev = some (.reached n s.control.phase s'.control.phase) ∨
      s'.control.phase = s.control.phase ∧
        (ev = none ∧ (∀ last, s'.control.worker? n ≠ some (.cycling last)) ∨
          ∃ last wait, ev = some (.entered n last wait) ∧
            s'.control.worker? n = some (.cycling last) ∧
              s'.control.cycles = (n, wait) :: s.control.cycles)) :
    s.note (.work n) s' = ev := by
  rcases h with ⟨hp, rfl⟩ | ⟨hp, ⟨rfl, hw⟩ | ⟨last, wait, rfl, hw, hc⟩⟩
  · simp [note, hp]
  · simp only [note, hp, ne_eq, not_true_eq_false, if_false]
    split
    · rename_i hl _
      exact absurd hl (hw _)
    · rfl
  · simp [note, hp, hw, hc]

/-- **Every move**, by what it shows of the phase and the workers. -/
theorem shows_of_step (ho : s.control.Orderly) (h : s.step m = some s') : s.Shows m s' := by
  cases m with
  | start t spawns =>
    simp only [step, Option.ite_none_right_eq_some, Option.some.injEq] at h
    obtain ⟨-, rfl⟩ := h
    exact .of_rest rfl rfl rfl rfl rfl rfl
  | stop t =>
    simp only [step, Option.ite_none_right_eq_some, Option.some.injEq] at h
    obtain ⟨-, rfl⟩ := h
    exact .of_rest rfl rfl rfl rfl rfl rfl
  | destroy t =>
    simp only [step, Option.ite_none_right_eq_some, Option.some.injEq] at h
    obtain ⟨-, rfl⟩ := h
    exact .of_rest rfl rfl rfl rfl rfl rfl
  | call t =>
    refine shows_call t ?_
    obtain ⟨⟨closing, hs, hd, hj⟩ | ⟨a, ha, hturn⟩, -⟩ := step_call h
    · rw [hd, hj]
      exact .rests rfl rfl rfl rfl rfl
    · exact ho.acts ha hturn
  | acknowledge t =>
    simp only [step, Option.ite_none_right_eq_some, Option.some.injEq] at h
    obtain ⟨-, rfl⟩ := h
    exact .of_rest rfl rfl rfl rfl rfl rfl
  | work n =>
    obtain ⟨⟨w, hw, hturn⟩, -⟩ := step_work h
    obtain ⟨ev, hworks, hev⟩ := ho.works hw hturn
    have hn := note_work hev
    obtain ⟨v, v', hv, hs, hc, hgoes⟩ := hworks.goes
    exact ⟨hn ▸ .works hv hs hc hgoes, hworks.config, hn ▸ hworks.lines⟩
  | endCycle n e =>
    obtain ⟨last, hw, -, rfl⟩ := step_endCycle h
    obtain ⟨hp, hlast⟩ :=
      WorkerStage.phase_of_cycle (.inr rfl) (ho.staffed.fits_of_present hw rfl)
    exact ⟨.works hw rfl rfl (.exits e hp hlast), rfl, (List.append_nil _).symm⟩
  | stir t =>
    simp only [step] at h
    split at h
    · cases h
      exact .of_rest rfl rfl rfl rfl rfl rfl
    · cases h
  | arm needle =>
    cases h
    exact .of_rest rfl rfl rfl rfl rfl rfl
  | pass d =>
    cases h
    exact .of_rest rfl rfl rfl rfl rfl rfl

lemma Reachable.config_eq {config : Config} (h : Reachable config s) :
    s.control.config = config := by
  induction h with
  | init => rfl
  | step m h hs ih => exact (shows_of_step h.orderly hs).config.trans ih

end ControlScene

end SerialWriter
