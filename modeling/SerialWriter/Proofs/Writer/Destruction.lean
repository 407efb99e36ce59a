import SerialWriter.Proofs.Writer.Resolved
import SerialWriter.Proofs.Writer.Walk
import SerialWriter.Proofs.Writer.Stops

/-!
The destruction of a writer that nobody calls meanwhile. In whatever state the writer is, the queue
is empty afterwards and nobody is left waiting: every ticket that was ever accepted is resolved or
interrupted, but for the one that the worker has in hand if the destruction has given up on it.
-/

namespace SerialWriter

variable {σ V : Type}

/-! ### The stop of a destruction -/

/-- The result of a stop that has given up on the worker. -/
def Expires (r : Except Failure Unit) : Prop :=
  ∃ name limit, r = .error (.refused (.stopExpired name limit))

namespace Control

variable {c d : Control} {t : Thread} {now : Time} {j j' : Journal}

/-- **What a stop has come to**: it is on its way; or the fault of a line has broken it off; or it
has succeeded or been refused, and then the writer has come to an end, unless the stop has given up
on the worker. -/
def StopLeaves (c : Control) : CallStage → Prop
  | .stop closing _ => closing = false
  | .ended r => r = .error Journal.fault ∨
      (∀ e, r = .error e → ∃ f, e = .refused f) ∧ (c.phase.active = false ∨ Expires r)
  | _ => False

/-- The call of `t` is such a stop. -/
def InStop (c : Control) (t : Thread) : Prop := ∃ s, c.calls.get? t = some s ∧ c.StopLeaves s

/-- **Without a start, nobody takes up the work again.** -/
lemma Step.inactive (h : c.Step now j d j') (hs : c.Startless) (hp : c.phase.active = false) :
    d.phase.active = false := by
  -- the turns that need an active phase are out of reach
  have hnot : ∀ {p : Phase}, p.active = true → c.phase ≠ p := fun hp' he => by
    rw [he, hp'] at hp
    cases hp
  cases h with
  | begins _ _ _ => exact hp
  | @calls t s d j' hc ht =>
    cases ht with
    | start _ => exact absurd hc (hs t _ _)
    | @stop closing s _ _ ht =>
      cases ht with
      | retired _ _ he _ =>
        rw [finishStop_eq]
        exact (congrArg Phase.active (enter_frame he).1).trans rfl
      | already _ _ | expired _ _ _ =>
        rw [finishStop_eq]
        exact hp
      | halted _ hphase _ | haltFault _ hphase _ =>
        rcases hphase with hphase | hphase <;> exact (hnot rfl hphase).elim
      | buried hd =>
        rw [finishStop_eq]
        exact (congrArg Phase.active (join_frame hd).1).trans hp
      | @collected e hd =>
        obtain ⟨r, hr⟩ := concludeStop_eq e t closing j
        rw [hr]
        exact (congrArg Phase.active (join_frame hd).1).trans hp
      | buries _ _ | halts _ _ | collects _ _ _ | waits _ _ _ => exact hp
    | destroy ht =>
      cases ht with
      | joined hd => exact (congrArg Phase.active (join_frame hd).1).trans hp
      | stops _ | skips _ | reported _ | locks _ => exact hp
  | wakes _ => exact hp
  | acknowledges _ => exact hp
  | works _ hw =>
    cases hw with
    | opens _ hphase _ => exact (hnot rfl hphase).elim
    | retires _ he => exact (congrArg Phase.active (enter_frame he).1).trans rfl
    | fails _ he => exact (congrArg Phase.active (enter_frame he).1).trans rfl
    | hurries _ _ | looks | enters | reports _ | leaves => exact hp
  | endsCycle _ _ _ => exact hp
  | stirs _ => exact hp

/-- A stop comes to its result when the writer has come to an end, or it gives up, or a line
fails. -/
lemma Orderly.stopLeaves_of_turn (h : c.Orderly) {s : StopStage}
    (hs : c.calls.get? t = some (.stop false s)) (ht : StopTurn c t now j false s d j') :
    d.InStop t := by
  have hended : ∀ {e : Control} {r : Except Failure Unit}, e.StopLeaves (.ended r) →
      (e.finishStop t false r).InStop t := by
    intro e r hr
    rw [finishStop_eq]
    exact ⟨_, Roster.get?_put_self .., hr⟩
  have hgoes : ∀ {e : Control} {x : StopStage}, (e.setCall t (.stop false x)).InStop t :=
    ⟨_, Roster.get?_put_self .., rfl⟩
  have hrefused : ∀ {r : Refusal} (e : Failure), (.error (.refused r) : Except Failure Unit) =
      .error e → ∃ f, e = .refused f := fun e he => ⟨_, (Except.error.inj he).symm⟩
  have hsuits := h.guarded.suited t _ hs
  cases ht with
  | @retired e _ f r _ _ he hr =>
    cases f with
    | none =>
      rw [hr]
      exact hended (.inr ⟨nofun, .inl ((congrArg Phase.active (enter_frame he).1).trans rfl)⟩)
    | some f =>
      obtain rfl := Journal.eq_fault (enter_cases he).1
      exact hended (.inl hr)
  | already _ hp => exact hended (.inr ⟨nofun, .inl ((congrArg Phase.active hp).trans rfl)⟩)
  | haltFault _ _ he =>
    obtain rfl := Journal.eq_fault (enter_cases he).1
    exact hended (.inl rfl)
  | buried hd =>
    refine hended (.inr ⟨hrefused, .inl ?_⟩)
    rw [(join_frame hd).1, show c.phase = .failed from hsuits]
    rfl
  | expired _ _ _ => exact hended (.inr ⟨hrefused, .inr ⟨_, _, rfl⟩⟩)
  | @collected e hd =>
    have hphase : e.phase.active = false := by
      rw [(join_frame hd).1]
      rcases hsuits with hp | hp <;> rw [hp] <;> rfl
    unfold concludeStop
    split
    · exact hended (.inr ⟨hrefused, .inl hphase⟩)
    · split
      · exact hended (.inr ⟨nofun, .inl hphase⟩)
      · rename_i hl
        obtain rfl := Journal.eq_fault hl
        exact hended (.inl rfl)
  | buries _ _ | halted _ _ _ | halts _ _ | collects _ _ _ | waits _ _ _ => exact hgoes

theorem InStop.step (h : c.InStop t) (ho : c.Orderly) (hs : c.Startless)
    (hstep : c.Step now j d j') (hk : (d.calls.get? t).isSome = true) : d.InStop t := by
  obtain ⟨a, ha, hleaves⟩ := h
  rcases hstep.call ha with hturn | ⟨closing, deadline, rfl, hd⟩ | hkept | hnone
  · cases hturn with
    | start _ => cases hleaves
    | stop ht =>
      obtain rfl := hleaves
      exact ho.stopLeaves_of_turn ha ht
    | destroy _ => cases hleaves
  · exact ⟨_, hd, hleaves⟩
  · -- the stage is the same, and the writer stays at its end
    have hsame : d.StopLeaves a ∧ d.StopLeaves a.roused := by
      cases a with
      | stop closing s => cases s <;> exact ⟨hleaves, hleaves⟩
      | ended r =>
        have hended : d.StopLeaves (.ended r) :=
          hleaves.imp id (And.imp id (Or.imp (hstep.inactive hs) id))
        exact ⟨hended, hended⟩
      | start _ _ | destroy _ => cases hleaves
    rcases hkept with hd | hd
    · exact ⟨a, hd, hsame.1⟩
    · exact ⟨a.roused, hd, hsame.2⟩
  · rw [hnone] at hk
    cases hk

end Control

/-! ### The stages of a destruction -/

def AfterWalk.departs : AfterWalk → Bool
  | .close closing | .refuse closing _ => closing
  | .discard => true

/-- Without a write on its way, nothing is accepted, and who has been released stays so. -/
lemma Course.Step.keepsPending {c d : Course σ V} (hs : c.Step d)
    (hw : ∀ t s stage, c.calls.get? t ≠ some (.writing s stage)) :
    ∀ k ∈ d.pending, k ∈ c.pending ∧
      ((cellAt c.envelopes k).interrupted = true → (cellAt d.envelopes k).interrupted = true) := by
  cases hs with
  | clears _ => exact nofun
  | makes ha _ => exact absurd ha (hw _ _ _)
  | offers ha => exact absurd ha (hw _ _ _)
  | collects ha => exact absurd ha (hw _ _ _)
  | takes _ _ hp => exact fun k hk => ⟨hp ▸ List.mem_cons_of_mem _ hk, id⟩
  | walks _ _ =>
    refine fun k hk => ⟨hk, fun hi => ?_⟩
    rw [cellAt_interruptAt]
    split
    · rfl
    · exact hi
  | body _ _ hf =>
    refine fun k hk => ⟨hk, fun hi => ?_⟩
    rw [cellAt_changeCellAt]
    split
    · exact (hf _).interrupted hi
    · exact hi
  | _ => exact fun k hk => ⟨hk, id⟩

namespace Writer

variable {w₀ w v : Writer σ V} {t : Thread} {a : CallOfWriter σ V} {m : Move σ V}
  {given given' : Prop}

/-- The writer has come to an end, or its destruction has given up on the worker, and whoever waits
for a pending ticket has been released. -/
structure Settled (given : Prop) (w : Writer σ V) : Prop where
  ended : w.phase.active = false ∨ given
  released : ∀ k ∈ w.queue.items, (w.cell k).interrupted = true

lemma eq_fault {n : Notice} {fault : Failure} (h : w.log t n = (v, some fault)) :
    fault = Journal.fault := by
  have hline : w.journal.log t n = (some fault, (w.journal.log t n).2) :=
    Prod.ext (Prod.mk.inj h).2 rfl
  exact Journal.eq_fault hline

/-- **How far the destruction of `t` has come**, by whether it has `given` up on the worker. It ends
before its time when a line fails. -/
def DestructionSoFar (t : Thread) (given : Prop) (w : Writer σ V) : CallOfWriter σ V → Prop
  | .destroying => True
  | .stopping closing => closing = true ∧ w.control.InStop t
  | .walking after => after.departs = true ∧ (w.phase.active = false ∨ given)
  | .reporting _ after => after.departs = true ∧ w.Settled given
  | .closing closing => closing = true ∧ w.Settled given
  | .complaining _ | .clearing => w.Settled given
  | .ended r => r = .error Journal.fault
  | _ => False

/-- `t` is in its call, no other call is under way, and the pending tickets have not been
dropped. -/
structure Alone (t : Thread) (w : Writer σ V) : Prop where
  calling : (w.calls.get? t).isSome = true
  others : ∀ u a, u ≠ t → w.calls.get? u = some a → ∃ r, a = .ended r
  intact : w.Intact

namespace DestructionSoFar

lemma afterStop (h : w.Settled given) {r : Except Failure Unit}
    (hr : ∀ e, r = .error e → (∃ f, e = .refused f) ∨ e = Journal.fault) :
    DestructionSoFar t given w (CallOfWriter.afterStop true r : CallOfWriter σ V) := by
  cases r with
  | ok _ => exact h
  | error e =>
    rcases hr e rfl with ⟨f, rfl⟩ | rfl
    · exact h
    · rfl

lemma afterWalk (h : w.Settled given) {after : AfterWalk} (ha : after.departs = true) :
    DestructionSoFar t given w (CallOfWriter.afterWalk after : CallOfWriter σ V) := by
  cases after with
  | close closing => exact ⟨ha, h⟩
  | refuse closing r =>
    obtain rfl : closing = true := ha
    exact afterStop h fun e he => .inl ⟨r, (Except.error.inj he).symm⟩
  | discard => exact h

lemma faultOfWalk (h : w.Settled given) {after : AfterWalk} (ha : after.departs = true) :
    DestructionSoFar t given w
      (CallOfWriter.faultOfWalk Journal.fault after : CallOfWriter σ V) := by
  cases after with
  | close closing | refuse closing r =>
    obtain rfl : closing = true := ha
    exact afterStop h fun e he => .inr (Except.error.inj he).symm
  | discard => rfl

lemma walked (h : w.Settled given) {after : AfterWalk} (ha : after.departs = true)
    (pending : Nat) :
    DestructionSoFar t given w (CallOfWriter.walked pending after : CallOfWriter σ V) := by
  unfold CallOfWriter.walked
  split
  · exact ⟨ha, h⟩
  · exact afterWalk h ha

lemma logged {x : Notice} {b : Option Failure → CallOfWriter σ V} {f : Option Failure}
    (h : DestructionSoFar t given w a) (hx : w.Logs a u x b)
    (hs : w.Settled given → v.Settled given') (hf : ∀ e, f = some e → e = Journal.fault) :
    DestructionSoFar t given' v (b f) := by
  cases hx with
  | reports =>
    cases f with
    | none => exact afterWalk (hs h.2) h.1
    | some e =>
      obtain rfl := hf e rfl
      exact faultOfWalk (hs h.2) h.1
  | closes =>
    obtain ⟨rfl, hsettled⟩ := h
    refine afterStop (hs hsettled) fun e he => .inr ?_
    cases f with
    | none => cases he
    | some e' => exact Except.error.inj he ▸ hf e' rfl
  | complains =>
    cases f with
    | none => exact hs h
    | some e => exact congrArg Except.error (hf e rfl)
  | _ => cases h

lemma afterControl {r : Except Failure Unit} (h : w.control.StopLeaves (.ended r))
    (hp : w.phase.active = false → v.phase.active = false) (hg : Expires r → given) :
    DestructionSoFar t given v
      ((CallOfWriter.stopping true).afterControl r : CallOfWriter σ V) := by
  rcases h with rfl | ⟨hr, hover⟩
  · rfl
  · cases r with
    | ok _ => exact ⟨rfl, hover.imp hp hg⟩
    | error e =>
      obtain ⟨f, rfl⟩ := hr e rfl
      exact ⟨rfl, hover.imp hp hg⟩

lemma not_writing (h : DestructionSoFar t given w a) (ha : w.calls.get? t = some a)
    (hw : w.Alone t) : ∀ u s stage, w.calls.get? u ≠ some (.writing s stage) := by
  intro u s stage hu
  by_cases hut : u = t
  · subst hut
    obtain rfl := Option.some.inj (ha.symm.trans hu)
    exact h
  · obtain ⟨r, hr⟩ := hw.others u _ hut hu
    cases hr

lemma startless (h : DestructionSoFar t given w a) (hl : w.course.Linked)
    (ha : w.calls.get? t = some a) (hw : w.Alone t) : w.control.Startless := by
  intro u b s hs
  obtain ⟨x, hx, hin⟩ := (hl.fits u).call (Option.isSome_iff_exists.mpr ⟨_, hs⟩)
  by_cases hut : u = t
  · subst hut
    obtain rfl := Option.some.inj (ha.symm.trans hx)
    cases a with
    | stopping closing =>
      obtain ⟨-, y, hy, hleaves⟩ := h
      obtain rfl := Option.some.inj (hy.symm.trans hs)
      exact hleaves
    | starting => exact h
    | releasing => exact h
    | _ => cases hin
  · obtain ⟨r, rfl⟩ := hw.others u _ hut hx
    cases hin

end DestructionSoFar

/-- What a step beside the destruction leaves as it is. -/
structure Lasts (w v : Writer σ V) : Prop where
  ended : w.phase.active = false → v.phase.active = false
  pending : ∀ k ∈ v.queue.items, k ∈ w.queue.items ∧
    ((w.cell k).interrupted = true → (v.cell k).interrupted = true)

namespace Lasts

lemma settled (h : Lasts w v) (hw : w.Settled given) (hg : given → given') : v.Settled given' where
  ended := hw.ended.imp h.ended hg
  released k hk := (h.pending k hk).2 (hw.released k (h.pending k hk).1)

lemma of_step (h : DestructionSoFar t given w a) (hl : w.course.Linked)
    (ha : w.calls.get? t = some a) (hw : w.Alone t) (hs : w.step m = some v) : Lasts w v := by
  have hcourse := step_course hs
  refine ⟨fun hp => ?_, hcourse.keepsPending (h.not_writing ha hw)⟩
  rcases hl.control_step hcourse with hc | ⟨now, j, j', hc⟩
  · exact (congrArg (·.phase.active) hc).trans hp
  · exact hc.inactive (h.startless hl ha hw) hp

end Lasts

namespace DestructionSoFar

lemma stopping (h : w.control.InStop t) (hl : w.course.Linked) (hn : w.control.Startless)
    (ha : w.calls.get? t = some (.stopping true)) (hs : w.step m = some v)
    (hv : (v.calls.get? t).isSome = true) (hlast : Lasts w v)
    (hexp : ∀ r, w.control.calls.get? t = some (.ended r) → Expires r → given) :
    ∃ b, v.calls.get? t = some b ∧ DestructionSoFar t given v b := by
  have hcourse := step_course hs
  cases hl.callStep hcourse ha with
  | stays hsame hk =>
    refine ⟨_, hsame, rfl, ?_⟩
    rcases hl.control_step hcourse with hc | ⟨now, j, j', hc⟩
    · rw [show v.control = w.control from hc]
      exact h
    · have hin : (w.control.calls.get? t).isSome = true :=
        h.elim fun s hs => Option.isSome_iff_exists.mpr ⟨s, hs.1⟩
      exact h.step hl.orderly hn hc (hk.trans hin)
  | ends hnone =>
    rw [show v.calls.get? t = none from hnone] at hv
    cases hv
  | leaves _ hr _ hd =>
    obtain ⟨s, hs, hleaves⟩ := h
    obtain rfl := Option.some.inj (hs.symm.trans hr)
    exact ⟨_, hd, afterControl hleaves hlast.ended (hexp _ hr)⟩
  | walks hx _ _ => cases hx
  | goes hx _ _ _ => cases hx
  | destroys hx => rcases hx with hx | hx <;> cases hx

/-- **A destruction goes on by its own step.** -/
lemma own (h : DestructionSoFar t given w a) (hl : w.course.Linked) (ho : w.course.Ordered)
    (hn : w.control.Startless) (ha : w.calls.get? t = some a) (hs : w.step (.run t) = some v)
    (hv : v.Alone t) (hlast : Lasts w v) (hg : given → given')
    (hexp : ∀ r, w.control.calls.get? t = some (.ended r) → Expires r → given') :
    ∃ b, v.calls.get? t = some b ∧ DestructionSoFar t given' v b := by
  have hput : ∀ {u : Writer σ V} {b : CallOfWriter σ V}, (u.setCall t b).calls.get? t = some b :=
    Roster.get?_put_self ..
  cases moves_of_run hs with
  | works hr _ =>
    obtain ⟨r, rfl⟩ := hr a ha
    cases hl.callStep (step_course hs) ha with
    | stays hsame _ => exact ⟨_, hsame, h⟩
    | ends hnone => exact absurd (hv.calling.symm.trans (congrArg Option.isSome hnone)) nofun
    | leaves hi _ _ _ | goes hi _ _ _ => cases hi
    | walks hx _ _ => cases hx
    | destroys hx => rcases hx with hx | hx <;> cases hx
  | calls hc hmove =>
    obtain rfl := Option.some.inj (ha.symm.trans hc)
    cases hmove with
    | inside hi _ | leaves hi _ =>
      cases a with
      | stopping closing =>
        obtain ⟨rfl, hin⟩ := h
        exact stopping hin hl hn ha hs hv.calling hlast hexp
      | starting | releasing => cases h
      | _ => cases hi
    | walks =>
      obtain ⟨hafter, hended⟩ := h
      exact ⟨_, hput, walked ⟨hended.imp hlast.ended hg, fun k hk =>
        interrupted_of_walk ho ha hs (hlast.pending k hk).1⟩ hafter _⟩
    | logs hx hline =>
      exact ⟨_, hput, logged h hx (hlast.settled · hg) fun e he => eq_fault (he ▸ hline)⟩
    | stops _ => exact ⟨_, hput, rfl, .stop false .entering, Roster.get?_put_self .., rfl⟩
    | discards hp => exact ⟨_, hput, rfl, .inl hp⟩
    | clears => exact absurd hput (hv.intact t)
    | _ => cases h

end DestructionSoFar

/-- The stop of the destruction of `t` has given up on the worker, on the way from `w₀` to `w`. -/
def Expired (t : Thread) (w₀ w : Writer σ V) : Prop :=
  ∃ x r, Along step (Alone t) w₀ x ∧ x.control.calls.get? t = some (.ended r) ∧ Expires r ∧
    Along step (Alone t) x w

variable {config : Config} {target : String} {factory : Option (Factory σ)} {resource : σ}
  {now : Time} {u : Thread} {j j' : Journal} {w' : Writer σ V}

/-- **What a destruction has done so far**, while nobody else calls the writer. -/
theorem destructionSoFar_of_run (hc : create config target factory resource now u j = (.ok v, j'))
    (hv : Along step Intact v w₀) (ht : w₀.calls.get? t = some .destroying)
    (h : Along step (Alone t) w₀ w) :
    ∃ a, w.calls.get? t = some a ∧ DestructionSoFar t (Expired t w₀ w) w a := by
  induction h with
  | refl _ => exact ⟨_, ht, trivial⟩
  | @step x y m h hs hy ih =>
    obtain ⟨a, ha, hsofar⟩ := ih
    obtain ⟨hl, ho⟩ := ordered_of_run hc (hv.trans (h.mono fun _ hx => hx.intact))
    have hlast := Lasts.of_step hsofar hl ha h.holds hs
    have hn := hsofar.startless hl ha h.holds
    have hg : Expired t w₀ x → Expired t w₀ y := by
      rintro ⟨z, r, hz, hr, he, hx⟩
      exact ⟨z, r, hz, hr, he, .step m hx hs hy⟩
    have hexp : ∀ r, x.control.calls.get? t = some (.ended r) → Expires r → Expired t w₀ y :=
      fun r hr he => ⟨x, r, h, hr, he, .step m (.refl h.holds) hs hy⟩
    by_cases hm : m = .run t
    · subst hm
      exact hsofar.own hl ho hn ha hs hy hlast hg hexp
    · rcases (call_of_step hs hm ha).1 with hsame | hnone
      · cases a with
        | destroying => exact ⟨_, hsame, trivial⟩
        | stopping closing =>
          obtain ⟨rfl, hin⟩ := hsofar
          exact DestructionSoFar.stopping hin hl hn ha hs hy.calling hlast hexp
        | walking after => exact ⟨_, hsame, hsofar.imp id (Or.imp hlast.ended hg)⟩
        | reporting _ _ | closing _ =>
          exact ⟨_, hsame, hsofar.imp id fun hsettled => hlast.settled hsettled hg⟩
        | complaining _ | clearing => exact ⟨_, hsame, hlast.settled hsofar hg⟩
        | ended _ => exact ⟨_, hsame, hsofar⟩
        | _ => cases hsofar
      · have hin := hy.calling
        rw [hnone] at hin
        cases hin

/-- **What is left of a writer** when the body of the destruction of `t` has ended, in the step from
`w` to `w'`. -/
structure Departed (t : Thread) (w₀ w w' : Writer σ V) : Prop where
  empty : w'.queue.items = []
  /-- Every ticket ever accepted is resolved or interrupted, or is the one in hand. -/
  settled : ∀ k ∈ w'.queue.accepted, (w'.cell k).ready = true ∨ (w'.cell k).interrupted = true ∨
    InHand w'.cycles k
  /-- Those left unresolved have never been run, but for the one in hand. -/
  unrun : ∀ k ∈ w'.queue.accepted, (w'.cell k).ready = false → k ∉ w'.begun ∨ InHand w'.cycles k
  single : ∀ k i, InHand w'.cycles k → InHand w'.cycles i → i = k
  /-- A ticket is only in hand if the destruction has given up on the worker. -/
  expired : ∀ k, InHand w'.cycles k → Expired t w₀ w

lemma active_of_inHand (hl : w.course.Linked) {k : Nat} (hk : InHand w.cycles k) :
    w.phase.active = true := by
  obtain ⟨n, y, hy, -⟩ := hk
  obtain ⟨last, hw⟩ := hl.cycling (c := w.course) hy
  have hfits := hl.orderly.staffed.fits_of_present hw rfl
  change w.course.control.phase.active = true
  rcases (WorkerStage.phase_of_cycle (.inr rfl) hfits).1 with hp | hp
  · rw [hp]
    rfl
  · rw [hp]
    rfl

/-- **How a destruction comes to its end**, in the state `w` that it has got to from `w₀`. -/
structure EndOfDestruction (t : Thread) (w₀ w : Writer σ V) : Prop where
  /-- Nothing but the fault of a line breaks it off. -/
  broken : ∀ r, w.result? t = some r → r = .error Journal.fault
  /-- It ends in any other case with the step that drops the pending tickets. -/
  departed : w.calls.get? t = some .clearing → ∀ w', w.step (.run t) = some w' →
    Departed t w₀ w w'

/-- What a destruction leaves behind when it drops the pending tickets. -/
lemma departed_of_settled (hl : w.course.Linked) (ho : w.course.Ordered)
    (hdecided : w.affairs.Decided) (hw : w.calls.get? t = some .clearing)
    (h : w.Settled (Expired t w₀ w)) (hs : w.step (.run t) = some w') : Departed t w₀ w w' := by
  -- a ticket that was accepted is pending or has been dequeued
  have hsplit : ∀ k ∈ w.queue.accepted, k ∈ w.queue.items ∨ k ∈ w.queue.removed := by
    intro k hk
    rw [show w.queue.accepted = w.queue.items.reverse ++ w.queue.removed from ho.split] at hk
    exact (List.mem_append.mp hk).imp List.mem_reverse.mp id
  cases callMoves_of_run hw nofun hs with
  | inside hi _ | leaves hi _ => cases hi
  | logs hx _ => cases hx
  | clears =>
    refine ⟨rfl, fun k hk => ?_, fun k hk hr => ?_, fun k i hk hi => ?_, fun k hk => ?_⟩
    · rcases hsplit k hk with hpending | hremoved
      · exact .inr (.inl (h.released k hpending))
      · exact (hdecided.ended k hremoved).elim (fun hin => .inr (.inr hin)) .inl
    · rcases hsplit k hk with hpending | hremoved
      · exact .inl fun hb => ho.pending_not_removed hpending (ho.begun_suffix.1.subset hb)
      · rcases hdecided.ended k hremoved with hin | hready
        · exact .inr hin
        · exact absurd (hr.symm.trans hready) Bool.false_ne_true
    · obtain ⟨n, y, hy, hcarried⟩ := hk
      have hsame := (sane_of_ordered hl ho).carried hy hi
      exact Option.some.inj (hsame.symm.trans hcarried)
    · refine h.ended.resolve_left fun hp => ?_
      rw [active_of_inHand hl hk] at hp
      cases hp

/-- **Nobody is left waiting by a destruction**, in whatever state it finds the writer and whatever
becomes of the worker, while nobody else calls and no line of the destruction fails. -/
theorem departed_of_destruction (hc : create config target factory resource now u j = (.ok v, j'))
    (hv : Along step Intact v w₀) (ht : w₀.calls.get? t = some .destroying)
    (h : Along step (Alone t) w₀ w) : EndOfDestruction t w₀ w := by
  have hrun : Along step Intact v w := hv.trans (h.mono fun _ hx => hx.intact)
  obtain ⟨hl, ho⟩ := ordered_of_run hc hrun
  obtain ⟨a, ha, hsofar⟩ := destructionSoFar_of_run hc hv ht h
  refine ⟨fun r hr => ?_, fun hw w' hs => ?_⟩
  · obtain rfl : a = .ended r := Option.some.inj (ha.symm.trans (result?_eq_some_iff.mp hr))
    exact hsofar
  · obtain rfl : a = .clearing := Option.some.inj (ha.symm.trans hw)
    exact departed_of_settled hl ho (decided_of_run hc hrun) hw hsofar hs

/-! ### A destruction that gives up on the worker -/

def apart (t u : Thread) : CallOfWriter σ V → Bool
  | .ended _ => true
  | .releasing => false
  | _ => u == t

def testAlone (t : Thread) (x : Writer σ V) : Bool :=
  (x.calls.get? t).isSome && x.calls.entries.all fun e => apart t e.1 e.2

lemma alone_of_test {x : Writer σ V} (h : testAlone t x = true) : x.Alone t := by
  rw [testAlone, Bool.and_eq_true] at h
  obtain ⟨hcalling, hall⟩ := h
  have htest : ∀ {u a}, x.calls.get? u = some a → apart t u a = true :=
    Roster.of_all (p := fun u a => apart t u a) hall
  refine ⟨hcalling, fun u a hu ha => ?_, fun u hu => nomatch htest hu⟩
  cases a with
  | ended r => exact ⟨r, rfl⟩
  | releasing => exact nomatch htest ha
  | _ => exact absurd (eq_of_beq (htest ha)) hu

/-- A start and three writes, and the beginning of the destruction: the first task is done, the
second is held up at a gate, and the third is pending. -/
def untilDestruction : List (Move Nat Unit) :=
  startUp ++ submit 1 (.ret ()) ++ submit 2 (.pass "gate" (.ret ())) ++ submit 3 (.ret ()) ++
    goOn (.worker 0) 16 ++ [.request 0 .destroy]

/-- The destruction waits in vain for the worker, and drops the third task; the second one is in
hand. -/
theorem departed_of_heldUp : ∃ (v w₀ w w' : Writer Nat Unit) (j : Journal),
    create {} "target" none 0 0 (.client 0) {} = (.ok v, j) ∧ Along step Intact v w₀ ∧
      w₀.calls.get? (.client 0) = some .destroying ∧ Along step (Alone (.client 0)) w₀ w ∧
      w.calls.get? (.client 0) = some .clearing ∧ w.step (.run (.client 0)) = some w' ∧
      (w.queue.items = [2] ∧ w'.queue.accepted = [2, 1, 0] ∧ w'.begun = [1, 0] ∧
        w'.done = [0]) ∧
      Departed (.client 0) w₀ w w' := by
  obtain ⟨v, j, hc⟩ : ∃ (v : Writer Nat Unit) (j : Journal),
      create {} "target" none 0 0 (.client 0) {} = (.ok v, j) := ⟨_, _, rfl⟩
  obtain ⟨w₀, hv, hs⟩ : ∃ w₀, Along step
      (fun x => (x.calls.entries.all fun e => untouching e.1 e.2) = true) v w₀ ∧
      (w₀.calls.get? (.client 0),
        (follow step (testAlone (.client 0)) w₀
          (goOn (.client 0) 4 ++ [.pass 30000000000] ++ goOn (.client 0) 5)).map fun w =>
            (w.calls.get? (.client 0), w.queue.items,
              (w.step (.run (.client 0))).map fun w' =>
                (w'.queue.accepted, w'.begun, w'.done))) =
      (some .destroying, some (some .clearing, [2], some ([2, 1, 0], [1, 0], [0]))) := by
    cases hc
    exact exists_along untilDestruction rfl
  have hv : Along step Intact v w₀ := hv.mono fun x hx t ht => nomatch Roster.of_all hx ht
  obtain ⟨ht, hmore⟩ := Prod.mk.inj hs
  obtain ⟨w, hw, hseen⟩ := Option.map_eq_some_iff.mp hmore
  simp only [Prod.mk.injEq] at hseen
  obtain ⟨hclearing, hitems, hmore⟩ := hseen
  obtain ⟨w', hw', hseen⟩ := Option.map_eq_some_iff.mp hmore
  simp only [Prod.mk.injEq] at hseen
  have hw : Along step (Alone (.client 0)) w₀ w :=
    (along_of_follow hw).mono fun x hx => alone_of_test hx
  exact ⟨v, w₀, w, w', j, hc, hv, ht, hw, hclearing, hw', ⟨hitems, hseen⟩,
    (departed_of_destruction hc hv ht hw).departed hclearing w' hw'⟩

end Writer

end SerialWriter
