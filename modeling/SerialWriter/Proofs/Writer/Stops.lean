import SerialWriter.Proofs.Writer.Calls
import SerialWriter.Proofs.Writer.Walk

/-!
A stop from its beginning to its result: it walks over the pending tickets once on its way, unless
the fault of one of the lines that the control logs breaks it off.
-/

namespace SerialWriter

variable {σ V : Type}

/-! ### The stop of the control -/

/-- **The lines that a stop logs in the control.** -/
inductive StopLine (name : String) : Notice → Prop
  | retires : StopLine name (.moved name .new .terminated)
  | halts {p : Phase} (hp : p = .starting ∨ p = .running) : StopLine name (.moved name p .stopping)
  | reports : StopLine name (.stopped name)

/-- Where a stop stands in the control: on its way, or at its result, which is a success, a refusal
or a failure that has `broken` it off. -/
def AtControl (broken : Failure → Prop) : Option CallStage → Prop
  | some (.stop closing _) => closing = false
  | some (.ended r) => ∀ e, r = .error e → (∃ f, e = .refused f) ∨ broken e
  | _ => False

namespace AtControl

variable {broken broken' : Failure → Prop} {s? : Option CallStage}

lemma mono (h : AtControl broken s?) (hb : ∀ e, broken e → broken' e) : AtControl broken' s? := by
  cases s? with
  | none => exact h
  | some s =>
    cases s with
    | ended r => exact fun e he => (h e he).imp id (hb e)
    | _ => exact h

lemma roused (h : AtControl broken s?) : AtControl broken (s?.map CallStage.roused) := by
  cases s? with
  | none => exact h
  | some s =>
    cases s with
    | stop closing s => cases s <;> exact h
    | ended r => exact h
    | _ => cases h

end AtControl

/-- **A stop in the control** is refused or broken off by one of its lines, if it does not
succeed. -/
lemma Control.atControl_of_turn {c d : Control} {t : Thread} {now : Time} {j j' : Journal}
    {s : StopStage} (h : StopTurn c t now j false s d j') :
    AtControl (fun e => ∃ n, StopLine c.config.name n ∧ j.log t n = (some e, j'))
      (d.calls.get? t) := by
  -- the result of a stop, and its next stage
  have hended : ∀ {e : Control} {r : Except Failure Unit} {j₁ : Journal},
      (∀ f, r = .error f → (∃ x, f = .refused x) ∨
        ∃ n, StopLine c.config.name n ∧ j.log t n = (some f, j₁)) →
      AtControl (fun e => ∃ n, StopLine c.config.name n ∧ j.log t n = (some e, j₁))
        ((e.finishStop t false r).calls.get? t) := by
    intro e r j₁ hr
    rw [finishStop_eq, setCall, Roster.get?_put_self]
    exact hr
  have hgoes : ∀ {e : Control} {x : StopStage},
      AtControl (fun e => ∃ n, StopLine c.config.name n ∧ j.log t n = (some e, j'))
        ((e.setCall t (.stop false x)).calls.get? t) := by
    intro e x
    rw [setCall, Roster.get?_put_self]
    rfl
  cases h with
  | @retired d _ f r hf hp he hr =>
    refine hended fun e hre => .inr ⟨_, .retires, ?_⟩
    rw [hr] at hre
    cases f with
    | none => cases hre
    | some e' =>
      cases hre
      exact hp ▸ (enter_cases he).1
  | already _ _ => exact hended (by rintro _ ⟨⟩)
  | @haltFault d _ e hf hp he =>
    refine hended fun e' hre => .inr ⟨_, .halts hp, ?_⟩
    cases hre
    exact (enter_cases he).1
  | buried _ | expired _ _ _ =>
    refine hended fun e hre => .inl ?_
    cases hre
    exact ⟨_, rfl⟩
  | @collected e hd =>
    unfold concludeStop
    split
    · refine hended fun f hre => .inl ?_
      cases hre
      exact ⟨_, rfl⟩
    · split
      · exact hended (by rintro _ ⟨⟩)
      · rename_i fault j₁ hl
        rw [(join_frame hd).2.2.2.2.1] at hl
        refine hended fun f hre => .inr ⟨_, .reports, ?_⟩
        cases hre
        exact hl
  | _ => exact hgoes

namespace Writer

variable {w w₀ v : Writer σ V} {m : Move σ V} {es : List (Event σ V)} {t : Thread}
  {a : CallOfWriter σ V} {P : Writer σ V → Prop} {l : List Nat}

/-! ### Walks -/

/-- The tickets that the event walks over, if it is a walk of `t`. -/
def Event.walkOf? (t : Thread) : Event σ V → Option (List Nat)
  | .walked u l => if u = t then some l else none
  | _ => none

/-- The walks of `t` over the pending tickets. -/
def walksOf (t : Thread) (es : List (Event σ V)) : List (List Nat) :=
  es.filterMap (Event.walkOf? t)

lemma walksOf_append (t : Thread) (es : List (Event σ V)) (ev : Option (Event σ V)) :
    walksOf t (es ++ ev.toList) = walksOf t es ++ (ev.bind (Event.walkOf? t)).toList :=
  filterMap_append_toList ..

lemma Event.walkOf?_eq_some_iff {e : Event σ V} : e.walkOf? t = some l ↔ e = .walked t l := by
  constructor
  · intro h
    cases e with
    | walked u l' =>
      simp only [walkOf?, Option.ite_none_right_eq_some, Option.some.injEq] at h
      rw [h.1, h.2]
    | _ => cases h
  · rintro rfl
    exact if_pos rfl

lemma noteCycle_ne_walked (w v : Writer σ V) (n : Nat) : w.noteCycle v n ≠ some (.walked t l) := by
  intro h
  unfold noteCycle at h
  split at h
  all_goals first | cases h | (split at h <;> cases h)

lemma walking_of_note (h : w.note m v = some (.walked t l)) : m = .run t ∧
    (∃ after, w.calls.get? t = some (.walking after)) ∧ l = w.queue.items := by
  unfold note at h
  split at h
  · rename_i u
    split at h
    · split at h
      · cases h
      · exact absurd h (noteCycle_ne_walked _ _ _)
    · split at h
      · cases h
      · exact absurd h (noteCycle_ne_walked _ _ _)
    · rename_i a _ ha
      unfold noteCall at h
      split at h
      · rename_i after _
        cases h
        exact ⟨rfl, ⟨after, ha⟩, rfl⟩
      all_goals first | cases h | (split at h <;> cases h)
  · cases h

lemma walksOf_note (h : m ≠ .run t ∨ ∀ after, w.calls.get? t ≠ some (.walking after)) :
    walksOf t (es ++ (w.note m v).toList) = walksOf t es := by
  rw [walksOf_append]
  cases hl : (w.note m v).bind (Event.walkOf? t) with
  | none => exact List.append_nil _
  | some l =>
    obtain ⟨e, hn, he⟩ := Option.bind_eq_some_iff.mp hl
    obtain ⟨hm, ⟨after, ha⟩, -⟩ := walking_of_note (hn.trans (congrArg some
      (Event.walkOf?_eq_some_iff.mp he)))
    exact (h.elim (· hm) fun hw => hw after ha).elim

lemma note_of_walking {after : AfterWalk} (ha : w.calls.get? t = some (.walking after)) :
    w.note (.run t) v = some (.walked t w.queue.items) := by
  simp only [note, ha, noteCall]

/-- **The walk**: it interrupts the cells of all pending tickets, and their number is reported
unless there are none. -/
lemma step_walking {after : AfterWalk} (ha : w.calls.get? t = some (.walking after))
    (hs : w.step (.run t) = some v) :
    v = { w with envelopes := interruptAt w.envelopes w.queue.items }.setCall t
      (if w.queue.items = [] then .afterWalk after
        else .reporting w.queue.items.length after) := by
  cases callMoves_of_run ha nofun hs with
  | walks => rw [CallOfWriter.walked_length]
  | inside hi _ | leaves hi _ => cases hi
  | logs hx _ => cases hx

lemma interrupted_of_walk {after : AfterWalk} (ho : w.course.Ordered)
    (ha : w.calls.get? t = some (.walking after)) (hs : w.step (.run t) = some v) {k : Nat}
    (hk : k ∈ w.queue.items) : (v.cell k).interrupted = true := by
  rw [step_walking ha hs]
  change (cellAt (interruptAt w.envelopes w.queue.items) k).interrupted = true
  rw [cellAt_interruptAt, if_pos ⟨hk, ho.tickets.known k (ho.pending_accepted hk)⟩]
  rfl

/-! ### The stages of a stop -/

/-- **The line of which `e` is the fault has broken off the stop of `t`** in the step from `x` to
`y`. -/
structure Breaks (t : Thread) (e : Failure) (x y : Writer σ V) : Prop where
  stopping : ∃ closing, x.calls.get? t = some (.stopping closing)
  moved : x.step (.run t) = some y
  line : ∃ n, StopLine x.control.config.name n ∧ x.journal.log t n = (some e, y.journal)

/-- **The stop of `t` has been broken off** on the way from `w₀` to `w`, by the fault `e`. -/
def BrokenOff (P : Writer σ V → Prop) (t : Thread) (w₀ w : Writer σ V) (e : Failure) : Prop :=
  ∃ x y, Along step P w₀ x ∧ Breaks t e x y ∧ Along step P y w

/-- **How far a stop has come**, by the walks it has made and what it has come to in the control. -/
def StopSoFar (control : Prop) (broken : Failure → Prop) (walks : List (List Nat)) :
    CallOfWriter σ V → Prop
  | .stopping _ => walks = [] ∧ control
  | .walking _ => walks = []
  | .reporting _ _ | .closing _ | .complaining _ | .clearing => ∃ l, walks = [l]
  | .ended r => (∃ l, walks = [l]) ∨ walks = [] ∧ ∃ e, r = .error e ∧ broken e
  | _ => False

namespace StopSoFar

variable {control control' : Prop} {broken broken' : Failure → Prop} {walks : List (List Nat)}

lemma mono (h : StopSoFar control broken walks a) (hc : control → control')
    (hb : ∀ e, broken e → broken' e) : StopSoFar control' broken' walks a := by
  cases a with
  | stopping closing => exact h.imp id hc
  | ended r => exact h.imp id fun ⟨hw, e, hr, he⟩ => ⟨hw, e, hr, hb e he⟩
  | _ => exact h

lemma afterStop (hw : ∃ l, walks = [l]) (closing : Bool) (r : Except Failure Unit) :
    StopSoFar control broken walks (CallOfWriter.afterStop closing r : CallOfWriter σ V) := by
  cases closing with
  | false => exact .inl hw
  | true =>
    cases r with
    | ok _ => exact hw
    | error e =>
      cases e with
      | refused r => exact hw
      | _ => exact .inl hw

lemma afterWalk (hw : ∃ l, walks = [l]) (after : AfterWalk) :
    StopSoFar control broken walks (CallOfWriter.afterWalk after : CallOfWriter σ V) := by
  cases after with
  | close closing => exact hw
  | refuse closing r => exact afterStop hw ..
  | discard => exact hw

lemma faultOfWalk (hw : ∃ l, walks = [l]) (fault : Failure) (after : AfterWalk) :
    StopSoFar control broken walks
      (CallOfWriter.faultOfWalk fault after : CallOfWriter σ V) := by
  cases after with
  | close closing => exact afterStop hw ..
  | refuse closing r => exact afterStop hw ..
  | discard => exact .inl hw

lemma walked (hw : ∃ l, walks = [l]) (pending : Nat) (after : AfterWalk) :
    StopSoFar control broken walks
      (CallOfWriter.walked pending after : CallOfWriter σ V) := by
  unfold CallOfWriter.walked
  split
  · exact hw
  · exact afterWalk hw after

lemma logged {x : Notice} {b : Option Failure → CallOfWriter σ V}
    (h : StopSoFar control broken walks a) (hx : w.Logs a u x b) (f : Option Failure) :
    StopSoFar control' broken' walks (b f) := by
  cases hx with
  | reports =>
    cases f with
    | none => exact afterWalk h _
    | some f => exact faultOfWalk h f _
  | closes => exact afterStop h ..
  | complains =>
    cases f with
    | none => exact h
    | some f => exact .inl h
  | _ => cases h

lemma stopping (h : StopSoFar control broken walks a) (hi : a.inControl = true) :
    ∃ closing, a = .stopping closing := by
  cases a with
  | stopping closing => exact ⟨closing, rfl⟩
  | starting | releasing => cases h
  | _ => cases hi

lemma afterControl (hw : walks = []) {closing : Bool} {r : Except Failure Unit}
    (hb : ∀ e, r = .error e → (∃ f, e = .refused f) ∨ broken e) :
    StopSoFar control broken walks
      ((CallOfWriter.stopping closing).afterControl r : CallOfWriter σ V) := by
  cases r with
  | ok _ => exact hw
  | error e =>
    have hbreaks : (∀ f, e ≠ .refused f) →
        StopSoFar control broken walks (.ended (.error e) : CallOfWriter σ V) := fun he =>
      .inr ⟨hw, e, rfl, (hb e rfl).resolve_left fun ⟨f, hf⟩ => he f hf⟩
    cases e with
    | refused r => exact hw
    | _ => cases closing <;> exact hbreaks nofun

end StopSoFar

lemma AtControl.inside {broken broken' : Failure → Prop} {closing : Bool}
    (h : AtControl broken (w.control.calls.get? t)) (ha : w.calls.get? t = some (.stopping closing))
    (hs : w.step (.run t) = some v) (hi : w.InControl t v) (hmono : ∀ e, broken e → broken' e)
    (hb : ∀ e, Breaks t e w v → broken' e) : AtControl broken' (v.control.calls.get? t) := by
  cases hi with
  | rings _ _ => exact h.mono hmono
  | wakes hw _ =>
    obtain ⟨b, hc⟩ := Control.waking_iff.mp hw
    have hopen : b = false := by
      rw [hc] at h
      exact h
    change AtControl broken' ((w.control.woken t w.now).calls.get? t)
    rw [Control.woken_eq hc, Control.setCall, Roster.get?_put_self]
    exact hopen
  | turns _ hst hturn =>
    rw [hst] at h
    cases hturn with
    | stop hturn =>
      obtain rfl := h
      exact (Control.atControl_of_turn hturn).mono fun e he => hb e ⟨⟨_, ha⟩, hs, he⟩
    | _ => cases h

/-- **A stop goes on by its own step.** -/
lemma StopSoFar.own {broken broken' : Failure → Prop}
    (h : StopSoFar (AtControl broken (w.control.calls.get? t)) broken (walksOf t es) a)
    (hl : w.course.Linked) (ha : w.calls.get? t = some a) (hs : w.step (.run t) = some v)
    (hv : (v.calls.get? t).isSome = true ∧ v.calls.get? t ≠ some .releasing)
    (hmono : ∀ e, broken e → broken' e) (hb : ∀ e, Breaks t e w v → broken' e) :
    ∃ b, v.calls.get? t = some b ∧
      StopSoFar (AtControl broken' (v.control.calls.get? t)) broken'
        (walksOf t (es ++ (w.note (.run t) v).toList)) b := by
  -- a step that is no walk
  have hquiet : ∀ {b : CallOfWriter σ V}, (∀ after, a ≠ .walking after) →
      v.calls.get? t = some b →
      StopSoFar (AtControl broken' (v.control.calls.get? t)) broken' (walksOf t es) b →
        ∃ b, v.calls.get? t = some b ∧
          StopSoFar (AtControl broken' (v.control.calls.get? t)) broken'
            (walksOf t (es ++ (w.note (.run t) v).toList)) b := by
    intro b hnot hcall hsofar
    rw [walksOf_note (.inr fun after hw => ?_)]
    · exact ⟨b, hcall, hsofar⟩
    · rw [ha, Option.some.injEq] at hw
      exact hnot after hw
  have hput : ∀ {u : Writer σ V} {b : CallOfWriter σ V}, (u.setCall t b).calls.get? t = some b :=
    Roster.get?_put_self ..
  cases moves_of_run hs with
  | works hr _ =>
    obtain ⟨r, rfl⟩ := hr a ha
    cases hl.callStep (step_course hs) ha with
    | stays hsame _ =>
      refine hquiet nofun hsame ?_
      rcases h with hwalk | ⟨hwalk, e, hr, he⟩
      · exact .inl hwalk
      · exact .inr ⟨hwalk, e, hr, hmono e he⟩
    | ends hnone =>
      exact absurd (hv.1.symm.trans (congrArg Option.isSome hnone)) nofun
    | leaves hi _ _ _ | goes hi _ _ _ => cases hi
    | walks hw _ _ => cases hw
    | destroys hdes => rcases hdes with h | h <;> cases h
  | calls hc hmove =>
    obtain rfl := Option.some.inj (ha.symm.trans hc)
    cases hmove with
    | inside hi hmove =>
      obtain ⟨closing, rfl⟩ := h.stopping hi
      have hcall : v.calls.get? t = some (.stopping closing) := hmove.calls ▸ ha
      exact hquiet nofun hcall ⟨h.1, AtControl.inside h.2 ha hs hmove hmono hb⟩
    | @leaves _ r hi hr =>
      obtain ⟨closing, rfl⟩ := h.stopping hi
      have hin := h.2
      rw [hr] at hin
      exact hquiet nofun hput (afterControl h.1 fun e he => (hin e he).imp id (hmono e))
    | walks =>
      have hwalk : ∀ u, ∃ l, walksOf t (es ++ (w.note (.run t) u).toList) = [l] := fun u => by
        rw [walksOf_append, note_of_walking ha, show walksOf t es = [] from h]
        have hown : (Event.walked t w.queue.items : Event σ V).walkOf? t = some w.queue.items :=
          Event.walkOf?_eq_some_iff.mpr rfl
        exact ⟨_, congrArg Option.toList hown⟩
      exact ⟨_, hput, walked (hwalk _) ..⟩
    | logs hx _ =>
      refine hquiet (fun after hw => ?_) hput (h.logged hx _)
      subst hw
      cases hx
    | clears => exact absurd hput hv.2
    | _ => cases h

/-- **What a stop has done so far**, on a run through states in which its call is not over yet. -/
theorem stop_of_run {closing : Bool} {s : StopStage}
    (hp : ∀ x, P x → (x.calls.get? t).isSome = true ∧ x.calls.get? t ≠ some .releasing)
    (hl : w₀.course.Linked) (ht : w₀.calls.get? t = some (.stopping closing))
    (hst : w₀.control.calls.get? t = some (.stop false s)) (h : Chronicle step note P w₀ es w) :
    w.course.Linked ∧ ∃ a, w.calls.get? t = some a ∧
      StopSoFar (AtControl (BrokenOff P t w₀ w) (w.control.calls.get? t)) (BrokenOff P t w₀ w)
        (walksOf t es) a := by
  induction h with
  | refl _ =>
    refine ⟨hl, _, ht, rfl, ?_⟩
    rw [hst]
    rfl
  | @step es u v m h hs hv ih =>
    obtain ⟨hl, a, ha, hsofar⟩ := ih
    have hmono : ∀ e, BrokenOff P t w₀ u e → BrokenOff P t w₀ v e := fun e hb => by
      obtain ⟨x, y, hx, hxy, hy⟩ := hb
      exact ⟨x, y, hx, hxy, .step m hy hs hv⟩
    refine ⟨hl.step (step_course hs), ?_⟩
    by_cases hm : m = .run t
    · subst hm
      exact hsofar.own hl ha hs (hp v hv) hmono fun e he => ⟨u, v, h.along, he, .refl hv⟩
    · rw [walksOf_note (.inl hm)]
      obtain ⟨hsame | hnone, hkeeps⟩ := call_of_step hs hm ha
      · refine ⟨a, hsame, hsofar.mono (fun hc => ?_) hmono⟩
        rcases hkeeps with hk | hk
        · exact hk ▸ hc.mono hmono
        · exact hk ▸ (hc.mono hmono).roused
      · have hin := (hp v hv).1
        rw [hnone] at hin
        cases hin

end Writer

end SerialWriter
