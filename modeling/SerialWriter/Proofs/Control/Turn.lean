import SerialWriter.Control.Scene
import Mathlib.Tactic.Lemma

/-!
What one step does to a control: the steps of each call and of a worker as relations that say what
was found and what is left behind, and every move of a scene as one of them.
-/

namespace SerialWriter

/-! ### The parts of a step -/

namespace CallStage

def holds : CallStage → Bool
  | .start _ .launching | .start _ .spawning => true
  | .stop _ .burying | .stop _ .waking | .stop _ .collecting => true
  | .destroy .joining => true
  | _ => false

/-- What follows a stop that ended with `r`. -/
def afterStop (closing : Bool) (r : Except Failure Unit) : CallStage :=
  if closing then
    match r with
    | .ok _ => .destroy .locking
    | .error (.refused e) => .destroy (.reporting e)
    | .error e => .ended (.error e)
  else .ended r

@[simp] lemma holds_roused (s : CallStage) : s.roused.holds = s.holds := by
  unfold roused
  split <;> rfl

@[simp] lemma holds_afterStop (closing : Bool) (r : Except Failure Unit) :
    (afterStop closing r).holds = false := by
  unfold afterStop
  split
  · split <;> rfl
  · rfl

end CallStage

namespace Control

variable {c d : Control} {t : Thread} {now : Time} {j j' : Journal}

lemma free_iff : c.free = true ↔ c.holder = none := Option.isNone_iff_eq_none

lemma finishStop_eq (c : Control) (t : Thread) (closing : Bool) (r : Except Failure Unit) :
    c.finishStop t closing r = c.unlock.setCall t (.afterStop closing r) := by
  cases closing with
  | false => rfl
  | true =>
    cases r with
    | ok _ => rfl
    | error e => cases e <;> rfl

lemma enter_cases {p : Phase} {f : Option Failure} (h : c.enter p t j = (f, d, j')) :
    j.log t (.moved c.config.name c.phase p) = (f, j') ∧
      (f = none ∧ d = ({ c with phase := p } : Control).notifyAll ∨
        f ≠ none ∧ d = { c with phase := p }) := by
  unfold enter at h
  split at h
  · rename_i hl
    cases h
    exact ⟨hl, .inl ⟨rfl, rfl⟩⟩
  · rename_i hl
    cases h
    exact ⟨hl, .inr ⟨Option.some_ne_none _, rfl⟩⟩

lemma enter_frame {p : Phase} {f : Option Failure} (h : c.enter p t j = (f, d, j')) :
    d.phase = p ∧ d.holder = c.holder ∧ d.joinable = c.joinable ∧ d.workers = c.workers ∧
      d.config = c.config ∧ d.cause = c.cause ∧ d.cycles = c.cycles := by
  obtain ⟨-, ⟨-, rfl⟩ | ⟨-, rfl⟩⟩ := enter_cases h
  · exact ⟨rfl, rfl, rfl, rfl, rfl, rfl, rfl⟩
  · exact ⟨rfl, rfl, rfl, rfl, rfl, rfl, rfl⟩

lemma enter_calls {p : Phase} {f : Option Failure} (h : c.enter p t j = (f, d, j')) (u : Thread) :
    d.calls.get? u = c.calls.get? u ∨ d.calls.get? u = (c.calls.get? u).map CallStage.roused := by
  obtain ⟨-, ⟨-, rfl⟩ | ⟨-, rfl⟩⟩ := enter_cases h
  · exact .inr (Roster.get?_map ..)
  · exact .inl rfl

lemma join_cases (h : c.join t = some d) :
    c.joinable = none ∧ d = c ∨ (∃ n, c.joinable = some n ∧ t = .worker n ∧ d = c) ∨
      ∃ n, c.joinable = some n ∧ t ≠ .worker n ∧ c.worker? n = some .finished ∧
        d = { c with joinable := none } := by
  unfold join at h
  split at h
  · rename_i hj
    cases h
    exact .inl ⟨hj, rfl⟩
  · rename_i n hj
    by_cases ht : t = .worker n
    · rw [if_pos ht] at h
      cases h
      exact .inr (.inl ⟨n, hj, ht, rfl⟩)
    · rw [if_neg ht] at h
      unfold gone at h
      split at h
      · rename_i hw
        cases h
        exact .inr (.inr ⟨n, hj, ht, hw, rfl⟩)
      · cases h

lemma join_frame (h : c.join t = some d) : d.phase = c.phase ∧ d.holder = c.holder ∧
    d.workers = c.workers ∧ d.calls = c.calls ∧ d.config = c.config ∧ d.cause = c.cause ∧
      d.cycles = c.cycles := by
  rcases join_cases h with ⟨-, rfl⟩ | ⟨n, -, -, rfl⟩ | ⟨n, -, -, -, rfl⟩
  all_goals exact ⟨rfl, rfl, rfl, rfl, rfl, rfl, rfl⟩

lemma join_eq_none_iff : c.join t = none ↔
    ∃ n, c.joinable = some n ∧ t ≠ .worker n ∧ c.worker? n ≠ some .finished := by
  constructor
  · intro h
    unfold join at h
    split at h
    · cases h
    · rename_i n hj
      by_cases ht : t = .worker n
      · rw [if_pos ht] at h
        cases h
      · rw [if_neg ht] at h
        refine ⟨n, hj, ht, fun hw => ?_⟩
        have hg : c.gone n = true := by
          unfold gone
          rw [show c.workers[n]? = some .finished from hw]
        rw [hg] at h
        cases h
  · rintro ⟨n, hj, ht, hw⟩
    have hg : c.gone n = false := by
      unfold gone
      split
      · rename_i h
        exact absurd h hw
      · rfl
    simp [join, hj, ht, hg]

end Control

/-! ### The steps of a call -/

section Turns

variable (c : Control) (t : Thread) (now : Time) (j : Journal)

/-- **The steps of a start.** -/
inductive StartTurn (spawns : Bool) : StartStage → Control → Journal → Prop
  | refused {e : Refusal} (hf : c.holder = none) (he : c.startRefusal? = some e) :
      StartTurn spawns .entering (c.finish t (.error (.refused e))) j
  | admitted (hf : c.holder = none) (he : c.startRefusal? = none) :
      StartTurn spawns .entering ((c.lock t).setCall t (.start spawns .launching)) j
  | launched {d d' : Control} {j' : Journal} (hd : c.join t = some d)
      (he : d.enter .starting t j = (none, d', j')) :
      StartTurn spawns .launching (d'.setCall t (.start spawns .spawning)) j'
  | launchFault {d d' : Control} {j' : Journal} {e : Failure} (hd : c.join t = some d)
      (he : d.enter .starting t j = (some e, d', j')) :
      StartTurn spawns .launching (d'.finish t (.error e)) j'
  | spawned (hs : spawns = true) :
      StartTurn spawns .spawning
        (({ c with workers := c.workers ++ [.created], joinable := some c.workers.length }
          : Control).unlock.setCall t
            (.start spawns (.waiting (now.after c.config.startupLimit) false))) j
  | unmanned {d : Control} {j' : Journal} {f : Option Failure} {e : Failure} (hs : spawns = false)
      (he : ({ c with cause := some .noThread } : Control).enter .failed t j = (f, d, j'))
      (hr : e = f.getD
        (.refused (.startWithoutThread c.config.name Failure.noThread.what))) :
      StartTurn spawns .spawning (d.finish t (.error e)) j'
  | concluded {deadline : Time} {notified : Bool} (hf : c.holder = none)
      (hn : notified = true ∨ deadline ≤ now) (hp : c.phase ≠ .starting) :
      StartTurn spawns (.waiting deadline notified) (c.concludeStart t j).1 (c.concludeStart t j).2
  | expired {deadline : Time} {notified : Bool} (hf : c.holder = none) (hd : deadline ≤ now)
      (hp : c.phase = .starting) :
      StartTurn spawns (.waiting deadline notified) (c.finish t (.error (.refused
          (.startExpired c.config.name c.config.startupLimit)))) j
  | waits {deadline : Time} (hf : c.holder = none) (hd : now < deadline)
      (hp : c.phase = .starting) :
      StartTurn spawns (.waiting deadline true)
        (c.setCall t (.start spawns (.waiting deadline false))) j

/-- **The steps of a stop**, apart from the waking of the worker. -/
inductive StopTurn (closing : Bool) : StopStage → Control → Journal → Prop
  | retired {d : Control} {j' : Journal} {f : Option Failure} {r : Except Failure Unit}
      (hf : c.holder = none) (hp : c.phase = .new) (he : c.enter .terminated t j = (f, d, j'))
      (hr : r = f.elim (.ok ()) .error) :
      StopTurn closing .entering (d.finishStop t closing r) j'
  | already (hf : c.holder = none) (hp : c.phase = .terminated) :
      StopTurn closing .entering (c.finishStop t closing (.ok ())) j
  | buries (hf : c.holder = none) (hp : c.phase = .failed) :
      StopTurn closing .entering ((c.lock t).setCall t (.stop closing .burying)) j
  | halted {d : Control} {j' : Journal} (hf : c.holder = none)
      (hp : c.phase = .starting ∨ c.phase = .running)
      (he : c.enter .stopping t j = (none, d, j')) :
      StopTurn closing .entering ((d.lock t).setCall t (.stop closing .waking)) j'
  | haltFault {d : Control} {j' : Journal} {e : Failure} (hf : c.holder = none)
      (hp : c.phase = .starting ∨ c.phase = .running)
      (he : c.enter .stopping t j = (some e, d, j')) :
      StopTurn closing .entering (d.finishStop t closing (.error e)) j'
  | halts (hf : c.holder = none) (hp : c.phase = .stopping) :
      StopTurn closing .entering ((c.lock t).setCall t (.stop closing .waking)) j
  | buried {d : Control} (hd : c.join t = some d) :
      StopTurn closing .burying (d.finishStop t closing
        (.error (.refused (.stopAfterFailure d.config.name (Failure.describe? d.cause))))) j
  | collects {deadline : Time} {notified : Bool} (hf : c.holder = none)
      (hn : notified = true ∨ deadline ≤ now) (hp : c.phase = .terminated ∨ c.phase = .failed) :
      StopTurn closing (.waiting deadline notified)
        ((c.lock t).setCall t (.stop closing .collecting)) j
  | expired {deadline : Time} {notified : Bool} (hf : c.holder = none) (hd : deadline ≤ now)
      (hp : c.isOver = false) :
      StopTurn closing (.waiting deadline notified) (c.finishStop t closing (.error (.refused
          (.stopExpired c.config.name c.config.shutdownLimit)))) j
  | waits {deadline : Time} (hf : c.holder = none) (hd : now < deadline) (hp : c.isOver = false) :
      StopTurn closing (.waiting deadline true)
        (c.setCall t (.stop closing (.waiting deadline false))) j
  | collected {d : Control} (hd : c.join t = some d) :
      StopTurn closing .collecting (d.concludeStop t closing j).1 (d.concludeStop t closing j).2

/-- **The steps of a destruction**, apart from the stop that it may begin with. -/
inductive DestroyTurn : DestroyStage → Control → Journal → Prop
  | stops (hp : c.phase.active = true) :
      DestroyTurn .looking (c.setCall t (.stop true .entering)) j
  | skips (hp : c.phase.active = false) :
      DestroyTurn .looking (c.setCall t (.destroy .locking)) j
  | reported {r : Refusal} {j' : Journal} {f : Option Failure}
      (hl : j.log t (.uncleanStop c.config.name (Failure.refused r).what) = (f, j')) :
      DestroyTurn (.reporting r)
        (c.setCall t (f.elim (.destroy .locking) fun e => .ended (.error e))) j'
  | locks (hf : c.holder = none) :
      DestroyTurn .locking ((c.lock t).setCall t (.destroy .joining)) j
  | joined {d : Control} (hd : c.join t = some d) :
      DestroyTurn .joining (d.finish t (.ok ())) j

/-- **The steps of a call**, whichever call it is. -/
inductive CallTurn : CallStage → Control → Journal → Prop
  | start {spawns : Bool} {s : StartStage} {d : Control} {j' : Journal}
      (h : StartTurn c t now j spawns s d j') : CallTurn (.start spawns s) d j'
  | stop {closing : Bool} {s : StopStage} {d : Control} {j' : Journal}
      (h : StopTurn c t now j closing s d j') : CallTurn (.stop closing s) d j'
  | destroy {s : DestroyStage} {d : Control} {j' : Journal}
      (h : DestroyTurn c t j s d j') : CallTurn (.destroy s) d j'

end Turns

namespace Control

variable {c d : Control} {t : Thread} {now : Time} {j j' : Journal}

lemma startRefusal?_eq_none_iff :
    c.startRefusal? = none ↔ c.phase = .new ∨ c.phase = .terminated := by
  unfold startRefusal?
  cases c.phase <;> simp

lemma isOver_iff : c.isOver = true ↔ c.phase = .terminated ∨ c.phase = .failed := by
  simp [isOver]

lemma concludeStart_eq (c : Control) (t : Thread) (j : Journal) :
    ∃ r, (c.concludeStart t j).1 = c.finish t r := by
  unfold concludeStart
  split
  · exact ⟨_, rfl⟩
  · split
    · exact ⟨_, rfl⟩
    · exact ⟨_, rfl⟩

lemma concludeStop_eq (c : Control) (t : Thread) (closing : Bool) (j : Journal) :
    ∃ r, (c.concludeStop t closing j).1 = c.unlock.setCall t (.afterStop closing r) := by
  unfold concludeStop
  split
  · exact ⟨_, finishStop_eq ..⟩
  · split
    · exact ⟨_, finishStop_eq ..⟩
    · exact ⟨_, finishStop_eq ..⟩

lemma stepStart_turn {spawns : Bool} {s : StartStage}
    (h : c.stepStart t spawns now j s = some (d, j')) : StartTurn c t now j spawns s d j' := by
  cases s with
  | entering =>
    simp only [stepStart] at h
    split at h
    · rename_i hf
      rw [free_iff] at hf
      split at h
      · rename_i he
        cases h
        exact .refused hf he
      · rename_i he
        cases h
        exact .admitted hf he
    · cases h
  | launching =>
    simp only [stepStart, Option.map_eq_some_iff] at h
    obtain ⟨e, he, h⟩ := h
    split at h
    · rename_i hl
      cases h
      exact .launched he hl
    · rename_i hl
      cases h
      exact .launchFault he hl
  | spawning =>
    simp only [stepStart] at h
    split at h
    · rename_i hs
      cases h
      exact .spawned hs
    · rename_i hs
      rw [Bool.not_eq_true] at hs
      split at h
      · rename_i d₁ j₁ hl
        have hc : d₁.config = c.config := (enter_frame hl).2.2.2.2.1
        cases h
        exact .unmanned hs hl (by rw [hc]; rfl)
      · rename_i hl
        cases h
        exact .unmanned hs hl rfl
  | waiting deadline notified =>
    simp only [stepStart] at h
    split at h
    · rename_i hf
      rw [Bool.and_eq_true, Bool.or_eq_true, decide_eq_true_eq, free_iff] at hf
      split at h
      · rename_i hp
        have h := Option.some.inj h
        rw [show d = _ from (congrArg Prod.fst h).symm, show j' = _ from (congrArg Prod.snd h).symm]
        exact .concluded hf.1 hf.2 hp
      · rename_i hp
        split at h
        · rename_i hd
          cases h
          exact .expired hf.1 hd (Decidable.not_not.mp hp)
        · rename_i hd
          cases h
          have hn : notified = true := hf.2.resolve_right hd
          subst hn
          exact .waits hf.1 (Int.not_le.mp hd) (Decidable.not_not.mp hp)
    · cases h

lemma stepStop_turn {closing : Bool} {s : StopStage}
    (h : c.stepStop t closing now j s = some (d, j')) : StopTurn c t now j closing s d j' := by
  cases s with
  | entering =>
    simp only [stepStop] at h
    split at h
    · rename_i hf
      rw [free_iff] at hf
      split at h
      · rename_i hp
        split at h
        · rename_i hl
          cases h
          exact .retired hf hp hl rfl
        · rename_i hl
          cases h
          exact .retired hf hp hl rfl
      · rename_i hp
        cases h
        exact .already hf hp
      · rename_i hp
        cases h
        exact .buries hf hp
      · rename_i hp
        split at h
        · rename_i hl
          cases h
          exact .halted hf (.inl hp) hl
        · rename_i hl
          cases h
          exact .haltFault hf (.inl hp) hl
      · rename_i hp
        split at h
        · rename_i hl
          cases h
          exact .halted hf (.inr hp) hl
        · rename_i hl
          cases h
          exact .haltFault hf (.inr hp) hl
      · rename_i hp
        cases h
        exact .halts hf hp
    · cases h
  | burying =>
    simp only [stepStop, Option.map_eq_some_iff] at h
    obtain ⟨e, he, h⟩ := h
    cases h
    exact .buried he
  | waking => cases h
  | waiting deadline notified =>
    simp only [stepStop] at h
    split at h
    · rename_i hf
      rw [Bool.and_eq_true, Bool.or_eq_true, decide_eq_true_eq, free_iff] at hf
      split at h
      · rename_i hp
        cases h
        exact .collects hf.1 hf.2 (isOver_iff.mp hp)
      · rename_i hp
        rw [Bool.not_eq_true] at hp
        split at h
        · rename_i hd
          cases h
          exact .expired hf.1 hd hp
        · rename_i hd
          cases h
          have hn : notified = true := hf.2.resolve_right hd
          subst hn
          exact .waits hf.1 (Int.not_le.mp hd) hp
    · cases h
  | collecting =>
    simp only [stepStop, Option.map_eq_some_iff] at h
    obtain ⟨e, he, h⟩ := h
    rw [show d = _ from (congrArg Prod.fst h).symm, show j' = _ from (congrArg Prod.snd h).symm]
    exact .collected he

lemma stepDestroy_turn {s : DestroyStage}
    (h : c.stepDestroy t j s = some (d, j')) : DestroyTurn c t j s d j' := by
  cases s with
  | looking =>
    simp only [stepDestroy] at h
    split at h
    · rename_i hp
      cases h
      exact .stops hp
    · rename_i hp
      cases h
      exact .skips (Bool.not_eq_true _ ▸ hp)
  | reporting r =>
    simp only [stepDestroy] at h
    split at h
    · rename_i hl
      cases h
      exact .reported hl
    · rename_i hl
      cases h
      exact .reported hl
  | locking =>
    simp only [stepDestroy] at h
    split at h
    · rename_i hf
      cases h
      exact .locks (free_iff.mp hf)
    · cases h
  | joining =>
    simp only [stepDestroy, Option.map_eq_some_iff] at h
    obtain ⟨e, he, h⟩ := h
    cases h
    exact .joined he

theorem stepCall_turn (h : c.stepCall t now j = some (d, j')) :
    ∃ s, c.calls.get? t = some s ∧ CallTurn c t now j s d j' := by
  unfold stepCall at h
  split at h
  · rename_i hs
    exact ⟨_, hs, .start (stepStart_turn h)⟩
  · rename_i hs
    exact ⟨_, hs, .stop (stepStop_turn h)⟩
  · rename_i hs
    exact ⟨_, hs, .destroy (stepDestroy_turn h)⟩
  · cases h
  · cases h

end Control

/-! ### What a step of a call does to the other calls -/

/-- The calls of `d` are those of `c`, some of them roused. -/
def Rouses (c d : Control) : Prop :=
  ∀ u, d.calls.get? u = c.calls.get? u ∨ d.calls.get? u = (c.calls.get? u).map CallStage.roused

lemma Rouses.of_eq {c d : Control} (h : d.calls = c.calls) : Rouses c d := fun _ => .inl (h ▸ rfl)

lemma Rouses.enter {c d e : Control} {p : Phase} {t : Thread} {j j' : Journal} {f : Option Failure}
    (hd : d.calls = c.calls) (h : d.enter p t j = (f, e, j')) : Rouses c e :=
  fun u => hd ▸ Control.enter_calls h u

/-- A start that goes on to create a worker. -/
def CallStage.building : CallStage → Bool
  | .start _ .launching | .start _ .spawning => true
  | _ => false

namespace Control

variable {c d : Control} {t : Thread} {s : CallStage} {now : Time} {j j' : Journal}

lemma building_afterStop (closing : Bool) (r : Except Failure Unit) :
    (CallStage.afterStop closing r).building = false := by
  unfold CallStage.afterStop
  split
  · split <;> rfl
  · rfl

theorem eq_setCall_of_turn (h : CallTurn c t now j s d j') :
    ∃ e s', d = e.setCall t s' ∧ Rouses c e ∧ (s'.building = true →
      s.building = true ∨ c.phase = .new ∨ c.phase = .terminated) := by
  have hno : ∀ closing r, (CallStage.afterStop closing r).building = true →
      s.building = true ∨ c.phase = .new ∨ c.phase = .terminated := fun closing r hb => by
    rw [building_afterStop] at hb
    cases hb
  cases h with
  | start h =>
    cases h with
    | refused _ _ => exact ⟨_, _, rfl, .of_eq rfl, fun h => nomatch h⟩
    | admitted _ he =>
      exact ⟨_, _, rfl, .of_eq rfl, fun _ => .inr (startRefusal?_eq_none_iff.mp he)⟩
    | launched hd he =>
      exact ⟨_, _, rfl, .enter (join_frame hd).2.2.2.1 he, fun _ => .inl rfl⟩
    | launchFault hd he =>
      refine ⟨_, _, rfl, fun u => ?_, fun h => nomatch h⟩
      exact Rouses.enter (join_frame hd).2.2.2.1 he u
    | spawned _ => exact ⟨_, _, rfl, .of_eq rfl, fun h => nomatch h⟩
    | unmanned _ he _ =>
      refine ⟨_, _, rfl, fun u => ?_, fun h => nomatch h⟩
      exact Rouses.enter (d := { c with cause := some .noThread }) rfl he u
    | concluded _ _ _ =>
      obtain ⟨r, hr⟩ := concludeStart_eq c t j
      exact ⟨_, _, hr, .of_eq rfl, fun h => nomatch h⟩
    | expired _ _ _ => exact ⟨_, _, rfl, .of_eq rfl, fun h => nomatch h⟩
    | waits _ _ _ => exact ⟨_, _, rfl, .of_eq rfl, fun h => nomatch h⟩
  | stop h =>
    cases h with
    | retired _ _ he _ => exact ⟨_, _, finishStop_eq .., fun u => enter_calls he u, hno _ _⟩
    | already _ _ => exact ⟨_, _, finishStop_eq .., .of_eq rfl, hno _ _⟩
    | buries _ _ => exact ⟨_, _, rfl, .of_eq rfl, fun h => nomatch h⟩
    | halted _ _ he => exact ⟨_, _, rfl, fun u => enter_calls he u, fun h => nomatch h⟩
    | haltFault _ _ he => exact ⟨_, _, finishStop_eq .., fun u => enter_calls he u, hno _ _⟩
    | halts _ _ => exact ⟨_, _, rfl, .of_eq rfl, fun h => nomatch h⟩
    | buried hd =>
      exact ⟨_, _, finishStop_eq .., .of_eq (join_frame hd).2.2.2.1, hno _ _⟩
    | collects _ _ _ => exact ⟨_, _, rfl, .of_eq rfl, fun h => nomatch h⟩
    | expired _ _ _ => exact ⟨_, _, finishStop_eq .., .of_eq rfl, hno _ _⟩
    | waits _ _ _ => exact ⟨_, _, rfl, .of_eq rfl, fun h => nomatch h⟩
    | @collected e hd =>
      obtain ⟨r, hr⟩ := concludeStop_eq e t _ j
      exact ⟨_, _, hr, .of_eq (join_frame hd).2.2.2.1, hno _ _⟩
  | destroy h =>
    cases h with
    | stops _ => exact ⟨_, _, rfl, .of_eq rfl, fun h => nomatch h⟩
    | skips _ => exact ⟨_, _, rfl, .of_eq rfl, fun h => nomatch h⟩
    | @reported r _ f _ =>
      refine ⟨_, _, rfl, .of_eq rfl, fun h => ?_⟩
      cases f <;> cases h
    | locks _ => exact ⟨_, _, rfl, .of_eq rfl, fun h => nomatch h⟩
    | joined hd => exact ⟨_, _, rfl, .of_eq (join_frame hd).2.2.2.1, fun h => nomatch h⟩

end Control

/-! ### The steps of a worker -/

/-- **The steps of worker `n`** outside its cycles. -/
inductive WorkerTurn (c : Control) (n : Nat) (j : Journal) :
    WorkerStage → Control → Journal → Prop
  | opens {f : Option Failure} {d : Control} {j' : Journal} (hf : c.holder = none)
      (hp : c.phase = .starting) (he : c.enter .running (.worker n) j = (f, d, j')) :
      WorkerTurn c n j .created (d.setWorker n (f.elim .looking .failing)) j'
  | hurries (hf : c.holder = none) (hp : c.phase ≠ .starting) :
      WorkerTurn c n j .created (c.setWorker n .looking) j
  | looks : WorkerTurn c n j .looking (c.setWorker n (.entering (decide (c.phase ≠ .running)))) j
  | enters {last : Bool} : WorkerTurn c n j (.entering last) (c.enterCycle n last) j
  | retires {f : Option Failure} {d : Control} {j' : Journal} (hf : c.holder = none)
      (he : c.enter .terminated (.worker n) j = (f, d, j')) :
      WorkerTurn c n j .retiring (d.setWorker n (f.elim .leaving .failing)) j'
  | fails {e : Failure} {f : Option Failure} {d : Control} {j' : Journal} (hf : c.holder = none)
      (he : ({ c with cause := some e } : Control).enter .failed (.worker n) j = (f, d, j')) :
      WorkerTurn c n j (.failing e) (d.setWorker n (f.elim (.reporting e) fun _ => .aborted)) j'
  | reports {e : Failure} {f : Option Failure} {j' : Journal}
      (hl : j.log (.worker n) (.workerFailed c.config.name e.describe) = (f, j')) :
      WorkerTurn c n j (.reporting e) (c.setWorker n (f.elim .leaving fun _ => .aborted)) j'
  | leaves : WorkerTurn c n j .leaving (c.setWorker n .finished) j

def WorkerStage.afterCycle (last : Bool) : Option Failure → WorkerStage
  | some e => .failing e
  | none => if last then .retiring else .looking

namespace Control

variable {c d : Control} {n : Nat} {j j' : Journal}

theorem stepWorker_turn (h : c.stepWorker n j = some (d, j')) :
    ∃ w, c.worker? n = some w ∧ WorkerTurn c n j w d j' := by
  unfold stepWorker at h
  split at h
  · rename_i hw
    refine ⟨_, hw, ?_⟩
    split at h
    · rename_i hf
      rw [free_iff] at hf
      split at h
      · rename_i hp
        split at h
        · rename_i hl
          cases h
          exact .opens hf hp hl
        · rename_i hl
          cases h
          exact .opens hf hp hl
      · rename_i hp
        cases h
        exact .hurries hf hp
    · cases h
  · rename_i hw
    cases h
    exact ⟨_, hw, .looks⟩
  · rename_i hw
    cases h
    exact ⟨_, hw, .enters⟩
  · rename_i hw
    refine ⟨_, hw, ?_⟩
    split at h
    · rename_i hf
      rw [free_iff] at hf
      split at h
      · rename_i hl
        cases h
        exact .retires hf hl
      · rename_i hl
        cases h
        exact .retires hf hl
    · cases h
  · rename_i hw
    refine ⟨_, hw, ?_⟩
    split at h
    · rename_i hf
      rw [free_iff] at hf
      split at h
      · rename_i hl
        cases h
        exact .fails hf hl
      · rename_i hl
        cases h
        exact .fails hf hl
    · cases h
  · rename_i hw
    refine ⟨_, hw, ?_⟩
    split at h
    · rename_i hl
      cases h
      exact .reports hl
    · rename_i hl
      cases h
      exact .reports hl
  · rename_i hw
    cases h
    exact ⟨_, hw, .leaves⟩
  all_goals cases h

lemma rouses_of_turn {w : WorkerStage} (h : WorkerTurn c n j w d j') : Rouses c d := by
  cases h with
  | opens _ _ he => exact fun u => enter_calls he u
  | hurries _ _ => exact .of_eq rfl
  | looks => exact .of_eq rfl
  | enters => exact .of_eq rfl
  | retires _ he => exact fun u => enter_calls he u
  | @fails e _ _ _ _ he => exact fun u => Rouses.enter (d := { c with cause := some e }) rfl he u
  | reports _ => exact .of_eq rfl
  | leaves => exact .of_eq rfl

lemma budget?_isSome_iff :
    (c.budget? n).isSome = true ↔ ∃ last, c.worker? n = some (.cycling last) := by
  unfold budget?
  split
  · rename_i last hw
    exact ⟨fun _ => ⟨last, hw⟩, fun _ => rfl⟩
  · rename_i hw
    exact ⟨fun h => (Bool.false_ne_true h).elim, fun ⟨last, h⟩ => (hw last h).elim⟩

lemma endCycle_eq {last : Bool} (h : c.worker? n = some (.cycling last)) (e : Option Failure) :
    c.endCycle n e = c.setWorker n (.afterCycle last e) := by
  unfold endCycle
  rw [h]
  cases e <;> rfl

lemma result?_eq_some_iff {t : Thread} {r : Except Failure Unit} :
    c.result? t = some r ↔ c.calls.get? t = some (.ended r) := by
  unfold result?
  split
  · rename_i r' h
    rw [h, Option.some.injEq, Option.some.injEq, CallStage.ended.injEq]
  · rename_i h
    exact ⟨fun hr => (Option.some_ne_none r hr.symm).elim, fun hr => (h r hr).elim⟩

lemma waking_iff {t : Thread} :
    c.waking t = true ↔ ∃ closing, c.calls.get? t = some (.stop closing .waking) := by
  unfold waking
  split
  · rename_i closing h
    exact ⟨fun _ => ⟨closing, h⟩, fun _ => rfl⟩
  · rename_i h
    exact ⟨fun hr => (Bool.false_ne_true hr).elim, fun ⟨closing, hr⟩ => (h closing hr).elim⟩

lemma result?_eq_none {t : Thread} {s : CallStage} (h : c.calls.get? t = some s)
    (hs : ∀ r, s ≠ .ended r) : c.result? t = none := by
  rw [Option.eq_none_iff_forall_ne_some]
  exact fun r hr => hs r (Option.some.inj (h.symm.trans (result?_eq_some_iff.mp hr)))

lemma waking_eq_false {t : Thread} {s : CallStage} (h : c.calls.get? t = some s)
    (hs : ∀ closing, s ≠ .stop closing .waking) : c.waking t = false := by
  rw [Bool.eq_false_iff]
  intro hw
  obtain ⟨closing, hc⟩ := waking_iff.mp hw
  exact hs closing (Option.some.inj (h.symm.trans hc))

lemma woken_eq {t : Thread} {closing : Bool} (h : c.calls.get? t = some (.stop closing .waking))
    (now : Time) : c.woken t now = c.unlock.setCall t
      (.stop closing (.waiting (now.after c.config.shutdownLimit) false)) := by
  unfold woken
  rw [h]

end Control

/-! ### Every step of a control -/

def CallStage.opening : CallStage → Bool
  | .start _ .entering | .stop false .entering | .destroy .looking => true
  | _ => false

/-- **The steps of a control**, whoever takes them. -/
inductive Control.Step (c : Control) (now : Time) (j : Journal) : Control → Journal → Prop
  | begins {t : Thread} {s : CallStage} (hn : c.calls.get? t = none)
      (ht : ∀ n, t = .worker n → ∃ last, c.worker? n = some (.cycling last))
      (hs : s.opening = true) : Step c now j (c.setCall t s) j
  | calls {t : Thread} {s : CallStage} {d : Control} {j' : Journal}
      (hs : c.calls.get? t = some s) (h : CallTurn c t now j s d j') : Step c now j d j'
  | wakes {t : Thread} {closing : Bool} (hs : c.calls.get? t = some (.stop closing .waking)) :
      Step c now j (c.unlock.setCall t
        (.stop closing (.waiting (now.after c.config.shutdownLimit) false))) j
  | acknowledges {t : Thread} {r : Except Failure Unit} (hs : c.calls.get? t = some (.ended r)) :
      Step c now j (c.acknowledge t) j
  | works {n : Nat} {w : WorkerStage} {d : Control} {j' : Journal} (hw : c.worker? n = some w)
      (h : WorkerTurn c n j w d j') : Step c now j d j'
  | endsCycle {n : Nat} {last : Bool} (e : Option Failure)
      (hw : c.worker? n = some (.cycling last)) (hn : c.calls.get? (.worker n) = none) :
      Step c now j (c.setWorker n (.afterCycle last e)) j
  | stirs {t : Thread} {s : CallStage} (hs : c.calls.get? t = some s) :
      Step c now j (c.setCall t s.roused) j

namespace ControlScene

variable {s s' : ControlScene}

lemma mayCall_iff {c : Control} {t : Thread} : mayCall c t = true ↔
    c.calls.get? t = none ∧ ∀ n, t = .worker n → ∃ last, c.worker? n = some (.cycling last) := by
  unfold mayCall
  rw [Bool.and_eq_true, Option.isNone_iff_eq_none]
  refine and_congr_right fun _ => ?_
  cases t with
  | client k => simp
  | worker n =>
    rw [Control.budget?_isSome_iff]
    exact ⟨fun h _ hm => by cases hm; exact h, fun h => h n rfl⟩

lemma step_call {t : Thread} (h : s.step (.call t) = some s') :
    ((∃ closing, s.control.calls.get? t = some (.stop closing .waking) ∧
        s'.control = s.control.unlock.setCall t (.stop closing
          (.waiting (s.now.after s.control.config.shutdownLimit) false)) ∧
        s'.journal = s.journal) ∨
      ∃ a, s.control.calls.get? t = some a ∧
        CallTurn s.control t s.now s.journal a s'.control s'.journal) ∧ s'.now = s.now := by
  simp only [step] at h
  split at h
  · rename_i hw
    obtain ⟨closing, hs⟩ := Control.waking_iff.mp hw
    cases h
    exact ⟨.inl ⟨closing, hs, Control.woken_eq hs s.now, rfl⟩, rfl⟩
  · obtain ⟨⟨d, j⟩, hd, h⟩ := Option.map_eq_some_iff.mp h
    cases h
    exact ⟨.inr (Control.stepCall_turn hd), rfl⟩

lemma step_work {n : Nat} (h : s.step (.work n) = some s') :
    (∃ w, s.control.worker? n = some w ∧
      WorkerTurn s.control n s.journal w s'.control s'.journal) ∧ s'.now = s.now := by
  obtain ⟨⟨d, j⟩, hd, h⟩ := Option.map_eq_some_iff.mp h
  cases h
  exact ⟨Control.stepWorker_turn hd, rfl⟩

lemma step_endCycle {n : Nat} {e : Option Failure} (h : s.step (.endCycle n e) = some s') :
    ∃ last, s.control.worker? n = some (.cycling last) ∧ s.control.calls.get? (.worker n) = none ∧
      s' = { s with control := s.control.setWorker n (.afterCycle last e) } := by
  simp only [step, Option.ite_none_right_eq_some, Option.some.injEq] at h
  obtain ⟨⟨hb, hn⟩, rfl⟩ := h
  obtain ⟨last, hw⟩ := Control.budget?_isSome_iff.mp hb
  rw [Control.endCycle_eq hw]
  exact ⟨last, hw, Option.isNone_iff_eq_none.mp hn, rfl⟩

/-- **A move of a scene** arms the journal, lets time pass, or is a step of its control. -/
theorem step_cases {m : Move} (h : s.step m = some s') :
    (∃ needle, m = .arm needle ∧ s' = { s with journal := s.journal.arm needle }) ∨
      (∃ d : Nat, m = .pass d ∧ s' = { s with now := s.now + d }) ∨
      s.control.Step s.now s.journal s'.control s'.journal ∧ s'.now = s.now := by
  cases m with
  | start t spawns =>
    simp only [step, Option.ite_none_right_eq_some, Option.some.injEq] at h
    obtain ⟨hm, rfl⟩ := h
    obtain ⟨hn, ht⟩ := mayCall_iff.mp hm
    exact .inr (.inr ⟨.begins hn ht rfl, rfl⟩)
  | stop t =>
    simp only [step, Option.ite_none_right_eq_some, Option.some.injEq] at h
    obtain ⟨hm, rfl⟩ := h
    obtain ⟨hn, ht⟩ := mayCall_iff.mp hm
    exact .inr (.inr ⟨.begins hn ht rfl, rfl⟩)
  | destroy t =>
    simp only [step, Option.ite_none_right_eq_some, Option.some.injEq] at h
    obtain ⟨hm, rfl⟩ := h
    obtain ⟨hn, ht⟩ := mayCall_iff.mp hm
    exact .inr (.inr ⟨.begins hn ht rfl, rfl⟩)
  | call t =>
    obtain ⟨⟨closing, hs, hd, hj⟩ | ⟨a, ha, hturn⟩, hn⟩ := step_call h
    · refine .inr (.inr ⟨?_, hn⟩)
      rw [hd, hj]
      exact .wakes hs
    · exact .inr (.inr ⟨.calls ha hturn, hn⟩)
  | acknowledge t =>
    simp only [step, Option.ite_none_right_eq_some, Option.some.injEq] at h
    obtain ⟨hr, rfl⟩ := h
    obtain ⟨r, hr⟩ := Option.isSome_iff_exists.mp hr
    exact .inr (.inr ⟨.acknowledges (Control.result?_eq_some_iff.mp hr), rfl⟩)
  | work n =>
    obtain ⟨⟨a, ha, hturn⟩, hn⟩ := step_work h
    exact .inr (.inr ⟨.works ha hturn, hn⟩)
  | endCycle n e =>
    obtain ⟨last, hw, hn, rfl⟩ := step_endCycle h
    exact .inr (.inr ⟨.endsCycle e hw hn, rfl⟩)
  | stir t =>
    simp only [step] at h
    split at h
    · rename_i a ha
      cases h
      exact .inr (.inr ⟨.stirs ha, rfl⟩)
    · cases h
  | arm needle =>
    cases h
    exact .inl ⟨needle, rfl, rfl⟩
  | pass d =>
    cases h
    exact .inr (.inl ⟨d, rfl, rfl⟩)

end ControlScene

end SerialWriter
