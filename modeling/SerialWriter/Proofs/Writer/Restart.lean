import SerialWriter.Proofs.Writer.Refinement
import SerialWriter.Proofs.Writer.Stops

/-!
A restart shows only to those who wait: the tasks, their order, the outcomes in their handles and
the books are the same as without it, and of the waits only those for a ticket that the stop found
pending and that end before its outcome is assigned can be told something else.
-/

namespace SerialWriter

variable {σ V : Type}

open Writer (Event lost)

/-! ### What a wait is told -/

/-- The tickets that an event walks over. -/
def Writer.Event.released : Event σ V → List Nat
  | .walked _ l => l
  | _ => []

def released (es : List (Event σ V)) : List Nat := es.flatMap Event.released

def resolved (es : List (Event σ V)) : List Nat := (published es).map Prod.fst

/-- **What a wait for ticket `k` is told** when it ends after what has been noted: there is an
outcome, or else the ticket was walked over, or else neither. -/
def statusAfter (es : List (Event σ V)) (k : Nat) : WaitStatus :=
  if k ∈ resolved es then .ready else if k ∈ released es then .interrupted else .timeout

def Told (es : List (Event σ V)) : Prop :=
  ∀ x u k st y, es = x ++ .told u k st :: y → st = statusAfter x k

section Status

variable {es x y : List (Event σ V)} {k : Nat} {t : Thread} {l : List Nat}

lemma mem_released : k ∈ released es ↔ ∃ t l, .walked t l ∈ es ∧ k ∈ l := by
  rw [released, List.mem_flatMap]
  constructor
  · rintro ⟨e, he, hk⟩
    cases e with
    | walked t l => exact ⟨t, l, he, hk⟩
    | _ => cases hk
  · rintro ⟨t, l, he, hk⟩
    exact ⟨_, he, hk⟩

lemma mem_resolved : k ∈ resolved es ↔ ∃ o, .published k o ∈ es := by
  rw [resolved, List.mem_map]
  constructor
  · rintro ⟨⟨i, o⟩, hin, rfl⟩
    exact ⟨o, mem_published.mp hin⟩
  · rintro ⟨o, hin⟩
    exact ⟨(k, o), mem_published.mpr hin, rfl⟩

/-- **After its outcome has been assigned every wait for a ticket hears of it.** -/
lemma statusAfter_resolved (h : k ∈ resolved es) : statusAfter es k = .ready := if_pos h

/-- **What a walk changes for waits that end after it**: those for a ticket that it came over are
released early if there is no outcome yet. -/
lemma statusAfter_walked (x y : List (Event σ V)) (t : Thread) (l : List Nat) (k : Nat) :
    statusAfter (x ++ .walked t l :: y) k = statusAfter (x ++ y) k ∨
      k ∈ l ∧ k ∉ resolved (x ++ y) ∧ statusAfter (x ++ .walked t l :: y) k = .interrupted ∧
        statusAfter (x ++ y) k = .timeout := by
  have hresolved : resolved (x ++ .walked t l :: y) = resolved (x ++ y) := by
    simp only [resolved, published, List.filterMap_append, List.map_append, List.filterMap_cons,
      Event.published?]
  have hreleased : k ∈ released (x ++ .walked t l :: y) ↔ k ∈ released (x ++ y) ∨ k ∈ l := by
    simp only [released, List.flatMap_append, List.flatMap_cons, Event.released, List.mem_append]
    tauto
  unfold statusAfter
  rw [hresolved]
  by_cases hr : k ∈ resolved (x ++ y)
  · exact .inl (by rw [if_pos hr, if_pos hr])
  · rw [if_neg hr, if_neg hr]
    by_cases hw : k ∈ released (x ++ y)
    · exact .inl (by rw [if_pos hw, if_pos (hreleased.mpr (.inl hw))])
    · by_cases hl : k ∈ l
      · exact .inr ⟨hl, hr, if_pos (hreleased.mpr (.inr hl)), if_neg hw⟩
      · exact .inl (by rw [if_neg hw, if_neg fun h => (hreleased.mp h).elim hw hl])

end Status

namespace Affairs

variable {es : List (Event σ V)} {c d : Affairs σ V} {ev : Option (Event σ V)} {k : Nat}

lemma Handles.ready_iff (h : c.Handles es) : (cellAt c.envelopes k).ready = true ↔
    k ∈ resolved es := by
  rw [mem_resolved]
  constructor
  · intro hr
    by_cases hk : ∃ o, .published k o ∈ es
    · exact hk
    · rw [(h.blank k fun o ho => hk ⟨o, ho⟩).1] at hr
      cases hr
  · rintro ⟨o, ho⟩
    cases h.holds k o ho <;> assumption

lemma Handles.status (h : c.Handles es) (k : Nat) :
    (cellAt c.envelopes k).status = statusAfter es k := by
  have hreleased : (cellAt c.envelopes k).interrupted = true ↔ k ∈ SerialWriter.released es :=
    (h.released k).trans mem_released.symm
  simp only [Cell.status, Cell.status?, statusAfter, h.ready_iff, hreleased]
  split
  · rfl
  · split <;> rfl

lemma Step.status_of_told {u : Thread} {st : WaitStatus} (hs : c.Step ev d)
    (hev : ev = some (.told u k st)) : st = (cellAt c.envelopes k).status := by
  cases hs with
  | hears _ =>
    cases hev
    rfl
  | @body _ _ _ _ _ _ act _ _ _ => cases act <;> cases hev
  | _ => cases hev

end Affairs

namespace Writer

variable {w w₀ v a b : Writer σ V} {m : Move σ V} {es es₀ : List (Event σ V)} {config : Config}
  {target : String} {factory : Option (Factory σ)} {s₀ : σ} {now : Time} {t : Thread}
  {j j' : Journal} {c : Nat}

lemma lost_append (es es' : List (Event σ V)) : lost (es ++ es') = lost es + lost es' :=
  List.countP_append

/-- **Every wait is told what its handle shows.** -/
theorem told_of_run (hc : create config target factory s₀ now t j = (.ok w₀, j'))
    (h : Chronicle step note Isolated w₀ es w) (hlost : lost es = 0) : Told es := by
  rintro x u k st y rfl
  obtain ⟨v, m, v', hv, hs, hn, -⟩ := h.exists_of_noted
  obtain ⟨hl, -, -, -, hworked⟩ := chronicled_of_run hc hv
  have hx : lost x = 0 := by
    rw [lost_append] at hlost
    omega
  rw [(affairs_of_step hl hs).status_of_told hn]
  exact (hworked hx).2.status k

/-! ### Restarts -/

/-- Client `c` has not seen the result of its call. -/
structure InCall (c : Nat) (w : Writer σ V) : Prop extends Isolated w where
  calling : (w.calls.get? (.client c)).isSome = true

/-- **A restart**: from `w` on client `c` stops the writer, successfully, and afterwards starts it
again, up to `v`. The first list notes what happens during the stop, the second what happens from
then on. -/
inductive Restart (c : Nat) (w : Writer σ V) :
    List (Event σ V) → List (Event σ V) → Writer σ V → Prop
  | mk {es₁ es₂ es₃ : List (Event σ V)} {x y z x' v : Writer σ V} {spawns : Bool}
      (hstop : w.step (.request c .stop) = some x)
      (hstopping : Chronicle step note (InCall c) x es₁ y)
      (hstopped : y.result? (.client c) = some (.ok none))
      (hbetween : Chronicle step note Isolated y es₂ z)
      (hstart : z.step (.request c (.start spawns)) = some x')
      (hstarting : Chronicle step note (InCall c) x' es₃ v)
      (hstarted : v.result? (.client c) = some (.ok none)) : Restart c w es₁ (es₂ ++ es₃) v

namespace Restart

variable {stopping later : List (Event σ V)}

lemma run (h : Restart c w stopping later v) (hw : w.Isolated) :
    Chronicle step note Isolated w (stopping ++ later) v := by
  obtain ⟨hstop, hstopping, -, hbetween, hstart, hstarting, -⟩ := h
  -- a request is not noted
  have hrequest : ∀ {x y : Writer σ V} {r : WriterRequest σ V}, x.Isolated →
      x.step (.request c r) = some y → y.InCall c → Chronicle step note Isolated x [] y :=
    fun hx hs hy => (Chronicle.refl hx).step _ hs hy.toIsolated
  have hcall : ∀ {es : List (Event σ V)} {x y : Writer σ V}, Chronicle step note (InCall c) x es y →
      Chronicle step note Isolated x es y := fun h => h.mono fun _ hx => hx.toIsolated
  have hstopped := (hrequest hw hstop hstopping.along.start).trans (hcall hstopping)
  have hstarted := (hrequest hbetween.along.holds hstart hstarting.along.start).trans
    (hcall hstarting)
  rw [← List.append_assoc]
  exact (hstopped.trans hbetween).trans hstarted

/-- **A stop that succeeds has walked over the pending tickets, once.** -/
lemma walk (h : Restart c w stopping later v) (hl : w.course.Linked) :
    ∃ before l after, stopping = before ++ .walked (.client c) l :: after ∧
      walksOf (.client c) before = [] ∧ walksOf (.client c) after = [] := by
  obtain ⟨hstop, hstopping, hstopped, -⟩ := h
  have hcall : ∀ x, w.step (.request c .stop) = some x →
      x.calls.get? (.client c) = some (.stopping false) ∧
        x.control.calls.get? (.client c) = some (.stop false .entering) := by
    intro x hx
    simp only [step, Option.ite_none_right_eq_some, Option.some.injEq] at hx
    obtain ⟨-, rfl⟩ := hx
    exact ⟨Roster.get?_put_self .., Roster.get?_put_self ..⟩
  obtain ⟨hbegun, hst⟩ := hcall _ hstop
  obtain ⟨-, a, ha, hsofar⟩ := stop_of_run (fun x hx => ⟨hx.calling, hx.intact _⟩)
    (hl.step (step_course hstop)) hbegun hst hstopping
  have hended := result?_eq_some_iff.mp hstopped
  rw [ha, Option.some.injEq] at hended
  subst hended
  obtain ⟨l, hwalks⟩ : ∃ l, walksOf (.client c) stopping = [l] := by
    rcases hsofar with hwalk | ⟨-, e, he, -⟩
    · exact hwalk
    · cases he
  obtain ⟨before, e, after, hes, hbefore, he, hafter⟩ := List.filterMap_eq_cons_iff.mp hwalks
  obtain rfl := Event.walkOf?_eq_some_iff.mp he
  exact ⟨before, l, after, hes, List.filterMap_eq_nil_iff.mpr hbefore, hafter⟩

end Restart

/-- **What the walk of a stop over the tickets `l` means for those who wait**, with what was noted
before it and after it. -/
structure Releases (t : Thread) (l : List Nat) (before after : List (Event σ V)) : Prop where
  /-- The tickets it comes over have no outcome yet, and all get one. -/
  unresolved : ∀ k ∈ l, k ∉ resolved before
  resolved : ∀ k ∈ l, k ∈ resolved after
  /-- A wait that ends after it is told what it would be told without it, unless it is for such a
  ticket and ends before there is an outcome. -/
  waits : ∀ x u k st y, after = x ++ .told u k st :: y → st = statusAfter (before ++ x) k ∨
    k ∈ l ∧ k ∉ SerialWriter.resolved (before ++ x) ∧ st = .interrupted ∧
      statusAfter (before ++ x) k = .timeout
  /-- Once there is an outcome every wait hears of it. -/
  ready : ∀ x u k st y, after = x ++ .told u k st :: y →
    k ∈ SerialWriter.resolved (before ++ x) → st = .ready

/-- **Nothing but waits tells two runs apart.** -/
structure Unseen (es es' : List (Event σ V)) (w v : Writer σ V) : Prop where
  results : SameResults es es' w v
  /-- The same tasks have been run, in the same order. -/
  order : jobsOf v.envelopes v.begun = jobsOf w.envelopes w.begun
  /-- The handles of tasks that were accepted at the same place hold the same outcome. -/
  handles : List.Forall₂ (fun k k' => ∃ o, (w.cell k).Holds es k o ∧ (v.cell k').Holds es' k' o)
    w.queue.accepted.reverse v.queue.accepted.reverse
  /-- All waits were told what their handles show, so those that end after their ticket has its
  outcome are told so. -/
  told : Told es ∧ Told es'

lemma Drained.unseen {es' : List (Event σ V)} {factory' : Option (Factory σ)}
    (h : Drained factory s₀ es w) (h' : Drained factory' s₀ es' v) (hjobs : v.jobs = w.jobs) :
    Unseen es es' w v := by
  have hw := h.refines
  have hv := h'.refines
  obtain ⟨_, _, _, _, _, _, _, hc, hrun⟩ := h.run
  obtain ⟨_, _, _, _, _, _, _, hc', hrun'⟩ := h'.run
  refine ⟨hw.sameResults hv hjobs, ?_, forall₂_both hw.handles ?_,
    told_of_run hc hrun h.sound, told_of_run hc' hrun' h'.sound⟩
  · rw [hv.begun, hw.begun]
    exact hjobs
  · rw [← hjobs]
    exact hv.handles

/-- **What the walk over the tickets `l` meant**, when all the work is done in the end. -/
lemma releases_of_walk {before after : List (Event σ V)} {l : List Nat} {u : Thread}
    (hc : create config target factory s₀ now t j = (.ok w₀, j'))
    (h : Chronicle step note Isolated w₀ (before ++ .walked u l :: after) w)
    (hf : Finished (before ++ .walked u l :: after) w) : Releases u l before after := by
  obtain ⟨x, m, y, hx, -, hn, -⟩ := h.exists_of_noted
  obtain ⟨-, ho, -, henrolled, hworked⟩ := chronicled_of_run hc hx
  obtain ⟨-, -, rfl⟩ := walking_of_note hn
  have hsound : lost before = 0 := by
    have hlost := hf.sound
    rw [lost_append] at hlost
    omega
  -- what is pending at the walk has no outcome yet
  have hunresolved : ∀ k ∈ x.queue.items, k ∉ resolved before := by
    intro k hk hin
    have hready := (hworked hsound).2.ready_iff.mpr hin
    rw [show x.affairs.envelopes = x.course.envelopes from rfl,
      ho.not_ready_of_pending hk] at hready
    cases hready
  have hwaits : ∀ z u' k st z', after = z ++ .told u' k st :: z' →
      st = statusAfter (before ++ z) k ∨ k ∈ x.queue.items ∧ k ∉ resolved (before ++ z) ∧
        st = .interrupted ∧ statusAfter (before ++ z) k = .timeout := by
    intro z u' k st z' hz
    have htold := told_of_run hc h hf.sound (before ++ .walked u x.queue.items :: z) u' k st z' (by
      rw [hz, List.append_assoc, List.cons_append])
    rw [htold]
    exact statusAfter_walked before z u x.queue.items k
  refine ⟨hunresolved, fun k hk => ?_, hwaits, fun z u' k st z' hz hk => ?_⟩
  · -- what was accepted before the walk has an outcome in the end
    have haccepted : k ∈ (entered before).map Prod.snd := by
      rw [henrolled.tickets]
      exact List.mem_reverse.mpr (ho.pending_accepted hk)
    have hw := Drained.refines ⟨hf, config, target, now, t, j, j', w₀, hc, h⟩
    have hin : k ∈ resolved (before ++ .walked u x.queue.items :: after) := by
      rw [resolved, hw.resolved, ← hw.tickets, entered, List.filterMap_append, List.map_append]
      exact List.mem_append_left _ haccepted
    rw [resolved, published, List.filterMap_append, List.map_append] at hin
    exact (List.mem_append.mp hin).resolve_left (hunresolved k hk)
  · rcases hwaits z u' k st z' hz with hst | ⟨-, hnot, -⟩
    · rw [hst, statusAfter_resolved hk]
    · exact absurd hk hnot

/-- **Restarts are transparent.** A writer is stopped and started again at any point of a run of
tasks apart, whatever it is doing, and in the end all the work is done: the tasks have been run in
the same order with the same outcomes, and the books are the same, as in every run that goes on from
there without the restart to accept the same tasks in the same order. The stop walks over the
pending tickets once; they get their outcomes all the same, and a wait is told something else only
if it is for one of them and ends before that. -/
theorem unseen_of_restart (hc : create config target factory s₀ now t j = (.ok w₀, j'))
    (h : Chronicle step note Isolated w₀ es₀ w)
    {esA : List (Event σ V)} (ha : Chronicle step note Isolated w esA a)
    (hfa : Finished (es₀ ++ esA) a)
    {stopping later rest : List (Event σ V)} (hr : Restart c w stopping later v)
    (hb : Chronicle step note Isolated v rest b)
    (hfb : Finished (es₀ ++ (stopping ++ later ++ rest)) b)
    (hjobs : b.jobs = a.jobs) :
    Unseen (es₀ ++ esA) (es₀ ++ (stopping ++ later ++ rest)) a b ∧
      ∃ before l after, stopping = before ++ .walked (.client c) l :: after ∧
        walksOf (.client c) before = [] ∧ walksOf (.client c) after = [] ∧
        Releases (.client c) l (es₀ ++ before) (after ++ later ++ rest) := by
  have hrun := h.trans ((hr.run h.along.holds).trans hb)
  have hdrained : Drained factory s₀ (es₀ ++ esA) a :=
    ⟨hfa, _, _, _, _, _, _, w₀, hc, h.trans ha⟩
  have hdrained' : Drained factory s₀ (es₀ ++ (stopping ++ later ++ rest)) b :=
    ⟨hfb, _, _, _, _, _, _, w₀, hc, hrun⟩
  refine ⟨hdrained.unseen hdrained' hjobs, ?_⟩
  obtain ⟨before, l, after, rfl, hbefore, hafter⟩ := hr.walk (chronicled_of_run hc h).linked
  have hes : es₀ ++ (before ++ .walked (.client c) l :: after ++ later ++ rest) =
      (es₀ ++ before) ++ .walked (.client c) l :: (after ++ later ++ rest) := by
    simp only [List.append_assoc, List.cons_append]
  exact ⟨before, l, after, rfl, hbefore, hafter, releases_of_walk hc (hes ▸ hrun) (hes ▸ hfb)⟩

/-! ### A restart in the middle of the work -/

def testInCall (all : List σ) (c : Nat) (x : Writer σ V) : Bool :=
  testIsolated all x && (x.calls.get? (.client c)).isSome

lemma inCall_of_test {all : List σ} (hall : ∀ s, s ∈ all) {x : Writer σ V}
    (h : testInCall all c x = true) : x.InCall c := by
  rw [testInCall, Bool.and_eq_true] at h
  exact ⟨isolated_of_test hall h.1, h.2⟩

def toldOf (es : List (Event σ V)) : List (Nat × WaitStatus) :=
  es.filterMap fun
    | .told _ k st => some (k, st)
    | _ => none

/-- Three writes, the last of which waits, while the first task is held up at a gate. -/
def heldUp : List (Move (Fin 32) Unit) :=
  startUp ++ submit 1 (.pass "gate" (.change (digit true) (.ret ()))) ++ goOn (.worker 0) 5 ++
    submit 2 (.change (digit false) (.fail .foreign)) ++
    write 3 (.change (digit true) (.ret ())) 1000 5

/-- The gate opens, and the work is done. -/
def letGo : List (Move (Fin 32) Unit) :=
  [.openGate "gate"] ++ goOn (.worker 0) 38 ++ goOn (.client 3) 2

/-- A stop, during which the gate opens; the worker ends with the second task. -/
def stopHeldUp : List (Move (Fin 32) Unit) :=
  goOn (.client 0) 3 ++ [.openGate "gate"] ++ goOn (.worker 0) 24 ++ goOn (.client 0) 6

/-- The wait for the third task ends before the start. -/
def betweenCalls : List (Move (Fin 32) Unit) := goOn (.client 3) 2 ++ [.acknowledge 0]

def startAgain : List (Move (Fin 32) Unit) :=
  goOn (.client 0) 3 ++ goOn (.worker 1) 1 ++ goOn (.client 0) 2

def heldUpJobs : List (Job (Fin 32) Unit) :=
  [{ id := "task", body := .wrapped .plain (.pass "gate" (.change (digit true) (.ret ()))) },
    { id := "task", body := .wrapped .plain (.change (digit false) (.fail .foreign)) },
    { id := "task", body := .wrapped .plain (.change (digit true) (.ret ())) }]

/-- The run with the restart, from the beginning of the stop on: what is to be seen on the way and
at its end. -/
def seenWithRestart (es : List (Event (Fin 32) Unit)) (w : Writer (Fin 32) Unit) :=
  let all := List.finRange 32
  (w.step (.request 0 .stop)).bind fun x =>
    (record step note (testInCall all 0) x stopHeldUp).map fun r₁ =>
      (r₁.2.result? (.client 0),
        (record step note (testIsolated all) r₁.2 betweenCalls).map fun r₂ =>
        (r₂.2.step (.request 0 (.start true))).bind fun x' =>
          (record step note (testInCall all 0) x' startAgain).map fun r₃ =>
            (r₃.2.result? (.client 0),
              (record step note (testIsolated all) r₃.2 (goOn (.worker 1) 16)).map fun r₄ =>
                (toldOf (r₁.1 ++ (r₂.1 ++ r₃.1) ++ r₄.1),
                  finale (es ++ (r₁.1 ++ (r₂.1 ++ r₃.1) ++ r₄.1)) r₄.2)))

lemma restart_of_seen {es : List (Event (Fin 32) Unit)} {w : Writer (Fin 32) Unit}
    {told : List (Nat × WaitStatus)}
    {seen : Nat × List Nat × Nat × List (Job (Fin 32) Unit) × Stats}
    (h : seenWithRestart es w =
      some (some (.ok none), some (some (some (.ok none), some (told, seen))))) :
    ∃ stopping later rest v b, Restart 0 w stopping later v ∧
      Chronicle step note Isolated v rest b ∧ toldOf (stopping ++ later ++ rest) = told ∧
      finale (es ++ (stopping ++ later ++ rest)) b = seen := by
  obtain ⟨x, hx, h⟩ := Option.bind_eq_some_iff.mp h
  obtain ⟨⟨es₁, y⟩, hy, h⟩ := Option.map_eq_some_iff.mp h
  obtain ⟨hstopped, h⟩ := Prod.mk.inj h
  obtain ⟨⟨es₂, z⟩, hz, h⟩ := Option.map_eq_some_iff.mp h
  obtain ⟨x', hx', h⟩ := Option.bind_eq_some_iff.mp h
  obtain ⟨⟨es₃, v⟩, hv, h⟩ := Option.map_eq_some_iff.mp h
  obtain ⟨hstarted, h⟩ := Prod.mk.inj h
  obtain ⟨⟨es₄, b⟩, hb, h⟩ := Option.map_eq_some_iff.mp h
  obtain ⟨htold, hseen⟩ := Prod.mk.inj h
  have hisolated : ∀ u : Writer (Fin 32) Unit, testIsolated (List.finRange 32) u = true →
      u.Isolated := fun _ => isolated_of_test List.mem_finRange
  have hin : ∀ u : Writer (Fin 32) Unit, testInCall (List.finRange 32) 0 u = true →
      u.InCall 0 := fun _ => inCall_of_test List.mem_finRange
  exact ⟨es₁, es₂ ++ es₃, es₄, v, b, .mk hx ((chronicle_of_record hy).mono hin) hstopped
    ((chronicle_of_record hz).mono hisolated) hx' ((chronicle_of_record hv).mono hin) hstarted,
    (chronicle_of_record hb).mono hisolated, htold, hseen⟩

/-- The writer is stopped and started again while the first task is held up: the second one ends
with the worker, and the wait for the third is told of the interruption instead of its outcome. -/
theorem unseen_of_heldUp : ∃ (es₀ esA stopping later rest : List (Event (Fin 32) Unit))
    (w a v b : Writer (Fin 32) Unit),
      (w.phase = .running ∧ w.queue.items = [1, 2] ∧ w.inHand = 1) ∧
      Chronicle step note Isolated w esA a ∧ toldOf esA = [(2, .ready)] ∧
      Restart 0 w stopping later v ∧ Chronicle step note Isolated v rest b ∧
      toldOf (stopping ++ later ++ rest) = [(2, .interrupted)] ∧
      Unseen (es₀ ++ esA) (es₀ ++ (stopping ++ later ++ rest)) a b ∧
      ∃ before l after, stopping = before ++ .walked (.client 0) l :: after ∧
        walksOf (.client 0) before = [] ∧ walksOf (.client 0) after = [] ∧
        Releases (.client 0) l (es₀ ++ before) (after ++ later ++ rest) := by
  obtain ⟨w₀, j, hc⟩ : ∃ (w₀ : Writer (Fin 32) Unit) (j : Journal),
      create {} "target" none 1 0 (.client 0) {} = (.ok w₀, j) := ⟨_, _, rfl⟩
  let all := List.finRange 32
  have hisolated : ∀ u : Writer (Fin 32) Unit, testIsolated all u = true → u.Isolated :=
    fun _ => isolated_of_test List.mem_finRange
  obtain ⟨es₀, w, hw, hs⟩ : ∃ es₀ w, Chronicle step note (fun u => testIsolated all u = true)
      w₀ es₀ w ∧ ((w.phase, w.queue.items, w.inHand),
        (record step note (testIsolated all) w letGo).map fun r =>
          (toldOf r.1, finale (es₀ ++ r.1) r.2), seenWithRestart es₀ w) =
      ((.running, [1, 2], 1),
        some ([(2, .ready)], 0, [], 0, heldUpJobs, { submitted := 3, executed := 3, failed := 1 }),
        some (some (.ok none), some (some (some (.ok none), some ([(2, .interrupted)], 0, [], 0,
          heldUpJobs, { submitted := 3, executed := 3, failed := 1 }))))) := by
    cases hc
    exact exists_chronicle heldUp rfl
  simp only [Prod.mk.injEq] at hs
  obtain ⟨hseen, hfirst, hsecond⟩ := hs
  obtain ⟨⟨esA, a⟩, ha, hfirst⟩ := Option.map_eq_some_iff.mp hfirst
  simp only [finale, Prod.mk.injEq] at hfirst
  obtain ⟨htold, hlost, hitems, hidle, hjobs, -⟩ := hfirst
  obtain ⟨stopping, later, rest, v, b, hr, hb, htold', hseen'⟩ := restart_of_seen hsecond
  simp only [finale, Prod.mk.injEq] at hseen'
  obtain ⟨hlost', hitems', hidle', hjobs', -⟩ := hseen'
  have ha := (chronicle_of_record ha).mono hisolated
  obtain ⟨hunseen, hwalk⟩ :=
    unseen_of_restart hc (hw.mono hisolated) ha ⟨hlost, hitems, hidle⟩ hr hb
      ⟨hlost', hitems', hidle'⟩ (hjobs'.trans hjobs.symm)
  exact ⟨es₀, esA, stopping, later, rest, w, a, v, b, hseen, ha, htold, hr, hb, htold', hunseen,
    hwalk⟩

end Writer

end SerialWriter
