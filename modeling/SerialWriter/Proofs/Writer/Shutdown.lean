import SerialWriter.Proofs.Writer.Serial
import SerialWriter.Proofs.Writer.Walk

/-!
Whom a stop releases: of the tickets still pending, exactly those that were accepted before its
walk. A write that passed the check of the phase in time and makes its offer after the walk gets in,
and nobody releases its submitter.
-/

namespace SerialWriter

variable {σ V : Type}

/-! ### One stop among writes -/

namespace CallOfWriter

/-- The stages of a stop, up to its result. -/
def inStop : CallOfWriter σ V → Bool
  | .stopping false | .walking _ | .reporting _ _ | .closing _ | .ended _ => true
  | _ => false

/-- The stages of a write, up to its result. -/
def inWrite : CallOfWriter σ V → Bool
  | .writing _ _ | .ended _ => true
  | _ => false

lemma quiet_of_inWrite {a : CallOfWriter σ V} (h : a.inWrite = true) :
    a.inControl = false ∧ a.isWalk = false := by
  unfold inWrite at h
  split at h
  all_goals first | exact ⟨rfl, rfl⟩ | cases h

lemma eq_stopping {a : CallOfWriter σ V} (h : a.inStop = true) (hi : a.inControl = true) :
    a = .stopping false := by
  unfold inStop at h
  split at h
  all_goals first | rfl | cases hi | cases h

end CallOfWriter

namespace Course

variable {c d v : Course σ V} {t : Thread} {a : CallOfWriter σ V}

/-- `t` is in its stop, and all other calls are writes. -/
structure OneStop (c : Course σ V) (t : Thread) : Prop where
  own : ∃ a, c.calls.get? t = some a ∧ a.inStop = true
  others : ∀ u a, u ≠ t → c.calls.get? u = some a → a.inWrite = true

/-- All calls are writes. -/
def OnlyWrites (c : Course σ V) : Prop := ∀ u a, c.calls.get? u = some a → a.inWrite = true

lemma OnlyWrites.quiet (h : c.OnlyWrites) : c.Quiet := fun u a ha =>
  CallOfWriter.quiet_of_inWrite (h u a ha)

lemma OneStop.quiet (h : c.OneStop t) (ha : c.calls.get? t = some a) (hi : a.inControl = false)
    (hw : a.isWalk = false) : c.Quiet := by
  intro u b hb
  by_cases hut : u = t
  · rw [hut, ha, Option.some.injEq] at hb
    exact hb ▸ ⟨hi, hw⟩
  · exact CallOfWriter.quiet_of_inWrite (h.others u b hut hb)

lemma OneStop.not_releasing (h : c.OneStop t) (u : Thread) : c.calls.get? u ≠ some .releasing := by
  intro hu
  by_cases hut : u = t
  · obtain ⟨a, ha, hia⟩ := h.own
    rw [← hut, hu, Option.some.injEq] at ha
    rw [← ha] at hia
    cases hia
  · cases h.others u _ hut hu

/-- A writer in order whose only stop is that of `t`. -/
structure Halts (c : Course σ V) (t : Thread) : Prop where
  linked : c.Linked
  ordered : c.Ordered
  alone : c.OneStop t
  stops : c.calls.get? t = some (.stopping false) → c.control.Stops t

namespace Halts

lemma startless (h : c.Halts t) : c.control.Startless := by
  intro u b s hs
  obtain ⟨a, ha, hi⟩ := (h.linked.fits u).call (Option.isSome_iff_exists.mpr ⟨_, hs⟩)
  by_cases hut : u = t
  · obtain ⟨a', ha', hstop⟩ := h.alone.own
    rw [← hut, ha, Option.some.injEq] at ha'
    obtain rfl := CallOfWriter.eq_stopping (ha' ▸ hstop) hi
    obtain ⟨s', hs', hst⟩ := h.stops (hut ▸ ha)
    rw [← hut, hs, Option.some.injEq] at hs'
    subst hs'
    rcases hst with he | ⟨ho, -⟩
    · cases he
    · cases ho
  · rw [(CallOfWriter.quiet_of_inWrite (h.alone.others u a hut ha)).1] at hi
    cases hi

lemma closed (h : c.Halts t) (hs : c.Step d) (hp : c.control.phase.accepts = false) :
    d.control.phase.accepts = false := by
  rcases h.linked.control_step hs with hc | ⟨_, _, _, hc⟩
  · rw [hc]
    exact hp
  · exact hc.closed h.startless hp

theorem step (h : c.Halts t) (hs : c.Step d) (hd : d.OneStop t) : d.Halts t := by
  refine ⟨h.linked.step hs, h.ordered.step h.linked hs hd.not_releasing, hd, fun hst => ?_⟩
  obtain ⟨a, ha, hia⟩ := h.alone.own
  cases h.linked.callStep hs ha with
  | stays hsame hk =>
    rw [hst, Option.some.injEq] at hsame
    have hstops := h.stops (hsame ▸ ha)
    rcases h.linked.control_step hs with hc | ⟨_, _, _, hc⟩
    · rw [hc]
      exact hstops
    · obtain ⟨s, hcs, -⟩ := id hstops
      refine hstops.step h.startless hc ?_
      rw [hk, hcs]
      rfl
  | ends hnone =>
    rw [hst] at hnone
    cases hnone
  | @leaves r hi _ _ hnext =>
    obtain rfl := CallOfWriter.eq_stopping hia hi
    rw [hst, Option.some.injEq] at hnext
    cases r with
    | ok _ => cases hnext
    | error e => cases e <;> cases hnext
  | @walks after b _ hb hnext =>
    subst hnext
    rw [Roster.get?_put_self, Option.some.injEq] at hst
    have := hb.outside
    rw [hst] at this
    cases this
  | goes _ hi _ hnext =>
    rw [hst, Option.some.injEq] at hnext
    rw [← hnext] at hi
    cases hi
  | destroys hdes =>
    rcases hdes with rfl | rfl
    · cases hia
    · cases hia

/-- A stop inside the control stays there, or leaves it for the walk with no new work let in, or
breaks off with the fault of a log line. -/
lemma of_stopping (h : c.Halts t) (ha : c.calls.get? t = some (.stopping false)) (hs : c.Step d)
    (hd : d.OneStop t) : d.calls.get? t = some (.stopping false) ∨
      (∃ after, d.calls.get? t = some (.walking after)) ∧ d.control.phase.accepts = false ∨
      ∃ e, (∀ r, e ≠ .refused r) ∧ d.calls.get? t = some (.ended (.error e)) := by
  cases h.linked.callStep hs ha with
  | stays hsame _ => exact .inl hsame
  | ends hnone =>
    obtain ⟨b, hb, -⟩ := hd.own
    rw [hnone] at hb
    cases hb
  | @leaves r _ hr hphase hnext =>
    obtain ⟨s, hcs, hst⟩ := h.stops ha
    have hp : c.control.phase.accepts = false := by
      rw [hr, Option.some.injEq] at hcs
      rcases hst with he | ⟨-, hp⟩
      · rw [← hcs] at he
        cases he
      · exact hp
    rw [← hphase] at hp
    cases r with
    | ok _ => exact .inr (.inl ⟨⟨_, hnext⟩, hp⟩)
    | error e =>
      cases e with
      | refused r => exact .inr (.inl ⟨⟨_, hnext⟩, hp⟩)
      | _ => exact .inr (.inr ⟨_, (fun _ he => by cases he), hnext⟩)
  | walks hw _ _ => cases hw
  | goes hi _ _ _ => cases hi
  | destroys hdes => rcases hdes with h | h <;> cases h

lemma of_walking (h : c.Halts t) {after : AfterWalk}
    (ha : c.calls.get? t = some (.walking after)) (hp : c.control.phase.accepts = false)
    (hs : c.Step d) (hd : d.OneStop t) :
    (∃ after, d.calls.get? t = some (.walking after)) ∧ d.control.phase.accepts = false ∨
      Walked c d := by
  cases h.linked.callStep hs ha with
  | stays hsame _ => exact .inl ⟨⟨after, hsame⟩, h.closed hs hp⟩
  | ends hnone =>
    obtain ⟨b, hb, -⟩ := hd.own
    rw [hnone] at hb
    cases hb
  | leaves hi _ _ _ => cases hi
  | @walks _ b _ hb hnext =>
    refine .inr (Walked.of_walk h.ordered hp hnext (hd.quiet ?_ hb.outside hb.unwalked))
    rw [hnext]
    exact Roster.get?_put_self ..
  | goes hi _ _ _ => cases hi
  | destroys hdes => rcases hdes with h | h <;> cases h

lemma of_ended (h : c.Halts t) {r : Except Failure (Option V)}
    (ha : c.calls.get? t = some (.ended r)) (hs : c.Step d) (hd : d.OneStop t) :
    d.calls.get? t = some (.ended r) := by
  cases h.linked.callStep hs ha with
  | stays hsame _ => exact hsame
  | ends hnone =>
    obtain ⟨b, hb, -⟩ := hd.own
    rw [hnone] at hb
    cases hb
  | leaves hi _ _ _ => cases hi
  | walks hw _ _ => cases hw
  | goes hi _ _ _ => cases hi
  | destroys hdes => rcases hdes with h | h <;> cases h

lemma of_walked (h : c.Halts t) (hw : Walked v c) (hs : c.Step d) (hd : d.OneStop t) :
    Walked v d := by
  obtain ⟨a, ha, hia⟩ := h.alone.own
  obtain ⟨hi, hwalk⟩ := hw.quiet t a ha
  refine hw.step h.linked h.ordered hs ?_
  cases h.linked.callStep hs ha with
  | stays hsame _ => exact hd.quiet hsame hi hwalk
  | ends hnone =>
    obtain ⟨b, hb, -⟩ := hd.own
    rw [hnone] at hb
    cases hb
  | leaves hi' _ _ _ =>
    rw [hi] at hi'
    cases hi'
  | walks hw' _ _ =>
    rw [hw'] at hwalk
    cases hwalk
  | goes _ hi' hw' hnext => exact hd.quiet hnext hi' hw'
  | destroys hdes =>
    rcases hdes with rfl | rfl
    · cases hia
    · cases hia

end Halts

end Course

/-! ### From the beginning of a stop to its result and beyond -/

namespace Writer

variable {w w₀ w₁ w₂ v : Writer σ V} {config : Config} {target : String}
  {factory : Option (Factory σ)} {resource : σ} {now : Time} {t u : Thread} {j j' : Journal}

/-- On the way from `w₀` to `w` the stop of `t` walks over the pending tickets of `v`. -/
structure Walks (t : Thread) (w₀ v w : Writer σ V) : Prop where
  before : Along step (fun x => x.course.OneStop t) w₀ v
  walking : ∃ after, v.calls.get? t = some (.walking after)
  after : ∃ m x, v.step m = some x ∧ x.course.Quiet ∧
    Along step (fun x => x.course.OneStop t) x w

/-- What a stop that walked over the pending tickets of `v` has left behind in `w`. -/
structure LeftBehind (v w : Writer σ V) : Prop where
  closed : w.phase.accepts = false
  /-- Those who wait for a pending ticket are released if it was accepted before the walk, and only
  then. -/
  released_iff : ∀ k ∈ w.queue.items, (w.cell k).status?.isSome = true ↔ k ∈ v.queue.accepted
  /-- Those who are released hear of it, even when their time has run out. -/
  hears : ∀ u s k deadline, w.calls.get? u = some (.writing s (.waiting k deadline)) →
    k ∈ w.queue.items → k ∈ v.queue.accepted → ∃ x status, w.step (.run u) = some x ∧
      x.calls.get? u = some (.writing s (.told k status)) ∧ status ≠ .timeout
  /-- A write that has yet to make its offer gets in if there is room, and nobody releases it. -/
  straggles : ∀ u s k, w.calls.get? u = some (.writing s (.offering k)) →
    w.queue.items.length < w.queue.queue.capacity →
      ∃ x, w.step (.run u) = some x ∧ x.course.OnlyWrites ∧ x.phase = w.phase ∧
        x.queue.items = w.queue.items ++ [k] ∧ (x.cell k).status? = none

/-- A stop among writes is inside the control, about to walk, broken off, or past its walk. -/
lemma stop_cases (h₀ : w₀.course.Halts t) (ht : w₀.calls.get? t = some (.stopping false))
    (h : Along step (fun x => x.course.OneStop t) w₀ w) :
    w.course.Halts t ∧ (w.calls.get? t = some (.stopping false) ∨
      (∃ after, w.calls.get? t = some (.walking after)) ∧ w.phase.accepts = false ∨
      (∃ e, (∀ r, e ≠ .refused r) ∧ w.calls.get? t = some (.ended (.error e))) ∨
      ∃ v, Walks t w₀ v w ∧ Walked v.course w.course) := by
  refine (h.keeps (I := fun x => Along step (fun x => x.course.OneStop t) w₀ x ∧
    x.course.Halts t ∧ (x.calls.get? t = some (.stopping false) ∨
      (∃ after, x.calls.get? t = some (.walking after)) ∧ x.phase.accepts = false ∨
      (∃ e, (∀ r, e ≠ .refused r) ∧ x.calls.get? t = some (.ended (.error e))) ∨
      ∃ v, Walks t w₀ v x ∧ Walked v.course x.course))
    (fun hp => ⟨.refl hp, h₀, .inl ht⟩) fun x m y _ ⟨hrun, hx, hcase⟩ hs hy => ?_).2
  have hcourse := step_course hs
  refine ⟨.step m hrun hs hy, hx.step hcourse hy, ?_⟩
  rcases hcase with hst | ⟨⟨after, hw⟩, hp⟩ | ⟨e, he, hend⟩ | ⟨v, hv, hwalked⟩
  · exact (hx.of_stopping hst hcourse hy).imp id (Or.imp id .inl)
  · rcases hx.of_walking hw hp hcourse hy with hnext | hnext
    · exact .inr (.inl hnext)
    · exact .inr (.inr (.inr ⟨x, ⟨hrun, ⟨after, hw⟩, m, y, hs, hnext.quiet, .refl hy⟩, hnext⟩))
  · exact .inr (.inr (.inl ⟨e, he, hx.of_ended hend hcourse hy⟩))
  · obtain ⟨m', x', hs', hq, hafter⟩ := hv.after
    refine .inr (.inr (.inr ⟨v, ⟨hv.before, hv.walking, m', x', hs', hq, ?_⟩, ?_⟩))
    · exact .step m hafter hs hy
    · exact hx.of_walked hwalked hcourse hy

lemma walked_along (hw : Walked v.course w₁.course) (hl : w₁.course.Linked)
    (ho : w₁.course.Ordered) (h : Along step (fun x => x.course.OnlyWrites) w₁ w₂) :
    w₂.course.Linked ∧ w₂.course.Ordered ∧ Walked v.course w₂.course := by
  refine h.keeps (I := fun x => x.course.Linked ∧ x.course.Ordered ∧ Walked v.course x.course)
    (fun _ => ⟨hl, ho, hw⟩) fun x m y _ ⟨hl, ho, hw⟩ hs hy => ?_
  have hcourse := step_course hs
  refine ⟨hl.step hcourse, ho.step hl hcourse fun u hu => ?_, hw.step hl ho hcourse hy.quiet⟩
  cases hy u _ hu

/-- An offer looks at the room alone, whatever the phase has become since the check. -/
lemma exists_offer {s : Submission σ V} {k : Nat}
    (hu : w.calls.get? u = some (.writing s (.offering k)))
    (hroom : w.queue.items.length < w.queue.queue.capacity) :
    ∃ x, w.step (.run u) = some x ∧ x.phase = w.phase ∧ x.queue.items = w.queue.items ++ [k] ∧
      x.calls = w.calls.put u (.writing s (.notifying k)) := by
  obtain ⟨q, hq⟩ := SharedQueue.exists_offer u k hroom
  refine ⟨({ w with queue := q } : Writer σ V).setCall u (.writing s (.notifying k)), ?_, rfl,
    (SharedQueue.offer_true hq).1, rfl⟩
  simp only [step, run, hu, stepCall, stepWrite, hq]

lemma exists_told {s : Submission σ V} {k : Nat} {deadline : Time}
    (hu : w.calls.get? u = some (.writing s (.waiting k deadline)))
    (hk : (w.cell k).status?.isSome = true) : ∃ x status, w.step (.run u) = some x ∧
      x.calls.get? u = some (.writing s (.told k status)) ∧ status ≠ .timeout := by
  obtain ⟨status, hstatus⟩ := Option.isSome_iff_exists.mp hk
  refine ⟨w.setCall u (.writing s (.told k status)), status, ?_, Roster.get?_put_self .., ?_⟩
  · simp only [step, run, hu, stepCall, stepWrite, hstatus]
  · rintro rfl
    unfold Cell.status? at hstatus
    split at hstatus
    · cases hstatus
    · split at hstatus <;> cases hstatus

lemma leftBehind_of_walked (hw : Walked v.course w.course) (hl : w.course.Linked)
    (ho : w.course.Ordered) (hq : w.course.OnlyWrites) : LeftBehind v w := by
  refine ⟨hw.closed, fun k hk => hw.released_iff ho hk, fun u s k deadline hu hk hv => ?_,
    fun u s k hu hroom => ?_⟩
  · exact exists_told hu ((hw.released_iff ho hk).mpr hv)
  obtain ⟨x, hs, hphase, hitems, hcalls⟩ := exists_offer hu hroom
  have hx : x.course.OnlyWrites := by
    intro y a ha
    change x.calls.get? y = some a at ha
    rw [hcalls, Roster.get?_put] at ha
    split at ha
    · exact Option.some.inj ha ▸ rfl
    · exact hq y a ha
  refine ⟨x, hs, hx, hphase, hitems, ?_⟩
  have hcourse := step_course hs
  have hox : x.course.Ordered := ho.step hl hcourse fun y hy => by cases hx y _ hy
  have hwx := hw.step hl ho hcourse hx.quiet
  -- the ticket was not accepted by the time of the walk
  have hnot : k ∉ v.course.accepted := fun hk => (ho.tickets.fresh u s k hu).2 (hw.kept k hk)
  have hk : k ∈ x.course.pending := by
    change k ∈ x.queue.items
    rw [hitems]
    exact List.mem_append_right _ List.mem_cons_self
  exact Option.not_isSome_iff_eq_none.mp fun hsome => hnot ((hwx.released_iff hox hk).mp hsome)

/-- Nothing enters on the way from a sealed writer on. -/
lemma accepted_of_sealed {x : Writer σ V} (hx : w.course.Halts t) (hsealed : w.course.Sealed)
    (h : Along step (fun x => x.course.OneStop t) w x) :
    x.course.Halts t ∧ x.course.Sealed ∧ x.queue.accepted = w.queue.accepted := by
  refine h.keeps (I := fun y => y.course.Halts t ∧ y.course.Sealed ∧
    y.queue.accepted = w.queue.accepted) (fun _ => ⟨hx, hsealed, rfl⟩)
    fun y m z _ ⟨hy, hsy, hacc⟩ hs hz => ?_
  obtain ⟨hsz, hsame⟩ := hsy.step hy.linked hy.startless (step_course hs)
  exact ⟨hy.step (step_course hs) hz, hsz, hsame.trans hacc⟩

lemma accepted_of_onlyWrites (hl : w₁.course.Linked) (hsealed : w₁.course.Sealed)
    (h : Along step (fun x => x.course.OnlyWrites) w₁ w₂) :
    w₂.queue.accepted = w₁.queue.accepted := by
  refine (h.keeps (I := fun y => y.course.Linked ∧ y.course.Sealed ∧
    y.queue.accepted = w₁.queue.accepted) (fun _ => ⟨hl, hsealed, rfl⟩)
    fun y m z hy ⟨hly, hsy, hacc⟩ hs _ => ?_).2.2
  obtain ⟨hsz, hsame⟩ := hsy.step hly (hly.startless_of_quiet hy.quiet) (step_course hs)
  exact ⟨hly.step (step_course hs), hsz, hsame.trans hacc⟩

/-- **Whom a stop releases.** A stop among writes that succeeds or is refused has walked over the
pending tickets. From its result on, those who wait for a pending ticket are released exactly if the
ticket was accepted before the walk; a write that has passed the check and has yet to make its offer
gets in all the same, and nobody releases its submitter. If no write is between its check and its
offer once the phase takes no new work, nothing gets in from there on. -/
theorem leftBehind_of_stop
    (hc : create config target factory resource now u j = (.ok w, j'))
    (hw : Along step Intact w w₀) (ht : w₀.calls.get? t = some (.stopping false))
    (hs : w₀.control.calls.get? t = some (.stop false .entering))
    (h₁ : Along step (fun x => x.course.OneStop t) w₀ w₁) {r : Except Failure (Option V)}
    (hr : w₁.calls.get? t = some (.ended r)) (he : ∀ e, r = .error e → ∃ f, e = .refused f)
    (h₂ : Along step (fun x => x.course.OnlyWrites) w₁ w₂) :
    (∃ v, Walks t w₀ v w₁ ∧ LeftBehind v w₂) ∧
      ∀ x, Along step (fun x => x.course.OneStop t) w₀ x →
        Along step (fun x => x.course.OneStop t) x w₁ → x.course.Sealed →
          w₂.queue.accepted = x.queue.accepted := by
  obtain ⟨hl, ho⟩ := ordered_of_run hc hw
  have h₀ : w₀.course.Halts t := ⟨hl, ho, h₁.start, fun _ => ⟨_, hs, .inl rfl⟩⟩
  obtain ⟨hhalts, hcase⟩ := stop_cases h₀ ht h₁
  refine ⟨?_, fun x hx hx₁ hsealed => ?_⟩
  · rcases hcase with hst | ⟨⟨after, hwalk⟩, -⟩ | ⟨e, hne, hend⟩ | ⟨v, hv, hwalked⟩
    · rw [hr] at hst
      cases hst
    · rw [hr] at hwalk
      cases hwalk
    · rw [hr, Option.some.injEq, CallOfWriter.ended.injEq] at hend
      obtain ⟨f, hf⟩ := he e hend
      exact absurd hf (hne f)
    · obtain ⟨hl₂, ho₂, hw₂⟩ := walked_along hwalked hhalts.linked hhalts.ordered h₂
      exact ⟨v, hv, leftBehind_of_walked hw₂ hl₂ ho₂ h₂.holds⟩
  · obtain ⟨h₁, hsealed₁, hsame⟩ := accepted_of_sealed (stop_cases h₀ ht hx).1 hsealed hx₁
    exact (accepted_of_onlyWrites h₁.linked hsealed₁ h₂).trans hsame

/-! ### A write that comes too late -/

def testOneStop (t : Thread) (x : Writer σ V) : Bool :=
  ((x.calls.get? t).map CallOfWriter.inStop).getD false &&
    x.calls.entries.all fun e => decide (e.1 = t) || e.2.inWrite

lemma oneStop_of_test {x : Writer σ V} (h : testOneStop t x = true) : x.course.OneStop t := by
  rw [testOneStop, Bool.and_eq_true] at h
  obtain ⟨hown, hothers⟩ := h
  refine ⟨?_, fun u a hu ha => ?_⟩
  · obtain ⟨a, ha⟩ : ∃ a, x.calls.get? t = some a := by
      refine Option.ne_none_iff_exists'.mp fun hn => ?_
      rw [hn] at hown
      cases hown
    rw [ha] at hown
    exact ⟨a, ha, hown⟩
  · have := Roster.of_all (p := fun u a => decide (u = t) || a.inWrite) hothers ha
    rw [Bool.or_eq_true, decide_eq_true_eq] at this
    exact this.resolve_left hu

/-- A start, a write up to its offer, and the beginning of a stop. -/
def untilStop : List (Move Nat Unit) :=
  startUp ++ write 1 (.ret ()) 1000 2 ++ [.request 2 .stop]

/-- The stop up to its result. -/
def stopOnly : List (Move Nat Unit) :=
  goOn (.client 2) 3 ++ goOn (.worker 0) 5 ++ goOn (.client 2) 5

/-- The rest of the write, up to the end of its wait. -/
def lateOffer : List (Move Nat Unit) :=
  goOn (.client 1) 3 ++ [.pass 1000000000] ++ goOn (.client 1) 1

lemma exists_lateOffer : ∃ (w w₀ w₁ w₂ : Writer Nat Unit) (j : Journal),
    create {} "target" none 0 0 (.client 0) {} = (.ok w, j) ∧ Along step Intact w w₀ ∧
      (w₀.calls.get? (.client 2) = some (.stopping false) ∧
        w₀.control.calls.get? (.client 2) = some (.stop false .entering)) ∧
      Along step (fun x => x.course.OneStop (.client 2)) w₀ w₁ ∧
      (w₁.calls.get? (.client 2) = some (.ended (.ok none)) ∧ w₁.phase = .terminated ∧
        w₁.queue.items = []) ∧
      Along step (fun x => x.course.OnlyWrites) w₁ w₂ ∧
      w₂.phase = .terminated ∧ w₂.queue.items = [0] ∧ (w₂.cell 0).status? = none ∧
      (w₂.calls.entries.all fun e => !e.2.admitted) = true ∧
      w₂.calls.get? (.client 1) = some (.writing { work := .ret (), id := "task", wait := 1000 }
        (.told 0 .timeout)) := by
  obtain ⟨w, j, hc⟩ : ∃ (w : Writer Nat Unit) (j : Journal),
      create {} "target" none 0 0 (.client 0) {} = (.ok w, j) := ⟨_, _, rfl⟩
  obtain ⟨w₀, hw, hw₀⟩ : ∃ w₀, Along step
      (fun x => (x.calls.entries.all fun e => untouching e.1 e.2) = true) w w₀ ∧
      (w₀.calls.get? (.client 2), w₀.control.calls.get? (.client 2),
        (follow step (testOneStop (.client 2)) w₀ stopOnly).map fun w₁ =>
          (w₁.calls.get? (.client 2), w₁.phase, w₁.queue.items,
            (follow step (fun x => x.calls.entries.all fun e => e.2.inWrite) w₁ lateOffer).map
              fun w₂ => (w₂.phase, w₂.queue.items, (w₂.cell 0).status?,
                (w₂.calls.entries.all fun e => !e.2.admitted), w₂.calls.get? (.client 1)))) =
      (some (.stopping false), some (.stop false .entering),
        some (some (.ended (.ok none)), .terminated, [],
          some (.terminated, [0], none, true, some (.writing
            { work := .ret (), id := "task", wait := 1000 } (.told 0 .timeout))))) := by
    cases hc
    exact exists_along untilStop rfl
  simp only [Prod.mk.injEq] at hw₀
  obtain ⟨ht, hs, hmore⟩ := hw₀
  obtain ⟨w₁, h₁, hw₁⟩ := exists_along _ hmore
  simp only [Prod.mk.injEq] at hw₁
  obtain ⟨hr, hp₁, hi₁, hmore⟩ := hw₁
  obtain ⟨w₂, h₂, hw₂⟩ := exists_along _ hmore
  simp only [Prod.mk.injEq] at hw₂
  obtain ⟨hp₂, hi₂, hn, ha, hwait⟩ := hw₂
  refine ⟨w, w₀, w₁, w₂, j, hc, hw.mono fun x hx t ht => (nomatch Roster.of_all hx ht), ⟨ht, hs⟩,
    h₁.mono fun x hx => oneStop_of_test hx, ⟨hr, hp₁, hi₁⟩, h₂.mono fun x hx u a hu => ?_,
    hp₂, hi₂, hn, ha, hwait⟩
  exact Roster.of_all (p := fun _ a => a.inWrite) hx hu

/-- What the stop in these runs has left behind: a ticket that nobody releases. -/
theorem leftBehind_of_lateOffer : ∃ w₀ v w₁ w₂ : Writer Nat Unit, Walks (.client 2) w₀ v w₁ ∧
    LeftBehind v w₂ ∧ w₂.queue.items = [0] ∧ 0 ∉ v.queue.accepted := by
  obtain ⟨w, w₀, w₁, w₂, j, hc, hw, ⟨ht, hs⟩, h₁, ⟨hr, -, -⟩, h₂, -, hi, hn, -, -⟩ :=
    exists_lateOffer
  obtain ⟨⟨v, hv, hleft⟩, -⟩ := leftBehind_of_stop hc hw ht hs h₁ hr nofun h₂
  refine ⟨w₀, v, w₁, w₂, hv, hleft, hi, fun hk => ?_⟩
  have := (hleft.released_iff 0 (hi ▸ List.mem_cons_self)).mpr hk
  rw [hn] at this
  cases this

/-- **A stop can forget a submitter.** A write passes the check of the phase; a stop succeeds, with
nothing pending; then the write makes its offer, which the terminated writer accepts, and waits
until its time runs out. -/
theorem stop_forgets : ∃ (w w₀ w₁ w₂ : Writer Nat Unit) (j : Journal),
    create {} "target" none 0 0 (.client 0) {} = (.ok w, j) ∧ Along step Intact w w₀ ∧
      w₀.calls.get? (.client 2) = some (.stopping false) ∧
      Along step (fun x => x.course.OneStop (.client 2)) w₀ w₁ ∧
      w₁.calls.get? (.client 2) = some (.ended (.ok none)) ∧
      Along step (fun x => x.course.OnlyWrites) w₁ w₂ ∧
      (∀ u a, w₂.calls.get? u = some a → a.admitted = false) ∧
      -- the offer has been accepted after the end of the writer
      (w₁.phase = .terminated ∧ w₁.queue.items = [] ∧ w₂.phase = .terminated ∧
        w₂.queue.items = [0]) ∧
      -- its submitter has not been released, and has been told so
      (w₂.cell 0).status? = none ∧
        ∃ s, w₂.calls.get? (.client 1) = some (.writing s (.told 0 .timeout)) := by
  obtain ⟨w, w₀, w₁, w₂, j, hc, hw, ⟨ht, -⟩, h₁, ⟨hr, hp₁, hi₁⟩, h₂, hp₂, hi₂, hn, ha, hwait⟩ :=
    exists_lateOffer
  refine ⟨w, w₀, w₁, w₂, j, hc, hw, ht, h₁, hr, h₂, fun u a hu => ?_, ⟨hp₁, hi₁, hp₂, hi₂⟩, hn, _,
    hwait⟩
  have := Roster.of_all (p := fun _ a => !a.admitted) ha hu
  rwa [Bool.not_eq_true'] at this

end Writer

end SerialWriter
