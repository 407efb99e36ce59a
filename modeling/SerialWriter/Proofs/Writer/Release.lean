import SerialWriter.Proofs.Writer.Refinement
import SerialWriter.Proofs.Writer.Stops

/-!
How a stop leaves the queue, whichever way it exits: nothing but the worker takes tickets out of it,
and all that are left are released, unless the fault of a line of the control has broken the stop
off before its walk.
-/

namespace SerialWriter

variable {σ V : Type}

open Writer (Event)

/-- A write that has yet to make its offer. -/
def CallOfWriter.unentered : CallOfWriter σ V → Bool
  | .writing _ .checking | .writing _ .creating | .writing _ (.offering _) => true
  | _ => false

/-- The ticket that a worker dequeues. -/
def Writer.Event.took? : Event σ V → Option Nat
  | .took _ k => some k
  | _ => none

def taken (es : List (Event σ V)) : List Nat := es.filterMap Event.took?

lemma taken_append (es : List (Event σ V)) (ev : Option (Event σ V)) :
    taken (es ++ ev.toList) = taken es ++ (ev.bind Event.took?).toList :=
  filterMap_append_toList ..

/-! ### What is left of the queue -/

namespace Affairs

variable {c d e : Affairs σ V} {es : List (Event σ V)} {ev : Option (Event σ V)}

/-- **What is left in `d` of the queue of `c`**, with what has been noted in between: what was
pending without what workers have dequeued, released by any walk. -/
structure Leaves (c : Affairs σ V) (es : List (Event σ V)) (d : Affairs σ V) : Prop where
  accepted : d.accepted = c.accepted
  pending : c.pending = taken es ++ d.pending
  interrupted : ∀ k ∈ d.pending, (cellAt d.envelopes k).interrupted = true ↔
    (cellAt c.envelopes k).interrupted = true ∨ ∃ t l, .walked t l ∈ es

namespace Leaves

/-- A step that is no walk and leaves the cells of pending tickets as they are. -/
lemma quiet (h : c.Leaves es d) (ha : e.accepted = d.accepted)
    (hp : d.pending = (ev.bind Event.took?).toList ++ e.pending)
    (hw : ∀ t l, ev ≠ some (.walked t l))
    (hcell : ∀ k ∈ e.pending, (cellAt e.envelopes k).interrupted =
      (cellAt d.envelopes k).interrupted) : c.Leaves (es ++ ev.toList) e := by
  refine ⟨ha.trans h.accepted, ?_, fun k hk => ?_⟩
  · rw [taken_append, List.append_assoc, ← hp]
    exact h.pending
  · have hpending : k ∈ d.pending := hp ▸ List.mem_append_right _ hk
    rw [hcell k hk, h.interrupted k hpending]
    refine or_congr Iff.rfl ⟨fun ⟨t, l, hin⟩ => ⟨t, l, List.mem_append_left _ hin⟩, ?_⟩
    rintro ⟨t, l, hin⟩
    exact ⟨t, l, (mem_append_toList.mp hin).resolve_right (hw t l)⟩

theorem step (h : c.Leaves es d) (hsane : d.Sane)
    (hrun : ∀ n k b, d.cycles.get? (.worker n) = some (.running k b) → k ∉ d.pending)
    (hs : d.Step ev e) (hd : ∀ t a, d.calls.get? t = some a → a.unentered = false)
    (he : ∀ t, e.calls.get? t ≠ some .releasing) : c.Leaves (es ++ ev.toList) e := by
  cases hs with
  | @walks t _ _ _ _ =>
    refine ⟨h.accepted, ?_, fun k hk => ?_⟩
    · rw [taken_append]
      exact (List.append_nil (taken es)).symm ▸ h.pending
    · have hcell : (cellAt (interruptAt d.envelopes d.pending) k).interrupted = true := by
        rw [cellAt_interruptAt, if_pos ⟨hk, hsane.known_pending hk⟩]
        rfl
      exact ⟨fun _ => .inr ⟨t, d.pending, List.mem_append_right _ List.mem_cons_self⟩,
        fun _ => hcell⟩
  | clears _ => exact absurd (Roster.get?_put_self ..) (he _)
  | makes ht _ => exact nomatch hd _ _ ht
  | offers ht => exact nomatch hd _ _ ht
  | takes _ hp => exact h.quiet rfl hp nofun fun _ _ => rfl
  | collects _ _ =>
    exact h.quiet rfl rfl nofun fun _ _ =>
      apply_cellAt_take Cell.interrupted (fun _ => rfl) ..
  | @body n i _ _ _ _ act hy _ _ =>
    refine h.quiet rfl ?_ (fun t l => ?_) fun k hk => ?_
    · cases act <;> rfl
    · cases act <;> exact nofun
    · -- the ticket in hand is not pending any more
      change (cellAt (changeCellAt d.envelopes i act.change) k).interrupted = _
      rw [cellAt_changeCellAt_ne]
      rintro rfl
      exact hrun n k _ hy hk
  | _ => exact h.quiet rfl rfl nofun fun _ _ => rfl

end Leaves

end Affairs

/-! ### Runs beside a stop -/

namespace Writer

variable {w₀ w v : Writer σ V} {es : List (Event σ V)} {config : Config} {target : String}
  {factory : Option (Factory σ)} {resource : σ} {now : Time} {t u : Thread} {j j' : Journal}

/-- `t` is in its call, no write has yet to make its offer, and no destruction has dropped the
pending tickets. -/
structure Undisturbed (t : Thread) (w : Writer σ V) : Prop where
  calling : (w.calls.get? t).isSome = true
  entered : ∀ u a, w.calls.get? u = some a → a.unentered = false
  intact : w.Intact

theorem leaves_of_run (hl : w₀.course.Linked) (ho : w₀.course.Ordered)
    (h : Chronicle step note (Undisturbed t) w₀ es w) :
    (w.course.Linked ∧ w.course.Ordered) ∧ w₀.affairs.Leaves es w.affairs := by
  induction h with
  | refl _ =>
    refine ⟨⟨hl, ho⟩, rfl, rfl, fun k _ => ⟨.inl, fun hk => hk.resolve_right ?_⟩⟩
    rintro ⟨u, l, hin⟩
    cases hin
  | step m h hs hv ih =>
    obtain ⟨⟨hl, ho⟩, hleaves⟩ := ih
    have hcourse := step_course hs
    refine ⟨⟨hl.step hcourse, ho.step hl hcourse hv.intact⟩,
      hleaves.step (sane_of_ordered hl ho) (fun n k b hy => ?_) (affairs_of_step hl hs)
        h.along.holds.entered hv.intact⟩
    obtain ⟨-, hremoved, -, -⟩ := ho.running hy
    exact fun hk => ho.pending_not_removed hk (hremoved ▸ List.mem_cons_self)

lemma StopSoFar.exit {control : Prop} {broken : Failure → Prop} {walks : List (List Nat)}
    {closing : Bool} {r : Except Failure Unit}
    (h : StopSoFar control broken walks (CallOfWriter.afterStop closing r : CallOfWriter σ V)) :
    (∃ l, walks = [l]) ∨ walks = [] ∧ ∃ e, r = .error e ∧ broken e := by
  cases closing with
  | false =>
    refine h.imp id fun ⟨hw, e, he, hb⟩ => ⟨hw, e, ?_, hb⟩
    cases r with
    | ok _ => cases he
    | error _ =>
      cases he
      rfl
  | true =>
    cases r with
    | ok _ => exact .inl h
    | error e =>
      cases e with
      | refused r => exact .inl h
      | _ =>
        refine h.imp id fun ⟨hw, e, he, hb⟩ => ⟨hw, e, ?_, hb⟩
        cases he
        rfl

/-- **How the stop of `t` that exits with `r` has left the queue**, from `w₀` to `w`. -/
structure Exits (t : Thread) (r : Except Failure Unit) (w₀ : Writer σ V) (es : List (Event σ V))
    (w : Writer σ V) : Prop where
  /-- Nothing has been accepted. -/
  accepted : w.queue.accepted = w₀.queue.accepted
  /-- What was pending is pending in the same order, but for what workers have dequeued. -/
  pending : w₀.queue.items = taken es ++ w.queue.items
  /-- Of those who wait for it, all have been released by a walk, its own or another, or were so
  before. -/
  interrupted : ∀ k ∈ w.queue.items, (w.cell k).interrupted = true ↔
    (w₀.cell k).interrupted = true ∨ ∃ u l, .walked u l ∈ es
  /-- The stop has walked over the queue once, and all who wait are released; or else it exits with
  the fault of a line of the control, and has not walked. -/
  walked : ((∃ l, walksOf t es = [l]) ∧
      ∀ k ∈ w.queue.items, (w.cell k).status? = some .interrupted) ∨
    walksOf t es = [] ∧ r = .error Journal.fault ∧
      BrokenOff (Undisturbed t) t w₀ w Journal.fault

/-- **Who is released when a stop exits.** A stop, also that of a destruction, may find the writer
in any state, and may succeed, be refused or fail by any of the lines on its way; others may start
and stop the writer meanwhile. If no write has yet to make its offer, then at its exit the queue is
what the workers have left of it; and all who wait for what is left are released, unless one of the
lines that the control logs on behalf of the stop has failed. -/
theorem released_of_stop (hc : create config target factory resource now u j = (.ok v, j'))
    (hv : Along step Intact v w₀) {closing : Bool} {s : StopStage}
    (ht : w₀.calls.get? t = some (.stopping closing))
    (hs : w₀.control.calls.get? t = some (.stop false s))
    (h : Chronicle step note (Undisturbed t) w₀ es w) {r : Except Failure Unit}
    (hr : w.calls.get? t = some (.afterStop closing r)) : Exits t r w₀ es w := by
  obtain ⟨hl, ho⟩ := ordered_of_run hc hv
  obtain ⟨⟨-, ho'⟩, hleaves⟩ := leaves_of_run hl ho h
  obtain ⟨-, a, ha, hsofar⟩ := stop_of_run (fun x hx => ⟨hx.calling, hx.intact t⟩) hl ht hs h
  rw [hr, Option.some.injEq] at ha
  subst ha
  refine ⟨hleaves.accepted, hleaves.pending, hleaves.interrupted, ?_⟩
  rcases hsofar.exit with ⟨l, hwalk⟩ | ⟨hwalk, e, he, hbroken⟩
  · refine .inl ⟨⟨l, hwalk⟩, fun k hk => ?_⟩
    have hin : .walked t l ∈ es := by
      obtain ⟨e, he, hwe⟩ := List.mem_filterMap.mp (hwalk ▸ List.mem_cons_self : l ∈ walksOf t es)
      exact Event.walkOf?_eq_some_iff.mp hwe ▸ he
    have hready : (w.cell k).ready = false := ho'.not_ready_of_pending hk
    have hinterrupted : (w.cell k).interrupted = true :=
      (hleaves.interrupted k hk).mpr (.inr ⟨t, l, hin⟩)
    simp only [Cell.status?, hready, hinterrupted, Bool.false_eq_true, if_false, if_true]
  · obtain ⟨x, y, -, ⟨-, -, n, -, hline⟩, -⟩ := id hbroken
    obtain rfl := Journal.eq_fault hline
    exact .inr ⟨hwalk, he, hbroken⟩

/-! ### Two stops that a line fails -/

def testUndisturbed (t : Thread) (x : Writer σ V) : Bool :=
  (x.calls.get? t).isSome && x.calls.entries.all fun e => !e.2.unentered && untouching e.1 e.2

lemma undisturbed_of_test {x : Writer σ V} (h : testUndisturbed t x = true) : x.Undisturbed t := by
  rw [testUndisturbed, Bool.and_eq_true] at h
  obtain ⟨hcalling, hall⟩ := h
  have htest : ∀ {u a}, x.calls.get? u = some a → (!a.unentered && untouching u a) = true :=
    Roster.of_all (p := fun u a => !a.unentered && untouching u a) hall
  refine ⟨hcalling, fun u a ha => ?_, fun u hu => nomatch htest hu⟩
  have hentered := (Bool.and_eq_true_iff.mp (htest ha)).1
  rwa [Bool.not_eq_true'] at hentered

/-- A start, two writes that nobody waits for, and the beginning of a stop, during which the line
with the given text is going to fail. -/
def untilFailing (needle : String) : List (Move Nat Unit) :=
  startUp ++ submit 1 (.ret ()) ++ submit 2 (.ret ()) ++ [.arm needle, .request 0 .stop]

/-- The stop up to its last line but one; the worker ends with the first task. -/
def wholeStop : List (Move Nat Unit) :=
  goOn (.client 0) 3 ++ goOn (.worker 0) 14 ++ goOn (.client 0) 5

/-- The line about the tasks that stay unexecuted fails: the stop fails with it, and has released
those who wait. -/
theorem released_of_lastLine : ∃ (v w₀ w : Writer Nat Unit) (es : List (Event Nat Unit))
    (j : Journal), create {} "target" none 0 0 (.client 0) {} = (.ok v, j) ∧
      Along step Intact v w₀ ∧ w₀.queue.items = [0, 1] ∧
      (w.calls.get? (.client 0) = some (.ended (.error Journal.fault)) ∧ w.queue.items = [1] ∧
        walksOf (.client 0) es = [[1]]) ∧
      Exits (.client 0) (.error Journal.fault) w₀ es w := by
  obtain ⟨v, j, hc⟩ : ∃ (v : Writer Nat Unit) (j : Journal),
      create {} "target" none 0 0 (.client 0) {} = (.ok v, j) := ⟨_, _, rfl⟩
  obtain ⟨w₀, hv, hs⟩ : ∃ w₀, Along step
      (fun x => (x.calls.entries.all fun e => untouching e.1 e.2) = true) v w₀ ∧
      (w₀.queue.items, w₀.calls.get? (.client 0), w₀.control.calls.get? (.client 0),
        (record step note (testUndisturbed (.client 0)) w₀ wholeStop).map fun r =>
          (r.2.calls.get? (.client 0), r.2.queue.items, walksOf (.client 0) r.1)) =
      ([0, 1], some (.stopping false), some (.stop false .entering),
        some (some (.ended (.error Journal.fault)), [1], [[1]])) := by
    cases hc
    exact exists_along (untilFailing "stay unexecuted") rfl
  have hv : Along step Intact v w₀ := hv.mono fun x hx t ht => nomatch Roster.of_all hx ht
  simp only [Prod.mk.injEq] at hs
  obtain ⟨hitems, ht, hst, hmore⟩ := hs
  obtain ⟨⟨es, w⟩, hw, hseen⟩ := Option.map_eq_some_iff.mp hmore
  simp only [Prod.mk.injEq] at hseen
  have hw := (chronicle_of_record hw).mono fun x hx => undisturbed_of_test hx
  exact ⟨v, w₀, w, es, j, hc, hv, hitems, hseen,
    released_of_stop hc hv ht hst hw (r := .error Journal.fault) hseen.1⟩

/-- **A stop can release nobody.** The line about the change to the stopping phase fails, and the
stop with it, at once: two tickets are pending, no write is in progress, and nobody is released. The
worker ends as if nothing were amiss, with the first task, and then the writer is terminated with a
ticket that nobody has released. -/
theorem stop_releases_nobody : ∃ (v w₀ w₁ w₂ : Writer Nat Unit) (j : Journal),
    create {} "target" none 0 0 (.client 0) {} = (.ok v, j) ∧ Along step Intact v w₀ ∧
      (w₀.calls.get? (.client 0) = some (.stopping false) ∧
        w₀.control.calls.get? (.client 0) = some (.stop false .entering)) ∧
      Along step (fun x => ∀ u a, x.calls.get? u = some a → a.isWrite = false) w₀ w₁ ∧
      -- the stop exits
      (w₁.calls.get? (.client 0) = some (.ended (.error Journal.fault)) ∧
        w₁.phase = .stopping ∧ w₁.queue.items = [0, 1] ∧
        (w₁.cell 0).interrupted = false ∧ (w₁.cell 1).interrupted = false) ∧
      -- the worker ends
      Along step (fun x => ∀ u a, x.calls.get? u = some a → a.isWrite = false) w₁ w₂ ∧
      w₂.phase = .terminated ∧ w₂.queue.items = [1] ∧ (w₂.cell 1).status? = none := by
  obtain ⟨v, j, hc⟩ : ∃ (v : Writer Nat Unit) (j : Journal),
      create {} "target" none 0 0 (.client 0) {} = (.ok v, j) := ⟨_, _, rfl⟩
  let unwritten (x : Writer Nat Unit) : Bool := x.calls.entries.all fun e => !e.2.isWrite
  have hunwritten : ∀ x : Writer Nat Unit, unwritten x = true →
      ∀ u a, x.calls.get? u = some a → a.isWrite = false := by
    intro x hx u a ha
    have htest := Roster.of_all (p := fun _ a => !CallOfWriter.isWrite a) hx ha
    rwa [Bool.not_eq_true'] at htest
  obtain ⟨w₀, hv, hs⟩ : ∃ w₀, Along step
      (fun x => (x.calls.entries.all fun e => untouching e.1 e.2) = true) v w₀ ∧
      (w₀.calls.get? (.client 0), w₀.control.calls.get? (.client 0),
        (follow step unwritten w₀ (goOn (.client 0) 2)).map fun w₁ =>
          ((w₁.calls.get? (.client 0), w₁.phase, w₁.queue.items, (w₁.cell 0).interrupted,
            (w₁.cell 1).interrupted),
            (follow step unwritten w₁ (goOn (.worker 0) 14)).map fun w₂ =>
              (w₂.phase, w₂.queue.items, (w₂.cell 1).status?))) =
      (some (.stopping false), some (.stop false .entering),
        some ((some (.ended (.error Journal.fault)), .stopping, [0, 1], false, false),
          some (.terminated, [1], none))) := by
    cases hc
    exact exists_along (untilFailing "RUNNING -> STOPPING") rfl
  simp only [Prod.mk.injEq] at hs
  obtain ⟨ht, hst, hmore⟩ := hs
  obtain ⟨w₁, h₁, hseen₁⟩ := exists_along _ hmore
  simp only [Prod.mk.injEq] at hseen₁
  obtain ⟨hseen, hmore⟩ := hseen₁
  obtain ⟨w₂, h₂, hend⟩ := exists_along _ hmore
  simp only [Prod.mk.injEq] at hend
  exact ⟨v, w₀, w₁, w₂, j, hc, hv.mono fun x hx t ht => (nomatch Roster.of_all hx ht), ⟨ht, hst⟩,
    h₁.mono hunwritten, hseen, h₂.mono hunwritten, hend⟩

end Writer

end SerialWriter
