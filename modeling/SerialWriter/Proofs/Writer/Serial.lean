import SerialWriter.Proofs.Writer.Order

/-!
First in, first out, and exactly once: over every run of a writer up to its destruction, the
tickets accepted are run in order, each of them once and none beside another, and a ticket whose
offer failed is never run.
-/

namespace SerialWriter

variable {σ V : Type}

/-! ### What a move can do to the tickets -/

/-- What has happened to the tickets so far, the latest first. -/
structure Past where
  /-- How many envelopes have been made. -/
  made : Nat
  accepted : List Nat
  removed : List Nat
  begun : List Nat
  done : List Nat

/-- What has happened to the tickets of a course. -/
def Course.past (c : Course σ V) : Past :=
  ⟨c.envelopes.size, c.accepted, c.removed, c.begun, c.done⟩

/-- **What a step can do to the tickets.** -/
inductive Course.Turn (c d : Course σ V) : Prop
  | quiet (h : d.past = c.past)
  /-- A write that has passed the check of the phase gets a ticket, which it offers next. -/
  | makes {t : Thread} {s : Submission σ V} (hs : c.calls.get? t = some (.writing s .creating))
      (hs' : d.calls.get? t = some (.writing s (.offering c.envelopes.size)))
      (h : d.past = { c.past with made := c.envelopes.size + 1 })
  /-- An offer succeeds. -/
  | accepts {t : Thread} {s : Submission σ V} {k : Nat}
      (hs : c.calls.get? t = some (.writing s (.offering k)))
      (h : d.past = { c.past with accepted := k :: c.accepted })
  /-- A worker dequeues the oldest ticket; all that were dequeued before it have been run. -/
  | takes {n k : Nat} {rest : List Nat} (hp : c.pending = k :: rest)
      (hy : d.cycles.get? (.worker n) = some (.dequeued k)) (hd : c.done = c.removed)
      (h : d.past = { c.past with removed := k :: c.removed })
  /-- The run of the ticket in hand begins. -/
  | begins {n k : Nat} (hy : c.cycles.get? (.worker n) = some (.dequeued k))
      (h : d.past = { c.past with begun := k :: c.begun })
  /-- The run of the ticket in hand ends. -/
  | ends {n k : Nat} {b : BodyStage σ V}
      (hy : c.cycles.get? (.worker n) = some (.running k b))
      (h : d.past = { c.past with done := k :: c.done })

lemma Course.Ordered.turn {c d : Course σ V} (h : c.Ordered) (hl : c.Linked) (hs : c.Step d)
    (hd : ∀ t, d.calls.get? t ≠ some .releasing) : c.Turn d := by
  cases hs with
  | @clears t _ => exact absurd (Roster.get?_put_self ..) (hd t)
  | walks _ _ => exact .quiet (by simp only [past, size_interruptAt])
  | @makes t s e ha _ =>
    exact .makes ha (Roster.get?_put_self ..) (by simp only [past, Array.size_push])
  | offers ha => exact .accepts ha rfl
  | collects _ => exact .quiet (by simp only [past, size_changeCellAt])
  | takes hw hy hp =>
    obtain ⟨-, hdn⟩ := h.runs.rest hy fun m hm => hl.others hw hm
    exact .takes hp (Roster.get?_put_self ..) hdn rfl
  | opens hy => exact .begins hy rfl
  | body _ _ _ => exact .quiet (by simp only [past, size_changeCellAt])
  | finishes hy _ => exact .ends hy rfl
  | breaks _ hy _ => exact .ends hy rfl
  | _ => exact .quiet rfl

/-! ### Tickets that are lost -/

/-- The ticket has been offered in vain. -/
structure Course.Lost (c : Course σ V) (k : Nat) : Prop where
  made : k < c.envelopes.size
  refused : k ∉ c.accepted
  unoffered : ∀ t s, c.calls.get? t ≠ some (.writing s (.offering k))

namespace Course.Lost

variable {c d : Course σ V} {k : Nat}

lemma put {calls : Roster (CallOfWriter σ V)} {t : Thread} {a : CallOfWriter σ V}
    (h : ∀ u s, calls.get? u ≠ some (.writing s (.offering k)))
    (ha : ∀ s, a ≠ .writing s (.offering k)) (u : Thread) (s : Submission σ V) :
    (calls.put t a).get? u ≠ some (.writing s (.offering k)) := by
  rw [Roster.get?_put]
  split
  · exact fun he => ha s (Option.some.inj he)
  · exact h u s

lemma drop {calls : Roster (CallOfWriter σ V)} {t : Thread}
    (h : ∀ u s, calls.get? u ≠ some (.writing s (.offering k))) (u : Thread)
    (s : Submission σ V) : (calls.drop t).get? u ≠ some (.writing s (.offering k)) := by
  rw [Roster.get?_drop]
  split
  · exact fun he => nomatch he
  · exact h u s

theorem step (h : c.Lost k) (hs : c.Step d) : d.Lost k := by
  have hu := h.unoffered
  cases hs with
  | rests => exact h
  | control _ _ _ => exact ⟨h.made, h.refused, hu⟩
  | requests _ ha => exact ⟨h.made, h.refused, put hu (ha.ne_offering · k)⟩
  | enters _ ha _ =>
    have ha := CallOfWriter.admitted_of_inControl ha
    exact ⟨h.made, h.refused, put hu (CallOfWriter.ne_offering ha · k)⟩
  | acknowledges _ => exact ⟨h.made, h.refused, drop hu⟩
  | leaves _ _ _ =>
    refine ⟨h.made, h.refused, put hu fun s => ?_⟩
    exact CallOfWriter.ne_offering (CallOfWriter.admitted_afterControl ..) s k
  | walks _ ha =>
    exact ⟨(size_interruptAt ..).symm ▸ h.made, h.refused, put hu (ha.ne_offering · k)⟩
  | goes _ _ ha => exact ⟨h.made, h.refused, put hu (ha.ne_offering · k)⟩
  | discards _ => exact ⟨h.made, h.refused, put hu fun _ => nofun⟩
  | stops _ => exact ⟨h.made, h.refused, put hu fun _ => nofun⟩
  | clears _ => exact ⟨h.made, h.refused, put hu fun _ => nofun⟩
  | admits _ _ => exact ⟨h.made, h.refused, put hu fun _ => nofun⟩
  | @makes t s e ha he =>
    -- the ticket that is made now is a later one
    have hmade := h.made
    refine ⟨?_, h.refused, put hu fun s' hs' => ?_⟩
    · change k < (c.envelopes.push e).size
      rw [Array.size_push]
      omega
    · rw [CallOfWriter.writing.injEq, WriteStage.offering.injEq] at hs'
      omega
  | @offers t s i ha =>
    refine ⟨h.made, fun hk => ?_, put hu fun _ => nofun⟩
    rcases List.mem_cons.mp hk with rfl | hk
    · exact hu t s ha
    · exact h.refused hk
  | collects _ =>
    exact ⟨(size_changeCellAt ..).symm ▸ h.made, h.refused, put hu fun _ => nofun⟩
  | body _ _ _ => exact ⟨(size_changeCellAt ..).symm ▸ h.made, h.refused, hu⟩
  | bodyEnters _ _ ha _ =>
    have ha := CallOfWriter.admitted_of_inControl ha
    exact ⟨h.made, h.refused, put hu (CallOfWriter.ne_offering ha · k)⟩
  | bodyWrites _ _ => exact ⟨h.made, h.refused, put hu fun _ => nofun⟩
  | bodyReturns _ _ => exact ⟨h.made, h.refused, drop hu⟩
  | _ => exact ⟨h.made, h.refused, hu⟩

end Course.Lost

/-! ### Runs -/

namespace Writer

variable {w₀ w v : Writer σ V} {config : Config} {target : String} {factory : Option (Factory σ)}
  {resource : σ} {now : Time} {t : Thread} {j j' : Journal}

/-- No destruction has dropped the pending tickets. -/
def Intact (w : Writer σ V) : Prop := ∀ t, w.calls.get? t ≠ some .releasing

lemma course_of_create (h : create config target factory resource now t j = (.ok w, j')) :
    w.course = { control := { config }, pending := [], accepted := [], removed := []
                 envelopes := #[], calls := {}, cycles := {}, begun := [], done := [] } := by
  unfold create at h
  split at h
  · cases h
  · split at h
    · cases h
    · cases h
      rfl

theorem ordered_of_run (hc : create config target factory resource now t j = (.ok w₀, j'))
    (h : Along step Intact w₀ w) : w.course.Linked ∧ w.course.Ordered := by
  refine h.keeps (I := fun u => u.course.Linked ∧ u.course.Ordered) (fun _ => ?_)
    fun u m v _ ⟨hl, ho⟩ hs hv => ?_
  · rw [course_of_create hc]
    refine ⟨⟨.init config, fun t => ⟨nofun, nofun, nofun⟩⟩, rfl,
      ⟨List.nodup_nil, nofun, nofun, nofun⟩, ⟨nofun, fun _ => ⟨rfl, rfl⟩⟩, fun k hk => ?_,
      fun k hk => ?_⟩
    · cases hk
    · cases hk
  · exact ⟨hl.step (step_course hs), ho.step hl (step_course hs) hv⟩

lemma course_of_losing {s : Submission σ V} {k : Nat}
    (ht : w.calls.get? t = some (.writing s (.offering k))) (h : w.step (.run t) = some v)
    (hv : v.calls.get? t = some (.writing s .losing)) :
    v.course = { w.course with calls := w.course.calls.put t (.writing s .losing) } := by
  cases callMoves_of_run ht nofun h with
  | inside hi _ | leaves hi _ => cases hi
  | logs hx _ => cases hx
  | offers _ => cases (Roster.get?_put_self ..).symm.trans hv
  | misses _ => rfl

/-- **A ticket offered in vain is lost.** -/
lemma lost_of_losing {s : Submission σ V} {k : Nat}
    (hk : Tickets w.queue.accepted w.envelopes.size w.calls)
    (ht : w.calls.get? t = some (.writing s (.offering k))) (hs : w.step (.run t) = some v)
    (hv : v.calls.get? t = some (.writing s .losing)) : v.course.Lost k := by
  obtain ⟨hmade, hnot⟩ := hk.fresh t s k ht
  rw [course_of_losing ht hs hv]
  refine ⟨hmade, hnot, fun u s' hu => ?_⟩
  rw [Roster.get?_put] at hu
  split at hu
  · cases hu
  · rename_i hut
    exact hut (hk.apart u t s' s k hu ht)

/-- **First in, first out, and exactly once**, up to a state and across every move out of it. -/
structure Serial (w : Writer σ V) : Prop where
  /-- The tickets accepted so far are those dequeued so far and then those pending. -/
  fifo : w.queue.accepted.reverse = w.queue.removed.reverse ++ w.queue.items
  once : w.queue.accepted.Nodup
  /-- Every ticket dequeued has been run, in that order; the run of the last one may be about to
  begin, or may not have ended. -/
  progress : w.begun = w.queue.removed ∧ w.done = w.queue.removed ∨
    (∃ n k, w.cycles.get? (.worker n) = some (.dequeued k) ∧ w.queue.removed = k :: w.begun ∧
      w.done = w.begun) ∨
    ∃ n k b, w.cycles.get? (.worker n) = some (.running k b) ∧ w.begun = w.queue.removed ∧
      w.queue.removed = k :: w.done
  /-- When a cell is settled, every ticket accepted before its own has been run to the end. -/
  settled : ∀ k, (w.cell k).settled = true →
    ∃ later earlier, w.queue.accepted = later ++ k :: earlier ∧ ∀ i ∈ earlier, i ∈ w.done
  /-- Only a write that was let in gets a ticket, and all else that happens to tickets is that they
  are accepted, dequeued one after the run of the other, and run. -/
  moves : ∀ m v, w.step m = some v → v.Intact → w.course.Turn v.course
  /-- A ticket whose offer fails is never run. -/
  lost : ∀ t s k v u, w.calls.get? t = some (.writing s (.offering k)) →
    w.step (.run t) = some v → v.calls.get? t = some (.writing s .losing) →
      Along step Intact v u → k ∉ u.begun

/-- **The order of a writer's work**: whatever is written, started, stopped and destroyed, by
clients or by tasks, until a destruction drops the pending tickets. -/
theorem serial_of_run (hc : create config target factory resource now t j = (.ok w₀, j'))
    (h : Along step Intact w₀ w) : w.Serial := by
  obtain ⟨hl, ho⟩ := ordered_of_run hc h
  refine ⟨?_, ho.tickets.nodup, ho.progress, fun k hk => ?_, fun m v hs hv => ?_,
    fun t s k v u ht hs hv hu hk => ?_⟩
  · have hsplit := congrArg List.reverse ho.split
    rw [List.reverse_append, List.reverse_reverse] at hsplit
    exact hsplit
  · exact ho.done_before (ho.touched.settled k hk)
  · exact ho.turn hl (step_course hs) hv
  · -- the ticket is lost from the failed offer on, and only accepted tickets are run
    have hlost : v.course.Lost k := lost_of_losing ho.tickets ht hs hv
    have hlost' : u.course.Lost k :=
      hu.keeps (I := fun u => u.course.Lost k) (fun _ => hlost)
        fun _ _ _ _ hk hs _ => hk.step (step_course hs)
    have hrun := h.trans (.step (.run t) (.refl h.holds) hs hu.start) |>.trans hu
    have hord := (ordered_of_run hc hrun).2
    exact hlost'.refused (hord.mem_accepted (hord.begun_suffix.1.subset hk))

/-- The call drops no pending tickets. -/
def untouching (_ : Thread) : CallOfWriter σ V → Bool
  | .releasing => false
  | _ => true

/-- The thread goes on `n` times. -/
def goOn (t : Thread) (n : Nat) : List (Move σ V) := List.replicate n (.run t)

/-- Client 0 starts the writer, and sees that it runs. -/
def startUp : List (Move σ V) :=
  [.request 0 (.start true)] ++ goOn (.client 0) 3 ++ goOn (.worker 0) 1 ++ goOn (.client 0) 2 ++
    [.acknowledge 0]

/-- Client `k` writes a task, and goes on `n` times. -/
def write (k : Nat) (work : Program σ V) (wait : Int) (n : Nat) : List (Move σ V) :=
  [.request k (.write { work, id := "task", wait })] ++ goOn (.client k) n

/-- Client `k` writes a task, without waiting for it. -/
def submit (k : Nat) (work : Program σ V) : List (Move σ V) :=
  write k work 0 5 ++ [.acknowledge k]

/-- Three writes for a queue of one, the last of which finds it full. -/
def crowd : List (Move Nat Unit) :=
  startUp ++ goOn (.worker 0) 2 ++ submit 1 (.ret ()) ++ goOn (.worker 0) 2 ++
    submit 2 (.ret ()) ++ write 3 (.ret ()) 0 3 ++ goOn (.worker 0) 4

/-- The order at the end of that run: the first task is run, the second waits, the third is lost. -/
theorem serial_of_crowd : ∃ (w₀ w : Writer Nat Unit) (j : Journal),
    create { capacity := 1 } "target" none 0 0 (.client 0) {} = (.ok w₀, j) ∧
      w.queue.accepted = [1, 0] ∧ w.queue.items = [1] ∧ w.begun = [0] ∧ w.done = [] ∧
        w.Serial := by
  obtain ⟨w₀, j, hc⟩ : ∃ (w₀ : Writer Nat Unit) (j : Journal),
      create { capacity := 1 } "target" none 0 0 (.client 0) {} = (.ok w₀, j) := ⟨_, _, rfl⟩
  obtain ⟨w, hw, hs⟩ : ∃ w, Along step
      (fun u => (u.calls.entries.all fun e => untouching e.1 e.2) = true) w₀ w ∧
      (w.queue.accepted, w.queue.items, w.begun, w.done) = ([1, 0], [1], [0], []) := by
    cases hc
    exact exists_along crowd rfl
  have hw : Along step Intact w₀ w := hw.mono fun u hu t ht => nomatch Roster.of_all hu ht
  simp only [Prod.mk.injEq] at hs
  obtain ⟨ha, hi, hb, hd⟩ := hs
  exact ⟨w₀, w, j, hc, ha, hi, hb, hd, serial_of_run hc hw⟩

end Writer

end SerialWriter
