import SerialWriter.Proofs.Writer.Handles

/-!
A writer does the work of its tasks as if there were no queue and no threads: once all that was
accepted is done, the resource, the outcomes and the books are those of the sequential evaluation of
the wrapped tasks in the order of their acceptance, however submissions and cycles interleave.
-/

namespace SerialWriter

variable {σ V : Type}

open Writer (Event lost)

/-! ### What is submitted -/

/-- The task of a submission in what the factory has put around it. -/
def Submission.wrapped (s : Submission σ V) (made : Option (Except Failure (Wrapper σ))) :
    Option (Job σ V) := (Envelope.make s.id s.work made).toOption.map Envelope.job

/-- What an event submits, and under which ticket. -/
def Writer.Event.entered? : Event σ V → Option (Submission σ V × Nat)
  | .entered _ s k => some (s, k)
  | _ => none

/-- What has been accepted so far, in order. -/
def entered (es : List (Event σ V)) : List (Submission σ V × Nat) := es.filterMap Event.entered?

lemma entered_append (es : List (Event σ V)) (ev : Option (Event σ V)) :
    entered (es ++ ev.toList) = entered es ++ (ev.bind Event.entered?).toList :=
  filterMap_append_toList ..

namespace Affairs

variable {es : List (Event σ V)} {c d : Affairs σ V} {ev : Option (Event σ V)} {k : Nat}
  {s : Submission σ V}

/-- The ticket stands for the task of the submission in what the factory has put around it. -/
def StandsFor (c : Affairs σ V) (k : Nat) (s : Submission σ V) : Prop :=
  ∃ i x, jobAt c.envelopes k = some x ∧ s.wrapped (c.factory.map fun f => f i) = some x

/-- **What has been accepted**, by what has been noted. -/
structure Enrolled (c : Affairs σ V) (es : List (Event σ V)) : Prop where
  tickets : (entered es).map Prod.snd = c.accepted.reverse
  accepted : ∀ s k, (s, k) ∈ entered es → c.StandsFor k s
  offered : ∀ t s k, c.calls.get? t = some (.writing s (.offering k)) → c.StandsFor k s

/-- Tickets stand for what they have always stood for. -/
structure SameTasks (c d : Affairs σ V) : Prop where
  factory : d.factory = c.factory
  jobs : ∀ k x, jobAt c.envelopes k = some x → jobAt d.envelopes k = some x

lemma StandsFor.congr (h : c.StandsFor k s) (hs : c.SameTasks d) : d.StandsFor k s := by
  obtain ⟨i, x, hx, hw⟩ := h
  exact ⟨i, x, hs.jobs k x hx, hs.factory ▸ hw⟩

lemma Step.sameTasks (hs : c.Step ev d) : c.SameTasks d := by
  cases hs with
  | walks _ _ => exact ⟨rfl, fun k x hx => (jobAt_interruptAt ..).trans hx⟩
  | makes _ _ =>
    refine ⟨rfl, fun k x hx => ?_⟩
    have hk : k < c.envelopes.size := by
      obtain ⟨e, he, -⟩ := Option.map_eq_some_iff.mp hx
      exact (Array.getElem?_eq_some_iff.mp he).1
    exact (jobAt_push hk).trans hx
  | collects _ _ => exact ⟨rfl, fun k x hx => (jobAt_changeCellAt ..).trans hx⟩
  | body _ _ _ => exact ⟨rfl, fun k x hx => (jobAt_changeCellAt ..).trans hx⟩
  | _ => exact ⟨rfl, fun _ _ h => h⟩

namespace Enrolled

lemma quiet (h : c.Enrolled es) (hs : c.Step ev d) (hacc : d.accepted = c.accepted)
    (hev : ev.bind Event.entered? = none)
    (hcalls : ∀ t s k, d.calls.get? t = some (.writing s (.offering k)) →
      c.calls.get? t = some (.writing s (.offering k)) ∨ d.StandsFor k s) :
    d.Enrolled (es ++ ev.toList) := by
  have hsame := hs.sameTasks
  have hes : entered (es ++ ev.toList) = entered es := by
    rw [entered_append, hev]
    exact List.append_nil _
  refine ⟨by rw [hes, hacc]; exact h.tickets, fun s k hk => ?_, fun t s k ht => ?_⟩
  · exact (h.accepted s k (hes ▸ hk)).congr hsame
  · exact (hcalls t s k ht).elim (fun ht => (h.offered t s k ht).congr hsame) id

theorem step (h : c.Enrolled es) (hs : c.Step ev d) : d.Enrolled (es ++ ev.toList) := by
  have hnot : ∀ {a : CallOfWriter σ V}, a.isWrite = false →
      ∀ s k, a ≠ .writing s (.offering k) := by
    rintro _ ha s k rfl
    cases ha
  -- only an offer that succeeds adds to the roll, and only a new envelope is about to be offered
  have hstep := hs
  cases hs with
  | turns _ ha => exact h.quiet hstep rfl rfl fun u s k hu => .inl (offering_of_put hu (hnot ha))
  | quits _ => exact h.quiet hstep rfl rfl fun u s k hu => .inl (offering_of_drop hu)
  | walks _ ha => exact h.quiet hstep rfl rfl fun u s k hu => .inl (offering_of_put hu (hnot ha))
  | @makes t s e i ht he =>
    refine h.quiet hstep rfl rfl fun u s' k hu => ?_
    change (c.calls.put t _).get? u = _ at hu
    rw [Roster.get?_put] at hu
    split at hu
    · cases hu
      refine .inr ⟨i, e.job, ?_, ?_⟩
      · change jobAt (c.envelopes.push e) c.envelopes.size = some e.job
        rw [jobAt, Array.getElem?_push_size]
        rfl
      · rw [Submission.wrapped, he]
        rfl
    · exact .inl hu
  | @offers t s k ht =>
    have hes : entered (es ++ (some (Event.entered t s k)).toList) = entered es ++ [(s, k)] :=
      entered_append ..
    refine ⟨?_, fun s' i hi => ?_, fun u s' i hu => h.offered u s' i (offering_of_put hu ?_)⟩
    · rw [hes, List.map_append, h.tickets]
      exact (List.reverse_cons ..).symm
    · rw [hes] at hi
      rcases List.mem_append.mp hi with hi | hi
      · exact h.accepted s' i hi
      · cases List.mem_singleton.mp hi
        exact h.offered t s k ht
    · rintro _ _ ⟨⟩
  | @submits t s k a _ ha =>
    refine h.quiet hstep rfl rfl fun u s' i hu => .inl (offering_of_put hu fun s'' j hj => ?_)
    rcases ha with rfl | ⟨d, rfl⟩ <;> cases hj
  | body _ _ _ =>
    refine h.quiet hstep rfl ?_ fun u s k hu => .inl hu
    rename_i act _ _ _
    cases act <;> rfl
  | bodyCalls _ _ _ ha _ =>
    refine h.quiet hstep rfl rfl fun u s k hu => .inl (offering_of_put hu fun s' j hj => ?_)
    rcases ha with ha | ⟨s'', rfl⟩
    · exact hnot ha s' j hj
    · cases hj
  | bodyReturns _ _ => exact h.quiet hstep rfl rfl fun u s k hu => .inl (offering_of_drop hu)
  | clears _ | requests _ | admits _ | refuses _ _ | misses _ | notifies _ | drops _ | hears _
  | collects _ _ | parts _ _ =>
    refine h.quiet hstep rfl rfl fun u s k hu => .inl (offering_of_put hu ?_)
    rintro _ _ ⟨⟩
  | _ => exact h.quiet hstep rfl rfl fun u s k hu => .inl hu

lemma forall₂_jobs (h : c.Enrolled es) :
    List.Forall₂ (fun p x => ∃ i, p.1.wrapped (c.factory.map fun f => f i) = some x) (entered es)
      (jobsOf c.envelopes c.accepted) := by
  have hlist : ∀ l : List (Submission σ V × Nat), (∀ s k, (s, k) ∈ l → c.StandsFor k s) →
      List.Forall₂ (fun p x => ∃ i, p.1.wrapped (c.factory.map fun f => f i) = some x) l
        ((l.map Prod.snd).filterMap (jobAt c.envelopes)) := by
    intro l hl
    induction l with
    | nil => exact .nil
    | cons p l ih =>
      obtain ⟨i, x, hx, hw⟩ := hl p.1 p.2 List.mem_cons_self
      rw [List.map_cons, List.filterMap_cons_some hx]
      exact .cons ⟨i, hw⟩ (ih fun s k hk => hl s k (List.mem_cons_of_mem _ hk))
  have hjobs := hlist (entered es) h.accepted
  rw [h.tickets] at hjobs
  exact hjobs

end Enrolled

end Affairs

/-! ### Runs of tasks apart -/

namespace Writer

variable {w w₀ v : Writer σ V} {m : Move σ V} {es es' : List (Event σ V)} {config : Config}
  {target : String} {factory : Option (Factory σ)} {s₀ : σ} {now : Time} {t : Thread}
  {j j' : Journal}

/-- No destruction has dropped the pending tickets, and no task that is being written calls its
writer. -/
structure Isolated (w : Writer σ V) : Prop where
  intact : w.Intact
  apart : ∀ t s stage, w.calls.get? t = some (.writing s stage) → s.work.Apart

/-- The tasks accepted so far, as the worker gets them, in order. -/
def jobs (w : Writer σ V) : List (Job σ V) := jobsOf w.envelopes w.queue.accepted

lemma sane_of_ordered (hl : w.course.Linked) (ho : w.course.Ordered) : w.affairs.Sane := by
  refine ⟨fun n y hy m hm => ?_, ho.split, ho.tickets.nodup, ho.tickets.known, fun n k hy => ?_⟩
  · obtain ⟨last, hw⟩ := hl.cycling (c := w.course) hy
    exact hl.others hw hm
  · -- the cell of a ticket is claimed by its run alone, and this one has not begun
    refine Bool.eq_false_iff.mpr fun hclaimed => ?_
    have hbegun : k ∈ w.begun :=
      ho.touched.settled k ((congrArg (· || _) hclaimed).trans (Bool.true_or _))
    obtain ⟨hremoved, -⟩ := ho.runs.inHand n _ hy
    have hnodup := ho.tickets.nodup
    rw [ho.split, hremoved] at hnodup
    exact (List.nodup_cons.mp (List.nodup_append.mp hnodup).2.1).1 hbegun

/-- **What every run of tasks apart keeps.** -/
structure Chronicled (factory : Option (Factory σ)) (s₀ : σ) (es : List (Event σ V))
    (w : Writer σ V) : Prop where
  linked : w.course.Linked
  ordered : w.course.Ordered
  factory : w.factory = factory
  enrolled : w.affairs.Enrolled es
  worked : lost es = 0 → w.affairs.Tallied s₀ es ∧ w.affairs.Handles es

namespace Chronicled

lemma init (hc : create config target factory s₀ now t j = (.ok w₀, j')) (h : Intact w₀) :
    Chronicled factory s₀ [] w₀ := by
  obtain ⟨hl, ho⟩ := ordered_of_run hc (.refl h)
  have hnew := affairs_of_create hc
  refine ⟨hl, ho, congrArg Affairs.factory hnew, ?_, fun _ => ?_⟩
  · rw [hnew]
    exact ⟨rfl, nofun, nofun⟩
  · rw [hnew]
    refine ⟨⟨⟨nofun, fun _ => ⟨rfl, rfl, rfl, rfl⟩⟩, nofun⟩, fun _ _ => ⟨rfl, rfl, rfl⟩, nofun,
      fun k => ⟨nofun, ?_⟩⟩
    rintro ⟨t, l, hin, -⟩
    cases hin

theorem step (h : Chronicled factory s₀ es w) (hw : w.Isolated) (hs : w.step m = some v)
    (hv : v.Isolated) : Chronicled factory s₀ (es ++ (w.note m v).toList) v := by
  have hcourse := step_course hs
  have haffairs := affairs_of_step h.linked hs
  refine ⟨h.linked.step hcourse, h.ordered.step h.linked hcourse hv.intact,
    haffairs.sameTasks.factory.trans h.factory, h.enrolled.step haffairs, fun hlost => ?_⟩
  rw [lost, countP_append_toList, Nat.add_eq_zero_iff] at hlost
  obtain ⟨hlost, hev⟩ := hlost
  obtain ⟨htallied, hhandles⟩ := h.worked hlost
  have hsane := sane_of_ordered h.linked h.ordered
  exact ⟨htallied.step hsane haffairs hw.apart hv.intact (Bool.toNat_eq_zero.mp hev),
    hhandles.step htallied hsane haffairs⟩

end Chronicled

theorem chronicled_of_run (hc : create config target factory s₀ now t j = (.ok w₀, j'))
    (h : Chronicle step note Isolated w₀ es w) : Chronicled factory s₀ es w := by
  induction h with
  | refl h => exact .init hc h.intact
  | step m h hs hv ih => exact ih.step h.along.holds hs hv

/-! ### When all the work is done -/

/-- **All that was accepted has been done**, with no task lost to the fault of a log line. -/
structure Finished (es : List (Event σ V)) (w : Writer σ V) : Prop where
  sound : lost es = 0
  empty : w.queue.items = []
  idle : w.inHand = 0

/-- **A run of tasks apart after which all that was accepted has been done.** -/
structure Drained (factory : Option (Factory σ)) (s₀ : σ) (es : List (Event σ V))
    (w : Writer σ V) : Prop extends Finished es w where
  run : ∃ (config : Config) (target : String) (now : Time) (t : Thread) (j j' : Journal)
    (w₀ : Writer σ V), create config target factory s₀ now t j = (.ok w₀, j') ∧
      Chronicle step note Isolated w₀ es w

def outcomes (es : List (Event σ V)) : List (Outcome V) := (published es).map Prod.snd

/-- **The work of a writer is that of the reference.** -/
structure Refines (factory : Option (Factory σ)) (s₀ : σ) (es : List (Event σ V))
    (w : Writer σ V) : Prop where
  /-- Each task is that of a submission, in what the factory has put around it. -/
  tasks : List.Forall₂ (fun p x => ∃ i, p.1.wrapped (factory.map fun f => f i) = some x)
    (entered es) w.jobs
  tickets : (entered es).map Prod.snd = w.queue.accepted.reverse
  /-- A factory that puts the same around every task leaves only the submissions to matter. -/
  alike : ∀ made, (∀ i, (factory.map fun f => f i) = made) →
    w.jobs = (entered es).filterMap fun p => p.1.wrapped made
  begun : w.begun = w.queue.accepted
  done : w.done = w.queue.accepted
  resource : w.resource = (sequential w.jobs s₀).resource
  executed : w.stats.executed = (sequential w.jobs s₀).executed
  failed : w.stats.failed = (sequential w.jobs s₀).failed
  outcomes : outcomes es = (sequential w.jobs s₀).outcomes
  /-- One outcome is assigned for each ticket, in their order. -/
  resolved : (published es).map Prod.fst = w.queue.accepted.reverse
  /-- The handle of every task that was accepted holds its outcome. -/
  handles : List.Forall₂ (fun k o => (w.cell k).Holds es k o) w.queue.accepted.reverse
    (sequential w.jobs s₀).outcomes

namespace Drained

/-- At the end no worker has a ticket in hand, but for the end of its cycle. -/
lemma atRest (h : Drained factory s₀ es w) : (∀ n, w.cycles.get? (.worker n) = none) ∨
    ∃ n k, w.cycles.get? (.worker n) = some (.measuring k) := by
  obtain ⟨config, target, now, t, j, j', w₀, hc, hrun⟩ := h.run
  have hacc := accounted_of_run hc (hrun.mono fun _ hw => hw.intact)
  by_cases hy : ∃ n y, w.cycles.get? (.worker n) = some y
  · obtain ⟨n, y, hy⟩ := hy
    cases y with
    | measuring k => exact .inr ⟨n, k, hy⟩
    | _ =>
      have hpos := hacc.inHand_pos_iff.mpr ⟨n, _, hy, rfl⟩
      rw [h.idle] at hpos
      cases hpos
  · refine .inl fun n => Option.eq_none_iff_forall_ne_some.mpr fun y hn => hy ⟨n, y, hn⟩

/-- **When all the work is done, it is that of the reference.** -/
theorem refines (h : Drained factory s₀ es w) : Refines factory s₀ es w := by
  obtain ⟨config, target, now, t, j, j', w₀, hc, hrun⟩ := h.run
  obtain ⟨hl, ho, hfactory, henrolled, hworked⟩ := chronicled_of_run hc hrun
  obtain ⟨htallied, hhandles⟩ := hworked h.sound
  have hsane := sane_of_ordered hl ho
  obtain ⟨⟨hbegun, hdone⟩, hset⟩ : (w.begun = w.queue.removed ∧ w.done = w.queue.removed) ∧
      w.affairs.Settled s₀ es w.queue.removed := by
    rcases h.atRest with hnone | ⟨n, k, hy⟩
    · exact ⟨ho.runs.atRest hnone, htallied.hand.atRest hnone⟩
    · exact ⟨ho.runs.inHand n _ hy, htallied.hand.inHand n _ hy⟩
  have hremoved : w.queue.accepted = w.queue.removed := by
    have hsplit : w.queue.accepted = w.queue.items.reverse ++ w.queue.removed := ho.split
    rw [h.empty] at hsplit
    exact hsplit
  rw [← hremoved] at hbegun hdone hset
  have hlength : w.queue.accepted.reverse.length = (sequential w.jobs s₀).outcomes.length :=
    hsane.length_account (fun i hi => (show w.affairs.removed = w.queue.accepted from
      hremoved.symm) ▸ hi) s₀
  have hpublished : published es = w.queue.accepted.reverse.zip (sequential w.jobs s₀).outcomes :=
    hset.published
  have htasks : List.Forall₂ (fun p x => ∃ i, p.1.wrapped (factory.map fun f => f i) = some x)
      (entered es) w.jobs := hfactory ▸ henrolled.forall₂_jobs
  refine ⟨htasks, henrolled.tickets, fun made hmade => ?_, hbegun, hdone, hset.resource,
    hset.executed, hset.failed, ?_, ?_, ?_⟩
  · refine (filterMap_eq_of_forall₂ (htasks.imp fun p x hx => ?_)).symm
    obtain ⟨i, hi⟩ := hx
    exact hmade i ▸ hi
  · rw [Writer.outcomes, hpublished, List.map_snd_zip (Nat.le_of_eq hlength.symm)]
  · rw [hpublished, List.map_fst_zip (Nat.le_of_eq hlength)]
  · refine List.forall₂_iff_zip.mpr ⟨hlength, fun {k o} hin => hhandles.holds k o ?_⟩
    exact mem_published.mp (hpublished ▸ hin)

end Drained

/-- **All that comes of the work is the same**, for two runs. -/
structure SameResults (es es' : List (Event σ V)) (w v : Writer σ V) : Prop where
  resource : v.resource = w.resource
  executed : v.stats.executed = w.stats.executed
  failed : v.stats.failed = w.stats.failed
  outcomes : outcomes es' = outcomes es

lemma Refines.sameResults {factory' : Option (Factory σ)} (hw : Refines factory s₀ es w)
    (hv : Refines factory' s₀ es' v) (hjobs : v.jobs = w.jobs) : SameResults es es' w v := by
  refine ⟨?_, ?_, ?_, ?_⟩
  · rw [hv.resource, hw.resource, hjobs]
  · rw [hv.executed, hw.executed, hjobs]
  · rw [hv.failed, hw.failed, hjobs]
  · rw [hv.outcomes, hw.outcomes, hjobs]

/-- Where no log line can fail, a worker goes on in its cycle when it has run its envelope. -/
lemma stays_of_unarmed {n k : Nat} {b : BodyStage σ V} (hj : w.journal.armed = none)
    (hy : w.cycles.get? (.worker n) = some (.running k b)) (h : w.WorkMoves n v) :
    ∃ y, v.cycles.get? (.worker n) = some y := by
  cases h with
  | works _ _ _ => exact ⟨_, hy⟩
  | body _ _ _ h =>
    cases h with
    | garbles _ hl | spoils hl => cases Journal.fault_of_unarmed hl hj
    | _ => exact ⟨_, Roster.get?_put_self ..⟩
  | takes _ hy' | waits _ hy' _ _ | opens _ hy' _ | counts _ hy' | measures _ hy' _ =>
    cases hy.symm.trans hy'

lemma armed_of_spoiled {n k : Nat} {e : Failure} (hs : w.step m = some v)
    (hn : w.note m v = some (.spoiled n k e)) : w.journal.armed ≠ none := by
  intro hj
  obtain ⟨rfl, hcall, ⟨b, hy, -⟩, hv, -⟩ := spoils_of_note hn
  obtain ⟨y, hy'⟩ := stays_of_unarmed hj hy (workMoves_of_run hcall hs)
  rw [hv] at hy'
  cases hy'

/-! ### Two runs -/

def digit (one : Bool) (s : Fin 32) : Fin 32 := if one then 2 * s + 1 else 2 * s

/-- The call drops no pending tickets, and its task, if it is a write, passes the test. -/
def isolating (all : List σ) (_ : Thread) : CallOfWriter σ V → Bool
  | .releasing => false
  | .writing s _ => s.work.testApart all
  | _ => true

def testIsolated (all : List σ) (x : Writer σ V) : Bool :=
  x.calls.entries.all fun e => isolating all e.1 e.2

lemma isolated_of_test {all : List σ} (hall : ∀ s, s ∈ all) {x : Writer σ V}
    (h : testIsolated all x = true) : x.Isolated := by
  have htest : ∀ {t a}, x.calls.get? t = some a → isolating all t a = true := Roster.of_all h
  refine ⟨fun t ht => ?_, fun t s stage ht => Program.apart_of_test hall ?_⟩
  · cases htest ht
  · exact htest ht

/-- What is to be seen at the end of a run. -/
def finale (es : List (Event σ V)) (w : Writer σ V) :
    Nat × List Nat × Nat × List (Job σ V) × Stats :=
  (lost es, w.queue.items, w.inHand, w.jobs, w.stats)

end Writer

end SerialWriter
