import SerialWriter.Proofs.Writer.Linked

/-!
The tickets of a writer in order: those accepted are those dequeued so far and then those pending,
each is offered once and run once, and one run has ended before the next ticket is dequeued. Every
step but the dropping of the pending tickets keeps this.
-/

namespace SerialWriter

variable {σ V : Type}

/-! ### One ticket in hand -/

/-- What holds of the stage of the worker that has a ticket in hand, or of none. -/
structure Lone (cycles : Roster (CycleStage σ V)) (P : Option (CycleStage σ V) → Prop) : Prop where
  inHand : ∀ n y, cycles.get? (.worker n) = some y → P (some y)
  atRest : (∀ n, cycles.get? (.worker n) = none) → P none

namespace Lone

variable {cycles : Roster (CycleStage σ V)} {P Q : Option (CycleStage σ V) → Prop} {n : Nat}
  {y : CycleStage σ V}

lemma mono (h : Lone cycles P) (hpq : ∀ y?, P y? → Q y?) : Lone cycles Q :=
  ⟨fun n y hy => hpq _ (h.inHand n y hy), fun hn => hpq _ (h.atRest hn)⟩

lemma put (hn : ∀ m, m ≠ n → cycles.get? (.worker m) = none) (hy : P (some y)) :
    Lone (cycles.put (.worker n) y) P := by
  refine ⟨fun m y' hm => ?_, fun hnone => ?_⟩
  · by_cases hmn : m = n
    · rw [hmn, Roster.get?_put_self, Option.some.injEq] at hm
      exact hm ▸ hy
    · rw [Roster.get?_put_ne _ _ fun h => hmn (Thread.worker.inj h), hn m hmn] at hm
      cases hm
  · have := hnone n
    rw [Roster.get?_put_self] at this
    cases this

lemma drop (hn : ∀ m, m ≠ n → cycles.get? (.worker m) = none) (h : P none) :
    Lone (cycles.drop (.worker n)) P := by
  refine ⟨fun m y' hm => ?_, fun _ => h⟩
  rw [Roster.get?_drop, Option.ite_none_left_eq_some] at hm
  rw [hn m fun hmn => hm.1 (congrArg Thread.worker hmn)] at hm
  cases hm.2

end Lone

/-! ### The invariant -/

/-- The outcome is assigned, or someone has won the right to assign it. -/
def Cell.settled (a : Cell V) : Bool := a.claimed || a.ready

/-- How far the run of the ticket in hand has come, seen from the tickets dequeued, begun to be run,
and run to the end. -/
def CycleStage.Keeps (removed begun done : List Nat) : CycleStage σ V → Prop
  | .dequeued k => removed = k :: begun ∧ done = begun
  | .running k _ => begun = removed ∧ removed = k :: done
  | .counting _ | .measuring _ => begun = removed ∧ done = removed

/-- **Tickets are offered once**: those accepted are different, and those about to be offered are
different from them and from each other. -/
structure Tickets (accepted : List Nat) (size : Nat) (calls : Roster (CallOfWriter σ V)) :
    Prop where
  nodup : accepted.Nodup
  known : ∀ k ∈ accepted, k < size
  fresh : ∀ t s k, calls.get? t = some (.writing s (.offering k)) → k < size ∧ k ∉ accepted
  apart : ∀ t u s s' k, calls.get? t = some (.writing s (.offering k)) →
    calls.get? u = some (.writing s' (.offering k)) → t = u

/-- **Tickets are run once**: at rest all that were dequeued have been run. -/
structure Runs (cycles : Roster (CycleStage σ V)) (removed begun done : List Nat) : Prop where
  inHand : ∀ n y, cycles.get? (.worker n) = some y → y.Keeps removed begun done
  atRest : (∀ n, cycles.get? (.worker n) = none) → begun = removed ∧ done = removed

/-- A cell is settled by the run of its ticket, and interrupted once its ticket is accepted. -/
structure Touched (envelopes : Array (Envelope σ V)) (accepted begun : List Nat) : Prop where
  settled : ∀ k, (cellAt envelopes k).settled = true → k ∈ begun
  interrupted : ∀ k, (cellAt envelopes k).interrupted = true → k ∈ accepted

/-- **The tickets of a course in order.** -/
structure Course.Ordered (c : Course σ V) : Prop where
  split : c.accepted = c.pending.reverse ++ c.removed
  tickets : Tickets c.accepted c.envelopes.size c.calls
  runs : Runs c.cycles c.removed c.begun c.done
  touched : Touched c.envelopes c.accepted c.begun

/-! ### What a step does to the tickets -/

section Offers

variable {calls : Roster (CallOfWriter σ V)} {t u : Thread} {a : CallOfWriter σ V}
  {s : Submission σ V} {k : Nat}

lemma offering_of_put (hu : (calls.put t a).get? u = some (.writing s (.offering k)))
    (ha : ∀ s k, a ≠ .writing s (.offering k)) :
    calls.get? u = some (.writing s (.offering k)) := by
  rw [Roster.get?_put] at hu
  split at hu
  · exact absurd (Option.some.inj hu) (ha s k)
  · exact hu

lemma offering_of_drop (hu : (calls.drop t).get? u = some (.writing s (.offering k))) :
    calls.get? u = some (.writing s (.offering k)) := by
  rw [Roster.get?_drop, Option.ite_none_left_eq_some] at hu
  exact hu.2

end Offers

namespace Tickets

variable {accepted : List Nat} {size k : Nat} {calls : Roster (CallOfWriter σ V)} {t : Thread}
  {a : CallOfWriter σ V} {s : Submission σ V}

lemma put (h : Tickets accepted size calls) (ha : ∀ s k, a ≠ .writing s (.offering k)) :
    Tickets accepted size (calls.put t a) :=
  ⟨h.nodup, h.known, fun u s k hu => h.fresh u s k (offering_of_put hu ha),
    fun u v s s' k hu hv => h.apart u v s s' k (offering_of_put hu ha) (offering_of_put hv ha)⟩

lemma drop (h : Tickets accepted size calls) : Tickets accepted size (calls.drop t) :=
  ⟨h.nodup, h.known, fun u s k hu => h.fresh u s k (offering_of_drop hu),
    fun u v s s' k hu hv => h.apart u v s s' k (offering_of_drop hu) (offering_of_drop hv)⟩

lemma make (h : Tickets accepted size calls) :
    Tickets accepted (size + 1) (calls.put t (.writing s (.offering size))) := by
  -- an offer is the new one, or an old one of a smaller ticket
  have hback : ∀ u s' k,
      (calls.put t (.writing s (.offering size))).get? u = some (.writing s' (.offering k)) →
        u = t ∧ k = size ∨ calls.get? u = some (.writing s' (.offering k)) ∧ k < size := by
    intro u s' k hu
    rw [Roster.get?_put] at hu
    split at hu
    · rename_i hut
      rw [Option.some.injEq, CallOfWriter.writing.injEq, WriteStage.offering.injEq] at hu
      exact .inl ⟨hut, hu.2.symm⟩
    · exact .inr ⟨hu, (h.fresh u s' k hu).1⟩
  refine ⟨h.nodup, fun k hk => ?_, fun u s' k hu => ?_, fun u v s' s'' k hu hv => ?_⟩
  · have := h.known k hk
    omega
  · rcases hback u s' k hu with ⟨-, rfl⟩ | ⟨hu, hk⟩
    · refine ⟨by omega, fun hin => ?_⟩
      have := h.known _ hin
      omega
    · exact ⟨by omega, (h.fresh u s' k hu).2⟩
  · rcases hback u s' k hu with ⟨hut, hk⟩ | ⟨hu, hk⟩
    · rcases hback v s'' k hv with ⟨hvt, -⟩ | ⟨-, hk'⟩
      · rw [hut, hvt]
      · omega
    · rcases hback v s'' k hv with ⟨-, hk'⟩ | ⟨hv, -⟩
      · omega
      · exact h.apart u v s' s'' k hu hv

lemma offer (h : Tickets accepted size calls)
    (ht : calls.get? t = some (.writing s (.offering k)))
    (ha : ∀ s k, a ≠ .writing s (.offering k)) :
    Tickets (k :: accepted) size (calls.put t a) := by
  obtain ⟨hk, hnot⟩ := h.fresh t s k ht
  have hput := h.put (t := t) ha
  refine ⟨List.nodup_cons.mpr ⟨hnot, h.nodup⟩, fun i hi => ?_, fun u s' i hu => ?_, hput.apart⟩
  · rcases List.mem_cons.mp hi with rfl | hi
    · exact hk
    · exact h.known i hi
  · obtain ⟨hi, hni⟩ := hput.fresh u s' i hu
    refine ⟨hi, fun hin => ?_⟩
    rcases List.mem_cons.mp hin with rfl | hin
    · -- two threads about to offer one ticket would be one thread
      rw [Roster.get?_put] at hu
      split at hu
      · exact ha s' i (Option.some.inj hu)
      · rename_i hut
        exact hut (h.apart u t s' s i hu ht)
    · exact hni hin

theorem step {c d : Course σ V} (h : Tickets c.accepted c.envelopes.size c.calls)
    (hs : c.Step d) : Tickets d.accepted d.envelopes.size d.calls := by
  cases hs with
  | requests _ ha => exact h.put ha.ne_offering
  | enters _ ha _ =>
    exact h.put (CallOfWriter.ne_offering (CallOfWriter.admitted_of_inControl ha))
  | acknowledges _ => exact h.drop
  | leaves _ _ _ => exact h.put (CallOfWriter.ne_offering (CallOfWriter.admitted_afterControl ..))
  | walks _ ha =>
    change Tickets c.accepted (interruptAt c.envelopes c.pending).size _
    rw [size_interruptAt]
    exact h.put ha.ne_offering
  | goes _ _ ha => exact h.put ha.ne_offering
  | discards _ => exact h.put fun _ _ => nofun
  | stops _ => exact h.put fun _ _ => nofun
  | clears _ => exact h.put fun _ _ => nofun
  | admits _ _ => exact h.put fun _ _ => nofun
  | makes _ _ =>
    change Tickets c.accepted (c.envelopes.push _).size _
    rw [Array.size_push]
    exact h.make
  | offers ha => exact h.offer ha fun _ _ => nofun
  | collects _ =>
    change Tickets c.accepted (changeCellAt c.envelopes _ _).size _
    rw [size_changeCellAt]
    exact h.put fun _ _ => nofun
  | body _ _ _ =>
    change Tickets c.accepted (changeCellAt c.envelopes _ _).size _
    rw [size_changeCellAt]
    exact h
  | bodyEnters _ _ ha _ =>
    exact h.put (CallOfWriter.ne_offering (CallOfWriter.admitted_of_inControl ha))
  | bodyWrites _ _ => exact h.put fun _ _ => nofun
  | bodyReturns _ _ => exact h.drop
  | _ => exact h

end Tickets

namespace Runs

variable {cycles : Roster (CycleStage σ V)} {removed begun done : List Nat} {n : Nat}
  {y : CycleStage σ V}

lemma of_lone (h : Lone cycles fun y? =>
    y?.elim (begun = removed ∧ done = removed) fun y => y.Keeps removed begun done) :
    Runs cycles removed begun done := ⟨h.inHand, h.atRest⟩

lemma put (hn : ∀ m, m ≠ n → cycles.get? (.worker m) = none) (hy : y.Keeps removed begun done) :
    Runs (cycles.put (.worker n) y) removed begun done := of_lone (.put hn hy)

lemma drop (hn : ∀ m, m ≠ n → cycles.get? (.worker m) = none)
    (h : begun = removed ∧ done = removed) : Runs (cycles.drop (.worker n)) removed begun done :=
  of_lone (.drop hn h)

lemma rest (h : Runs cycles removed begun done) (hy : cycles.get? (.worker n) = none)
    (hn : ∀ m, m ≠ n → cycles.get? (.worker m) = none) : begun = removed ∧ done = removed := by
  refine h.atRest fun m => ?_
  by_cases hmn : m = n
  · exact hmn ▸ hy
  · exact hn m hmn

end Runs

namespace Touched

variable {es : Array (Envelope σ V)} {accepted begun : List Nat} {k : Nat}

lemma change (h : Touched es accepted begun) (hb : k ∈ begun) (ha : k ∈ accepted)
    (f : Cell V → Cell V) : Touched (changeCellAt es k f) accepted begun :=
  ⟨forall_cellAt_changeCellAt (fun i a => a.settled = true → i ∈ begun) (fun _ => hb) h.settled,
    forall_cellAt_changeCellAt (fun i a => a.interrupted = true → i ∈ accepted) (fun _ => ha)
      h.interrupted⟩

lemma take (h : Touched es accepted begun) :
    Touched (changeCellAt es k fun a => a.take.2) accepted begun :=
  ⟨fun i hi => h.settled i ((apply_cellAt_take Cell.settled (fun _ => rfl) ..).symm.trans hi),
    fun i hi => h.interrupted i
      ((apply_cellAt_take Cell.interrupted (fun _ => rfl) ..).symm.trans hi)⟩

lemma interrupt (h : Touched es accepted begun) {l : List Nat} (hl : ∀ i ∈ l, i ∈ accepted) :
    Touched (interruptAt es l) accepted begun := by
  refine ⟨fun i hi => h.settled i ?_, fun i hi => ?_⟩
  · exact (apply_cellAt_interruptAt Cell.settled (fun _ => rfl) es l i).symm.trans hi
  · rw [cellAt_interruptAt] at hi
    split at hi
    · rename_i hil
      exact hl i hil.1
    · exact h.interrupted i hi

lemma push (h : Touched es accepted begun) {e : Envelope σ V} (he : e.cell = {}) :
    Touched (es.push e) accepted begun :=
  ⟨fun i hi => h.settled i (cellAt_push he i ▸ hi),
    fun i hi => h.interrupted i (cellAt_push he i ▸ hi)⟩

lemma accept (h : Touched es accepted begun) : Touched es (k :: accepted) begun :=
  ⟨h.settled, fun i hi => List.mem_cons_of_mem k (h.interrupted i hi)⟩

lemma begin (h : Touched es accepted begun) : Touched es accepted (k :: begun) :=
  ⟨fun i hi => List.mem_cons_of_mem k (h.settled i hi), h.interrupted⟩

end Touched

/-! ### Every step keeps the tickets in order -/

namespace Course.Ordered

variable {c d : Course σ V} {n k : Nat}

lemma mem_accepted (h : c.Ordered) (hk : k ∈ c.removed) : k ∈ c.accepted := by
  rw [h.split]
  exact List.mem_append_right _ hk

lemma running (h : c.Ordered) {b : BodyStage σ V}
    (hy : c.cycles.get? (.worker n) = some (.running k b)) :
    c.begun = c.removed ∧ c.removed = k :: c.done ∧ k ∈ c.begun ∧ k ∈ c.accepted := by
  obtain ⟨hb, hr⟩ := h.runs.inHand n _ hy
  have hk : k ∈ c.removed := hr ▸ List.mem_cons_self
  exact ⟨hb, hr, hb ▸ hk, h.mem_accepted hk⟩

theorem step (h : c.Ordered) (hl : c.Linked) (hs : c.Step d)
    (hd : ∀ t, d.calls.get? t ≠ some .releasing) : d.Ordered := by
  -- one ticket at most is in hand
  have hothers : ∀ {n : Nat} {y : CycleStage σ V}, c.cycles.get? (.worker n) = some y →
      ∀ m, m ≠ n → c.cycles.get? (.worker m) = none := by
    intro n y hy m hm
    obtain ⟨last, hw⟩ := hl.cycling hy
    exact hl.others hw hm
  have htickets := h.tickets.step hs
  cases hs with
  | @clears t _ => exact absurd (Roster.get?_put_self ..) (hd t)
  | walks _ _ =>
    refine ⟨h.split, htickets, h.runs, h.touched.interrupt fun i hi => ?_⟩
    rw [h.split]
    exact List.mem_append_left _ (List.mem_reverse.mpr hi)
  | makes _ he => exact ⟨h.split, htickets, h.runs, h.touched.push he⟩
  | @offers t s k _ =>
    refine ⟨?_, htickets, h.runs, h.touched.accept⟩
    change k :: c.accepted = (c.pending ++ [k]).reverse ++ c.removed
    rw [h.split, List.reverse_append]
    rfl
  | collects _ => exact ⟨h.split, htickets, h.runs, h.touched.take⟩
  | @takes n k last rest hw hy hp =>
    obtain ⟨hb, hdn⟩ := h.runs.rest hy fun m hm => hl.others hw hm
    refine ⟨?_, htickets, .put (fun m hm => hl.others hw hm) ⟨by rw [hb], by rw [hb, hdn]⟩,
      h.touched⟩
    change c.accepted = rest.reverse ++ k :: c.removed
    rw [h.split, hp, List.reverse_cons, List.append_assoc]
    rfl
  | idles hw hy =>
    have hn := fun m hm => hl.others hw (m := m) hm
    exact ⟨h.split, htickets, .drop hn (h.runs.rest hy hn), h.touched⟩
  | opens hy =>
    obtain ⟨hr, hdn⟩ := h.runs.inHand _ _ hy
    exact ⟨h.split, htickets, .put (hothers hy) ⟨hr.symm, by rw [hr, hdn]⟩, h.touched.begin⟩
  | body hy _ _ =>
    obtain ⟨hb, hr, hkb, hka⟩ := h.running hy
    exact ⟨h.split, htickets, .put (hothers hy) ⟨hb, hr⟩, h.touched.change hkb hka _⟩
  | bodyEnters hy _ _ _ =>
    obtain ⟨hb, hr, -, -⟩ := h.running hy
    exact ⟨h.split, htickets, .put (hothers hy) ⟨hb, hr⟩, h.touched⟩
  | bodyWrites hy _ =>
    obtain ⟨hb, hr, -, -⟩ := h.running hy
    exact ⟨h.split, htickets, .put (hothers hy) ⟨hb, hr⟩, h.touched⟩
  | bodyReturns hy _ =>
    obtain ⟨hb, hr, -, -⟩ := h.running hy
    exact ⟨h.split, htickets, .put (hothers hy) ⟨hb, hr⟩, h.touched⟩
  | finishes hy _ =>
    obtain ⟨hb, hr, -, -⟩ := h.running hy
    exact ⟨h.split, htickets, .put (hothers hy) ⟨hb, hr.symm⟩, h.touched⟩
  | breaks _ hy _ =>
    obtain ⟨hb, hr, -, -⟩ := h.running hy
    exact ⟨h.split, htickets, .drop (hothers hy) ⟨hb, hr.symm⟩, h.touched⟩
  | counts hy =>
    obtain ⟨hb, hdn⟩ := h.runs.inHand _ _ hy
    exact ⟨h.split, htickets, .put (hothers hy) ⟨hb, hdn⟩, h.touched⟩
  | closes _ hy =>
    exact ⟨h.split, htickets, .drop (hothers hy) (h.runs.inHand _ _ hy), h.touched⟩
  | _ => exact ⟨h.split, htickets, h.runs, h.touched⟩

/-! ### What the order amounts to -/

/-- Nobody has a ticket in hand, or some worker is about to run its ticket or is running it. -/
lemma progress (h : c.Ordered) : c.begun = c.removed ∧ c.done = c.removed ∨
    (∃ n k, c.cycles.get? (.worker n) = some (.dequeued k) ∧ c.removed = k :: c.begun ∧
      c.done = c.begun) ∨
    ∃ n k b, c.cycles.get? (.worker n) = some (.running k b) ∧ c.begun = c.removed ∧
      c.removed = k :: c.done := by
  by_cases hy : ∃ n y, c.cycles.get? (.worker n) = some y
  · obtain ⟨n, y, hy⟩ := hy
    have hkeeps := h.runs.inHand n y hy
    cases y with
    | dequeued k => exact .inr (.inl ⟨n, k, hy, hkeeps⟩)
    | running k b => exact .inr (.inr ⟨n, k, b, hy, hkeeps⟩)
    | counting k => exact .inl hkeeps
    | measuring k => exact .inl hkeeps
  · refine .inl (h.runs.atRest fun n => Option.eq_none_iff_forall_ne_some.mpr fun y hn => ?_)
    exact hy ⟨n, y, hn⟩

/-- The tickets begun to be run are the first dequeued, and all of them but the latest are done. -/
lemma begun_suffix (h : c.Ordered) :
    c.begun <:+ c.removed ∧ ∀ i ∈ c.begun.tail, i ∈ c.done := by
  rcases h.progress with ⟨hb, hd⟩ | ⟨n, k, -, hr, hd⟩ | ⟨n, k, b, -, hb, hr⟩
  · exact ⟨hb ▸ List.suffix_rfl, fun i hi => hd ▸ hb ▸ List.mem_of_mem_tail hi⟩
  · exact ⟨hr ▸ List.suffix_cons .., fun i hi => hd ▸ List.mem_of_mem_tail hi⟩
  · refine ⟨hb ▸ List.suffix_rfl, fun i hi => ?_⟩
    rw [hb, hr] at hi
    exact hi

/-- Every ticket accepted before one whose run has begun has been run to the end. -/
lemma done_before (h : c.Ordered) (hk : k ∈ c.begun) :
    ∃ later earlier, c.accepted = later ++ k :: earlier ∧ ∀ i ∈ earlier, i ∈ c.done := by
  obtain ⟨hsuffix, htail⟩ := h.begun_suffix
  obtain ⟨pre, hpre⟩ : c.begun <:+ c.accepted :=
    hsuffix.trans (h.split ▸ List.suffix_append ..)
  obtain ⟨l, earlier, hsplit⟩ := List.append_of_mem hk
  refine ⟨pre ++ l, earlier, ?_, fun i hi => htail i ?_⟩
  · rw [← hpre, hsplit, List.append_assoc]
  · rw [hsplit]
    cases l with
    | nil => exact hi
    | cons _ l => exact List.mem_append_right _ (List.mem_cons_of_mem _ hi)

/-! ### Pending tickets -/

lemma pending_accepted (h : c.Ordered) (hk : k ∈ c.pending) : k ∈ c.accepted := by
  rw [h.split]
  exact List.mem_append_left _ (List.mem_reverse.mpr hk)

lemma pending_not_removed (h : c.Ordered) (hk : k ∈ c.pending) : k ∉ c.removed := by
  have hnodup := h.tickets.nodup
  rw [h.split] at hnodup
  exact fun hr => (List.nodup_append.mp hnodup).2.2 k (List.mem_reverse.mpr hk) k hr rfl

lemma not_ready_of_pending (h : c.Ordered) (hk : k ∈ c.pending) :
    (cellAt c.envelopes k).ready = false := by
  refine Bool.eq_false_iff.mpr fun hr => h.pending_not_removed hk (h.begun_suffix.1.subset ?_)
  refine h.touched.settled k ?_
  rw [Cell.settled, hr, Bool.or_true]

end Course.Ordered

/-! ### Tickets of which there are envelopes -/

def CycleStage.ticket : CycleStage σ V → Nat
  | .dequeued k | .running k _ | .counting k | .measuring k => k

/-- **What is pending and what is in hand has been accepted**, also after pending tickets have been
dropped. -/
structure Course.Known (c : Course σ V) : Prop where
  tickets : Tickets c.accepted c.envelopes.size c.calls
  pending : ∀ k ∈ c.pending, k ∈ c.accepted
  inHand : ∀ n y, c.cycles.get? (.worker n) = some y → y.ticket ∈ c.accepted

namespace Course.Known

variable {c d : Course σ V} {n : Nat} {y y' : CycleStage σ V}

lemma exists_envelope (h : c.Known) (hy : c.cycles.get? (.worker n) = some y) :
    ∃ e, c.envelopes[y.ticket]? = some e :=
  ⟨_, Array.getElem?_eq_getElem (h.tickets.known _ (h.inHand n y hy))⟩

lemma put (h : c.Known) (hy' : y'.ticket ∈ c.accepted) (m : Nat) (z : CycleStage σ V)
    (hz : (c.cycles.put (.worker n) y').get? (.worker m) = some z) : z.ticket ∈ c.accepted := by
  rw [Roster.get?_put] at hz
  split at hz
  · exact Option.some.inj hz ▸ hy'
  · exact h.inHand m z hz

lemma drop (h : c.Known) (m : Nat) (z : CycleStage σ V)
    (hz : (c.cycles.drop (.worker n)).get? (.worker m) = some z) : z.ticket ∈ c.accepted := by
  rw [Roster.get?_drop, Option.ite_none_left_eq_some] at hz
  exact h.inHand m z hz.2

theorem step (h : c.Known) (hs : c.Step d) : d.Known := by
  have htickets := h.tickets.step hs
  cases hs with
  | clears _ => exact ⟨htickets, nofun, h.inHand⟩
  | @offers _ _ i _ =>
    refine ⟨htickets, fun j hj => ?_, fun m z hz => List.mem_cons_of_mem _ (h.inHand m z hz)⟩
    rcases List.mem_append.mp hj with hj | hj
    · exact List.mem_cons_of_mem _ (h.pending j hj)
    · exact List.mem_singleton.mp hj ▸ List.mem_cons_self
  | takes _ _ hp =>
    refine ⟨htickets, fun j hj => h.pending j (hp ▸ List.mem_cons_of_mem _ hj), h.put ?_⟩
    exact h.pending _ (hp ▸ List.mem_cons_self)
  | idles _ _ | breaks _ _ _ | closes _ _ => exact ⟨htickets, h.pending, h.drop⟩
  | opens hy | body hy _ _ | bodyEnters hy _ _ _ | bodyWrites hy _ | bodyReturns hy _
  | finishes hy _ | counts hy =>
    have hin := h.inHand _ _ hy
    exact ⟨htickets, h.pending, h.put hin⟩
  | _ => exact ⟨htickets, h.pending, h.inHand⟩

end Course.Known

end SerialWriter
