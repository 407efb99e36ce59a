import SerialWriter.Proofs.Demo.Script

/-!
What the steps of a demonstration do to its tasks: they enter the queue one after another, the last
of them comes from the main thread, and the worker runs each of them in a transaction.
-/

namespace SerialWriter

open Finset

/-! ### Sums and envelopes -/

lemma sum_range_change {f g : Nat → Nat} {n p : Nat} (hp : p < n) (h : ∀ q, q ≠ p → g q = f q) :
    ∑ q ∈ range n, g q + f p = ∑ q ∈ range n, f q + g p := by
  have hmem : p ∈ range n := mem_range.mpr hp
  have hrest : ∑ q ∈ (range n).erase p, g q = ∑ q ∈ (range n).erase p, f q :=
    sum_congr rfl fun q hq => h q (ne_of_mem_erase hq)
  rw [← add_sum_erase _ f hmem, ← add_sum_erase _ g hmem, hrest]
  omega

namespace Carries

variable {es : Array (Envelope Graph (Option Nat))} {k i : Nat} {p : Program Graph (Option Nat)}

lemma push (h : Carries es k p) (e : Envelope Graph (Option Nat)) : Carries (es.push e) k p := by
  obtain ⟨e', he, hb⟩ := h
  refine ⟨e', ?_, hb⟩
  have hk : k < es.size := (Array.getElem?_eq_some_iff.mp he).1
  rw [Array.getElem?_push, if_neg (Nat.ne_of_lt hk), he]

lemma change (h : Carries es k p) (f : Cell (Option Nat) → Cell (Option Nat)) :
    Carries (changeCellAt es i f) k p := by
  obtain ⟨e, he, hb⟩ := h
  unfold changeCellAt
  by_cases hik : i = k
  · refine ⟨{ e with cell := f e.cell }, ?_, hb⟩
    rw [Array.getElem?_modify, if_pos hik, he]
    rfl
  · refine ⟨e, ?_, hb⟩
    rw [Array.getElem?_modify, if_neg hik, he]

end Carries

namespace Demo

variable {d v : Demo} {t : Thread} {n k p : Nat}

/-! ### Credits -/

lemma credit_of_producer (hp : p < 4) (hs : v.stage = d.stage)
    (hi : ∀ q, q ≠ p → v.sent[q]? = d.sent[q]?)
    (hc : ∀ t, t ≠ .client (p + 1) → v.writer.calls.get? t = d.writer.calls.get? t) :
    v.credit + d.creditOf p = d.credit + v.creditOf p := by
  have hsum := sum_range_change (f := d.creditOf) (g := v.creditOf) hp fun q hq => by
    rw [creditOf, creditOf, hi q hq, hc _ (by simpa using hq)]
  have hmain : v.mainCredit = d.mainCredit := by
    rw [mainCredit, mainCredit, hs, hc _ (by simp)]
  rw [credit, credit, hmain]
  omega

lemma credit_of_main (hi : v.sent = d.sent)
    (hc : ∀ t, t ≠ .client 0 → v.writer.calls.get? t = d.writer.calls.get? t) :
    v.credit + d.mainCredit = d.credit + v.mainCredit := by
  have hsum : ∑ q ∈ range 4, v.creditOf q = ∑ q ∈ range 4, d.creditOf q :=
    sum_congr rfl fun q _ => by rw [creditOf, creditOf, hi, hc _ (by simp)]
  rw [credit, credit, hsum]
  omega

/-! ### Steps beside the tasks -/

lemma TaskProgress.congr {a b : Cell (Option Nat)} {y : CycleStage Graph (Option Nat)} {g : Graph}
    {e : Nat} (h : TaskProgress a n k y g e) (hc : b.claimed = a.claimed) :
    TaskProgress b n k y g e := by
  cases h with
  | dequeued => exact .dequeued
  | opens h => exact .opens (hc.trans h)
  | invokes h => exact .invokes (hc.trans h)
  | works h hf => exact .works (hc.trans h) hf
  | gives h hf => exact .gives (hc.trans h) hf
  | publishes h => exact .publishes (hc.trans h)
  | returns h => exact .returns (hc.trans h)
  | leaves h => exact .leaves (hc.trans h)
  | succeeds => exact .succeeds
  | counts => exact .counts
  | measures => exact .measures

lemma WorkerPart.congr {w u : Writer Graph (Option Nat)} (h : WorkerPart w)
    (hy : u.cycles = w.cycles) (hl : u.queue.removed = w.queue.removed)
    (hr : u.resource = w.resource) (he : u.ledger.executed = w.ledger.executed)
    (hc : ∀ k, (u.cell k).claimed = (w.cell k).claimed) : WorkerPart u := by
  cases h with
  | rests hy' hr' he' =>
    refine .rests (hy ▸ hy') ?_ ?_
    · rw [hr, hl, hr']
    · rw [he, hl, he']
  | inHand hy' hl' hd =>
    refine .inHand (hy ▸ hy') (hl.trans hl') ?_
    rw [hr, he]
    exact hd.congr (hc _)

/-- **No task has entered the queue, and no cell has changed.** -/
structure SameTasks (d v : Demo) : Prop where
  accepted : v.writer.queue.accepted = d.writer.queue.accepted
  carries : ∀ k p, Carries d.writer.envelopes k p → Carries v.writer.envelopes k p
  cell : ∀ k, v.writer.cell k = d.writer.cell k

lemma SameTasks.of_eq (ha : v.writer.queue.accepted = d.writer.queue.accepted)
    (he : v.writer.envelopes = d.writer.envelopes) : SameTasks d v :=
  ⟨ha, fun _ _ h => he ▸ h, fun _ => by rw [Writer.cell, Writer.cell, he]⟩

/-- The main thread is where it was, as far as the last task is concerned. -/
structure SameLast (d v : Demo) : Prop where
  told : v.told = d.told
  last : ∀ s stage k, v.writer.calls.get? (.client 0) = some (.writing s stage) →
    stage.entered = true → stage.ticket? = some k → ∃ stage',
      d.writer.calls.get? (.client 0) = some (.writing s stage') ∧ stage'.entered = true ∧
        stage'.ticket? = some k
  ready : ∀ s k, v.writer.calls.get? (.client 0) = some (.writing s (.told k .ready)) →
    (d.writer.cell k).ready = true

namespace Work

lemma sameLast (h : Work d) (hs : v.stage = d.stage)
    (hc : v.writer.calls.get? (.client 0) = d.writer.calls.get? (.client 0)) : SameLast d v := by
  refine ⟨?_, fun s stage k hv he hk => ⟨stage, hc ▸ hv, he, hk⟩, fun s k hv => ?_⟩
  · rw [Demo.told, Demo.told, hs, hc]
  · exact h.ready s k (hc ▸ hv)

/-- **A step beside the tasks.** -/
lemma turn (h : Work d) (hs : SameTasks d v) (hl : SameLast d v) (hcredit : v.credit = d.credit)
    (hoff : ∀ t s k, v.writer.calls.get? t = some (.writing s (.offering k)) →
      Carries v.writer.envelopes k s.work)
    (hdone : d.told = true → v.writer.queue.removed.length = 401) (ht : WorkerPart v.writer) :
    Work v where
  count := by rw [hs.accepted, hcredit, h.count]
  offered := hoff
  tickets n k hn := hs.carries _ _ (h.tickets n k (hs.accepted ▸ hn))
  calm ht k := by
    rw [hs.cell]
    exact h.calm (hl.told ▸ ht) k
  shows ht n k hn hr := by
    rw [hs.cell] at hr ⊢
    exact h.shows (hl.told ▸ ht) n k (hs.accepted ▸ hn) hr
  last s stage k hv he hk := by
    obtain ⟨stage', hd, he', hk'⟩ := hl.last s stage k hv he hk
    exact hs.accepted ▸ h.last s stage' k hd he' hk'
  ready s k hv := by
    rw [hs.cell]
    exact hl.ready s k hv
  done ht := hdone (hl.told ▸ ht)
  worker := ht

/-! ### The queue -/

lemma reverse_cons_get {l : List Nat} {k i n : Nat} (h : (k :: l).reverse[n]? = some i) :
    l.reverse[n]? = some i ∨ n = l.length ∧ i = k := by
  rw [List.reverse_cons, List.getElem?_append, List.length_reverse] at h
  split at h
  · exact .inl h
  · rename_i hn
    rw [List.getElem?_singleton, Option.ite_none_right_eq_some, Option.some.injEq] at h
    exact .inr ⟨by omega, h.2.symm⟩

lemma reverse_cons_of_get {l : List Nat} {k i n : Nat} (h : l.reverse[n]? = some i) :
    (k :: l).reverse[n]? = some i := by
  rw [List.reverse_cons, List.getElem?_append_left (List.getElem?_eq_some_iff.mp h).1, h]

/-- **A task enters the queue**: it is the last of all exactly if the main thread has offered it. -/
lemma offers (h : Work d) {s : Submission Graph (Option Nat)}
    (ht : d.writer.calls.get? t = some (.writing s (.offering k)))
    (hs : v.stage = d.stage)
    (hcalls : v.writer.calls = d.writer.calls.put t (.writing s (.notifying k)))
    (hacc : v.writer.queue.accepted = k :: d.writer.queue.accepted)
    (hrem : v.writer.queue.removed = d.writer.queue.removed)
    (henv : v.writer.envelopes = d.writer.envelopes) (hworker : WorkerPart v.writer)
    (hcredit : v.credit = d.credit + 1)
    (hjob : s.work = Graph.job d.writer.queue.accepted.length)
    (hmain : t = .client 0 → d.writer.queue.accepted.length = 400)
    (hcell : (d.writer.cell k).ready = false) : Work v := by
  have hcells : ∀ k, v.writer.cell k = d.writer.cell k := fun _ => by
    rw [Writer.cell, Writer.cell, henv]
  have htold : v.told = d.told := by
    rw [told, told, hs, hcalls]
    by_cases h0 : t = .client 0
    · subst h0
      rw [Roster.get?_put_self, ht]
      cases d.stage <;> rfl
    · rw [Roster.get?_put_ne _ _ (Ne.symm h0)]
  -- who is in a write afterwards has made the offer, or was in that write before
  have hback : ∀ {u : Thread} {s' : Submission Graph (Option Nat)} {stage : WriteStage},
      v.writer.calls.get? u = some (.writing s' stage) → u = t ∧ s' = s ∧ stage = .notifying k ∨
        d.writer.calls.get? u = some (.writing s' stage) := by
    intro u s' stage hu
    rw [hcalls, Roster.get?_put] at hu
    split at hu
    · rename_i hut
      cases hu
      exact .inl ⟨hut, rfl, rfl⟩
    · exact .inr hu
  refine ⟨?_, fun u s' i hu => ?_, fun n i hn => ?_, fun hd i => ?_, fun hd n i hn hr => ?_,
    fun s' stage i hu he hi => ?_, fun s' i hu => ?_, fun hd => ?_, hworker⟩
  · rw [hacc, hcredit, List.length_cons, h.count]
  · rw [henv]
    rcases hback hu with ⟨-, -, he⟩ | hu
    · cases he
    · exact h.offered u s' i hu
  · rw [henv]
    rw [hacc] at hn
    rcases reverse_cons_get hn with hn | ⟨rfl, rfl⟩
    · exact h.tickets n i hn
    · exact hjob ▸ h.offered t s i ht
  · rw [hcells]
    exact h.calm (htold ▸ hd) i
  · rw [hcells] at hr ⊢
    rw [hacc] at hn
    rcases reverse_cons_get hn with hn | ⟨rfl, rfl⟩
    · exact h.shows (htold ▸ hd) n i hn hr
    · rw [hcell] at hr
      cases hr
  · rw [hacc]
    rcases hback hu with ⟨ht0, -, rfl⟩ | hu
    · cases hi
      rw [List.reverse_cons, List.getElem?_append_right, List.length_reverse, hmain ht0.symm]
      · rfl
      · rw [List.length_reverse, hmain ht0.symm]
    · exact reverse_cons_of_get (h.last s' stage i hu he hi)
  · rw [hcells]
    rcases hback hu with ⟨-, -, he⟩ | hu
    · cases he
    · exact h.ready s' i hu
  · rw [hrem, h.done (htold ▸ hd)]

/-- The worker is somewhere else, and nothing of the tasks has changed but their number. -/
lemma works (h : Work d) (hs : v.stage = d.stage) (hsent : v.sent = d.sent)
    (hcalls : v.writer.calls = d.writer.calls)
    (hacc : v.writer.queue.accepted = d.writer.queue.accepted)
    (henv : v.writer.envelopes = d.writer.envelopes)
    (hdone : d.told = true → v.writer.queue.removed.length = 401) (ht : WorkerPart v.writer) :
    Work v := by
  refine h.turn (.of_eq hacc henv) (h.sameLast hs (hcalls ▸ rfl)) ?_ (fun t s k hv => ?_) hdone ht
  · have hcredit := credit_of_main (d := d) (v := v) hsent fun _ _ => by rw [hcalls]
    rw [mainCredit, mainCredit, hs, hcalls] at hcredit
    omega
  · exact henv ▸ h.offered t s k (hcalls ▸ hv)

lemma takes (h : Work d) {l : List Nat} (hs : v.stage = d.stage) (hsent : v.sent = d.sent)
    (hcalls : v.writer.calls = d.writer.calls)
    (hacc : v.writer.queue.accepted = d.writer.queue.accepted)
    (henv : v.writer.envelopes = d.writer.envelopes)
    (hitems : d.writer.queue.items = k :: l)
    (hsplit : d.writer.queue.accepted = d.writer.queue.items.reverse ++ d.writer.queue.removed)
    (hbound : d.writer.queue.accepted.length ≤ 401)
    (hrem : v.writer.queue.removed = k :: d.writer.queue.removed)
    (hy : d.writer.cycles.get? (.worker 0) = none)
    (hy' : v.writer.cycles.get? (.worker 0) = some (.dequeued k))
    (hr : v.writer.resource = d.writer.resource)
    (he : v.writer.ledger.executed = d.writer.ledger.executed) : Work v := by
  refine h.works hs hsent hcalls hacc henv (fun hd => ?_) ?_
  · have hlen := congrArg List.length hsplit
    rw [hitems, List.length_append, List.length_reverse, List.length_cons, h.done hd] at hlen
    omega
  · cases h.worker with
    | rests _ hr' he' =>
      refine .inHand hy' hrem ?_
      rw [hr, he, hr', he']
      exact .dequeued
    | inHand hy'' _ _ =>
      rw [hy] at hy''
      cases hy''

/-! ### Cells -/

lemma index_of_inHand {accepted removed items l : List Nat}
    (hsplit : accepted = items.reverse ++ removed) (hnodup : accepted.Nodup)
    (hl : removed = k :: l) : accepted.reverse[n]? = some k ↔ n = l.length := by
  have hget : accepted.reverse[l.length]? = some k := by
    rw [hsplit, hl, List.reverse_append, List.reverse_cons, List.reverse_reverse,
      List.append_assoc, List.getElem?_append_right (by rw [List.length_reverse]),
      List.length_reverse, Nat.sub_self]
    rfl
  refine ⟨fun hn => ?_, fun hn => hn ▸ hget⟩
  obtain ⟨hlt, hk⟩ := List.getElem?_eq_some_iff.mp hn
  obtain ⟨hlt', hk'⟩ := List.getElem?_eq_some_iff.mp hget
  exact (List.Nodup.getElem_inj_iff (List.nodup_reverse.mpr hnodup)).mp (hk.trans hk'.symm)

/-- **The worker goes on with the task in hand**: it may win its cell, and show there what the task
gives. -/
lemma of_cellChange (h : Work d) {l : List Nat} {f : Cell (Option Nat) → Cell (Option Nat)}
    (hs : v.stage = d.stage) (hsent : v.sent = d.sent)
    (hcalls : v.writer.calls = d.writer.calls)
    (hacc : v.writer.queue.accepted = d.writer.queue.accepted)
    (hrem : v.writer.queue.removed = d.writer.queue.removed)
    (hsplit : d.writer.queue.accepted = d.writer.queue.items.reverse ++ d.writer.queue.removed)
    (hnodup : d.writer.queue.accepted.Nodup) (hl : d.writer.queue.removed = k :: l)
    (henv : v.writer.envelopes = changeCellAt d.writer.envelopes k f)
    (hcalm : ∀ a, (f a).interrupted = a.interrupted ∧ (f a).error = a.error)
    (hready : ∀ a, a.ready = true → (f a).ready = true)
    (hvalue : ∀ a, (f a).ready = true → (f a).value = some (Graph.gift l.length) ∨
      a.ready = true ∧ (f a).value = a.value) (ht : WorkerPart v.writer) : Work v := by
  have hcell : ∀ i, v.writer.cell i = d.writer.cell i ∨ i = k ∧
      v.writer.cell i = f (d.writer.cell i) := by
    intro i
    have hi := cellAt_changeCellAt_or d.writer.envelopes k f i
    rwa [← henv] at hi
  have htold : v.told = d.told := by rw [told, told, hs, hcalls]
  have hcredit := credit_of_main (d := d) (v := v) hsent fun _ _ => by rw [hcalls]
  rw [mainCredit, mainCredit, hs, hcalls] at hcredit
  refine ⟨?_, fun t s i hv => ?_, fun n i hn => ?_, fun hd i => ?_, fun hd n i hn hr => ?_, ?_,
    fun s i hv => ?_, fun hd => ?_, ht⟩
  · rw [hacc, h.count]
    omega
  · rw [henv]
    exact (h.offered t s i (hcalls ▸ hv)).change f
  · rw [henv]
    exact (h.tickets n i (hacc ▸ hn)).change f
  · have hi := h.calm (htold ▸ hd) i
    rcases hcell i with hc | ⟨-, hc⟩
    · rwa [hc]
    · rw [hc, (hcalm _).1, (hcalm _).2]
      exact hi
  · have hi := h.shows (htold ▸ hd) n i (hacc ▸ hn)
    rcases hcell i with hc | ⟨rfl, hc⟩
    · rw [hc] at hr ⊢
      exact hi hr
    · rw [hc] at hr ⊢
      rcases hvalue _ hr with hv | ⟨hr', hv⟩
      · have hn' : n = l.length := (index_of_inHand hsplit hnodup hl).mp (hacc ▸ hn)
        rw [hv, hn']
      · rw [hv, hi hr']
  · rw [hcalls, hacc]
    exact h.last
  · have hi := h.ready s i (hcalls ▸ hv)
    rcases hcell i with hc | ⟨-, hc⟩
    · rwa [hc]
    · rw [hc]
      exact hready _ hi
  · rw [hrem, h.done (htold ▸ hd)]

lemma collects (h : Work d) (hs : v.stage = .waiting)
    (hcall : v.writer.calls.get? (.client 0) = some (.ended (.ok (some (some 400)))))
    (hcalls : ∀ t, t ≠ .client 0 → v.writer.calls.get? t = d.writer.calls.get? t)
    (hcredit : v.credit = d.credit)
    (hacc : v.writer.queue.accepted = d.writer.queue.accepted)
    (hrem : v.writer.queue.removed.length = 401)
    (henv : v.writer.envelopes = changeCellAt d.writer.envelopes k fun a => a.take.2)
    (ht : WorkerPart v.writer) : Work v := by
  have htold : v.told = true := by
    rw [told, hs, hcall]
    rfl
  have hno : ∀ s stage, v.writer.calls.get? (.client 0) ≠ some (.writing s stage) := by
    rw [hcall]
    exact fun _ _ h => by cases h
  refine ⟨?_, fun t s i hv => ?_, fun n i hn => ?_, fun hd => ?_, fun hd => ?_,
    fun s stage _ hv => absurd hv (hno s stage), fun s i hv => absurd hv (hno s _), fun _ => hrem,
    ht⟩
  · rw [hacc, hcredit, h.count]
  · have hne : t ≠ .client 0 := fun h0 => hno s _ (h0 ▸ hv)
    rw [henv]
    exact (h.offered t s i (hcalls t hne ▸ hv)).change _
  · rw [henv]
    exact (h.tickets n i (hacc ▸ hn)).change _
  · rw [htold] at hd
    cases hd
  · rw [htold] at hd
    cases hd

end Work

end Demo

end SerialWriter
