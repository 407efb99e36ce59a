import SerialWriter.Proofs.Demo.Rank

/-!
Who takes part in a demonstration: the main thread, four producers and one worker, which makes no
calls of its own.
-/

namespace SerialWriter

namespace Demo

variable {d v : Demo} {t : Thread} {n k p : Nat}

open Writer (Move)

/-! ### What every writer keeps -/

namespace Kept

variable {w u : Writer Graph (Option Nat)} {m : Writer.Move Graph (Option Nat)}

lemma step (h : Kept w) (hs : w.step m = some u) (hq : u.journal.armed = none)
    (hr : ∀ t, u.calls.get? t ≠ some .releasing) : Kept u := by
  have hl := h.tuned.linked
  have haff := Writer.affairs_of_step hl hs
  exact ⟨h.toPoised.step hs hq, h.ordered.step hl (Writer.step_course hs) hr, h.stored.step haff,
    h.entered.step haff, h.decided.step (Writer.sane_of_ordered hl h.ordered) haff hr⟩

lemma run (h : Kept w) (hs : w.step (.run t) = some u)
    (hw : ∀ t, w.calls.get? t ≠ some .releasing) (hu : u.calls.get? t ≠ some .releasing) :
    Kept u := by
  refine h.step hs (Writer.unarmed_of_run hs h.quiet) fun s => ?_
  by_cases hst : s = t
  · exact hst ▸ hu
  · rw [(Writer.run_sameBut hs).calls s hst]
    exact hw s

lemma acknowledge (h : Kept w) {r : Except Failure (Option (Option Nat))}
    (hr : w.calls.get? (.client k) = some (.ended r))
    (hw : ∀ t, w.calls.get? t ≠ some .releasing) :
    Kept { w with calls := w.calls.drop (.client k) } := by
  have hs : w.step (.acknowledge k) = some { w with calls := w.calls.drop (.client k) } := by
    simp only [Writer.step, Writer.result?, hr, Option.isSome_some, if_true]
  refine h.step hs h.quiet fun t ht => ?_
  rw [Roster.get?_drop, Option.ite_none_left_eq_some] at ht
  exact hw t ht.2

lemma request (h : Kept w) (r : WriterRequest Graph (Option Nat))
    (hn : w.calls.get? (.client k) = none) (hw : ∀ t, w.calls.get? t ≠ some .releasing) :
    Kept (w.request (.client k) r) := by
  have hs : w.step (.request k r) = some (w.request (.client k) r) := by
    simp only [Writer.step, hn, Option.isNone_none, if_true]
  refine h.step hs (by cases r <;> exact h.quiet) fun t ht => ?_
  cases r <;>
    (change (w.calls.put _ _).get? t = _ at ht
     rw [Roster.get?_put] at ht
     split at ht
     · cases ht
     · exact hw t ht)

lemma opening (spawns : Bool) : Kept (opening spawns).writer := by
  have hc : Writer.create config Graph.description
      (some fun _ => .ok Graph.transaction) {} 0 mainThread {} =
        (.ok (Demo.opening spawns).writer, (Demo.opening spawns).writer.journal) := rfl
  obtain ⟨-, ho⟩ := Writer.ordered_of_run hc (.refl fun _ => nofun)
  exact ⟨.of_reachable hc .refl rfl nofun, ho, ⟨rfl, rfl⟩, ⟨.empty, rfl⟩,
    Writer.decided_of_run hc (.refl fun _ => nofun)⟩

end Kept

/-! ### Calls -/

lemma Staff.Of.eq_zero {c : Control} {s : Staff} {st : WorkerStage} (h : s.Of c)
    (hn : c.worker? n = some st) : n = 0 := by
  cases s with
  | unborn =>
    rw [Control.worker?, h.2] at hn
    cases hn
  | alive =>
    obtain ⟨-, st', hw, -⟩ := h
    rw [Control.worker?, hw, List.getElem?_singleton, Option.ite_none_right_eq_some] at hn
    exact hn.1
  | buried =>
    rw [Control.worker?, h.2, List.getElem?_singleton, Option.ite_none_right_eq_some] at hn
    exact hn.1

lemma TaskProgress.ne_calling {a : Cell (Option Nat)} {y : CycleStage Graph (Option Nat)}
    {g : Graph} {e i : Nat}
    {f : Except Failure (Option (Option Nat)) → BodyStage Graph (Option Nat)}
    (h : TaskProgress a n k y g e) : y ≠ .running i (.calling f) := by
  rintro rfl
  cases h

namespace Script

lemma worker_idle (h : Script d) (n : Nat) : d.writer.calls.get? (.worker n) = none := by
  refine Option.eq_none_iff_forall_ne_some.mpr fun a ha => ?_
  obtain ⟨k, f, hy⟩ := (h.kept.tuned.linked.fits _).task n a rfl ha
  obtain ⟨last, hw⟩ := h.kept.tuned.linked.cycling hy
  obtain ⟨s, -, hs⟩ := h.main
  obtain rfl := hs.eq_zero hw
  change d.writer.cycles.get? (.worker 0) = _ at hy
  cases h.work.worker with
  | rests hn _ _ =>
    rw [hn] at hy
    cases hy
  | inHand hy' _ hd =>
    rw [hy'] at hy
    exact hd.ne_calling (Option.some.inj hy)

lemma exists_producer (h : Script d) (hc : d.writer.calls.get? (.client (p + 1)) ≠ none) :
    p < 4 := by
  have hlen := h.four
  have hlt : ∀ {i : Nat}, d.sent[p]? = some i → p < 4 := fun hi =>
    hlen ▸ (List.getElem?_eq_some_iff.mp hi).1
  cases h.producers p with
  | absent _ ha => exact absurd ha hc
  | idle hi _ _ ha => exact hlt hi
  | writes _ hi _ _ _ => exact hlt hi
  | wrote _ hi _ _ => exact hlt hi

lemma intact (h : Script d) (t : Thread) : d.writer.calls.get? t ≠ some .releasing := by
  intro ht
  cases t with
  | worker n =>
    rw [h.worker_idle n] at ht
    cases ht
  | client c =>
    cases c with
    | zero =>
      obtain ⟨s, hplot, -⟩ := h.main
      have hcall : d.view.call = some .releasing := ht
      generalize d.view = x at hplot hcall
      cases hplot <;> cases hcall
    | succ p =>
      cases h.producers p with
      | absent _ ha | idle _ _ _ ha | writes _ _ _ ha _ | wrote _ _ _ ha =>
        rw [ha] at ht
        cases ht

end Script

/-! ### Deadlines -/

lemma callDeadline_congr {w u : Writer Graph (Option Nat)}
    (hc : u.calls.get? t = w.calls.get? t)
    (hk : u.control.calls.get? t = w.control.calls.get? t) :
    u.callDeadline? t = w.callDeadline? t := by
  rw [Writer.callDeadline?, Writer.callDeadline?, Control.deadline?, Control.deadline?, hc, hk]

/-- **Only the main thread waits in a call.** -/
lemma inTime_of_main (hk : Kept v.writer) (hp : ∀ p, Producer v p)
    (hw : ∀ n, v.writer.calls.get? (.worker n) = none)
    (h : ∀ b, v.writer.callDeadline? (.client 0) = some b → v.writer.now < b)
    (ha : ∀ ms ∈ waits, v.writer.now < v.writer.now.after ms) : v.InTime := by
  have hl := hk.tuned.linked
  -- outside the control only a write that waits has a deadline
  have hout : ∀ t, (∀ a, v.writer.calls.get? t = some a → a.inControl = false) →
      (∀ s i b, v.writer.calls.get? t ≠ some (.writing s (.waiting i b))) →
      v.writer.callDeadline? t = none := by
    intro t ha hn
    have hc : v.writer.control.calls.get? t = none := hl.outside ha
    unfold Writer.callDeadline?
    split
    · rename_i s i b hb
      exact absurd hb (hn s i b)
    · rw [Control.deadline?, hc]
  refine ⟨fun t b hb => ?_, ha⟩
  cases t with
  | worker n =>
    rw [hout _ (by simp [hw n]) (by simp [hw n])] at hb
    cases hb
  | client c =>
    cases c with
    | zero => exact h b hb
    | succ p =>
      refine absurd hb ?_
      cases hp p with
      | absent _ ha | idle _ _ _ ha =>
        rw [hout _ (by simp [ha]) (by simp [ha])]
        simp
      | @writes _ stage _ _ _ ha hbrief =>
        rw [hout _ (by simp [ha, CallOfWriter.inControl]) (by
          rw [ha]
          rintro s i b ⟨⟩
          cases hbrief)]
        simp
      | wrote _ _ _ ha =>
        rw [hout _ (by simp [ha, CallOfWriter.inControl]) (by simp [ha])]
        simp

end Demo

end SerialWriter
