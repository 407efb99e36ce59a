import SerialWriter.Proofs.Demo.Leaving

/-!
Every move of a demonstration keeps to the script: besides the steps of its threads, time may pass,
and a thread that waits may wake up for no reason.
-/

namespace SerialWriter

lemma CallStage.deadline?_roused (s : CallStage) : s.roused.deadline? = s.deadline? := by
  cases s with
  | start b s => cases s <;> rfl
  | stop b s => cases s <;> rfl
  | destroy s => rfl
  | ended r => rfl

namespace Demo

variable {d v : Demo} {t : Thread} {ns : Nat} {x : View} {s : Staff}
  {u : Writer Graph (Option Nat)}

lemma Plot.roused (h : Plot x s) : Plot { x with control := x.control.map CallStage.roused } s := by
  cases h with
  | writes hs => exact .writes hs
  | _ => constructor

lemma AfterReport.roused (h : AfterReport x) :
    AfterReport { x with control := x.control.map CallStage.roused } := by
  cases h <;> constructor

lemma view_of_roused {c : CallStage} (hc : d.writer.control.calls.get? t = some c) :
    view { d with writer := { d.writer with control := d.writer.control.setCall t c.roused } } =
      d.view ∨ view { d with writer := { d.writer with
        control := d.writer.control.setCall t c.roused } } =
          { d.view with control := d.view.control.map CallStage.roused } := by
  by_cases h0 : t = .client 0
  · subst h0
    have hold : d.view.control = some c := hc
    refine .inr (View.ext rfl rfl ?_ rfl rfl)
    rw [hold]
    exact Roster.get?_put_self d.writer.control.calls (.client 0) c.roused
  · exact .inl (View.ext rfl rfl (Roster.get?_put_ne _ _ (Ne.symm h0)) rfl rfl)

lemma stir_cases (hs : d.next (.stir t) = some v) :
    ∃ u, d.writer.step (.stir t) = some u ∧ v = { d with writer := u } ∧
      ((∃ c, d.writer.control.calls.get? t = some c ∧
        u = { d.writer with control := d.writer.control.setCall t c.roused }) ∨
          u = { d.writer with queue := d.writer.queue.rouse t }) := by
  obtain ⟨u, hu, rfl⟩ := Option.map_eq_some_iff.mp hs
  refine ⟨u, hu, rfl, ?_⟩
  simp only [Writer.step] at hu
  split at hu
  · rename_i c hc
    exact .inl ⟨c, hc, (Option.some.inj hu).symm⟩
  · exact .inr (Option.some.inj hu).symm

namespace Script

lemma passes (h : Script d) (hv : (d.pass ns).InTime) : Script (d.pass ns) := by
  obtain ⟨s, hplot, hstaff⟩ := h.main
  have hrun : d.writer.step (.pass ns) = some (d.pass ns).writer := rfl
  refine h.turn (h.kept.step hrun h.kept.quiet h.intact)
    (h.settings.of_eq rfl rfl rfl h.settings.queue rfl rfl rfl) rfl hplot hstaff (fun _ _ => rfl)
    (fun p => (h.producers p).congr rfl rfl rfl) rfl rfl h.output rfl hv.ahead
    (hv.waiting (.client 0)) ?_ h.alert
    fun hp hw => h.heard_of_step hrun hp hw
  exact h.work.works rfl rfl rfl rfl rfl h.work.done
    (h.work.worker.congr rfl rfl rfl rfl fun _ => rfl)

lemma stirs_in_call (h : Script d) {c : CallStage} (hc : d.writer.control.calls.get? t = some c)
    (hrun : d.writer.step (.stir t) =
      some { d.writer with control := d.writer.control.setCall t c.roused }) :
    Script { d with writer := { d.writer with
      control := d.writer.control.setCall t c.roused } } := by
  obtain ⟨s, hplot, hstaff⟩ := h.main
  obtain ⟨x, hx, hplot'⟩ : ∃ x, view { d with writer := { d.writer with
      control := d.writer.control.setCall t c.roused } } = x ∧ Plot x s :=
    ⟨_, rfl, (view_of_roused hc).elim (fun hv => hv ▸ hplot) fun hv => hv ▸ hplot.roused⟩
  have hget : ∀ t', (d.writer.control.setCall t c.roused).calls.get? t' =
      (if t' = t then some c.roused else d.writer.control.calls.get? t') := fun t' =>
    Roster.get?_put ..
  refine h.turn (h.kept.step hrun h.kept.quiet h.intact)
    (h.settings.of_eq rfl rfl rfl h.settings.queue rfl rfl rfl) hx hplot'
    (by cases s <;> exact hstaff)
    (fun _ _ => rfl) (fun p => (h.producers p).congr rfl rfl rfl) rfl rfl h.output rfl
    h.inTime.ahead (fun b hb => h.inTime.waiting (.client 0) b ?_) ?_ h.alert
    fun hp hw => h.heard_of_step hrun hp ?_
  · rw [← hb, Writer.callDeadline?, Writer.callDeadline?, Control.deadline?_eq,
      Control.deadline?_eq, hget]
    split_ifs with h0
    · rw [h0, hc, Option.bind_some, Option.bind_some, CallStage.deadline?_roused]
    · rfl
  · exact h.work.works rfl rfl rfl rfl rfl h.work.done
      (h.work.worker.congr rfl rfl rfl rfl fun _ => rfl)
  · rw [Bool.eq_false_iff] at hw ⊢
    refine fun hwaking => hw (Control.waking_iff.mpr ?_)
    obtain ⟨closing, hclosing⟩ := Control.waking_iff.mp hwaking
    refine ⟨closing, (hget _).trans ?_⟩
    split_ifs with h0
    · rw [h0, hc, Option.some.injEq] at hclosing
      rw [hclosing]
      rfl
    · exact hclosing

lemma stirs_in_take (h : Script d)
    (hrun : d.writer.step (.stir t) =
      some { d.writer with queue := d.writer.queue.rouse t }) :
    Script { d with writer := { d.writer with queue := d.writer.queue.rouse t } } := by
  obtain ⟨s, hplot, hstaff⟩ := h.main
  have hlog := SharedQueue.SameLog.rouse d.writer.queue t
  refine h.turn (h.kept.step hrun h.kept.quiet h.intact)
    (h.settings.of_eq rfl rfl rfl (h.settings.queue.rouse t) rfl rfl rfl) rfl hplot hstaff
    (fun _ _ => rfl) (fun p => (h.producers p).congr rfl rfl rfl) rfl rfl h.output rfl
    h.inTime.ahead (h.inTime.waiting (.client 0)) ?_ (fun b hb => ?_)
    fun hp hw => h.heard_of_step hrun hp hw
  · exact h.work.works rfl rfl rfl hlog.accepted rfl
      (fun hd => (congrArg List.length hlog.removed).trans (h.work.done hd))
      (h.work.worker.congr rfl hlog.removed rfl rfl fun _ => rfl)
  · obtain ⟨b', hb', hle⟩ := (SharedQueue.Rouses.rouse d.writer.queue t).waiting hb
    cases b' with
    | true => cases hle rfl
    | false => exact (h.alert b hb').imp_left hlog.items.trans

theorem next (h : Script d) {m : Move} (hs : d.next m = some v) (hv : v.InTime) :
    Script v ∨ Leaves v := by
  cases m with
  | go t =>
    cases t with
    | worker n => exact .inl (h.worker_goes hs).1
    | client c =>
      cases c with
      | zero => exact (h.main_goes hs).imp_left And.left
      | succ p => exact .inl (h.producer_goes hs).1
  | stir t =>
    obtain ⟨u, hu, rfl, ⟨c, hc, rfl⟩ | rfl⟩ := stir_cases hs
    · exact .inl (h.stirs_in_call hc hu)
    · exact .inl (h.stirs_in_take hu)
  | pass ns =>
    cases hs
    exact .inl (h.passes hv)

end Script

theorem Leaves.next (h : Leaves d) {m : Move} (hs : d.next m = some v) : Leaves v := by
  cases m with
  | go t => exact (h.goes hs).1
  | stir t =>
    obtain ⟨u, hu, rfl, ⟨c, hc, rfl⟩ | rfl⟩ := stir_cases hs
    · refine ⟨(view_of_roused hc).elim (fun hv => hv ▸ h.stage) fun hv => hv ▸ h.stage.roused,
        h.staff, h.idle, fun t' ht' => ?_, h.items, h.output, h.errors⟩
      -- only the main thread can be told anything
      by_cases htt : t' = t
      · cases hc.symm.trans (h.outside t (htt ▸ ht'))
      · exact (Roster.get?_put_ne _ _ htt).trans (h.outside t' ht')
    · exact ⟨h.stage, h.staff, h.idle, h.outside, (SharedQueue.items_rouse _ _).trans h.items,
        h.output, h.errors⟩
  | pass ns =>
    cases hs
    exact ⟨h.stage, h.staff, h.idle, h.outside, h.items, h.output, h.errors⟩

end Demo

end SerialWriter
