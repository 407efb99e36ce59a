import Mathlib.Tactic.IntervalCases
import SerialWriter.Proofs.Demo.Writes

/-!
The producers of a demonstration: each submits its share, and whatever one of them does keeps to the
script.
-/

namespace SerialWriter

open Finset

lemma WriteStage.smooth_of_brief {s : WriteStage} (h : s.brief = true) : s.smooth = true := by
  cases s <;> first | rfl | cases h

namespace Demo

variable {d v : Demo} {t : Thread} {n k p i : Nat} {stage : WriteStage}
  {u w : Writer Graph (Option Nat)}

/-! ### Steps of the program -/

lemma step_of_call {a : CallOfWriter Graph (Option Nat)} (ha : d.writer.calls.get? t = some a)
    (hn : ∀ r, a ≠ .ended r) :
    d.step t = (d.writer.step (.run t)).map fun writer => { d with writer } := by
  unfold Demo.step
  rw [ha]
  cases a with
  | ended r => exact absurd rfl (hn r)
  | _ => cases t <;> rfl

lemma step_worker (d : Demo) (n : Nat) : d.step (.worker n) =
    (d.writer.step (.run (.worker n))).map fun writer => { d with writer } := rfl

lemma step_ended {r : Except Failure (Option (Option Nat))}
    (ha : d.writer.calls.get? (.client k) = some (.ended r)) : d.step (.client k) =
      some ({ d with writer := { d.writer with
        calls := d.writer.calls.drop (.client k) } }.resume k r) := by
  unfold Demo.step
  rw [ha]

lemma step_idle (ha : d.writer.calls.get? (.client k) = none) :
    d.step (.client k) = d.begin? k := by
  unfold Demo.step
  rw [ha]

lemma now_of_begin (hs : d.begin? k = some v) : v.writer.now = d.writer.now := by
  unfold begin? at hs
  split at hs
  · split at hs
    · cases hs
      rfl
    · rw [Option.ite_none_right_eq_some] at hs
      cases hs.2
      rfl
    · cases hs
  · split at hs
    · rw [Option.ite_none_right_eq_some] at hs
      cases hs.2
      rfl
    · cases hs

lemma now_resume (d : Demo) (k : Nat) (r : Except Failure (Option (Option Nat))) :
    (d.resume k r).writer.now = d.writer.now := by
  cases k with
  | succ p => rfl
  | zero =>
    simp only [resume, resumeMain]
    repeat' split
    all_goals rfl

lemma now_of_step (hs : d.step t = some v) : v.writer.now = d.writer.now := by
  unfold Demo.step at hs
  split at hs
  · exact now_of_begin hs
  · cases hs
    exact now_resume ..
  · obtain ⟨u, hu, rfl⟩ := Option.map_eq_some_iff.mp hs
    exact Writer.now_of_run hu

/-! ### What a producer is in the middle of -/

namespace Producer

lemma congr (h : Producer d p) (hs : v.stage = d.stage) (hi : v.sent[p]? = d.sent[p]?)
    (hc : v.writer.calls.get? (.client (p + 1)) = d.writer.calls.get? (.client (p + 1))) :
    Producer v p := by
  cases h with
  | absent hi' ha => exact .absent (hi.trans hi') (hc.trans ha)
  | idle hi' hle hd ha => exact .idle (hi.trans hi') hle (hs ▸ hd) (hc.trans ha)
  | writes hs' hi' hlt ha hb => exact .writes (hs.trans hs') (hi.trans hi') hlt (hc.trans ha) hb
  | wrote hs' hi' hlt ha => exact .wrote (hs.trans hs') (hi.trans hi') hlt (hc.trans ha)

lemma credit_le (h : Producer d p) : d.creditOf p ≤ 100 := by
  unfold creditOf
  cases h with
  | absent hi ha =>
    rw [hi, ha]
    exact Nat.zero_le _
  | idle hi hle _ ha =>
    rw [hi, ha]
    exact hle
  | @writes i stage _ hi hlt ha _ =>
    rw [hi, ha]
    change i + stage.entered.toNat ≤ 100
    have hle := Bool.toNat_le stage.entered
    change i < 100 at hlt
    omega
  | wrote _ hi hlt ha =>
    rw [hi, ha]
    exact hlt

end Producer

/-- With all but one of their tasks at most, the producers have entered fewer than 400. -/
lemma credit_lt (h : ∀ p, Producer d p) (hp : p < 4) (hlt : d.creditOf p < 100)
    (hm : d.mainCredit = 0) : d.credit < 400 := by
  have h0 := (h 0).credit_le
  have h1 := (h 1).credit_le
  have h2 := (h 2).credit_le
  have h3 := (h 3).credit_le
  simp only [credit, hm, sum_range_succ, sum_range_zero]
  interval_cases p <;> omega

lemma credit_le (h : ∀ p, Producer d p) : d.credit ≤ 400 + d.mainCredit := by
  have h0 := (h 0).credit_le
  have h1 := (h 1).credit_le
  have h2 := (h 2).credit_le
  have h3 := (h 3).credit_le
  simp only [credit, sum_range_succ, sum_range_zero]
  omega

lemma credit_of_late (hn : d.sent.length = 4) (h : ∀ p, Producer d p)
    (hs : d.stage.late = true) : d.credit = 400 + d.mainCredit := by
  have hall : ∀ p, p < 4 → d.creditOf p = 100 := by
    intro p hp
    have hsome : d.sent[p]? ≠ none := by
      rw [List.getElem?_eq_getElem (hn.symm ▸ hp)]
      simp
    cases h p with
    | absent hi _ => exact absurd hi hsome
    | idle hi _ hd ha =>
      rw [creditOf, hi, ha, hd hs]
      rfl
    | writes hp _ _ _ _ | wrote hp _ _ _ =>
      rw [hp] at hs
      cases hs
  simp only [credit, sum_range_succ, sum_range_zero, hall 0 (by decide), hall 1 (by decide),
    hall 2 (by decide), hall 3 (by decide)]

lemma mainCredit_le (d : Demo) : d.mainCredit ≤ 1 := by
  unfold mainCredit DemoStage.credit
  split
  · exact Nat.zero_le _
  · exact Nat.zero_le _
  · exact Nat.zero_le _
  · unfold enteredBy
    split
    · exact Bool.toNat_le _
    · exact Nat.le_refl _
    · exact Nat.zero_le _
  all_goals exact Nat.le_refl _

lemma Plot.producing {x : View} {s : Staff} (h : Plot x s) (hx : x.stage = .producing) :
    x = ⟨.producing, none, none, .running, none⟩ := by
  cases h <;> first | rfl | cases hx

namespace Script

lemma accepted_le (h : Script d) : d.writer.queue.accepted.length ≤ 401 := by
  have hle := credit_le h.producers
  have hmain := d.mainCredit_le
  rw [h.work.count]
  omega

lemma producing (h : Script d) (hs : d.stage = .producing) :
    d.view = ⟨.producing, none, none, .running, none⟩ := by
  obtain ⟨s, hplot, -⟩ := h.main
  exact hplot.producing hs

lemma inWrite_of_producer (h : Script d) (hs : d.stage = .producing) (hi : d.sent[p]? = some i)
    (hlt : i < share)
    (ha : d.writer.calls.get? (.client (p + 1)) = some (.writing (submission p i) stage))
    (hb : stage.brief = true) : InWrite d (p + 1) (submission p i) stage := by
  have hp : p < 4 := h.exists_producer (by rw [ha]; simp)
  have hmain : d.mainCredit = 0 := by
    rw [mainCredit, hs]
    rfl
  have hcount := h.work.count
  have hoffer : ∀ k, stage = .offering k → d.writer.queue.accepted.length < 400 := by
    rintro k rfl
    rw [hcount]
    refine credit_lt h.producers hp ?_ hmain
    rw [creditOf, hi, ha]
    exact hlt
  refine ⟨ha, WriteStage.smooth_of_brief hb, fun v hv hsent hc => ?_, fun k hk => ?_,
    fun k hk => (hoffer k hk).le, fun _ _ h0 => absurd h0 p.succ_ne_zero, ?_, ?_,
    ⟨fun h0 => absurd h0 p.succ_ne_zero, fun hw => ?_⟩, fun _ => hb,
    fun h0 => absurd h0 p.succ_ne_zero, fun h0 => absurd h0 p.succ_ne_zero⟩
  · have hcredit := credit_of_producer hp hv (fun _ _ => by rw [hsent]) hc
    rw [creditOf, creditOf, hsent] at hcredit
    omega
  · have hne : d.writer.queue.accepted.length ≠ 400 := (hoffer k hk).ne
    rw [Graph.job, if_neg hne]
    rfl
  · exact h.accepted_le
  · exact congrArg View.phase (h.producing hs)
  · exact absurd hw (Int.lt_irrefl 0)

/-! ### A step of a producer -/

/-- The demonstration after a step of a producer: only its call and the tasks have changed. -/
lemma of_producer (h : Script d) (hp : p < 4) (hs : d.stage = .producing)
    (hv : v.stage = .producing) (hkept : Kept v.writer) (hset : Settings v.writer)
    (hcontrol : v.writer.control = d.writer.control) (hnow : v.writer.now = d.writer.now)
    (hc : ∀ t, t ≠ .client (p + 1) → v.writer.calls.get? t = d.writer.calls.get? t)
    (hi : ∀ q, q ≠ p → v.sent[q]? = d.sent[q]?) (hproducer : Producer v p)
    (hspawns : v.spawns = d.spawns) (hlen : v.sent.length = d.sent.length)
    (ho : v.output = d.output) (he : v.errors = d.errors) (hwork : Work v)
    (halert : ∀ b, v.writer.queue.stages.get? (.worker 0) = some (.waiting b false) →
      v.writer.queue.items = [] ∨ ∃ t s k, v.writer.calls.get? t = some (.writing s (.notifying k)))
    (hlt : v.dueOf p + load v.writer < d.dueOf p + load d.writer) :
    Script v ∧ v.rank < d.rank := by
  have hview : v.view = d.view := View.ext (hv.trans hs.symm) (hc _ (by simp))
    (congrArg (·.calls.get? (.client 0)) hcontrol) (congrArg Control.phase hcontrol)
    (congrArg Control.holder hcontrol)
  have hproducers : ∀ q, Producer v q := fun q => by
    by_cases hq : q = p
    · exact hq ▸ hproducer
    · exact (h.producers q).congr (hv.trans hs.symm) (hi q hq) (hc _ (by simpa using hq))
  have hmain := h.producing hs
  have hnone : ∀ w : Writer Graph (Option Nat), w.control = d.writer.control →
      controlDue w = 0 := fun w hw => by
    have hcall := congrArg View.control hmain
    rw [controlDue, hw, show d.writer.control.calls.get? _ = none from hcall]
    rfl
  have hidle : ∀ n, v.writer.calls.get? (.worker n) = none := fun n =>
    (hc _ (by simp)).trans (h.worker_idle n)
  refine ⟨⟨hkept, hset, ?_, hproducers, hspawns.trans h.spawns, hlen.trans h.four, ?_,
    he.trans h.errors, ?_, hwork, halert, fun hstop => ?_⟩, ?_⟩
  · obtain ⟨s, hplot, hstaff⟩ := h.main
    exact ⟨s, hview ▸ hplot, hcontrol ▸ hstaff⟩
  · rw [ho, h.output, hs, hv]
  · refine inTime_of_main hkept hproducers hidle
      (fun b hb => hnow ▸ h.inTime.waiting (.client 0) b ?_) (hnow ▸ h.inTime.ahead)
    rw [← hb]
    exact (callDeadline_congr (hc _ (by simp))
      (congrArg (·.calls.get? (.client 0)) hcontrol)).symm
  · cases (congrArg View.phase (hview.trans hmain)).symm.trans hstop
  · exact rank_lt_of_producer hp (hv.trans hs.symm) hi hc
      ((hnone _ hcontrol).trans (hnone _ rfl).symm) hlt

lemma producer_begins (h : Script d) (hs : d.stage = .producing) (hi : d.sent[p]? = some i)
    (hlt : i < share) (ha : d.writer.calls.get? (.client (p + 1)) = none) :
    Script (d.request (p + 1) (.write (submission p i))) ∧
      (d.request (p + 1) (.write (submission p i))).rank < d.rank := by
  have hp : p < 4 := h.four ▸ (List.getElem?_eq_some_iff.mp hi).1
  have hself : (d.request (p + 1) (.write (submission p i))).writer.calls.get? (.client (p + 1)) =
      some (.writing (submission p i) .checking) := Roster.get?_put_self ..
  have hother : ∀ t, t ≠ .client (p + 1) →
      (d.request (p + 1) (.write (submission p i))).writer.calls.get? t =
        d.writer.calls.get? t := fun t ht => Roster.get?_put_ne _ _ ht
  have hcredit : (d.request (p + 1) (.write (submission p i))).credit = d.credit := by
    have hsum := credit_of_producer (d := d)
      (v := d.request (p + 1) (.write (submission p i))) hp rfl (fun _ _ => rfl) hother
    rw [creditOf, creditOf, hself, ha] at hsum
    exact Nat.add_right_cancel hsum
  refine h.of_producer hp hs hs (h.kept.request (.write _) ha h.intact)
    (h.settings.of_eq rfl rfl rfl h.settings.queue rfl rfl rfl) rfl rfl hother (fun _ _ => rfl)
    (.writes hs hi hlt hself rfl) rfl rfl rfl rfl ?_
    (h.alert_of_call (by simp [ha]) rfl hother) ?_
  · refine h.work.turn (.of_eq rfl rfl) (h.work.sameLast rfl (hother _ (by simp))) hcredit
      (fun t s k hv => ?_) h.work.done (h.work.worker.congr rfl rfl rfl rfl fun _ => rfl)
    by_cases ht : t = .client (p + 1)
    · subst ht
      cases hself.symm.trans hv
    · exact h.work.offered t s k ((hother t ht).symm.trans hv)
  · refine Nat.add_lt_add_right ?_ _
    change i < 100 at hlt
    rw [dueOf, dueOf, hself, ha, show (d.request _ _).sent = d.sent from rfl, hi]
    simp only [Option.getD_some, CallOfWriter.due, WriteStage.due, share]
    omega

lemma producer_writes (h : Script d) (hs : d.stage = .producing) (hi : d.sent[p]? = some i)
    (hlt : i < share)
    (ha : d.writer.calls.get? (.client (p + 1)) = some (.writing (submission p i) stage))
    (hb : stage.brief = true) (hu : d.writer.step (.run (.client (p + 1))) = some u) :
    Script { d with writer := u } ∧ rank { d with writer := u } < d.rank := by
  have hp : p < 4 := h.four ▸ (List.getElem?_eq_some_iff.mp hi).1
  obtain ⟨a, hstep, hturn⟩ := h.write_goes_on (h.inWrite_of_producer hs hi hlt ha hb) hu
  have hself : u.calls.get? (.client (p + 1)) = some a := hstep.calls ▸ Roster.get?_put_self ..
  have hother : ∀ t, t ≠ .client (p + 1) → u.calls.get? t = d.writer.calls.get? t := fun t ht =>
    hstep.calls ▸ Roster.get?_put_ne _ _ ht
  have hkept : Kept u := by
    refine h.kept.run hu h.intact ?_
    rw [hself]
    cases hturn <;> simp
  have hnext : Producer { d with writer := u } p := by
    cases hturn with
    | goesOn _ hb' _ => exact .writes hs hi hlt hself (hb' (Int.le_refl 0))
    | untold _ => exact .wrote hs hi hlt hself
    | told hw => exact absurd hw (Int.lt_irrefl 0)
  refine h.of_producer hp hs hs hkept hstep.settings hstep.control hstep.now hother
    (fun _ _ => rfl) hnext rfl rfl rfl rfl hstep.work hstep.alert ?_
  have hload := hstep.load
  have hdue : stage.due =
      CallOfWriter.due 0 (.writing (submission p i) stage : CallOfWriter Graph (Option Nat)) := rfl
  rw [dueOf, dueOf, hself, ha]
  dsimp only
  omega

lemma producer_returns (h : Script d) (hs : d.stage = .producing) (hi : d.sent[p]? = some i)
    (hlt : i < share)
    (ha : d.writer.calls.get? (.client (p + 1)) = some (.ended (.ok none))) (hv : v =
      { d with
        writer := { d.writer with calls := d.writer.calls.drop (.client (p + 1)) }
        sent := d.sent.modify p (· + 1) }) : Script v ∧ v.rank < d.rank := by
  have hp : p < 4 := h.four ▸ (List.getElem?_eq_some_iff.mp hi).1
  have hself : v.writer.calls.get? (.client (p + 1)) = none := by
    rw [hv]
    exact Roster.get?_drop_self ..
  have hother : ∀ t, t ≠ .client (p + 1) → v.writer.calls.get? t = d.writer.calls.get? t :=
    fun t ht => by
      rw [hv]
      exact Roster.get?_drop_ne _ ht
  have hsent : v.sent[p]? = some (i + 1) := by
    rw [hv, List.getElem?_modify_eq, hi]
    rfl
  have hrest : ∀ q, q ≠ p → v.sent[q]? = d.sent[q]? := fun q hq => by
    rw [hv, List.getElem?_modify_ne _ _ (Ne.symm hq)]
  have hstage : v.stage = d.stage := by rw [hv]
  have hcredit : v.credit = d.credit := by
    have hsum := credit_of_producer hp hstage hrest hother
    rw [creditOf, creditOf, hself, ha, hsent, hi] at hsum
    exact Nat.add_right_cancel hsum
  refine h.of_producer hp hs (hstage.trans hs) ?_ ?_ ?_ ?_ hother hrest
    (.idle hsent hlt (fun hl => ?_) hself) ?_ ?_ ?_ ?_ ?_ ?_ ?_
  · rw [hv]
    exact h.kept.acknowledge ha h.intact
  · rw [hv]
    exact h.settings.of_eq rfl rfl rfl h.settings.queue rfl rfl rfl
  · rw [hv]
  · rw [hv]
  · rw [hstage, hs] at hl
    cases hl
  · rw [hv]
  · rw [hv, List.length_modify]
  · rw [hv]
  · rw [hv]
  · refine h.work.turn (.of_eq (by rw [hv]) (by rw [hv]))
      (h.work.sameLast hstage (hother _ (by simp))) hcredit (fun t s k hw => ?_)
      (fun hd => ?_) (h.work.worker.congr ?_ ?_ ?_ ?_ ?_)
    · by_cases ht : t = .client (p + 1)
      · subst ht
        cases hself.symm.trans hw
      · rw [hv]
        exact h.work.offered t s k ((hother t ht).symm.trans hw)
    · rw [hv]
      exact h.work.done hd
    all_goals subst hv; first | rfl | exact fun _ => rfl
  · refine h.alert_of_call (t := .client (p + 1)) (by simp [ha]) ?_ hother
    rw [hv]
  · have hload : load v.writer = load d.writer := by
      rw [hv]
      rfl
    change i < 100 at hlt
    rw [hload, dueOf, dueOf, hself, ha, hsent, hi]
    simp only [Option.getD_some, CallOfWriter.due, share]
    omega

theorem producer_goes (h : Script d) (hs : d.step (.client (p + 1)) = some v) :
    Script v ∧ v.rank < d.rank := by
  have hbegin : ∀ {i : Nat}, d.writer.calls.get? (.client (p + 1)) = none →
      d.sent[p]? = some i → Script v ∧ v.rank < d.rank := by
    intro i ha hi
    rw [step_idle ha, begin?] at hs
    split at hs
    · rename_i hstage hi'
      obtain rfl := Option.some.inj (hi.symm.trans hi')
      rw [Option.ite_none_right_eq_some] at hs
      obtain ⟨hlt, hs⟩ := hs
      cases hs
      exact h.producer_begins hstage hi hlt ha
    · cases hs
  cases h.producers p with
  | absent hi ha =>
    rw [step_idle ha, begin?] at hs
    split at hs
    · rename_i hi'
      cases hi.symm.trans hi'
    · cases hs
  | idle hi _ _ ha => exact hbegin ha hi
  | writes hstage hi hlt ha hb =>
    rw [step_of_call ha (by simp), Option.map_eq_some_iff] at hs
    obtain ⟨u, hu, rfl⟩ := hs
    exact h.producer_writes hstage hi hlt ha hb hu
  | wrote hstage hi hlt ha =>
    rw [step_ended ha] at hs
    exact h.producer_returns hstage hi hlt ha (Option.some.inj hs).symm

end Script

end Demo

end SerialWriter
