import SerialWriter.Proofs.Demo.Standstill
import SerialWriter.Proofs.Run

/-!
The outcome of a demonstration is the same in whatever order its threads go on: it prints its report
and succeeds.
-/

namespace SerialWriter

namespace Demo

variable {d v : Demo} {t : Thread}

/-- **The demonstration comes to its end**, whichever of its threads go on: it is over with all that
there is to print, or some thread can go on and whoever does brings it closer. -/
inductive Settles : Demo → Prop
  | exited {d : Demo} (h : d.exit? = some 0) (ho : d.output = report) (he : d.errors = "") :
    Settles d
  | goes {d : Demo} (h : d.Moves) (hs : ∀ t v, d.step t = some v → Settles v) : Settles d

/-! ### The beginning -/

lemma inTime_opening (spawns : Bool) : (opening spawns).InTime where
  waiting _ _ hb := by cases hb
  ahead := by cases spawns <;> decide

lemma script_opening : Script (opening true) where
  kept := .opening true
  settings := ⟨rfl, rfl, rfl, ⟨rfl, .empty⟩, rfl, rfl, rfl⟩
  main := ⟨.unborn, .opening, rfl, rfl⟩
  producers p := by
    have hsent : (opening true).sent[p]? = if p < 4 then some 0 else none := by
      rw [show (opening true).sent = List.replicate 4 0 from rfl, List.getElem?_replicate]
    split at hsent
    · exact .idle hsent (Nat.zero_le _) (fun hl => by cases hl) rfl
    · exact .absent hsent rfl
  spawns := rfl
  four := rfl
  output := rfl
  errors := rfl
  inTime := inTime_opening true
  work :=
    { count := rfl
      offered := fun _ _ _ ha => by cases ha
      tickets := fun _ _ hk => by cases hk
      calm := fun _ _ => ⟨rfl, rfl⟩
      shows := fun _ _ _ hk => by cases hk
      last := fun _ _ _ ha => by cases ha
      ready := fun _ _ ha => by cases ha
      done := fun ht => by cases ht
      worker := .rests rfl rfl rfl }
  alert _ hb := by cases hb
  heard hp := by cases hp

/-! ### The end -/

/-- **Threads that bring the demonstration closer to its end bring it there**, as long as one of them
can go on. -/
lemma settles_of_rank {P : Demo → Prop} (μ : Demo → Nat)
    (hnext : ∀ d, P d → d.Settles ∨
      d.Moves ∧ ∀ t v, d.step t = some v → v.Settles ∨ P v ∧ μ v < μ d) (h : P d) : d.Settles := by
  induction hn : μ d using Nat.strong_induction_on generalizing d with
  | _ n ih =>
    subst hn
    rcases hnext d h with hd | ⟨hmoves, hstep⟩
    · exact hd
    · refine .goes hmoves fun t v hs => ?_
      rcases hstep t v hs with hv | ⟨hv, hlt⟩
      · exact hv
      · exact ih _ hlt hv rfl

theorem Leaves.settles (h : Leaves d) : d.Settles := by
  refine settles_of_rank mainDue (fun d h => ?_) h
  rcases h.main_goes with hexit | ⟨v, hs, -⟩
  · exact .inl (.exited hexit h.output h.errors)
  · exact .inr ⟨⟨_, v, hs⟩, fun t u hu => .inr (h.goes hu)⟩

/-- **The script leads to the end** in whatever order the threads go on. -/
theorem Script.settles (h : Script d) : d.Settles := by
  refine settles_of_rank rank (fun d h => .inr ⟨h.moves, fun t v hs => ?_⟩) h
  cases t with
  | worker n => exact .inr (h.worker_goes hs)
  | client c =>
    cases c with
    | zero =>
      -- the step that prints the last line leaves the script
      exact (h.main_goes hs).elim .inr fun hv => .inl hv.settles
    | succ p => exact .inr (h.producer_goes hs)

lemma Script.exit?_eq_none (h : Script d) : d.exit? = none := by
  obtain ⟨s, hplot, -⟩ := h.main
  have hstage : d.stage = d.view.stage := rfl
  rw [exit?, hstage]
  generalize d.view = x at hplot
  cases hplot <;> rfl

/-- Whatever happens, the demonstration is in its script or has printed everything. -/
lemma script_or_leaves (h : Along next InTime (opening true) d) : Script d ∨ Leaves d := by
  refine h.keeps (I := fun w => Script w ∨ Leaves w) (fun _ => .inl script_opening)
    fun u m v _ hu hs hv => ?_
  rcases hu with hu | hu
  · exact hu.next hs hv
  · exact .inr (hu.next hs)

/-- **The outcome does not depend on the schedule.** The main thread, the four producers and the
worker may have gone on in any order, woken up for no reason, and taken any time, as long as no wait
of a call has run out. If the program is over, it has succeeded and printed its report; and in any
case its threads bring it to this end, whichever of them go on, without a wait having to run out. -/
theorem outcome_of_schedule (h : Along next InTime (opening true) d) :
    (∀ code, d.exit? = some code → code = 0 ∧ d.output = report ∧ d.errors = "") ∧
      d.Settles := by
  rcases script_or_leaves h with hd | hd
  · refine ⟨fun code hcode => ?_, hd.settles⟩
    rw [hd.exit?_eq_none] at hcode
    cases hcode
  · refine ⟨fun code hcode => ⟨?_, hd.output, hd.errors⟩, hd.settles⟩
    have hreport := hd.stage
    have hstage : d.stage = d.view.stage := rfl
    rw [exit?, hstage] at hcode
    generalize d.view = x at hreport hcode
    cases hreport with
    | exited => exact (Option.some.inj hcode).symm
    | _ => cases hcode

lemma inTime_of_step (h : Along next InTime (opening true) d) (hs : d.step t = some v) :
    v.InTime := by
  have hahead : ∀ ms ∈ waits, v.writer.now < v.writer.now.after ms :=
    now_of_step hs ▸ h.holds.ahead
  have hleaves : Leaves v → v.InTime := fun hv =>
    ⟨fun t _ hb => absurd ((hv.callDeadline?_eq_none t).symm.trans hb) nofun, hahead⟩
  rcases script_or_leaves h with hd | hd
  · cases t with
    | worker n => exact (hd.worker_goes hs).1.inTime
    | client c =>
      cases c with
      | zero => exact (hd.main_goes hs).elim (fun hv => hv.1.inTime) hleaves
      | succ p => exact (hd.producer_goes hs).1.inTime
  · exact hleaves (hd.goes hs).1

lemma exists_exit (hd : d.Settles) (h : Along next InTime (opening true) d) :
    ∃ v, Along next InTime (opening true) v ∧ v.exit? = some 0 := by
  induction hd with
  | exited hexit _ _ => exact ⟨_, h, hexit⟩
  | goes hmoves _ ih =>
    obtain ⟨t, v, hs⟩ := hmoves
    exact ih t v hs (h.step (.go t) hs (inTime_of_step h hs))

/-- Every schedule brings the demonstration from its beginning to its end, and there is one. -/
theorem outcome_of_opening : (opening true).Settles ∧
    ∃ d, Along next InTime (opening true) d ∧ d.exit? = some 0 ∧ d.output = report ∧
      d.errors = "" := by
  have hopening : Along next InTime (opening true) (opening true) := .refl (inTime_opening true)
  have hsettles := (outcome_of_schedule hopening).2
  obtain ⟨d, hd, hexit⟩ := exists_exit hsettles hopening
  exact ⟨hsettles, d, hd, hexit, ((outcome_of_schedule hd).1 0 hexit).2⟩

end Demo

end SerialWriter
