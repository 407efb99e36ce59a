import SerialWriter.Proofs.Writer.Conduct

/-!
Whose call a move takes further: that of the thread that moves, and no other. Others are told to
look again at most.
-/

namespace SerialWriter

variable {σ V : Type}

namespace Writer

variable {w v u : Writer σ V} {t : Thread} {a : CallOfWriter σ V} {n k : Nat}

/-- The call of `u` is where it was in the control, or is told to look again. -/
def Keeps (c d : Control) (u : Thread) : Prop :=
  d.calls.get? u = c.calls.get? u ∨ d.calls.get? u = (c.calls.get? u).map CallStage.roused

/-- The calls of all threads but `t` are what they were. -/
structure SameBut (t : Thread) (w v : Writer σ V) : Prop where
  calls : ∀ u, u ≠ t → v.calls.get? u = w.calls.get? u
  control : ∀ u, u ≠ t → Keeps w.control v.control u

namespace SameBut

lemma of_calls (hc : v.control = w.control) (h : ∀ u, u ≠ t → v.calls.get? u = w.calls.get? u) :
    SameBut t w v := ⟨h, fun _ _ => .inl (hc ▸ rfl)⟩

lemma of_eq (hc : v.control = w.control) (h : v.calls = w.calls) : SameBut t w v :=
  .of_calls hc fun _ _ => h ▸ rfl

lemma drop (hc : v.control = w.control) (h : v.calls = w.calls.drop t) : SameBut t w v :=
  .of_calls hc fun _ hu => h ▸ Roster.get?_drop_ne _ hu

lemma setCall (hc : u.control = w.control) (h : u.calls = w.calls) :
    SameBut t w (u.setCall t a) :=
  .of_calls hc fun _ hu => (Roster.get?_put_ne _ _ hu).trans (h ▸ rfl)

lemma of_control (hc : ∀ u, u ≠ t → Keeps w.control v.control u) (h : v.calls = w.calls) :
    SameBut t w v := ⟨fun _ _ => h ▸ rfl, hc⟩

lemma enter {s : CallStage} (hc : v.control = w.control.setCall t s)
    (h : v.calls = w.calls.put t a) : SameBut t w v :=
  ⟨fun _ hu => h ▸ Roster.get?_put_ne _ _ hu,
    fun _ hu => .inl (hc ▸ Roster.get?_put_ne _ _ hu)⟩

end SameBut

lemma sameBut_of_inControl (h : w.InControl t v) : SameBut t w v := by
  cases h with
  | rings _ _ => exact .of_eq rfl rfl
  | wakes hw _ =>
    obtain ⟨closing, hc⟩ := Control.waking_iff.mp hw
    refine .of_control (fun u hu => .inl ?_) rfl
    change (w.control.woken t w.now).calls.get? u = w.control.calls.get? u
    rw [Control.woken_eq hc]
    exact Roster.get?_put_ne _ _ hu
  | turns _ _ hturn =>
    obtain ⟨e, x, rfl, hr, -⟩ := Control.eq_setCall_of_turn hturn
    exact .of_control (fun u hu => (hr u).imp (Roster.get?_put_ne _ _ hu).trans
      (Roster.get?_put_ne _ _ hu).trans) rfl

lemma sameBut_of_call (h : w.CallMoves t a v) : SameBut t w v := by
  cases h with
  | inside _ h => exact sameBut_of_inControl h
  | leaves _ _ =>
    exact ⟨fun _ hu => Roster.get?_put_ne _ _ hu, fun _ hu => .inl (Roster.get?_drop_ne _ hu)⟩
  | logs hx hl =>
    have hu := hx.course hl
    exact .setCall (congrArg Course.control hu) (congrArg Course.calls hu)
  | stops _ | clears => exact .enter rfl rfl
  | walks | discards _ | admits _ | refuses _ | breaks _ | makes _ | offers _ | misses _
  | notifies _ | submits _ | awaits _ | hears _ | collects _ => exact .setCall rfl rfl

lemma endCycle_sameBut {e : Option Failure} (hc : u.control = w.control) (h : u.calls = w.calls) :
    SameBut t w (u.endCycle n e) := by
  refine .of_control (fun x _ => .inl ?_) h
  have hcalls : (w.control.endCycle n e).calls = w.control.calls := by
    unfold Control.endCycle
    split <;> rfl
  change (u.control.endCycle n e).calls.get? x = w.control.calls.get? x
  rw [hc, hcalls]

lemma sameBut_of_body {e : Envelope σ V} {b : BodyStage σ V} (h : w.BodyMoves n k e b v) :
    SameBut (.worker n) w v := by
  cases h with
  | turns _ | reports _ _ | succeeds | fails _ => exact .of_eq rfl rfl
  | enters _ _ _ _ => exact .enter rfl rfl
  | writes _ _ => exact .of_calls rfl fun _ hu => Roster.get?_put_ne _ _ hu
  | returns _ => exact .drop rfl rfl
  | garbles _ _ | spoils _ => exact endCycle_sameBut rfl rfl

lemma sameBut_of_work (h : w.WorkMoves n v) : SameBut (.worker n) w v := by
  cases h with
  | works _ _ hturn => exact .of_control (fun u _ => Control.rouses_of_turn hturn u) rfl
  | takes _ _ =>
    generalize (w.queue.pop (.worker n)).1 = x
    cases x with
    | none => exact endCycle_sameBut rfl rfl
    | some x => exact .of_eq rfl rfl
  | waits _ _ _ _ | opens _ _ _ | counts _ _ => exact .of_eq rfl rfl
  | body _ _ _ h => exact sameBut_of_body h
  | measures _ _ _ => exact endCycle_sameBut rfl rfl

lemma run_sameBut (h : w.run t = some v) : SameBut t w v := by
  cases moves_of_run h with
  | calls _ h => exact sameBut_of_call h
  | works _ h => exact sameBut_of_work h

/-- **Only its own thread takes a call further**, or away. -/
lemma call_of_step {m : Move σ V} (h : w.step m = some v) (hm : m ≠ .run t)
    (ha : w.calls.get? t = some a) :
    (v.calls.get? t = some a ∨ v.calls.get? t = none) ∧ Keeps w.control v.control t := by
  have hsame : ∀ {u : Thread}, u ≠ t → SameBut u w v →
      (v.calls.get? t = some a ∨ v.calls.get? t = none) ∧ Keeps w.control v.control t :=
    fun hu hs => ⟨.inl ((hs.calls t hu.symm).trans ha), hs.control t hu.symm⟩
  cases moves_of_step h with
  | @begins c r hn =>
    have hct : .client c ≠ t := by
      rintro rfl
      exact nomatch hn.symm.trans ha
    refine hsame hct ?_
    cases r with
    | start spawns => exact .enter rfl rfl
    | stop => exact .enter rfl rfl
    | write s => exact .setCall rfl rfl
    | destroy => exact .setCall rfl rfl
  | @runs u _ _ => exact hsame (fun hut => hm (hut ▸ rfl)) (run_sameBut h)
  | @acknowledges c _ _ =>
    by_cases hct : .client c = t
    · exact ⟨.inr (hct ▸ Roster.get?_drop_self ..), .inl rfl⟩
    · exact hsame hct (.drop rfl rfl)
  | @stirs u s hs =>
    refine ⟨.inl ha, ?_⟩
    by_cases hut : t = u
    · subst hut
      refine .inr ?_
      rw [hs]
      exact Roster.get?_put_self ..
    · exact .inl (Roster.get?_put_ne _ _ hut)
  | rouses _ | opensGate | opensAll | arms | passes => exact ⟨.inl ha, .inl rfl⟩

end Writer

end SerialWriter
