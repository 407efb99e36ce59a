import SerialWriter.Control.Scene
import SerialWriter.Proofs.Lists
import SerialWriter.Writer.Scene

/-!
Runs: the states that moves lead to through states of one kind, the run of a list of moves, and runs
with a chronicle of what is worth noting about their moves.
-/

namespace SerialWriter

variable {S M : Type} {step : S → M → Option S} {P Q : S → Prop} {s u v : S}

/-- **The states that moves lead to from `s`** through states that all satisfy `P`. -/
inductive Along (step : S → M → Option S) (P : S → Prop) (s : S) : S → Prop
  | refl (h : P s) : Along step P s s
  | step {u v : S} (m : M) (h : Along step P s u) (hs : step u m = some v) (hv : P v) :
    Along step P s v

/-- The state after a list of moves, if each of them is possible and all states pass the test. -/
def follow (step : S → M → Option S) (p : S → Bool) (s : S) : List M → Option S
  | [] => if p s then some s else none
  | m :: ms => if p s then (step s m).bind fun s => follow step p s ms else none

namespace Along

lemma holds (h : Along step P s u) : P u := by
  cases h with
  | refl h => exact h
  | step _ _ _ hv => exact hv

lemma start (h : Along step P s u) : P s := by
  induction h with
  | refl h => exact h
  | step _ _ _ _ ih => exact ih

lemma mono (h : Along step P s u) (hpq : ∀ w, P w → Q w) : Along step Q s u := by
  induction h with
  | refl h => exact .refl (hpq _ h)
  | step m _ hs hv ih => exact .step m ih hs (hpq _ hv)

lemma trans (h : Along step P s u) (hu : Along step P u v) : Along step P s v := by
  induction hu with
  | refl _ => exact h
  | step m _ hs hv ih => exact .step m ih hs hv

/-- What every step between states of the kind keeps can be added to the kind. -/
lemma and {I : S → Prop} (h : Along step P s u) (hi : P s → I s)
    (hstep : ∀ u m v, P u → I u → step u m = some v → P v → I v) :
    Along step (fun w => P w ∧ I w) s u := by
  induction h with
  | refl h => exact .refl ⟨h, hi h⟩
  | step m h hs hv ih => exact .step m ih hs ⟨hv, hstep _ m _ h.holds ih.holds.2 hs hv⟩

theorem keeps {I : S → Prop} (h : Along step P s u) (hi : P s → I s)
    (hstep : ∀ u m v, P u → I u → step u m = some v → P v → I v) : I u := by
  induction h with
  | refl h => exact hi h
  | step m h hs hv ih => exact hstep _ m _ h.holds ih hs hv

end Along

/-- **Moves can lead from `s`** through states of one kind to a state of another. -/
def LeadsTo (step : S → M → Option S) (P Q : S → Prop) (s : S) : Prop :=
  ∃ u, Along step P s u ∧ Q u

namespace LeadsTo

variable {R : S → Prop}

lemma here (hp : P s) (hq : Q s) : LeadsTo step P Q s := ⟨s, .refl hp, hq⟩

lemma next (m : M) (hp : P s) (hs : step s m = some u) (h : LeadsTo step P Q u) :
    LeadsTo step P Q s := by
  obtain ⟨v, hv, hq⟩ := h
  exact ⟨v, (Along.step m (.refl hp) hs hv.start).trans hv, hq⟩

lemma trans (h : LeadsTo step P Q s) (hr : ∀ u, Along step P s u → Q u → LeadsTo step P R u) :
    LeadsTo step P R s := by
  obtain ⟨u, hu, hq⟩ := h
  obtain ⟨v, hv, hr⟩ := hr u hu hq
  exact ⟨v, hu.trans hv, hr⟩

lemma mono {P' Q' : S → Prop} (h : LeadsTo step P Q s) (hp : ∀ u, P u → P' u)
    (hq : ∀ u, Q u → Q' u) : LeadsTo step P' Q' s := by
  obtain ⟨u, hu, hqu⟩ := h
  exact ⟨u, hu.mono hp, hq u hqu⟩

end LeadsTo

lemma along_of_follow {p : S → Bool} {ms : List M} (h : follow step p s ms = some u) :
    Along step (fun w => p w = true) s u := by
  induction ms generalizing s with
  | nil =>
    simp only [follow, Option.ite_none_right_eq_some, Option.some.injEq] at h
    obtain ⟨hp, rfl⟩ := h
    exact .refl hp
  | cons m ms ih =>
    simp only [follow, Option.ite_none_right_eq_some, Option.bind_eq_some_iff] at h
    obtain ⟨hp, w, hw, hr⟩ := h
    have hu := ih hr
    have hpw : p w = true := by
      cases ms with
      | nil =>
        simp only [follow, Option.ite_none_right_eq_some] at hr
        exact hr.1
      | cons _ _ =>
        simp only [follow, Option.ite_none_right_eq_some] at hr
        exact hr.1
    exact (Along.step (P := fun w => p w = true) m (.refl hp) hw hpw).trans hu

/-- A run found by computing it, with what is to be seen at its end. -/
lemma exists_along {α : Type} {p : S → Bool} {f : S → α} {a : α} (ms : List M)
    (h : (follow step p s ms).map f = some a) :
    ∃ u, Along step (fun w => p w = true) s u ∧ f u = a := by
  obtain ⟨u, hu, hf⟩ := Option.map_eq_some_iff.mp h
  exact ⟨u, along_of_follow hu, hf⟩

/-! ### Chronicles -/

/-- **A run with its chronicle**: what `note` finds in its moves, at most one thing in each. -/
inductive Chronicle {E : Type} (step : S → M → Option S) (note : S → M → S → Option E)
    (P : S → Prop) (s : S) : List E → S → Prop
  | refl (h : P s) : Chronicle step note P s [] s
  | step {es : List E} {u v : S} (m : M) (h : Chronicle step note P s es u)
    (hs : step u m = some v) (hv : P v) : Chronicle step note P s (es ++ (note u m v).toList) v

/-- The chronicle of a list of moves and the state after them, if each of them is possible and all
states pass the test. -/
def record {E : Type} (step : S → M → Option S) (note : S → M → S → Option E) (p : S → Bool)
    (s : S) : List M → Option (List E × S)
  | [] => if p s then some ([], s) else none
  | m :: ms =>
    if p s then
      (step s m).bind fun u => (record step note p u ms).map fun r =>
        ((note s m u).toList ++ r.1, r.2)
    else none

namespace Chronicle

variable {E : Type} {note : S → M → S → Option E} {es es₁ es₂ : List E}

lemma along (h : Chronicle step note P s es u) : Along step P s u := by
  induction h with
  | refl h => exact .refl h
  | step m _ hs hv ih => exact .step m ih hs hv

lemma mono (h : Chronicle step note P s es u) (hpq : ∀ w, P w → Q w) :
    Chronicle step note Q s es u := by
  induction h with
  | refl h => exact .refl (hpq _ h)
  | step m _ hs hv ih => exact .step m ih hs (hpq _ hv)

lemma trans (h : Chronicle step note P s es₁ u) (hu : Chronicle step note P u es₂ v) :
    Chronicle step note P s (es₁ ++ es₂) v := by
  induction hu with
  | refl _ => exact (List.append_nil es₁).symm ▸ h
  | step m _ hs hv ih =>
    rw [← List.append_assoc]
    exact .step m ih hs hv

lemma of_along (note : S → M → S → Option E) (h : Along step P s u) :
    ∃ es, Chronicle step note P s es u := by
  induction h with
  | refl h => exact ⟨[], .refl h⟩
  | step m _ hs hv ih =>
    obtain ⟨es, h⟩ := ih
    exact ⟨_, h.step m hs hv⟩

lemma and {I : S → Prop} (h : Chronicle step note P s es u) (hi : P s → I s)
    (hstep : ∀ u m v, P u → I u → step u m = some v → P v → I v) :
    Chronicle step note (fun w => P w ∧ I w) s es u := by
  induction h with
  | refl h => exact .refl ⟨h, hi h⟩
  | step m h hs hv ih => exact .step m ih hs ⟨hv, hstep _ m _ h.along.holds ih.along.holds.2 hs hv⟩

lemma exists_of_noted {e : E} (h : Chronicle step note P s (es₁ ++ e :: es₂) u) :
    ∃ v m w, Chronicle step note P s es₁ v ∧ step v m = some w ∧ note v m w = some e ∧
      Chronicle step note P w es₂ u := by
  generalize hes : es₁ ++ e :: es₂ = es at h
  induction h generalizing es₂ with
  | refl _ => cases es₁ <;> cases hes
  | @step es v w m h hs hw ih =>
    -- what was noted before the last move
    have hearlier : ∀ {es' : List E}, es₁ ++ e :: es' = es →
        es₂ = es' ++ (note v m w).toList → ∃ x m' y, Chronicle step note P s es₁ x ∧
          step x m' = some y ∧ note x m' y = some e ∧ Chronicle step note P y es₂ w := by
      intro es' hes hes₂
      obtain ⟨x, m', y, hx, hs', hn, hy⟩ := ih hes
      exact ⟨x, m', y, hx, hs', hn, hes₂ ▸ hy.step m hs hw⟩
    cases hn : note v m w with
    | none =>
      rw [hn, Option.toList_none] at hes hearlier
      rw [List.append_nil] at hes
      exact hearlier hes (List.append_nil _).symm
    | some e' =>
      rw [hn, Option.toList_some] at hes hearlier
      rcases List.eq_nil_or_concat es₂ with rfl | ⟨es', e'', rfl⟩
      · obtain ⟨rfl, he⟩ := List.append_inj' hes rfl
        cases he
        exact ⟨v, m, w, h, hs, hn, .refl hw⟩
      · rw [List.concat_eq_append] at hes hearlier ⊢
        rw [← List.cons_append, ← List.append_assoc] at hes
        obtain ⟨rfl, he⟩ := List.append_inj' hes rfl
        cases he
        exact hearlier rfl rfl

end Chronicle

lemma chronicle_of_record {E : Type} {note : S → M → S → Option E} {p : S → Bool} {ms : List M}
    {es : List E} (h : record step note p s ms = some (es, u)) :
    Chronicle step note (fun w => p w = true) s es u := by
  induction ms generalizing s es with
  | nil =>
    simp only [record, Option.ite_none_right_eq_some, Option.some.injEq, Prod.mk.injEq] at h
    obtain ⟨hp, rfl, rfl⟩ := h
    exact .refl hp
  | cons m ms ih =>
    simp only [record, Option.ite_none_right_eq_some, Option.bind_eq_some_iff,
      Option.map_eq_some_iff] at h
    obtain ⟨hp, w, hw, ⟨es', v⟩, hr, h⟩ := h
    cases h
    have hrest := ih hr
    have hfirst : Chronicle step note (fun w => p w = true) s [] s := .refl hp
    exact (hfirst.step m hw hrest.along.start).trans hrest

/-- A chronicle found by computing it, with what is to be seen of it and at the end of its run. -/
lemma exists_chronicle {α E : Type} {note : S → M → S → Option E} {p : S → Bool}
    {f : List E → S → α} {a : α} (ms : List M)
    (h : (record step note p s ms).map (fun r => f r.1 r.2) = some a) :
    ∃ es u, Chronicle step note (fun w => p w = true) s es u ∧ f es u = a := by
  obtain ⟨⟨es, u⟩, hr, hf⟩ := Option.map_eq_some_iff.mp h
  exact ⟨es, u, chronicle_of_record hr, hf⟩

lemma ControlScene.Reachable.along {config : Config} {P : ControlScene → Prop}
    {s u : ControlScene} (h : Reachable config s) (hu : Along ControlScene.step P s u) :
    Reachable config u := by
  induction hu with
  | refl _ => exact h
  | step m _ hs _ ih => exact .step m ih hs

lemma Writer.Reachable.of_along {σ V : Type} {w u v : Writer σ V} {P : Writer σ V → Prop}
    (hw : Reachable w u) (h : Along Writer.step P u v) : Reachable w v := by
  induction h with
  | refl _ => exact hw
  | step m _ hs _ ih => exact .step m ih hs

end SerialWriter
