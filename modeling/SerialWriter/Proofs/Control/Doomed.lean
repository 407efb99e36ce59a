import SerialWriter.Proofs.Control.Phases

/-!
What becomes of a worker that a failure has driven out of a cycle: the failed phase, with that
failure as its cause, and no cycle ever again.
-/

namespace SerialWriter

/-- **Worker `n` is done for**: the failure `e` has driven it out of a cycle, and it is about to
enter the failed phase or has entered it. -/
inductive Control.Doomed (c : Control) (n : Nat) (e : Failure) : Prop
  | failing (hw : c.worker? n = some (.failing e)) (hp : c.phase = .running ∨ c.phase = .stopping)
  | failed (hp : c.phase = .failed) (hc : c.cause = some e)

namespace Control

variable {c d : Control} {j j' : Journal} {ev : Option ControlScene.Event} {n : Nat} {e : Failure}

lemma Advance.doomed (h : c.Advance j ev d) {last : Bool}
    (hc : c.worker? n = some (.cycling last)) (hd : d.worker? n = some (.failing e)) :
    d.Doomed n e := by
  -- if the worker is where it was, it is still in its cycle
  have hsame : d.worker? n = c.worker? n → d.Doomed n e := by
    intro hs
    rw [hs, hc] at hd
    cases hd
  cases h with
  | rests _ hw _ => exact hsame (congrArg (·[n]?) hw)
  | turns _ hw _ => exact hsame (congrArg (·[n]?) hw)
  | creates _ _ _ _ hw _ => exact hsame ((worker?_append hw hc).trans hc.symm)
  | @works _ m w w' ev hw hs _ hgoes =>
    by_cases hmn : m = n
    · subst hmn
      rw [hc, Option.some.injEq] at hw
      subst hw
      have hp : d.phase = .running ∨ d.phase = .stopping := by
        generalize c.phase = p at hgoes
        generalize d.phase = q at hgoes ⊢
        cases hgoes with
        | exits _ hp _ => exact hp
      exact .failing hd hp
    · exact hsame (worker?_set_ne hs hmn)

namespace Doomed

theorem advance (h : c.Doomed n e) (ho : c.Orderly) (ha : c.Advance j ev d) : d.Doomed n e := by
  cases h with
  | failed hp hc =>
    obtain ⟨-, hp', hc'⟩ := ha.rests_of_failed hp
    exact .failed hp' (hc'.trans hc)
  | failing hw hp =>
    cases ha with
    | rests hsame hs _ => exact .failing ((congrArg (·[n]?) hs).trans hw) (hsame ▸ hp)
    | turns hturn hs _ =>
      -- of all calls only a stop can change these phases
      have hp' : d.phase = .stopping := by
        generalize d.phase = q at hturn ⊢
        cases hturn with
        | starts hnew _ => rcases hp with hp | hp <;> rw [hp] at hnew <;> rcases hnew with h | h <;>
            cases h
        | retires hnew _ => rcases hp with hp | hp <;> rw [hp] at hnew <;> cases hnew
        | halts _ => rfl
        | denied _ hstart _ => rcases hp with hp | hp <;> rw [hp] at hstart <;> cases hstart
      exact .failing ((congrArg (·[n]?) hs).trans hw) (.inr hp')
    | creates _ hstart _ _ _ _ => rcases hp with hp | hp <;> rw [hp] at hstart <;> cases hstart
    | @works _ m w w' _ hm hs hc hgoes =>
      obtain rfl := ho.staffed.eq_of_present hm hgoes.present hw rfl
      rw [hw, Option.some.injEq] at hm
      subst hm
      have hp' : d.phase = .failed := by
        generalize c.phase = p at hgoes
        generalize d.phase = q at hgoes ⊢
        cases hgoes with
        | fails _ _ => rfl
      exact .failed hp' hc

lemma not_cycling (h : c.Doomed n e) (ho : c.Orderly) (m : Nat) (last : Bool) :
    c.worker? m ≠ some (.cycling last) := by
  intro hm
  cases h with
  | failing hw _ =>
    obtain rfl := ho.staffed.eq_of_present hm rfl hw rfl
    rw [hw] at hm
    cases hm
  | failed hp _ =>
    obtain ⟨hfit, -⟩ := WorkerStage.phase_of_cycle (.inr rfl) (ho.staffed.fits_of_present hm rfl)
    rcases hfit with hfit | hfit <;> rw [hp] at hfit <;> cases hfit

/-- **The next thing the worker does is to enter the failed phase.** -/
lemma failed_of_stepWorker (h : c.Doomed n e) (ho : c.Orderly)
    (hs : c.stepWorker n j = some (d, j')) : d.phase = .failed ∧ d.cause = some e := by
  obtain ⟨w, hw, ht⟩ := stepWorker_turn hs
  cases h with
  | failing hc _ =>
    rw [hc, Option.some.injEq] at hw
    subst hw
    cases ht with
    | fails _ he =>
      obtain ⟨hp, -, -, -, -, hcause, -⟩ := enter_frame he
      exact ⟨hp, hcause⟩
  | failed hp hc =>
    have hstep : c.Step 0 j d j' := .works hw ht
    obtain ⟨ev, ha⟩ := ho.advance hstep
    obtain ⟨-, hp', hc'⟩ := ha.rests_of_failed hp
    exact ⟨hp', hc'.trans hc⟩

end Doomed

end Control

end SerialWriter
