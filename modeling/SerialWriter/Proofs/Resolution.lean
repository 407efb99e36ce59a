import SerialWriter.Proofs.Sequential

/-!
The run of an envelope whose body a factory has built: a list of runs of the task, each of which may
try to resolve the cell. The first attempt wins, and what escapes the body counts only after them.
-/

namespace SerialWriter

variable {σ V : Type}

/-! ### Attempts to resolve a cell -/

/-- What a program does to resolve its own cell, in order. -/
def Program.attempts : Program σ V → Bench σ V → List (Outcome V)
  | .ret _, _ | .fail _, _ => []
  | .update f next, b => (next b.resource).attempts { b with resource := f b.resource }
  | .resolve o next, b =>
    o :: (next (b.cell.resolve o).1).attempts { b with cell := (b.cell.resolve o).2 }
  | .interrupt next, b => next.attempts { b with cell := b.cell.interrupt }
  | .pass _ next, b => next.attempts b
  | .phase next, b => (next .new).attempts b
  | .stats next, b => (next {}).attempts b
  | .start next, b => (next (.error .noFunction)).attempts b
  | .stop next, b => (next (.error .noFunction)).attempts b
  | .write _ _ _ next, b => (next (.error .noFunction)).attempts b

/-- The program leaves its own cell alone, but may interrupt those who wait for it. -/
def Program.Aloof : Program σ V → Prop
  | .ret _ | .fail _ => True
  | .update _ next => ∀ s, (next s).Aloof
  | .resolve _ _ => False
  | .interrupt next | .pass _ next => next.Aloof
  | .phase next => ∀ p, (next p).Aloof
  | .stats next => ∀ s, (next s).Aloof
  | .start next | .stop next => ∀ r, (next r).Aloof
  | .write _ _ _ next => ∀ r, (next r).Aloof

/-- **One run of a task inside a wrapper**: what the task itself did to resolve its cell, and how
the run ended. -/
structure Invocation (V : Type) where
  own : List (Outcome V)
  result : Except Failure V

namespace Invocation

/-- The value that the run returned, if it returned one. -/
def value? (x : Invocation V) : Option V := x.result.toOption

/-- Everything that was done to resolve the cell: a value that is returned comes last. -/
def attempts (x : Invocation V) : List (Outcome V) := x.own ++ (x.value?.map .value).toList

end Invocation

/-- The runs of the task that a wrapper makes, in order. -/
def Wrapper.invocations (t : Program σ V) : Wrapper σ → Bench σ V → List (Invocation V)
  | .done, _ | .fail _, _ => []
  | .update f next, b => (next b.resource).invocations t { b with resource := f b.resource }
  | .invoke next, b =>
    { own := t.attempts b, result := (t.run b).1 } ::
      (next (t.invoke b).1).invocations t (t.invoke b).2

lemma Program.Aloof.attempts_eq {t : Program σ V} (h : t.Aloof) (b : Bench σ V) :
    t.attempts b = [] := by
  induction t generalizing b with
  | ret v => rfl
  | fail e => rfl
  | resolve o next ih => exact h.elim
  | update f next ih => exact ih _ (h _) _
  | interrupt next ih => exact ih h _
  | pass gate next ih => exact ih h _
  | phase next ih => exact ih _ (h _) _
  | stats next ih => exact ih _ (h _) _
  | start next ih => exact ih _ (h _) _
  | stop next ih => exact ih _ (h _) _
  | write work id wait next _ ih => exact ih _ (h _) _

/-- The runs of a task that leaves its cell alone resolve it with the values they return. -/
lemma Program.Aloof.attempts_invocations {t : Program σ V} (h : t.Aloof) (w : Wrapper σ)
    (b : Bench σ V) :
    (w.invocations t b).flatMap Invocation.attempts =
      ((w.invocations t b).filterMap Invocation.value?).map .value := by
  induction w generalizing b with
  | done => rfl
  | fail e => rfl
  | update f next ih => exact ih _ _
  | invoke next ih =>
    rw [Wrapper.invocations, List.flatMap_cons, ih, List.filterMap_cons, Invocation.attempts,
      h.attempts_eq, List.nil_append]
    cases Invocation.value? { own := [], result := (t.run b).1 } <;> rfl

/-! ### What becomes of the cell -/

/-- **A cell that was fresh before these attempts**: the first of them has won. -/
structure Cell.After (os : List (Outcome V)) (c : Cell V) : Prop where
  claimed : c.claimed = !os.isEmpty
  ready : c.ready = !os.isEmpty
  outcome : c.outcome = os.head?.getD (.error none)
  blank : os = [] → c.value = none

namespace Cell.After

variable {os : List (Outcome V)} {c : Cell V}

lemma fresh (i : Bool) : Cell.After [] ({ interrupted := i } : Cell V) :=
  ⟨rfl, rfl, rfl, fun _ => rfl⟩

lemma interrupt (h : c.After os) : c.interrupt.After os := ⟨h.claimed, h.ready, h.outcome, h.blank⟩

lemma resolve (h : c.After os) (o : Outcome V) : (c.resolve o).2.After (os ++ [o]) := by
  cases os with
  | nil =>
    have hc : c.claimed = false := h.claimed
    have hv : c.value = none := h.blank rfl
    rw [Cell.resolve_eq, hc, if_neg Bool.false_ne_true]
    cases o with
    | value v => exact ⟨rfl, rfl, rfl, nofun⟩
    | error e => exact ⟨rfl, rfl, by simp [Cell.publish, Cell.outcome, hv], nofun⟩
  | cons o' os =>
    have hc : c.claimed = true := h.claimed
    rw [Cell.resolve_eq, hc, if_pos rfl]
    exact ⟨h.claimed, h.ready, h.outcome, nofun⟩

end Cell.After

lemma Program.run_after (t : Program σ V) {os : List (Outcome V)} {b : Bench σ V}
    (h : b.cell.After os) : (t.run b).2.cell.After (os ++ t.attempts b) := by
  induction t generalizing b os with
  | ret v => simpa [Program.run, Program.attempts] using h
  | fail e => simpa [Program.run, Program.attempts] using h
  | resolve o next ih =>
    have hrest :=
      ih (b.cell.resolve o).1 (b := { b with cell := (b.cell.resolve o).2 }) (h.resolve o)
    rwa [List.append_assoc] at hrest
  | update f next ih => exact ih _ h
  | interrupt next ih => exact ih h.interrupt
  | pass gate next ih => exact ih h
  | phase next ih => exact ih _ h
  | stats next ih => exact ih _ h
  | start next ih => exact ih _ h
  | stop next ih => exact ih _ h
  | write work id wait next _ ih => exact ih _ h

lemma Program.invoke_after (t : Program σ V) {os : List (Outcome V)} {b : Bench σ V}
    (h : b.cell.After os) : (t.invoke b).2.cell.After
      (os ++ ({ own := t.attempts b, result := (t.run b).1 } : Invocation V).attempts) := by
  have hrun := t.run_after h
  unfold Program.invoke Invocation.attempts Invocation.value?
  revert hrun
  generalize t.run b = r
  intro hrun
  obtain ⟨result, b'⟩ := r
  cases result with
  | ok v =>
    have := hrun.resolve (.value v)
    rwa [List.append_assoc] at this
  | error e => simpa [Except.toOption] using hrun

lemma Wrapper.run_after (t : Program σ V) (w : Wrapper σ) {os : List (Outcome V)} {b : Bench σ V}
    (h : b.cell.After os) : (w.run t b).2.cell.After
      (os ++ (w.invocations t b).flatMap Invocation.attempts) := by
  induction w generalizing b os with
  | done => simpa [Wrapper.run, Wrapper.invocations] using h
  | fail e => simpa [Wrapper.run, Wrapper.invocations] using h
  | update f next ih => exact ih _ h
  | invoke next ih =>
    have hrest := ih (t.invoke b).1 (t.invoke_after h)
    rwa [List.append_assoc] at hrest

/-! ### The run of an envelope -/

namespace Envelope

/-- **What the run of an envelope comes to**, by the runs of its task and by what escaped its body:
the first attempt to resolve the cell has won, then what escaped, then the lack of a result. -/
structure Settles (e : Envelope σ V) (s : σ) (u : Thread) (j : Journal)
    (runs : List (Invocation V)) (escaped : Option Failure) : Prop where
  returns : (e.run s u j).1 =
    .ok (escaped.isNone && !(runs.flatMap Invocation.attempts).isEmpty)
  claimed : (e.run s u j).2.1.cell.claimed = true
  ready : (e.run s u j).2.1.cell.ready = true
  outcome : (e.run s u j).2.1.cell.outcome = (runs.flatMap Invocation.attempts).head?.getD
    (.error (some (escaped.getD (.noResult e.id))))
  logs : (e.run s u j).2.2.2.entries =
    (if escaped.isSome && !(runs.flatMap Invocation.attempts).isEmpty then
      [(u, .lateFailure e.id)] else []) ++ j.entries

lemma conclude_of_after {os : List (Outcome V)} {c : Cell V} (h : c.After os) (id : String)
    (escaped : Option Failure) (u : Thread) {j : Journal} (hj : j.armed = none) :
    ∃ c' : Cell V, ∃ j' : Journal,
      conclude id escaped c u j = (.ok (escaped.isNone && !os.isEmpty), c', j') ∧
      c'.After (os ++ [.error (some (escaped.getD (.noResult id)))]) ∧
      j'.entries = (if escaped.isSome && !os.isEmpty then [(u, .lateFailure id)] else []) ++
        j.entries := by
  cases os with
  | nil =>
    -- nobody has tried yet: the envelope itself resolves the cell
    have hc : c.claimed = false := h.claimed
    refine ⟨_, j, ?_, h.resolve _, ?_⟩
    · cases escaped with
      | none => simp [conclude, hc]
      | some e => simp [conclude, Cell.resolve_eq, hc]
    · cases escaped <;> rfl
  | cons o os =>
    have hc : c.claimed = true := h.claimed
    have hlost : c.resolve (.error (some (escaped.getD (.noResult id)))) = (false, c) := by
      rw [Cell.resolve_eq, hc, if_pos rfl]
    have hafter := h.resolve (.error (some (escaped.getD (.noResult id))))
    rw [hlost] at hafter
    cases escaped with
    | none => exact ⟨c, j, by simp [conclude, hc], hafter, rfl⟩
    | some e =>
      have hquiet := (Journal.log_of_unarmed hj u (.lateFailure id)).1
      refine ⟨c, (j.log u (.lateFailure id)).2, ?_, hafter, Journal.log_entries ..⟩
      simp only [conclude]
      rw [show c.resolve (.error (some e)) = (false, c) from hlost]
      rw [← Prod.eta (j.log u (.lateFailure id)), hquiet]
      rfl

/-- **A run of an envelope made by a factory always ends with a resolved cell**: the first attempt
of its task to resolve it has won, by a value that a run of it returned or by its own hand, or else
what escaped the body, or else the lack of a result. Only a failure after an attempt is worth a
line. A task that leaves its cell alone makes no attempt but by the values it returns. -/
theorem settles_of_run (id : String) (w : Wrapper σ) (t : Program σ V) (interrupted : Bool) (s : σ)
    (u : Thread) {j : Journal} (hj : j.armed = none) :
    let b : Bench σ V := { resource := s, cell := { interrupted } }
    let runs := w.invocations t b
    ({ id, body := .wrapped w t, cell := { interrupted } } : Envelope σ V).Settles s u j runs
        (w.run t b).1 ∧
      (t.Aloof → runs.flatMap Invocation.attempts =
        (runs.filterMap Invocation.value?).map .value) := by
  intro b runs
  refine ⟨?_, fun ht => ht.attempts_invocations w b⟩
  have hbody := w.run_after t (b := b) (Cell.After.fresh interrupted)
  rw [List.nil_append] at hbody
  obtain ⟨c, j', hconclude, hc, hlog⟩ := conclude_of_after hbody id (w.run t b).1 u hj
  have hrun : ({ id, body := .wrapped w t, cell := { interrupted } } : Envelope σ V).run s u j =
      (.ok ((w.run t b).1.isNone && !(runs.flatMap Invocation.attempts).isEmpty),
        { id, body := .wrapped w t, cell := c }, (w.run t b).2.resource, j') := by
    simp only [run, Body.run]
    rw [hconclude]
  refine ⟨?_, ?_, ?_, ?_, ?_⟩
  · rw [hrun]
  · rw [hrun, hc.claimed]
    simp
  · rw [hrun, hc.ready]
    simp
  · rw [hrun, hc.outcome, List.head?_append]
    cases (runs.flatMap Invocation.attempts).head? <;> rfl
  · rw [hrun]
    exact hlog

/-- A task that fails when it is run for the first time, run again and failed after all: the value
of the second run stays, and the failure is worth a line. -/
theorem settles_after_late_failure :
    let t : Program Nat Nat := .update (· + 1) fun n => if n = 0 then .fail .bare else .ret n
    let w : Wrapper Nat := .invoke fun _ => .invoke fun _ => .fail (.number 5)
    let e : Envelope Nat Nat := { id := "a", body := .wrapped w t }
    ({} : Journal).armed = none ∧
      (e.run 0 (.worker 0) {}).1 = .ok false ∧
      (e.run 0 (.worker 0) {}).2.1.cell.outcome = .value 1 ∧
      (e.run 0 (.worker 0) {}).2.2.2.entries = [(.worker 0, .lateFailure "a")] := by
  intro t w e
  have h := settles_of_run "a" w t false 0 (.worker 0) (j := {}) rfl
  exact ⟨rfl, h.1.returns, h.1.outcome, h.1.logs⟩

/-- A task that resolves its cell by its own hand gives another value to no avail. -/
theorem outcome_of_own_resolution :
    let t : Program Unit Nat := .resolve (.value 1) fun _ => .ret 2
    let e : Envelope Unit Nat := { id := "a", body := .wrapped .plain t }
    (Wrapper.plain.invocations t { resource := () }).filterMap Invocation.value? = [2] ∧
      (Wrapper.plain.run t { resource := () }).1.isNone = true ∧
      (e.run () (.worker 0) {}).2.1.cell.outcome = .value 1 :=
  ⟨rfl, rfl, rfl⟩

end Envelope

end SerialWriter
