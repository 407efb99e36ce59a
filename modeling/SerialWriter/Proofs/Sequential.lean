import SerialWriter.Envelope
import Mathlib.Tactic.Lemma

/-!
The reference for the work of a writer: the bodies of its tasks evaluated one after the other, with
no queue, no threads and no log that fails.
-/

namespace SerialWriter

variable {σ V : Type}

/-- The program never calls its writer and leaves its own cell alone; it may wait at gates. -/
inductive Program.Apart : Program σ V → Prop
  | ret (v : V) : Apart (.ret v)
  | fail (e : Failure) : Apart (.fail e)
  | update (f : σ → σ) (next : σ → Program σ V) (h : ∀ s, Apart (next s)) :
    Apart (.update f next)
  | pass (gate : String) (next : Program σ V) (h : Apart next) : Apart (.pass gate next)

/-- The test of `Apart`, for a resource that is one of `all`. -/
def Program.testApart (all : List σ) : Program σ V → Bool
  | .ret _ | .fail _ => true
  | .update _ next => all.all fun s => (next s).testApart all
  | .pass _ next => next.testApart all
  | _ => false

lemma Program.apart_of_test {all : List σ} (hall : ∀ s, s ∈ all) {p : Program σ V}
    (h : p.testApart all = true) : p.Apart := by
  induction p with
  | ret v => exact .ret v
  | fail e => exact .fail e
  | update f next ih => exact .update f next fun s => ih s (List.all_eq_true.mp h s (hall s))
  | pass gate next ih => exact .pass gate next (ih h)
  | _ => cases h

/-! ### Evaluating one task -/

/-- **A task as the worker gets it**: its id, and its body in what the factory put around it. -/
structure Job (σ V : Type) where
  id : String
  body : Body σ V

/-- What the evaluation of a task comes to. -/
structure Evaluation (σ V : Type) where
  resource : σ
  outcome : Outcome V
  succeeded : Bool

def Envelope.job (e : Envelope σ V) : Job σ V := { id := e.id, body := e.body }

def Cell.outcome (c : Cell V) : Outcome V := (c.value.map .value).getD (.error c.error)

/-- **Evaluates a task** on its own. -/
def Job.eval (x : Job σ V) (s : σ) : Evaluation σ V :=
  let (r, e, resource, _) :=
    ({ id := x.id, body := x.body } : Envelope σ V).run s (.worker 0) {}
  { resource, outcome := e.cell.outcome, succeeded := r.toOption.getD false }

/-! ### Evaluating one task after the other -/

/-- What the evaluation of a list of tasks comes to. -/
structure Account (σ V : Type) where
  resource : σ
  outcomes : List (Outcome V) := []
  executed : Nat := 0
  failed : Nat := 0

/-- One more task is evaluated. -/
def Account.after (a : Account σ V) (x : Job σ V) : Account σ V where
  resource := (x.eval a.resource).resource
  outcomes := a.outcomes ++ [(x.eval a.resource).outcome]
  executed := a.executed + 1
  failed := a.failed + (!(x.eval a.resource).succeeded).toNat

/-- **The reference**: the tasks evaluated one after the other, from the resource `s` on. -/
def sequential (jobs : List (Job σ V)) (s : σ) : Account σ V :=
  jobs.foldl Account.after { resource := s }

lemma sequential_concat (jobs : List (Job σ V)) (x : Job σ V) (s : σ) :
    sequential (jobs ++ [x]) s = (sequential jobs s).after x := by
  rw [sequential, List.foldl_append]
  rfl

namespace Account

lemma foldl_after (jobs : List (Job σ V)) (a : Account σ V) :
    jobs.foldl after a =
      { resource := (sequential jobs a.resource).resource
        outcomes := a.outcomes ++ (sequential jobs a.resource).outcomes
        executed := a.executed + jobs.length
        failed := a.failed + (sequential jobs a.resource).failed } := by
  induction jobs generalizing a with
  | nil => simp [sequential]
  | cons x jobs ih =>
    have hfirst : sequential (x :: jobs) a.resource =
        jobs.foldl after (({ resource := a.resource } : Account σ V).after x) := rfl
    rw [List.foldl_cons, ih, hfirst, ih]
    simp only [after, List.nil_append, List.append_assoc, List.length_cons, Account.mk.injEq,
      Nat.zero_add, true_and]
    omega

end Account

@[simp] lemma length_outcomes (jobs : List (Job σ V)) (s : σ) :
    (sequential jobs s).outcomes.length = jobs.length := by
  induction jobs generalizing s with
  | nil => rfl
  | cons x jobs ih =>
    rw [sequential, List.foldl_cons, Account.foldl_after]
    simp only [Account.after, List.nil_append, List.length_append, List.length_cons,
      List.length_nil, ih]
    omega

end SerialWriter
