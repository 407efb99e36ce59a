import SerialWriter.Proofs.Queue.Log
import SerialWriter.Proofs.Run
import SerialWriter.Session.Worker

/-!
How the run of an envelope is entered in the books. A run that has failed is counted as failed, then
the line that says so is logged, and only then it is counted as executed: when that line fails, the
books hold a failure and no execution.
-/

namespace SerialWriter

/-- **How the run of an envelope is entered in the books.** -/
inductive Verdict
  | succeeded
  | failed
  /-- It has failed, and so has the line that says so. -/
  | unreported
  deriving DecidableEq, Repr

namespace Verdict

def isFailure : Verdict → Bool
  | succeeded => false
  | failed | unreported => true

def isExecution : Verdict → Bool
  | succeeded | failed => true
  | unreported => false

lemma balance (xs : List Verdict) :
    xs.countP isFailure + xs.count succeeded = xs.countP isExecution + xs.count unreported := by
  induction xs with
  | nil => rfl
  | cons x xs ih =>
    rw [List.countP_cons, List.countP_cons, List.count_cons, List.count_cons]
    cases x <;> simp [isFailure, isExecution] <;> omega

end Verdict

/-! ### The books -/

namespace Ledger

variable {l : Ledger} {xs : List Verdict} {id : String} {t : Thread} {j : Journal}

/-- The entry for a run that has succeeded or not, when its line is logged to `j`. -/
def verdict (l : Ledger) (id : String) (succeeded : Bool) (t : Thread) (j : Journal) : Verdict :=
  if succeeded then .succeeded
  else if (j.log t (.taskFailed l.writer id)).1.isSome then .unreported else .failed

/-- **The counters are those of these verdicts.** -/
structure Keeps (l : Ledger) (xs : List Verdict) : Prop where
  failed : l.failed = xs.countP Verdict.isFailure
  executed : l.executed = xs.countP Verdict.isExecution

namespace Keeps

lemma snoc {l' : Ledger} {x : Verdict} (h : l.Keeps xs)
    (hf : l'.failed = l.failed + x.isFailure.toNat)
    (he : l'.executed = l.executed + x.isExecution.toNat) : l'.Keeps (xs ++ [x]) := by
  refine ⟨?_, ?_⟩
  · rw [hf, h.failed, List.countP_append, List.countP_singleton]
    cases x <;> rfl
  · rw [he, h.executed, List.countP_append, List.countP_singleton]
    cases x <;> rfl

/-- **More executions than failures**, or as many, as long as the successes make up for the failures
that nobody was told of. -/
lemma failed_le_iff (h : l.Keeps xs) :
    l.failed ≤ l.executed ↔ xs.count .unreported ≤ xs.count .succeeded := by
  have hbalance := Verdict.balance xs
  rw [h.failed, h.executed]
  omega

lemma noteDepth (h : l.Keeps xs) (now : Time) (pending : Nat) :
    (l.noteDepth now pending t j).2.1.Keeps xs := by
  unfold Ledger.noteDepth
  split
  · split <;> exact ⟨h.failed, h.executed⟩
  · exact h

/-- The books after a run are those before it with one more verdict. -/
lemma close (h : l.Keeps xs) (succeeded : Bool) (now : Time) (pending : Nat) :
    (l.close id succeeded now pending t j).2.1.Keeps (xs ++ [l.verdict id succeeded t j]) := by
  cases succeeded with
  | true =>
    have hon : l.noteExecuted.Keeps (xs ++ [.succeeded]) := h.snoc rfl rfl
    exact hon.noteDepth now pending
  | false =>
    simp only [Ledger.close, Ledger.verdict, noteFailure, Bool.false_eq_true, if_false]
    cases hl : (j.log t (.taskFailed l.writer id)).1 with
    | none => exact (h.snoc (x := .failed) rfl rfl).noteDepth now pending
    | some e => exact h.snoc (x := .unreported) rfl rfl

end Keeps

end Ledger

/-! ### A session with a worker -/

namespace WorkerSession

variable {ρ V : Type} {s u : WorkerSession ρ V} {xs : List Verdict} {t : Thread}

/-- The verdict on envelope `i`, run by `t` next; there is none when the run ends with a fault. -/
def verdict? (s : WorkerSession ρ V) (t : Thread) (i : Nat) : Option Verdict :=
  (s.envelopes[i]?).bind fun e =>
    match e.run s.records t s.journal with
    | (.ok succeeded, e, _, j) => some (s.ledger.verdict e.id succeeded t j)
    | (.error _, _) => none

/-- What a cycle of `t` takes, and the session before the rest of the cycle. -/
def takes (s : WorkerSession ρ V) (t : Thread) (budget : Int)
    (meanwhile : WorkerSession ρ V → WorkerSession ρ V) : Option Nat × WorkerSession ρ V :=
  let (taken, s) := s.beginTake t budget
  let s := meanwhile s
  match taken with
  | some r => (r, s)
  | none => s.finishTake t

/-- What the main thread does while a second thread is in a cycle. -/
def meanwhile (submission : Option (String × EnvelopeSource (List ρ) V)) (s : WorkerSession ρ V) :
    WorkerSession ρ V :=
  match submission with
  | some (id, source) => (s.submit id source).2
  | none => ({ s with queue := s.queue.wake mainThread } : WorkerSession ρ V).notify

/-- The verdict on the envelope that a cycle of `t` takes, if it takes one. -/
def verdictOfCycle (s : WorkerSession ρ V) (t : Thread) (budget : Int)
    (meanwhile : WorkerSession ρ V → WorkerSession ρ V) : Option Verdict :=
  (s.takes t budget meanwhile).1.bind ((s.takes t budget meanwhile).2.verdict? t)

/-- The verdict on the envelope that a step runs, if it runs one. -/
def verdictOf (s : WorkerSession ρ V) : WorkerStep (List ρ) V → Option Verdict
  | .cycle budget => s.verdictOfCycle mainThread budget id
  | .cycleDuring budget submission => s.verdictOfCycle second budget (meanwhile submission)
  | _ => none

def step (s : WorkerSession ρ V) (x : WorkerStep (List ρ) V) : Option (WorkerSession ρ V) :=
  some (s.perform x).2

def note (s : WorkerSession ρ V) (x : WorkerStep (List ρ) V) (_ : WorkerSession ρ V) :
    Option Verdict := s.verdictOf x

/-- **Nothing is entered in the books or logged**, and the number that anyone may read stays that of
the pending envelopes. -/
structure Spares (s u : WorkerSession ρ V) : Prop where
  ledger : u.ledger = s.ledger
  journal : u.journal = s.journal
  exact : s.queue.Exact → u.queue.Exact

lemma Spares.refl (s : WorkerSession ρ V) : s.Spares s := ⟨rfl, rfl, fun hs => hs⟩

lemma Spares.trans {v : WorkerSession ρ V} (h : s.Spares u) (hu : u.Spares v) : s.Spares v :=
  ⟨hu.ledger.trans h.ledger, hu.journal.trans h.journal, fun hs => hu.exact (h.exact hs)⟩

lemma spares_notify (s : WorkerSession ρ V) : s.Spares s.notify := by
  refine ⟨rfl, rfl, fun hs => ?_⟩
  change ((s.queue.notify mainThread s.queue.waiters.head?).getD s.queue).Exact
  cases hn : s.queue.notify mainThread s.queue.waiters.head? with
  | none => exact hs
  | some q => exact (SharedQueue.SameLog.notify hn).exact hs

lemma spares_submit (s : WorkerSession ρ V) (id : String) (source : EnvelopeSource (List ρ) V) :
    s.Spares (s.submit id source).2 := by
  unfold submit
  split
  · exact ⟨rfl, rfl, fun hs => hs⟩
  · rename_i e _
    cases ho : s.queue.offer mainThread s.envelopes.length with
    | mk ok q =>
      have hoffer : s.Spares { s with queue := q, envelopes := s.envelopes ++ [e] } := by
        refine ⟨rfl, rfl, fun hs => ?_⟩
        cases ok with
        | true => exact SharedQueue.size_offer ho
        | false => exact SharedQueue.offer_false ho ▸ hs
      cases ok with
      | true => exact hoffer.trans (spares_notify _)
      | false => exact hoffer

lemma spares_wake (s : WorkerSession ρ V) :
    s.Spares ({ s with queue := s.queue.wake mainThread } : WorkerSession ρ V).notify := by
  have hwake : s.Spares { s with queue := s.queue.wake mainThread } := ⟨rfl, rfl, fun hs => hs⟩
  exact hwake.trans (spares_notify _)

lemma spares_meanwhile (s : WorkerSession ρ V)
    (submission : Option (String × EnvelopeSource (List ρ) V)) :
    s.Spares (s.meanwhile submission) := by
  cases submission with
  | none => exact spares_wake s
  | some x => exact spares_submit s ..

lemma exact_of_retake {q q' : SharedQueue Nat} {now : Time} {r : Option (Option Nat)}
    (hr : q.retake t now = some (r, q')) (hq : q.Exact) : q'.Exact := by
  rcases SharedQueue.retake_cases hr with ⟨x, -, hp⟩ | ⟨-, hsame⟩
  · exact hp.exact hq
  · exact hsame.exact hq

lemma exact_of_take {q q' : SharedQueue Nat} {now : Time} {budget : Int}
    {r : Option (Option Nat)} (hr : q.take t now budget = (r, q')) (hq : q.Exact) : q'.Exact := by
  rcases SharedQueue.take_cases hr with ⟨x, -, hp⟩ | ⟨-, hsame⟩
  · exact hp.exact hq
  · exact hsame.exact hq

lemma spares_beginTake (s : WorkerSession ρ V) (t : Thread) (budget : Int) :
    s.Spares (s.beginTake t budget).2 := by
  unfold beginTake
  split
  · rename_i htake
    exact ⟨rfl, rfl, exact_of_take htake⟩
  · rename_i htake
    split
    · rename_i hr
      exact ⟨rfl, rfl, fun hs => exact_of_retake hr (exact_of_take htake hs)⟩
    · exact ⟨rfl, rfl, exact_of_take htake⟩

lemma spares_finishTake (s : WorkerSession ρ V) (t : Thread) : s.Spares (s.finishTake t).2 := by
  unfold finishTake
  split
  · rename_i hr
    exact ⟨rfl, rfl, exact_of_retake hr⟩
  · split
    · dsimp only
      split
      · rename_i hr
        exact ⟨rfl, rfl, exact_of_retake hr⟩
      · exact ⟨rfl, rfl, fun hs => hs⟩
    · exact ⟨rfl, rfl, fun hs => hs⟩

lemma spares_takes {f : WorkerSession ρ V → WorkerSession ρ V} (budget : Int)
    (hf : ∀ s, Spares s (f s)) : s.Spares (s.takes t budget f).2 := by
  have hbegin := (spares_beginTake s t budget).trans (hf _)
  unfold takes
  dsimp only
  split
  · exact hbegin
  · exact hbegin.trans (spares_finishTake _ _)

lemma cycle_eq (budget : Int) (f : WorkerSession ρ V → WorkerSession ρ V) :
    s.cycle t budget f = (s.takes t budget f).2.finishCycle t (s.takes t budget f).1 := rfl

lemma keeps_runEnvelope (h : s.ledger.Keeps xs) (i : Nat) :
    (s.runEnvelope t i).2.ledger.Keeps (xs ++ (s.verdict? t i).toList) := by
  unfold runEnvelope verdict?
  cases s.envelopes[i]? with
  | none => simpa using h
  | some e =>
    simp only [Option.bind_some]
    rcases e.run s.records t s.journal with ⟨r, e', records, j⟩
    cases r with
    | error f => simpa using h
    | ok succeeded => exact h.close succeeded _ _

lemma keeps_cycle {f : WorkerSession ρ V → WorkerSession ρ V} (h : s.ledger.Keeps xs)
    (budget : Int) (hf : ∀ s, Spares s (f s)) :
    (s.cycle t budget f).2.ledger.Keeps (xs ++ (s.verdictOfCycle t budget f).toList) := by
  have htaken : (s.takes t budget f).2.ledger.Keeps xs := (spares_takes budget hf).ledger.symm ▸ h
  rw [cycle_eq, verdictOfCycle]
  cases (s.takes t budget f).1 with
  | none => simpa [finishCycle] using htaken
  | some i => exact keeps_runEnvelope htaken i

/-- **Every step keeps the books.** -/
lemma keeps_perform (h : s.ledger.Keeps xs) (x : WorkerStep (List ρ) V) :
    (s.perform x).2.ledger.Keeps (xs ++ (s.verdictOf x).toList) := by
  have hquiet : ∀ {u : WorkerSession ρ V}, u.ledger = s.ledger →
      u.ledger.Keeps (xs ++ (none : Option Verdict).toList) := by
    intro u hu
    rw [hu]
    simpa using h
  cases x with
  | submit id source => exact hquiet (spares_submit ..).ledger
  | cycle budget =>
    have hcycle := keeps_cycle (t := mainThread) h budget (f := id) fun _ => .refl _
    simp only [perform]
    split <;> (rename_i hc; rw [hc] at hcycle; exact hcycle)
  | cell i cell =>
    simp only [perform]
    split
    · exact hquiet rfl
    · exact hquiet rfl
  | cycleDuring budget submission =>
    exact keeps_cycle (t := second) h budget fun _ => spares_meanwhile _ submission
  | _ => exact hquiet rfl

theorem keeps_of_session {P : WorkerSession ρ V → Prop} (hs : s.ledger.Keeps [])
    (h : Chronicle step note P s xs u) : u.ledger.Keeps xs := by
  induction h with
  | refl _ => exact hs
  | step x _ hx _ ih =>
    cases hx
    exact keeps_perform ih x

end WorkerSession

end SerialWriter
