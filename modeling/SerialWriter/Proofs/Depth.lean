import SerialWriter.Proofs.Queue.Traffic
import SerialWriter.Proofs.Verdict
import Mathlib.Data.List.Chain

/-!
Lines about the depth of the queue. A cycle that has run an envelope logs how many more are pending,
if there are any and more than the interval has passed since such a line was last logged without a
fault, or since the books were opened. No other cycle logs such a line, and nothing but a line
without a fault makes the interval start again.
-/

namespace SerialWriter

/-! ### Lines about the depth -/

def Notice.depth? : Notice → Option Nat
  | .depth _ pending => some pending
  | _ => none

namespace Journal

variable {j j' : Journal} {t : Thread} {x : Notice} {f : Option Failure}

def depths (j : Journal) : List Nat := j.entries.reverse.filterMap fun e => e.2.depth?

lemma depths_log (h : j.log t x = (f, j')) : j'.depths = j.depths ++ x.depth?.toList := by
  have hentries : j'.entries = (t, x) :: j.entries := by
    rw [← log_entries, h]
  rw [depths, hentries, List.reverse_cons]
  exact filterMap_append_toList _ _ (some (t, x))

end Journal

/-- **What becomes of the line about the depth** at the end of a cycle. -/
inductive DepthLine
  | withheld
  | logged
  /-- It has been logged, and has failed. -/
  | faulted
  deriving DecidableEq, Repr

/-- What has become of the line, seen from the journals before and after it and from whether
something has escaped. -/
def DepthLine.between (j j' : Journal) (escaped : Bool) : DepthLine :=
  if j'.depths.length = j.depths.length then .withheld
  else if escaped then .faulted
  else .logged

namespace DepthLine

variable {j j' : Journal} {escaped : Bool} {pending : Nat}

lemma between_of_eq (h : j'.depths = j.depths) : between j j' escaped = .withheld :=
  if_pos (congrArg List.length h)

lemma between_of_snoc (h : j'.depths = j.depths ++ [pending]) :
    between j j' escaped = if escaped then .faulted else .logged := by
  refine if_neg fun hlength => ?_
  rw [h, List.length_append] at hlength
  exact Nat.succ_ne_self _ hlength

end DepthLine

/-- **How a cycle has ended.** -/
inductive CycleEnd
  /-- It has dequeued nothing. -/
  | idle
  /-- It has dequeued an envelope, and something has escaped before the line about the depth. -/
  | broken
  /-- It has come to the line about the depth, at this time and with so many envelopes pending. -/
  | measured (now : Time) (pending : Nat) (line : DepthLine)
  deriving DecidableEq, Repr

namespace CycleEnd

/-- The cycle has come to the line about the depth. -/
def isMeasured : CycleEnd → Bool
  | measured _ _ _ => true
  | idle | broken => false

def line? : CycleEnd → Option Nat
  | measured _ _ .withheld | idle | broken => none
  | measured _ pending .logged | measured _ pending .faulted => some pending

/-- When the cycle has logged its line without a fault. -/
def success? : CycleEnd → Option Time
  | measured now _ .logged => some now
  | measured _ _ .withheld | measured _ _ .faulted | idle | broken => none

/-- **The line is due**: the cycle has come to it with something pending, more than `gap` after
`last`. -/
def Due (gap : Int) (last : Time) : CycleEnd → Prop
  | measured now pending _ => 0 < pending ∧ gap < now - last
  | idle | broken => False

end CycleEnd

def successes (es : List CycleEnd) : List Time := es.filterMap CycleEnd.success?

/-- When a line was last logged without a fault; before the first one, when the books were
opened. -/
def lastSuccess (opened : Time) (es : List CycleEnd) : Time := (successes es).getLastD opened

/-- **Every cycle logs its line exactly if it is due** since the last one without a fault. -/
def Timely (gap : Int) (opened : Time) (es : List CycleEnd) : Prop :=
  ∀ es₁ e es₂, es = es₁ ++ e :: es₂ → (e.line?.isSome ↔ e.Due gap (lastSuccess opened es₁))

/-- **Lines about the depth are logged exactly when they are due**, and so they are `gap` apart. -/
structure Paced (gap : Int) (opened : Time) (es : List CycleEnd) : Prop where
  timely : Timely gap opened es
  /-- A line never says that nothing is pending. -/
  positive : ∀ pending ∈ es.filterMap CycleEnd.line?, 1 ≤ pending
  /-- Between any two lines that are logged without a fault lies more than `gap`, and so it does
  between the opening of the books and the first of them. -/
  apart : 0 ≤ gap → (opened :: successes es).Pairwise fun a b => gap < b - a

section Histories

variable {gap : Int} {opened now last : Time} {es : List CycleEnd} {e : CycleEnd} {pending : Nat}

lemma lastSuccess_snoc (opened : Time) (es : List CycleEnd) (e : CycleEnd) :
    lastSuccess opened (es ++ [e]) = e.success?.getD (lastSuccess opened es) := by
  have hsuccesses : successes (es ++ [e]) = successes es ++ e.success?.toList :=
    filterMap_append_toList _ es (some e)
  rw [lastSuccess, hsuccesses]
  cases e.success? with
  | none => rw [Option.toList_none, List.append_nil, Option.getD_none, lastSuccess]
  | some now => rw [Option.toList_some, List.getLastD_concat, Option.getD_some]

namespace CycleEnd

lemma line_of_success (h : e.success? = some now) : e.line?.isSome := by
  cases e with
  | idle | broken => cases h
  | measured now pending line =>
    cases line with
    | withheld | faulted => cases h
    | logged => rfl

lemma Due.pos (h : e.Due gap last) (hline : e.line? = some pending) : 1 ≤ pending := by
  cases e with
  | idle | broken => cases h
  | measured now n line =>
    cases line with
    | withheld => cases hline
    | logged | faulted =>
      cases hline
      exact h.1

lemma Due.lt (h : e.Due gap last) (hsuccess : e.success? = some now) : gap < now - last := by
  cases e with
  | idle | broken => cases h
  | measured now n line =>
    cases line with
    | withheld | faulted => cases hsuccess
    | logged =>
      cases hsuccess
      exact h.2

end CycleEnd

namespace Timely

lemma nil : Timely gap opened [] := by
  intro es₁ e es₂ hes
  cases es₁ <;> cases hes

lemma snoc (h : Timely gap opened es)
    (he : e.line?.isSome ↔ e.Due gap (lastSuccess opened es)) : Timely gap opened (es ++ [e]) := by
  intro es₁ e' es₂ hes
  rcases List.eq_nil_or_concat es₂ with rfl | ⟨es', e'', rfl⟩
  · obtain ⟨rfl, heq⟩ := List.append_inj' hes rfl
    cases heq
    exact he
  · rw [List.concat_eq_append, ← List.cons_append, ← List.append_assoc] at hes
    exact h es₁ e' es' (List.append_inj' hes rfl).1

lemma of_snoc (h : Timely gap opened (es ++ [e])) :
    e.line?.isSome ↔ e.Due gap (lastSuccess opened es) := h es e [] rfl

lemma init (h : Timely gap opened (es ++ [e])) : Timely gap opened es := by
  intro es₁ e' es₂ hes
  refine h es₁ e' (es₂ ++ [e]) ?_
  rw [hes, List.append_assoc, List.cons_append]

lemma isChain (h : Timely gap opened es) :
    (opened :: successes es).IsChain fun a b => gap < b - a := by
  induction es using List.reverseRecOn with
  | nil => exact .singleton opened
  | append_singleton es e ih =>
    have hsuccesses : successes (es ++ [e]) = successes es ++ e.success?.toList :=
      filterMap_append_toList _ es (some e)
    rw [hsuccesses, ← List.cons_append]
    cases he : e.success? with
    | none =>
      rw [Option.toList_none, List.append_nil]
      exact ih h.init
    | some now =>
      refine List.isChain_append.mpr ⟨ih h.init, .singleton now, ?_⟩
      intro a ha b hb
      have hlast : lastSuccess opened es = a := by
        rw [Option.mem_def, List.getLast?_cons, Option.some.injEq] at ha
        rw [← ha]
        exact List.getLastD_eq_getLast? ..
      cases hb
      rw [← hlast]
      exact (h.of_snoc.mp (CycleEnd.line_of_success he)).lt he

theorem paced (h : Timely gap opened es) : Paced gap opened es := by
  refine ⟨h, ?_, fun hgap => ?_⟩
  · intro pending hpending
    obtain ⟨e, he, hline⟩ := List.mem_filterMap.mp hpending
    obtain ⟨es₁, es₂, hes⟩ := List.append_of_mem he
    have hdue := (h es₁ e es₂ hes).mp (Option.isSome_iff_exists.mpr ⟨pending, hline⟩)
    exact hdue.pos hline
  · -- what is more than a gap later than something is later than it
    have : Trans (fun a b : Time => gap < b - a) (fun a b : Time => gap < b - a)
        (fun a b : Time => gap < b - a) := ⟨fun {a b c} hab hbc => by omega⟩
    exact h.isChain.pairwise

end Timely

end Histories

/-! ### What the books make of it -/

namespace Ledger

variable {l l' l₁ : Ledger} {now : Time} {pending : Nat} {t : Thread} {j j' j₁ : Journal}
  {f : Option Failure}

/-- The interval is the same, and has started again at no other time. -/
structure SameMeter (l l' : Ledger) : Prop where
  interval : l'.interval = l.interval
  lastLogged : l'.lastLogged = l.lastLogged

lemma SameMeter.refl (l : Ledger) : l.SameMeter l := ⟨rfl, rfl⟩

lemma depthDue_iff : l.depthDue now pending = true ↔
    0 < pending ∧ Time.span l.interval < now - l.lastLogged := by
  rw [depthDue, Bool.and_eq_true, decide_eq_true_eq, decide_eq_true_eq, and_comm]

/-- A line about the depth is logged if it is due, and without a fault it makes the interval start
again. -/
lemma noteDepth_cases (h : l.noteDepth now pending t j = (f, l', j')) :
    l.depthDue now pending = false ∧ f = none ∧ l' = l ∧ j' = j ∨
      l.depthDue now pending = true ∧ j.log t (.depth l.writer pending) = (f, j') ∧
        l' = if f.isSome then l else { l with lastLogged := now } := by
  unfold noteDepth at h
  split at h
  · rename_i hdue
    right
    split at h
    · rename_i hl
      cases h
      exact ⟨hdue, hl, rfl⟩
    · rename_i hl
      cases h
      exact ⟨hdue, hl, rfl⟩
  · rename_i hdue
    cases h
    exact .inl ⟨Bool.not_eq_true _ ▸ hdue, rfl, rfl, rfl⟩

/-- **What a step does to the lines about the depth and to the interval**, with the end of a cycle
that it may be. -/
inductive Meters (l : Ledger) (j : Journal) : Option CycleEnd → Ledger → Journal → Prop
  /-- No line about the depth is logged. -/
  | spares {e? : Option CycleEnd} {l' : Ledger} {j' : Journal} (hl : l.SameMeter l')
      (hj : j'.depths = j.depths) (he : ∀ e, e? = some e → e.isMeasured = false) :
      Meters l j e? l' j'
  /-- A cycle has come to its line about the depth. -/
  | measures {now : Time} {pending : Nat} {t : Thread} {f : Option Failure} {l₁ l' : Ledger}
      {j₁ j' : Journal} (hl : l.SameMeter l₁) (hj : j₁.depths = j.depths)
      (h : l₁.noteDepth now pending t j₁ = (f, l', j')) :
      Meters l j (some (.measured now pending (.between j j' f.isSome))) l' j'

lemma Meters.quiet (hl : l.SameMeter l') (hj : j'.depths = j.depths) : l.Meters j none l' j' :=
  .spares hl hj nofun

/-- **The books keep the interval**, and the journal shows the lines of these cycles. -/
structure Metered (interval : Int) (opened : Time) (before : List Nat) (es : List CycleEnd)
    (l : Ledger) (j : Journal) : Prop where
  meter : l.interval = interval
  /-- The interval has last started when a line was last logged without a fault. -/
  last : l.lastLogged = lastSuccess opened es
  /-- The lines in the journal are those of these cycles, and show how many were pending. -/
  lines : j.depths = before ++ es.filterMap CycleEnd.line?
  timely : Timely (Time.span interval) opened es

namespace Metered

variable {interval : Int} {opened : Time} {before : List Nat} {es : List CycleEnd} {e : CycleEnd}
  {e? : Option CycleEnd}

lemma start (hinterval : l.interval = interval) (hopened : l.lastLogged = opened)
    (hbefore : j.depths = before) : Metered interval opened before [] l j :=
  ⟨hinterval, hopened, by rw [hbefore, List.filterMap_nil, List.append_nil], .nil⟩

lemma unmeasured (h : Metered interval opened before es l j) (hl : l.SameMeter l')
    (hj : j'.depths = j.depths) (he : ∀ e, e? = some e → e.isMeasured = false) :
    Metered interval opened before (es ++ e?.toList) l' j' := by
  have hsame : Metered interval opened before es l' j' :=
    ⟨hl.interval.trans h.meter, hl.lastLogged.trans h.last, hj.trans h.lines, h.timely⟩
  cases e? with
  | none => exact (List.append_nil es).symm ▸ hsame
  | some e =>
    have hsilent : e.line? = none ∧ e.success? = none ∧ ∀ gap last, ¬ e.Due gap last := by
      cases e with
      | idle | broken => exact ⟨rfl, rfl, fun _ _ => id⟩
      | measured now pending line => cases he _ rfl
    obtain ⟨hline, hsuccess, hdue⟩ := hsilent
    refine ⟨hsame.meter, ?_, ?_, h.timely.snoc ?_⟩
    · rw [Option.toList_some, lastSuccess_snoc, hsuccess]
      exact hsame.last
    · have hfilter := filterMap_append_toList CycleEnd.line? es (some e)
      rw [Option.bind_some, hline, Option.toList_none, List.append_nil] at hfilter
      rw [hfilter]
      exact hsame.lines
    · rw [hline]
      exact iff_of_false Bool.false_ne_true (hdue _ _)

/-- **A cycle that comes to its line** logs it exactly if it is due. -/
lemma measured (h : Metered interval opened before es l j) (hl : l.SameMeter l₁)
    (hj : j₁.depths = j.depths) (hn : l₁.noteDepth now pending t j₁ = (f, l', j')) :
    Metered interval opened before
      (es ++ [.measured now pending (.between j j' f.isSome)]) l' j' := by
  have hmeter : l₁.interval = interval := hl.interval.trans h.meter
  have hlast : l₁.lastLogged = lastSuccess opened es := hl.lastLogged.trans h.last
  have hdue : l₁.depthDue now pending = true ↔
      0 < pending ∧ Time.span interval < now - lastSuccess opened es := by
    rw [depthDue_iff, hmeter, hlast]
  rcases noteDepth_cases hn with ⟨hnot, rfl, rfl, rfl⟩ | ⟨hyes, hlog, rfl⟩
  · rw [DepthLine.between_of_eq hj]
    refine ⟨hmeter, ?_, ?_, h.timely.snoc ?_⟩
    · rw [lastSuccess_snoc]
      exact hlast
    · rw [hj, h.lines, List.filterMap_append]
      exact (congrArg _ (List.append_nil _)).symm
    · rw [hnot] at hdue
      exact iff_of_false Bool.false_ne_true (mt hdue.mpr Bool.false_ne_true)
  · have hdepths : j'.depths = j.depths ++ [pending] := by
      rw [Journal.depths_log hlog, hj]
      rfl
    rw [DepthLine.between_of_snoc hdepths]
    refine ⟨?_, ?_, ?_, h.timely.snoc ?_⟩
    · cases f <;> exact hmeter
    · rw [lastSuccess_snoc]
      cases f with
      | none => rfl
      | some e => exact hlast
    · rw [hdepths, h.lines, List.filterMap_append, List.append_assoc]
      cases f <;> rfl
    · refine iff_of_true ?_ (hdue.mp hyes)
      cases f <;> rfl

theorem step (h : Metered interval opened before es l j) (hs : l.Meters j e? l' j') :
    Metered interval opened before (es ++ e?.toList) l' j' := by
  cases hs with
  | spares hl hj he => exact h.unmeasured hl hj he
  | measures hl hj hn => exact h.measured hl hj hn

end Metered

end Ledger

/-! ### A session with a worker -/

lemma Ledger.executed_noteDepth {l l' : Ledger} {now : Time} {pending : Nat} {t : Thread}
    {j j' : Journal} {f : Option Failure} (h : l.noteDepth now pending t j = (f, l', j')) :
    l'.executed = l.executed := by
  rcases noteDepth_cases h with ⟨-, -, rfl, -⟩ | ⟨-, -, rfl⟩
  · rfl
  · cases f <;> rfl

/-- All that follows the run of a task comes to the line about the depth, unless the line that says
that the task has failed fails itself. -/
lemma Ledger.close_cases {l l' : Ledger} {id : String} {succeeded : Bool} {now : Time}
    {pending : Nat} {t : Thread} {j j' : Journal} {f : Option Failure}
    (h : l.close id succeeded now pending t j = (f, l', j')) :
    (l'.executed = l.executed ∧ f.isSome ∧ l.SameMeter l' ∧ j'.depths = j.depths) ∨
      l'.executed = l.executed + 1 ∧ ∃ l₁ j₁, l.SameMeter l₁ ∧ j₁.depths = j.depths ∧
        l₁.noteDepth now pending t j₁ = (f, l', j') := by
  cases succeeded with
  | true => exact .inr ⟨executed_noteDepth h, l.noteExecuted, j, ⟨rfl, rfl⟩, rfl, h⟩
  | false =>
    cases hlog : j.log t (.taskFailed l.writer id) with
    | mk fault j₁ =>
      have hdepths : j₁.depths = j.depths := by
        rw [Journal.depths_log hlog]
        exact List.append_nil _
      simp only [close, noteFailure, hlog, Bool.false_eq_true, if_false] at h
      cases fault with
      | some e =>
        cases h
        exact .inl ⟨rfl, rfl, ⟨rfl, rfl⟩, hdepths⟩
      | none =>
        exact .inr ⟨executed_noteDepth h, ({ l with failed := l.failed + 1 } : Ledger).noteExecuted,
          j₁, ⟨rfl, rfl⟩, hdepths, h⟩

lemma Envelope.depths_run {σ V : Type} {e e' : Envelope σ V} {s s' : σ} {t : Thread}
    {j j' : Journal} {r : Except Failure Bool} (h : e.run s t j = (r, e', s', j')) :
    j'.depths = j.depths := by
  have hconclude : ∀ {id : String} {escaped : Option Failure} {c c' : Cell V}
      {r : Except Failure Bool}, conclude id escaped c t j = (r, c', j') →
        j'.depths = j.depths := by
    intro id escaped c c' r h
    unfold conclude at h
    split at h
    · split at h
      · cases h
        rfl
      · split at h <;>
          (rename_i hlog; cases h; rw [Journal.depths_log hlog]; exact List.append_nil _)
    · split at h <;> (cases h; rfl)
  unfold run at h
  cases h
  exact hconclude rfl

namespace WorkerSession

variable {ρ V : Type} {s u : WorkerSession ρ V} {t : Thread}

/-- How a cycle has ended that began at `s`, gave `r` and has left `u`. A cycle that comes to its
line about the depth has counted an execution. -/
def endOfCycle (s : WorkerSession ρ V) (r : Except Failure Bool) (u : WorkerSession ρ V) :
    CycleEnd :=
  match r with
  | .ok false => .idle
  | .ok true | .error _ =>
    if u.ledger.executed = s.ledger.executed then .broken
    else .measured u.now u.queue.items.length (.between s.journal u.journal (!r.isOk))

/-- **The end of the cycle that a step is**, if it is one. -/
def cycleEnd (s : WorkerSession ρ V) (x : WorkerStep (List ρ) V) (u : WorkerSession ρ V) :
    Option CycleEnd :=
  match x, (s.perform x).1 with
  | .cycle _, .truth b => some (s.endOfCycle (.ok b) u)
  | .cycle _, .failed e => some (s.endOfCycle (.error e) u)
  | .cycleDuring _ _, .cycled r _ => some (s.endOfCycle r u)
  | _, _ => none

section Cycles

variable {r : Except Failure Bool}

lemma meters_broken (hr : r ≠ .ok false) (hu : u.ledger.executed = s.ledger.executed)
    (hl : s.ledger.SameMeter u.ledger) (hj : u.journal.depths = s.journal.depths) :
    s.ledger.Meters s.journal (some (s.endOfCycle r u)) u.ledger u.journal := by
  have hend : s.endOfCycle r u = .broken := by
    unfold endOfCycle
    split
    · exact absurd rfl hr
    · exact if_pos hu
    · exact if_pos hu
  refine .spares hl hj fun e he => ?_
  rw [hend] at he
  cases he
  rfl

lemma endOfCycle_measured (hr : r ≠ .ok false)
    (hu : u.ledger.executed = s.ledger.executed + 1) : s.endOfCycle r u =
      .measured u.now u.queue.items.length (.between s.journal u.journal (!r.isOk)) := by
  have hne : u.ledger.executed ≠ s.ledger.executed := hu ▸ Nat.succ_ne_self _
  unfold endOfCycle
  split
  · exact absurd rfl hr
  · exact if_neg hne
  · exact if_neg hne

lemma meters_runEnvelope (hq : s.queue.Exact) (i : Nat) (h : s.runEnvelope t i = (r, u)) :
    s.ledger.Meters s.journal (some (s.endOfCycle r u)) u.ledger u.journal ∧
      u.queue = s.queue := by
  unfold runEnvelope at h
  cases he : s.envelopes[i]? with
  | none =>
    rw [he] at h
    cases h
    exact ⟨meters_broken nofun rfl (.refl _) rfl, rfl⟩
  | some e =>
    rw [he] at h
    rcases hrun : e.run s.records t s.journal with ⟨r₁, e', records, j⟩
    have hdepths := Envelope.depths_run hrun
    simp only [hrun] at h
    cases r₁ with
    | error f =>
      cases h
      exact ⟨meters_broken nofun rfl (.refl _) hdepths, rfl⟩
    | ok succeeded =>
      rcases hclose : s.ledger.close e'.id succeeded (s.now + 1) s.queue.size t j with ⟨f, l, j'⟩
      simp only [hclose] at h
      cases h
      refine ⟨?_, rfl⟩
      have hok : f.elim (Except.ok true) Except.error ≠ (.ok false : Except Failure Bool) := by
        cases f <;> nofun
      rcases Ledger.close_cases hclose with ⟨hexecuted, -, hl, hj⟩ | ⟨hexecuted, l₁, j₁, hl, hj, hn⟩
      · exact meters_broken hok hexecuted hl (hj.trans hdepths)
      · rw [endOfCycle_measured hok hexecuted]
        have hfault : (!(f.elim (Except.ok true) Except.error : Except Failure Bool).isOk) =
            f.isSome := by
          cases f <;> rfl
        have hsize : s.queue.items.length = s.queue.size := hq.symm
        dsimp only
        rw [hfault, hsize]
        exact .measures hl (hj.trans hdepths) hn

lemma meters_cycle {f : WorkerSession ρ V → WorkerSession ρ V} {budget : Int}
    (hf : ∀ s, Spares s (f s)) (hq : s.queue.Exact) (h : s.cycle t budget f = (r, u)) :
    s.ledger.Meters s.journal (some (s.endOfCycle r u)) u.ledger u.journal ∧ u.queue.Exact := by
  have htakes := spares_takes (s := s) (t := t) budget hf
  rw [cycle_eq] at h
  generalize s.takes t budget f = taken at h htakes
  obtain ⟨i?, v⟩ := taken
  cases i? with
  | none =>
    cases h
    exact ⟨.spares ⟨congrArg _ htakes.ledger, congrArg _ htakes.ledger⟩
      (congrArg _ htakes.journal) (by rintro _ ⟨⟩; rfl), htakes.exact hq⟩
  | some i =>
    have hv : v.ledger = s.ledger ∧ v.journal = s.journal := ⟨htakes.ledger, htakes.journal⟩
    obtain ⟨hmeters, hqueue⟩ := meters_runEnvelope (htakes.exact hq) i h
    have hend : v.endOfCycle r u = s.endOfCycle r u := by
      unfold endOfCycle
      rw [hv.1, hv.2]
    rw [hend, hv.1, hv.2] at hmeters
    exact ⟨hmeters, hqueue ▸ htakes.exact hq⟩

end Cycles

lemma meters_perform (hq : s.queue.Exact) (x : WorkerStep (List ρ) V) :
    s.ledger.Meters s.journal (s.cycleEnd x (s.perform x).2) (s.perform x).2.ledger
        (s.perform x).2.journal ∧ (s.perform x).2.queue.Exact := by
  -- what is not a cycle logs nothing
  have hquiet : ∀ {u : WorkerSession ρ V}, u.ledger = s.ledger →
      u.journal.depths = s.journal.depths → s.ledger.Meters s.journal none u.ledger u.journal := by
    intro u hl hj
    exact .quiet ⟨congrArg _ hl, congrArg _ hl⟩ hj
  have hspares : ∀ {u : WorkerSession ρ V}, s.Spares u →
      s.ledger.Meters s.journal none u.ledger u.journal ∧ u.queue.Exact := fun h =>
    ⟨hquiet h.ledger (congrArg _ h.journal), h.exact hq⟩
  cases x with
  | submit id source => exact hspares (spares_submit ..)
  | cycle budget =>
    rcases hc : s.cycle mainThread budget id with ⟨r, u⟩
    have hmeters := meters_cycle (f := id) (fun _ => .refl _) hq hc
    cases r <;> (simp only [perform, cycleEnd, hc]; exact hmeters)
  | wake => exact hspares (spares_wake s)
  | clear => exact ⟨hquiet rfl rfl, rfl⟩
  | cell i cell =>
    simp only [perform, cycleEnd]
    split <;> exact ⟨hquiet rfl rfl, hq⟩
  | cycleDuring budget submission =>
    rcases hc : s.cycle second budget (meanwhile submission) with ⟨r, u⟩
    have hmeters := meters_cycle (fun _ => spares_meanwhile _ submission) hq hc
    have hperform : (s.perform (.cycleDuring budget submission)).2 = u := congrArg Prod.snd hc
    have hend : s.cycleEnd (.cycleDuring budget submission) u = some (s.endOfCycle r u) := by
      have hr : (s.cycle second budget (meanwhile submission)).1 = r := congrArg Prod.fst hc
      rw [← hr]
      rfl
    rw [hperform, hend]
    exact hmeters
  | pending | sleep ms | arm needle | interruptAll => exact ⟨hquiet rfl rfl, hq⟩

theorem metered_of_session {P : WorkerSession ρ V → Prop} {interval : Int} {opened : Time}
    {before : List Nat} {es : List CycleEnd} (hq : s.queue.Exact)
    (hs : s.ledger.Metered interval opened before [] s.journal)
    (h : Chronicle step cycleEnd P s es u) :
    u.ledger.Metered interval opened before es u.journal ∧ u.queue.Exact := by
  induction h with
  | refl _ => exact ⟨hs, hq⟩
  | step x _ hx _ ih =>
    cases hx
    obtain ⟨hmeters, hexact⟩ := meters_perform ih.2 x
    exact ⟨ih.1.step hmeters, hexact⟩

end WorkerSession

end SerialWriter
