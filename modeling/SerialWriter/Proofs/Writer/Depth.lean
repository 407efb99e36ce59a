import SerialWriter.Proofs.Writer.Serial
import SerialWriter.Proofs.Writer.Trail

/-!
The lines that a writer's worker logs about the depth of its queue, whatever clients, tasks and
other threads do meanwhile: they come exactly when they are due, as they do in a session with a
worker that runs its cycles one by one.
-/

namespace SerialWriter

variable {σ V : Type}

/-! ### The law -/

/-- So many milliseconds fit the clock, which counts nanoseconds in a signed word of 64 bits. -/
def Time.Fits (ms : Int) : Prop :=
  -9223372036854775808 ≤ ms * 1000000 ∧ ms * 1000000 ≤ 9223372036854775807

lemma Time.span_of_fits {ms : Int} (h : Time.Fits ms) : Time.span ms = ms * 1000000 := by
  obtain ⟨hlow, hhigh⟩ := h
  have hsize : ((UInt64.size : Nat) : Int) = 18446744073709551616 := rfl
  unfold span
  rw [Int.bmod_eq_of_le] <;> rw [hsize] <;> omega

/-- **The lines about the depth of a queue**, in the journal and by the books, after these cycles.
The interval is in milliseconds, and the clock counts nanoseconds. -/
structure Punctual (interval : Int) (opened : Time) (before : List Nat) (es : List CycleEnd)
    (l : Ledger) (j : Journal) : Prop where
  /-- The lines in the journal are those of these cycles, and show how many were pending then. -/
  lines : j.depths = before ++ es.filterMap CycleEnd.line?
  /-- The interval runs since a line was last logged without a fault, or since the books were
  opened. -/
  last : l.lastLogged = lastSuccess opened es
  /-- Lines are logged whenever they are due by the span that the clock makes of the interval, -/
  paced : Paced (Time.span interval) opened es
  /-- which is the interval itself, if it fits the clock, be it positive or not. -/
  exact : Time.Fits interval → Paced (interval * 1000000) opened es

lemma Ledger.Metered.punctual {interval : Int} {opened : Time} {before : List Nat}
    {es : List CycleEnd} {l : Ledger} {j : Journal} (h : l.Metered interval opened before es j) :
    Punctual interval opened before es l j :=
  ⟨h.lines, h.last, h.timely.paced, fun hfits => Time.span_of_fits hfits ▸ h.timely.paced⟩

namespace Writer

variable {w₀ w v : Writer σ V} {m : Move σ V} {n : Nat}

/-! ### Cycles of a worker -/

/-- Something has escaped the cycle that worker `n` was in. -/
def escaped (w : Writer σ V) (n : Nat) : Bool :=
  match w.control.worker? n with
  | some (.failing _) => true
  | _ => false

/-- How a cycle of worker `n` has ended that was in the stage `y?`, if it had dequeued a ticket, and
that went from `w` to `v` at its end. -/
def endOfCycle (w v : Writer σ V) (n : Nat) (y? : Option (CycleStage σ V)) : CycleEnd :=
  match y? with
  | none => .idle
  | some (.measuring _) =>
    .measured w.now w.queue.items.length (.between w.journal v.journal (v.escaped n))
  | some (.dequeued _) | some (.running _ _) | some (.counting _) => .broken

/-- **The end of the cycle that a move is**, if it is one. -/
def cycleEnd (w : Writer σ V) (m : Move σ V) (v : Writer σ V) : Option CycleEnd :=
  match m with
  | .run (.worker n) =>
    if (w.control.budget? n).isSome && (v.control.budget? n).isNone then
      some (w.endOfCycle v n (w.cycles.get? (.worker n)))
    else none
  | _ => none

/-- What logs nothing about the depth is not the end of a cycle that has come to that line. -/
lemma unmeasured_of_trail {t : Thread}
    (hm : ∀ n k, t = .worker n → w.cycles.get? t = some (.measuring k) →
      (w.control.budget? n).isSome → (v.control.budget? n).isSome)
    (e : CycleEnd) (he : w.cycleEnd (.run t) v = some e) : e.isMeasured = false := by
  cases t with
  | client c => cases he
  | worker n =>
    rw [cycleEnd, Option.ite_none_right_eq_some, Bool.and_eq_true, Option.some.injEq] at he
    obtain ⟨⟨hw, hv⟩, rfl⟩ := he
    cases hy : w.cycles.get? (.worker n) with
    | none => rfl
    | some y =>
      cases y with
      | measuring k =>
        have hin := hm n k rfl hy hw
        rw [Option.isNone_iff_eq_none] at hv
        rw [hv] at hin
        cases hin
      | dequeued _ | running _ _ | counting _ => rfl

lemma cycleEnd_of_measuring {last : Bool} {f : Option Failure} {k : Nat}
    (hw : w.control.worker? n = some (.cycling last))
    (hy : w.cycles.get? (.worker n) = some (.measuring k))
    (hc : v.control = w.control.setWorker n (.afterCycle last f)) :
    w.cycleEnd (.run (.worker n)) v =
      some (.measured w.now w.queue.items.length (.between w.journal v.journal f.isSome)) := by
  have hstage : v.control.worker? n = some (.afterCycle last f) :=
    Control.worker?_set_self (congrArg Control.workers hc) hw
  have hin : (w.control.budget? n).isSome := Control.budget?_isSome_iff.mpr ⟨last, hw⟩
  have hout : (v.control.budget? n).isNone := by
    rw [Control.budget?, hstage]
    cases f with
    | some e => rfl
    | none => cases last <;> rfl
  have hescaped : v.escaped n = f.isSome := by
    rw [escaped, hstage]
    cases f with
    | some e => rfl
    | none => cases last <;> rfl
  rw [cycleEnd, hin, hout, hy, ← hescaped]
  rfl

theorem meters_of_step (hq : w.queue.Exact) (h : w.step m = some v) :
    w.ledger.Meters w.journal (w.cycleEnd m v) v.ledger v.journal := by
  cases moves_of_step h with
  | @runs t _ _ =>
    cases marks_of_run h with
    | trail htrail hm =>
      exact .spares htrail.meter htrail.journal.depths (unmeasured_of_trail hm)
    | measures ht hw hy hd _ hc =>
      subst ht
      have hsize : w.queue.items.length = w.queue.size := hq.symm
      rw [cycleEnd_of_measuring hw hy hc, hsize]
      exact .measures (.refl _) rfl hd
  | @begins _ r _ => cases r <;> exact .quiet (.refl _) rfl
  | acknowledges _ | stirs _ | rouses _ | opensGate | opensAll | arms | passes =>
    exact .quiet (.refl _) rfl

theorem metered_of_run {P : Writer σ V → Prop} {interval : Int} {opened : Time}
    {before : List Nat} {es : List CycleEnd} (hq : w₀.queue.Exact)
    (hw : w₀.ledger.Metered interval opened before [] w₀.journal)
    (h : Chronicle step cycleEnd P w₀ es w) :
    w.ledger.Metered interval opened before es w.journal ∧ w.queue.Exact := by
  induction h with
  | refl _ => exact ⟨hw, hq⟩
  | step m _ hs _ ih =>
    exact ⟨ih.1.step (meters_of_step ih.2 hs), (changes_of_step hs).exact ih.2⟩

/-- **Lines about the depth come exactly when they are due**, for any interval that fits the clock:
from the worker of a writer, whatever its threads do and whichever lines fail, and in a session with
a worker, whatever happens between its cycles. -/
theorem punctual_of_runs {ρ U : Type} {config config' : Config} {opened opened' : Time}
    {es xs : List CycleEnd} {s₀ s : WorkerSession ρ U} (hq : w₀.queue.Exact)
    (hl : w₀.ledger = .ofConfig config opened)
    (h : Chronicle step cycleEnd (fun _ => True) w₀ es w) (hq' : s₀.queue.Exact)
    (hl' : s₀.ledger = .ofConfig config' opened')
    (h' : Chronicle WorkerSession.step WorkerSession.cycleEnd (fun _ => True) s₀ xs s) :
    Punctual config.depthInterval opened w₀.journal.depths es w.ledger w.journal ∧
      Punctual config'.depthInterval opened' s₀.journal.depths xs s.ledger s.journal := by
  have hstart : w₀.ledger.Metered config.depthInterval opened w₀.journal.depths [] w₀.journal := by
    rw [hl]
    exact .start rfl rfl rfl
  have hstart' :
      s₀.ledger.Metered config'.depthInterval opened' s₀.journal.depths [] s₀.journal := by
    rw [hl']
    exact .start rfl rfl rfl
  exact ⟨(metered_of_run hq hstart h).1.punctual,
    (WorkerSession.metered_of_session hq' hstart' h').1.punctual⟩

/-- Three tasks, of which two are run after a while. -/
def spread : List (Move Nat Unit) :=
  startUp ++ submit 1 (.ret ()) ++ submit 2 (.ret ()) ++ submit 3 (.ret ()) ++
    [.pass 20000000] ++ goOn (.worker 0) 24

/-- A session in which nothing has happened, with this interval. -/
def untimed (interval : Int) : WorkerSession Nat Unit where
  queue := { queue := { capacity := 4 } }
  ledger := .ofConfig { depthInterval := interval } 0

/-- With ten milliseconds between its lines, a writer logs one for two cycles. With an interval that
has always passed, a session logs one in each cycle that leaves something pending, also after one
that has failed. -/
theorem punctual_of_spread : ∃ (w₀ w : Writer Nat Unit) (j : Journal) (s : WorkerSession Nat Unit)
    (es xs : List CycleEnd),
    create { depthInterval := 10 } "target" none 0 0 (.client 0) {} = (.ok w₀, j) ∧
      es = [.measured 20000000 2 .logged, .measured 20000000 1 .withheld] ∧
      xs = [.measured 1 2 .faulted, .measured 2 1 .logged, .measured 3 0 .withheld, .idle] ∧
      Punctual 10 0 [] es w.ledger w.journal ∧ Punctual (-1) 0 [] xs s.ledger s.journal := by
  obtain ⟨w₀, j, hc⟩ : ∃ (w₀ : Writer Nat Unit) (j : Journal),
      create { depthInterval := 10 } "target" none 0 0 (.client 0) {} = (.ok w₀, j) := ⟨_, _, rfl⟩
  obtain ⟨es, w, hw, hes⟩ : ∃ es w, Chronicle step cycleEnd (fun _ => true = true) w₀ es w ∧
      es = [.measured 20000000 2 .logged, .measured 20000000 1 .withheld] := by
    cases hc
    exact exists_chronicle spread rfl
  obtain ⟨xs, s, hs, hxs⟩ : ∃ xs s, Chronicle WorkerSession.step WorkerSession.cycleEnd
      (fun _ => true = true) (untimed (-1)) xs s ∧
        xs = [.measured 1 2 .faulted, .measured 2 1 .logged, .measured 3 0 .withheld, .idle] := by
    exact exists_chronicle [.submit "a" (.task (.ret ()) none), .submit "b" (.task (.ret ()) none),
      .submit "c" (.task (.ret ()) none), .arm "queue size", .cycle 0, .cycle 0, .cycle 0,
      .cycle 0] rfl
  have hwriter : w₀.queue.Exact ∧ w₀.ledger = .ofConfig { depthInterval := 10 } 0 ∧
      w₀.journal.depths = [] := by
    cases hc
    exact ⟨rfl, rfl, rfl⟩
  obtain ⟨hq, hl, hbefore⟩ := hwriter
  have hq' : (untimed (-1)).queue.Exact := rfl
  have hl' : (untimed (-1)).ledger = .ofConfig { depthInterval := -1 } 0 := rfl
  have hboth := punctual_of_runs hq hl (hw.mono fun _ _ => trivial) hq' hl'
    (hs.mono fun _ _ => trivial)
  rw [hbefore] at hboth
  exact ⟨w₀, w, j, s, es, xs, hc, hes, hxs, hboth.1, hboth.2⟩

/-- **The longest interval is none at all**: the settings are accepted, but in nanoseconds the
interval does not fit the clock, so that a line is logged in every cycle that leaves something
pending. -/
theorem not_timely_of_longestInterval : ∃ (s : WorkerSession Nat Unit) (xs : List CycleEnd),
    ({ depthInterval := 9223372036854775807 } : Config).fault? = none ∧
      Chronicle WorkerSession.step WorkerSession.cycleEnd (fun _ => True)
        (untimed 9223372036854775807) xs s ∧
      xs = [.measured 1 2 .logged, .measured 2 1 .logged, .measured 3 0 .withheld] ∧
      s.journal.depths = [2, 1] ∧ ¬ Timely (9223372036854775807 * 1000000) 0 xs := by
  obtain ⟨xs, s, hs, hseen⟩ : ∃ xs s, Chronicle WorkerSession.step WorkerSession.cycleEnd
      (fun _ => true = true) (untimed 9223372036854775807) xs s ∧ (xs, s.journal.depths) =
        ([.measured 1 2 .logged, .measured 2 1 .logged, .measured 3 0 .withheld], [2, 1]) := by
    exact exists_chronicle [.submit "a" (.task (.ret ()) none), .submit "b" (.task (.ret ()) none),
      .submit "c" (.task (.ret ()) none), .cycle 0, .cycle 0, .cycle 0] rfl
  obtain ⟨rfl, hdepths⟩ := Prod.mk.inj hseen
  refine ⟨s, _, rfl, hs.mono fun _ _ => trivial, rfl, hdepths, fun h => ?_⟩
  have hdue := (h [] _ _ rfl).mp rfl
  exact absurd hdue.2 (by decide)

end Writer

end SerialWriter
