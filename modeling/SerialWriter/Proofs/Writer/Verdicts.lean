import SerialWriter.Proofs.Verdict
import SerialWriter.Proofs.Writer.Conservation
import SerialWriter.Proofs.Writer.Quiet

/-!
The verdicts of a writer's worker: what can be found in the runs of its tickets, and what the books
make of it. Between cycles the books hold one failure for each run that has failed, and one
execution for each run but those whose failure could not be reported.
-/

namespace SerialWriter

variable {σ V : Type}

/-! ### What is found in a run -/

/-- **What can be found in the run of a ticket.** -/
inductive Finding (V : Type)
  /-- The task resolves its own cell. -/
  | resolved (ticket : Nat) (o : Outcome V)
  /-- The body has failed after its outcome was decided. -/
  | late (ticket : Nat)
  /-- The run is over. -/
  | judged (ticket : Nat) (x : Verdict)

namespace Finding

def verdict? : Finding V → Option Verdict
  | judged _ x => some x
  | resolved _ _ | late _ => none

end Finding

/-- What is found when a worker goes on from the stage `y` of its cycle to another, or out of it. -/
def CycleStage.finding : CycleStage σ V → Option (CycleStage σ V) → Option (Finding V)
  | .running k (.publishing o (.inner _ _)), some (.running _ (.inner _ _)) => some (.resolved k o)
  | .running k (.left (some _)), some (.running _ (.verdict _)) => some (.late k)
  | .running k (.verdict ok), some (.counting _) =>
    some (.judged k (if ok then .succeeded else .failed))
  | .running k (.verdict _), none => some (.judged k .unreported)
  | _, _ => none

/-- **What is found in a move** from `w` to `v`. -/
def Writer.finding (w : Writer σ V) (m : Move σ V) (v : Writer σ V) : Option (Finding V) :=
  match m with
  | .run t => (w.cycles.get? t).bind fun y => y.finding (v.cycles.get? t)
  | _ => none

def verdicts (es : List (Finding V)) : List Verdict := es.filterMap Finding.verdict?

namespace CycleStage

lemma finding_self (y : CycleStage σ V) : y.finding (some y) = none := by
  cases y with
  | running k b =>
    cases b with
    | publishing o after => cases after <;> rfl
    | left e => cases e <;> rfl
    | _ => rfl
  | _ => rfl

lemma verdict_of_finding {k : Nat} {b : BodyStage σ V} (hb : ∀ ok, b ≠ .verdict ok)
    (z : Option (CycleStage σ V)) :
    ((CycleStage.running k b).finding z).bind Finding.verdict? = none := by
  generalize hy : CycleStage.running k b = y
  unfold finding
  split
  · rfl
  · rfl
  · cases hy
    exact absurd rfl (hb _)
  · cases hy
    exact absurd rfl (hb _)
  · rfl

end CycleStage

/-- **What is found in a step of the affairs**, seen from the worker that has a ticket in hand. -/
structure Affairs.Finds (c d : Affairs σ V) (x : Option (Finding V)) : Prop where
  hand : ∀ n y, c.cycles.get? (.worker n) = some y → x = y.finding (d.cycles.get? (.worker n))
  idle : (∀ n, c.cycles.get? (.worker n) = none) → x = none

namespace Affairs.Finds

variable {c d : Affairs σ V} {x : Option (Finding V)} {n : Nat} {y y' : CycleStage σ V}

lemma beside (h : c.Finds d x) (hd : d.cycles = c.cycles) : x = none := by
  by_cases hy : ∃ n y, c.cycles.get? (.worker n) = some y
  · obtain ⟨n, y, hy⟩ := hy
    rw [h.hand n y hy, hd, hy, CycleStage.finding_self]
  · exact h.idle fun n => Option.eq_none_iff_forall_ne_some.mpr fun y hn => hy ⟨n, y, hn⟩

lemma put (h : c.Finds d x) (hy : c.cycles.get? (.worker n) = some y)
    (hd : d.cycles = c.cycles.put (.worker n) y') : x = y.finding (some y') := by
  rw [h.hand n y hy, hd, Roster.get?_put_self]

lemma drop (h : c.Finds d x) (hy : c.cycles.get? (.worker n) = some y)
    (hd : d.cycles = c.cycles.drop (.worker n)) : x = y.finding none := by
  rw [h.hand n y hy, hd, Roster.get?_drop_self]

end Affairs.Finds

namespace Writer

variable {w v : Writer σ V} {m : Move σ V} {n k : Nat}

/-- Findings are those of the worker that has a ticket in hand, whoever makes the move. -/
lemma finds_of_step (hl : w.course.Linked) (hs : w.step m = some v) :
    w.affairs.Finds v.affairs (w.finding m v) := by
  refine ⟨fun n y hy => ?_, fun hidle => ?_⟩
  · change w.cycles.get? (.worker n) = some y at hy
    change _ = y.finding (v.cycles.get? (.worker n))
    by_cases hm : m = .run (.worker n)
    · subst hm
      simp only [finding, hy, Option.bind_some]
    · rw [cycles_of_step hs hm, hy, CycleStage.finding_self]
      -- another thread that finds something would have a ticket in hand as well
      cases m with
      | run t =>
        have hn : w.cycles.get? t = none := by
          refine Option.eq_none_iff_forall_ne_some.mpr fun z hz => ?_
          obtain ⟨i, last, rfl, hw⟩ := (hl.fits t).cycle z hz
          have hin : n ≠ i := fun hin => hm (hin ▸ rfl)
          have hother := hl.others hw hin
          rw [show w.course.cycles.get? (.worker n) = some y from hy] at hother
          cases hother
        simp only [finding, hn, Option.bind_none]
      | _ => rfl
  · cases m with
    | run t =>
      have hn : w.cycles.get? t = none := by
        refine Option.eq_none_iff_forall_ne_some.mpr fun z hz => ?_
        obtain ⟨i, last, rfl, -⟩ := (hl.fits t).cycle z hz
        exact nomatch (hidle i).symm.trans hz
      simp only [finding, hn, Option.bind_none]
    | _ => rfl

lemma own_move {y : CycleStage σ V} (hs : w.step m = some v)
    (hy : w.cycles.get? (.worker n) = some y) (hv : v.cycles.get? (.worker n) = none) :
    m = .run (.worker n) := by
  refine Classical.byContradiction fun hm => ?_
  have hsame := cycles_of_step hs hm
  rw [hy, hv] at hsame
  cases hsame

end Writer

lemma Affairs.Step.leaving {c d : Affairs σ V} {ev : Option (Writer.Event σ V)} {n k : Nat}
    {b : BodyStage σ V} (hs : c.Step ev d) (hy : c.cycles.get? (.worker n) = some (.running k b))
    (hd : d.cycles.get? (.worker n) = none) :
    ((∃ ok, b = .verdict ok) ∨ ∃ x, b = .left x) ∧ ∃ e, ev = some (.spoiled n k e) := by
  have hput : ∀ {t : Thread} {y : CycleStage σ V},
      (c.cycles.put t y).get? (.worker n) ≠ none := by
    intro t y hn
    rw [Roster.get?_put] at hn
    split at hn
    · cases hn
    · cases hy.symm.trans hn
  cases hs with
  | opens _ _ | body _ _ _ | bodyCalls _ _ _ _ _ | bodyReturns _ _ | finishes _ | counts _ =>
    exact absurd hd hput
  | takes hrest _ | idles hrest => cases hy.symm.trans (hrest n)
  | @spoils i _ b' e _ hy' hb =>
    by_cases hin : n = i
    · subst hin
      obtain ⟨rfl, rfl⟩ := CycleStage.running.inj (Option.some.inj (hy.symm.trans hy'))
      exact ⟨hb.imp_right And.left, e, rfl⟩
    · cases hy.symm.trans ((Roster.get?_drop_ne _ fun h => hin (Thread.worker.inj h)).symm.trans hd)
  | @closes i _ hy' =>
    by_cases hin : n = i
    · subst hin
      cases hy.symm.trans hy'
    · cases hy.symm.trans ((Roster.get?_drop_ne _ fun h => hin (Thread.worker.inj h)).symm.trans hd)
  | _ => cases hy.symm.trans hd

namespace Writer

variable {w v : Writer σ V} {m : Move σ V} {n k : Nat}

/-- **A cycle that breaks off** leaves a failure in the books if its run had been judged. -/
lemma failed_of_breaking {b : BodyStage σ V} (hl : w.course.Linked) (hs : w.step m = some v)
    (hy : w.cycles.get? (.worker n) = some (.running k b))
    (hv : v.cycles.get? (.worker n) = none) :
    b = .verdict false ∧ v.ledger.failed = w.ledger.failed + 1 ∨
      (∃ x, b = .left x) ∧ v.ledger.failed = w.ledger.failed := by
  have hstay : ∀ {r : Roster (CycleStage σ V)} {y : CycleStage σ V},
      (r.put (.worker n) y).get? (.worker n) ≠ none := by
    intro r y hn
    rw [Roster.get?_put_self] at hn
    cases hn
  obtain ⟨hb, -⟩ := (affairs_of_step hl hs).leaving hy hv
  have hcalling : b.isCalling = false := by
    rcases hb with ⟨ok, rfl⟩ | ⟨x, rfl⟩ <;> rfl
  obtain rfl := own_move hs hy hv
  obtain ⟨e, -, hmove⟩ := bodyMoves_of_run hl hcalling hy hs
  cases hmove with
  | garbles _ _ => exact .inr ⟨⟨_, rfl⟩, rfl⟩
  | spoils _ => exact .inl ⟨rfl, rfl⟩
  | _ => exact absurd hv hstay

end Writer

/-! ### The books -/

/-- A run that is over and has yet to be counted as executed. -/
def CycleStage.isCounting : CycleStage σ V → Bool
  | .counting _ => true
  | .dequeued _ | .running _ _ | .measuring _ => false

/-- **The books hold these verdicts**, but for the execution that is about to be counted. -/
structure Affairs.Booked (c : Affairs σ V) (xs : List Verdict) : Prop where
  proper : c.cycles.Proper
  failed : c.failed = xs.countP Verdict.isFailure
  executed : c.executed + c.cycles.count CycleStage.isCounting = xs.countP Verdict.isExecution

namespace Affairs.Booked

variable {c d : Affairs σ V} {ev : Option (Writer.Event σ V)} {es : List (Finding V)}
  {x : Option (Finding V)} {v : Option Verdict} {n : Nat} {y : CycleStage σ V}

lemma verdicts_append (hv : x.bind Finding.verdict? = v) :
    verdicts (es ++ x.toList) = verdicts es ++ v.toList :=
  hv ▸ filterMap_append_toList ..

lemma beside (h : c.Booked (verdicts es)) (hx : x = none) (hd : d.cycles = c.cycles)
    (hf : d.failed = c.failed) (he : d.executed = c.executed) :
    d.Booked (verdicts (es ++ x.toList)) := by
  subst hx
  rw [verdicts_append rfl]
  refine (List.append_nil (verdicts es)).symm ▸ ⟨hd ▸ h.proper, hf.trans h.failed, ?_⟩
  rw [hd, he]
  exact h.executed

lemma put (h : c.Booked (verdicts es)) (hv : x.bind Finding.verdict? = v)
    (hd : d.cycles = c.cycles.put (.worker n) y)
    (hf : d.failed = c.failed + v.toList.countP Verdict.isFailure)
    (he : d.executed + y.isCounting.toNat = c.executed +
      ((c.cycles.get? (.worker n)).any CycleStage.isCounting).toNat +
        v.toList.countP Verdict.isExecution) : d.Booked (verdicts (es ++ x.toList)) := by
  have hcount := h.proper.count_put (.worker n) y CycleStage.isCounting
  have hexecuted := h.executed
  rw [verdicts_append hv]
  refine ⟨hd ▸ h.proper.put _ _, ?_, ?_⟩
  · rw [hf, h.failed, List.countP_append]
  · rw [hd, List.countP_append]
    omega

lemma drop (h : c.Booked (verdicts es)) (hv : x.bind Finding.verdict? = v)
    (hd : d.cycles = c.cycles.drop (.worker n))
    (hf : d.failed = c.failed + v.toList.countP Verdict.isFailure)
    (he : d.executed = c.executed +
      ((c.cycles.get? (.worker n)).any CycleStage.isCounting).toNat +
        v.toList.countP Verdict.isExecution) : d.Booked (verdicts (es ++ x.toList)) := by
  have hcount := h.proper.count_drop (.worker n) CycleStage.isCounting
  have hexecuted := h.executed
  rw [verdicts_append hv]
  refine ⟨hd ▸ h.proper.drop _, ?_, ?_⟩
  · rw [hf, h.failed, List.countP_append]
  · rw [hd, List.countP_append]
    omega

theorem step (h : c.Booked (verdicts es)) (hs : c.Step ev d) (hx : c.Finds d x)
    (hbreak : ∀ n k b, c.cycles.get? (.worker n) = some (.running k b) →
      d.cycles.get? (.worker n) = none → b = .verdict false ∧ d.failed = c.failed + 1 ∨
        (∃ x, b = .left x) ∧ d.failed = c.failed) : d.Booked (verdicts (es ++ x.toList)) := by
  have hfound : ∀ {z}, x = z → x.bind Finding.verdict? = z.bind Finding.verdict? :=
    congrArg (Option.bind · Finding.verdict?)
  cases hs with
  | takes hy _ => exact h.put (hfound (hx.idle hy)) rfl rfl (by rw [hy]; rfl)
  | idles hy => exact h.drop (hfound (hx.idle hy)) rfl rfl (by rw [hy]; rfl)
  | body hy _ ht =>
    refine h.put (v := none) ((hfound (hx.put hy rfl)).trans ?_) rfl rfl (by rw [hy]; rfl)
    refine CycleStage.verdict_of_finding ?_ _
    rintro ok rfl
    cases ht
  | opens hy _ | bodyCalls hy _ _ _ _ | bodyReturns hy _ | counts hy =>
    exact h.put (hfound (hx.put hy rfl)) rfl rfl (by rw [hy]; rfl)
  | @finishes _ _ ok hy =>
    cases ok <;> exact h.put (hfound (hx.put hy rfl)) rfl rfl (by rw [hy]; rfl)
  | @spoils n k b e failed hy hb =>
    rcases hbreak n k b hy (Roster.get?_drop_self ..) with ⟨rfl, hfailed⟩ | ⟨⟨f, rfl⟩, hfailed⟩
    · exact h.drop (hfound (hx.drop hy rfl)) rfl hfailed (by rw [hy]; rfl)
    · refine h.drop (v := none) ((hfound (hx.drop hy rfl)).trans ?_) rfl hfailed (by rw [hy]; rfl)
      exact CycleStage.verdict_of_finding (by rintro ok ⟨⟩) _
  | closes hy => exact h.drop (hfound (hx.drop hy rfl)) rfl rfl (by rw [hy]; rfl)
  | _ => exact h.beside (hx.beside rfl) rfl rfl rfl

end Affairs.Booked

/-! ### Runs -/

/-- Only a run whose cycle breaks off is judged without a report. -/
lemma CycleStage.breaks_of_unreported {y : CycleStage σ V} {z : Option (CycleStage σ V)}
    (h : (y.finding z).bind Finding.verdict? = some .unreported) :
    (∃ k ok, y = .running k (.verdict ok)) ∧ z = none := by
  unfold finding at h
  split at h
  · cases h
  · cases h
  · rename_i k ok _
    cases ok <;> cases h
  · exact ⟨⟨_, _, rfl⟩, rfl⟩
  · cases h

namespace Writer

variable {w v w₀ : Writer σ V} {m : Move σ V} {es : List (Finding V)} {config : Config}
  {target : String} {factory : Option (Factory σ)} {resource : σ} {now : Time} {t : Thread}
  {j j' : Journal}

/-- What a failure that nobody was told of has led to. -/
structure Silenced (xs : List Verdict) (w : Writer σ V) : Prop where
  once : xs.count .unreported ≤ 1
  doomed : .unreported ∈ xs → ∃ n e, w.control.Doomed n e

lemma doomed_of_unreported (hl : w.course.Linked) (hs : w.step m = some v)
    (hx : (w.finding m v).bind Finding.verdict? = some .unreported) :
    ∃ n e, v.control.Doomed n e := by
  have hfinds := finds_of_step hl hs
  by_cases hy : ∃ n y, w.cycles.get? (.worker n) = some y
  · obtain ⟨n, y, hy⟩ := hy
    rw [hfinds.hand n y hy] at hx
    obtain ⟨⟨k, ok, rfl⟩, hv⟩ := CycleStage.breaks_of_unreported hx
    obtain ⟨-, e, he⟩ := (affairs_of_step hl hs).leaving hy hv
    exact ⟨n, e, doomed_of_spoiled hl hs he⟩
  · rw [hfinds.idle fun n => Option.eq_none_iff_forall_ne_some.mpr fun y hn => hy ⟨n, y, hn⟩] at hx
    cases hx

/-- **Only one failure can stay unreported.** -/
lemma Silenced.step (h : Silenced (verdicts es) w) (hl : w.course.Linked)
    (hs : w.step m = some v) : Silenced (verdicts (es ++ (w.finding m v).toList)) v := by
  have hlist : verdicts (es ++ (w.finding m v).toList) =
      verdicts es ++ ((w.finding m v).bind Finding.verdict?).toList := filterMap_append_toList ..
  rw [hlist]
  by_cases hold : .unreported ∈ verdicts es
  · -- the worker is done for, so that nothing is judged any more
    obtain ⟨n, e, hdoomed⟩ := h.doomed hold
    rw [(finds_of_step hl hs).idle (cycles_of_doomed hl hdoomed), Option.bind_none,
      Option.toList_none, List.append_nil]
    exact ⟨h.once, fun _ => ⟨n, e, doomed_of_step hl hdoomed hs⟩⟩
  · refine ⟨?_, fun hnew => ?_⟩
    · rw [List.count_append, List.count_eq_zero.mpr hold, Nat.zero_add]
      exact Nat.le_trans List.count_le_length (Option.length_toList_le ..)
    · rcases List.mem_append.mp hnew with hin | hin
      · exact absurd hin hold
      · exact doomed_of_unreported hl hs (Option.mem_toList.mp hin)

theorem booked_of_run {P : Writer σ V → Prop}
    (hc : create config target factory resource now t j = (.ok w₀, j'))
    (h : Chronicle step finding P w₀ es w) :
    w.affairs.Booked (verdicts es) ∧ Silenced (verdicts es) w := by
  induction h with
  | refl _ =>
    refine ⟨?_, Nat.zero_le _, nofun⟩
    rw [affairs_of_create hc]
    exact ⟨.empty, rfl, rfl⟩
  | @step es u v m h hs _ ih =>
    have hl : u.course.Linked := (Reachable.tuned hc (.of_along .refl h.along)).linked
    obtain ⟨hbooked, hsilenced⟩ := ih
    refine ⟨hbooked.step (affairs_of_step hl hs) (finds_of_step hl hs) ?_, hsilenced.step hl hs⟩
    exact fun n k b hy hd => failed_of_breaking hl hs hy hd

/-- Between cycles the books hold the verdicts and nothing else. -/
lemma keeps_of_rest (hl : w.course.Linked) (h : w.affairs.Booked (verdicts es))
    (hrest : ∀ n, w.cycles.get? (.worker n) = none) : w.ledger.Keeps (verdicts es) := by
  refine ⟨h.failed, ?_⟩
  have hnone : w.cycles.count CycleStage.isCounting = 0 := by
    refine Nat.eq_zero_of_not_pos fun hpos => ?_
    obtain ⟨t, y, hy, -⟩ := (h.proper : w.cycles.Proper).count_pos_iff.mp hpos
    obtain ⟨n, -, rfl, -⟩ := (hl.fits t).cycle y hy
    exact nomatch (hrest n).symm.trans hy
  have hexecuted := h.executed
  change w.ledger.executed + w.cycles.count CycleStage.isCounting = _ at hexecuted
  rw [hnone] at hexecuted
  exact hexecuted

/-- **When failures do not outnumber executions**: between the cycles of a writer, whatever its
threads do and whichever lines fail, and in a session with a worker. Each run that fails and whose
line fails too has to be made up for by one that has succeeded; a writer has one such run at
most. -/
theorem failed_le_executed_iff {ρ U : Type} {s₀ s : WorkerSession ρ U} {xs : List Verdict}
    (hc : create config target factory resource now t j = (.ok w₀, j'))
    (h : Chronicle step finding (fun _ => True) w₀ es w)
    (hrest : ∀ n, w.cycles.get? (.worker n) = none)
    (hnew : s₀.ledger.executed = 0 ∧ s₀.ledger.failed = 0)
    (hs : Chronicle WorkerSession.step WorkerSession.note (fun _ => True) s₀ xs s) :
    ((w.stats.failed ≤ w.stats.executed ↔
        (verdicts es).count .unreported ≤ (verdicts es).count .succeeded) ∧
      (verdicts es).count .unreported ≤ 1 ∧ w.ledger.Keeps (verdicts es)) ∧
    (s.ledger.failed ≤ s.ledger.executed ↔ xs.count .unreported ≤ xs.count .succeeded) ∧
      s.ledger.Keeps xs := by
  obtain ⟨hbooked, hsilenced⟩ := booked_of_run hc h
  have hl : w.course.Linked := (Reachable.tuned hc (.of_along .refl h.along)).linked
  have hkeeps := keeps_of_rest hl hbooked hrest
  have hsession := WorkerSession.keeps_of_session ⟨hnew.2, hnew.1⟩ hs
  exact ⟨⟨hkeeps.failed_le_iff, hsilenced.once, hkeeps⟩, hsession.failed_le_iff, hsession⟩

/-- A task that succeeds, and one whose failure cannot be reported. -/
def makingUp : List (Move Nat Unit) :=
  startUp ++ submit 1 (.ret ()) ++ submit 2 (.fail .foreign) ++ goOn (.worker 0) 12 ++
    [.arm "failed"] ++ goOn (.worker 0) 10

/-- A session in which nothing has happened. -/
def untried : WorkerSession Nat Unit where
  queue := { queue := { capacity := 4 } }
  ledger := .ofConfig {} 0

/-- The books after that: as many failures as executions, in the writer and in a session in which
the two tasks come in the other order. -/
theorem failed_le_executed_after_success : ∃ (w₀ w : Writer Nat Unit) (es : List (Finding Unit))
    (j : Journal) (s : WorkerSession Nat Unit) (xs : List Verdict),
    create {} "target" none 0 0 (.client 0) {} = (.ok w₀, j) ∧
      (verdicts es = [.succeeded, .unreported] ∧ w.stats.failed = 1 ∧ w.stats.executed = 1) ∧
      (xs = [.unreported, .succeeded] ∧ s.ledger.failed = 1 ∧ s.ledger.executed = 1) ∧
      w.stats.failed ≤ w.stats.executed ∧ s.ledger.failed ≤ s.ledger.executed := by
  obtain ⟨w₀, j, hc⟩ : ∃ (w₀ : Writer Nat Unit) (j : Journal),
      create {} "target" none 0 0 (.client 0) {} = (.ok w₀, j) := ⟨_, _, rfl⟩
  obtain ⟨es, w, hw, hseen⟩ : ∃ es w, Chronicle step finding (fun _ => true = true) w₀ es w ∧
      (verdicts es, w.cycles.entries.length, w.stats.failed, w.stats.executed) =
        ([.succeeded, .unreported], 0, 1, 1) := by
    cases hc
    exact exists_chronicle makingUp rfl
  simp only [Prod.mk.injEq] at hseen
  obtain ⟨hes, hrest, hfailed, hexecuted⟩ := hseen
  obtain ⟨xs, s, hs, hseen⟩ : ∃ xs s, Chronicle WorkerSession.step WorkerSession.note
      (fun _ => true = true) untried xs s ∧ (xs, s.ledger.failed, s.ledger.executed) =
        ([.unreported, .succeeded], 1, 1) :=
    exists_chronicle [.arm "failed", .submit "a" (.task (.fail .foreign) none), .cycle 0,
      .submit "b" (.task (.ret ()) none), .cycle 0] rfl
  simp only [Prod.mk.injEq] at hseen
  obtain ⟨hxs, hfailed', hexecuted'⟩ := hseen
  have hnone : ∀ n, w.cycles.get? (.worker n) = none := fun n => by
    rw [Roster.get?, List.length_eq_zero_iff.mp hrest]
    rfl
  have hboth := failed_le_executed_iff hc (hw.mono fun _ _ => trivial) hnone ⟨rfl, rfl⟩
    (hs.mono fun _ _ => trivial)
  refine ⟨w₀, w, es, j, s, xs, hc, ⟨hes, hfailed, hexecuted⟩, ⟨hxs, hfailed', hexecuted'⟩,
    hboth.1.1.mpr ?_, hboth.2.1.mpr ?_⟩
  · rw [hes]
    decide
  · rw [hxs]
    decide

/-- **A failure without an execution**: the only task of a writer fails, and so does the line that
says so. The worker has entered the failed phase. -/
theorem failed_without_execution : ∃ (w₀ w : Writer Nat Unit) (j : Journal),
    create {} "target" none 0 0 (.client 0) {} = (.ok w₀, j) ∧ Reachable w₀ w ∧
      (∀ n, w.cycles.get? (.worker n) = none) ∧ w.phase = .failed ∧
      w.stats.failed = 1 ∧ w.stats.executed = 0 := by
  obtain ⟨w₀, j, hc⟩ : ∃ (w₀ : Writer Nat Unit) (j : Journal),
      create {} "target" none 0 0 (.client 0) {} = (.ok w₀, j) := ⟨_, _, rfl⟩
  obtain ⟨w, hw, hseen⟩ : ∃ w, Along step (fun _ => true = true) w₀ w ∧
      (w.cycles.entries.length, w.phase, w.stats.failed, w.stats.executed) =
        (0, .failed, 1, 0) := by
    cases hc
    exact exists_along
      (startUp ++ submit 1 (.fail .foreign) ++ [.arm "failed"] ++ goOn (.worker 0) 11) rfl
  simp only [Prod.mk.injEq] at hseen
  obtain ⟨hrest, hphase, hfailed, hexecuted⟩ := hseen
  refine ⟨w₀, w, j, hc, .of_along .refl hw, fun n => ?_, hphase, hfailed, hexecuted⟩
  rw [Roster.get?, List.length_eq_zero_iff.mp hrest]
  rfl

end Writer

end SerialWriter
