import SerialWriter.Proofs.Writer.Cells
import SerialWriter.Proofs.Writer.Handles

/-!
What a write that waits is told. When its wait ends after the outcome of its ticket has been
assigned it hands that outcome on, and otherwise it comes back empty, with a warning; in both cases
it leaves the ticket, its handle and everybody else as they are.
-/

namespace SerialWriter

variable {σ V : Type}

open Writer (Event)

/-! ### Outcomes on their way to the caller -/

/-- **What a caller who has waited is given**: a value, a standard failure as it is, or any other
failure wrapped, under the id of the task, with itself as cause and nested in it. An outcome that is
no failure and no value gives nothing. -/
def Outcome.answer (id : String) : Outcome V → Except Failure (Option V)
  | .value v => .ok (some v)
  | .error none => .ok none
  | .error (some e) => .error (if e.isStandard then e else .computation id (some e) (some e))

def Outcome.report (id : String) : Outcome V → Option Notice
  | .error (some e) => some (.taskThrew id e.describe)
  | .value _ | .error none => none

/-- The cell still shows all of this outcome. -/
def Cell.Bears (a : Cell V) : Outcome V → Prop
  | .value v => a.error = none ∧ a.value = some v
  | .error e => a.error = e ∧ a.value = none

lemma Cell.bears_publish {a : Cell V} (he : a.error = none) (hv : a.value = none)
    (o : Outcome V) : (a.publish o).Bears o := by
  cases o with
  | value v => exact ⟨he, rfl⟩
  | error e => exact ⟨rfl, hv⟩

namespace Affairs

variable {c d : Affairs σ V} {es : List (Event σ V)} {ev : Option (Event σ V)} {k : Nat}

/-- **What has been published**: outcomes are what cells are ready with, and the cell of a ticket
that a write holds shows its outcome. -/
structure Posted (c : Affairs σ V) (es : List (Event σ V)) : Prop where
  ready : ∀ k, (cellAt c.envelopes k).ready = true ↔ ∃ o, .published k o ∈ es
  bears : ∀ t a k o, c.calls.get? t = some a → a.ticket? = some k → .published k o ∈ es →
    (cellAt c.envelopes k).Bears o

namespace Posted

lemma quiet (h : c.Posted es) (hs : c.Step ev d) (hev : ∀ k o, ev ≠ some (.published k o))
    (hcell : ∀ k, (cellAt d.envelopes k).ready = (cellAt c.envelopes k).ready)
    (hface : ∀ t a k, d.calls.get? t = some a → a.ticket? = some k →
      (cellAt d.envelopes k).value = (cellAt c.envelopes k).value ∧
        (cellAt d.envelopes k).error = (cellAt c.envelopes k).error) :
    d.Posted (es ++ ev.toList) := by
  have hmem : ∀ {k o}, Event.published k o ∈ es ++ ev.toList ↔ .published k o ∈ es := by
    intro k o
    rw [mem_append_toList, or_iff_left (hev k o)]
  refine ⟨fun k => ?_, fun t a k o ht hk ho => ?_⟩
  · rw [hcell, h.ready]
    exact exists_congr fun o => hmem.symm
  · have ho := hmem.mp ho
    cases hs.came ht hk with
    | held hb hbk _ =>
      obtain ⟨hv, he⟩ := hface t a k ht hk
      have hbears := h.bears t _ k o hb hbk ho
      cases o with
      | value v => exact ⟨he.trans hbears.1, hv.trans hbears.2⟩
      | error e => exact ⟨he.trans hbears.1, hv.trans hbears.2⟩
    | made hk _ _ =>
      -- a new ticket has no outcome
      have hready := (h.ready k).mpr ⟨o, ho⟩
      rw [cellAt, Array.getElem?_eq_none (Nat.le_of_eq hk.symm)] at hready
      cases hready

/-- **An outcome is assigned** to a cell that holds none. -/
lemma publish (h : c.Posted es) (hk : k < c.envelopes.size) {o : Outcome V}
    (hblank : (cellAt c.envelopes k).ready = false ∧ (cellAt c.envelopes k).value = none ∧
      (cellAt c.envelopes k).error = none) (hcalls : d.calls = c.calls)
    (hd : d.envelopes = changeCellAt c.envelopes k fun a => a.publish o) :
    d.Posted (es ++ [.published k o]) := by
  have hcell : ∀ i, cellAt d.envelopes i =
      if i = k then (cellAt c.envelopes i).publish o else cellAt c.envelopes i :=
    hd ▸ cellAt_changeCellAt_of_lt hk _
  have hmem : ∀ {i o'}, Event.published i o' ∈ es ++ [.published k o] ↔
      .published i o' ∈ es ∨ i = k ∧ o' = o := by
    intro i o'
    rw [List.mem_append, List.mem_singleton, Event.published.injEq]
  have hnone : ∀ o', Event.published k o' ∉ es := fun o' ho =>
    nomatch hblank.1.symm.trans ((h.ready k).mpr ⟨o', ho⟩)
  refine ⟨fun i => ?_, fun t a i o' ht ha ho => ?_⟩
  · rw [hcell]
    split
    · rename_i hi
      refine ⟨fun _ => ⟨o, hmem.mpr (.inr ⟨hi, rfl⟩)⟩, fun _ => ?_⟩
      cases o <;> rfl
    · rename_i hi
      rw [h.ready]
      exact exists_congr fun o' => by rw [hmem, or_iff_left fun hin => hi hin.1]
  · rw [hcell]
    rcases hmem.mp ho with hold | ⟨rfl, rfl⟩
    · have hi : i ≠ k := by
        rintro rfl
        exact hnone o' hold
      rw [if_neg hi]
      exact h.bears t a i o' (hcalls ▸ ht) ha hold
    · rw [if_pos rfl]
      exact Cell.bears_publish hblank.2.2 hblank.2.1 o'

theorem step (h : c.Posted es) (hshown : c.Shown) (hheld : c.Held) (hs : c.Step ev d) :
    d.Posted (es ++ ev.toList) := by
  cases id hs with
  | walks _ _ =>
    refine h.quiet hs (fun _ _ => nofun)
      (apply_cellAt_interruptAt Cell.ready (fun _ => rfl) _ _) fun _ _ k _ _ => ?_
    rw [cellAt_interruptAt]
    split <;> exact ⟨rfl, rfl⟩
  | @makes _ _ e _ _ he =>
    have hcell : ∀ k, cellAt (c.envelopes.push e) k = cellAt c.envelopes k :=
      cellAt_push (Envelope.fresh_of_make he).1
    refine h.quiet hs (fun _ _ => nofun) (fun k => ?_) fun _ _ k _ _ => ?_
    · rw [hcell]
    · exact (hcell k).symm ▸ ⟨rfl, rfl⟩
  | @collects t s i ht he =>
    refine h.quiet hs (fun _ _ => nofun)
      (apply_cellAt_take Cell.ready (fun _ => rfl) _ i) fun u a k hu hk => ?_
    -- nobody else holds the ticket of the write that ends
    have hki : k ≠ i := by
      rintro rfl
      have hend : ∀ b, (c.calls.put t b).get? t = some b := fun _ => Roster.get?_put_self ..
      cases hs.came hu hk with
      | held hb hbk _ =>
        obtain rfl := hheld.apart u t _ _ k hb ht hbk rfl
        obtain rfl := Option.some.inj ((hend _).symm.trans hu)
        cases hk
      | made _ _ hev => cases hev
    rw [cellAt_changeCellAt_ne _ hki]
    exact ⟨rfl, rfl⟩
  | @body n i b b' e s act hy he ht =>
    have hi : i < c.envelopes.size := (Array.getElem?_eq_some_iff.mp he).1
    cases act with
    | rests | claims | interrupts =>
      refine h.quiet hs (fun _ _ => nofun) (fun k => ?_) fun _ _ k _ _ => ?_
      · rw [cellAt_changeCellAt]
        split <;> rfl
      · rw [cellAt_changeCellAt]
        split <;> exact ⟨rfl, rfl⟩
    | publishes o =>
      cases ht with
      | publishes _ after =>
        have hready := (hshown.inHand hy).2.2 rfl
        exact h.publish hi ⟨hready, hshown.blank i hready⟩ rfl rfl
      | reaches _ hd => cases hd
  | _ => exact h.quiet hs (fun _ _ => nofun) (fun _ => rfl) fun _ _ _ _ _ => ⟨rfl, rfl⟩

end Posted

end Affairs

/-! ### Who is held up -/

lemma Control.isSome_stepWorker (c : Control) (n : Nat) (j j' : Journal) :
    (c.stepWorker n j).isSome = (c.stepWorker n j').isSome := by
  unfold stepWorker
  cases c.worker? n with
  | none => rfl
  | some s =>
    cases s <;> dsimp only <;> repeat' split
    all_goals rfl

lemma Control.isSome_stepCall (c : Control) (t : Thread) (now : Time) (j j' : Journal) :
    (c.stepCall t now j).isSome = (c.stepCall t now j').isSome := by
  unfold stepCall
  cases c.calls.get? t with
  | none => rfl
  | some a =>
    cases a with
    | ended r => rfl
    | start b s =>
      cases s <;> simp only [stepStart, Option.isSome_map] <;> repeat' split
      all_goals rfl
    | stop b s =>
      cases s <;> simp only [stepStop, Option.isSome_map] <;> repeat' split
      all_goals rfl
    | destroy s =>
      cases s <;> simp only [stepDestroy, Option.isSome_map] <;> repeat' split
      all_goals rfl

namespace Writer

variable {w v : Writer σ V} {t u : Thread} {k n : Nat}

/-- **What a thread may have to wait for** is the same in both writers. -/
structure SameWaits (w v : Writer σ V) : Prop where
  control : v.control = w.control
  queue : v.queue = w.queue
  gates : v.gates = w.gates
  now : v.now = w.now
  status : ∀ k, (v.cell k).status? = (w.cell k).status?
  known : ∀ k : Nat, (v.envelopes[k]?).isSome = (w.envelopes[k]?).isSome

namespace SameWaits

lemma envelope (h : SameWaits w v) (k : Nat) : v.envelopes[k]? = none ∧ w.envelopes[k]? = none ∨
    ∃ e e', v.envelopes[k]? = some e ∧ w.envelopes[k]? = some e' := by
  have hk := h.known k
  cases hv : v.envelopes[k]? <;> cases hw : w.envelopes[k]? <;> rw [hv, hw] at hk <;> simp at hk ⊢

lemma throughControl (h : SameWaits w v) (t : Thread)
    (next next' : Writer σ V → Except Failure Unit → Writer σ V) :
    (v.throughControl t next').isSome = (w.throughControl t next).isSome := by
  unfold Writer.throughControl Writer.stepControl
  rw [h.control, h.queue]
  cases w.control.result? t with
  | some r => rfl
  | none =>
    dsimp only
    split
    · split
      · simp only [Option.isSome_map]
      · rfl
    · simp only [Option.isSome_map, h.now]
      exact w.control.isSome_stepCall ..

lemma stepWrite (h : SameWaits w v) (t : Thread) (s : Submission σ V) (stage : WriteStage) :
    (v.stepWrite t s stage).isSome = (w.stepWrite t s stage).isSome := by
  cases stage with
  | notifying k => simp only [Writer.stepWrite, Option.isSome_map, h.queue]
  | waiting k d =>
    simp only [Writer.stepWrite, h.status, h.now]
    split
    · rfl
    · split <;> rfl
  | told k st =>
    cases st <;> simp only [Writer.stepWrite] <;> repeat' split
    all_goals rfl
  | _ =>
    simp only [Writer.stepWrite]
    repeat' split
    all_goals rfl

lemma stepCall (h : SameWaits w v) (t : Thread) (a : CallOfWriter σ V) :
    (v.stepCall t a).isSome = (w.stepCall t a).isSome := by
  cases a with
  | starting | stopping b | releasing =>
    simp only [Writer.stepCall]
    exact h.throughControl ..
  | writing s stage => exact h.stepWrite t s stage
  | _ =>
    simp only [Writer.stepCall]
    repeat' split
    all_goals rfl

lemma stepProgram (h : SameWaits w v) (n : Nat) (back? : Option (Option Failure → Wrapper σ))
    (p : Program σ V) :
    (v.stepProgram n k back? p).isSome = (w.stepProgram n k back? p).isSome := by
  cases p with
  | pass gate next =>
    simp only [Writer.stepProgram, h.gates]
    split <;> rfl
  | ret v => cases back? <;> rfl
  | _ => rfl

lemma stepCycle (h : SameWaits w v)
    (hc : v.calls.get? (.worker n) = w.calls.get? (.worker n))
    (hy : v.cycles.get? (.worker n) = w.cycles.get? (.worker n)) (b : Int) :
    (v.stepCycle n b).isSome = (w.stepCycle n b).isSome := by
  unfold Writer.stepCycle
  rw [hy, h.queue, h.now]
  cases w.cycles.get? (.worker n) with
  | none =>
    dsimp only
    split
    · simp only [Option.isSome_map]
    · split <;> rfl
  | some y =>
    cases y with
    | dequeued k =>
      rcases h.envelope k with ⟨hv, hw⟩ | ⟨e, e', hv, hw⟩
      · simp only [hv, hw]
      · simp only [hv, hw]
        rfl
    | running k b =>
      rcases h.envelope k with ⟨hv, hw⟩ | ⟨e, e', hv, hw⟩
      · simp only [hv, hw]
      · simp only [hv, hw]
        cases b with
        | inner p back? => exact h.stepProgram n back? p
        | calling g =>
          simp only [Writer.stepBody, Writer.result?, hc]
          split <;> rfl
        | verdict ok =>
          cases ok <;> simp only [Writer.stepBody] <;> repeat' split
          all_goals rfl
        | _ => rfl
    | counting k | measuring k => rfl

theorem run (h : SameWaits w v) (hc : v.calls.get? u = w.calls.get? u)
    (hy : v.cycles.get? u = w.cycles.get? u) :
    (v.step (.run u)).isSome = (w.step (.run u)).isSome := by
  have hwork : ∀ n, u = .worker n → (v.stepWorker n).isSome = (w.stepWorker n).isSome := by
    rintro n rfl
    unfold Writer.stepWorker
    rw [h.control]
    cases w.control.budget? n with
    | some b => exact h.stepCycle hc hy b
    | none =>
      simp only [Option.isSome_map]
      exact w.control.isSome_stepWorker ..
  simp only [step, Writer.run, hc]
  cases w.calls.get? u with
  | none =>
    cases u with
    | client k => rfl
    | worker n => exact hwork n rfl
  | some a =>
    cases a with
    | ended r =>
      cases u with
      | client k => rfl
      | worker n => exact hwork n rfl
    | _ => exact h.stepCall ..

end SameWaits

/-! ### The end of a wait -/

variable {w₀ x : Writer σ V} {config : Config} {target : String} {factory : Option (Factory σ)}
  {resource : σ} {now : Time} {t' : Thread} {j j' : Journal} {s : Submission σ V} {d : Time}
  {es : List (Event σ V)} {P : Writer σ V → Prop}

/-- **What is published in a run** is what the cells are ready with. -/
lemma posted_of_run (hc : create config target factory resource now t' j = (.ok w₀, j'))
    (h : Chronicle step note P w₀ es w) : w.affairs.Posted es := by
  induction h with
  | refl _ =>
    rw [affairs_of_create hc]
    refine ⟨fun k => ⟨nofun, fun ⟨o, ho⟩ => nomatch ho⟩, fun _ _ _ _ ht => ?_⟩
    cases ht
  | step m h hs _ ih =>
    have hf := Reachable.faithful hc (.of_along .refl h.along)
    exact ih.step hf.shown hf.held (hf.affairs_step hs)

/-- **Only the call of `t` goes on**: with the journal, the number of waits that ran out and the
value of ticket `k`, if it is taken. All tickets are where they were, no cell is claimed or
resolved, and everyone else can go on as before. -/
structure Spares (t : Thread) (k : Nat) (w v : Writer σ V) : Prop where
  rest : v = { w with calls := v.calls, journal := v.journal, timedOut := v.timedOut
                      envelopes := v.envelopes }
  calls : ∀ u, u ≠ t → v.calls.get? u = w.calls.get? u
  envelopes : v.envelopes = w.envelopes ∨
    v.envelopes = changeCellAt w.envelopes k fun a => a.take.2
  others : ∀ u, u ≠ t → (v.step (.run u)).isSome = (w.step (.run u)).isSome

lemma spares_of_rest (hr : v = { w with calls := v.calls, journal := v.journal
                                        timedOut := v.timedOut, envelopes := v.envelopes })
    (hc : ∃ a, v.calls = w.calls.put t a) (he : v.envelopes = w.envelopes ∨
      v.envelopes = changeCellAt w.envelopes k fun a => a.take.2) : Spares t k w v := by
  have hcalls : ∀ u, u ≠ t → v.calls.get? u = w.calls.get? u := by
    obtain ⟨a, ha⟩ := hc
    exact fun u hu => ha ▸ Roster.get?_put_ne _ _ hu
  have hcycles : v.cycles = w.cycles := by rw [hr]
  have hsame : SameWaits w v := by
    refine ⟨by rw [hr], by rw [hr], by rw [hr], by rw [hr], fun i => ?_, fun i => ?_⟩
    · change (cellAt v.envelopes i).status? = (cellAt w.envelopes i).status?
      rcases he with he | he
      · rw [he]
      · rw [he]
        exact apply_cellAt_take Cell.status? (fun _ => rfl) _ k i
    · rcases he with he | he
      · rw [he]
      · rw [he, changeCellAt, Array.getElem?_modify]
        split
        · simp only [Option.isSome_map]
        · rfl
  exact ⟨hr, hcalls, he, fun u hu => hsame.run (hcalls u hu) (by rw [hcycles])⟩

/-- A wait is over when there is something to be told or time has run out. -/
lemma told_of_waiting (ht : w.calls.get? t = some (.writing s (.waiting k d)))
    (hs : w.step (.run t) = some v) :
    v = w.setCall t (.writing s (.told k (w.cell k).status)) := by
  cases callMoves_of_run ht nofun hs with
  | inside hi _ | leaves hi _ => cases hi
  | logs hx _ => cases hx
  | hears _ => rfl

/-- What is left to do for a write that has waited in vain. -/
def comesBack (x : Writer σ V) (t : Thread) (s : Submission σ V) (expired : Bool) : Writer σ V :=
  { x with
    timedOut := x.timedOut + expired.toNat
    journal := { x.journal with entries :=
      (t, if expired then .unexecuted s.id s.wait else .waitInterrupted s.id) :: x.journal.entries }
    calls := x.calls.put t (.ended (.ok none)) }

lemma step_of_told {st : WaitStatus} (hq : x.journal.armed = none)
    (hx : x.calls.get? t = some (.writing s (.told k st))) (hst : st ≠ .ready) :
    x.step (.run t) = some (x.comesBack t s (st == .timeout)) := by
  have hlog : ∀ n, x.journal.log t n =
      (none, { x.journal with entries := (t, n) :: x.journal.entries }) := fun n => by
    simp [Journal.log, Journal.trips, hq]
  cases st with
  | ready => exact absurd rfl hst
  | timeout | interrupted =>
    simp only [step, Writer.run, hx, stepCall, stepWrite, log, hlog]
    rfl

lemma step_of_ready {o : Outcome V} (hq : x.journal.armed = none)
    (hx : x.calls.get? t = some (.writing s (.told k .ready))) (ho : (x.cell k).Bears o) :
    ∃ y, x.step (.run t) = some y ∧ Spares t k x y ∧ y.result? t = some (o.answer s.id) ∧
      y.timedOut = x.timedOut ∧
      y.journal.entries = ((o.report s.id).map (t, ·)).toList ++ x.journal.entries := by
  have hlog : ∀ n, x.journal.log t n =
      (none, { x.journal with entries := (t, n) :: x.journal.entries }) := fun n => by
    simp [Journal.log, Journal.trips, hq]
  have hend : ∀ (z : Writer σ V) (r : Except Failure (Option V)),
      (z.finish t r).result? t = some r := fun z r => by
    rw [result?, finish, setCall, Roster.get?_put_self]
  -- a value, or none, leaves the cell
  have htake : (x.cell k).error = none → (x.cell k).value = (o.answer s.id).toOption.join →
      (∃ v, o.answer s.id = .ok v) → o.report s.id = none →
      ∃ y, x.step (.run t) = some y ∧ Spares t k x y ∧ y.result? t = some (o.answer s.id) ∧
        y.timedOut = x.timedOut ∧
        y.journal.entries = ((o.report s.id).map (t, ·)).toList ++ x.journal.entries := by
    rintro he hv ⟨v, ha⟩ hreport
    refine ⟨(x.changeCell k fun c => c.take.2).finish t (.ok (x.cell k).value), ?_,
      spares_of_rest rfl ⟨_, rfl⟩ (.inr rfl), ?_, rfl, ?_⟩
    · simp only [step, Writer.run, hx, stepCall, stepWrite, he]
      rfl
    · rw [hend, hv, ha]
      rfl
    · rw [hreport]
      rfl
  cases o with
  | value v => exact htake ho.1 ho.2 ⟨_, rfl⟩ rfl
  | error e =>
    cases e with
    | none => exact htake ho.1 ho.2 ⟨_, rfl⟩ rfl
    | some e =>
      refine ⟨({ x with journal := { x.journal with
        entries := (t, .taskThrew s.id e.describe) :: x.journal.entries } } : Writer σ V).finish t
          (.error (e.forCaller s.id)), ?_, spares_of_rest rfl ⟨_, rfl⟩ (.inl rfl), hend _ _, rfl,
        rfl⟩
      simp only [step, Writer.run, hx, stepCall, stepWrite, ho.1, log, hlog]

/-- **What a write that waits is told**, where no log line can fail. If the outcome of its ticket
has been published when its wait ends it is given that outcome, and otherwise it comes back empty
with one warning, counted as run out unless its handle was interrupted. Neither the end of the wait
nor what is left to do touches anything but the call. -/
theorem answer_of_wait (hc : create config target factory resource now t' j = (.ok w₀, j'))
    (h : Chronicle step note (fun z => z.journal.armed = none) w₀ es w)
    (ht : w.calls.get? t = some (.writing s (.waiting k d))) (hs : w.step (.run t) = some v) :
    ∃ st, v = w.setCall t (.writing s (.told k st)) ∧ Spares t k w v ∧
      ((∃ o, .published k o ∈ es) → st = .ready) ∧
      ((∀ o, .published k o ∉ es) →
        st = if (w.cell k).interrupted then .interrupted else .timeout) ∧
      ∀ x, Along step (fun z => z.journal.armed = none ∧
          z.calls.get? t = some (.writing s (.told k st))) v x →
        ∃ y, x.step (.run t) = some y ∧ Spares t k x y ∧
          (∀ o, .published k o ∈ es → y.result? t = some (o.answer s.id) ∧
            y.timedOut = x.timedOut ∧
            y.journal.entries = ((o.report s.id).map (t, ·)).toList ++ x.journal.entries) ∧
          ((∀ o, .published k o ∉ es) → y = x.comesBack t s (!(w.cell k).interrupted)) := by
  have hv := told_of_waiting ht hs
  have hposted := posted_of_run hc h
  have hready : (w.cell k).ready = true ↔ ∃ o, .published k o ∈ es := hposted.ready k
  -- what the wait is told, by the cell
  have hstatus : (∃ o, .published k o ∈ es) → (w.cell k).status = .ready := by
    intro ho
    rw [Cell.status, Cell.status?, if_pos (hready.mpr ho)]
    rfl
  have hempty : (∀ o, .published k o ∉ es) →
      (w.cell k).status = if (w.cell k).interrupted then .interrupted else .timeout := by
    intro ho
    rw [Cell.status, Cell.status?, if_neg fun hr => (hready.mp hr).elim ho]
    split <;> rfl
  refine ⟨_, hv, spares_of_rest (hv ▸ rfl) (hv ▸ ⟨_, rfl⟩) (.inl (hv ▸ rfl)), hstatus, hempty,
    fun x hx => ?_⟩
  obtain ⟨hq, hcall⟩ := hx.holds
  by_cases ho : ∃ o, .published k o ∈ es
  · rw [hstatus ho] at hcall
    -- nobody but this write can take the value away
    obtain ⟨es', hx'⟩ := Chronicle.of_along note (hx.mono fun _ hz => hz.1)
    have hposted' := posted_of_run hc ((h.step (.run t) hs hx.start.1).trans hx')
    have hbears : ∀ o, .published k o ∈ es → (x.cell k).Bears o := fun o hin =>
      hposted'.bears t _ k o hcall rfl (List.mem_append_left _ (List.mem_append_left _ hin))
    obtain ⟨o, hin⟩ := ho
    obtain ⟨y, hy, hspares, -⟩ := step_of_ready hq hcall (hbears o hin)
    refine ⟨y, hy, hspares, fun o' hin' => ?_, fun hnone => absurd hin (hnone o)⟩
    obtain ⟨y', hy', -, hanswer⟩ := step_of_ready hq hcall (hbears o' hin')
    exact Option.some.inj (hy'.symm.trans hy) ▸ hanswer
  · have hnone : ∀ o, .published k o ∉ es := fun o hin => ho ⟨o, hin⟩
    have hst := hempty hnone
    have hne : (w.cell k).status ≠ .ready := by
      rw [hst]
      split <;> (intro h; cases h)
    refine ⟨_, step_of_told hq hcall hne, spares_of_rest rfl ⟨_, rfl⟩ (.inl rfl),
      fun o hin => absurd hin (hnone o), fun _ => ?_⟩
    rw [hst]
    cases (w.cell k).interrupted <;> rfl

/-- The first of two tasks has failed, and the time for the second has run out. -/
def twoWaits : List (Move Nat Nat) :=
  startUp ++ write 1 (.fail .foreign) 1000 5 ++ write 2 (.ret 3) 5 5 ++ goOn (.worker 0) 9 ++
    [.pass 5000000]

/-- The failure reaches the first client wrapped. The second comes back empty, and its task is run
all the same. -/
theorem answer_of_twoWaits : ∃ (w₀ w : Writer Nat Nat) (j : Journal) (y₁ y₂ : Writer Nat Nat)
    (es : List (Event Nat Nat)),
      create {} "target" none 0 0 (.client 0) {} = (.ok w₀, j) ∧
      Chronicle step note (fun z => z.journal.armed = none) w₀ es w ∧
      published es = [(0, .error (some .foreign))] ∧
      ((w.step (.run (.client 1))).bind fun v => v.step (.run (.client 1))) = some y₁ ∧
      y₁.result? (.client 1) =
        some (.error (.computation "task" (some .foreign) (some .foreign))) ∧
      ((w.step (.run (.client 2))).bind fun v => v.step (.run (.client 2))) = some y₂ ∧
      y₂.result? (.client 2) = some (.ok none) ∧ y₂.timedOut = w.timedOut + 1 ∧
      (follow step (fun _ => true) y₂ (goOn (.worker 0) 14)).map (fun z => z.done) =
        some [1, 0] := by
  obtain ⟨w₀, j, hc⟩ : ∃ (w₀ : Writer Nat Nat) (j : Journal),
      create {} "target" none 0 0 (.client 0) {} = (.ok w₀, j) := ⟨_, _, rfl⟩
  obtain ⟨es, w, hw, hseen⟩ : ∃ es w, Chronicle step note
      (fun z => z.journal.armed.isNone = true) w₀ es w ∧
      (published es, w.calls.get? (.client 1), w.calls.get? (.client 2),
        (w.cell 1).interrupted, (w.step (.run (.client 1))).isSome,
        (w.step (.run (.client 2))).isSome,
        ((w.step (.run (.client 2))).bind fun v => v.step (.run (.client 2))).bind fun y =>
          (follow step (fun _ => true) y (goOn (.worker 0) 14)).map fun z => z.done) =
      ([(0, .error (some .foreign))],
        some (.writing { work := .fail .foreign, id := "task", wait := 1000 }
          (.waiting 0 1000000000)),
        some (.writing { work := .ret 3, id := "task", wait := 5 } (.waiting 1 5000000)),
        false, true, true, some [1, 0]) := by
    cases hc
    exact exists_chronicle twoWaits rfl
  simp only [Prod.mk.injEq] at hseen
  obtain ⟨hes, hfirst, hsecond, hcell, hgoes, hgoes', hdone⟩ := hseen
  have hw : Chronicle step note (fun z => z.journal.armed = none) w₀ es w :=
    hw.mono fun _ hz => Option.isNone_iff_eq_none.mp hz
  -- both waits end
  obtain ⟨v₁, hv₁⟩ := Option.isSome_iff_exists.mp hgoes
  obtain ⟨v₂, hv₂⟩ := Option.isSome_iff_exists.mp hgoes'
  obtain ⟨st₁, rfl, -, -, -, hend₁⟩ := answer_of_wait hc hw hfirst hv₁
  obtain ⟨st₂, rfl, -, -, -, hend₂⟩ := answer_of_wait hc hw hsecond hv₂
  have hq := hw.along.holds
  obtain ⟨y₁, hy₁, -, hanswer, -⟩ := hend₁ _ (.refl ⟨hq, Roster.get?_put_self ..⟩)
  obtain ⟨y₂, hy₂, -, -, hempty⟩ := hend₂ _ (.refl ⟨hq, Roster.get?_put_self ..⟩)
  have hback := hempty fun o ho => by
    have hin := mem_published.mpr ho
    rw [hes] at hin
    cases List.mem_singleton.mp hin
  rw [hv₂, Option.bind_some, hy₂, Option.bind_some] at hdone
  have hfailed : .published 0 (.error (some .foreign)) ∈ es :=
    mem_published.mp (hes ▸ List.mem_cons_self)
  refine ⟨w₀, w, j, y₁, y₂, es, hc, hw, hes, ?_, (hanswer _ hfailed).1, ?_, ?_, ?_, hdone⟩
  · rw [hv₁]
    exact hy₁
  · rw [hv₂]
    exact hy₂
  · rw [hback, comesBack, result?, Roster.get?_put_self]
  · rw [hback, hcell]
    rfl

end Writer

end SerialWriter
