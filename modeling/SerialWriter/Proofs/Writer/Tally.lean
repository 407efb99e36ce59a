import SerialWriter.Proofs.Writer.Conservation
import SerialWriter.Proofs.Writer.Rest
import Mathlib.Data.List.Basic

/-!
The work of a writer and its reference: after every task that has been counted the resource, the
outcomes and the books are those of the sequential evaluation, and in between the worker is on the
way to the next of them.
-/

namespace SerialWriter

variable {σ V : Type}

open Writer (Event)

/-! ### The tasks of tickets -/

def jobAt (es : Array (Envelope σ V)) (k : Nat) : Option (Job σ V) := es[k]?.map Envelope.job

/-- The tasks of tickets that are listed the latest first, in their order. -/
def jobsOf (es : Array (Envelope σ V)) (l : List Nat) : List (Job σ V) :=
  l.reverse.filterMap (jobAt es)

section Jobs

variable {es es' : Array (Envelope σ V)} {k : Nat} {l : List Nat} {x : Job σ V}

lemma jobAt_changeCellAt (es : Array (Envelope σ V)) (k : Nat) (f : Cell V → Cell V) (i : Nat) :
    jobAt (changeCellAt es k f) i = jobAt es i := by
  unfold jobAt changeCellAt
  rw [Array.getElem?_modify]
  split
  · cases es[i]? <;> rfl
  · rfl

lemma jobAt_interruptAt (es : Array (Envelope σ V)) (l : List Nat) (i : Nat) :
    jobAt (interruptAt es l) i = jobAt es i := by
  induction l generalizing es with
  | nil => rfl
  | cons k l ih => exact (ih _).trans (jobAt_changeCellAt ..)

lemma jobAt_push {e : Envelope σ V} (hk : k < es.size) : jobAt (es.push e) k = jobAt es k := by
  rw [jobAt, Array.getElem?_push_lt hk, jobAt, Array.getElem?_eq_getElem hk]

lemma exists_jobAt (hk : k < es.size) : ∃ x, jobAt es k = some x :=
  ⟨_, congrArg (Option.map Envelope.job) (Array.getElem?_eq_getElem hk)⟩

lemma jobsOf_congr (h : ∀ k ∈ l, jobAt es' k = jobAt es k) : jobsOf es' l = jobsOf es l :=
  List.filterMap_congr fun k hk => h k (List.mem_reverse.mp hk)

lemma jobsOf_cons (hx : jobAt es k = some x) : jobsOf es (k :: l) = jobsOf es l ++ [x] := by
  rw [jobsOf, List.reverse_cons, List.filterMap_append, List.filterMap_cons_some hx]
  rfl

lemma length_jobsOf (h : ∀ k ∈ l, k < es.size) : (jobsOf es l).length = l.length := by
  induction l with
  | nil => rfl
  | cons k l ih =>
    obtain ⟨x, hx⟩ := exists_jobAt (h k List.mem_cons_self)
    rw [jobsOf_cons hx, List.length_append, ih fun i hi => h i (List.mem_cons_of_mem _ hi)]
    rfl

end Jobs

def Writer.Event.published? : Event σ V → Option (Nat × Outcome V)
  | .published k o => some (k, o)
  | _ => none

def published (es : List (Event σ V)) : List (Nat × Outcome V) := es.filterMap Event.published?

lemma published_append (es : List (Event σ V)) (ev : Option (Event σ V)) :
    published (es ++ ev.toList) = published es ++ (ev.bind Event.published?).toList :=
  filterMap_append_toList ..

/-! ### The tally -/

namespace Affairs

variable {s₀ : σ} {es es' : List (Event σ V)} {c d : Affairs σ V} {ev : Option (Event σ V)}
  {k n : Nat} {l : List Nat} {b : BodyStage σ V} {x : Job σ V} {held : Option (Outcome V)}

/-- What the evaluation of the tasks of these tickets comes to. -/
def account (c : Affairs σ V) (s₀ : σ) (l : List Nat) : Account σ V :=
  sequential (jobsOf c.envelopes l) s₀

/-- **All is as if the tasks of these tickets had been evaluated**, and nothing else. -/
structure Settled (c : Affairs σ V) (s₀ : σ) (es : List (Event σ V)) (l : List Nat) : Prop where
  resource : c.resource = (c.account s₀ l).resource
  executed : c.executed = (c.account s₀ l).executed
  failed : c.failed = (c.account s₀ l).failed
  published : published es = l.reverse.zip (c.account s₀ l).outcomes

/-- **The tasks of these tickets have been evaluated, and that of `k` is under way.** -/
structure UnderWay (c : Affairs σ V) (s₀ : σ) (es : List (Event σ V)) (l : List Nat) (k : Nat)
    (b : BodyStage σ V) (x : Job σ V) (held : Option (Outcome V)) : Prop where
  job : jobAt c.envelopes k = some x
  standing : Standing b held (cellAt c.envelopes k).claimed
  rest : b.rest x (b.bench c.resource held) =
    x.body.begin.rest x { resource := (c.account s₀ l).resource }
  executed : c.executed = (c.account s₀ l).executed
  failed : c.failed = (c.account s₀ l).failed
  published : published es =
    l.reverse.zip (c.account s₀ l).outcomes ++ (held.map fun o => (k, o)).toList

/-- **How far the evaluation has come**, by the stage of the worker with a ticket in hand. -/
def Tally (c : Affairs σ V) (s₀ : σ) (es : List (Event σ V)) : Option (CycleStage σ V) → Prop
  | none | some (.measuring _) => c.Settled s₀ es c.removed
  | some (.dequeued k) => ∃ l, c.removed = k :: l ∧ c.Settled s₀ es l
  | some (.running k b) => ∃ l x held, c.removed = k :: l ∧ c.UnderWay s₀ es l k b x held
  | some (.counting _) =>
    ({ c with executed := c.executed + 1 } : Affairs σ V).Settled s₀ es c.removed

/-- The work that has been done stands at the end of every step that is not one of the worker. -/
structure SameWork (c d : Affairs σ V) : Prop where
  resource : d.resource = c.resource
  executed : d.executed = c.executed
  failed : d.failed = c.failed
  removed : d.removed = c.removed
  jobs : ∀ k ∈ c.removed, jobAt d.envelopes k = jobAt c.envelopes k
  claimed : ∀ k, (cellAt d.envelopes k).claimed = (cellAt c.envelopes k).claimed

lemma account_congr (h : ∀ k ∈ l, jobAt d.envelopes k = jobAt c.envelopes k) :
    d.account s₀ l = c.account s₀ l := by
  rw [account, account, jobsOf_congr h]

lemma account_cons (hx : jobAt c.envelopes k = some x) :
    c.account s₀ (k :: l) = (c.account s₀ l).after x := by
  rw [account, account, jobsOf_cons hx, sequential_concat]

lemma Settled.congr (h : c.Settled s₀ es l) (hr : d.resource = c.resource)
    (he : d.executed = c.executed) (hf : d.failed = c.failed)
    (hj : ∀ k ∈ l, jobAt d.envelopes k = jobAt c.envelopes k)
    (hp : SerialWriter.published es' = SerialWriter.published es) : d.Settled s₀ es' l := by
  have ha : d.account s₀ l = c.account s₀ l := account_congr hj
  exact ⟨ha ▸ hr.trans h.resource, ha ▸ he.trans h.executed, ha ▸ hf.trans h.failed,
    ha ▸ hp.trans h.published⟩

lemma Tally.congr {y? : Option (CycleStage σ V)} (h : c.Tally s₀ es y?) (hs : c.SameWork d)
    (hp : SerialWriter.published es' = SerialWriter.published es) : d.Tally s₀ es' y? := by
  obtain ⟨hr, he, hf, hrem, hj, hc⟩ := hs
  have hrest : c.Settled s₀ es c.removed → d.Settled s₀ es' d.removed := fun h =>
    hrem.symm ▸ h.congr hr he hf hj hp
  match y? with
  | none => exact hrest h
  | some (.measuring _) => exact hrest h
  | some (.dequeued k) =>
    obtain ⟨l, hl, h⟩ := h
    exact ⟨l, hrem.trans hl, h.congr hr he hf
      (fun i hi => hj i (hl ▸ List.mem_cons_of_mem _ hi)) hp⟩
  | some (.running k b) =>
    obtain ⟨l, x, held, hl, h⟩ := h
    have ha : d.account s₀ l = c.account s₀ l :=
      account_congr fun i hi => hj i (hl ▸ List.mem_cons_of_mem _ hi)
    refine ⟨l, x, held, hrem.trans hl, ?_, hc k ▸ h.standing, ?_, ha ▸ he.trans h.executed,
      ha ▸ hf.trans h.failed, ha ▸ hp.trans h.published⟩
    · exact (hj k (hl ▸ List.mem_cons_self)).trans h.job
    · rw [ha, hr]
      exact h.rest
  | some (.counting k) =>
    have hset := Settled.congr (d := { d with executed := d.executed + 1 }) h hr
      (congrArg (· + 1) he) hf hj hp
    rw [← hrem] at hset
    exact hset

/-! ### What else is known of tickets and cycles -/

/-- What the order of the tickets gives for the tally. -/
structure Sane (c : Affairs σ V) : Prop where
  alone : ∀ n y, c.cycles.get? (.worker n) = some y →
    ∀ m, m ≠ n → c.cycles.get? (.worker m) = none
  split : c.accepted = c.pending.reverse ++ c.removed
  nodup : c.accepted.Nodup
  known : ∀ k ∈ c.accepted, k < c.envelopes.size
  fresh : ∀ n k, c.cycles.get? (.worker n) = some (.dequeued k) →
    (cellAt c.envelopes k).claimed = false

namespace Sane

lemma removed_subset (h : c.Sane) (hk : k ∈ c.removed) : k ∈ c.accepted :=
  h.split ▸ List.mem_append_right _ hk

lemma nodup_removed (h : c.Sane) : c.removed.Nodup :=
  (List.nodup_append.mp (h.split ▸ h.nodup)).2.1

lemma known_removed (h : c.Sane) (hk : k ∈ c.removed) : k < c.envelopes.size :=
  h.known k (h.removed_subset hk)

lemma known_pending (h : c.Sane) (hk : k ∈ c.pending) : k < c.envelopes.size :=
  h.known k (h.split ▸ List.mem_append_left _ (List.mem_reverse.mpr hk))

lemma length_account (h : c.Sane) (hl : ∀ i ∈ l, i ∈ c.removed) (s₀ : σ) :
    l.reverse.length = (c.account s₀ l).outcomes.length := by
  rw [List.length_reverse, account, length_outcomes,
    length_jobsOf fun i hi => h.known_removed (hl i hi)]

end Sane

/-! ### Every step keeps the tally -/

/-- **The work that a writer has done**, and that its tasks are apart. -/
structure Tallied (c : Affairs σ V) (s₀ : σ) (es : List (Event σ V)) : Prop where
  hand : Lone c.cycles (c.Tally s₀ es)
  apart : ∀ k x, jobAt c.envelopes k = some x → x.body.task.Apart

namespace Tallied

lemma published_of_quiet (hp : ev.bind Event.published? = none) :
    SerialWriter.published (es ++ ev.toList) = SerialWriter.published es := by
  rw [published_append, hp]
  exact List.append_nil _

lemma beside (h : c.Tallied s₀ es) (hs : c.SameWork d) (hy : d.cycles = c.cycles)
    (hp : ev.bind Event.published? = none)
    (ha : ∀ k x, jobAt d.envelopes k = some x → x.body.task.Apart) :
    d.Tallied s₀ (es ++ ev.toList) :=
  ⟨hy ▸ h.hand.mono fun _ ht => ht.congr hs (published_of_quiet hp), ha⟩

lemma calls (h : c.Tallied s₀ es) (hr : d.resource = c.resource) (he : d.executed = c.executed)
    (hf : d.failed = c.failed) (hrem : d.removed = c.removed) (henv : d.envelopes = c.envelopes)
    (hy : d.cycles = c.cycles) (hp : ev.bind Event.published? = none) :
    d.Tallied s₀ (es ++ ev.toList) :=
  h.beside ⟨hr, he, hf, hrem, fun _ _ => by rw [henv], fun _ => by rw [henv]⟩ hy hp
    (henv ▸ h.apart)

lemma put (h : c.Tallied s₀ es) (hsane : c.Sane) {y y' : CycleStage σ V}
    (hy : c.cycles.get? (.worker n) = some y) (hd : d.cycles = c.cycles.put (.worker n) y')
    (henv : d.envelopes = c.envelopes) (ht : d.Tally s₀ es' (some y')) : d.Tallied s₀ es' :=
  ⟨hd ▸ .put (hsane.alone n y hy) ht, henv ▸ h.apart⟩

lemma not_involved (h : c.Tallied s₀ es) {p : Program σ V}
    {back? : Option (Option Failure → Wrapper σ)}
    (hy : c.cycles.get? (.worker n) = some (.running k (.inner p back?))) :
    p.involved = false := by
  obtain ⟨l, x, held, -, hw⟩ := h.hand.inHand n _ hy
  have hp : p.Apart := hw.standing.apart
  cases hp <;> rfl

lemma opens (h : c.Tallied s₀ es) (hsane : c.Sane) {e : Envelope σ V}
    (hy : c.cycles.get? (.worker n) = some (.dequeued k)) (he : c.envelopes[k]? = some e)
    (hd : d = { c with cycles := c.cycles.put (.worker n) (.running k e.body.begin) }) :
    d.Tallied s₀ es := by
  subst hd
  obtain ⟨l, hl, hset⟩ := h.hand.inHand n _ hy
  have hjob : jobAt c.envelopes k = some e.job := congrArg (Option.map Envelope.job) he
  have hapart : e.body.task.Apart := h.apart k _ hjob
  have hstage : e.body.begin.Apart ∧ e.body.begin.isPublishing = false ∧
      e.body.begin.isVerdict = false := by
    cases hb : e.body with
    | direct p =>
      rw [hb] at hapart
      exact ⟨hapart, rfl, rfl⟩
    | wrapped w p => exact ⟨trivial, rfl, rfl⟩
  obtain ⟨hb, hnot, hver⟩ := hstage
  refine h.put hsane hy rfl rfl ⟨l, e.job, none, hl, hjob, ⟨hb, ?_, ?_, ?_⟩, ?_, hset.executed,
    hset.failed, ?_⟩
  · rw [hnot]
    exact hsane.fresh n k hy
  · rw [hnot]
    exact nofun
  · rw [hver]
    exact nofun
  · have hbench : e.body.begin.bench c.resource none = { resource := c.resource } := by
      simp only [BodyStage.bench, hnot, Bool.false_eq_true, if_false, Cell.holding]
    rw [hbench]
    exact congrArg (fun s => e.body.begin.rest e.job { resource := s }) hset.resource
  · rw [hset.published]
    exact (List.append_nil _).symm

lemma body (h : c.Tallied s₀ es) (hsane : c.Sane) {b' : BodyStage σ V} {e : Envelope σ V} {s : σ}
    {act : CellChange V} (hy : c.cycles.get? (.worker n) = some (.running k b))
    (he : c.envelopes[k]? = some e) (ht : BodyTurn e b c.resource act b' s)
    (hd : d = { c with resource := s, envelopes := changeCellAt c.envelopes k act.change
                       cycles := c.cycles.put (.worker n) (.running k b') }) :
    d.Tallied s₀ (es ++ (act.outcome?.map fun o => Event.published k o).toList) := by
  subst hd
  obtain ⟨l, x, held, hl, hw⟩ := h.hand.inHand n _ hy
  have hcell := cellAt_eq he
  obtain rfl : e.job = x := by
    have hjob := hw.job
    rw [jobAt, he] at hjob
    exact Option.some.inj hjob
  have hk : k < c.envelopes.size := hsane.known_removed (hl ▸ List.mem_cons_self)
  have hapart : e.body.task.Apart := h.apart k _ hw.job
  obtain ⟨hstanding, hrest⟩ := ht.keeps (hcell ▸ hw.standing) hapart
  have hjobs := jobAt_changeCellAt c.envelopes k act.change
  refine ⟨.put (hsane.alone n _ hy) ⟨l, e.job, act.outcome?.or held, hl, (hjobs k).trans hw.job,
    ?_, ?_, ?_, ?_, ?_⟩, fun i x hi => h.apart i x ((hjobs i) ▸ hi)⟩
  · rw [cellAt_changeCellAt_self he]
    exact hstanding
  · rw [account_congr (c := c) fun i _ => hjobs i]
    exact hrest.trans hw.rest
  · rw [account_congr (c := c) fun i _ => hjobs i]
    exact hw.executed
  · rw [account_congr (c := c) fun i _ => hjobs i]
    exact hw.failed
  · rw [account_congr (c := c) fun i _ => hjobs i, published_append, hw.published]
    cases ho : act.outcome? with
    | none => exact List.append_nil _
    | some o =>
      -- nothing was held before the outcome is assigned
      have hnone : held = none := by
        cases ht with
        | publishes o after => exact hw.standing.unheld rfl
        | reaches _ hd => cases hd <;> cases ho
        | _ => cases ho
      rw [hnone]
      exact congrArg (· ++ _) (List.append_nil _)

/-- **At the end of a run nothing is left of the evaluation of its task.** -/
lemma finishes (h : c.Tallied s₀ es) (hsane : c.Sane) {ok : Bool}
    (hy : c.cycles.get? (.worker n) = some (.running k (.verdict ok)))
    (hd : d = { c with failed := c.failed + (!ok).toNat
                       cycles := c.cycles.put (.worker n) (.counting k) }) :
    d.Tallied s₀ es := by
  subst hd
  obtain ⟨l, x, held, hl, hw⟩ := h.hand.inHand n _ hy
  obtain ⟨o, rfl⟩ := Option.isSome_iff_exists.mp (hw.standing.held rfl)
  have heval : x.eval (c.account s₀ l).resource =
      { resource := c.resource, outcome := o, succeeded := ok } := by
    rw [Job.eval_eq, ← hw.rest]
    simp only [BodyStage.rest, BodyStage.bench, BodyStage.isPublishing, Bool.false_eq_true,
      if_false, Cell.outcome_holding]
  have hlength := hsane.length_account (l := l) (fun i hi => hl ▸ List.mem_cons_of_mem _ hi) s₀
  have hacc : c.account s₀ c.removed = (c.account s₀ l).after x := by rw [hl, account_cons hw.job]
  refine h.put hsane hy rfl rfl ⟨?_, ?_, ?_, ?_⟩
  · change c.resource = (c.account s₀ c.removed).resource
    rw [hacc, Account.after, heval]
  · change c.executed + 1 = (c.account s₀ c.removed).executed
    rw [hacc, Account.after, hw.executed]
  · change c.failed + (!ok).toNat = (c.account s₀ c.removed).failed
    rw [hacc, Account.after, heval, hw.failed]
  · change SerialWriter.published es = c.removed.reverse.zip (c.account s₀ c.removed).outcomes
    rw [hacc, Account.after, heval, hw.published, hl, List.reverse_cons,
      List.zip_append hlength]
    rfl

theorem step (h : c.Tallied s₀ es) (hsane : c.Sane) (hs : c.Step ev d)
    (hw : ∀ t s stage, c.calls.get? t = some (.writing s stage) → s.work.Apart)
    (hd : ∀ t, d.calls.get? t ≠ some .releasing) (hev : ev.any Event.isSpoiled = false) :
    d.Tallied s₀ (es ++ ev.toList) := by
  cases hs with
  | @clears t _ => exact absurd (Roster.get?_put_self ..) (hd t)
  | walks _ _ =>
    exact h.beside ⟨rfl, rfl, rfl, rfl, fun i _ => jobAt_interruptAt ..,
      apply_cellAt_interruptAt Cell.claimed (fun _ => rfl) _ _⟩ rfl rfl
      fun i x hi => h.apart i x (jobAt_interruptAt .. ▸ hi)
  | @makes t s e i ht he =>
    have hfresh := Envelope.fresh_of_make he
    refine h.beside ⟨rfl, rfl, rfl, rfl, fun k hk => jobAt_push (hsane.known_removed hk),
      fun k => ?_⟩ rfl rfl fun k x hx => ?_
    · rw [cellAt_push hfresh.1]
    · change jobAt (c.envelopes.push e) k = some x at hx
      by_cases hk : k < c.envelopes.size
      · exact h.apart k x (jobAt_push hk ▸ hx)
      · rw [jobAt, Array.getElem?_push] at hx
        split at hx
        · obtain rfl : e.job = x := Option.some.inj hx
          change e.body.task.Apart
          rw [hfresh.2]
          exact hw t s _ ht
        · rw [Array.getElem?_eq_none (by omega)] at hx
          cases hx
  | collects _ _ =>
    exact h.beside ⟨rfl, rfl, rfl, rfl, fun i _ => jobAt_changeCellAt ..,
      apply_cellAt_take Cell.claimed (fun _ => rfl) _ _⟩ rfl rfl
      fun i x hi => h.apart i x (jobAt_changeCellAt .. ▸ hi)
  | takes hy _ =>
    have hset : c.Settled s₀ es c.removed := h.hand.atRest hy
    refine ⟨.put (fun m _ => hy m) ⟨c.removed, rfl, hset.congr rfl rfl rfl (fun _ _ => rfl) ?_⟩,
      h.apart⟩
    exact published_of_quiet rfl
  | idles hy =>
    have hset : c.Settled s₀ es c.removed := h.hand.atRest hy
    refine ⟨.drop (fun m _ => hy m) (hset.congr rfl rfl rfl (fun _ _ => rfl) ?_), h.apart⟩
    exact published_of_quiet rfl
  | opens hy he => exact (List.append_nil es).symm ▸ h.opens hsane hy he rfl
  | body hy he ht => exact h.body hsane hy he ht rfl
  | bodyCalls hy hp _ _ _ =>
    -- tasks apart never call the writer
    rw [h.not_involved hy] at hp
    cases hp
  | bodyReturns hy _ =>
    obtain ⟨l, x, held, -, hway⟩ := h.hand.inHand _ _ hy
    exact hway.standing.apart.elim
  | finishes hy => exact (List.append_nil es).symm ▸ h.finishes hsane hy rfl
  | spoils _ _ => cases hev
  | counts hy =>
    obtain ⟨hr, he, hf, hp⟩ := h.hand.inHand _ _ hy
    exact (List.append_nil es).symm ▸ h.put hsane hy rfl rfl ⟨hr, he, hf, hp⟩
  | @closes n k hy =>
    have hset : c.Settled s₀ es c.removed := h.hand.inHand _ _ hy
    refine ⟨.drop (hsane.alone n _ hy) (hset.congr rfl rfl rfl (fun _ _ => rfl) ?_), h.apart⟩
    exact published_of_quiet rfl
  | _ => exact h.calls rfl rfl rfl rfl rfl rfl rfl

end Tallied

end Affairs

end SerialWriter
