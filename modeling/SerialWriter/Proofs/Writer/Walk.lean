import SerialWriter.Proofs.Control.Closed
import SerialWriter.Proofs.Writer.Order

/-!
What lasts after the walk of a stop: the tickets that were pending stay interrupted, those accepted
later are not, and without a write that was let in before nothing is accepted any more.
-/

namespace SerialWriter

variable {σ V : Type}

/-! ### How a call goes on -/

/-- **What a step can do to the call of `t`.** -/
inductive Course.CallStep (c : Course σ V) (t : Thread) (a : CallOfWriter σ V) (d : Course σ V) :
    Prop
  | stays (hd : d.calls.get? t = some a)
      (hk : (d.control.calls.get? t).isSome = (c.control.calls.get? t).isSome)
  | ends (hd : d.calls.get? t = none)
  | leaves {r : Except Failure Unit} (hi : a.inControl = true)
      (hr : c.control.calls.get? t = some (.ended r)) (hp : d.control.phase = c.control.phase)
      (hd : d.calls.get? t = some (a.afterControl r))
  | walks {after : AfterWalk} {b : CallOfWriter σ V} (ha : a = .walking after) (hb : b.Plain)
      (hd : d = { c with envelopes := interruptAt c.envelopes c.pending
                         calls := c.calls.put t b })
  | goes {b : CallOfWriter σ V} (ha : a.beside = true) (hi : b.inControl = false)
      (hw : b.isWalk = false) (hd : d.calls.get? t = some b)
  /-- The call is part of a destruction. -/
  | destroys (ha : a = .destroying ∨ a = .clearing)

variable {c d v : Course σ V} {t : Thread} {a : CallOfWriter σ V} {k : Nat}

lemma Course.Linked.callStep (hl : c.Linked) (hs : c.Step d) (ha : c.calls.get? t = some a) :
    c.CallStep t a d := by
  have hput : ∀ {u : Thread} {b : CallOfWriter σ V}, t ≠ u → (c.calls.put u b).get? t = some a :=
    fun htu => (Roster.get?_put_ne _ _ htu).trans ha
  have hsame : ∀ {u : Thread} {b : CallOfWriter σ V}, t = u → c.calls.get? u = some b → a = b := by
    intro u b htu hb
    rw [← htu, ha, Option.some.injEq] at hb
    exact hb
  -- the call of some thread goes on beside the control
  have hgoes : ∀ {e : Course σ V} {u : Thread} {b b' : CallOfWriter σ V},
      c.calls.get? u = some b → b.beside = true → b'.inControl = false → b'.isWalk = false →
      e.calls = c.calls.put u b' → e.control = c.control → c.CallStep t a e := by
    intro e u b b' hb hi hi' hw' he hc
    by_cases htu : t = u
    · refine .goes (hsame htu hb ▸ hi) hi' hw' ?_
      rw [he, htu]
      exact Roster.get?_put_self ..
    · exact .stays (he ▸ hput htu) (hc ▸ rfl)
  cases hs with
  | control _ hk _ => exact .stays ha (hk t)
  | @requests k b hn _ =>
    refine .stays (hput fun htk => ?_) rfl
    rw [← htk, ha] at hn
    cases hn
  | @enters k b s hn _ _ =>
    have htk : t ≠ .client k := fun htk => by
      rw [← htk, ha] at hn
      cases hn
    exact .stays (hput htk) (congrArg Option.isSome (Roster.get?_put_ne _ _ htk))
  | @acknowledges k r _ =>
    by_cases htk : t = .client k
    · exact .ends (htk ▸ Roster.get?_drop_self ..)
    · exact .stays ((Roster.get?_drop_ne _ htk).trans ha) rfl
  | @leaves u b r hb hi hr =>
    by_cases htu : t = u
    · obtain rfl := hsame htu hb
      subst htu
      exact .leaves hi hr rfl (Roster.get?_put_self ..)
    · exact .stays (hput htu) (congrArg Option.isSome (Roster.get?_drop_ne _ htu))
  | @walks u after b hw hb =>
    by_cases htu : t = u
    · obtain rfl := hsame htu hw
      subst htu
      exact .walks rfl hb rfl
    · exact .stays (hput htu) rfl
  | goes hb hi hb' => exact hgoes hb hi hb'.outside hb'.unwalked rfl rfl
  | @discards u hu =>
    by_cases htu : t = u
    · exact .destroys (.inl (hsame htu hu))
    · exact .stays (hput htu) rfl
  | @stops u hu =>
    by_cases htu : t = u
    · exact .destroys (.inl (hsame htu hu))
    · exact .stays (hput htu) (congrArg Option.isSome (Roster.get?_put_ne _ _ htu))
  | @clears u hu =>
    by_cases htu : t = u
    · exact .destroys (.inr (hsame htu hu))
    · exact .stays (hput htu) (congrArg Option.isSome (Roster.get?_put_ne _ _ htu))
  | admits hu _ => exact hgoes hu rfl rfl rfl rfl rfl
  | makes hu _ => exact hgoes hu rfl rfl rfl rfl rfl
  | offers hu => exact hgoes hu rfl rfl rfl rfl rfl
  | collects hu => exact hgoes hu rfl rfl rfl rfl rfl
  | @bodyEnters n k b s b' g hy hb _ _ =>
    have htn : t ≠ .worker n := fun htn => by
      rw [htn, hl.idle_of_running hy hb] at ha
      cases ha
    exact .stays (hput htn) (congrArg Option.isSome (Roster.get?_put_ne _ _ htn))
  | @bodyWrites n k b s g hy hb =>
    refine .stays (hput fun htn => ?_) rfl
    rw [htn, hl.idle_of_running hy hb] at ha
    cases ha
  | @bodyReturns n k r g hy hr =>
    by_cases htn : t = .worker n
    · exact .ends (htn ▸ Roster.get?_drop_self ..)
    · exact .stays ((Roster.get?_drop_ne _ htn).trans ha) rfl
  | _ => exact .stays ha rfl

/-! ### Nothing is accepted any more -/

/-- No new work is taken, and no write that was let in before has yet to make its offer. -/
structure Course.Sealed (c : Course σ V) : Prop where
  closed : c.control.phase.accepts = false
  unadmitted : ∀ u a, c.calls.get? u = some a → a.admitted = false

/-- **Nothing enters a sealed writer** unless it is started. -/
theorem Course.Sealed.step (h : c.Sealed) (hl : c.Linked) (hn : c.control.Startless)
    (hs : c.Step d) : d.Sealed ∧ d.accepted = c.accepted := by
  have hclosed : d.control.phase.accepts = false := by
    rcases hl.control_step hs with hc | ⟨_, _, _, hc⟩
    · rw [hc]
      exact h.closed
    · exact hc.closed hn h.closed
  have hput : ∀ {t : Thread} {a : CallOfWriter σ V}, a.admitted = false →
      ∀ u b, (c.calls.put t a).get? u = some b → b.admitted = false := by
    intro t a ha u b hb
    rw [Roster.get?_put] at hb
    split at hb
    · exact Option.some.inj hb ▸ ha
    · exact h.unadmitted u b hb
  have hdrop : ∀ {t : Thread}, ∀ u b, (c.calls.drop t).get? u = some b → b.admitted = false := by
    intro t u b hb
    rw [Roster.get?_drop, Option.ite_none_left_eq_some] at hb
    exact h.unadmitted u b hb.2
  cases hs with
  | requests _ ha => exact ⟨⟨hclosed, hput ha.unadmitted⟩, rfl⟩
  | enters _ ha _ => exact ⟨⟨hclosed, hput (CallOfWriter.admitted_of_inControl ha)⟩, rfl⟩
  | acknowledges _ => exact ⟨⟨hclosed, hdrop⟩, rfl⟩
  | leaves _ _ _ => exact ⟨⟨hclosed, hput (CallOfWriter.admitted_afterControl ..)⟩, rfl⟩
  | walks _ ha => exact ⟨⟨hclosed, hput ha.unadmitted⟩, rfl⟩
  | goes _ _ ha => exact ⟨⟨hclosed, hput ha.unadmitted⟩, rfl⟩
  | discards _ => exact ⟨⟨hclosed, hput rfl⟩, rfl⟩
  | stops _ => exact ⟨⟨hclosed, hput rfl⟩, rfl⟩
  | clears _ => exact ⟨⟨hclosed, hput rfl⟩, rfl⟩
  | admits _ hp =>
    rw [h.closed] at hp
    cases hp
  | makes ha _ => exact nomatch h.unadmitted _ _ ha
  | offers ha => exact nomatch h.unadmitted _ _ ha
  | collects _ => exact ⟨⟨hclosed, hput rfl⟩, rfl⟩
  | bodyEnters _ _ ha _ => exact ⟨⟨hclosed, hput (CallOfWriter.admitted_of_inControl ha)⟩, rfl⟩
  | bodyWrites _ _ => exact ⟨⟨hclosed, hput rfl⟩, rfl⟩
  | bodyReturns _ _ => exact ⟨⟨hclosed, hdrop⟩, rfl⟩
  | _ => exact ⟨⟨hclosed, h.unadmitted⟩, rfl⟩

/-! ### After the walk -/

/-- No thread is inside the control or about to walk. -/
def Course.Quiet (c : Course σ V) : Prop :=
  ∀ u a, c.calls.get? u = some a → a.inControl = false ∧ a.isWalk = false

lemma Course.Linked.startless_of_quiet (hl : c.Linked) (hq : c.Quiet) : c.control.Startless := by
  intro u b s hs
  rw [hl.outside fun a ha => (hq u a ha).1] at hs
  cases hs

/-- **What lasts after a walk over the pending tickets of `v`.** -/
structure Walked (v c : Course σ V) : Prop where
  quiet : c.Quiet
  closed : c.control.phase.accepts = false
  kept : ∀ k ∈ v.accepted, k ∈ c.accepted
  old : ∀ k ∈ c.pending, k ∈ v.accepted → (cellAt c.envelopes k).interrupted = true
  new : ∀ k, k ∉ v.accepted → k ∉ c.removed → (cellAt c.envelopes k).interrupted = false

namespace Walked

lemma of_walk (ho : c.Ordered) (hp : c.control.phase.accepts = false) {b : CallOfWriter σ V}
    (hd : d = { c with envelopes := interruptAt c.envelopes c.pending, calls := c.calls.put t b })
    (hq : d.Quiet) : Walked c d := by
  subst hd
  refine ⟨hq, hp, fun _ hk => hk, fun k hk hv => ?_, fun k hk _ => ?_⟩
  · rw [cellAt_interruptAt, if_pos ⟨hk, ho.tickets.known k hv⟩]
    rfl
  · rw [cellAt_interruptAt, if_neg fun h => hk (ho.pending_accepted h.1)]
    exact Bool.eq_false_iff.mpr fun hi => hk (ho.touched.interrupted k hi)

/-- **It lasts** until a thread enters the control or is about to walk again. -/
theorem step (h : Walked v c) (hl : c.Linked) (ho : c.Ordered) (hs : c.Step d) (hq : d.Quiet) :
    Walked v d := by
  have hclosed : d.control.phase.accepts = false := by
    rcases hl.control_step hs with hc | ⟨_, _, _, hc⟩
    · rw [hc]
      exact h.closed
    · exact hc.closed (hl.startless_of_quiet h.quiet) h.closed
  cases hs with
  | walks hw _ => exact nomatch (h.quiet _ _ hw).2
  | clears _ =>
    refine ⟨hq, hclosed, h.kept, nofun, fun k hv hr => h.new k hv fun hk => ?_⟩
    exact hr (List.mem_append_right _ hk)
  | makes _ he =>
    refine ⟨hq, hclosed, h.kept, fun k hk hv => ?_, fun k hv hr => ?_⟩
    · rw [cellAt_push he]
      exact h.old k hk hv
    · rw [cellAt_push he]
      exact h.new k hv hr
  | @offers t s i ha =>
    refine ⟨hq, hclosed, fun k hk => List.mem_cons_of_mem _ (h.kept k hk), fun k hk hv => ?_, h.new⟩
    rcases List.mem_append.mp hk with hk | hk
    · exact h.old k hk hv
    · -- what is offered now was not pending at the walk
      rw [List.mem_singleton] at hk
      exact absurd (h.kept k hv) (hk ▸ (ho.tickets.fresh t s i ha).2)
  | @collects t s i r _ =>
    have hcell : ∀ k, (cellAt (changeCellAt c.envelopes i fun a => a.take.2) k).interrupted =
        (cellAt c.envelopes k).interrupted :=
      apply_cellAt_take Cell.interrupted (fun _ => rfl) _ i
    exact ⟨hq, hclosed, h.kept, fun k hk hv => (hcell k).trans (h.old k hk hv),
      fun k hv hr => (hcell k).trans (h.new k hv hr)⟩
  | takes _ _ hp =>
    refine ⟨hq, hclosed, h.kept, fun k hk hv => h.old k ?_ hv, fun k hv hr => h.new k hv ?_⟩
    · rw [hp]
      exact List.mem_cons_of_mem _ hk
    · exact fun hk => hr (List.mem_cons_of_mem _ hk)
  | @body n i b b' f hy _ hf =>
    obtain ⟨-, hrem, -, -⟩ := ho.running hy
    refine ⟨hq, hclosed, h.kept, fun k hk hv => ?_, fun k hv hr => ?_⟩
    · rw [cellAt_changeCellAt]
      split
      · exact (hf _).interrupted (h.old k hk hv)
      · exact h.old k hk hv
    · -- the run only touches the cell of a ticket that has been dequeued
      rw [cellAt_changeCellAt_ne _ fun hki => hr ?_]
      · exact h.new k hv hr
      · rw [hki]
        exact hrem ▸ List.mem_cons_self
  | _ => exact ⟨hq, hclosed, h.kept, h.old, h.new⟩

/-- **Who is released after a walk**: exactly the tickets accepted before it, of those pending. -/
theorem released_iff (h : Walked v c) (ho : c.Ordered) (hk : k ∈ c.pending) :
    (cellAt c.envelopes k).status?.isSome = true ↔ k ∈ v.accepted := by
  unfold Cell.status?
  rw [ho.not_ready_of_pending hk]
  by_cases hv : k ∈ v.accepted
  · simp [h.old k hk hv, hv]
  · simp [h.new k hv (ho.pending_not_removed hk), hv]

end Walked

end SerialWriter
