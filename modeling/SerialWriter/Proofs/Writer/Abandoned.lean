import SerialWriter.Proofs.Control.Phases
import SerialWriter.Proofs.Writer.Serial
import SerialWriter.Proofs.Writer.Stops

/-!
The tickets that a stop reports as left unexecuted. Until a worker is created they stay so once the
writer has ended; but a stop that has given up on the worker walks over the queue while the worker
still has cycles before it, and each of these may run one of the tickets reported.
-/

namespace SerialWriter

variable {σ V : Type}

/-! ### The takes of a worker -/

/-- **How many tickets a worker may yet dequeue** once the writer has been told to stop; a worker
that is `busy` has dequeued the ticket of its present cycle. -/
def WorkerStage.takes (busy : Bool) : WorkerStage → Nat
  | .created | .looking | .entering true => 1
  | .entering false => 2
  | .cycling last => (!busy).toNat + (!last).toNat
  | _ => 0

lemma WorkerStage.takes_afterCycle (busy busy' last : Bool) (e : Option Failure) :
    (WorkerStage.afterCycle last e).takes busy' ≤ (WorkerStage.cycling last).takes busy := by
  cases e with
  | some _ => exact Nat.zero_le _
  | none =>
    cases last with
    | true => exact Nat.zero_le _
    | false => exact Nat.le_add_left 1 _

/-- The writer has been told to stop, and nobody has started it since. -/
structure Control.Halted (c : Control) : Prop where
  closed : c.phase ≠ .running
  vacant : c.phase = .starting → c.Vacant

lemma WorkerStage.Goes.takes {n : Nat} {idle : Int} {quiet : Prop} {w w' : WorkerStage}
    {p q : Phase} {ev : Option ControlScene.Event} {busy : Bool} (h : w.Goes n idle quiet p ev w' q)
    (hr : p ≠ .running) (hs : p ≠ .starting) (hb : ∀ last, w = .entering last → busy = false) :
    w'.takes busy ≤ w.takes busy := by
  cases h with
  | opens _ => exact (hs rfl).elim
  | hurries => exact Nat.le_refl 1
  | looks _ =>
    rw [decide_eq_true hr]
    exact Nat.le_refl 1
  | @enters _ last _ _ =>
    rw [hb last rfl]
    cases last <;> exact Nat.le_refl _
  | exits e _ _ => exact takes_afterCycle ..
  | @retires f _ => cases f <;> exact Nat.zero_le _
  | @fails _ _ f _ _ => cases f <;> exact Nat.zero_le _
  | @reports _ f _ => cases f <;> exact Nat.zero_le _
  | leaves _ => exact Nat.zero_le _

namespace Control

variable {c d : Control} {j : Journal} {ev : Option ControlScene.Event}

lemma Halted.of_phase (hr : c.phase ≠ .running) (hs : c.phase ≠ .starting) : c.Halted :=
  ⟨hr, fun h => (hs h).elim⟩

lemma Halted.advance (h : c.Halted) (ha : c.Advance j ev d)
    (hn : d.workers.length = c.workers.length) : d.Halted := by
  have hsame : d.phase = c.phase → (∀ n, d.worker? n = c.worker? n) → d.Halted := fun hp hw =>
    ⟨hp ▸ h.closed, fun hs n w hd => h.vacant (hp ▸ hs) n w (hw n ▸ hd)⟩
  cases ha with
  | rests hp hw _ => exact hsame hp fun _ => congrArg (·[_]?) hw
  | turns hturn hw _ =>
    generalize hq : d.phase = q at hturn
    cases hturn with
    | starts _ hv => exact ⟨hq ▸ by decide, fun _ n w hd => hv n w (by rwa [worker?, hw] at hd)⟩
    | retires _ _ | halts _ | denied _ _ _ => exact .of_phase (hq ▸ by decide) (hq ▸ by decide)
  | creates _ _ _ _ hw _ =>
    rw [hw, List.length_append, List.length_singleton] at hn
    omega
  | @works _ n w w' _ hw _ _ hgoes =>
    -- the worker that moves is there, so nobody is starting
    have hstarting : c.phase ≠ .starting := fun hs => by
      have hp := hgoes.present
      rw [h.vacant hs n w hw] at hp
      cases hp
    have hclosed := h.closed
    generalize c.phase = p at hgoes hstarting hclosed
    generalize hq : d.phase = q at hgoes
    suffices hne : q ≠ .running ∧ q ≠ .starting from .of_phase (hq ▸ hne.1) (hq ▸ hne.2)
    cases hgoes with
    | opens _ => exact (hstarting rfl).elim
    | hurries | retires _ | fails _ _ | reports _ => decide
    | looks _ | enters _ _ | exits _ _ _ | leaves _ => exact ⟨hclosed, hstarting⟩

end Control

/-! ### What a step draws from the queue -/

section Draws

variable {c d : Course σ V}

/-- The worker has dequeued the ticket of its present cycle. -/
def Course.busy (c : Course σ V) (n : Nat) : Bool := (c.cycles.get? (.worker n)).isSome

/-- **What a step does to the queue**, seen by those who wait for a take. -/
inductive Course.Draws (c d : Course σ V) : Prop
  /-- Nothing is dequeued, and no worker has more takes before it. -/
  | rests (hp : d.pending = c.pending ∨ (∃ k, d.pending = c.pending ++ [k] ∧ k ∉ c.accepted) ∨
        d.pending = [])
      (hb : d.begun = c.begun ∨ ∃ n k, c.cycles.get? (.worker n) = some (.dequeued k) ∧
        d.begun = k :: c.begun)
      (hy : ∀ n k, d.cycles.get? (.worker n) = some (.dequeued k) →
        c.cycles.get? (.worker n) = some (.dequeued k))
      (ht : ∀ n s, d.control.worker? n = some s → ∃ s', c.control.worker? n = some s' ∧
        s.takes (d.busy n) ≤ s'.takes (c.busy n))
  /-- Worker `n` dequeues the oldest ticket. -/
  | takes {n k : Nat} {last : Bool} {rest : List Nat}
      (hw : c.control.worker? n = some (.cycling last))
      (hy : c.cycles.get? (.worker n) = none) (hp : c.pending = k :: rest)
      (hd : d = { c with pending := rest, removed := k :: c.removed
                         cycles := c.cycles.put (.worker n) (.dequeued k) })

namespace Course.Draws

lemma of_frame (hw : d.control.workers = c.control.workers) (hy : d.cycles = c.cycles)
    (hb : d.begun = c.begun) (hp : d.pending = c.pending ∨
      (∃ k, d.pending = c.pending ++ [k] ∧ k ∉ c.accepted) ∨ d.pending = []) : c.Draws d := by
  refine .rests hp (.inl hb) (fun n k hk => hy ▸ hk) fun n s hs =>
    ⟨s, (congrArg (·[n]?) hw).symm.trans hs, ?_⟩
  rw [busy, hy]
  exact Nat.le_refl _

lemma of_cycle {n : Nat} {y y' : CycleStage σ V} (hw : d.control.workers = c.control.workers)
    (hy : c.cycles.get? (.worker n) = some y) (hy' : ∀ k, y' ≠ .dequeued k)
    (hd : d.cycles = c.cycles.put (.worker n) y') (hb : d.begun = c.begun ∨ ∃ n k,
      c.cycles.get? (.worker n) = some (.dequeued k) ∧ d.begun = k :: c.begun)
    (hp : d.pending = c.pending) : c.Draws d := by
  refine .rests (.inl hp) hb (fun m k hk => ?_) fun m s hs =>
    ⟨s, (congrArg (·[m]?) hw).symm.trans hs, ?_⟩
  · rw [hd, Roster.get?_put] at hk
    split at hk
    · exact (hy' k (Option.some.inj hk)).elim
    · exact hk
  · have hbusy : d.busy m = c.busy m := by
      rw [busy, busy, hd, Roster.get?_put]
      split
      · rename_i hm
        rw [hm, hy]
        rfl
      · rfl
    exact Nat.le_of_eq (congrArg s.takes hbusy)

lemma of_endCycle {n : Nat} {last : Bool} {e : Option Failure}
    (hw : c.control.worker? n = some (.cycling last))
    (hc : d.control = c.control.setWorker n (.afterCycle last e))
    (hd : d.cycles = c.cycles.drop (.worker n)) (hb : d.begun = c.begun)
    (hp : d.pending = c.pending) : c.Draws d := by
  refine .rests (.inl hp) (.inl hb) (fun m k hk => ?_) fun m s hs => ?_
  · rw [hd, Roster.get?_drop, Option.ite_none_left_eq_some] at hk
    exact hk.2
  · by_cases hm : m = n
    · subst hm
      rw [Control.worker?_set_self (congrArg Control.workers hc) hw, Option.some.injEq] at hs
      exact ⟨_, hw, hs ▸ WorkerStage.takes_afterCycle ..⟩
    · rw [Control.worker?_set_ne (congrArg Control.workers hc) (Ne.symm hm)] at hs
      have hbusy : d.busy m = c.busy m := by
        rw [busy, busy, hd, Roster.get?_drop_ne _ fun h => hm (Thread.worker.inj h)]
      exact ⟨s, hs, Nat.le_of_eq (congrArg s.takes hbusy)⟩

end Course.Draws

lemma Course.Linked.draws_of_control (hl : c.Linked) (hh : c.control.Halted) {e : Control}
    {now : Time} {j j' : Journal} (h : c.control.Step now j e j')
    (hn : e.workers.length = c.control.workers.length) : c.Draws { c with control := e } := by
  refine .rests (.inl rfl) (.inl rfl) (fun _ _ hk => hk) fun n s hs => ?_
  obtain ⟨ev, ha⟩ := hl.orderly.advance h
  have hsame : e.workers = c.control.workers → ∃ s', c.control.worker? n = some s' ∧
      s.takes (c.busy n) ≤ s'.takes (c.busy n) := fun hw =>
    ⟨s, (congrArg (·[n]?) hw).symm.trans hs, Nat.le_refl _⟩
  cases ha with
  | rests _ hw _ => exact hsame hw
  | turns _ hw _ => exact hsame hw
  | creates _ _ _ _ hw _ =>
    rw [hw, List.length_append, List.length_singleton] at hn
    omega
  | @works _ m w w' _ hw hset _ hgoes =>
    by_cases hmn : n = m
    · subst hmn
      have hstarting : c.control.phase ≠ .starting := fun hp => by
        have hpresent := hgoes.present
        rw [hh.vacant hp n w hw] at hpresent
        cases hpresent
      obtain rfl := Option.some.inj ((Control.worker?_set_self hset hw).symm.trans hs)
      refine ⟨w, hw, hgoes.takes hh.closed hstarting fun last hlast => ?_⟩
      -- who is about to enter a cycle has no ticket in hand
      refine Option.isSome_eq_false_iff.mpr (Option.isNone_iff_eq_none.mpr ?_)
      refine Option.eq_none_iff_forall_ne_some.mpr fun y hy => ?_
      obtain ⟨_, hcyc⟩ := hl.cycling hy
      rw [hw, hlast] at hcyc
      cases hcyc
    · exact ⟨s, (Control.worker?_set_ne hset (Ne.symm hmn)).symm.trans hs, Nat.le_refl _⟩

theorem Course.Linked.draws (hl : c.Linked) (hh : c.control.Halted)
    (htickets : Tickets c.accepted c.envelopes.size c.calls) (hs : c.Step d)
    (hn : d.control.workers.length = c.control.workers.length) : c.Draws d := by
  cases hs with
  | control h _ _ => exact hl.draws_of_control hh h hn
  | clears _ => exact .of_frame rfl rfl rfl (.inr (.inr rfl))
  | @offers t s k ha =>
    exact .of_frame rfl rfl rfl (.inr (.inl ⟨k, rfl, (htickets.fresh t s k ha).2⟩))
  | takes hw hy hp => exact .takes hw hy hp rfl
  | idles hw _ => exact .of_endCycle hw rfl rfl rfl rfl
  | breaks hw _ _ => exact .of_endCycle hw rfl rfl rfl rfl
  | closes hw _ => exact .of_endCycle hw rfl rfl rfl rfl
  | opens hy => exact .of_cycle rfl hy (by rintro _ ⟨⟩) rfl (.inr ⟨_, _, hy, rfl⟩) rfl
  | body hy _ _ => exact .of_cycle rfl hy (by rintro _ ⟨⟩) rfl (.inl rfl) rfl
  | bodyEnters hy _ _ _ => exact .of_cycle rfl hy (by rintro _ ⟨⟩) rfl (.inl rfl) rfl
  | bodyWrites hy _ => exact .of_cycle rfl hy (by rintro _ ⟨⟩) rfl (.inl rfl) rfl
  | bodyReturns hy _ => exact .of_cycle rfl hy (by rintro _ ⟨⟩) rfl (.inl rfl) rfl
  | finishes hy _ => exact .of_cycle rfl hy (by rintro _ ⟨⟩) rfl (.inl rfl) rfl
  | counts hy => exact .of_cycle rfl hy (by rintro _ ⟨⟩) rfl (.inl rfl) rfl
  | _ => exact .of_frame rfl rfl rfl (.inl rfl)

/-! ### What becomes of the tickets of a walk -/

/-- **Of the tickets of a walk those in `gone` have been dequeued**, and those in `rest` have
not. -/
structure Course.Splits (gone rest : List Nat) (b : Nat) (c : Course σ V) : Prop where
  within : gone.length ≤ b
  /-- With what a worker may yet dequeue, `gone` stays within the bound. -/
  budget : ∀ n s, c.control.worker? n = some s → gone.length + s.takes (c.busy n) ≤ b
  unbegun : ∀ k ∈ rest, k ∉ c.begun ∧ ∀ n, c.cycles.get? (.worker n) ≠ some (.dequeued k)
  /-- The rest stands at the head of the queue, unless a destruction has dropped it. -/
  pending : (∃ new, c.pending = rest ++ new) ∨ ∀ k ∈ rest, k ∉ c.pending

namespace Course.Splits

variable {gone rest : List Nat} {b : Nat}

lemma rests (h : c.Splits gone rest b) (hknown : ∀ k ∈ rest, k ∈ c.accepted)
    (hp : d.pending = c.pending ∨ (∃ k, d.pending = c.pending ++ [k] ∧ k ∉ c.accepted) ∨
      d.pending = [])
    (hb : d.begun = c.begun ∨ ∃ n k, c.cycles.get? (.worker n) = some (.dequeued k) ∧
      d.begun = k :: c.begun)
    (hy : ∀ n k, d.cycles.get? (.worker n) = some (.dequeued k) →
      c.cycles.get? (.worker n) = some (.dequeued k))
    (ht : ∀ n s, d.control.worker? n = some s → ∃ s', c.control.worker? n = some s' ∧
      s.takes (d.busy n) ≤ s'.takes (c.busy n)) : d.Splits gone rest b := by
  refine ⟨h.within, fun n s hw => ?_, fun k hk => ⟨fun hin => ?_, fun n hn => ?_⟩, ?_⟩
  · obtain ⟨s', hw', hle⟩ := ht n s hw
    exact Nat.le_trans (Nat.add_le_add_left hle _) (h.budget n s' hw')
  · rcases hb with hb | ⟨n, i, hi, hb⟩
    · exact (h.unbegun k hk).1 (hb ▸ hin)
    · rw [hb] at hin
      rcases List.mem_cons.mp hin with rfl | hin
      · exact (h.unbegun k hk).2 n hi
      · exact (h.unbegun k hk).1 hin
  · exact (h.unbegun k hk).2 n (hy n k hn)
  · rcases hp with hp | ⟨i, hp, hi⟩ | hp
    · exact hp ▸ h.pending
    · rcases h.pending with ⟨new, hnew⟩ | hdropped
      · exact .inl ⟨new ++ [i], by rw [hp, hnew, List.append_assoc]⟩
      · refine .inr fun k hk hin => ?_
        rcases List.mem_append.mp (hp ▸ hin) with hin | hin
        · exact hdropped k hk hin
        · exact hi (List.mem_singleton.mp hin ▸ hknown k hk)
    · exact .inr fun k _ hin => nomatch hp ▸ hin

/-- A take: the ticket dequeued is the first of the rest, or none of them. -/
lemma takes {n k : Nat} {last : Bool} {queue : List Nat} (h : c.Splits gone rest b)
    (hl : c.Linked) (hnodup : rest.Nodup) (hw : c.control.worker? n = some (.cycling last))
    (hy : c.cycles.get? (.worker n) = none) (hp : c.pending = k :: queue)
    (hd : d = { c with pending := queue, removed := k :: c.removed
                       cycles := c.cycles.put (.worker n) (.dequeued k) }) :
    ∃ gone' rest', gone ++ rest = gone' ++ rest' ∧ d.Splits gone' rest' b := by
  subst hd
  -- the take uses up one of those that its worker had left
  have hmore : gone.length + 1 ≤ b := by
    have hbound := h.budget n _ hw
    rw [busy, hy] at hbound
    exact Nat.le_trans (Nat.add_le_add_left (Nat.le_add_right 1 _) _) hbound
  have hbusy : ∀ m s, c.control.worker? m = some s → gone.length + 1 +
      s.takes ((c.cycles.put (.worker n) (.dequeued k)).get? (.worker m)).isSome ≤ b := by
    intro m s hm
    by_cases hmn : m = n
    · subst hmn
      obtain rfl := Option.some.inj (hw.symm.trans hm)
      have hbound := h.budget m _ hw
      rw [busy, hy] at hbound
      rw [Roster.get?_put_self, Nat.add_assoc]
      refine Nat.le_trans (Nat.add_le_add_left ?_ _) hbound
      cases last <;> exact Nat.le_refl _
    · -- the other workers are gone
      have hgoner : s = .finished := WorkerStage.eq_finished (Bool.eq_false_iff.mpr fun hpr =>
        hmn (hl.orderly.staffed.eq_of_present hm hpr hw rfl))
      exact hgoner ▸ hmore
  have hfirst : ∀ i ∈ rest, i ≠ k → i ∉ c.begun ∧ ∀ m,
      (c.cycles.put (.worker n) (.dequeued k)).get? (.worker m) ≠ some (.dequeued i) := by
    refine fun i hi hik => ⟨(h.unbegun i hi).1, fun m hm => ?_⟩
    rw [Roster.get?_put] at hm
    split at hm
    · exact hik (CycleStage.dequeued.inj (Option.some.inj hm)).symm
    · exact (h.unbegun i hi).2 m hm
  have hother : k ∉ rest → ((∃ new, queue = rest ++ new) ∨ ∀ i ∈ rest, i ∉ queue) →
      Splits gone rest b { c with pending := queue, removed := k :: c.removed
                                  cycles := c.cycles.put (.worker n) (.dequeued k) } :=
    fun hk hq => ⟨h.within,
      fun m s hm => Nat.le_trans (Nat.add_le_add_right (Nat.le_succ _) _) (hbusy m s hm),
      fun i hi => hfirst i hi fun he => hk (he ▸ hi), hq⟩
  rcases h.pending with ⟨new, hnew⟩ | hdropped
  · -- the rest is still at the front of the queue
    cases rest with
    | nil => exact ⟨gone, [], rfl, hother nofun (.inr nofun)⟩
    | cons i rest =>
      rw [hp, List.cons_append, List.cons.injEq] at hnew
      obtain ⟨rfl, rfl⟩ := hnew
      have hk : k ∉ rest := (List.nodup_cons.mp hnodup).1
      refine ⟨gone ++ [k], rest, List.append_cons .., ?_, ?_,
        fun i hi => hfirst i (List.mem_cons_of_mem _ hi) fun he => hk (he ▸ hi), .inl ⟨new, rfl⟩⟩
      · rwa [List.length_append]
      · rwa [List.length_append]
  · exact ⟨gone, rest, rfl, hother (fun hk => hdropped k hk (hp ▸ List.mem_cons_self))
      (.inr fun i hi hin => hdropped i hi (hp ▸ List.mem_cons_of_mem _ hin))⟩

end Course.Splits

/-- **The tickets `l` are spared** but for the first of them, of which at most `b` can be
dequeued. -/
structure Course.Spares (l : List Nat) (b : Nat) (c : Course σ V) : Prop where
  halted : c.control.Halted
  tickets : Tickets c.accepted c.envelopes.size c.calls
  known : ∀ k ∈ l, k ∈ c.accepted
  split : ∃ gone rest, l = gone ++ rest ∧ c.Splits gone rest b

lemma Course.Step.mem_accepted (hs : c.Step d) {k : Nat} (hk : k ∈ c.accepted) :
    k ∈ d.accepted := by
  cases hs with
  | offers _ => exact List.mem_cons_of_mem _ hk
  | _ => exact hk

theorem Course.Spares.step {l : List Nat} {b : Nat} (h : c.Spares l b) (hl : c.Linked)
    (hnodup : l.Nodup) (hs : c.Step d)
    (hn : d.control.workers.length = c.control.workers.length) : d.Spares l b := by
  obtain ⟨hhalted, htickets, hknown, gone, rest, rfl, hsplit⟩ := h
  refine ⟨?_, htickets.step hs, fun k hk => hs.mem_accepted (hknown k hk), ?_⟩
  · rcases hl.control_step hs with hc | ⟨_, _, _, hc⟩
    · exact hc ▸ hhalted
    · obtain ⟨_, ha⟩ := hl.orderly.advance hc
      exact hhalted.advance ha hn
  · cases hl.draws hhalted htickets hs hn with
    | rests hp hb hy ht =>
      exact ⟨gone, rest, rfl,
        hsplit.rests (fun k hk => hknown k (List.mem_append_right _ hk)) hp hb hy ht⟩
    | takes hw hy hp hd => exact hsplit.takes hl (List.nodup_append.mp hnodup).2.1 hw hy hp hd

end Draws

/-! ### The takes that are left -/

lemma WorkerStage.takes_le_two (s : WorkerStage) (busy : Bool) : s.takes busy ≤ 2 := by
  cases s with
  | entering last => cases last <;> exact Nat.le_of_ble_eq_true rfl
  | cycling last => cases last <;> cases busy <;> decide
  | _ => exact Nat.le_of_ble_eq_true rfl

lemma Control.Halted.takes_eq_zero {c : Control} {n : Nat} {s : WorkerStage} (h : c.Halted)
    (ho : c.Orderly) (hp : c.phase ≠ .stopping) (hs : c.worker? n = some s) (busy : Bool) :
    s.takes busy = 0 := by
  by_cases hstarting : c.phase = .starting
  · rw [h.vacant hstarting n s hs]
    rfl
  · cases hpresent : s.present with
    | false =>
      rw [WorkerStage.eq_finished hpresent]
      rfl
    | true =>
      have hfits := ho.staffed.fits_of_present hs hpresent
      cases s with
      | created => exact absurd hfits (not_or.mpr ⟨hstarting, hp⟩)
      | looking => exact absurd hfits (not_or.mpr ⟨h.closed, hp⟩)
      | entering last | cycling last =>
        cases last with
        | false => exact absurd hfits (not_or.mpr ⟨h.closed, hp⟩)
        | true => exact absurd hfits hp
      | _ => rfl

section Left

variable {c : Course σ V}

/-- **How many tickets may yet be dequeued** by the worker that has yet to be joined. -/
def Course.takesLeft (c : Course σ V) : Nat :=
  match c.control.joinable with
  | none => 0
  | some n => ((c.control.worker? n).map (·.takes (c.busy n))).getD 0

lemma Course.Linked.takes_le (h : c.Linked) {n : Nat} {s : WorkerStage}
    (hs : c.control.worker? n = some s) : s.takes (c.busy n) ≤ c.takesLeft := by
  cases hp : s.present with
  | false =>
    rw [WorkerStage.eq_finished hp]
    exact Nat.zero_le _
  | true =>
    rw [takesLeft, h.orderly.staffed.lone n s hs hp]
    simp only [hs, Option.map_some, Option.getD_some]
    exact Nat.le_refl _

lemma Course.takesLeft_le_two (c : Course σ V) : c.takesLeft ≤ 2 := by
  unfold takesLeft
  split
  · exact Nat.zero_le _
  · cases c.control.worker? _ with
    | none => exact Nat.zero_le _
    | some s => exact s.takes_le_two _

lemma Course.Linked.takesLeft_eq_zero (h : c.Linked) (hh : c.control.Halted)
    (hp : c.control.phase ≠ .stopping) : c.takesLeft = 0 := by
  unfold takesLeft
  split
  · rfl
  · cases hs : c.control.worker? _ with
    | none => rfl
    | some s => exact hh.takes_eq_zero h.orderly hp hs _

lemma Course.Ordered.nodup_pending (h : c.Ordered) : c.pending.Nodup := by
  have hnodup := h.tickets.nodup
  rw [h.split] at hnodup
  exact (List.reverse_perm _).nodup_iff.mp (List.nodup_append.mp hnodup).1

/-- **What is pending is spared** but for what the takes left dequeue of it. -/
lemma Course.Ordered.spares (h : c.Ordered) (hl : c.Linked) (hh : c.control.Halted) :
    c.Spares c.pending c.takesLeft := by
  refine ⟨hh, h.tickets, fun k hk => h.pending_accepted hk, [], c.pending, rfl,
    Nat.zero_le _, fun n s hs => ?_, fun k hk => ⟨fun hb => ?_, fun n hn => ?_⟩,
    .inl ⟨[], (List.append_nil _).symm⟩⟩
  · rw [List.length_nil, Nat.zero_add]
    exact hl.takes_le hs
  · exact h.pending_not_removed hk (h.begun_suffix.1.subset hb)
  · have hremoved : c.removed = k :: c.begun := (h.runs.inHand n _ hn).1
    exact h.pending_not_removed hk (hremoved ▸ List.mem_cons_self)

end Left

namespace Writer

variable {v w w' x : Writer σ V} {config : Config} {target : String} {factory : Option (Factory σ)}
  {resource : σ} {now : Time} {t u : Thread} {j j' : Journal} {after : AfterWalk}

/-- **They are spared along a run** on which no worker is created. -/
lemma spares_along {l : List Nat} {b n : Nat} (hl : w.course.Linked) (hs : w.course.Spares l b)
    (hn : l.Nodup) (h : Along step (fun y => y.control.workers.length = n) w x) :
    x.course.Spares l b := by
  refine (h.keeps (I := fun y => y.course.Linked ∧ y.course.Spares l b) (fun _ => ⟨hl, hs⟩)
    fun y m z hy ⟨hl, hs⟩ hstep hz => ?_).2
  have hcourse := step_course hstep
  exact ⟨hl.step hcourse, hs.step hl hn hcourse (hz.trans hy.symm)⟩

/-- **What a stop reports, and what becomes of it**: `t` walks in the step from `w` to `w'`, and `x`
is seen later. -/
structure Reported (t : Thread) (after : AfterWalk) (w w' x : Writer σ V) : Prop where
  /-- All that is pending is released, and its number is about to be logged. -/
  walked : ∀ k ∈ w.queue.items, (w'.cell k).interrupted = true
  logs : w.queue.items ≠ [] → w'.calls.get? t = some (.reporting w.queue.items.length after)
  /-- It has not been run, and stays so but for the first tickets of it, as many as the worker has
  takes left. -/
  unbegun : ∀ k ∈ w.queue.items, k ∉ w.begun
  spared : ∀ k ∈ w.queue.items.drop w.course.takesLeft, k ∉ x.begun
  /-- These are two at most, and none unless the worker is still stopping. -/
  few : w.course.takesLeft ≤ 2
  ended : w.phase ≠ .stopping → w.course.takesLeft = 0

/-- **Which of the tickets that a stop reports stay unexecuted** until a worker is created. A stop,
also that of a task or of a destruction, may have succeeded or been refused in the control; all of
them stay so once the worker has ended, and otherwise all but those that it may dequeue in the
cycles before it. -/
theorem reported_of_walk (hc : create config target factory resource now u j = (.ok v, j'))
    (hv : Along step Intact v w) (ht : w.calls.get? t = some (.walking after))
    (hs : w.step (.run t) = some w') (hh : w.control.Halted)
    (h : Along step (fun y => y.control.workers.length = w.control.workers.length) w' x) :
    Reported t after w w' x := by
  obtain ⟨hl, ho⟩ := ordered_of_run hc hv
  have hcourse := step_course hs
  have hspares := spares_along (hl.step hcourse)
    ((ho.spares hl hh).step hl ho.nodup_pending hcourse h.start) ho.nodup_pending h
  refine ⟨fun k hk => interrupted_of_walk ho ht hs hk, fun hne => ?_, fun k hk hb => ?_,
    fun k hk => ?_, w.course.takesLeft_le_two, hl.takesLeft_eq_zero hh⟩
  · rw [step_walking ht hs, if_neg hne]
    exact Roster.get?_put_self ..
  · exact ho.pending_not_removed hk (ho.begun_suffix.1.subset hb)
  · obtain ⟨gone, rest, heq, hsplit⟩ := hspares.split
    rw [show w.queue.items = gone ++ rest from heq, List.drop_append,
      List.drop_eq_nil_of_le hsplit.within, List.nil_append] at hk
    exact (hsplit.unbegun k (List.mem_of_mem_drop hk)).1

/-! ### Two stops that give up on the worker -/

/-- A start and three writes that nobody waits for; the worker has begun the first task. -/
def threeWrites (first : Program Nat Unit) : List (Move Nat Unit) :=
  startUp ++ submit 1 first ++ submit 2 (.ret ()) ++ submit 3 (.ret ()) ++ goOn (.worker 0) 4

/-- What a stop that has given up on the worker does after its walk. -/
def givenUp : AfterWalk := .refuse false (.stopExpired ({} : Config).name 30000)

/-- The first task stops the writer, and waits in vain for its own worker to end; of the two tickets
that it reports one is run in the last cycle. -/
theorem reported_of_ownStop : ∃ (v w w' x : Writer Nat Unit) (j : Journal),
    create {} "target" none 0 0 (.client 0) {} = (.ok v, j) ∧ Along step Intact v w ∧
      w.calls.get? (.worker 0) = some (.walking givenUp) ∧ w.step (.run (.worker 0)) = some w' ∧
      w.control.Halted ∧
      Along step (fun y => y.control.workers.length = w.control.workers.length) w' x ∧
      (w.queue.items = [1, 2] ∧ w.course.takesLeft = 1 ∧ x.begun = [1, 0] ∧ x.phase = .terminated) ∧
      Reported (.worker 0) givenUp w w' x := by
  obtain ⟨v, j, hc⟩ : ∃ (v : Writer Nat Unit) (j : Journal),
      create {} "target" none 0 0 (.client 0) {} = (.ok v, j) := ⟨_, _, rfl⟩
  obtain ⟨w, hv, hs⟩ : ∃ w, Along step
      (fun y => (y.calls.entries.all fun e => untouching e.1 e.2) = true) v w ∧
      (w.calls.get? (.worker 0), w.phase, w.queue.items, w.course.takesLeft,
        (w.step (.run (.worker 0))).bind fun w' =>
          (follow step (fun y => y.control.workers.length == w.control.workers.length) w'
            (goOn (.worker 0) 23)).map fun x => (x.begun, x.phase)) =
      (some (.walking givenUp), .stopping, [1, 2], 1, some ([1, 0], .terminated)) := by
    cases hc
    exact exists_along (threeWrites (.stop fun _ => .ret ()) ++ goOn (.worker 0) 5 ++
      [.pass 30000000000] ++ goOn (.worker 0) 2) rfl
  have hv : Along step Intact v w := hv.mono fun y hy t ht => nomatch Roster.of_all hy ht
  simp only [Prod.mk.injEq] at hs
  obtain ⟨ht, hphase, hitems, hleft, hmore⟩ := hs
  obtain ⟨w', hw', hmore⟩ := Option.bind_eq_some_iff.mp hmore
  obtain ⟨x, hx, hseen⟩ := Option.map_eq_some_iff.mp hmore
  simp only [Prod.mk.injEq] at hseen
  have hx : Along step (fun y => y.control.workers.length = w.control.workers.length) w' x :=
    (along_of_follow hx).mono fun y hy => of_decide_eq_true hy
  have hphase : w.control.phase = .stopping := hphase
  have hh : w.control.Halted := ⟨hphase ▸ nofun, fun h => nomatch hphase.symm.trans h⟩
  exact ⟨v, w, w', x, j, hc, hv, ht, hw', hh, hx, ⟨hitems, hleft, hseen⟩,
    reported_of_walk hc hv ht hw' hh hx⟩

/-- The call is no start. -/
def unstarted (_ : Thread) : CallOfWriter σ V → Bool
  | .starting => false
  | _ => true

/-- **A task that a stop has reported is run.** The first task is held up at a gate, and a stop
gives up on the worker: it releases those who wait for the other two, logs that both stay
unexecuted, and ends. The gate opens, and the worker runs one of them in its last cycle; nobody has
called a start. -/
theorem reported_task_runs : ∃ (v w w' x : Writer Nat Unit) (j : Journal),
    create {} "target" none 0 0 (.client 0) {} = (.ok v, j) ∧ Along step Intact v w ∧
      (w.calls.get? (.client 0) = some (.walking givenUp) ∧ w.queue.items = [1, 2]) ∧
      w.step (.run (.client 0)) = some w' ∧
      (w'.calls.get? (.client 0) = some (.reporting 2 givenUp) ∧
        (w'.cell 1).interrupted = true ∧ (w'.cell 2).interrupted = true) ∧
      Along step (fun y => ∀ u, y.calls.get? u ≠ some .starting) w' x ∧
      (x.calls.get? (.client 0) = some (.ended (.error (.refused
        (.stopExpired ({} : Config).name 30000)))) ∧ x.phase = .terminated ∧ 1 ∈ x.begun) := by
  obtain ⟨v, j, hc⟩ : ∃ (v : Writer Nat Unit) (j : Journal),
      create {} "target" none 0 0 (.client 0) {} = (.ok v, j) := ⟨_, _, rfl⟩
  obtain ⟨w, hv, hs⟩ : ∃ w, Along step
      (fun y => (y.calls.entries.all fun e => untouching e.1 e.2) = true) v w ∧
      (w.calls.get? (.client 0), w.queue.items,
        (w.step (.run (.client 0))).map fun w' =>
          ((w'.calls.get? (.client 0), (w'.cell 1).interrupted, (w'.cell 2).interrupted),
            (follow step (fun y => y.calls.entries.all fun e => unstarted e.1 e.2) w'
              (goOn (.client 0) 1 ++ [.openGate "gate"] ++ goOn (.worker 0) 23)).map fun x =>
                (x.calls.get? (.client 0), x.phase, x.begun))) =
      (some (.walking givenUp), [1, 2], some ((some (.reporting 2 givenUp), true, true),
        some (some (.ended (.error (.refused (.stopExpired ({} : Config).name 30000)))),
          .terminated, [1, 0]))) := by
    cases hc
    exact exists_along (threeWrites (.pass "gate" (.ret ())) ++ [.request 0 .stop] ++
      goOn (.client 0) 3 ++ [.pass 30000000000] ++ goOn (.client 0) 2) rfl
  have hv : Along step Intact v w := hv.mono fun y hy t ht => nomatch Roster.of_all hy ht
  simp only [Prod.mk.injEq] at hs
  obtain ⟨ht, hitems, hmore⟩ := hs
  obtain ⟨w', hw', hmore⟩ := Option.map_eq_some_iff.mp hmore
  obtain ⟨hwalked, hmore⟩ := Prod.mk.inj hmore
  simp only [Prod.mk.injEq] at hwalked
  obtain ⟨x, hx, hseen⟩ := Option.map_eq_some_iff.mp hmore
  simp only [Prod.mk.injEq] at hseen
  obtain ⟨hended, hphase, hbegun⟩ := hseen
  have hx : Along step (fun y => ∀ u, y.calls.get? u ≠ some .starting) w' x :=
    (along_of_follow hx).mono fun y hy u hu => nomatch Roster.of_all hy hu
  exact ⟨v, w, w', x, j, hc, hv, ⟨ht, hitems⟩, hw', hwalked, hx, hended, hphase,
    hbegun ▸ List.mem_cons_self⟩

end Writer

end SerialWriter
