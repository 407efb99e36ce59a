import SerialWriter.Proofs.Writer.Nested
import SerialWriter.Proofs.Writer.Resolved

/-!
What the cells of a writer show, whatever its tasks do and whatever becomes of its log: a cell is
claimed by the run of its ticket alone, is blank until its outcome is assigned, and then keeps it,
but for the value, which the write that has waited for it takes away.
-/

namespace SerialWriter

variable {σ V : Type}

/-- What the cell of a ticket must show at a stage of its cycle. -/
def CycleStage.Shows (a : Cell V) : CycleStage σ V → Prop
  | .dequeued _ => a.claimed = false
  | .running _ b => b.Suits a ∧ (b.isPublishing = true → a.ready = false)
  | .counting _ | .measuring _ => a.ready = true

/-- The cells look the same to the runs of their tickets. -/
structure Cell.SameClaim (a b : Cell V) : Prop where
  claimed : b.claimed = a.claimed
  ready : b.ready = a.ready

lemma CycleStage.Shows.congr {a a' : Cell V} {y : CycleStage σ V} (h : y.Shows a)
    (ha : a.SameClaim a') : y.Shows a' := by
  cases y with
  | dequeued k => exact ha.claimed.trans h
  | running k b => exact ⟨h.1.congr ha.claimed ha.ready, fun hb => ha.ready.trans (h.2 hb)⟩
  | counting k => exact ha.ready.trans h
  | measuring k => exact ha.ready.trans h

/-- **Every step of a run shows in its cell as it must.** -/
lemma BodyTurn.shows {e : Envelope σ V} {k : Nat} {b b' : BodyStage σ V} {s s' : σ}
    {d : CellChange V} (h : BodyTurn e b s d b' s') (hb : (CycleStage.running k b).Shows e.cell)
    (hd : e.cell.ready = true → e.cell.claimed = true) :
    (CycleStage.running k b').Shows (d.change e.cell) := by
  refine ⟨h.suits hb.1, fun hpub => ?_⟩
  -- an outcome is decided for a cell that nobody has claimed
  have hblank : e.cell.claimed = false → e.cell.ready = false := fun hc =>
    Bool.eq_false_iff.mpr fun hr => nomatch hc.symm.trans (hd hr)
  cases h with
  | wins v next hc => exact hblank hc
  | blames f hc => exact hblank hc
  | lacks hc => exact hblank hc
  | reaches hp hr =>
    cases hr with
    | claims o p back? hc => exact hblank hc
    | rests _ _ | interrupts _ _ => cases hpub
  | publishes o _ =>
    have hfollows := hb.1.2
    cases b' with
    | publishing o' after => cases hfollows
    | _ => cases hpub
  | fails f back? => cases back? <;> cases hpub
  | _ => cases hpub

lemma BodyTurn.claimed {e : Envelope σ V} {k : Nat} {b b' : BodyStage σ V} {s s' : σ}
    {d : CellChange V} (h : BodyTurn e b s d b' s') (hb : (CycleStage.running k b).Shows e.cell)
    (hd : e.cell.ready = true → e.cell.claimed = true) (hr : (d.change e.cell).ready = true) :
    (d.change e.cell).claimed = true := by
  cases h with
  | publishes o _ => cases o <;> exact hb.1.1
  | reaches _ hprogress =>
    cases hprogress with
    | rests _ _ | interrupts _ _ => exact hd hr
    | claims _ _ _ _ => rfl
  | wins _ _ _ | blames _ _ | lacks _ => rfl
  | _ => exact hd hr

lemma CellChange.blank (d : CellChange V) {a : Cell V}
    (ha : a.ready = false → a.value = none ∧ a.error = none) (hr : (d.change a).ready = false) :
    (d.change a).value = none ∧ (d.change a).error = none := by
  cases d with
  | publishes o => cases o <;> cases hr
  | rests | claims | interrupts => exact ha hr

namespace Affairs

variable {c d : Affairs σ V} {ev : Option (Writer.Event σ V)} {n k : Nat}
  {y y' : CycleStage σ V}

/-- **What the cells show.** The tickets that came are those pending and those taken; only a ticket
taken is claimed, and only a claimed one has an outcome. -/
structure Shown (c : Affairs σ V) : Prop where
  split : c.accepted = c.pending.reverse ++ c.removed
  hand : Lone c.cycles fun y? => ∀ y ∈ y?,
    y.ticket ∈ c.removed ∧ y.Shows (cellAt c.envelopes y.ticket)
  claimed : ∀ k, (cellAt c.envelopes k).claimed = true → k ∈ c.removed
  ready : ∀ k, (cellAt c.envelopes k).ready = true → (cellAt c.envelopes k).claimed = true
  blank : ∀ k, (cellAt c.envelopes k).ready = false →
    (cellAt c.envelopes k).value = none ∧ (cellAt c.envelopes k).error = none

namespace Shown

lemma inHand (h : c.Shown) (hy : c.cycles.get? (.worker n) = some y) :
    y.ticket ∈ c.removed ∧ y.Shows (cellAt c.envelopes y.ticket) :=
  h.hand.inHand n y hy y rfl

lemma unclaimed (h : c.Shown) (hn : c.accepted.Nodup) (hk : k ∈ c.pending) :
    (cellAt c.envelopes k).claimed = false := by
  refine Bool.eq_false_iff.mpr fun hc => ?_
  rw [h.split] at hn
  exact (List.nodup_append.mp hn).2.2 k (List.mem_reverse.mpr hk) k (h.claimed k hc) rfl

/-- A step beside the cycles, which leaves all outcomes alone but may take values away. -/
lemma beside (h : c.Shown) (hy : d.cycles = c.cycles) (ha : d.accepted = c.accepted)
    (hp : d.pending = c.pending) (hr : d.removed = c.removed)
    (hcell : ∀ k, (cellAt c.envelopes k).SameClaim (cellAt d.envelopes k))
    (hface : ∀ k, ((cellAt d.envelopes k).value = none ∨
      (cellAt d.envelopes k).value = (cellAt c.envelopes k).value) ∧
      (cellAt d.envelopes k).error = (cellAt c.envelopes k).error) : d.Shown := by
  refine ⟨by rw [ha, hp, hr, h.split], hy ▸ h.hand.mono fun y? hall y hin => ?_, fun k hc => ?_,
    fun k hready => ?_, fun k hready => ?_⟩
  · obtain ⟨ht, hs⟩ := hall y hin
    exact ⟨hr ▸ ht, hs.congr (hcell _)⟩
  · exact hr ▸ h.claimed k ((hcell k).claimed ▸ hc)
  · exact (hcell k).claimed ▸ h.ready k ((hcell k).ready ▸ hready)
  · obtain ⟨hv, he⟩ := h.blank k ((hcell k).ready ▸ hready)
    obtain ⟨hvalue, herror⟩ := hface k
    exact ⟨hvalue.elim id fun hsame => hsame.trans hv, herror.trans he⟩

lemma put (h : c.Shown) (hl : ∀ m, m ≠ n → c.cycles.get? (.worker m) = none)
    (hy : c.cycles.get? (.worker n) = some y) (hd : d.cycles = c.cycles.put (.worker n) y')
    (ha : d.accepted = c.accepted) (hp : d.pending = c.pending) (hr : d.removed = c.removed)
    (he : d.envelopes = c.envelopes) (ht : y'.ticket = y.ticket)
    (hs : y.Shows (cellAt c.envelopes y.ticket) → y'.Shows (cellAt c.envelopes y.ticket)) :
    d.Shown := by
  obtain ⟨hin, hshows⟩ := h.inHand hy
  refine ⟨by rw [ha, hp, hr, h.split], hd ▸ .put hl ?_, by rw [he, hr]; exact h.claimed,
    he ▸ h.ready, he ▸ h.blank⟩
  rintro _ ⟨⟩
  rw [ht, hr, he]
  exact ⟨hin, hs hshows⟩

lemma drop (h : c.Shown) (hl : ∀ m, m ≠ n → c.cycles.get? (.worker m) = none)
    (hd : d.cycles = c.cycles.drop (.worker n)) (ha : d.accepted = c.accepted)
    (hp : d.pending = c.pending) (hr : d.removed = c.removed)
    (he : d.envelopes = c.envelopes) : d.Shown :=
  ⟨by rw [ha, hp, hr, h.split], hd ▸ .drop hl nofun, by rw [he, hr]; exact h.claimed,
    he ▸ h.ready, he ▸ h.blank⟩

lemma body (h : c.Shown) (hl : ∀ m, m ≠ n → c.cycles.get? (.worker m) = none)
    {b b' : BodyStage σ V} {e : Envelope σ V} {s : σ} {act : CellChange V}
    (hy : c.cycles.get? (.worker n) = some (.running k b)) (he : c.envelopes[k]? = some e)
    (ht : BodyTurn e b c.resource act b' s)
    (hd : d = { c with resource := s, envelopes := changeCellAt c.envelopes k act.change
                       cycles := c.cycles.put (.worker n) (.running k b') }) : d.Shown := by
  subst hd
  obtain ⟨hin, hshows⟩ := h.inHand hy
  have hready := h.ready k
  change (CycleStage.running k b).Shows (cellAt c.envelopes k) at hshows
  have hcell := cellAt_eq he
  rw [hcell] at hready hshows
  have hclaimed : (act.change (cellAt c.envelopes k)).ready = true →
      (act.change (cellAt c.envelopes k)).claimed = true :=
    hcell ▸ ht.claimed hshows hready
  refine ⟨h.split, .put hl ?_,
    forall_cellAt_changeCellAt (fun i a => a.claimed = true → i ∈ c.removed) (fun _ => hin)
      h.claimed,
    forall_cellAt_changeCellAt (fun _ a => a.ready = true → a.claimed = true) hclaimed h.ready,
    forall_cellAt_changeCellAt (fun _ a => a.ready = false → a.value = none ∧ a.error = none)
      (act.blank (h.blank k)) h.blank⟩
  rintro _ ⟨⟩
  refine ⟨hin, ?_⟩
  change (CycleStage.running k b').Shows (cellAt (changeCellAt c.envelopes k act.change) k)
  rw [cellAt_changeCellAt_self he]
  exact ht.shows hshows hready

theorem step (h : c.Shown) (hl : ∀ n y, c.cycles.get? (.worker n) = some y →
      ∀ m, m ≠ n → c.cycles.get? (.worker m) = none) (hn : c.accepted.Nodup)
    (hs : c.Step ev d) : d.Shown := by
  cases hs with
  | walks _ _ =>
    refine h.beside rfl rfl rfl rfl (fun k => ?_) fun k => ?_
    · rw [cellAt_interruptAt]
      split <;> exact ⟨rfl, rfl⟩
    · rw [cellAt_interruptAt]
      split <;> exact ⟨.inr rfl, rfl⟩
  | clears _ =>
    refine ⟨h.split, h.hand.mono fun y? hall y hin => ?_, fun k hc => ?_, h.ready, h.blank⟩
    · exact ⟨List.mem_append_right _ (hall y hin).1, (hall y hin).2⟩
    · exact List.mem_append_right _ (h.claimed k hc)
  | @makes _ _ e _ _ he =>
    have hsame : ∀ i, cellAt (c.envelopes.push e) i = cellAt c.envelopes i :=
      cellAt_push (Envelope.fresh_of_make he).1
    refine h.beside rfl rfl rfl rfl (fun k => ?_) fun k => ?_
    · exact (hsame k).symm ▸ ⟨rfl, rfl⟩
    · exact (hsame k).symm ▸ ⟨.inr rfl, rfl⟩
  | @offers _ _ k _ =>
    refine ⟨?_, h.hand, h.claimed, h.ready, h.blank⟩
    change k :: c.accepted = (c.pending ++ [k]).reverse ++ c.removed
    rw [h.split, List.reverse_append]
    rfl
  | @collects _ _ i _ _ =>
    have hnew := cellAt_changeCellAt_or c.envelopes i fun a => a.take.2
    refine h.beside rfl rfl rfl rfl (fun k => ?_) fun k => ?_
    · exact (hnew k).elim (fun he => he.symm ▸ ⟨rfl, rfl⟩) fun he => he.2.symm ▸ ⟨rfl, rfl⟩
    · exact (hnew k).elim (fun he => he.symm ▸ ⟨.inr rfl, rfl⟩) fun he =>
        he.2.symm ▸ ⟨.inl rfl, rfl⟩
  | @takes n k rest hy hp =>
    have hk : (cellAt c.envelopes k).claimed = false := h.unclaimed hn (hp ▸ List.mem_cons_self)
    refine ⟨?_, .put (fun m _ => hy m) ?_, fun i hc => List.mem_cons_of_mem _ (h.claimed i hc),
      h.ready, h.blank⟩
    · change c.accepted = rest.reverse ++ k :: c.removed
      rw [h.split, hp, List.reverse_cons, List.append_assoc]
      rfl
    · rintro _ ⟨⟩
      exact ⟨List.mem_cons_self, hk⟩
  | idles hy => exact h.drop (fun m _ => hy m) rfl rfl rfl rfl rfl
  | opens hy _ =>
    refine h.put (hl _ _ hy) hy rfl rfl rfl rfl rfl rfl fun hshows => ?_
    refine ⟨BodyStage.suits_begin hshows, fun hpub => ?_⟩
    rename_i e _
    cases he : e.body <;> rw [he] at hpub <;> cases hpub
  | body hy he ht => exact h.body (hl _ _ hy) hy he ht rfl
  | bodyCalls hy _ _ _ hg =>
    exact h.put (hl _ _ hy) hy rfl rfl rfl rfl rfl rfl fun hshows => ⟨⟨hshows.1, hg⟩, nofun⟩
  | @bodyReturns n k r g hy hr =>
    refine h.put (hl _ _ hy) hy rfl rfl rfl rfl rfl rfl fun hshows => ?_
    obtain ⟨⟨hsuits, hg⟩, -⟩ := hshows
    obtain ⟨p, back?, hp⟩ := hg r
    rw [hp]
    exact ⟨hsuits, nofun⟩
  | finishes hy =>
    exact h.put (hl _ _ hy) hy rfl rfl rfl rfl rfl rfl fun hshows => hshows.1.2
  | spoils hy _ => exact h.drop (hl _ _ hy) rfl rfl rfl rfl rfl
  | counts hy => exact h.put (hl _ _ hy) hy rfl rfl rfl rfl rfl rfl id
  | closes hy => exact h.drop (hl _ _ hy) rfl rfl rfl rfl rfl
  | _ => exact ⟨h.split, h.hand, h.claimed, h.ready, h.blank⟩

theorem kept (h : c.Shown) (hs : c.Step ev d) (hr : (cellAt c.envelopes k).ready = true) :
    (cellAt d.envelopes k).ready = true ∧
      (cellAt d.envelopes k).error = (cellAt c.envelopes k).error ∧
      ((cellAt d.envelopes k).value = (cellAt c.envelopes k).value ∨
        ∃ t, ev = some (.collected t k (cellAt c.envelopes k).value)) := by
  cases hs with
  | walks _ _ =>
    rw [cellAt_interruptAt]
    split <;> exact ⟨hr, rfl, .inl rfl⟩
  | makes _ he =>
    rw [cellAt_push (Envelope.fresh_of_make he).1]
    exact ⟨hr, rfl, .inl rfl⟩
  | @collects t _ i _ _ =>
    rw [cellAt_changeCellAt]
    split
    · rename_i hi
      obtain ⟨rfl, -⟩ := hi
      exact ⟨hr, rfl, .inr ⟨t, rfl⟩⟩
    · exact ⟨hr, rfl, .inl rfl⟩
  | @body n i b b' e s act hy he ht =>
    rw [cellAt_changeCellAt]
    split
    · rename_i hi
      obtain ⟨rfl, -⟩ := hi
      cases act with
      | rests | claims | interrupts => exact ⟨hr, rfl, .inl rfl⟩
      | publishes o =>
        cases ht with
        | publishes _ after =>
          -- the outcome that is about to be assigned is the first
          have hblank := (h.inHand hy).2.2 rfl
          cases hr.symm.trans hblank
        | reaches _ hd => cases hd
    · exact ⟨hr, rfl, .inl rfl⟩
  | _ => exact ⟨hr, rfl, .inl rfl⟩

end Shown

end Affairs

/-! ### The tickets of writes -/

def CallOfWriter.ticket? : CallOfWriter σ V → Option Nat
  | .writing _ stage => stage.ticket?
  | _ => none

lemma Cell.ready_of_status {a : Cell V} (h : a.status = .ready) : a.ready = true := by
  unfold status status? at h
  split at h
  · assumption
  · split at h <;> cases h

lemma CallOfWriter.ticket?_of_not_isWrite {a : CallOfWriter σ V} (h : a.isWrite = false) :
    a.ticket? = none := by
  cases a with
  | writing s stage => cases h
  | _ => rfl

namespace Affairs

variable {c d : Affairs σ V} {ev : Option (Writer.Event σ V)} {t : Thread} {k : Nat}
  {a : CallOfWriter σ V}

/-- **Every ticket belongs to one write**, which is told of an outcome only if there is one. -/
structure Held (c : Affairs σ V) : Prop where
  known : ∀ t a k, c.calls.get? t = some a → a.ticket? = some k → k < c.envelopes.size
  apart : ∀ t u a b k, c.calls.get? t = some a → c.calls.get? u = some b →
    a.ticket? = some k → b.ticket? = some k → t = u
  told : ∀ t s k, c.calls.get? t = some (.writing s (.told k .ready)) →
    (cellAt c.envelopes k).ready = true

/-- **Where a ticket comes from** that `t` holds in its call `a` after a step: `t` held it before,
and finds the outcome there if it has just been told of one, or `t` has just been given it. -/
inductive Came (c : Affairs σ V) (ev : Option (Writer.Event σ V)) (t : Thread) (k : Nat)
    (a : CallOfWriter σ V) : Prop
  | held {b : CallOfWriter σ V} (hb : c.calls.get? t = some b) (hk : b.ticket? = some k)
      (hready : (∃ s, a = .writing s (.told k .ready)) →
        b = a ∨ (cellAt c.envelopes k).ready = true) : Came c ev t k a
  | made {s : Submission σ V} (hk : k = c.envelopes.size) (ha : a = .writing s (.offering k))
      (hev : ev = some (.made t s k)) : Came c ev t k a

lemma Step.came (hs : c.Step ev d) (ht : d.calls.get? t = some a) (hk : a.ticket? = some k) :
    c.Came ev t k a := by
  -- the call of one thread is another one, and the others are what they were
  have hold : c.calls.get? t = some a → c.Came ev t k a := fun h => .held h hk fun _ => .inl rfl
  have hput : ∀ {u : Thread} {a' : CallOfWriter σ V}, d.calls = c.calls.put u a' →
      (t = u → a = a' → c.Came ev t k a) → c.Came ev t k a := by
    intro u a' hd hown
    rw [hd, Roster.get?_put] at ht
    split at ht
    · rename_i htu
      exact hown htu (Option.some.inj ht).symm
    · exact hold ht
  have hnone : ∀ {u : Thread} {a' : CallOfWriter σ V}, a'.ticket? = none →
      d.calls = c.calls.put u a' → c.Came ev t k a := fun ha' hd => hput hd fun _ ha => by
    rw [← ha, hk] at ha'
    cases ha'
  have hgoes : ∀ {u : Thread} {a' b : CallOfWriter σ V}, c.calls.get? u = some b →
      d.calls = c.calls.put u a' → (∀ i, a'.ticket? = some i → b.ticket? = some i) →
      (∀ s, a' ≠ .writing s (.told k .ready)) → c.Came ev t k a :=
    fun hu hd hi hne => hput hd fun htu ha =>
      .held (htu ▸ hu) (hi k (ha ▸ hk)) fun ⟨s, hs⟩ => absurd (ha.symm.trans hs) (hne s)
  cases hs with
  | turns _ ha | walks _ ha => exact hnone (CallOfWriter.ticket?_of_not_isWrite ha) rfl
  | clears _ | requests _ | admits _ | refuses _ _ | misses _ | drops _ | parts _ _
  | collects _ _ => exact hnone rfl rfl
  | bodyCalls _ _ _ ha _ =>
    refine hnone ?_ rfl
    rcases ha with ha | ⟨s, rfl⟩
    · exact CallOfWriter.ticket?_of_not_isWrite ha
    · rfl
  | quits _ | bodyReturns _ _ =>
    rw [Roster.get?_drop, Option.ite_none_left_eq_some] at ht
    exact hold ht.2
  | makes _ _ =>
    refine hput rfl fun htu ha => ?_
    rw [ha] at hk
    obtain rfl := Option.some.inj hk
    exact .made rfl ha (by rw [htu])
  | offers hu | notifies hu => exact hgoes hu rfl (fun _ hi => hi) fun _ => nofun
  | submits hu ha =>
    refine hgoes hu rfl (fun i hi => ?_) fun s hw => ?_
    · rcases ha with rfl | ⟨e, rfl⟩
      · cases hi
      · exact hi
    · rcases ha with rfl | ⟨e, rfl⟩ <;> cases hw
  | hears hu =>
    refine hput rfl fun htu ha => .held (htu ▸ hu) ?_ fun ⟨s, hs⟩ => .inr ?_
    · rw [ha] at hk
      exact hk
    · rw [ha] at hs
      simp only [CallOfWriter.writing.injEq, WriteStage.told.injEq] at hs
      obtain ⟨-, rfl, hst⟩ := hs
      exact Cell.ready_of_status hst
  | _ => exact hold ht

lemma Step.size_le (hs : c.Step ev d) : c.envelopes.size ≤ d.envelopes.size ∧
    ∀ t s k, ev = some (.made t s k) → d.envelopes.size = c.envelopes.size + 1 := by
  cases hs with
  | makes _ _ => exact ⟨by simp, fun _ _ _ _ => Array.size_push ..⟩
  | walks _ _ => exact ⟨Nat.le_of_eq (size_interruptAt ..).symm, fun _ _ _ h => nomatch h⟩
  | collects _ _ => exact ⟨Nat.le_of_eq (size_changeCellAt ..).symm, fun _ _ _ h => nomatch h⟩
  | @body _ _ _ _ _ _ act _ _ _ =>
    exact ⟨Nat.le_of_eq (size_changeCellAt ..).symm, fun _ _ _ h => by cases act <;> cases h⟩
  | _ => exact ⟨Nat.le_refl _, fun _ _ _ h => nomatch h⟩

theorem Held.step (h : c.Held) (hshown : c.Shown) (hs : c.Step ev d) : d.Held := by
  obtain ⟨hsize, hmade⟩ := hs.size_le
  refine ⟨fun t a k ht hk => ?_, fun t u a b k ht hu hk hk' => ?_, fun t s k ht => ?_⟩
  · cases hs.came ht hk with
    | held hb hbk _ => exact Nat.lt_of_lt_of_le (h.known t _ k hb hbk) hsize
    | made hk _ hev =>
      have := hmade t _ k hev
      omega
  · cases hs.came ht hk with
    | held hx hxk _ =>
      cases hs.came hu hk' with
      | held hy hyk _ => exact h.apart t u _ _ k hx hy hxk hyk
      | made hnew _ _ =>
        have := h.known t _ k hx hxk
        omega
    | made hnew _ hev =>
      cases hs.came hu hk' with
      | held hy hyk _ =>
        have := h.known u _ k hy hyk
        omega
      | made _ _ hev' =>
        rw [hev, Option.some.injEq, Writer.Event.made.injEq] at hev'
        exact hev'.1
  · cases hs.came ht rfl with
    | held hb _ hready =>
      rcases hready ⟨s, rfl⟩ with rfl | hready
      · exact (hshown.kept hs (h.told t s k hb)).1
      · exact (hshown.kept hs hready).1
    | made _ ha _ => cases ha

end Affairs

namespace Writer

variable {w₀ w v : Writer σ V} {config : Config} {target : String} {factory : Option (Factory σ)}
  {resource : σ} {now : Time} {t : Thread} {j j' : Journal} {m : Move σ V}

/-- **Every life of a writer**: its threads fit together, its tickets are known, and its cells show
what they must to the writes that hold them. -/
structure Faithful (w : Writer σ V) : Prop where
  tuned : w.Tuned
  known : w.course.Known
  shown : w.affairs.Shown
  held : w.affairs.Held

namespace Faithful

lemma alone (h : w.Faithful) (n : Nat) (y : CycleStage σ V)
    (hy : w.affairs.cycles.get? (.worker n) = some y) (i : Nat) (hi : i ≠ n) :
    w.affairs.cycles.get? (.worker i) = none := by
  obtain ⟨last, hw⟩ := h.tuned.linked.cycling (c := w.course) hy
  exact h.tuned.linked.others hw hi

lemma affairs_step (h : w.Faithful) (hs : w.step m = some v) :
    w.affairs.Step (w.note m v) v.affairs := affairs_of_step h.tuned.linked hs

lemma step (h : w.Faithful) (hs : w.step m = some v) : v.Faithful :=
  ⟨h.tuned.step hs, h.known.step (step_course hs),
    h.shown.step h.alone h.known.tickets.nodup (h.affairs_step hs),
    h.held.step h.shown (h.affairs_step hs)⟩

end Faithful

lemma Reachable.faithful (hc : create config target factory resource now t j = (.ok w₀, j'))
    (h : Reachable w₀ w) : w.Faithful := by
  induction h with
  | refl =>
    have hnew := affairs_of_create hc
    refine ⟨Reachable.tuned hc .refl, ?_, ?_, ?_⟩
    · rw [course_of_create hc]
      exact ⟨⟨.nil, nofun, nofun, nofun⟩, nofun, nofun⟩
    · rw [hnew]
      exact ⟨rfl, ⟨nofun, fun _ => nofun⟩, nofun, nofun, fun _ _ => ⟨rfl, rfl⟩⟩
    · rw [hnew]
      refine ⟨fun _ _ _ ht => ?_, fun _ _ _ _ _ ht => ?_, fun _ _ _ ht => ?_⟩ <;> cases ht
  | step m _ hs ih => exact ih.step hs

end Writer

end SerialWriter
