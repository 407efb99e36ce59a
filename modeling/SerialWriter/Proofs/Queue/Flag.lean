import SerialWriter.Proofs.Queue.Traffic

/-!
The flag that asks the consumer of a shared queue not to wait. It is up as long as someone has woken
the consumer and no take has come to its end since; that ends a wait before its time, and apart from
an item nothing else does.
-/

namespace SerialWriter.SharedQueue

variable {α : Type} {n : Nat} {es : List (Event α)} {s s' : Scene α} {m : Move α} {r : Reply α}
  {t : Thread} {d : Time} {b : Bool}

/-! ### Calls for the consumer -/

/-- **The consumer has been called**: someone has woken it since the last take came to its end, or
since the beginning. -/
def Called (es : List (Event α)) : Prop :=
  ∃ es₁ t es₂, es = es₁ ++ .woke t :: es₂ ∧ ∀ u x, .took u x ∉ es₂

lemma called_of_woke (es : List (Event α)) (t : Thread) : Called (es ++ [.woke t]) :=
  ⟨es, t, [], rfl, fun _ _ => List.not_mem_nil⟩

/-- The last event decides: a call makes the consumer called, and the end of a take undoes it. -/
lemma called_concat_iff {e : Event α} :
    Called (es ++ [e]) ↔ (∃ t, e = .woke t) ∨ Called es ∧ ∀ u x, e ≠ .took u x := by
  constructor
  · rintro ⟨es₁, u, es₂, hes, hno⟩
    rcases List.eq_nil_or_concat es₂ with rfl | ⟨es', e', rfl⟩
    · exact .inl ⟨u, List.singleton_inj.mp (List.append_inj' hes rfl).2⟩
    · rw [List.concat_eq_append] at hno
      rw [List.concat_eq_append, ← List.cons_append, ← List.append_assoc] at hes
      obtain ⟨hinit, he⟩ := List.append_inj' hes rfl
      obtain rfl := List.singleton_inj.mp he
      exact .inr ⟨⟨es₁, u, es', hinit, fun v x hx => hno v x (List.mem_append_left _ hx)⟩,
        fun v x hx => hno v x (List.mem_append_right _ (hx ▸ List.mem_singleton_self _))⟩
  · rintro (⟨t, rfl⟩ | ⟨⟨es₁, u, es₂, rfl, hno⟩, he⟩)
    · exact called_of_woke es t
    · refine ⟨es₁, u, es₂ ++ [e], by simp, fun v x hx => ?_⟩
      rcases List.mem_append.mp hx with hx | hx
      · exact hno v x hx
      · exact he v x (List.mem_singleton.mp hx).symm

lemma not_called_of_took (es : List (Event α)) (t : Thread) (x : Option α) :
    ¬ Called (es ++ [.took t x]) := by
  rw [called_concat_iff]
  rintro (⟨u, hu⟩ | ⟨-, hno⟩)
  · cases hu
  · exact hno t x rfl

lemma called_append_iff {e : Event α} (hw : ∀ t, e ≠ .woke t) (ht : ∀ t x, e ≠ .took t x) :
    Called (es ++ [e]) ↔ Called es := by
  rw [called_concat_iff]
  constructor
  · rintro (⟨t, he⟩ | ⟨hc, -⟩)
    · exact (hw t he).elim
    · exact hc
  · exact fun hc => .inr ⟨hc, ht⟩

lemma not_called_of_unwoken {es' : List (Event α)} (h : ¬ Called es) (hw : ∀ t, .woke t ∉ es') :
    ¬ Called (es ++ es') := by
  induction es' generalizing es with
  | nil => rwa [List.append_nil]
  | cons e es' ih =>
    rw [List.append_cons]
    refine ih (fun hc => ?_) fun t ht => hw t (List.mem_cons_of_mem _ ht)
    rcases called_concat_iff.mp hc with ⟨t, rfl⟩ | ⟨hc, -⟩
    · exact hw t List.mem_cons_self
    · exact h hc

/-! ### The flag -/

lemma awake_of_turn (ht : s.Turn m r s') (h : s.shared.queue.awake = true ↔ Called es) :
    s'.shared.queue.awake = true ↔ Called (es ++ (s.noted m r).toList) := by
  have htook : ∀ (q : SharedQueue α) (v : Thread) (x : Option α),
      (q.pop v).2.queue.awake = true ↔ Called (es ++ [.took v x]) := fun q v x => by
    rw [awake_pop]
    exact iff_of_false Bool.false_ne_true (not_called_of_took es v x)
  have hquiet : Called es ↔ Called (es ++ (none : Option (Event α)).toList) := by
    rw [Option.toList_none, List.append_nil]
  cases ht with
  | accepts _ ho =>
    rw [(offer_stages ho).1, h]
    refine (called_append_iff ?_ ?_).symm <;> intros <;> nofun
  | refuses _ _ | clears _ | visits _ =>
    refine h.trans (called_append_iff ?_ ?_).symm <;> intros <;> nofun
  | wakes _ => exact iff_of_true rfl (called_of_woke ..)
  | notifies hn =>
    rw [(notifies_of_notify hn).rouses.awake]
    exact h.trans hquiet
  | takes _ _ | ends _ _ => exact htook ..
  | waits _ _ _ | waitsOn _ _ _ | passes => exact h.trans hquiet
  | stirs =>
    rw [(Rouses.rouse _ _).awake]
    exact h.trans hquiet

theorem awake_iff_of_run (h : Run n es s) : s.shared.queue.awake = true ↔ Called es := by
  induction h with
  | refl _ =>
    refine iff_of_false Bool.false_ne_true ?_
    rintro ⟨es₁, _, _, hes, -⟩
    cases es₁ <;> cases hes
  | step m _ hs _ ih =>
    obtain ⟨r, -, ht, hn⟩ := Scene.exists_turn hs
    rw [hn]
    exact awake_of_turn ht ih

/-! ### Who waits -/

/-- The thread waits inside a take. -/
def Waiting (t : Thread) (s : Scene α) : Prop :=
  ∃ d b, s.shared.stages.get? t = some (.waiting d b)

instance (t : Thread) (s : Scene α) : Decidable (Waiting t s) :=
  match h : s.shared.stages.get? t with
  | some (.waiting d b) => .isTrue ⟨d, b, h⟩
  | some (.notifying _) => .isFalse fun ⟨_, _, hw⟩ => nomatch h.symm.trans hw
  | none => .isFalse fun ⟨_, _, hw⟩ => nomatch h.symm.trans hw

/-- Someone is about to tell all who wait. -/
def Ringing (q : SharedQueue α) : Prop := ∃ u, q.stages.get? u = some (.notifying true)

/-- **With the flag up, whoever waits has been told** to look again, or is about to be told. -/
def Heard (q : SharedQueue α) : Prop :=
  q.queue.awake = true → ∀ t d, q.stages.get? t = some (.waiting d false) → Ringing q

lemma heard_of_lowered {q : SharedQueue α} (h : q.queue.awake = false) : Heard q := fun ha => by
  rw [h] at ha
  cases ha

lemma lowered_of_unsettled {q : SharedQueue α} (h : q.queue.settled = false) :
    q.queue.awake = false := by
  cases ha : q.queue.awake with
  | false => rfl
  | true => exact (settled_of_awake ha).symm.trans h

lemma notify_everyone {q : SharedQueue α} (h : q.stages.get? t = some (.notifying true))
    (chosen : Option Thread) : q.notify t chosen = q.notify t none := by
  simp only [notify, h]

lemma Heard.rouses {q q' : SharedQueue α} (h : Heard q) (hr : Rouses q q') : Heard q' := by
  intro ha v d hv
  obtain ⟨b, hb, hle⟩ := hr.waiting hv
  cases b with
  | true => cases hle rfl
  | false =>
    obtain ⟨u, hu⟩ := h (hr.awake ▸ ha) v d hb
    exact ⟨u, hr.notifying.mpr hu⟩

lemma Heard.put {q : SharedQueue α} (h : Heard q) (hi : q.stages.get? t = none)
    (everyone : Bool) :
    Heard { q with stages := q.stages.put t (.notifying everyone) } := by
  intro ha v d hv
  have hvt : v ≠ t := by
    rintro rfl
    rw [Roster.get?_put_self] at hv
    cases hv
  rw [Roster.get?_put_ne _ _ hvt] at hv
  obtain ⟨u, hu⟩ := h ha v d hv
  have hut : u ≠ t := by
    rintro rfl
    cases hu.symm.trans hi
  exact ⟨u, (Roster.get?_put_ne _ _ hut).trans hu⟩

lemma heard_of_turn (h : Heard s.shared) (ht : s.Turn m r s') : Heard s'.shared := by
  cases ht with
  | accepts hi ho =>
    obtain ⟨ha, hst⟩ := offer_stages ho
    have hput := h.put hi false
    intro hq v d hv
    rw [Ringing, hst]
    exact hput (ha ▸ hq) v d (hst ▸ hv)
  | refuses _ _ | visits _ | passes => exact h
  | wakes _ => exact fun _ _ _ _ => ⟨_, Roster.get?_put_self ..⟩
  | @notifies t chosen q hn =>
    have hnot := notifies_of_notify hn
    obtain ⟨b, hb⟩ := hnot.stage
    cases b with
    | true =>
      -- nobody is left to be told
      rw [notify_everyone hb] at hn
      intro _ v d hv
      cases (notifies_of_notify hn).all rfl v d false hv
    | false =>
      refine Heard.rouses (fun ha v d hv => ?_) hnot.rouses
      rw [Roster.get?_drop, Option.ite_none_left_eq_some] at hv
      obtain ⟨u, hu⟩ := h ha v d hv.2
      have hut : u ≠ t := by
        rintro rfl
        cases hu.symm.trans hb
      exact ⟨u, (Roster.get?_drop_ne _ hut).trans hu⟩
  | takes _ _ | ends _ _ => exact heard_of_lowered (awake_pop ..)
  | waits _ _ hs | waitsOn _ hs _ => exact heard_of_lowered (lowered_of_unsettled hs)
  | clears _ => exact h
  | stirs => exact h.rouses (.rouse _ _)

lemma heard_of_run (h : Run n es s) : Heard s.shared := by
  induction h with
  | refl _ => exact heard_of_lowered rfl
  | step m _ hs _ ih =>
    obtain ⟨r, -, ht, -⟩ := Scene.exists_turn hs
    exact heard_of_turn ih ht

lemma deadline_of_turn {d' : Time} {b' : Bool} (ht : s.Turn m r s')
    (hd : s.shared.stages.get? t = some (.waiting d b))
    (hd' : s'.shared.stages.get? t = some (.waiting d' b')) : d' = d := by
  have hsame : ∀ {b''}, s.shared.stages.get? t = some (.waiting d' b'') → d' = d := fun h => by
    cases h.symm.trans hd
    rfl
  have hother : ∀ {v stage}, s.shared.stages.get? v = none →
      (s.shared.stages.put v stage).get? t = some (.waiting d' b') → d' = d := fun {v _} hv h => by
    have htv : t ≠ v := by
      rintro rfl
      cases hd.symm.trans hv
    exact hsame ((Roster.get?_put_ne _ _ htv).symm.trans h)
  have hdrop : ∀ {v b''}, (s.shared.stages.drop v).get? t = some (.waiting d' b'') → d' = d :=
    fun h => by
      rw [Roster.get?_drop, Option.ite_none_left_eq_some] at h
      exact hsame h.2
  cases ht with
  | accepts hi ho => exact hother hi ((offer_stages ho).2 ▸ hd')
  | refuses _ _ | visits _ | passes | clears _ => exact hsame hd'
  | wakes hi | waits hi _ _ => exact hother hi hd'
  | notifies hn =>
    obtain ⟨b'', hb'', -⟩ := (notifies_of_notify hn).rouses.waiting hd'
    exact hdrop hb''
  | takes _ _ | ends _ _ => exact hdrop hd'
  | @waitsOn v dv hv _ _ =>
    change (s.shared.stages.put v (.waiting dv false)).get? t = _ at hd'
    rw [Roster.get?_put] at hd'
    split at hd'
    · rename_i htv
      cases hd'
      exact hsame (htv ▸ hv)
    · exact hsame hd'
  | stirs =>
    obtain ⟨b'', hb'', -⟩ := (Rouses.rouse _ _).waiting hd'
    exact hsame hb''

/-! ### A take from its beginning to its end -/

/-- **A take of `t` about to do `m`, its first section or a later one.** It began at `start` with a
budget and with nothing pending, and `es` has been noted so far. -/
inductive AtSection (n : Nat) (t : Thread) (budget : Int) :
    Move α → Time → List (Event α) → Scene α → Prop
  | first {es : List (Event α)} {s : Scene α} (h : Run n es s)
      (hi : s.shared.stages.get? t = none) (hb : 0 < budget) (hn : s.shared.items = []) :
      AtSection n t budget (.take t budget) s.now es s
  | later {es₀ es : List (Event α)} {s₀ s₁ s : Scene α} (h₀ : Run n es₀ s₀)
      (hi : s₀.shared.stages.get? t = none) (hb : 0 < budget) (hn : s₀.shared.items = [])
      (hs : s₀.step (.take t budget) = some (.quiet, s₁))
      (h : Chronicle Scene.next Scene.note (Waiting t) s₁ es s) :
      AtSection n t budget (.retake t) s₀.now (es₀ ++ es) s

/-- **What a take is told before its time is up**: called, it ends without an item if nothing is
pending; not called, it waits on if nothing is pending. -/
def ToldAsCalled (es : List (Event α)) (s : Scene α) (r : Reply α) : Prop :=
  (r = .took none ↔ Called es ∧ s.shared.items = []) ∧
    (r = .quiet ↔ ¬ Called es ∧ s.shared.items = [])

section Takes

variable {budget : Int} {start : Time}

lemma waiting_of_later {s₀ s₁ : Scene α} (hs : s₀.step (.take t budget) = some (.quiet, s₁))
    (h : Chronicle Scene.next Scene.note (Waiting t) s₁ es s) :
    ∃ b, s.shared.stages.get? t = some (.waiting (s₀.now.after budget) b) := by
  induction h with
  | refl _ =>
    cases Scene.turn_of_step hs with
    | waits _ _ _ => exact ⟨false, Roster.get?_put_self ..⟩
  | step m _ hs' hv ih =>
    obtain ⟨b, hb⟩ := ih
    obtain ⟨d', b', hb'⟩ := hv
    obtain ⟨r, -, ht, -⟩ := Scene.exists_turn hs'
    exact ⟨b', deadline_of_turn ht hb hb' ▸ hb'⟩

lemma AtSection.run (h : AtSection n t budget m start es s) : Run n es s := by
  cases h with
  | first h _ _ _ => exact h
  | later h₀ _ _ _ hs h =>
    have h₁ := h₀.snoc hs
    rw [show Scene.noted _ _ _ = none from rfl, Option.toList_none, List.append_nil] at h₁
    exact Chronicle.trans h₁ (h.mono fun _ _ => trivial)

/-- **What a take finds at a section before its time is up**: called, or with an item pending, it
ends; otherwise it waits on. -/
lemma early_of_section (h : AtSection n t budget m start es s) (hd : s.now < start.after budget)
    (hs : s.step m = some (r, s')) : ToldAsCalled es s r := by
  have hflag := awake_iff_of_run h.run
  -- by what is pending and by the flag, whichever section it is
  have hends : s.shared.queue.settled = true → ∀ v,
      ToldAsCalled es s (.took (s.shared.pop v).1) := by
    intro hset v
    rw [ToldAsCalled, Reply.took.injEq, pop_fst_eq, List.head?_eq_none_iff, ← hflag]
    have hcases := settled_iff.mp hset
    constructor
    · exact ⟨fun hn => ⟨hcases.resolve_left fun hne => hne hn, hn⟩, fun h => h.2⟩
    · exact ⟨nofun, fun h => (hcases.elim (fun hne => hne h.2) h.1).elim⟩
  have hwaits : s.shared.queue.settled = false → ToldAsCalled es s .quiet := by
    intro hset
    have hnot := mt settled_iff.mpr (Bool.eq_false_iff.mp hset)
    rw [not_or, Decidable.not_not, hflag] at hnot
    exact ⟨⟨nofun, fun h => (hnot.2 h.1).elim⟩, fun _ => ⟨hnot.2, hnot.1⟩, fun _ => rfl⟩
  have hturn := Scene.turn_of_step hs
  cases h with
  | first _ _ hb _ =>
    cases hturn with
    | takes _ h => exact hends (h.resolve_left (Int.not_le.mpr hb)) t
    | waits _ _ h => exact hwaits h
  | later _ _ _ _ hs₀ hrun =>
    obtain ⟨b, hw⟩ := waiting_of_later hs₀ hrun
    cases hturn with
    | ends ht h =>
      cases ht.symm.trans hw
      exact hends (h.resolve_right (Int.not_le.mpr hd)).1 t
    | waitsOn _ h _ => exact hwaits h

/-- A take that has been called comes to its end as soon as it goes on, once all who wait have been
told. -/
lemma ends_of_called (h : AtSection n t budget m start es s) (hc : Called es)
    (hr : ¬ Ringing s.shared) : ∃ x s', s.step m = some (.took x, s') := by
  have ha := (awake_iff_of_run h.run).mpr hc
  have hheard := heard_of_run h.run
  cases h with
  | first _ hi _ _ =>
    have himm : s.shared.queue.immediate budget = true := by
      rw [Queue.immediate, settled_of_awake ha, Bool.or_true]
    refine ⟨(s.shared.pop t).1, { s with shared := (s.shared.pop t).2 }, ?_⟩
    simp only [Scene.step, hi, take, himm, if_true]
  | later _ _ _ _ hs₀ hrun =>
    obtain ⟨b, hw⟩ := waiting_of_later hs₀ hrun
    cases b with
    | false => exact (hr (hheard ha _ _ hw)).elim
    | true =>
      refine ⟨(s.shared.pop t).1, { s with shared := (s.shared.pop t).2 }, ?_⟩
      simp only [Scene.step, retake_of_awake ha hw]

lemma ends_of_due (h : AtSection n t budget (.retake t) start es s)
    (hd : start.after budget ≤ s.now) :
    ∃ s', s.step (.retake t) = some (.took s.shared.items.head?, s') := by
  cases h with
  | later _ _ _ _ hs₀ hrun =>
    obtain ⟨b, hw⟩ := waiting_of_later hs₀ hrun
    refine ⟨{ s with shared := (s.shared.pop t).2 }, ?_⟩
    rw [← pop_fst_eq s.shared t]
    simp only [Scene.step, retake, hw, hd, or_true, if_true]

end Takes

/-! ### Every run -/

/-- **What the flag of a queue means**, at the end of a run and in whatever follows. -/
structure Heeds (n : Nat) (es : List (Event α)) (s : Scene α) : Prop where
  /-- The flag is up exactly if the consumer has been called. -/
  flag : s.shared.queue.awake = true ↔ Called es
  /-- As long as its time is not up, by the deadline as the clock counts it, a take that has found
  nothing pending ends without an item exactly if the consumer has been called and nothing is
  pending, and waits on exactly if it has not been called and nothing is pending. -/
  early : ∀ t budget m start r s', AtSection n t budget m start es s →
    s.now < start.after budget → s.step m = some (r, s') → ToldAsCalled es s r
  /-- So it does as long as its budget is not spent, if the clock can count that far. -/
  exact : ∀ t budget m start r s', AtSection n t budget m start es s →
    Time.InWord (start + budget * 1000000) → s.now < start + budget * 1000000 →
      s.step m = some (r, s') → ToldAsCalled es s r
  /-- Once its time is up, a take that waits can go on and ends with what is pending. -/
  due : ∀ t budget start, AtSection n t budget (.retake t) start es s →
    start.after budget ≤ s.now → ∃ s', s.step (.retake t) = some (.took s.shared.items.head?, s')
  /-- Called, a take can go on and ends, once the call is over. -/
  prompt : ∀ t budget m start, AtSection n t budget m start es s → Called es →
    ¬ Ringing s.shared → ∃ x s', s.step m = some (.took x, s')
  /-- With an item pending, or without a budget, a take does not wait. -/
  atOnce : ∀ t budget, s.shared.stages.get? t = none → s.shared.items ≠ [] ∨ budget ≤ 0 →
    ∃ s', s.step (.take t budget) = some (.took s.shared.items.head?, s')
  /-- Every take that comes to its end lowers the flag, however often the consumer was called, and
  it stays down until the next call. -/
  spent : ∀ m x s', s.step m = some (.took x, s') → ∀ es' u,
    Chronicle Scene.next Scene.note (fun _ => True) s' es' u → (∀ t, .woke t ∉ es') →
      u.shared.queue.awake = false
  /-- A call leaves what is pending as it is, and so does its notification. -/
  harmless : ∀ t chosen r s',
    s.step (.wake t) = some (r, s') ∨ s.step (.notify t chosen) = some (r, s') →
      s'.shared.items = s.shared.items
  /-- Whatever calls there were, what went in is what went out, in order, and what is pending. -/
  order : (arrivals es).map (·.2) = departures es ++ s.shared.items

/-- **The flag means the same in every run**: that the consumer has been called since the last take
came to its end. -/
theorem heeds_of_run (h : Run n es s) : Heeds n es s := by
  refine ⟨awake_iff_of_run h, fun _ _ _ _ _ _ hsec hd hs => early_of_section hsec hd hs,
    fun _ _ _ _ _ _ hsec hfits hd hs => ?_, fun _ _ _ hsec hd => ends_of_due hsec hd,
    fun _ _ _ _ hsec hc hr => ends_of_called hsec hc hr, fun t budget hi hb => ?_,
    fun m x s' hs es' u hu hw => ?_, fun t chosen r s' hs => ?_, (served_of_run h).order⟩
  · exact early_of_section hsec (Time.after_of_inWord hfits ▸ hd) hs
  · have himm : s.shared.queue.immediate budget = true := by
      rw [Queue.immediate, Bool.or_eq_true, decide_eq_true_eq, settled_iff]
      exact hb.elim (fun hne => .inr (.inl hne)) .inl
    refine ⟨{ s with shared := (s.shared.pop t).2 }, ?_⟩
    rw [← pop_fst_eq s.shared t]
    simp only [Scene.step, hi, take, himm, if_true]
  · have hnoted : ∃ v, s.noted m (.took x) = some (.took v x) := by
      cases Scene.turn_of_step hs with
      | takes _ _ | ends _ _ => exact ⟨_, rfl⟩
    obtain ⟨v, hv⟩ := hnoted
    have hrun := h.snoc hs
    rw [hv] at hrun
    have hflag := awake_iff_of_run (hrun.trans hu)
    exact Bool.eq_false_iff.mpr
      (mt hflag.mp (not_called_of_unwoken (not_called_of_took es v x) hw))
  · rcases hs with hs | hs
    · cases Scene.turn_of_step hs with
      | wakes _ => rfl
    · cases Scene.turn_of_step hs with
      | notifies hn => exact (SameLog.notify hn).items

/-- While the consumer waits, an item comes and is dropped again, it wakes up for no reason, and
then it is called. -/
def lateCallMoves : List (Move Nat) :=
  [.offer (.client 0) 10, .notify (.client 0) (some (.client 9)), .clear (.client 0),
    .retake (.client 9), .stir (.client 9), .retake (.client 9), .pass 2, .wake (.client 1),
    .notify (.client 1) none]

def lateCallEvents : List (Event Nat) :=
  [.offered (.client 0) 10 true, .cleared (.client 0) [10], .woke (.client 1)]

theorem heeds_of_lateCall : ∃ s : Scene Nat,
    AtSection 2 (.client 9) 5 (.retake (.client 9)) 0 lateCallEvents s ∧ s.now = 2 ∧
      Called lateCallEvents ∧ (s.step (.retake (.client 9))).map (·.1) = some (.took none) ∧
      Heeds 2 lateCallEvents s := by
  obtain ⟨es, s, h, hf⟩ : ∃ es s,
      Chronicle Scene.next Scene.note (fun s => decide (Waiting (.client 9) s) = true)
        { shared := { queue := { capacity := 2 },
                      stages := ⟨[(.client 9, .waiting 5000000 false)]⟩ } } es s ∧
        (es, s.now, (s.step (.retake (.client 9))).map (·.1)) =
          (lateCallEvents, 2, some (.took none)) := exists_chronicle lateCallMoves rfl
  obtain ⟨rfl, hnow, hend⟩ := Prod.mk.inj hf |>.imp id Prod.mk.inj
  have hwait : Chronicle Scene.next Scene.note (Waiting (.client 9)) _ lateCallEvents s :=
    h.mono fun _ => of_decide_eq_true
  have hsec : AtSection 2 (.client 9) 5 (.retake (.client 9)) 0 lateCallEvents s :=
    .later (.refl trivial) rfl (show (0 : Int) < 5 by decide) rfl rfl hwait
  exact ⟨s, hsec, hnow, called_of_woke [_, _] _, hend, heeds_of_run hsec.run⟩

/-- **The longest budget there is ends a take at once**: its deadline, beyond what the clock can
count, comes out as a moment that is past, so that a take that nobody has called ends without an
item while its budget is not spent. -/
theorem uncalled_take_ends_of_longestBudget : ∃ s s' : Scene Nat,
    AtSection 2 (.client 9) 9223372036854775807 (.retake (.client 9)) 0 [] s ∧
      s.now < 0 + 9223372036854775807 * 1000000 ∧ ¬ Called ([] : List (Event Nat)) ∧
      s.shared.items = [] ∧ s.step (.retake (.client 9)) = some (.took none, s') ∧
      ¬ Time.InWord (0 + 9223372036854775807 * 1000000) := by
  let s : Scene Nat := { shared := { queue := { capacity := 2 },
                                     stages := ⟨[(.client 9, .waiting (-1000000) false)]⟩ } }
  have hopen : Run 2 ([] : List (Event Nat)) { shared := { queue := { capacity := 2 } } } :=
    .refl trivial
  have hwait : Chronicle Scene.next Scene.note (Waiting (.client 9)) s [] s := .refl ⟨_, _, rfl⟩
  refine ⟨s, { shared := { queue := { capacity := 2 } } }, ?_, by decide, ?_, rfl, rfl, by decide⟩
  · exact .later hopen rfl (by decide) rfl rfl hwait
  · rintro ⟨es₁, _, _, hes, -⟩
    cases es₁ <;> cases hes

end SerialWriter.SharedQueue
