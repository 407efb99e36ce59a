import SerialWriter.Proofs.Queue.Flag

/-!
No notification is lost at a shared queue with one consumer. An offer and a wake give their
notification after they have released the lock, and an offer tells only one of those who wait; so
there are moments at which the consumer could go on but has not been told. At each of them somebody
is still to notify, and whoever does tells the consumer.
-/

namespace SerialWriter.SharedQueue

variable {α : Type} {n : Nat} {es : List (Event α)} {s s' : Scene α} {m : Move α} {r : Reply α}
  {t u : Thread} {b : Bool} {chosen : Option Thread}

/-! ### Who is still to notify -/

/-- The thread has released the lock and is still to notify. -/
def Notifying (t : Thread) (s : Scene α) : Prop :=
  ∃ b, s.shared.stages.get? t = some (.notifying b)

/-- **A call of `t` between its section and its notification**, `es` having been noted so far. -/
inductive Unannounced (n : Nat) (t : Thread) : List (Event α) → Scene α → Prop
  | offer {es₀ es : List (Event α)} {s₀ s₁ s : Scene α} {a : α} (h₀ : Run n es₀ s₀)
      (hs : s₀.step (.offer t a) = some (.offered true, s₁))
      (h : Chronicle Scene.next Scene.note (Notifying t) s₁ es s) :
      Unannounced n t (es₀ ++ .offered t a true :: es) s
  | wake {es₀ es : List (Event α)} {s₀ s₁ s : Scene α} (h₀ : Run n es₀ s₀)
      (hs : s₀.step (.wake t) = some (.quiet, s₁))
      (h : Chronicle Scene.next Scene.note (Notifying t) s₁ es s) :
      Unannounced n t (es₀ ++ .woke t :: es) s

namespace Unannounced

lemma notifying (h : Unannounced n t es s) : Notifying t s := by
  cases h with
  | offer _ _ h | wake _ _ h => exact h.along.holds

lemma snoc (h : Unannounced n t es s) (hs : s.next m = some s') (ht : Notifying t s') :
    Unannounced n t (es ++ (s.note m s').toList) s' := by
  cases h with
  | offer h₀ hs₀ h =>
    rw [List.append_assoc, List.cons_append]
    exact .offer h₀ hs₀ (h.step m hs ht)
  | wake h₀ hs₀ h =>
    rw [List.append_assoc, List.cons_append]
    exact .wake h₀ hs₀ (h.step m hs ht)

end Unannounced

/-- Who is still to notify has been so before, or has just put an item in or woken the consumer. -/
lemma notifying_of_turn (ht : s.Turn m r s') (h : Notifying t s') :
    Notifying t s ∨ (∃ a, m = .offer t a ∧ r = .offered true) ∨ m = .wake t ∧ r = .quiet := by
  obtain ⟨b, hb⟩ := h
  -- nobody but the thread of the move goes from one stage to another, and it not to this one
  have hput : ∀ {v d b'}, (s.shared.stages.put v (.waiting d b')).get? t = some (.notifying b) →
      Notifying t s := fun {v d b'} hv => by
    rw [Roster.get?_put] at hv
    split at hv
    · cases hv
    · exact ⟨b, hv⟩
  have hdrop : ∀ {v}, (s.shared.stages.drop v).get? t = some (.notifying b) → Notifying t s :=
    fun hv => by
      rw [Roster.get?_drop, Option.ite_none_left_eq_some] at hv
      exact ⟨b, hv.2⟩
  cases ht with
  | @accepts v a q _ ho =>
    rw [(offer_stages ho).2, Roster.get?_put] at hb
    split at hb
    · rename_i htv
      exact .inr (.inl ⟨a, htv ▸ rfl, rfl⟩)
    · exact .inl ⟨b, hb⟩
  | @wakes v _ =>
    change (s.shared.stages.put v (.notifying true)).get? t = _ at hb
    rw [Roster.get?_put] at hb
    split at hb
    · rename_i htv
      exact .inr (.inr ⟨htv ▸ rfl, rfl⟩)
    · exact .inl ⟨b, hb⟩
  | refuses _ _ | visits _ | passes | clears _ => exact .inl ⟨b, hb⟩
  | notifies hn => exact .inl (hdrop ((notifies_of_notify hn).rouses.notifying.mp hb))
  | takes _ _ | ends _ _ => exact .inl (hdrop hb)
  | waits _ _ _ | waitsOn _ _ _ => exact .inl (hput hb)
  | stirs => exact .inl ⟨b, (Rouses.rouse _ _).notifying.mp hb⟩

/-- **Who is still to notify has put an item in or woken the consumer**, and that is all since. -/
theorem unannounced_of_run (h : Run n es s) (ht : Notifying t s) : Unannounced n t es s := by
  induction h with
  | refl _ =>
    obtain ⟨b, hb⟩ := ht
    cases hb
  | @step es v w m h hs _ ih =>
    obtain ⟨r, hr, hturn, hn⟩ := Scene.exists_turn hs
    obtain hbefore | ⟨a, rfl, rfl⟩ | ⟨rfl, rfl⟩ := notifying_of_turn hturn ht
    · exact (ih hbefore).snoc hs ht
    · rw [hn]
      exact .offer h hr (.refl ht)
    · rw [hn]
      exact .wake h hr (.refl ht)

/-! ### One consumer -/

/-- **There is one consumer**: no two threads wait at the same time. -/
def Lone (s : Scene α) : Prop := ∀ t u, Waiting t s → Waiting u s → t = u

lemma lone_of_all (c : Thread)
    (h : (s.shared.stages.entries.all fun e => match e.2 with
      | .waiting _ _ => decide (e.1 = c)
      | .notifying _ => true) = true) : Lone s := by
  have honly : ∀ t, Waiting t s → t = c := by
    rintro t ⟨d, b, ht⟩
    exact of_decide_eq_true (Roster.of_all (p := fun t stage => match stage with
      | .waiting _ _ => decide (t = c)
      | .notifying _ => true) h ht)
  intro t u ht hu
  rw [honly t ht, honly u hu]

lemma told_of_lone (h : Lone s) (hp : s.shared.stages.Proper) {q : SharedQueue α}
    (hn : s.shared.notify u chosen = some q) (t : Thread) (d : Time) :
    q.stages.get? t ≠ some (.waiting d false) := by
  intro hd
  obtain ⟨b, hb, hle⟩ := (notifies_of_notify hn).rouses.waiting hd
  rw [Roster.get?_drop, Option.ite_none_left_eq_some] at hb
  have ht : Waiting t s := ⟨d, b, hb.2⟩
  refine told_of_notify hp (fun v d' hv => ?_) hn hd
  exact h v t ⟨d', false, hv⟩ ht

/-! ### Nobody is left waiting -/

/-- **Whoever waits and has not been told has nothing to go on for**, unless somebody is still to
notify. -/
def Alert (s : Scene α) : Prop :=
  ∀ t d, s.shared.stages.get? t = some (.waiting d false) →
    s.shared.queue.settled = false ∨ ∃ u, Notifying u s

lemma unsettled_iff {q : SharedQueue α} :
    q.queue.settled = false ↔ q.items = [] ∧ q.queue.awake = false := by
  rw [← Bool.not_eq_true, settled_iff, not_or, Decidable.not_not, Bool.not_eq_true]

lemma settled_congr {q q' : SharedQueue α} (hi : q'.items = q.items)
    (ha : q'.queue.awake = q.queue.awake) : q'.queue.settled = q.queue.settled := by
  rw [Bool.eq_iff_iff, settled_iff, settled_iff, hi, ha]

lemma alert_of_takes (h : Alert s) (hi : s.shared.stages.get? t = none) :
    Alert { s with shared := (s.shared.pop t).2 } := by
  intro v d hv
  change (s.shared.stages.drop t).get? v = _ at hv
  rw [Roster.get?_drop, Option.ite_none_left_eq_some] at hv
  rcases h v d hv.2 with hs | ⟨u, b, hu⟩
  · left
    rw [unsettled_iff] at hs ⊢
    have hpop := (popped_pop s.shared t).items
    rw [hs.1, eq_comm, List.append_eq_nil_iff] at hpop
    exact ⟨hpop.2, awake_pop ..⟩
  · right
    have hut : u ≠ t := by
      rintro rfl
      cases hu.symm.trans hi
    exact ⟨u, b, (Roster.get?_drop_ne _ hut).trans hu⟩

theorem alert_of_turn (h : Alert s) (hlone : Lone s) (hp : s.shared.stages.Proper)
    (ht : s.Turn m r s') : Alert s' := by
  intro v d hv
  cases ht with
  | @accepts t _ _ _ ho =>
    right
    refine ⟨t, false, ?_⟩
    rw [(offer_stages ho).2]
    exact Roster.get?_put_self ..
  | wakes _ => exact .inr ⟨_, true, Roster.get?_put_self ..⟩
  | refuses _ _ | visits _ | passes => exact h v d hv
  | notifies hn => exact absurd hv (told_of_lone hlone hp hn v d)
  | takes hi _ => exact alert_of_takes h hi v d hv
  | @ends t d' b hwait _ =>
    -- the one whose take has come to its end was the only one who waited
    change (s.shared.stages.drop t).get? v = _ at hv
    rw [Roster.get?_drop, Option.ite_none_left_eq_some] at hv
    exact absurd (hlone v t ⟨d, false, hv.2⟩ ⟨d', b, hwait⟩) hv.1
  | waits _ _ hs | waitsOn _ hs _ => exact .inl hs
  | clears _ =>
    refine (h v d hv).imp_left fun hs => ?_
    rw [unsettled_iff] at hs ⊢
    exact ⟨rfl, hs.2⟩
  | @stirs t =>
    have hr := Rouses.rouse s.shared t
    obtain ⟨b, hb, hle⟩ := hr.waiting hv
    cases b with
    | true => cases hle rfl
    | false =>
      rcases h v d hb with hs | ⟨u, b, hu⟩
      · left
        rw [← hs]
        exact settled_congr (SameLog.rouse _ _).items hr.awake
      · exact .inr ⟨u, b, hr.notifying.mpr hu⟩

lemma alert_of_run (h : Chronicle Scene.next Scene.note Lone (.fresh n) es s) : Alert s := by
  induction h with
  | refl _ =>
    intro t d ht
    cases ht
  | step m h hs _ ih =>
    obtain ⟨r, -, ht, -⟩ := Scene.exists_turn hs
    have hrun : Run n _ _ := h.mono fun _ _ => trivial
    exact alert_of_turn ih h.along.holds (counted_of_run hrun).proper ht

/-! ### Every run -/

/-- **No notification is lost**, at the end of a run. -/
structure Watchful (n : Nat) (es : List (Event α)) (s : Scene α) : Prop where
  /-- Nothing is pending for whoever waits and has not been told, and the flag is down; or else an
  offer or a wake has released the lock and is still to notify. -/
  alert : ∀ t d, s.shared.stages.get? t = some (.waiting d false) →
    s.shared.items = [] ∧ s.shared.queue.awake = false ∨ ∃ u, Unannounced n u es s
  /-- Such a call can always notify, -/
  rings : ∀ u, Unannounced n u es s →
    ∃ chosen s', s.step (.notify u chosen) = some (.quiet, s')
  /-- and as soon as any of them does, whomever it chooses, nobody waits who has not been told. -/
  tells : ∀ u chosen s', s.step (.notify u chosen) = some (.quiet, s') → ∀ t d,
    s'.shared.stages.get? t ≠ some (.waiting d false)
  /-- Who waits and has been told, with something pending or with the flag up, can go on and comes
  to the end of its take. -/
  ends : ∀ t d, s.shared.stages.get? t = some (.waiting d true) →
    s.shared.items ≠ [] ∨ s.shared.queue.awake = true →
      ∃ s', s.step (.retake t) = some (.took s.shared.items.head?, s')

/-- **No notification is lost in any run with one consumer**, however the steps of those who put in
and of those who wake it come in between. -/
theorem watchful_of_run (h : Chronicle Scene.next Scene.note Lone (.fresh n) es s) :
    Watchful n es s := by
  have hrun : Run n es s := h.mono fun _ _ => trivial
  constructor
  · intro t d ht
    rw [← unsettled_iff]
    refine (alert_of_run h t d ht).imp_right ?_
    rintro ⟨u, hu⟩
    exact ⟨u, unannounced_of_run hrun hu⟩
  · intro u hu
    obtain ⟨b, hb⟩ := hu.notifying
    obtain ⟨q, hq⟩ := exists_notify hb
    refine ⟨s.shared.waiters.head?, { s with shared := q }, ?_⟩
    simp only [Scene.step, hq, Option.map_some]
  · intro u chosen s' hs t d
    cases Scene.turn_of_step hs with
    | notifies hn => exact told_of_lone h.along.holds (counted_of_run hrun).proper hn t d
  · intro t d ht hset
    refine ⟨{ s with shared := (s.shared.pop t).2 }, ?_⟩
    rw [← pop_fst_eq s.shared t]
    simp only [Scene.step, retake, ht, settled_iff.mpr hset, true_or, if_true]

/-- The consumer begins to wait, is told of an item that is dropped before it looks, and waits on;
then an item comes and somebody wakes it, and neither has notified yet. -/
def unheardMoves : List (Move Nat) :=
  [.take (.client 9) 5, .offer (.client 0) 10, .notify (.client 0) (some (.client 9)),
    .clear (.client 1), .retake (.client 9), .offer (.client 0) 20, .wake (.client 1)]

def unheardEvents : List (Event Nat) :=
  [.offered (.client 0) 10 true, .cleared (.client 1) [10], .offered (.client 0) 20 true,
    .woke (.client 1)]

theorem watchful_of_unheard : ∃ s : Scene Nat,
    Chronicle Scene.next Scene.note Lone (.fresh 2) unheardEvents s ∧
      s.shared.stages.get? (.client 9) = some (.waiting 5000000 false) ∧
      s.shared.items = [20] ∧ s.shared.queue.awake = true ∧ Watchful 2 unheardEvents s := by
  obtain ⟨es, s, h, hf⟩ : ∃ es s,
      Chronicle Scene.next Scene.note
        (fun s => (s.shared.stages.entries.all fun e => match e.2 with
          | .waiting _ _ => decide (e.1 = .client 9)
          | .notifying _ => true) = true) (.fresh 2) es s ∧
        (es, s.shared.stages.get? (.client 9), s.shared.items, s.shared.queue.awake) =
          (unheardEvents, some (.waiting 5000000 false), [20], true) :=
    exists_chronicle unheardMoves rfl
  simp only [Prod.mk.injEq] at hf
  obtain ⟨rfl, hstage, hitems, hawake⟩ := hf
  have hlone := h.mono fun _ => lone_of_all (.client 9)
  exact ⟨s, hlone, hstage, hitems, hawake, watchful_of_run hlone⟩

end SerialWriter.SharedQueue
