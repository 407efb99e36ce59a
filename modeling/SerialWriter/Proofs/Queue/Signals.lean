import SerialWriter.Proofs.Roster
import SerialWriter.Queue.Shared

/-!
What each step at a shared queue does to the flag that asks the consumer not to wait, and to the
threads that wait inside a take.
-/

namespace SerialWriter.SharedQueue

variable {α : Type} {s s' u : SharedQueue α} {t v : Thread} {a : α} {now d : Time} {b : Bool}

/-- **Nobody begins or ends a wait**, but some of those who wait are told to look again. -/
structure Rouses (s s' : SharedQueue α) : Prop where
  awake : s'.queue.awake = s.queue.awake
  stages : ∀ v, s'.stages.get? v = s.stages.get? v ∨ ∃ d b,
    s.stages.get? v = some (.waiting d b) ∧ s'.stages.get? v = some (.waiting d true)

namespace Rouses

lemma of_eq (ha : s'.queue.awake = s.queue.awake) (hs : s'.stages = s.stages) : Rouses s s' :=
  ⟨ha, fun _ => .inl (hs ▸ rfl)⟩

lemma trans (h : Rouses s s') (hu : Rouses s' u) : Rouses s u := by
  refine ⟨hu.awake.trans h.awake, fun v => ?_⟩
  rcases hu.stages v with h₂ | ⟨d, b, h₁, h₂⟩
  · rw [h₂]
    exact h.stages v
  · rcases h.stages v with h₀ | ⟨d', b', h₀, h₁'⟩
    · exact .inr ⟨d, b, h₀.symm.trans h₁, h₂⟩
    · rw [h₁', Option.some.injEq, QueueStage.waiting.injEq] at h₁
      exact .inr ⟨d, b', h₁.1 ▸ h₀, h₂⟩

lemma rouse (s : SharedQueue α) (t : Thread) : Rouses s (s.rouse t) := by
  unfold SharedQueue.rouse
  split
  · rename_i d b ht
    refine ⟨rfl, fun v => ?_⟩
    by_cases hv : v = t
    · subst hv
      exact .inr ⟨d, b, ht, Roster.get?_put_self ..⟩
    · exact .inl (Roster.get?_put_ne _ _ hv)
  · exact .of_eq rfl rfl

lemma rouseAll (l : List Thread) (s : SharedQueue α) : Rouses s (l.foldl SharedQueue.rouse s) := by
  induction l generalizing s with
  | nil => exact .of_eq rfl rfl
  | cons t l ih => exact (rouse s t).trans (ih _)

lemma waiting (h : Rouses s s') (hv : s'.stages.get? v = some (.waiting d b)) :
    ∃ b', s.stages.get? v = some (.waiting d b') ∧ (b' = true → b = true) := by
  rcases h.stages v with hs | ⟨d', b', hs, hs'⟩
  · exact ⟨b, hs.symm.trans hv, id⟩
  · rw [hs', Option.some.injEq, QueueStage.waiting.injEq] at hv
    exact ⟨b', hv.1 ▸ hs, fun _ => hv.2.symm⟩

lemma notifying (h : Rouses s s') :
    s'.stages.get? v = some (.notifying b) ↔ s.stages.get? v = some (.notifying b) := by
  rcases h.stages v with hs | ⟨d, b', hs, hs'⟩
  · rw [hs]
  · rw [hs, hs']
    exact ⟨nofun, nofun⟩

end Rouses

/-! ### Who is told -/

lemma mem_waiters (h : s.stages.get? v = some (.waiting d false)) : v ∈ s.waiters := by
  obtain ⟨l₁, l₂, hl, -⟩ := List.lookup_eq_some_iff.mp h
  refine List.mem_filterMap.mpr ⟨(v, .waiting d false), ?_, rfl⟩
  rw [hl]
  exact List.mem_append_right _ List.mem_cons_self

lemma told_of_rouseAll {l : List Thread} (hv : v ∈ l)
    (h : (l.foldl rouse s).stages.get? v = some (.waiting d b)) : b = true := by
  induction l generalizing s with
  | nil => cases hv
  | cons t l ih =>
    by_cases hl : v ∈ l
    · exact ih hl h
    · obtain rfl := (List.mem_cons.mp hv).resolve_right hl
      obtain ⟨b', hb', hle⟩ := (Rouses.rouseAll l (s.rouse v)).waiting h
      refine hle ?_
      obtain ⟨b₀, hb₀, -⟩ := (Rouses.rouse s v).waiting hb'
      rw [SharedQueue.rouse, hb₀] at hb'
      dsimp only at hb'
      rw [Roster.get?_put_self, Option.some.injEq, QueueStage.waiting.injEq] at hb'
      exact hb'.2.symm

/-- **A notification** is the last word of a thread that has put something in or has woken the
consumer. -/
structure Notifies (s : SharedQueue α) (t : Thread) (chosen : Option Thread) (s' : SharedQueue α) :
    Prop where
  stage : ∃ b, s.stages.get? t = some (.notifying b)
  rouses : Rouses { s with stages := s.stages.drop t } s'
  /-- Without a choice all who wait are told. -/
  all : chosen = none → ∀ v d b, s'.stages.get? v = some (.waiting d b) → b = true

lemma notifies_of_notify {chosen : Option Thread} (h : s.notify t chosen = some s') :
    s.Notifies t chosen s' := by
  unfold notify at h
  split at h
  · rename_i ht
    cases h
    have hrouses := Rouses.rouseAll s.waiters { s with stages := s.stages.drop t }
    refine ⟨⟨true, ht⟩, hrouses, fun _ v d b hv => ?_⟩
    obtain ⟨b', hb', hle⟩ := hrouses.waiting hv
    cases b' with
    | true => exact hle rfl
    | false =>
      rw [Roster.get?_drop, Option.ite_none_left_eq_some] at hb'
      exact told_of_rouseAll (mem_waiters hb'.2) hv
  · rename_i ht
    split at h
    · rw [Option.ite_none_right_eq_some, Option.some.injEq] at h
      rw [← h.2]
      exact ⟨⟨false, ht⟩, .rouse _ _, fun hn => nomatch hn⟩
    · rw [Option.ite_none_right_eq_some, Option.some.injEq] at h
      rw [← h.2]
      refine ⟨⟨false, ht⟩, .of_eq rfl rfl, fun _ v d b hv => ?_⟩
      cases b with
      | true => rfl
      | false =>
        change (s.stages.drop t).get? v = _ at hv
        rw [Roster.get?_drop, Option.ite_none_left_eq_some] at hv
        have hmem := mem_waiters hv.2
        rw [h.1] at hmem
        cases hmem
  · cases h

lemma exists_notify (h : s.stages.get? t = some (.notifying b)) :
    ∃ s', s.notify t s.waiters.head? = some s' := by
  unfold notify
  rw [h]
  cases b with
  | true => exact ⟨_, rfl⟩
  | false =>
    cases hw : s.waiters with
    | nil => exact ⟨_, rfl⟩
    | cons u l => exact ⟨_, if_pos List.mem_cons_self⟩

/-! ### Takes -/

lemma settled_of_awake (h : s.queue.awake = true) : s.queue.settled = true := by
  rw [Queue.settled, h]
  exact Bool.or_true _

lemma awake_pop (s : SharedQueue α) (t : Thread) : (s.pop t).2.queue.awake = false := by
  unfold pop Queue.pop
  dsimp only
  split <;> rfl

lemma stages_pop (s : SharedQueue α) (t : Thread) : (s.pop t).2.stages = s.stages.drop t := rfl

/-- **A take ends at once**, or has to wait: it is allowed to, nothing is pending, and the flag is
down. -/
lemma ends_or_waits_of_take {budget : Int} {r : Option (Option α)}
    (h : s.take t now budget = (r, s')) :
    (∃ x, r = some x ∧ s.pop t = (x, s')) ∨ r = none ∧ 0 < budget ∧ s.queue.settled = false ∧
      ∃ d, s' = { s with stages := s.stages.put t (.waiting d false) } := by
  unfold take at h
  split at h
  · cases h
    exact .inl ⟨_, rfl, rfl⟩
  · rename_i hi
    cases h
    rw [Queue.immediate, Bool.or_eq_true, decide_eq_true_eq, not_or, Bool.not_eq_true] at hi
    exact .inr ⟨rfl, Int.not_le.mp hi.1, hi.2, _, rfl⟩

lemma ends_or_waits_of_retake {r : Option (Option α)} (h : s.retake t now = some (r, s')) :
    (∃ x, r = some x ∧ s.pop t = (x, s')) ∨ r = none ∧ s.queue.settled = false ∧
      ∃ d, s' = { s with stages := s.stages.put t (.waiting d false) } := by
  unfold retake at h
  split at h
  · split at h
    · rw [Option.ite_none_right_eq_some] at h
      cases h.2
      exact .inl ⟨_, rfl, rfl⟩
    · rename_i hi
      rw [Option.ite_none_right_eq_some] at h
      cases h.2
      exact .inr ⟨rfl, Bool.not_eq_true _ ▸ (not_or.mp hi).1, _, rfl⟩
  · cases h

/-- **Who waits, has been told and finds the flag up** ends its take as soon as it goes on. -/
lemma retake_of_awake (ha : s.queue.awake = true) (ht : s.stages.get? t = some (.waiting d true))
    (now : Time) : s.retake t now = some (some (s.pop t).1, (s.pop t).2) := by
  unfold retake
  rw [ht]
  simp only [settled_of_awake ha, true_or, if_true]

lemma offer_stages (h : s.offer t a = (true, s')) :
    s'.queue.awake = s.queue.awake ∧ s'.stages = s.stages.put t (.notifying false) := by
  unfold offer at h
  split at h
  rename_i ok q hq
  split at h
  · cases h
    refine ⟨?_, rfl⟩
    unfold Queue.offer at hq
    split at hq <;> (cases hq; rfl)
  · cases h

/-! ### Room and order -/

/-- The queue has room for `n` items, and every thread is in the middle of one thing at most. -/
structure OfCapacity (n : Nat) (s : SharedQueue α) : Prop where
  capacity : s.queue.capacity = n
  proper : s.stages.Proper

namespace OfCapacity

variable {n : Nat}

lemma put (h : s.OfCapacity n) (t : Thread) (stage : QueueStage) :
    ({ s with stages := s.stages.put t stage } : SharedQueue α).OfCapacity n :=
  ⟨h.capacity, h.proper.put t stage⟩

lemma drop (h : s.OfCapacity n) (t : Thread) :
    ({ s with stages := s.stages.drop t } : SharedQueue α).OfCapacity n :=
  ⟨h.capacity, h.proper.drop t⟩

lemma rouse (h : s.OfCapacity n) (t : Thread) : (s.rouse t).OfCapacity n := by
  unfold SharedQueue.rouse
  split
  · exact h.put t _
  · exact h

lemma rouseAll (h : s.OfCapacity n) (l : List Thread) :
    (l.foldl SharedQueue.rouse s).OfCapacity n := by
  induction l generalizing s with
  | nil => exact h
  | cons t l ih => exact ih (h.rouse t)

lemma offer (h : s.OfCapacity n) (ho : s.offer t a = (true, s')) : s'.OfCapacity n := by
  refine ⟨?_, (offer_stages ho).2 ▸ h.proper.put t _⟩
  unfold SharedQueue.offer at ho
  split at ho
  rename_i ok q hq
  split at ho
  · cases ho
    unfold Queue.offer at hq
    split at hq <;> (cases hq; exact h.capacity)
  · cases ho

lemma pop (h : s.OfCapacity n) (t : Thread) : (s.pop t).2.OfCapacity n := by
  refine ⟨?_, h.proper.drop t⟩
  unfold SharedQueue.pop Queue.pop
  dsimp only
  split <;> exact h.capacity

lemma notify (h : s.OfCapacity n) {chosen : Option Thread} (hn : s.notify t chosen = some s') :
    s'.OfCapacity n := by
  unfold SharedQueue.notify at hn
  split at hn
  · cases hn
    exact (h.drop t).rouseAll _
  · split at hn
    · rw [Option.ite_none_right_eq_some, Option.some.injEq] at hn
      exact hn.2 ▸ (h.drop t).rouse _
    · rw [Option.ite_none_right_eq_some, Option.some.injEq] at hn
      exact hn.2 ▸ h.drop t
  · cases hn

end OfCapacity

lemma waiting_of_mem (h : s.stages.Proper) (hv : v ∈ s.waiters) :
    ∃ d, s.stages.get? v = some (.waiting d false) := by
  obtain ⟨⟨u, stage⟩, hmem, hu⟩ := List.mem_filterMap.mp hv
  split at hu
  · rename_i d hd
    cases hd
    cases hu
    exact ⟨d, h.get?_of_mem hmem⟩
  · cases hu
  · cases hu

lemma told_of_notify {chosen : Option Thread} (h : s.stages.Proper)
    (hv : ∀ u d, s.stages.get? u = some (.waiting d false) → u = v)
    (hn : s.notify t chosen = some s') : s'.stages.get? v ≠ some (.waiting d false) := by
  intro hd
  have hnotifies := notifies_of_notify hn
  obtain ⟨b, hb, hle⟩ := hnotifies.rouses.waiting hd
  have hwait : s.stages.get? v = some (.waiting d false) := by
    rw [Roster.get?_drop, Option.ite_none_left_eq_some] at hb
    cases b with
    | true => cases hle rfl
    | false => exact hb.2
  cases chosen with
  | none => cases hnotifies.all rfl v d false hd
  | some w =>
    unfold notify at hn
    split at hn
    · cases hn
      cases told_of_rouseAll (mem_waiters hwait) hd
    · rw [Option.ite_none_right_eq_some, Option.some.injEq] at hn
      -- whoever is chosen waits, so it is the one who waits
      obtain ⟨d', hd'⟩ := waiting_of_mem h hn.1
      obtain rfl := hv w d' hd'
      rw [← hn.2, SharedQueue.rouse, hb] at hd
      dsimp only at hd
      rw [Roster.get?_put_self] at hd
      cases hd
    · cases hn

end SerialWriter.SharedQueue
