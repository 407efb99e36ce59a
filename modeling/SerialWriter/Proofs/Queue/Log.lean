import SerialWriter.Queue.Shared
import Mathlib.Tactic.Lemma

/-!
What each step at a shared queue does to its pending items and to what has gone in and out.
-/

namespace SerialWriter.SharedQueue

variable {α : Type} {s s' u : SharedQueue α} {t : Thread} {a : α} {now : Time}

/-- Nothing has gone in or out. -/
structure SameLog (s s' : SharedQueue α) : Prop where
  items : s'.items = s.items
  accepted : s'.accepted = s.accepted
  removed : s'.removed = s.removed
  size : s'.size = s.size

/-- What `r` holds has gone out, and nothing else. -/
structure Popped (r : Option α) (s s' : SharedQueue α) : Prop where
  items : s.items = r.toList ++ s'.items
  accepted : s'.accepted = s.accepted
  removed : s'.removed = r.toList ++ s.removed
  size : s'.size = r.elim s.size fun _ => s'.items.length

/-- The number that anyone may read is that of the pending items. -/
def Exact (s : SharedQueue α) : Prop := s.size = s.items.length

namespace SameLog

lemma refl (s : SharedQueue α) : SameLog s s := ⟨rfl, rfl, rfl, rfl⟩

lemma trans (h : SameLog s s') (hu : SameLog s' u) : SameLog s u :=
  ⟨hu.items.trans h.items, hu.accepted.trans h.accepted, hu.removed.trans h.removed,
    hu.size.trans h.size⟩

lemma exact (h : SameLog s s') (hs : s.Exact) : s'.Exact := by
  rw [Exact, h.size, h.items]
  exact hs

lemma rouse (s : SharedQueue α) (t : Thread) : SameLog s (s.rouse t) := by
  unfold SharedQueue.rouse
  split
  · exact ⟨rfl, rfl, rfl, rfl⟩
  · exact refl s

lemma rouseAll (l : List Thread) (s : SharedQueue α) :
    SameLog s (l.foldl SharedQueue.rouse s) := by
  induction l generalizing s with
  | nil => exact refl s
  | cons t l ih => exact (rouse s t).trans (ih _)

lemma wake (s : SharedQueue α) (t : Thread) : SameLog s (s.wake t) := ⟨rfl, rfl, rfl, rfl⟩

lemma notify {chosen : Option Thread} (h : s.notify t chosen = some s') : SameLog s s' := by
  have hdrop : SameLog s { s with stages := s.stages.drop t } := ⟨rfl, rfl, rfl, rfl⟩
  unfold SharedQueue.notify at h
  split at h
  · cases h
    exact hdrop.trans (rouseAll _ _)
  · split at h
    · rw [Option.ite_none_right_eq_some, Option.some.injEq] at h
      rw [← h.2]
      exact hdrop.trans (rouse _ _)
    · rw [Option.ite_none_right_eq_some, Option.some.injEq] at h
      rw [← h.2]
      exact hdrop
  · cases h

end SameLog

lemma offer_true (h : s.offer t a = (true, s')) :
    s'.items = s.items ++ [a] ∧ s'.accepted = a :: s.accepted ∧ s'.removed = s.removed := by
  have hitems := s.items_offer t a
  rw [h] at hitems
  unfold offer at h
  split at h
  rename_i ok q hq
  split at h
  · cases h
    exact ⟨hitems, rfl, rfl⟩
  · cases h

lemma offer_false (h : s.offer t a = (false, s')) : s' = s := by
  unfold offer at h
  split at h
  split at h
  · cases h
  · cases h
    rfl

lemma exists_offer (t : Thread) (a : α) (h : s.items.length < s.queue.capacity) :
    ∃ s', s.offer t a = (true, s') := by
  have hfst := s.queue.offer_fst a
  rw [show s.queue.toList = s.items from rfl, decide_eq_true h] at hfst
  unfold offer
  split
  rename_i ok q hq
  rw [hq] at hfst
  rw [if_pos hfst]
  exact ⟨_, rfl⟩

lemma size_offer (h : s.offer t a = (true, s')) : s'.size = s'.items.length := by
  unfold offer at h
  split at h
  rename_i ok q hq
  split at h
  · rename_i hok
    cases h
    unfold Queue.offer at hq
    split at hq
    · cases hq
      cases hok
    · cases hq
      exact (Fifo.length_toList _).symm
  · cases h

lemma popped_pop (s : SharedQueue α) (t : Thread) : Popped (s.pop t).1 s (s.pop t).2 := by
  refine ⟨(s.pop_append_items t).symm, rfl, rfl, ?_⟩
  unfold size items pop Queue.pop
  dsimp only
  split
  · rfl
  · exact (Fifo.length_toList _).symm

lemma Popped.exact {r : Option α} (h : Popped r s s') (hs : s.Exact) : s'.Exact := by
  rw [Exact, h.size]
  cases r with
  | none =>
    have hitems : s.items = s'.items := h.items
    exact hs.trans (congrArg List.length hitems)
  | some a => rfl

lemma take_cases {budget : Int} {r : Option (Option α)} (h : s.take t now budget = (r, s')) :
    (∃ x, r = some x ∧ Popped x s s') ∨ r = none ∧ SameLog s s' := by
  unfold take at h
  split at h
  · cases h
    exact .inl ⟨_, rfl, popped_pop s t⟩
  · cases h
    exact .inr ⟨rfl, rfl, rfl, rfl, rfl⟩

lemma retake_cases {r : Option (Option α)} (h : s.retake t now = some (r, s')) :
    (∃ x, r = some x ∧ Popped x s s') ∨ r = none ∧ SameLog s s' := by
  unfold retake at h
  split at h
  · split at h
    · rw [Option.ite_none_right_eq_some] at h
      cases h.2
      exact .inl ⟨_, rfl, popped_pop s t⟩
    · rw [Option.ite_none_right_eq_some] at h
      cases h.2
      exact .inr ⟨rfl, rfl, rfl, rfl, rfl⟩
  · cases h

end SerialWriter.SharedQueue
