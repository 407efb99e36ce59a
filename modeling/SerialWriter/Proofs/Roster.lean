import SerialWriter.Thread
import Mathlib.Tactic.Lemma

/-!
How many threads are in the middle of something.
-/

namespace SerialWriter.Roster

variable {α : Type} {r : Roster α} {t : Thread} {a : α} {p : α → Bool}

def count (r : Roster α) (p : α → Bool) : Nat := r.entries.countP fun e => p e.2

/-- Every thread is in the middle of one thing at most. -/
def Proper (r : Roster α) : Prop := r.threads.Nodup

namespace Proper

lemma empty : Proper (⟨[]⟩ : Roster α) := List.nodup_nil

lemma drop (h : r.Proper) (t : Thread) : (r.drop t).Proper :=
  (List.filter_sublist.map Prod.fst).nodup h

lemma put (h : r.Proper) (t : Thread) (a : α) : (r.put t a).Proper := by
  refine List.nodup_cons.mpr ⟨fun hin => ?_, h.drop t⟩
  obtain ⟨e, he, het⟩ := List.mem_map.mp hin
  have hne := (List.mem_filter.mp he).2
  rw [decide_eq_true_eq] at hne
  exact hne het

lemma get?_of_mem (h : r.Proper) (hm : (t, a) ∈ r.entries) : r.get? t = some a := by
  obtain ⟨l⟩ := r
  change (l.map Prod.fst).Nodup at h
  change (t, a) ∈ l at hm
  change l.lookup t = some a
  induction l with
  | nil => cases hm
  | cons e l ih =>
    obtain ⟨u, b⟩ := e
    obtain ⟨hnot, hl⟩ := List.nodup_cons.mp h
    rw [List.lookup_cons]
    rcases List.mem_cons.mp hm with he | hin
    · cases he
      rw [beq_self_eq_true]
    · have htu : t ≠ u := fun htu => hnot (List.mem_map.mpr ⟨(t, a), hin, htu⟩)
      rw [beq_eq_false_iff_ne.mpr htu]
      exact ih hl hin

lemma count_drop (h : r.Proper) (t : Thread) (p : α → Bool) :
    (r.drop t).count p + ((r.get? t).any p).toNat = r.count p := by
  obtain ⟨l⟩ := r
  change (l.map Prod.fst).Nodup at h
  change (l.filter _).countP _ + ((l.lookup t).any p).toNat = l.countP _
  induction l with
  | nil => rfl
  | cons e l ih =>
    obtain ⟨u, b⟩ := e
    obtain ⟨hnot, hl⟩ := List.nodup_cons.mp h
    by_cases htu : u = t
    · subst htu
      -- no other entry is of this thread
      have hrest : l.filter (fun e => decide (e.1 ≠ u)) = l := by
        refine List.filter_eq_self.mpr fun e he => ?_
        rw [decide_eq_true_eq]
        exact fun heu => hnot (List.mem_map.mpr ⟨e, he, heu⟩)
      rw [List.filter_cons_of_neg (by simp), hrest, List.lookup_cons, beq_self_eq_true,
        List.countP_cons]
      cases hb : p b <;> simp [hb]
    · have hkeep := ih hl
      rw [List.filter_cons_of_pos (by simpa using htu), List.lookup_cons,
        beq_eq_false_iff_ne.mpr (Ne.symm htu), List.countP_cons, List.countP_cons]
      dsimp only
      omega

lemma count_put (h : r.Proper) (t : Thread) (a : α) (p : α → Bool) :
    (r.put t a).count p + ((r.get? t).any p).toNat = r.count p + (p a).toNat := by
  have hput : (r.put t a).count p = (r.drop t).count p + (p a).toNat := by
    change List.countP _ (_ :: (r.drop t).entries) = _
    rw [List.countP_cons, count]
    cases p a <;> rfl
  have hdrop := h.count_drop t p
  omega

/-- One entry at most is of a kind that only one thread can be in the middle of. -/
lemma count_le_one (h : r.Proper)
    (hone : ∀ t u a b, r.get? t = some a → r.get? u = some b → t = u) : r.count p ≤ 1 := by
  have hlength : r.entries.length ≤ 1 := by
    obtain ⟨l⟩ := r
    match l, h, hone with
    | [], _, _ => exact Nat.zero_le _
    | [_], _, _ => exact Nat.le_refl _
    | (t, a) :: (u, b) :: l, h, hone =>
      have htu := hone t u a b (h.get?_of_mem (by simp)) (h.get?_of_mem (by simp))
      obtain ⟨hnot, -⟩ := List.nodup_cons.mp h
      exact (hnot (by simp [htu])).elim
  exact Nat.le_trans List.countP_le_length hlength

lemma count_pos_iff (h : r.Proper) : 0 < r.count p ↔ ∃ t a, r.get? t = some a ∧ p a = true := by
  rw [count, List.countP_pos_iff]
  constructor
  · rintro ⟨⟨t, a⟩, hin, hp⟩
    exact ⟨t, a, h.get?_of_mem hin, hp⟩
  · rintro ⟨t, a, ha, hp⟩
    obtain ⟨l₁, l₂, hl, -⟩ := List.lookup_eq_some_iff.mp ha
    refine ⟨(t, a), ?_, hp⟩
    rw [hl]
    exact List.mem_append_right _ List.mem_cons_self

end Proper

end SerialWriter.Roster
