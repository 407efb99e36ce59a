import Mathlib.Data.List.Forall2
import Mathlib.Tactic.Lemma

/-!
Lists that may have gained one more entry at their end, as a chronicle does with each move, and
lists that go along entry by entry.
-/

namespace SerialWriter

variable {α β γ : Type}

lemma mem_append_toList {l : List α} {x? : Option α} {x : α} :
    x ∈ l ++ x?.toList ↔ x ∈ l ∨ x? = some x := by
  rw [List.mem_append, Option.mem_toList]

lemma filterMap_append_toList (f : α → Option β) (l : List α) (x? : Option α) :
    (l ++ x?.toList).filterMap f = l.filterMap f ++ (x?.bind f).toList := by
  rw [List.filterMap_append]
  cases x? with
  | none => rfl
  | some x =>
    rw [Option.toList_some, List.filterMap_cons, List.filterMap_nil, Option.bind_some]
    cases f x <;> rfl

lemma countP_append_toList (p : α → Bool) (l : List α) (x? : Option α) :
    (l ++ x?.toList).countP p = l.countP p + (x?.any p).toNat := by
  rw [List.countP_append]
  cases x? with
  | none => rfl
  | some x =>
    rw [Option.toList_some, List.countP_singleton, Option.any_some]
    cases p x <;> rfl

lemma filterMap_eq_of_forall₂ {f : α → Option β} {l : List α} {r : List β}
    (h : List.Forall₂ (fun a b => f a = some b) l r) : l.filterMap f = r := by
  induction h with
  | nil => rfl
  | cons hab _ ih => rw [List.filterMap_cons_some hab, ih]

lemma forall₂_both {R : α → γ → Prop} {S : β → γ → Prop} {l : List α} {l' : List β} {r : List γ}
    (h : List.Forall₂ R l r) (h' : List.Forall₂ S l' r) :
    List.Forall₂ (fun x y => ∃ z, R x z ∧ S y z) l l' := by
  induction h generalizing l' with
  | nil =>
    cases h'
    exact .nil
  | cons hx _ ih =>
    cases h' with
    | cons hy hl => exact .cons ⟨_, hx, hy⟩ (ih hl)

end SerialWriter
