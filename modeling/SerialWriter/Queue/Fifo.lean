/-!
A first-in first-out sequence that knows its length, kept as two lists so that both ends are at
hand. `toList` is what it holds, the oldest item first.
-/

namespace SerialWriter

/-- A first-in first-out sequence: the oldest items in order, then the newest in reverse. -/
structure Fifo (α : Type) where
  front : List α := []
  back : List α := []
  length : Nat := 0
  length_eq : length = front.length + back.length := by rfl

namespace Fifo

variable {α : Type}

/-- The sequence that holds nothing. -/
def empty : Fifo α := {}

instance : Inhabited (Fifo α) := ⟨empty⟩

/-- The items, the oldest first. -/
def toList (f : Fifo α) : List α := f.front ++ f.back.reverse

/-- There are no items. -/
def isEmpty (f : Fifo α) : Bool := f.length = 0

/-- A new item enters. -/
def push (f : Fifo α) (a : α) : Fifo α :=
  ⟨f.front, a :: f.back, f.length + 1, by simp [f.length_eq]; omega⟩

/-- The oldest item leaves. -/
def pop? (f : Fifo α) : Option (α × Fifo α) :=
  match f.front, f.back, f.length_eq with
  | a :: rest, back, h => some (a, ⟨rest, back, f.length - 1, by
      rw [h, List.length_cons]; omega⟩)
  | [], back, h =>
    match hr : back.reverse with
    | [] => none
    | a :: rest => some (a, ⟨rest, [], f.length - 1, by
        have := congrArg List.length hr
        simp only [List.length_reverse, List.length_cons] at this
        rw [h]; simp [this]⟩)

@[simp] theorem length_toList (f : Fifo α) : f.toList.length = f.length := by
  simp [toList, f.length_eq]

@[simp] theorem toList_push (f : Fifo α) (a : α) : (f.push a).toList = f.toList ++ [a] := by
  simp [push, toList]

theorem isEmpty_iff (f : Fifo α) : f.isEmpty = true ↔ f.toList = [] := by
  rw [← List.length_eq_zero_iff, length_toList]
  simp [isEmpty]

/-- The item that leaves is the head of the list, and the tail stays. -/
theorem toList_pop? (f : Fifo α) :
    f.pop?.map (fun r => r.1 :: r.2.toList) = if f.toList = [] then none else some f.toList := by
  obtain ⟨front, back, n, h⟩ := f
  cases front with
  | cons a rest => simp [pop?, toList]
  | nil =>
    simp only [pop?, toList, List.nil_append]
    split <;> rename_i hr <;> simp_all

end Fifo

end SerialWriter
