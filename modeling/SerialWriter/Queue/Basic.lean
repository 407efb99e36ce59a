import SerialWriter.Queue.Fifo

/-!
A bounded queue: what one caller at a time does to it. Offers never wait and never make room;
a flag tells the consumer to stop waiting, and every take lowers it.
-/

namespace SerialWriter

/-- A bounded queue. -/
structure Queue (α : Type) where
  /-- How many items may be pending. -/
  capacity : Nat
  /-- The pending items. -/
  items : Fifo α := .empty
  /-- The number of pending items, kept apart so that it can be read at any time. -/
  size : Nat := 0
  /-- The consumer is asked not to wait. -/
  awake : Bool := false
  deriving Inhabited

namespace Queue

variable {α : Type}

/-- The pending items, the oldest first. -/
def toList (q : Queue α) : List α := q.items.toList

/-- Appends an item unless the queue is full. -/
def offer (q : Queue α) (a : α) : Bool × Queue α :=
  if q.capacity ≤ q.items.length then (false, q)
  else
    let items := q.items.push a
    (true, { q with items, size := items.length })

/-- A take need not wait: there is an item, or the consumer is asked not to. -/
def settled (q : Queue α) : Bool := !q.items.isEmpty || q.awake

/-- The end of a take: the flag is lowered and the oldest item leaves, if there is one. -/
def pop (q : Queue α) : Option α × Queue α :=
  match q.items.pop? with
  | none => (none, { q with awake := false })
  | some (a, items) => (some a, { q with items, size := items.length, awake := false })

/-- Asks the consumer not to wait. -/
def wake (q : Queue α) : Queue α := { q with awake := true }

/-- Drops every pending item. -/
def clear (q : Queue α) : Queue α := { q with items := .empty, size := 0 }

/-- Nothing is pending, by the count that can be read at any time. -/
def empty (q : Queue α) : Bool := q.size = 0

/-- A take with this budget finds out at once what it gets. -/
def immediate (q : Queue α) (budget : Int) : Bool := decide (budget ≤ 0) || q.settled

/-! ### What each operation does to the pending items -/

theorem offer_fst (q : Queue α) (a : α) :
    (q.offer a).1 = decide (q.toList.length < q.capacity) := by
  unfold offer
  by_cases h : q.capacity ≤ q.items.length
  · simp [h, toList]
  · simp [h, toList]; omega

theorem toList_offer (q : Queue α) (a : α) :
    (q.offer a).2.toList = if q.toList.length < q.capacity then q.toList ++ [a] else q.toList := by
  unfold offer
  by_cases h : q.capacity ≤ q.items.length
  · simp [h, toList]
  · simp [h, toList, Nat.lt_of_not_le h]

theorem pop_cons (q : Queue α) : q.pop.1.toList ++ q.pop.2.toList = q.toList := by
  have h := q.items.toList_pop?
  unfold pop toList
  cases hp : q.items.pop? with
  | none =>
    by_cases he : q.items.toList = []
    · simp [he]
    · simp [hp, he] at h
  | some r =>
    by_cases he : q.items.toList = []
    · simp [hp, he] at h
    · simpa [hp, he] using h

theorem pop_fst (q : Queue α) : q.pop.1 = q.toList.head? := by
  have h := q.items.toList_pop?
  unfold pop toList
  cases hp : q.items.pop? with
  | none =>
    by_cases he : q.items.toList = []
    · simp [he]
    · simp [hp, he] at h
  | some r =>
    by_cases he : q.items.toList = []
    · simp [hp, he] at h
    · simp only [hp, Option.map_some, he, if_false, Option.some.injEq] at h
      simp [← h]

end Queue

end SerialWriter
