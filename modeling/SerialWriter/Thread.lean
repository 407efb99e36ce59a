/-!
Threads, the moments of the clock they share, and rosters: what each thread is in the middle of.
-/

namespace SerialWriter

/-- A thread: one that calls a writer from outside, or the worker of one life of a writer. -/
inductive Thread
  | client (n : Nat)
  | worker (n : Nat)
  deriving DecidableEq, Repr, Inhabited

/-- A moment of the clock, in nanoseconds. -/
abbrev Time := Int

/-- The moment `ms` milliseconds after `now` as the clock counts it: nanoseconds in a signed 64-bit
word, so that a moment beyond the word comes out as another one, a past one for instance. -/
def Time.after (now : Time) (ms : Int) : Time := (now + ms * 1000000).bmod UInt64.size

/-- The span of `ms` milliseconds as the clock measures it, in a word of the same kind. -/
def Time.span (ms : Int) : Int := (ms * 1000000).bmod UInt64.size

/-- The moment is one that the clock can count. -/
def Time.InWord (x : Int) : Prop := -9223372036854775808 ≤ x ∧ x ≤ 9223372036854775807

instance (x : Int) : Decidable (Time.InWord x) := inferInstanceAs (Decidable (_ ∧ _))

theorem Time.after_of_inWord {now : Time} {ms : Int} (h : Time.InWord (now + ms * 1000000)) :
    now.after ms = now + ms * 1000000 := by
  have hsize : (UInt64.size : Int) = 18446744073709551616 := rfl
  obtain ⟨hlow, hhigh⟩ := h
  rw [Time.after, Int.bmod_eq_of_le] <;> rw [hsize] <;> omega

/-- For each thread, what it is in the middle of, if anything. -/
structure Roster (α : Type) where
  entries : List (Thread × α) := []
  deriving Repr

namespace Roster

variable {α β : Type}

instance : Inhabited (Roster α) := ⟨{}⟩

/-- What `t` is in the middle of. -/
def get? (r : Roster α) (t : Thread) : Option α := r.entries.lookup t

/-- `t` is now in the middle of `a`. -/
def put (r : Roster α) (t : Thread) (a : α) : Roster α :=
  ⟨(t, a) :: r.entries.filter fun e => decide (e.1 ≠ t)⟩

/-- `t` is idle. -/
def drop (r : Roster α) (t : Thread) : Roster α :=
  ⟨r.entries.filter fun e => decide (e.1 ≠ t)⟩

/-- The threads in the middle of something. -/
def threads (r : Roster α) : List Thread := r.entries.map (·.1)

/-- Every entry changed by `f`. -/
def map (f : α → β) (r : Roster α) : Roster β := ⟨r.entries.map fun e => (e.1, f e.2)⟩

/-! ### Looking up -/

theorem lookup_filter_self (l : List (Thread × α)) (t : Thread) :
    (l.filter fun e => decide (e.1 ≠ t)).lookup t = none := by
  induction l with
  | nil => rfl
  | cons e l ih =>
    obtain ⟨u, a⟩ := e
    by_cases h : u = t
    · simp only [List.filter_cons, h, ne_eq, not_true_eq_false, decide_false, Bool.false_eq_true,
        if_false]
      exact ih
    · have hb : (t == u) = false := beq_eq_false_iff_ne.mpr (Ne.symm h)
      simp only [List.filter_cons, h, ne_eq, not_false_eq_true, decide_true, if_true,
        List.lookup_cons, hb]
      exact ih

theorem lookup_filter_ne (l : List (Thread × α)) {t u : Thread} (h : u ≠ t) :
    (l.filter fun e => decide (e.1 ≠ t)).lookup u = l.lookup u := by
  induction l with
  | nil => rfl
  | cons e l ih =>
    obtain ⟨v, a⟩ := e
    by_cases hv : v = t
    · have hb : (u == v) = false := beq_eq_false_iff_ne.mpr (hv ▸ h)
      simp only [List.filter_cons, hv, ne_eq, not_true_eq_false, decide_false, Bool.false_eq_true,
        if_false, List.lookup_cons]
      rw [← hv, hb]
      exact hv ▸ ih
    · simp only [List.filter_cons, hv, ne_eq, not_false_eq_true, decide_true, if_true,
        List.lookup_cons]
      rw [show List.lookup u (l.filter fun e => decide ¬e.1 = t) = l.lookup u from ih]

@[simp] theorem get?_put_self (r : Roster α) (t : Thread) (a : α) :
    (r.put t a).get? t = some a := by
  simp [get?, put]

theorem get?_put_ne (r : Roster α) {t u : Thread} (a : α) (h : u ≠ t) :
    (r.put t a).get? u = r.get? u := by
  have : (u == t) = false := by simp [h]
  simp only [get?, put, List.lookup_cons, this]
  exact lookup_filter_ne r.entries h

@[simp] theorem get?_drop_self (r : Roster α) (t : Thread) : (r.drop t).get? t = none :=
  lookup_filter_self r.entries t

theorem get?_drop_ne (r : Roster α) {t u : Thread} (h : u ≠ t) : (r.drop t).get? u = r.get? u :=
  lookup_filter_ne r.entries h

theorem get?_put (r : Roster α) (t u : Thread) (a : α) :
    (r.put t a).get? u = if u = t then some a else r.get? u := by
  by_cases h : u = t
  · rw [if_pos h, h, get?_put_self]
  · rw [if_neg h, get?_put_ne r a h]

theorem get?_drop (r : Roster α) (t u : Thread) :
    (r.drop t).get? u = if u = t then none else r.get? u := by
  by_cases h : u = t
  · rw [if_pos h, h, get?_drop_self]
  · rw [if_neg h, get?_drop_ne r h]

@[simp] theorem get?_map (f : α → β) (r : Roster α) (t : Thread) :
    (r.map f).get? t = (r.get? t).map f := by
  obtain ⟨l⟩ := r
  simp only [get?, map]
  induction l with
  | nil => rfl
  | cons e l ih =>
    obtain ⟨u, a⟩ := e
    rw [List.map_cons, List.lookup_cons, List.lookup_cons]
    cases t == u with
    | true => rfl
    | false => exact ih

/-- What a test says of all entries holds of every thread. -/
theorem of_all {r : Roster α} {p : Thread → α → Bool}
    (h : (r.entries.all fun e => p e.1 e.2) = true) {t : Thread} {a : α} (ht : r.get? t = some a) :
    p t a = true := by
  obtain ⟨l₁, l₂, hl, -⟩ := List.lookup_eq_some_iff.mp ht
  refine List.all_eq_true.mp h (t, a) ?_
  rw [hl]
  exact List.mem_append_right _ List.mem_cons_self

end Roster

end SerialWriter
