import SerialWriter.Proofs.Queue.Log
import SerialWriter.Proofs.Queue.Signals
import SerialWriter.Proofs.Run

/-!
What goes in and out of a shared queue. Every move, by what it does; what is noted of it; the
bounded first-in first-out sequence that serves one caller after the other; and that every run of
threads at a shared queue is served like that.
-/

namespace SerialWriter.SharedQueue

variable {α : Type}

/-! ### Room -/

/-- **A queue with room for `n` items holds no more**, and its threads are in order. -/
structure WithinCapacity (n : Nat) (s : SharedQueue α) : Prop extends s.OfCapacity n where
  room : s.items.length ≤ n

namespace WithinCapacity

variable {n : Nat} {s s' : SharedQueue α} {t : Thread} {a : α}

lemma new (n : Nat) : ({ queue := { capacity := n } } : SharedQueue α).WithinCapacity n :=
  ⟨⟨rfl, .empty⟩, Nat.zero_le n⟩

lemma put (h : s.WithinCapacity n) (t : Thread) (stage : QueueStage) :
    ({ s with stages := s.stages.put t stage } : SharedQueue α).WithinCapacity n :=
  ⟨h.toOfCapacity.put t stage, h.room⟩

lemma wake (h : s.WithinCapacity n) (t : Thread) : (s.wake t).WithinCapacity n :=
  ⟨⟨h.capacity, h.proper.put t _⟩, h.room⟩

lemma clear (h : s.WithinCapacity n) : s.clear.WithinCapacity n :=
  ⟨⟨h.capacity, h.proper⟩, Nat.zero_le n⟩

lemma rouse (h : s.WithinCapacity n) (t : Thread) : (s.rouse t).WithinCapacity n :=
  ⟨h.toOfCapacity.rouse t, (SameLog.rouse s t).items.symm ▸ h.room⟩

lemma notify (h : s.WithinCapacity n) {chosen : Option Thread} (hn : s.notify t chosen = some s') :
    s'.WithinCapacity n :=
  ⟨h.toOfCapacity.notify hn, (SameLog.notify hn).items ▸ h.room⟩

lemma room_of_offer (h : s.WithinCapacity n) (ho : s.offer t a = (true, s')) :
    s.items.length < n := by
  have hfst := s.queue.offer_fst a
  unfold SharedQueue.offer at ho
  split at ho
  rename_i ok q hq
  split at ho
  · rename_i hok
    rw [hq, hok, eq_comm, decide_eq_true_eq, h.capacity] at hfst
    exact hfst
  · cases ho

lemma full_of_offer (h : s.WithinCapacity n) (ho : s.offer t a = (false, s')) :
    s.items.length = n := by
  refine Nat.le_antisymm h.room (Nat.le_of_not_lt fun hlt => ?_)
  obtain ⟨q, hq⟩ := exists_offer t a (h.capacity.symm ▸ hlt)
  cases ho.symm.trans hq

lemma offer (h : s.WithinCapacity n) (ho : s.offer t a = (true, s')) : s'.WithinCapacity n := by
  refine ⟨h.toOfCapacity.offer ho, ?_⟩
  rw [(offer_true ho).1, List.length_append]
  exact h.room_of_offer ho

lemma pop (h : s.WithinCapacity n) (t : Thread) : (s.pop t).2.WithinCapacity n := by
  refine ⟨h.toOfCapacity.pop t, Nat.le_trans ?_ h.room⟩
  rw [(popped_pop s t).items, List.length_append]
  exact Nat.le_add_left ..

end WithinCapacity

/-- **What a single step can do to a queue**, whoever makes it. -/
inductive Changes (s : SharedQueue α) : SharedQueue α → Prop
  | rests : s.Changes s
  | offers {t : Thread} {a : α} {s' : SharedQueue α} (h : s.offer t a = (true, s')) : s.Changes s'
  | wakes (t : Thread) : s.Changes (s.wake t)
  | notifies {t : Thread} {chosen : Option Thread} {s' : SharedQueue α}
      (h : s.notify t chosen = some s') : s.Changes s'
  | pops (t : Thread) : s.Changes (s.pop t).2
  | waits (t : Thread) (d : Time) :
      s.Changes { s with stages := s.stages.put t (.waiting d false) }
  | clears : s.Changes s.clear
  | rouses (t : Thread) : s.Changes (s.rouse t)

namespace Changes

variable {n : Nat} {s s' : SharedQueue α}

lemma withinCapacity (h : s.Changes s') (hs : s.WithinCapacity n) : s'.WithinCapacity n := by
  cases h with
  | rests => exact hs
  | offers ho => exact hs.offer ho
  | wakes t => exact hs.wake t
  | notifies hn => exact hs.notify hn
  | pops t => exact hs.pop t
  | waits t d => exact hs.put t _
  | clears => exact hs.clear
  | rouses t => exact hs.rouse t

lemma exact (h : s.Changes s') (hs : s.Exact) : s'.Exact := by
  cases h with
  | rests => exact hs
  | offers ho => exact size_offer ho
  | wakes t => exact (SameLog.wake s t).exact hs
  | notifies hn => exact (SameLog.notify hn).exact hs
  | pops t => exact (popped_pop s t).exact hs
  | waits _ _ => exact hs
  | clears => exact rfl
  | rouses t => exact (SameLog.rouse s t).exact hs

end Changes

/-! ### Every move at a shared queue -/

lemma settled_iff {s : SharedQueue α} :
    s.queue.settled = true ↔ s.items ≠ [] ∨ s.queue.awake = true := by
  rw [Queue.settled, Bool.or_eq_true, Bool.not_eq_true', ← Bool.not_eq_true,
    s.queue.items.isEmpty_iff]
  rfl

lemma pop_fst_eq (s : SharedQueue α) (t : Thread) : (s.pop t).1 = s.items.head? := s.queue.pop_fst

namespace Scene

/-- **What a move does**, with what the calling thread learns. -/
inductive Turn (s : Scene α) : Move α → Reply α → Scene α → Prop
  | accepts {t : Thread} {a : α} {q : SharedQueue α} (hi : s.shared.stages.get? t = none)
      (h : s.shared.offer t a = (true, q)) :
      Turn s (.offer t a) (.offered true) { s with shared := q }
  | refuses {t : Thread} {a : α} (hi : s.shared.stages.get? t = none)
      (h : s.shared.offer t a = (false, s.shared)) : Turn s (.offer t a) (.offered false) s
  | wakes {t : Thread} (hi : s.shared.stages.get? t = none) :
      Turn s (.wake t) .quiet { s with shared := s.shared.wake t }
  | notifies {t : Thread} {chosen : Option Thread} {q : SharedQueue α}
      (h : s.shared.notify t chosen = some q) :
      Turn s (.notify t chosen) .quiet { s with shared := q }
  /-- A take ends at once. -/
  | takes {t : Thread} {budget : Int} (hi : s.shared.stages.get? t = none)
      (h : budget ≤ 0 ∨ s.shared.queue.settled = true) :
      Turn s (.take t budget) (.took (s.shared.pop t).1) { s with shared := (s.shared.pop t).2 }
  /-- A take begins to wait. -/
  | waits {t : Thread} {budget : Int} (hi : s.shared.stages.get? t = none) (hb : 0 < budget)
      (h : s.shared.queue.settled = false) :
      Turn s (.take t budget) .quiet { s with shared := { s.shared with
        stages := s.shared.stages.put t (.waiting (s.now.after budget) false) } }
  /-- A take that has waited ends. -/
  | ends {t : Thread} {d : Time} {b : Bool} (ht : s.shared.stages.get? t = some (.waiting d b))
      (h : s.shared.queue.settled = true ∧ b = true ∨ d ≤ s.now) :
      Turn s (.retake t) (.took (s.shared.pop t).1) { s with shared := (s.shared.pop t).2 }
  /-- A take that has waited waits on. -/
  | waitsOn {t : Thread} {d : Time} (ht : s.shared.stages.get? t = some (.waiting d true))
      (h : s.shared.queue.settled = false) (hd : s.now < d) :
      Turn s (.retake t) .quiet { s with shared := { s.shared with
        stages := s.shared.stages.put t (.waiting d false) } }
  | clears {t : Thread} (hi : s.shared.stages.get? t = none) :
      Turn s (.clear t) .quiet { s with shared := s.shared.clear }
  | visits {t : Thread} (hi : s.shared.stages.get? t = none) :
      Turn s (.visit t) (.visited s.shared.items) s
  | stirs {t : Thread} : Turn s (.stir t) .quiet { s with shared := s.shared.rouse t }
  | passes {d : Nat} : Turn s (.pass d) .quiet { s with now := s.now + d }

variable {s s' : Scene α} {m : Move α} {r : Reply α} {t : Thread}

lemma Turn.changes (h : s.Turn m r s') : s.shared.Changes s'.shared := by
  cases h with
  | accepts _ ho => exact .offers ho
  | wakes _ => exact .wakes _
  | notifies hn => exact .notifies hn
  | takes _ _ | ends _ _ => exact .pops _
  | waits _ _ _ | waitsOn _ _ _ => exact .waits _ _
  | clears _ => exact .clears
  | stirs => exact .rouses _
  | refuses _ _ | visits _ | passes => exact .rests

lemma turn_of_retake (h : s.step (.retake t) = some (r, s')) : s.Turn (.retake t) r s' := by
  simp only [step] at h
  unfold retake at h
  cases ht : s.shared.stages.get? t with
  | none =>
    rw [ht] at h
    cases h
  | some stage =>
    rw [ht] at h
    cases stage with
    | notifying b => cases h
    | waiting d b =>
      by_cases hd : d ≤ s.now
      · simp only [hd, or_true, if_true] at h
        cases h
        exact .ends ht (.inr hd)
      · cases hs : s.shared.queue.settled <;> cases b <;>
          simp only [hs, hd, or_false, if_true, if_false, Bool.false_eq_true, reduceCtorEq] at h
        · cases h
          exact .waitsOn ht hs (Int.not_le.mp hd)
        · cases h
          exact .ends ht (.inl ⟨hs, rfl⟩)

theorem turn_of_step (h : s.step m = some (r, s')) : s.Turn m r s' := by
  cases m with
  | offer t a =>
    simp only [step, Option.ite_none_right_eq_some, Option.some.injEq] at h
    obtain ⟨hi, h⟩ := h
    cases ho : s.shared.offer t a with
    | mk ok q =>
      rw [ho] at h
      cases h
      cases ok with
      | true => exact .accepts hi ho
      | false =>
        obtain rfl := offer_false ho
        exact .refuses hi ho
  | wake t =>
    simp only [step, Option.ite_none_right_eq_some, Option.some.injEq] at h
    obtain ⟨hi, h⟩ := h
    cases h
    exact .wakes hi
  | notify t chosen =>
    obtain ⟨q, hq, h⟩ := Option.map_eq_some_iff.mp h
    cases h
    exact .notifies hq
  | take t budget =>
    simp only [step, Option.ite_none_right_eq_some] at h
    obtain ⟨hi, h⟩ := h
    unfold take Queue.immediate at h
    by_cases hb : budget ≤ 0 ∨ s.shared.queue.settled = true
    · rw [if_pos (by simpa using hb)] at h
      cases h
      exact .takes hi hb
    · rw [if_neg (by simpa using hb)] at h
      cases h
      rw [not_or, Bool.not_eq_true, Int.not_le] at hb
      exact .waits hi hb.1 hb.2
  | retake t => exact turn_of_retake h
  | clear t =>
    simp only [step, Option.ite_none_right_eq_some, Option.some.injEq] at h
    obtain ⟨hi, h⟩ := h
    cases h
    exact .clears hi
  | visit t =>
    simp only [step, Option.ite_none_right_eq_some, Option.some.injEq] at h
    obtain ⟨hi, h⟩ := h
    cases h
    exact .visits hi
  | stir t =>
    cases h
    exact .stirs
  | pass d =>
    cases h
    exact .passes

end Scene

/-! ### What is noted -/

/-- **What can be noted of a move.** -/
inductive Event (α : Type)
  | offered (t : Thread) (a : α) (accepted : Bool)
  /-- A take of the thread has come to its end. -/
  | took (t : Thread) (item : Option α)
  /-- The thread has dropped all these items. -/
  | cleared (t : Thread) (items : List α)
  | visited (t : Thread) (items : List α)
  | woke (t : Thread)
  deriving DecidableEq, Repr

/-- What went in, in order, with the thread that had it. -/
def arrivals (es : List (Event α)) : List (Thread × α) :=
  es.filterMap fun
    | .offered t a true => some (t, a)
    | _ => none

/-- What went out, in order: one by one, or dropped all at once. -/
def departures (es : List (Event α)) : List α :=
  es.flatMap fun
    | .took _ r => r.toList
    | .cleared _ as => as
    | _ => []

/-- What `t` put in, in order. -/
def arrivalsOf (t : Thread) (es : List (Event α)) : List α :=
  ((arrivals es).filter fun e => decide (e.1 = t)).map (·.2)

namespace Scene

def noted (s : Scene α) : Move α → Reply α → Option (Event α)
  | .offer t a, .offered b => some (.offered t a b)
  | .take t _, .took r | .retake t, .took r => some (.took t r)
  | .clear t, _ => some (.cleared t s.shared.items)
  | .visit t, .visited as => some (.visited t as)
  | .wake t, _ => some (.woke t)
  | _, _ => none

def next (s : Scene α) (m : Move α) : Option (Scene α) := (s.step m).map (·.2)

def note (s : Scene α) (m : Move α) (_ : Scene α) : Option (Event α) :=
  (s.step m).bind fun r => s.noted m r.1

/-- A queue that nothing has happened to. -/
def fresh (n : Nat) : Scene α := { shared := { queue := { capacity := n } } }

variable {s s' : Scene α} {m : Move α}

lemma exists_turn (h : s.next m = some s') :
    ∃ r, s.step m = some (r, s') ∧ s.Turn m r s' ∧ s.note m s' = s.noted m r := by
  obtain ⟨⟨r, v⟩, hs, rfl⟩ := Option.map_eq_some_iff.mp h
  exact ⟨r, hs, turn_of_step hs, by rw [note, hs, Option.bind_some]⟩

end Scene

/-- **A run of threads at a queue** with room for `n` items, with what is noted of it. -/
def Run (n : Nat) (es : List (Event α)) (s : Scene α) : Prop :=
  Chronicle Scene.next Scene.note (fun _ => True) (.fresh n) es s

lemma Run.snoc {n : Nat} {es : List (Event α)} {s s' : Scene α} {m : Move α} {r : Reply α}
    (h : Run n es s) (hs : s.step m = some (r, s')) : Run n (es ++ (s.noted m r).toList) s' := by
  have hn : s.note m s' = s.noted m r := by rw [Scene.note, hs, Option.bind_some]
  have hnext : s.next m = some s' := by rw [Scene.next, hs, Option.map_some]
  exact hn ▸ Chronicle.step m h hnext trivial

/-! ### One caller after the other -/

/-- **How a first-in first-out sequence with room for `n` items serves its callers.** -/
inductive Serves (n : Nat) : List α → Option (Event α) → List α → Prop
  | accepts {l : List α} {t : Thread} {a : α} (h : l.length < n) :
      Serves n l (some (.offered t a true)) (l ++ [a])
  | refuses {l : List α} {t : Thread} {a : α} (h : l.length = n) :
      Serves n l (some (.offered t a false)) l
  | gives {l : List α} {t : Thread} {a : α} : Serves n (a :: l) (some (.took t (some a))) l
  | lacks {t : Thread} : Serves n [] (some (.took t none)) []
  | clears {l : List α} {t : Thread} : Serves n l (some (.cleared t l)) []
  | shows {l : List α} {t : Thread} : Serves n l (some (.visited t l)) l
  | wakes {l : List α} {t : Thread} : Serves n l (some (.woke t)) l
  | rests {l : List α} : Serves n l none l

/-- Callers served one after the other, from nothing pending to `l`. -/
inductive Served (n : Nat) : List (Event α) → List α → Prop
  | start : Served n [] []
  | serve {es : List (Event α)} {ev : Option (Event α)} {l l' : List α} (h : Served n es l)
      (hs : Serves n l ev l') : Served n (es ++ ev.toList) l'

section Laws

variable {n : Nat} {es : List (Event α)} {ev : Option (Event α)} {l l' : List α} {t : Thread}

lemma arrivals_append (es : List (Event α)) (ev : Option (Event α)) :
    arrivals (es ++ ev.toList) = arrivals es ++ arrivals ev.toList :=
  List.filterMap_append

lemma departures_append (es : List (Event α)) (ev : Option (Event α)) :
    departures (es ++ ev.toList) = departures es ++ departures ev.toList :=
  List.flatMap_append

/-- What is pending and what comes in is what goes out and what stays. -/
lemma Serves.balance (h : Serves n l ev l') :
    l ++ (arrivals ev.toList).map (·.2) = departures ev.toList ++ l' := by
  cases h <;> simp [arrivals, departures]

theorem Served.order (h : Served n es l) : (arrivals es).map (·.2) = departures es ++ l := by
  induction h with
  | start => rfl
  | @serve es ev l l' _ hs ih =>
    calc (arrivals (es ++ ev.toList)).map (·.2)
        = departures es ++ (l ++ (arrivals ev.toList).map (·.2)) := by
          rw [arrivals_append, List.map_append, ih, List.append_assoc]
      _ = departures (es ++ ev.toList) ++ l' := by
          rw [hs.balance, departures_append, List.append_assoc]

/-- **Nobody's items overtake each other**: if the items show who put them in, those of `t` that
have gone out, and then those of `t` that are pending, are what `t` put in, in order. -/
theorem Served.order_of (h : Served n es l) {owner : α → Thread}
    (ho : ∀ e ∈ arrivals es, owner e.2 = e.1) (t : Thread) :
    arrivalsOf t es = (departures es ++ l).filter fun a => decide (owner a = t) := by
  rw [arrivalsOf, ← h.order, List.filter_map]
  refine congrArg (List.map _) (List.filter_congr fun e he => ?_)
  simp only [Function.comp, ho e he]

end Laws

/-! ### Every run is served like that -/

section Runs

variable {n : Nat} {es : List (Event α)} {s s' : Scene α} {m : Move α} {r : Reply α}

/-- **What every run keeps**: the bound, and that the number anyone may read is that of the pending
items. -/
structure Counted (n : Nat) (s : SharedQueue α) : Prop extends s.WithinCapacity n where
  size : s.size = s.items.length

lemma counted_of_turn (h : s.shared.Counted n) (ht : s.Turn m r s') : s'.shared.Counted n :=
  ⟨ht.changes.withinCapacity h.toWithinCapacity, ht.changes.exact h.size⟩

lemma serves_pop (n : Nat) (q : SharedQueue α) (t : Thread) :
    Serves n q.items (some (.took t (q.pop t).1)) (q.pop t).2.items := by
  rw [(popped_pop q t).items]
  cases hr : (q.pop t).1 with
  | none =>
    -- nothing goes out only if nothing is pending
    have hnil : q.items = [] := List.head?_eq_none_iff.mp (pop_fst_eq q t ▸ hr)
    have hi := (popped_pop q t).items
    rw [hr, hnil] at hi
    rw [← show [] = (q.pop t).2.items from hi]
    exact .lacks
  | some a => exact .gives

theorem serves_of_turn (h : s.shared.Counted n) (ht : s.Turn m r s') :
    Serves n s.shared.items (s.noted m r) s'.shared.items := by
  cases ht with
  | accepts _ ho =>
    rw [(offer_true ho).1]
    exact .accepts (h.toWithinCapacity.room_of_offer ho)
  | refuses _ ho => exact .refuses (h.toWithinCapacity.full_of_offer ho)
  | wakes _ => exact .wakes
  | notifies hn =>
    rw [(SameLog.notify hn).items]
    exact .rests
  | takes _ _ | ends _ _ => exact serves_pop n s.shared _
  | waits _ _ _ | waitsOn _ _ _ | passes => exact .rests
  | clears _ => exact .clears
  | visits _ => exact .shows
  | stirs =>
    rw [(SameLog.rouse _ _).items]
    exact .rests

lemma counted_of_run (h : Run n es s) : s.shared.Counted n := by
  induction h with
  | refl _ => exact ⟨.new n, rfl⟩
  | step m _ hs _ ih =>
    obtain ⟨r, -, ht, -⟩ := Scene.exists_turn hs
    exact counted_of_turn ih ht

/-- **A shared queue is a first-in first-out sequence**: whatever its threads do, it serves them as
if one came after the other. -/
theorem served_of_run (h : Run n es s) : Served n es s.shared.items := by
  induction h with
  | refl _ => exact .start
  | step m h hs _ ih =>
    obtain ⟨r, -, ht, hn⟩ := Scene.exists_turn hs
    rw [hn]
    exact ih.serve (serves_of_turn (counted_of_run h) ht)

/-- **The bounded queue** at the end of a run. -/
structure Fair (n : Nat) (es : List (Event α)) (s : Scene α) : Prop where
  /-- The callers are served as if one came after the other. -/
  served : Served n es s.shared.items
  /-- What went in is what went out, in order, and then what is pending. -/
  order : (arrivals es).map (·.2) = departures es ++ s.shared.items
  /-- An offer is answered; it is refused exactly if `n` items are pending, and then it leaves
  everything as it is. -/
  offers : ∀ t a, s.shared.stages.get? t = none → ∃ s',
    s.step (.offer t a) = some (.offered (decide (s.shared.items.length ≠ n)), s') ∧
      (s.shared.items.length = n → s' = s)
  /-- A take that comes to its end gives the oldest item, and nothing only if nothing is
  pending. -/
  takes : ∀ m r s', s.step m = some (.took r, s') → r = s.shared.items.head?
  /-- No more is pending than there is room for. -/
  room : s.shared.items.length ≤ n
  /-- What can be read without the lock is the number of pending items, and whether there are
  any. -/
  count : s.shared.size = s.shared.items.length ∧
    (s.shared.queue.empty = true ↔ s.shared.items = [])
  /-- What one thread has put in goes out in the order in which it went in. -/
  producers : ∀ owner : α → Thread, (∀ e ∈ arrivals es, owner e.2 = e.1) → ∀ t,
    arrivalsOf t es = (departures es ++ s.shared.items).filter fun a => decide (owner a = t)

/-- **Every run keeps the queue a bounded first-in first-out sequence**, for any room, also for
none, and whatever ends the waits. -/
theorem fair_of_run (h : Run n es s) : Fair n es s := by
  have hc := counted_of_run h
  have hserved := served_of_run h
  refine ⟨hserved, hserved.order, fun t a hi => ?_, fun m r s' hs => ?_, hc.room, ⟨hc.size, ?_⟩,
    fun owner ho t => hserved.order_of ho t⟩
  · have hstep : s.step (.offer t a) =
        some (.offered (s.shared.offer t a).1, { s with shared := (s.shared.offer t a).2 }) := by
      simp only [Scene.step, hi, if_true]
    rcases Nat.lt_or_eq_of_le hc.room with hlt | heq
    · obtain ⟨q, hq⟩ := exists_offer t a (hc.capacity.symm ▸ hlt)
      rw [hq] at hstep
      rw [decide_eq_true (Nat.ne_of_lt hlt)]
      exact ⟨_, hstep, fun heq => (Nat.ne_of_lt hlt heq).elim⟩
    · cases ho : s.shared.offer t a with
      | mk ok q =>
        cases ok with
        | true => exact (Nat.ne_of_lt (hc.toWithinCapacity.room_of_offer ho) heq).elim
        | false =>
          rw [ho, offer_false ho] at hstep
          rw [decide_eq_false (fun hne => hne heq)]
          exact ⟨_, hstep, fun _ => rfl⟩
  · cases Scene.turn_of_step hs with
    | takes _ _ | ends _ _ => exact pop_fst_eq ..
  · rw [Queue.empty, decide_eq_true_eq, ← List.length_eq_zero_iff, ← hc.size]
    rfl

/-- Two producers and a consumer at a queue with room for two: the consumer has to wait, one item
too many is offered, and what is left is dropped. -/
def crowdedMoves : List (Move Nat) :=
  [.take (.client 9) 5, .offer (.client 0) 10, .notify (.client 0) (some (.client 9)),
    .retake (.client 9), .offer (.client 0) 11, .notify (.client 0) none, .offer (.client 1) 20,
    .notify (.client 1) none, .offer (.client 1) 21, .visit (.client 2), .take (.client 9) 0,
    .clear (.client 2)]

def crowdedEvents : List (Event Nat) :=
  [.offered (.client 0) 10 true, .took (.client 9) (some 10), .offered (.client 0) 11 true,
    .offered (.client 1) 20 true, .offered (.client 1) 21 false, .visited (.client 2) [11, 20],
    .took (.client 9) (some 11), .cleared (.client 2) [20]]

theorem fair_of_crowd : ∃ s, Run 2 crowdedEvents s ∧ s.shared.items = [] ∧
    departures crowdedEvents = [10, 11, 20] ∧ Fair 2 crowdedEvents s := by
  obtain ⟨es, s, h, hf⟩ : ∃ es s,
      Chronicle Scene.next Scene.note (fun _ => true = true) (.fresh 2) es s ∧
        (es, s.shared.items) = (crowdedEvents, []) := exists_chronicle crowdedMoves rfl
  obtain ⟨rfl, hi⟩ := Prod.mk.inj hf
  have hrun : Run 2 crowdedEvents s := h.mono fun _ _ => trivial
  exact ⟨s, hrun, hi, rfl, fair_of_run hrun⟩

end Runs

end SerialWriter.SharedQueue
