import SerialWriter.Proofs.Control.Doomed
import SerialWriter.Proofs.Roster
import SerialWriter.Proofs.Writer.Conduct
import SerialWriter.Proofs.Writer.Serial

/-!
Conservation of tasks: every task that was accepted is counted as submitted or about to be, and is
executed, pending, in hand, or lost by the one fault that has ended the worker. Every write that has
got an envelope counts its submission or its loss, once.
-/

namespace SerialWriter

variable {σ V : Type}

/-! ### What is counted -/

/-- A write whose offer has succeeded and that has yet to count its submission. -/
def CallOfWriter.owing : CallOfWriter σ V → Bool
  | .writing _ (.notifying _) | .writing _ (.counting _) => true
  | _ => false

/-- A worker between dequeuing a ticket and counting its task as executed. -/
def CycleStage.owed : CycleStage σ V → Bool
  | .dequeued _ | .running _ _ | .counting _ => true
  | .measuring _ => false

/-- What a write enters into the books. -/
inductive WriteNote
  | made (ticket : Nat)
  | entered (ticket : Nat)
  | submitted (ticket : Nat)
  | dropped

/-- What became of the ticket of a write. -/
inductive WriteEntry
  | kept (ticket : Nat)
  | lost (ticket : Nat)

def WriteEntry.notes : WriteEntry → List WriteNote
  | kept k => [.made k, .entered k, .submitted k]
  | lost k => [.made k, .dropped]

namespace Writer

namespace Event

/-- What the event enters into the books of the writes of `t`. -/
def noteOf? (t : Thread) : Event σ V → Option WriteNote
  | .made u _ k => if u = t then some (.made k) else none
  | .entered u _ k => if u = t then some (.entered k) else none
  | .submitted u k => if u = t then some (.submitted k) else none
  | .dropped u => if u = t then some .dropped else none
  | _ => none

def isSubmitted : Event σ V → Bool
  | .submitted _ _ => true
  | _ => false

def isDropped : Event σ V → Bool
  | .dropped _ => true
  | _ => false

def isSpoiled : Event σ V → Bool
  | .spoiled _ _ _ => true
  | _ => false

end Event

/-- How many cycles were ended by a fault before their task was counted as executed. -/
def lost (es : List (Event σ V)) : Nat := es.countP Event.isSpoiled

/-- How many writes have had an offer accepted and have yet to count it. -/
def owing (w : Writer σ V) : Nat := w.calls.count CallOfWriter.owing

/-- How many workers are between dequeuing a ticket and counting its task as executed. -/
def inHand (w : Writer σ V) : Nat := w.cycles.count CycleStage.owed

end Writer

open Writer (Event lost)

/-! ### The equations, part by part -/

namespace Affairs

variable {c d : Affairs σ V} {ev : Option (Event σ V)} {t : Thread} {n l l' : Nat}

/-- What is pending, and what has come and gone. -/
structure Stored (c : Affairs σ V) : Prop where
  queued : c.queued = c.pending.length
  split : c.accepted.length = c.pending.length + c.removed.length

/-- Every ticket that was accepted is counted as submitted, or a write owes it. -/
structure Entered (c : Affairs σ V) : Prop where
  proper : c.calls.Proper
  balance : c.submitted + c.calls.count CallOfWriter.owing = c.accepted.length

/-- Every ticket that was taken is counted as executed, or a worker owes it, or it is one of the `l`
that are lost. -/
structure Taken (c : Affairs σ V) (l : Nat) : Prop where
  proper : c.cycles.Proper
  balance : c.executed + c.cycles.count CycleStage.owed + l = c.removed.length

lemma Stored.step (h : c.Stored) (hs : c.Step ev d) : d.Stored := by
  have hsplit := h.split
  cases hs with
  | clears _ =>
    refine ⟨rfl, ?_⟩
    simp only [List.length_nil, List.length_append, List.length_reverse]
    omega
  | offers _ =>
    refine ⟨rfl, ?_⟩
    simp only [List.length_append, List.length_cons, List.length_nil]
    omega
  | @takes n k rest _ hp =>
    refine ⟨rfl, ?_⟩
    rw [hp, List.length_cons] at hsplit
    simp only [List.length_cons]
    omega
  | _ => exact ⟨h.queued, h.split⟩

lemma Free.not_owing (h : c.Free t) : (c.calls.get? t).any CallOfWriter.owing = false := by
  cases ha : c.calls.get? t with
  | none => rfl
  | some a =>
    have hw := h a ha
    cases a with
    | writing s stage => cases hw
    | _ => rfl

namespace Entered

lemma put (h : c.Entered) {a : CallOfWriter σ V} (hd : d.calls = c.calls.put t a)
    (hn : d.submitted + a.owing.toNat + c.accepted.length =
      c.submitted + ((c.calls.get? t).any CallOfWriter.owing).toNat + d.accepted.length) :
    d.Entered := by
  have hcount := h.proper.count_put t a CallOfWriter.owing
  have hbalance := h.balance
  refine ⟨hd ▸ h.proper.put t a, ?_⟩
  rw [hd]
  omega

lemma pass (h : c.Entered) {a : CallOfWriter σ V} (hd : d.calls = c.calls.put t a)
    (hs : d.submitted = c.submitted) (hacc : d.accepted = c.accepted)
    (ha : a.owing = (c.calls.get? t).any CallOfWriter.owing) : d.Entered :=
  h.put hd (by rw [hs, hacc, ha])

lemma drop (h : c.Entered) (hd : d.calls = c.calls.drop t)
    (hs : d.submitted = c.submitted) (hacc : d.accepted = c.accepted)
    (ha : (c.calls.get? t).any CallOfWriter.owing = false) : d.Entered := by
  have hcount := h.proper.count_drop t CallOfWriter.owing
  rw [ha, Bool.toNat_false, Nat.add_zero] at hcount
  refine ⟨hd ▸ h.proper.drop t, ?_⟩
  rw [hd, hs, hacc, hcount]
  exact h.balance

theorem step (h : c.Entered) (hs : c.Step ev d) : d.Entered := by
  have hnot : ∀ {a : CallOfWriter σ V}, a.isWrite = false → a.owing = false := by
    intro a ha
    cases a with
    | writing s stage => cases ha
    | _ => rfl
  cases hs with
  | turns ht ha => exact h.pass rfl rfl rfl ((hnot ha).trans ht.not_owing.symm)
  | quits ht => exact h.drop rfl rfl rfl (by rw [ht]; rfl)
  | walks ht ha => exact h.pass rfl rfl rfl ((hnot ha).trans (by rw [ht]; rfl))
  | clears ht => exact h.pass rfl rfl rfl (by rw [ht]; rfl)
  | requests ht => exact h.pass rfl rfl rfl (Eq.trans rfl ht.not_owing.symm)
  | admits ht => exact h.pass rfl rfl rfl (by rw [ht]; rfl)
  | refuses ht hs =>
    refine h.pass rfl rfl rfl ?_
    rw [ht]
    rcases hs with rfl | rfl <;> rfl
  | makes ht _ => exact h.pass rfl rfl rfl (by rw [ht]; rfl)
  | offers ht =>
    refine h.put rfl ?_
    rw [ht]
    simp only [CallOfWriter.owing, Option.any_some, List.length_cons, Bool.toNat_true,
      Bool.toNat_false]
    omega
  | misses ht => exact h.pass rfl rfl rfl (by rw [ht]; rfl)
  | notifies ht => exact h.pass rfl rfl rfl (by rw [ht]; rfl)
  | submits ht ha =>
    refine h.put rfl ?_
    rw [ht]
    rcases ha with rfl | ⟨d, rfl⟩ <;> rfl
  | drops ht => exact h.pass rfl rfl rfl (by rw [ht]; rfl)
  | hears ht => exact h.pass rfl rfl rfl (by rw [ht]; rfl)
  | collects ht _ => exact h.pass rfl rfl rfl (by rw [ht]; rfl)
  | parts ht _ => exact h.pass rfl rfl rfl (by rw [ht]; rfl)
  | bodyCalls _ _ ht ha _ =>
    refine h.pass rfl rfl rfl (Eq.trans ?_ ht.not_owing.symm)
    rcases ha with ha | ⟨s, rfl⟩
    · exact hnot ha
    · rfl
  | bodyReturns _ hr => exact h.drop rfl rfl rfl (by rw [hr]; rfl)
  | _ => exact ⟨h.proper, h.balance⟩

end Entered

namespace Taken

lemma put (h : c.Taken l) {y : CycleStage σ V} (hd : d.cycles = c.cycles.put (.worker n) y)
    (hn : d.executed + y.owed.toNat + l' + c.removed.length =
      c.executed + ((c.cycles.get? (.worker n)).any CycleStage.owed).toNat + l +
        d.removed.length) : d.Taken l' := by
  have hcount := h.proper.count_put (.worker n) y CycleStage.owed
  have hbalance := h.balance
  refine ⟨hd ▸ h.proper.put (.worker n) y, ?_⟩
  rw [hd]
  omega

lemma drop (h : c.Taken l) (hd : d.cycles = c.cycles.drop (.worker n))
    (hn : d.executed + l' + c.removed.length =
      c.executed + ((c.cycles.get? (.worker n)).any CycleStage.owed).toNat + l +
        d.removed.length) : d.Taken l' := by
  have hcount := h.proper.count_drop (.worker n) CycleStage.owed
  have hbalance := h.balance
  refine ⟨hd ▸ h.proper.drop (.worker n), ?_⟩
  rw [hd]
  omega

theorem step (h : c.Taken l) (hs : c.Step ev d)
    (hd : ∀ t, d.calls.get? t ≠ some .releasing) :
    d.Taken (l + (ev.any Event.isSpoiled).toNat) := by
  cases hs with
  | @clears t _ => exact absurd (Roster.get?_put_self ..) (hd t)
  | takes hy _ =>
    refine h.put rfl ?_
    rw [hy]
    simp only [CycleStage.owed, Option.any_none, Option.any_some, List.length_cons,
      Event.isSpoiled, Bool.toNat_true, Bool.toNat_false]
    omega
  | @idles n hy => exact h.drop (n := n) rfl (by rw [hy]; rfl)
  | opens hy _ => exact h.put rfl (by rw [hy]; rfl)
  | @body _ _ _ _ _ _ act hy _ _ =>
    refine h.put rfl ?_
    rw [hy]
    cases act <;> rfl
  | bodyCalls hy _ _ _ _ => exact h.put rfl (by rw [hy]; rfl)
  | bodyReturns hy _ => exact h.put rfl (by rw [hy]; rfl)
  | finishes hy => exact h.put rfl (by rw [hy]; rfl)
  | spoils hy _ =>
    refine h.drop rfl ?_
    rw [hy]
    simp only [CycleStage.owed, Option.any_some, Event.isSpoiled, Bool.toNat_true]
    omega
  | counts hy =>
    refine h.put rfl ?_
    rw [hy]
    simp only [CycleStage.owed, Option.any_none, Option.any_some, Bool.toNat_true,
      Bool.toNat_false]
    omega
  | closes hy => exact h.drop rfl (by rw [hy]; rfl)
  | _ => exact ⟨h.proper, h.balance⟩

end Taken

lemma Step.running_of_spoiled {k : Nat} {e : Failure} (hs : c.Step ev d)
    (hev : ev = some (.spoiled n k e)) : ∃ b, c.cycles.get? (.worker n) = some (.running k b) := by
  cases hs with
  | spoils hy _ =>
    cases hev
    exact ⟨_, hy⟩
  | @body _ _ _ _ _ _ act _ _ _ => cases act <;> cases hev
  | _ => cases hev

lemma Step.counters (hs : c.Step ev d) :
    d.submitted = c.submitted + (ev.any Event.isSubmitted).toNat ∧
      d.dropped = c.dropped + (ev.any Event.isDropped).toNat := by
  cases hs with
  | @body _ _ _ _ _ _ act _ _ _ => cases act <;> exact ⟨rfl, rfl⟩
  | _ => exact ⟨rfl, rfl⟩

end Affairs

/-! ### The books of one thread -/

/-- What the write that a thread is in the middle of has entered into the books so far. -/
def Opened (l : List WriteNote) : Option (CallOfWriter σ V) → Prop
  | some (.writing _ (.offering k)) => l = [.made k]
  | some (.writing _ .losing) => ∃ k, l = [.made k]
  | some (.writing _ (.notifying k)) | some (.writing _ (.counting k)) =>
    l = [.made k, .entered k]
  | _ => l = []

/-- **The books of `t`**: whole entries, and then what the write that it is in the middle of has
entered so far. -/
def Bookkept (t : Thread) (es : List (Event σ V)) (a? : Option (CallOfWriter σ V)) : Prop :=
  ∃ (entries : List WriteEntry) (l : List WriteNote),
    es.filterMap (Event.noteOf? t) = entries.flatMap WriteEntry.notes ++ l ∧ Opened l a?

lemma opened_of_not_write {l : List WriteNote} {a : CallOfWriter σ V} (ha : a.isWrite = false) :
    Opened l (some a) ↔ l = [] := by
  cases a with
  | writing s stage => cases ha
  | _ => exact Iff.rfl

lemma Affairs.Free.opened {c : Affairs σ V} {t : Thread} {l : List WriteNote} (h : c.Free t) :
    Opened l (c.calls.get? t) ↔ l = [] := by
  cases ha : c.calls.get? t with
  | none => exact Iff.rfl
  | some a => exact opened_of_not_write (h a ha)

namespace Bookkept

variable {c d : Affairs σ V} {ev : Option (Event σ V)} {es : List (Event σ V)} {t u : Thread}

/-- The call of `u` goes on, and closes its entry or goes on with it. -/
lemma move {a? b? : Option (CallOfWriter σ V)} (h : Bookkept t es a?)
    (hother : u ≠ t → b? = a? ∧ ev.bind (Event.noteOf? t) = none)
    (hown : ∀ l, Opened l a? → u = t → ∃ (entries : List WriteEntry) (l' : List WriteNote),
      l ++ (ev.bind (Event.noteOf? u)).toList = entries.flatMap WriteEntry.notes ++ l' ∧
        Opened l' b?) : Bookkept t (es ++ ev.toList) b? := by
  obtain ⟨entries, l, hl, ho⟩ := h
  by_cases hut : u = t
  · obtain ⟨entries', l', hl', ho'⟩ := hown l ho hut
    refine ⟨entries ++ entries', l', ?_, ho'⟩
    rw [filterMap_append_toList, hl, List.append_assoc, ← hut, hl', List.flatMap_append,
      List.append_assoc]
  · obtain ⟨rfl, hn⟩ := hother hut
    refine ⟨entries, l, ?_, ho⟩
    rw [filterMap_append_toList, hn, hl]
    exact List.append_nil _

/-- The call of `u` goes on, and what it has entered is still to be closed. -/
lemma put {r : Roster (CallOfWriter σ V)} {b : CallOfWriter σ V} (h : Bookkept t es (r.get? t))
    (hn : ev.bind (Event.noteOf? t) = none)
    (hown : ∀ l, Opened l (r.get? u) → Opened l (some b)) :
    Bookkept t (es ++ ev.toList) ((r.put u b).get? t) := by
  refine h.move (u := u) (fun hut => ⟨Roster.get?_put_ne _ _ (Ne.symm hut), hn⟩)
    fun l ho hut => ⟨[], l, ?_, ?_⟩
  · rw [hut, hn]
    exact List.append_nil _
  · rw [hut, Roster.get?_put_self]
    exact hown l (hut ▸ ho)

/-- The call of `u` goes on from `a`, with the same still to be closed. -/
lemma goes {r : Roster (CallOfWriter σ V)} {a b : CallOfWriter σ V} (h : Bookkept t es (r.get? t))
    (hn : ev.bind (Event.noteOf? t) = none) (hu : r.get? u = some a)
    (hown : ∀ l, Opened l (some a) → Opened l (some b)) :
    Bookkept t (es ++ ev.toList) ((r.put u b).get? t) := by
  refine h.put hn ?_
  rw [hu]
  exact hown

lemma drop {r : Roster (CallOfWriter σ V)} (h : Bookkept t es (r.get? t))
    (hn : ev.bind (Event.noteOf? t) = none) (hown : ∀ l, Opened l (r.get? u) → l = []) :
    Bookkept t (es ++ ev.toList) ((r.drop u).get? t) := by
  refine h.move (u := u) (fun hut => ⟨Roster.get?_drop_ne _ (Ne.symm hut), hn⟩)
    fun l ho hut => ⟨[], l, ?_, ?_⟩
  · rw [hut, hn]
    exact List.append_nil _
  · rw [hut, Roster.get?_drop_self]
    exact hown l (hut ▸ ho)

/-- The call of `u` enters something into the books. -/
lemma enter {r : Roster (CallOfWriter σ V)} {a b : CallOfWriter σ V} {e : Event σ V}
    (h : Bookkept t es (r.get? t)) (hu : r.get? u = some a)
    (hother : u ≠ t → e.noteOf? t = none)
    (hown : ∀ l, Opened l (some a) → ∃ (entries : List WriteEntry) (l' : List WriteNote),
      l ++ (e.noteOf? u).toList = entries.flatMap WriteEntry.notes ++ l' ∧ Opened l' (some b)) :
    Bookkept t (es ++ (some e).toList) ((r.put u b).get? t) := by
  refine h.move (u := u) (fun hut => ⟨Roster.get?_put_ne _ _ (Ne.symm hut), hother hut⟩)
    fun l ho hut => ?_
  rw [← hut, hu] at ho
  obtain ⟨entries, l', hl, ho'⟩ := hown l ho
  refine ⟨entries, l', hl, ?_⟩
  rw [hut, Roster.get?_put_self]
  exact ho'

theorem step (h : Bookkept t es (c.calls.get? t)) (hs : c.Step ev d) :
    Bookkept t (es ++ ev.toList) (d.calls.get? t) := by
  -- whoever has nothing open goes on with nothing open
  have hfree : ∀ {u : Thread} {b : CallOfWriter σ V}, c.Free u → (Opened [] (some b)) →
      ∀ l, Opened l (c.calls.get? u) → Opened l (some b) := by
    intro u b hu hb l hl
    rw [hu.opened.mp hl]
    exact hb
  have hsame : Bookkept t (es ++ (none : Option (Event σ V)).toList) (c.calls.get? t) :=
    (List.append_nil es).symm ▸ h
  cases hs with
  | turns ht ha => exact h.put rfl (hfree ht ((opened_of_not_write ha).mpr rfl))
  | quits ht =>
    refine h.drop rfl fun l hl => ?_
    rw [ht] at hl
    exact hl
  | walks ht ha => exact h.goes rfl ht fun _ hl => (opened_of_not_write ha).mpr hl
  | clears ht => exact h.goes rfl ht fun _ hl => hl
  | requests ht => exact h.put rfl (hfree ht rfl)
  | admits ht => exact h.goes rfl ht fun _ hl => hl
  | refuses ht hs =>
    refine h.goes rfl ht fun l hl => ?_
    rcases hs with rfl | rfl <;> exact hl
  | makes ht _ =>
    refine h.enter ht (fun hut => if_neg hut) fun l hl => ⟨[], _, ?_, rfl⟩
    obtain rfl : l = [] := hl
    simp only [Event.noteOf?, if_true, Option.toList_some, List.nil_append, List.flatMap_nil]
  | offers ht =>
    refine h.enter ht (fun hut => if_neg hut) fun l hl => ⟨[], _, ?_, rfl⟩
    obtain rfl : l = [.made _] := hl
    simp only [Event.noteOf?, if_true, Option.toList_some, List.singleton_append,
      List.flatMap_nil, List.nil_append]
  | @misses _ _ k ht => exact h.goes rfl ht fun _ hl => ⟨k, hl⟩
  | notifies ht => exact h.goes rfl ht fun _ hl => hl
  | @submits _ _ k _ ht ha =>
    refine h.enter ht (fun hut => if_neg hut) fun l hl => ⟨[.kept k], [], ?_, ?_⟩
    · obtain rfl : l = [.made k, .entered k] := hl
      simp only [Event.noteOf?, if_true, Option.toList_some, List.flatMap_singleton,
        WriteEntry.notes, List.append_nil, List.cons_append, List.nil_append]
    · rcases ha with rfl | ⟨d, rfl⟩ <;> rfl
  | drops ht =>
    refine h.enter ht (fun hut => if_neg hut) fun l hl => ?_
    obtain ⟨k, rfl⟩ : ∃ k, l = [.made k] := hl
    refine ⟨[.lost k], [], ?_, rfl⟩
    simp only [Event.noteOf?, if_true, Option.toList_some, List.flatMap_singleton,
      WriteEntry.notes, List.append_nil, List.cons_append, List.nil_append]
  | hears ht => exact h.goes rfl ht fun _ hl => hl
  | collects ht _ => exact h.goes rfl ht fun _ hl => hl
  | parts ht _ => exact h.goes rfl ht fun _ hl => hl
  | takes _ _ =>
    exact h.move (u := t) (fun hut => (hut rfl).elim) fun l ho _ => ⟨[], l, List.append_nil _, ho⟩
  | @body _ _ _ _ _ _ act _ _ _ =>
    cases act with
    | publishes o =>
      exact h.move (u := t) (fun hut => (hut rfl).elim) fun l ho _ => ⟨[], l, List.append_nil _, ho⟩
    | _ => exact hsame
  | bodyCalls _ _ ht ha _ =>
    refine h.put rfl (hfree ht ?_)
    rcases ha with ha | ⟨s, rfl⟩
    · exact (opened_of_not_write ha).mpr rfl
    · rfl
  | bodyReturns _ hr =>
    refine h.drop rfl fun l hl => ?_
    rw [hr] at hl
    exact hl
  | spoils _ _ =>
    exact h.move (u := t) (fun hut => (hut rfl).elim) fun l ho _ => ⟨[], l, List.append_nil _, ho⟩
  | _ => exact hsame

end Bookkept

/-! ### The fault that ends the worker -/

namespace Writer

variable {w w₀ v : Writer σ V} {m : Move σ V} {es : List (Event σ V)} {n k : Nat} {e : Failure}
  {config : Config} {target : String} {factory : Option (Factory σ)} {resource : σ} {now : Time}
  {t : Thread} {j j' : Journal}

/-- **Where a cycle is spoiled**: its worker has left the body of its envelope or is about to close
it, leaves the cycle by the fault, and is about to fail. -/
structure Spoils (w v : Writer σ V) (n k : Nat) (e : Failure) : Prop where
  leaving : ∃ b, w.cycles.get? (.worker n) = some (.running k b) ∧
    ((∃ x, b = .left x) ∨ ∃ ok, b = .verdict ok)
  left : v.cycles.get? (.worker n) = none
  failing : v.control.worker? n = some (.failing e)

lemma spoils_of_noteCycle {i : Nat} (h : w.noteCycle v i = some (.spoiled n k e)) :
    i = n ∧ Spoils w v n k e := by
  unfold noteCycle at h
  split at h
  · split at h <;> cases h
  · cases h
  · rename_i hy
    split at h
    · rename_i hv hw
      cases h
      exact ⟨rfl, ⟨_, hy, .inl ⟨_, rfl⟩⟩, hv, hw⟩
    · cases h
  · rename_i hy
    split at h
    · rename_i hv hw
      cases h
      exact ⟨rfl, ⟨_, hy, .inr ⟨_, rfl⟩⟩, hv, hw⟩
    · cases h
  · cases h

lemma noteCall_ne_spoiled (w v : Writer σ V) (t : Thread) (a : CallOfWriter σ V) :
    w.noteCall v t a ≠ some (.spoiled n k e) := by
  intro h
  unfold noteCall at h
  split at h
  all_goals first | cases h | (split at h <;> cases h)

lemma spoils_of_note (h : w.note m v = some (.spoiled n k e)) : m = .run (.worker n) ∧
    (∀ a, w.calls.get? (.worker n) = some a → ∃ r, a = .ended r) ∧ Spoils w v n k e := by
  unfold note at h
  split at h
  · split at h
    · rename_i r ha
      split at h
      · cases h
      · obtain ⟨rfl, hspoils⟩ := spoils_of_noteCycle h
        refine ⟨rfl, fun a hb => ⟨r, ?_⟩, hspoils⟩
        rw [ha, Option.some.injEq] at hb
        exact hb.symm
    · rename_i ha
      split at h
      · cases h
      · obtain ⟨rfl, hspoils⟩ := spoils_of_noteCycle h
        refine ⟨rfl, fun a hb => ?_, hspoils⟩
        rw [ha] at hb
        cases hb
    · exact absurd h (noteCall_ne_spoiled _ _ _ _)
  · cases h

lemma Event.eq_of_isSpoiled {ev : Option (Event σ V)} (h : ev.any isSpoiled = true) :
    ∃ n k e, ev = some (.spoiled n k e) := by
  cases ev with
  | none => cases h
  | some f =>
    cases f with
    | spoiled n k e => exact ⟨n, k, e, rfl⟩
    | _ => cases h

lemma doomed_of_step (hl : w.course.Linked) (h : w.control.Doomed n e) (hs : w.step m = some v) :
    v.control.Doomed n e := by
  rcases hl.control_step (step_course hs) with hc | ⟨now, j, j', hc⟩
  · exact (show v.control = w.control from hc) ▸ h
  · obtain ⟨ev, ha⟩ := hl.orderly.advance hc
    exact h.advance hl.orderly ha

/-- **Whoever spoils a cycle is done for.** -/
lemma doomed_of_spoiled (hl : w.course.Linked) (hs : w.step m = some v)
    (hn : w.note m v = some (.spoiled n k e)) : v.control.Doomed n e := by
  have hv := (spoils_of_note hn).2.2.failing
  obtain ⟨b, hy⟩ := (affairs_of_step hl hs).running_of_spoiled hn
  obtain ⟨last, hw⟩ : ∃ last, w.control.worker? n = some (.cycling last) :=
    hl.cycling (c := w.course) hy
  rcases hl.control_step (step_course hs) with hc | ⟨now, j, j', hc⟩
  · rw [show v.control = w.control from hc, hw] at hv
    cases hv
  · obtain ⟨ev, ha⟩ := hl.orderly.advance hc
    exact ha.doomed hw hv

lemma cycles_of_doomed (hl : w.course.Linked) (h : w.control.Doomed n e) (i : Nat) :
    w.cycles.get? (.worker i) = none := by
  refine Option.eq_none_iff_forall_ne_some.mpr fun y hy => ?_
  obtain ⟨last, hw⟩ := hl.cycling (c := w.course) hy
  exact h.not_cycling hl.orderly i last hw

/-- What a fault that ended a cycle has led to. -/
structure Spoiled (es : List (Event σ V)) (w : Writer σ V) : Prop where
  lost : lost es ≤ 1
  doomed : ∀ n k e, .spoiled n k e ∈ es → w.control.Doomed n e

/-- **Only one cycle can be spoiled.** -/
theorem Spoiled.step (h : Spoiled es w) (hl : w.course.Linked) (hs : w.step m = some v) :
    Spoiled (es ++ (w.note m v).toList) v := by
  refine ⟨?_, fun n k e hin => ?_⟩
  · rw [Writer.lost, countP_append_toList]
    cases hev : (w.note m v).any Event.isSpoiled with
    | false => exact h.lost
    | true =>
      -- the cycle that is spoiled now shows that none was before
      obtain ⟨n, k, e, hn⟩ := Event.eq_of_isSpoiled hev
      obtain ⟨b, hy⟩ := (affairs_of_step hl hs).running_of_spoiled hn
      have hnone : es.countP Event.isSpoiled = 0 := by
        refine List.countP_eq_zero.mpr fun f hin hf => ?_
        obtain ⟨n', k', e', hf'⟩ := Event.eq_of_isSpoiled
          (show (some f).any Event.isSpoiled = true from hf)
        rw [Option.some.injEq] at hf'
        have hrest := cycles_of_doomed hl (h.doomed n' k' e' (hf' ▸ hin)) n
        rw [show w.affairs.cycles = w.cycles from rfl, hrest] at hy
        cases hy
      rw [hnone]
      exact Nat.le_refl 1
  · rcases List.mem_append.mp hin with hold | hnew
    · exact doomed_of_step hl (h.doomed n k e hold) hs
    · exact doomed_of_spoiled hl hs (Option.mem_toList.mp hnew)

/-- **What worker `n` does next once it is done for**: it enters the failed phase. -/
lemma failed_of_run (hl : w.course.Linked) (h : w.control.Doomed n e)
    (hs : w.step (.run (.worker n)) = some v) : v.phase = .failed ∧ v.control.cause = some e := by
  have hy := cycles_of_doomed hl h n
  have hcall : w.calls.get? (.worker n) = none := hl.idle (c := w.course) hy nofun
  have hbudget : w.control.budget? n = none := by
    refine Option.not_isSome_iff_eq_none.mp fun hsome => ?_
    obtain ⟨last, hw⟩ := Control.budget?_isSome_iff.mp hsome
    exact h.not_cycling hl.orderly n last hw
  simp only [step, run, hcall, stepWorker, hbudget] at hs
  obtain ⟨⟨d, j⟩, hd, rfl⟩ := Option.map_eq_some_iff.mp hs
  exact h.failed_of_stepWorker hl.orderly hd

/-! ### Runs -/

/-- **No task is lost unnoticed**, by the chronicle of a run and the state at its end. -/
structure Conserved (es : List (Event σ V)) (w : Writer σ V) : Prop where
  /-- What was submitted or is about to be counted so was executed, is pending, is in hand, or is
  lost. -/
  balance : w.stats.submitted + w.owing = w.stats.executed + w.stats.queued + w.inHand + lost es
  /-- Every thread is in one call and in one cycle at most, so that these are numbers of threads. -/
  proper : w.calls.Proper ∧ w.cycles.Proper
  /-- One worker at most has a ticket in hand that is not counted as executed. -/
  inHand_le : w.inHand ≤ 1
  inHand_pos : 0 < w.inHand ↔ ∃ n y, w.cycles.get? (.worker n) = some y ∧ y.owed = true
  lost_le : lost es ≤ 1
  /-- A task is lost only by a fault that has ended the worker: no worker has a ticket in hand any
  more, and the next thing this one does, if it has not done so, is to enter the failed phase. -/
  spoiled : ∀ n k e, .spoiled n k e ∈ es → w.control.Doomed n e ∧
    (∀ i, w.cycles.get? (.worker i) = none) ∧
    ∀ v, w.step (.run (.worker n)) = some v → v.phase = .failed ∧ v.control.cause = some e
  /-- The counters say how often a submission and a loss were counted. -/
  counted : w.stats.submitted = es.countP Event.isSubmitted ∧
    w.stats.dropped = es.countP Event.isDropped
  /-- Every write that has got an envelope counts its submission after its offer has succeeded, or
  else its loss, and does so once. -/
  writes : ∀ t, Bookkept t es (w.calls.get? t)

lemma affairs_of_create (h : create config target factory resource now t j = (.ok w, j')) :
    w.affairs = { factory, resource, pending := [], queued := 0, accepted := [], removed := []
                  envelopes := #[], calls := {}, cycles := {}, submitted := 0, dropped := 0
                  executed := 0, failed := 0 } := by
  unfold create at h
  split at h
  · cases h
  · split at h
    · cases h
    · cases h
      rfl

/-- **The accounts of a run**, part by part. -/
structure Accounted (es : List (Event σ V)) (w : Writer σ V) : Prop where
  linked : w.course.Linked
  stored : w.affairs.Stored
  entered : w.affairs.Entered
  taken : w.affairs.Taken (lost es)
  submitted : w.submitted = es.countP Event.isSubmitted
  dropped : w.dropped = es.countP Event.isDropped
  spoiled : Spoiled es w
  books : ∀ t, Bookkept t es (w.calls.get? t)

theorem accounted_of_run (hc : create config target factory resource now t j = (.ok w₀, j'))
    (h : Chronicle step note Intact w₀ es w) : Accounted es w := by
  induction h with
  | refl hw =>
    have hnew := affairs_of_create hc
    have hcalls : w₀.calls = {} := congrArg Affairs.calls hnew
    refine ⟨(ordered_of_run hc (.refl hw)).1, ?_, ?_, ?_, congrArg Affairs.submitted hnew,
      congrArg Affairs.dropped hnew, ⟨Nat.zero_le _, nofun⟩, fun t => ⟨[], [], rfl, ?_⟩⟩
    · rw [hnew]
      exact ⟨rfl, rfl⟩
    · rw [hnew]
      exact ⟨.empty, rfl⟩
    · rw [hnew]
      exact ⟨.empty, rfl⟩
    · rw [hcalls]
      rfl
  | @step es u v m _ hs hv ih =>
    have hstep := affairs_of_step ih.linked hs
    obtain ⟨hsub, hdrop⟩ := hstep.counters
    have hlost : lost (es ++ (u.note m v).toList) =
        lost es + ((u.note m v).any Event.isSpoiled).toNat := countP_append_toList ..
    refine ⟨ih.linked.step (step_course hs), ih.stored.step hstep, ih.entered.step hstep,
      hlost ▸ ih.taken.step hstep hv, ?_, ?_, ih.spoiled.step ih.linked hs,
      fun t => (ih.books t).step hstep⟩
    · rw [countP_append_toList, ← ih.submitted]
      exact hsub
    · rw [countP_append_toList, ← ih.dropped]
      exact hdrop

namespace Accounted

lemma worker (h : Accounted es w) {y : CycleStage σ V} (hy : w.cycles.get? t = some y) :
    ∃ n, t = .worker n := by
  obtain ⟨n, -, hn, -⟩ := (h.linked.fits t).cycle y hy
  exact ⟨n, hn⟩

lemma inHand_pos_iff (h : Accounted es w) :
    0 < w.inHand ↔ ∃ n y, w.cycles.get? (.worker n) = some y ∧ y.owed = true := by
  have hcycles : w.cycles.Proper := h.taken.proper
  rw [inHand, hcycles.count_pos_iff]
  constructor
  · rintro ⟨t, y, hy, howed⟩
    obtain ⟨n, rfl⟩ := h.worker hy
    exact ⟨n, y, hy, howed⟩
  · rintro ⟨n, y, hy, howed⟩
    exact ⟨.worker n, y, hy, howed⟩

lemma inHand_le_one (h : Accounted es w) : w.inHand ≤ 1 := by
  have hcycles : w.cycles.Proper := h.taken.proper
  refine hcycles.count_le_one fun t u y z hy hz => ?_
  obtain ⟨i, rfl⟩ := h.worker hy
  obtain ⟨n, rfl⟩ := h.worker hz
  by_cases hin : i = n
  · exact congrArg Thread.worker hin
  · obtain ⟨last, hw⟩ := h.linked.cycling (c := w.course) hz
    have hnone := h.linked.others hw hin
    rw [show w.course.cycles.get? (.worker i) = some y from hy] at hnone
    cases hnone

end Accounted

/-- **Conservation of tasks**: whatever is written, started, stopped and destroyed, by clients or by
tasks, and whichever lines fail, until a destruction drops the pending tickets. -/
theorem conserved_of_run (hc : create config target factory resource now t j = (.ok w₀, j'))
    (h : Chronicle step note Intact w₀ es w) : Conserved es w := by
  have hacc := accounted_of_run hc h
  have hqueued : w.queue.size = w.queue.items.length := hacc.stored.queued
  have hsplit : w.queue.accepted.length = w.queue.items.length + w.queue.removed.length :=
    hacc.stored.split
  have hin : w.submitted + w.owing = w.queue.accepted.length := hacc.entered.balance
  have hout : w.ledger.executed + w.inHand + lost es = w.queue.removed.length :=
    hacc.taken.balance
  refine ⟨?_, ⟨hacc.entered.proper, hacc.taken.proper⟩, hacc.inHand_le_one, hacc.inHand_pos_iff,
    hacc.spoiled.lost, fun n k e hin => ?_, ⟨hacc.submitted, hacc.dropped⟩, hacc.books⟩
  · change w.submitted + w.owing = w.ledger.executed + w.queue.size + w.inHand + lost es
    omega
  · have hdoomed := hacc.spoiled.doomed n k e hin
    exact ⟨hdoomed, cycles_of_doomed hacc.linked hdoomed,
      fun v hs => failed_of_run hacc.linked hdoomed hs⟩

/-- Two writes, the first of which has yet to count its submission when the line that reports the
failure of its task fails as well. -/
def spoiling : List (Move Nat Unit) :=
  [.arm "failed"] ++ startUp ++ write 1 (.fail .foreign) 0 4 ++ submit 2 (.fail .foreign) ++
    goOn (.worker 0) 10

/-- The books at the end of that run: two tasks were accepted, one is lost and one is pending. -/
theorem conserved_of_spoiling : ∃ (w₀ w : Writer Nat Unit) (es : List (Event Nat Unit))
    (j : Journal), create {} "target" none 0 0 (.client 0) {} = (.ok w₀, j) ∧
      (w.stats.submitted = 1 ∧ w.owing = 1) ∧
      (w.stats.executed = 0 ∧ w.stats.queued = 1 ∧ w.inHand = 0 ∧ lost es = 1) ∧
        Conserved es w := by
  obtain ⟨w₀, j, hc⟩ : ∃ (w₀ : Writer Nat Unit) (j : Journal),
      create {} "target" none 0 0 (.client 0) {} = (.ok w₀, j) := ⟨_, _, rfl⟩
  obtain ⟨es, w, hw, hs⟩ : ∃ es w, Chronicle step note
      (fun u => (u.calls.entries.all fun e => untouching e.1 e.2) = true) w₀ es w ∧
      ((w.stats.submitted, w.owing), w.stats.executed, w.stats.queued, w.inHand, lost es) =
        ((1, 1), 0, 1, 0, 1) := by
    cases hc
    exact exists_chronicle spoiling rfl
  have hw : Chronicle step note Intact w₀ es w :=
    hw.mono fun u hu t ht => nomatch Roster.of_all hu ht
  simp only [Prod.mk.injEq] at hs
  exact ⟨w₀, w, es, j, hc, hs.1, hs.2, conserved_of_run hc hw⟩

end Writer

end SerialWriter
