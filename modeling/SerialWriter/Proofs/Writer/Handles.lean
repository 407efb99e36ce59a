import SerialWriter.Proofs.Writer.Tally

/-!
What the handles of tasks show: the outcome that was assigned, until its value is taken out, and an
interruption once a walk has come over them.
-/

namespace SerialWriter

variable {σ V : Type}

open Writer (Event)

/-- **The cell of ticket `k` holds this outcome**, or its value has been taken out. -/
inductive Cell.Holds (es : List (Event σ V)) (k : Nat) (a : Cell V) : Outcome V → Prop
  | value {v : V} (hr : a.ready = true) (he : a.error = none) (hv : a.value = some v) :
    Holds es k a (.value v)
  | taken {v : V} {t : Thread} (hr : a.ready = true) (he : a.error = none) (hv : a.value = none)
    (hc : .collected t k (some v) ∈ es) : Holds es k a (.value v)
  | error {e : Option Failure} (hr : a.ready = true) (he : a.error = e) (hv : a.value = none) :
    Holds es k a (.error e)

/-- Cells that show the same. -/
structure Cell.SameFace (a b : Cell V) : Prop where
  ready : b.ready = a.ready
  interrupted : b.interrupted = a.interrupted
  value : b.value = a.value
  error : b.error = a.error

lemma Cell.Holds.congr {es es' : List (Event σ V)} {k : Nat} {a b : Cell V} {o : Outcome V}
    (h : a.Holds es k o) (hab : b.ready = a.ready ∧ b.value = a.value ∧ b.error = a.error)
    (hes : ∀ e ∈ es, e ∈ es') : b.Holds es' k o := by
  obtain ⟨hr', hv', he'⟩ := hab
  cases h with
  | value hr he hv => exact .value (hr'.trans hr) (he'.trans he) (hv'.trans hv)
  | taken hr he hv hc => exact .taken (hr'.trans hr) (he'.trans he) (hv'.trans hv) (hes _ hc)
  | error hr he hv => exact .error (hr'.trans hr) (he'.trans he) (hv'.trans hv)

lemma mem_published {es : List (Event σ V)} {k : Nat} {o : Outcome V} :
    (k, o) ∈ published es ↔ .published k o ∈ es := by
  rw [published, List.mem_filterMap]
  constructor
  · rintro ⟨e, he, heq⟩
    cases e with
    | published i o' =>
      cases heq
      exact he
    | _ => cases heq
  · exact fun h => ⟨_, h, rfl⟩

/-- The event shows in a handle. -/
def Writer.Event.shows : Event σ V → Bool
  | .published _ _ | .walked _ _ => true
  | _ => false

namespace Affairs

variable {s₀ : σ} {es : List (Event σ V)} {c d : Affairs σ V} {ev : Option (Event σ V)} {k n : Nat}

/-- **What the handles show**, by what has been noted. -/
structure Handles (c : Affairs σ V) (es : List (Event σ V)) : Prop where
  blank : ∀ k, (∀ o, .published k o ∉ es) → (cellAt c.envelopes k).ready = false ∧
    (cellAt c.envelopes k).value = none ∧ (cellAt c.envelopes k).error = none
  holds : ∀ k o, .published k o ∈ es → (cellAt c.envelopes k).Holds es k o
  released : ∀ k, (cellAt c.envelopes k).interrupted = true ↔ ∃ t l, .walked t l ∈ es ∧ k ∈ l

namespace Handles

lemma exists_walked_append {es' : List (Event σ V)} (hno : ∀ t l, .walked t l ∉ es') :
    (∃ t l, .walked t l ∈ es ++ es' ∧ k ∈ l) ↔ ∃ t l, (.walked t l : Event σ V) ∈ es ∧ k ∈ l := by
  simp only [List.mem_append, hno, or_false]

lemma quiet (h : c.Handles es)
    (hcell : ∀ k, (cellAt c.envelopes k).SameFace (cellAt d.envelopes k))
    (hev : ev.any Event.shows = false) : d.Handles (es ++ ev.toList) := by
  have hnot : ∀ e : Event σ V, e.shows = true → e ∉ ev.toList := by
    intro e he hin
    rw [Option.mem_toList.mp hin, Option.any_some, he] at hev
    cases hev
  have hmem : ∀ e : Event σ V, e.shows = true → (e ∈ es ++ ev.toList ↔ e ∈ es) := fun e he => by
    rw [List.mem_append, or_iff_left (hnot e he)]
  refine ⟨fun k hk => ?_, fun k o hk => ?_, fun k => ?_⟩
  · obtain ⟨hr, hv, he⟩ := h.blank k fun o ho => hk o ((hmem _ rfl).mpr ho)
    exact ⟨(hcell k).ready.trans hr, (hcell k).value.trans hv, (hcell k).error.trans he⟩
  · exact (h.holds k o ((hmem _ rfl).mp hk)).congr
      ⟨(hcell k).ready, (hcell k).value, (hcell k).error⟩ fun e he => List.mem_append_left _ he
  · rw [(hcell k).interrupted, h.released k]
    exact (exists_walked_append fun _ _ => hnot _ rfl).symm

/-- A walk releases those who wait for a pending ticket. -/
lemma walk (h : c.Handles es) (hsane : c.Sane) (t : Thread)
    (hd : d.envelopes = interruptAt c.envelopes c.pending) :
    d.Handles (es ++ [.walked t c.pending]) := by
  have hcell : ∀ k, cellAt d.envelopes k =
      if k ∈ c.pending then (cellAt c.envelopes k).interrupt else cellAt c.envelopes k := by
    intro k
    rw [hd, cellAt_interruptAt]
    by_cases hk : k ∈ c.pending
    · rw [if_pos ⟨hk, hsane.known_pending hk⟩, if_pos hk]
    · rw [if_neg fun hin => hk hin.1, if_neg hk]
  have hface : ∀ k, (cellAt d.envelopes k).ready = (cellAt c.envelopes k).ready ∧
      (cellAt d.envelopes k).value = (cellAt c.envelopes k).value ∧
      (cellAt d.envelopes k).error = (cellAt c.envelopes k).error := by
    intro k
    rw [hcell]
    split <;> exact ⟨rfl, rfl, rfl⟩
  have hpublished : ∀ {k : Nat} {o : Outcome V},
      .published k o ∈ es ++ [.walked t c.pending] → Event.published k o ∈ es := by
    intro k o hk
    rcases List.mem_append.mp hk with hk | hk
    · exact hk
    · cases List.mem_singleton.mp hk
  refine ⟨fun k hk => ?_, fun k o hk => ?_, fun k => ?_⟩
  · obtain ⟨hr, hv, he⟩ := h.blank k fun o ho => hk o (List.mem_append_left _ ho)
    obtain ⟨hr', hv', he'⟩ := hface k
    exact ⟨hr'.trans hr, hv'.trans hv, he'.trans he⟩
  · exact (h.holds k o (hpublished hk)).congr (hface k) fun e he => List.mem_append_left _ he
  · rw [hcell]
    by_cases hk : k ∈ c.pending
    · -- the walk itself has come over it
      rw [if_pos hk]
      exact ⟨fun _ => ⟨t, c.pending, List.mem_append_right _ List.mem_cons_self, hk⟩, fun _ => rfl⟩
    · rw [if_neg hk, h.released k]
      constructor
      · rintro ⟨u, l, hw, hl⟩
        exact ⟨u, l, List.mem_append_left _ hw, hl⟩
      · rintro ⟨u, l, hw, hl⟩
        rcases List.mem_append.mp hw with hw | hw
        · exact ⟨u, l, hw, hl⟩
        · cases List.mem_singleton.mp hw
          exact absurd hl hk

/-- **An outcome is assigned to a handle that holds none.** -/
lemma publish (h : c.Handles es) {o : Outcome V} (hk : k < c.envelopes.size)
    (hfresh : ∀ o, .published k o ∉ es)
    (hd : d.envelopes = changeCellAt c.envelopes k fun a => a.publish o) :
    d.Handles (es ++ [.published k o]) := by
  have hcell : ∀ i, cellAt d.envelopes i =
      if i = k then (cellAt c.envelopes i).publish o else cellAt c.envelopes i :=
    hd ▸ cellAt_changeCellAt_of_lt hk _
  refine ⟨fun i hi => ?_, fun i o' hi => ?_, fun i => ?_⟩
  · have hik : i ≠ k := by
      rintro rfl
      exact hi o (List.mem_append_right _ List.mem_cons_self)
    rw [hcell, if_neg hik]
    exact h.blank i fun o' ho => hi o' (List.mem_append_left _ ho)
  · rw [hcell]
    rcases List.mem_append.mp hi with hold | hnew
    · have hik : i ≠ k := by
        rintro rfl
        exact hfresh o' hold
      rw [if_neg hik]
      exact (h.holds i o' hold).congr ⟨rfl, rfl, rfl⟩ fun e he => List.mem_append_left _ he
    · cases List.mem_singleton.mp hnew
      obtain ⟨-, hv, he⟩ := h.blank k hfresh
      rw [if_pos rfl]
      cases o with
      | value v => exact .value rfl he rfl
      | error e => exact .error rfl rfl hv
  · have hsame : (cellAt d.envelopes i).interrupted = (cellAt c.envelopes i).interrupted := by
      rw [hcell]
      split
      · cases o <;> rfl
      · rfl
    rw [hsame, h.released i]
    exact (exists_walked_append fun t l hw => by cases List.mem_singleton.mp hw).symm

lemma collect (h : c.Handles es) (t : Thread) (he : (cellAt c.envelopes k).error = none)
    (hd : d.envelopes = changeCellAt c.envelopes k fun a => a.take.2) :
    d.Handles (es ++ [.collected t k (cellAt c.envelopes k).value]) := by
  have hcell : ∀ i, cellAt d.envelopes i = cellAt c.envelopes i ∨
      i = k ∧ cellAt d.envelopes i = (cellAt c.envelopes i).take.2 :=
    hd ▸ cellAt_changeCellAt_or c.envelopes k fun a => a.take.2
  have hmem : ∀ e : Event σ V, e.shows = true →
      (e ∈ es ++ [.collected t k (cellAt c.envelopes k).value] ↔ e ∈ es) := by
    intro e hs
    rw [List.mem_append, or_iff_left]
    intro hin
    rw [List.mem_singleton.mp hin] at hs
    cases hs
  refine ⟨fun i hi => ?_, fun i o hi => ?_, fun i => ?_⟩
  · obtain ⟨hr, hv, herr⟩ := h.blank i fun o ho => hi o ((hmem _ rfl).mpr ho)
    rcases hcell i with hsame | ⟨-, htaken⟩
    · rw [hsame]
      exact ⟨hr, hv, herr⟩
    · rw [htaken]
      exact ⟨hr, rfl, herr⟩
  · have hholds := h.holds i o ((hmem _ rfl).mp hi)
    rcases hcell i with hsame | ⟨rfl, htaken⟩
    · rw [hsame]
      exact hholds.congr ⟨rfl, rfl, rfl⟩ fun e he => List.mem_append_left _ he
    · rw [htaken]
      cases hholds with
      | value hr herr hv =>
        refine .taken (t := t) hr herr rfl (List.mem_append_right _ ?_)
        rw [hv]
        exact List.mem_cons_self
      | taken hr herr _ hc => exact .taken hr herr rfl (List.mem_append_left _ hc)
      | error hr herr _ => exact .error hr herr rfl
  · have hsame : (cellAt d.envelopes i).interrupted = (cellAt c.envelopes i).interrupted := by
      rcases hcell i with hsame | ⟨-, htaken⟩
      · rw [hsame]
      · rw [htaken]
        rfl
    rw [hsame, h.released i]
    exact (exists_walked_append fun u l hw => by cases List.mem_singleton.mp hw).symm

lemma unpublished (ht : c.Tallied s₀ es) (hsane : c.Sane) {o : Outcome V} {after : BodyStage σ V}
    (hy : c.cycles.get? (.worker n) = some (.running k (.publishing o after))) (o' : Outcome V) :
    .published k o' ∉ es := by
  intro hin
  obtain ⟨l, x, held, hl, hw⟩ := ht.hand.inHand n _ hy
  obtain rfl := hw.standing.unheld rfl
  have hzip := mem_published.mpr hin
  rw [hw.published] at hzip
  have hkl : k ∈ l := by
    rcases List.mem_append.mp hzip with hzip | hnil
    · exact List.mem_reverse.mp (List.of_mem_zip hzip).1
    · cases hnil
  have hnodup := hsane.nodup_removed
  rw [hl] at hnodup
  exact (List.nodup_cons.mp hnodup).1 hkl

theorem step (h : c.Handles es) (ht : c.Tallied s₀ es) (hsane : c.Sane) (hs : c.Step ev d) :
    d.Handles (es ++ ev.toList) := by
  have hrefl : ∀ k, (cellAt c.envelopes k).SameFace (cellAt c.envelopes k) :=
    fun _ => ⟨rfl, rfl, rfl, rfl⟩
  cases hs with
  | walks _ _ => exact h.walk hsane _ rfl
  | makes _ he =>
    refine h.quiet (fun k => ?_) rfl
    rw [cellAt_push (Envelope.fresh_of_make he).1]
    exact hrefl k
  | collects _ he => exact h.collect _ he rfl
  | @body n k b b' e s act hy he hturn =>
    have hk : k < c.envelopes.size := (Array.getElem?_eq_some_iff.mp he).1
    cases act with
    | rests =>
      refine h.quiet (fun i => ?_) rfl
      change (cellAt c.envelopes i).SameFace (cellAt (changeCellAt c.envelopes k id) i)
      rw [changeCellAt_id]
      exact hrefl i
    | claims =>
      refine h.quiet (fun i => ?_) rfl
      change (cellAt c.envelopes i).SameFace
        (cellAt (changeCellAt c.envelopes k fun a => a.claim.2) i)
      rw [cellAt_changeCellAt]
      split <;> exact ⟨rfl, rfl, rfl, rfl⟩
    | publishes o =>
      cases hturn with
      | publishes _ after => exact h.publish hk (unpublished ht hsane hy) rfl
      | reaches _ hd => cases hd
    | interrupts =>
      cases hturn with
      | reaches hp _ =>
        rw [ht.not_involved hy] at hp
        cases hp
  | _ => exact h.quiet hrefl rfl

end Handles

end Affairs

end SerialWriter
