import SerialWriter.Proofs.Writer.Refinement

/-!
Every run of an envelope ends with its outcome assigned, whatever its task and its wrapper do: they
may fail, resolve the cell themselves, call the writer, or leave no result at all. Of the tickets
dequeued, the one in hand is the only one that may be unresolved.
-/

namespace SerialWriter

variable {σ V : Type}

/-! ### Stages and cells -/

/-- The stage is one that a run can come to when it has assigned an outcome. -/
def BodyStage.follows : BodyStage σ V → Bool
  | .publishing _ _ | .calling _ => false
  | _ => true

/-- **What a cell must show at a stage of the run.** An outcome decided is an outcome assigned, but
for the one that is about to be, and there is an outcome when the body has been left. -/
def BodyStage.Suits (a : Cell V) : BodyStage σ V → Prop
  | .publishing _ after => a.claimed = true ∧ after.follows = true
  | .verdict _ => a.claimed = true ∧ a.ready = true
  | .calling g => (a.claimed = true → a.ready = true) ∧ ∀ r, ∃ p back?, g r = .inner p back?
  | .outer _ | .inner _ _ | .left _ => a.claimed = true → a.ready = true

namespace BodyStage

variable {a a' : Cell V} {b : BodyStage σ V}

lemma Suits.congr (h : b.Suits a) (hc : a'.claimed = a.claimed) (hr : a'.ready = a.ready) :
    b.Suits a' := by
  cases b with
  | publishing o after => exact ⟨hc.trans h.1, h.2⟩
  | verdict ok => exact ⟨hc.trans h.1, hr.trans h.2⟩
  | calling g =>
    rw [Suits, hc, hr]
    exact h
  | outer x | inner p back? | left e =>
    rw [Suits, hc, hr]
    exact h

lemma suits_of_follows (hb : b.follows = true) (hc : a.claimed = true) (hr : a.ready = true) :
    b.Suits a := by
  cases b with
  | publishing o after => cases hb
  | calling g => cases hb
  | verdict ok => exact ⟨hc, hr⟩
  | outer x | inner p back? | left e => exact fun _ => hr

lemma suits_begin {body : Body σ V} (hc : a.claimed = false) : body.begin.Suits a := by
  have hnot : a.claimed = true → a.ready = true := fun h => nomatch hc.symm.trans h
  cases body with
  | direct p => exact hnot
  | wrapped w p => exact hnot

end BodyStage

theorem BodyTurn.suits {e : Envelope σ V} {b b' : BodyStage σ V} {s s' : σ} {d : CellChange V}
    (h : BodyTurn e b s d b' s') (hb : b.Suits e.cell) : b'.Suits (d.change e.cell) := by
  cases h with
  | ends => exact hb
  | breaks f => exact hb
  | changes f next => exact hb
  | invokes next => exact hb
  | returns v => exact hb
  | wins v next hc => exact ⟨rfl, rfl⟩
  | loses v next hc => exact hb
  | fails f back? => cases back? <;> exact hb
  | updates f next back? => exact hb
  | passes gate next back? => exact hb
  | reaches hp hd =>
    cases hd with
    | rests p back? => exact hb
    | interrupts p back? => exact hb
    | claims o p back? hc => exact ⟨rfl, rfl⟩
  | publishes o after =>
    obtain ⟨hclaimed, hafter⟩ := hb
    refine BodyStage.suits_of_follows hafter ?_ ?_
    · cases o <;> exact hclaimed
    · cases o <;> rfl
  | reports f hc => exact ⟨hc, hb hc⟩
  | blames f hc => exact ⟨rfl, rfl⟩
  | succeeds hc => exact ⟨hc, hb hc⟩
  | lacks hc => exact ⟨rfl, rfl⟩

/-! ### The ticket in hand -/

/-- The ticket whose run is about to begin or has not ended. -/
def CycleStage.carried? : CycleStage σ V → Option Nat
  | .dequeued k | .running k _ => some k
  | .counting _ | .measuring _ => none

/-- A worker has dequeued the ticket and not ended its run. -/
def InHand (cycles : Roster (CycleStage σ V)) (k : Nat) : Prop :=
  ∃ n y, cycles.get? (.worker n) = some y ∧ y.carried? = some k

lemma InHand.put {cycles : Roster (CycleStage σ V)} {n k : Nat} {y : CycleStage σ V}
    (hy : y.carried? = some k) : InHand (cycles.put (.worker n) y) k :=
  ⟨n, y, Roster.get?_put_self .., hy⟩

namespace Affairs

variable {c d : Affairs σ V} {ev : Option (Writer.Event σ V)} {n : Nat} {y y' : CycleStage σ V}

/-- **Of the tickets dequeued so far, all but the one in hand are resolved.** -/
structure Decided (c : Affairs σ V) : Prop where
  hand : ∀ n k b, c.cycles.get? (.worker n) = some (.running k b) →
    b.Suits (cellAt c.envelopes k)
  ended : ∀ k ∈ c.removed, InHand c.cycles k ∨ (cellAt c.envelopes k).ready = true

lemma Sane.carried (h : c.Sane) (hy : c.cycles.get? (.worker n) = some y) {k : Nat}
    (hk : InHand c.cycles k) : y.carried? = some k := by
  obtain ⟨m, z, hz, hc⟩ := hk
  by_cases hmn : m = n
  · rw [hmn, hy, Option.some.injEq] at hz
    exact hz ▸ hc
  · rw [h.alone n y hy m hmn] at hz
    cases hz

namespace Decided

lemma beside (h : c.Decided) (hy : d.cycles = c.cycles) (hr : d.removed = c.removed)
    (hcell : ∀ k, (cellAt d.envelopes k).claimed = (cellAt c.envelopes k).claimed ∧
      (cellAt d.envelopes k).ready = (cellAt c.envelopes k).ready) : d.Decided := by
  refine ⟨fun n k b hb => ?_, fun k hk => ?_⟩
  · exact (h.hand n k b (hy ▸ hb)).congr (hcell k).1 (hcell k).2
  · rcases h.ended k (hr ▸ hk) with hin | hready
    · exact .inl (hy ▸ hin)
    · exact .inr ((hcell k).2.trans hready)

/-- What has been resolved stays so, and so does the ticket in hand unless the worker resolves
it. -/
lemma ended_of_goes (h : c.Decided) (hsane : c.Sane) (hy : c.cycles.get? (.worker n) = some y)
    (hr : d.removed = c.removed)
    (hcell : ∀ k, (cellAt c.envelopes k).ready = true → (cellAt d.envelopes k).ready = true)
    (hk : ∀ k, y.carried? = some k →
      InHand d.cycles k ∨ (cellAt d.envelopes k).ready = true) :
    ∀ k ∈ d.removed, InHand d.cycles k ∨ (cellAt d.envelopes k).ready = true := by
  intro k hin
  rcases h.ended k (hr ▸ hin) with hhand | hready
  · exact hk k (hsane.carried hy hhand)
  · exact .inr (hcell k hready)

lemma put (h : c.Decided) (hsane : c.Sane) (hy : c.cycles.get? (.worker n) = some y)
    (hd : d.cycles = c.cycles.put (.worker n) y') (hr : d.removed = c.removed)
    (hcell : ∀ k, (cellAt c.envelopes k).ready = true → (cellAt d.envelopes k).ready = true)
    (hsuits : ∀ k b, y' = .running k b → b.Suits (cellAt d.envelopes k))
    (hk : ∀ k, y.carried? = some k →
      y'.carried? = some k ∨ (cellAt d.envelopes k).ready = true) : d.Decided := by
  refine ⟨fun m k b hb => ?_, h.ended_of_goes hsane hy hr hcell fun k hc => ?_⟩
  · rw [hd, Roster.get?_put] at hb
    split at hb
    · exact hsuits k b (Option.some.inj hb)
    · rename_i hm
      rw [hsane.alone n y hy m fun hmn => hm (congrArg Thread.worker hmn)] at hb
      cases hb
  · rcases hk k hc with hc' | hready
    · exact .inl (hd ▸ .put hc')
    · exact .inr hready

lemma drop (h : c.Decided) (hsane : c.Sane) (hy : c.cycles.get? (.worker n) = some y)
    (hd : d.cycles = c.cycles.drop (.worker n)) (hr : d.removed = c.removed)
    (he : d.envelopes = c.envelopes)
    (hk : ∀ k, y.carried? = some k → (cellAt c.envelopes k).ready = true) : d.Decided := by
  refine ⟨fun m k b hb => ?_, h.ended_of_goes hsane hy hr (fun k hready => he ▸ hready)
    fun k hc => .inr (he ▸ hk k hc)⟩
  rw [hd, Roster.get?_drop, Option.ite_none_left_eq_some] at hb
  rw [hsane.alone n y hy m fun hmn => hb.1 (congrArg Thread.worker hmn)] at hb
  cases hb.2

lemma body (h : c.Decided) (hsane : c.Sane) {k : Nat} {b b' : BodyStage σ V} {e : Envelope σ V}
    {s : σ} {act : CellChange V} (hy : c.cycles.get? (.worker n) = some (.running k b))
    (he : c.envelopes[k]? = some e) (ht : BodyTurn e b c.resource act b' s)
    (hd : d = { c with resource := s, envelopes := changeCellAt c.envelopes k act.change
                       cycles := c.cycles.put (.worker n) (.running k b') }) : d.Decided := by
  subst hd
  have hsuits : b'.Suits (act.change e.cell) := ht.suits (cellAt_eq he ▸ h.hand n k b hy)
  refine h.put hsane hy rfl rfl (fun i hready => ?_) (fun i b'' hb => ?_) fun i hc => .inl hc
  · rw [cellAt_changeCellAt]
    split
    · cases act with
      | publishes o => cases o <;> rfl
      | rests | claims | interrupts => exact hready
    · exact hready
  · cases hb
    rw [cellAt_changeCellAt_self he]
    exact hsuits

lemma restage (h : c.Decided) (hsane : c.Sane) {k : Nat} {b a : BodyStage σ V}
    (hy : c.cycles.get? (.worker n) = some (.running k b)) (ha : a.Suits (cellAt c.envelopes k))
    (hd : d.cycles = c.cycles.put (.worker n) (.running k a)) (hr : d.removed = c.removed)
    (he : d.envelopes = c.envelopes) : d.Decided := by
  refine h.put hsane hy hd hr (fun i hready => he ▸ hready) (fun i a' hb => ?_) fun i hc => .inl hc
  cases hb
  exact he ▸ ha

/-- With no ticket in hand, all that have been dequeued are resolved. -/
lemma ready_of_idle (h : c.Decided) (hy : ∀ m, c.cycles.get? (.worker m) = none) {k : Nat}
    (hk : k ∈ c.removed) : (cellAt c.envelopes k).ready = true := by
  refine (h.ended k hk).resolve_left ?_
  rintro ⟨m, y, hm, -⟩
  rw [hy m] at hm
  cases hm

theorem step (h : c.Decided) (hsane : c.Sane) (hs : c.Step ev d)
    (hd : ∀ t, d.calls.get? t ≠ some .releasing) : d.Decided := by
  cases hs with
  | clears _ => exact absurd (Roster.get?_put_self ..) (hd _)
  | walks _ _ =>
    refine h.beside rfl rfl fun k => ?_
    rw [cellAt_interruptAt]
    split <;> exact ⟨rfl, rfl⟩
  | makes _ he =>
    refine h.beside rfl rfl fun k => ?_
    rw [cellAt_push (Envelope.fresh_of_make he).1]
    exact ⟨rfl, rfl⟩
  | @collects _ _ i _ _ =>
    refine h.beside rfl rfl fun k => ?_
    change (cellAt (changeCellAt c.envelopes i fun a => a.take.2) k).claimed = _ ∧
      (cellAt (changeCellAt c.envelopes i fun a => a.take.2) k).ready = _
    rw [cellAt_changeCellAt]
    split <;> exact ⟨rfl, rfl⟩
  | @takes n k rest hy hp =>
    -- nobody had a ticket in hand, so that all that went out before are resolved
    refine ⟨fun m i b hb => ?_, fun i hi => ?_⟩
    · rw [Roster.get?_put] at hb
      split at hb
      · cases hb
      · rw [hy m] at hb
        cases hb
    · rcases List.mem_cons.mp hi with rfl | hi
      · exact .inl (.put rfl)
      · exact .inr (h.ready_of_idle hy hi)
  | idles hy =>
    refine ⟨fun m i b hb => ?_, fun i hi => .inr (h.ready_of_idle hy hi)⟩
    rw [Roster.get?_drop, Option.ite_none_left_eq_some, hy m] at hb
    cases hb.2
  | @opens n k e hy he =>
    refine h.put hsane hy rfl rfl (fun i hready => hready) (fun i b hb => ?_) fun i hc => .inl hc
    cases hb
    exact BodyStage.suits_begin (hsane.fresh n k hy)
  | body hy he ht => exact h.body hsane hy he ht rfl
  | @bodyCalls _ _ _ _ g _ hy _ _ _ hg =>
    exact h.restage hsane (a := .calling g) hy ⟨h.hand _ _ _ hy, hg⟩ rfl rfl rfl
  | @bodyReturns n k r g hy hr =>
    obtain ⟨hsuits, hg⟩ := h.hand _ _ _ hy
    obtain ⟨p, back?, hp⟩ := hg r
    exact h.restage hsane (a := g r) hy (hp ▸ hsuits) rfl rfl rfl
  | finishes hy =>
    refine h.put hsane hy rfl rfl (fun i hready => hready) nofun fun i hc => ?_
    cases hc
    exact .inr (h.hand _ _ _ hy).2
  | spoils hy hb =>
    refine h.drop hsane hy rfl rfl rfl fun i hc => ?_
    cases hc
    have hsuits := h.hand _ _ _ hy
    rcases hb with ⟨ok, rfl⟩ | ⟨⟨f, rfl⟩, hclaimed⟩
    · exact hsuits.2
    · exact hsuits hclaimed
  | counts hy =>
    exact h.put hsane hy rfl rfl (fun i hready => hready) nofun fun i hc => nomatch hc
  | closes hy => exact h.drop hsane hy rfl rfl rfl fun i hc => nomatch hc
  | _ => exact ⟨h.hand, h.ended⟩

end Decided

end Affairs

theorem Writer.decided_of_run {w₀ w : Writer σ V} {config : Config} {target : String}
    {factory : Option (Factory σ)} {resource : σ} {now : Time} {t : Thread} {j j' : Journal}
    (hc : create config target factory resource now t j = (.ok w₀, j'))
    (h : Along step Intact w₀ w) : w.affairs.Decided := by
  induction h with
  | refl _ =>
    rw [affairs_of_create hc]
    exact ⟨nofun, nofun⟩
  | step m h hs hv ih =>
    obtain ⟨hl, ho⟩ := ordered_of_run hc h
    exact ih.step (sane_of_ordered hl ho) (affairs_of_step hl hs) hv

end SerialWriter
