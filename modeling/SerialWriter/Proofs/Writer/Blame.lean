import SerialWriter.Proofs.Writer.Answers
import SerialWriter.Proofs.Writer.Verdicts

/-!
What a handle tells of the verdict on its task. A run counts as failed when its handle holds a
failure that the task did not put there by its own hand, and also when a failure escapes the body
after the outcome was decided: the handle then keeps what it holds, and whoever has waited for it is
told so.
-/

namespace SerialWriter

variable {σ V : Type}

/-! ### What was found about a ticket -/

namespace Finding

def ticket : Finding V → Nat
  | resolved k _ | late k | judged k _ => k

/-- A failure has escaped the body of ticket `k` after its outcome was decided. -/
def isLate (k : Nat) : Finding V → Bool
  | late i => i == k
  | resolved _ _ | judged _ _ => false

/-- The task of ticket `k` has put a failure into its cell by its own hand. -/
def isOwnFault (k : Nat) : Finding V → Bool
  | resolved i (.error (some _)) => i == k
  | resolved _ _ | late _ | judged _ _ => false

/-- The run that is over, and how it was judged. -/
def judgment? : Finding V → Option (Nat × Verdict)
  | judged k x => some (k, x)
  | resolved _ _ | late _ => none

lemma ticket_of_isLate {k : Nat} {f : Finding V} (h : f.isLate k = true) : f.ticket = k := by
  cases f with
  | late i => exact beq_iff_eq.mp h
  | _ => cases h

lemma ticket_of_isOwnFault {k : Nat} {f : Finding V} (h : f.isOwnFault k = true) :
    f.ticket = k := by
  cases f with
  | resolved i o =>
    cases o with
    | value v => cases h
    | error e =>
      cases e with
      | none => cases h
      | some e => exact beq_iff_eq.mp h
  | _ => cases h

end Finding

section Findings

variable {es : List (Finding V)} {f : Finding V} {k : Nat} {x : Verdict}

def judgments (es : List (Finding V)) : List (Nat × Verdict) := es.filterMap Finding.judgment?

def tried (es : List (Finding V)) : List Nat := (judgments es).map Prod.fst

/-- A failure has escaped the body of ticket `k` after its outcome was decided. -/
def lateFault (es : List (Finding V)) (k : Nat) : Bool := es.any (Finding.isLate k)

/-- The task of ticket `k` has put a failure into its cell by its own hand. -/
def ownFault (es : List (Finding V)) (k : Nat) : Bool := es.any (Finding.isOwnFault k)

/-- **The run of ticket `k` is to blame**, by its cell: it holds a failure that the task did not put
there, or one escaped too late to be put there. -/
def blamed (es : List (Finding V)) (k : Nat) (a : Cell V) : Bool :=
  lateFault es k || a.error.isSome && !ownFault es k

lemma mem_judgments : (k, x) ∈ judgments es ↔ .judged k x ∈ es := by
  rw [judgments, List.mem_filterMap]
  constructor
  · rintro ⟨f, hf, heq⟩
    cases f with
    | judged i y =>
      cases heq
      exact hf
    | _ => cases heq
  · exact fun h => ⟨_, h, rfl⟩

lemma verdicts_eq (es : List (Finding V)) : verdicts es = (judgments es).map Prod.snd := by
  rw [verdicts, judgments, List.map_filterMap]
  refine congrArg (List.filterMap · es) (funext fun f => ?_)
  cases f <;> rfl

lemma lateFault_append (es : List (Finding V)) (x : Option (Finding V)) (k : Nat) :
    lateFault (es ++ x.toList) k = (lateFault es k || x.any (Finding.isLate k)) := by
  rw [lateFault, List.any_append]
  cases x <;> simp [lateFault]

lemma ownFault_append (es : List (Finding V)) (x : Option (Finding V)) (k : Nat) :
    ownFault (es ++ x.toList) k = (ownFault es k || x.any (Finding.isOwnFault k)) := by
  rw [ownFault, List.any_append]
  cases x <;> simp [ownFault]

lemma blamed_append {x : Option (Finding V)}
    (h : ∀ f ∈ x, f.ticket ≠ k ∨ ∃ y, f = .judged k y) (a : Cell V) :
    blamed (es ++ x.toList) k a = blamed es k a := by
  have hnone : ∀ p : Finding V → Bool, (∀ f, p f = true → f.ticket = k) →
      (∀ y, p (.judged k y) = false) → x.any p = false := by
    intro p hp hj
    refine Bool.eq_false_iff.mpr fun hany => ?_
    obtain ⟨f, hf, hpf⟩ := (Option.any_eq_true p x).mp hany
    rcases h f hf with hne | ⟨y, rfl⟩
    · exact hne (hp f hpf)
    · exact nomatch (hj y).symm.trans hpf
  rw [blamed, blamed, lateFault_append, ownFault_append,
    hnone _ (fun _ => Finding.ticket_of_isLate) fun _ => rfl,
    hnone _ (fun _ => Finding.ticket_of_isOwnFault) fun _ => rfl, Bool.or_false, Bool.or_false]

lemma faults_of_unfound (h : ∀ f ∈ es, f.ticket ≠ k) :
    lateFault es k = false ∧ ownFault es k = false := by
  have hnone : ∀ p : Finding V → Bool, (∀ f, p f = true → f.ticket = k) → es.any p = false := by
    intro p hp
    refine List.any_eq_false.mpr fun f hf hpf => ?_
    exact h f hf (hp f hpf)
  exact ⟨hnone _ fun _ => Finding.ticket_of_isLate, hnone _ fun _ => Finding.ticket_of_isOwnFault⟩

end Findings

/-! ### What a stage tells -/

namespace BodyStage

/-- Who goes on from here may have decided on this outcome. -/
def Decides (o : Outcome V) : BodyStage σ V → Prop
  | .inner _ _ => True
  | .outer _ => ∃ v, o = .value v
  | .verdict ok => ok = false ∧ ∃ e, o = .error (some e)
  | .publishing _ _ | .calling _ | .left _ => False

/-- **What a stage of a run tells of the faults so far**, by its cell: until the verdict the only
failure in it is one of the task's own hand, and the verdict blames the run for every other. -/
def Tells (a : Cell V) (late own : Bool) : BodyStage σ V → Prop
  | .publishing o after => late = false ∧ own = false ∧ after.Decides o
  | .outer _ | .inner _ _ | .calling _ | .left _ => late = false ∧ a.error.isSome = own
  | .verdict ok => ok = !(late || a.error.isSome && !own)

lemma Tells.congr {a a' : Cell V} {late own : Bool} {b : BodyStage σ V} (h : b.Tells a late own)
    (ha : a'.error = a.error) : b.Tells a' late own := by
  cases b with
  | publishing o after => exact h
  | outer w | inner p back? | calling g | left e | verdict ok =>
    rw [Tells, ha]
    exact h

end BodyStage

/-- **Every step of a run tells of its faults.** -/
lemma BodyTurn.tells {e : Envelope σ V} {k : Nat} {b b' : BodyStage σ V} {s s' : σ}
    {d : CellChange V} {late own : Bool} {x : Option (Finding V)} (h : BodyTurn e b s d b' s')
    (hb : b.Tells e.cell late own) (hshows : (CycleStage.running k b).Shows e.cell)
    (hready : e.cell.ready = true → e.cell.claimed = true)
    (hblank : e.cell.ready = false → e.cell.error = none)
    (hx : x = (CycleStage.running k b).finding (some (.running k b'))) :
    b'.Tells (d.change e.cell) (late || x.any (Finding.isLate k))
      (own || x.any (Finding.isOwnFault k)) := by
  -- what is decided for an unclaimed cell comes first
  have hfirst : e.cell.claimed = false → e.cell.error.isSome = own → own = false := by
    intro hc ho
    rw [← ho, hblank (Bool.eq_false_iff.mpr fun hr => nomatch hc.symm.trans (hready hr))]
    rfl
  have hquiet : x = none → b'.Tells (d.change e.cell) late own →
      b'.Tells (d.change e.cell) (late || x.any (Finding.isLate k))
        (own || x.any (Finding.isOwnFault k)) := by
    rintro rfl hb'
    simpa using hb'
  cases h with
  | wins v next hc => exact hquiet hx ⟨hb.1, hfirst hc hb.2, _, rfl⟩
  | blames f hc => exact hquiet hx ⟨hb.1, hfirst hc hb.2, rfl, _, rfl⟩
  | lacks hc => exact hquiet hx ⟨hb.1, hfirst hc hb.2, rfl, _, rfl⟩
  | reaches hp hd =>
    cases hd with
    | rests p back? => exact hquiet hx hb
    | interrupts p back? => exact hquiet hx hb
    | claims o p back? hc => exact hquiet hx ⟨hb.1, hfirst hc hb.2, trivial⟩
  | fails f back? => cases back? <;> exact hquiet hx hb
  | reports f hc =>
    subst hx
    simp [CycleStage.finding, BodyStage.Tells, Finding.isLate]
  | succeeds hc =>
    obtain ⟨rfl, rfl⟩ := hb
    refine hquiet hx ?_
    change true = !(false || e.cell.error.isSome && !e.cell.error.isSome)
    cases e.cell.error <;> rfl
  | publishes o _ =>
    obtain ⟨rfl, rfl, hdecides⟩ := hb
    -- nothing was in the cell before
    have herror : e.cell.error = none := hblank (hshows.2 rfl)
    cases b' with
    | outer w =>
      obtain ⟨v, rfl⟩ := hdecides
      exact hquiet hx ⟨rfl, congrArg Option.isSome herror⟩
    | verdict ok =>
      obtain ⟨rfl, f, rfl⟩ := hdecides
      exact hquiet hx rfl
    | inner p back? =>
      subst hx
      refine ⟨rfl, ?_⟩
      cases o with
      | value v => exact congrArg Option.isSome herror
      | error f =>
        cases f <;> simp [CycleStage.finding, Finding.isOwnFault, CellChange.change, Cell.publish]
    | publishing _ _ | calling _ | left _ => exact hdecides.elim
  | _ => exact hquiet hx hb

/-! ### Every run is judged by its cell -/

/-- What a stage of a cycle tells of what was found, by the cell of its ticket. -/
def CycleStage.Tells (es : List (Finding V)) (a : Cell V) : CycleStage σ V → Prop
  | .dequeued k => ∀ f ∈ es, f.ticket ≠ k
  | .running k b => (∀ x, .judged k x ∉ es) ∧ b.Tells a (lateFault es k) (ownFault es k)
  | .counting _ | .measuring _ => True

lemma CycleStage.ticket_of_finding {k : Nat} {b : BodyStage σ V} {z : Option (CycleStage σ V)}
    {f : Finding V} (h : (CycleStage.running k b).finding z = some f) : f.ticket = k := by
  generalize hy : CycleStage.running k b = y at h
  unfold finding at h
  split at h <;> cases hy <;> cases h <;> rfl

namespace Affairs

variable {c d : Affairs σ V} {ev : Option (Writer.Event σ V)} {es : List (Finding V)}
  {x : Option (Finding V)} {n k : Nat} {y y' : CycleStage σ V} {b b' : BodyStage σ V}

/-- **Every run that is over was judged by its cell**, and was judged once. -/
structure Judged (c : Affairs σ V) (es : List (Finding V)) : Prop where
  hand : Lone c.cycles fun y? => ∀ y ∈ y?, y.Tells es (cellAt c.envelopes y.ticket)
  found : ∀ f ∈ es, f.ticket ∈ c.removed
  judged : ∀ k x, .judged k x ∈ es → (cellAt c.envelopes k).ready = true ∧
    x = if blamed es k (cellAt c.envelopes k) then .failed else .succeeded
  once : (tried es).Nodup

namespace Judged

lemma inHand (h : c.Judged es) (hy : c.cycles.get? (.worker n) = some y) :
    y.Tells es (cellAt c.envelopes y.ticket) := h.hand.inHand n y hy y rfl

lemma find (h : c.Judged es) (hshown : c.Shown) (hs : c.Step ev d)
    (hr : ∀ k ∈ c.removed, k ∈ d.removed)
    (hx : ∀ f ∈ x, f.ticket ∈ c.removed ∧ ∀ y, .judged f.ticket y ∉ es)
    (hnew : ∀ k y, x = some (.judged k y) → (cellAt d.envelopes k).ready = true ∧
      y = if blamed es k (cellAt d.envelopes k) then .failed else .succeeded)
    (hd : Lone d.cycles fun y? => ∀ y ∈ y?,
      y.Tells (es ++ x.toList) (cellAt d.envelopes y.ticket)) : d.Judged (es ++ x.toList) := by
  refine ⟨hd, fun f hf => ?_, fun k y hk => ?_, ?_⟩
  · rcases List.mem_append.mp hf with hf | hf
    · exact hr _ (h.found f hf)
    · exact hr _ (hx f (Option.mem_toList.mp hf)).1
  · rcases List.mem_append.mp hk with hk | hk
    · obtain ⟨hready, hy⟩ := h.judged k y hk
      obtain ⟨hready', herror, -⟩ := hshown.kept hs hready
      refine ⟨hready', ?_⟩
      rw [blamed_append fun f hf => .inl fun hfk => (hx f hf).2 y (hfk ▸ hk), hy, blamed, blamed,
        herror]
    · have hxk := Option.mem_toList.mp hk
      obtain ⟨hready, hy⟩ := hnew k y hxk
      refine ⟨hready, ?_⟩
      rwa [blamed_append fun f hf => .inr ⟨y, Option.some.inj (hf.symm.trans hxk)⟩]
  · have hlist : tried (es ++ x.toList) =
        tried es ++ ((x.bind Finding.judgment?).map Prod.fst).toList := by
      rw [tried, judgments, filterMap_append_toList, List.map_append, Option.toList_map]
      rfl
    rw [hlist]
    cases x with
    | none => exact (List.append_nil _).symm ▸ h.once
    | some f =>
      cases f with
      | judged k y =>
        refine List.nodup_append.mpr
          ⟨h.once, List.nodup_cons.mpr ⟨nofun, .nil⟩, fun i hi i' hi' => ?_⟩
        rintro rfl
        obtain ⟨⟨i, y'⟩, hin, rfl⟩ := List.mem_map.mp hi
        obtain rfl := List.mem_singleton.mp hi'
        exact (hx _ rfl).2 y' (mem_judgments.mp hin)
      | resolved _ _ | late _ => exact (List.append_nil _).symm ▸ h.once

lemma quiet (h : c.Judged es) (hshown : c.Shown) (hs : c.Step ev d)
    (hr : ∀ k ∈ c.removed, k ∈ d.removed) (hx : x = none)
    (hd : Lone d.cycles fun y? => ∀ y ∈ y?, y.Tells es (cellAt d.envelopes y.ticket)) :
    d.Judged (es ++ x.toList) := by
  subst hx
  exact h.find hshown hs hr nofun nofun ((List.append_nil es).symm ▸ hd)

lemma beside (h : c.Judged es) (hshown : c.Shown) (hs : c.Step ev d) (hx : c.Finds d x)
    (hy : d.cycles = c.cycles) (hr : ∀ k ∈ c.removed, k ∈ d.removed)
    (hcell : ∀ k, (cellAt d.envelopes k).error = (cellAt c.envelopes k).error) :
    d.Judged (es ++ x.toList) := by
  refine h.quiet hshown hs hr (hx.beside hy) (hy ▸ h.hand.mono fun y? hall y hin => ?_)
  have htells := hall y hin
  cases y with
  | running k b => exact ⟨htells.1, htells.2.congr (hcell k)⟩
  | _ => exact htells

lemma unfound (h : c.Judged es) (hshown : c.Shown) (hn : c.accepted.Nodup) (hk : k ∈ c.pending) :
    ∀ f ∈ es, f.ticket ≠ k := by
  rintro f hf rfl
  rw [hshown.split] at hn
  exact (List.nodup_append.mp hn).2.2 _ (List.mem_reverse.mpr hk) _ (h.found f hf) rfl

lemma begins (h : c.Judged es) (hshown : c.Shown)
    (hy : c.cycles.get? (.worker n) = some (.dequeued k)) (e : Envelope σ V) :
    (CycleStage.running k e.body.begin).Tells es (cellAt c.envelopes k) := by
  have hunfound : ∀ f ∈ es, f.ticket ≠ k := h.inHand hy
  obtain ⟨hlate, hown⟩ := faults_of_unfound hunfound
  obtain ⟨-, hclaimed⟩ := hshown.inHand hy
  have hready : (cellAt c.envelopes k).ready = false :=
    Bool.eq_false_iff.mpr fun hr => nomatch hclaimed.symm.trans (hshown.ready k hr)
  have herror : (cellAt c.envelopes k).error.isSome = false := by
    rw [(hshown.blank k hready).2]
    rfl
  refine ⟨fun y hin => hunfound _ hin rfl, ?_⟩
  rw [hlate, hown]
  cases e.body <;> exact ⟨rfl, herror⟩

/-- What the worker finds while it runs a task is about the ticket in its hand, which has not been
judged. -/
lemma finds_unjudged (h : c.Judged es) (hshown : c.Shown) {z : Option (CycleStage σ V)}
    (hy : c.cycles.get? (.worker n) = some (.running k b))
    (hx : x = (CycleStage.running k b).finding z) :
    ∀ f ∈ x, f.ticket ∈ c.removed ∧ ∀ y, .judged f.ticket y ∉ es := by
  intro f hf
  obtain rfl := CycleStage.ticket_of_finding (hx ▸ hf)
  exact ⟨(hshown.inHand hy).1, (h.inHand hy).1⟩

lemma body (h : c.Judged es) (hshown : c.Shown)
    (hl : ∀ m, m ≠ n → c.cycles.get? (.worker m) = none) (hs : c.Step ev d) (hx : c.Finds d x)
    {e : Envelope σ V} {s : σ} {act : CellChange V}
    (hy : c.cycles.get? (.worker n) = some (.running k b)) (he : c.envelopes[k]? = some e)
    (ht : BodyTurn e b c.resource act b' s)
    (hd : d = { c with resource := s, envelopes := changeCellAt c.envelopes k act.change
                       cycles := c.cycles.put (.worker n) (.running k b') }) :
    d.Judged (es ++ x.toList) := by
  subst hd
  have hcell := cellAt_eq he
  obtain ⟨hunjudged, htells⟩ := h.inHand hy
  obtain ⟨-, hshows⟩ := hshown.inHand hy
  change b.Tells (cellAt c.envelopes k) _ _ at htells
  change (CycleStage.running k b).Shows (cellAt c.envelopes k) at hshows
  have hfound := hx.put hy rfl
  -- a run that goes on has no verdict
  have hverdict : ∀ i y, x ≠ some (.judged i y) := by
    rintro i y rfl
    have hnone := CycleStage.verdict_of_finding (k := k) (b := b)
      (by rintro ok rfl; cases ht) (some (.running k b'))
    rw [← hfound] at hnone
    cases hnone
  refine h.find hshown hs (fun _ => id) (h.finds_unjudged hshown hy hfound)
    (fun i y hj => absurd hj (hverdict i y)) (.put hl ?_)
  rintro _ ⟨⟩
  refine ⟨fun y hj => ?_, ?_⟩
  · rcases List.mem_append.mp hj with hj | hj
    · exact hunjudged y hj
    · exact hverdict k y (Option.mem_toList.mp hj)
  · change b'.Tells (cellAt (changeCellAt c.envelopes k act.change) k) _ _
    rw [cellAt_changeCellAt_self he, lateFault_append, ownFault_append]
    have hready := hshown.ready k
    have hblank := fun hr => (hshown.blank k hr).2
    rw [hcell] at htells hshows hready hblank
    exact ht.tells htells hshows hready hblank hfound

/-- **The verdict on a run is what its cell says.** -/
lemma finishes (h : c.Judged es) (hshown : c.Shown)
    (hl : ∀ m, m ≠ n → c.cycles.get? (.worker m) = none) (hs : c.Step ev d) (hx : c.Finds d x)
    {ok : Bool} (hy : c.cycles.get? (.worker n) = some (.running k (.verdict ok)))
    (hd : d.cycles = c.cycles.put (.worker n) (.counting k)) (hr : d.removed = c.removed)
    (he : d.envelopes = c.envelopes) : d.Judged (es ++ x.toList) := by
  obtain ⟨-, htells⟩ := h.inHand hy
  obtain ⟨-, hshows⟩ := hshown.inHand hy
  have hfound := hx.put hy hd
  refine h.find hshown hs (fun _ hk => hr ▸ hk) (h.finds_unjudged hshown hy hfound)
    (fun i y hj => ?_) (hd ▸ .put hl (by rintro _ ⟨⟩; trivial))
  obtain ⟨rfl, rfl⟩ := Finding.judged.inj (Option.some.inj (hj.symm.trans hfound))
  rw [he]
  refine ⟨hshows.1.2, ?_⟩
  change ok = !blamed es i (cellAt c.envelopes i) at htells
  rw [htells]
  cases blamed es i (cellAt c.envelopes i) <;> rfl

theorem step (h : c.Judged es) (hshown : c.Shown)
    (hl : ∀ n y, c.cycles.get? (.worker n) = some y →
      ∀ m, m ≠ n → c.cycles.get? (.worker m) = none)
    (hn : c.accepted.Nodup) (hs : c.Step ev d) (hx : c.Finds d x)
    (hev : ∀ n k e, ev ≠ some (.spoiled n k e)) : d.Judged (es ++ x.toList) := by
  have hsame : ∀ k ∈ c.removed, k ∈ c.removed := fun _ hk => hk
  -- by the step; only one in the run of a ticket finds anything
  cases id hs with
  | walks _ _ =>
    exact h.beside hshown hs hx rfl hsame (apply_cellAt_interruptAt Cell.error (fun _ => rfl) _ _)
  | clears _ =>
    exact h.beside hshown hs hx rfl (fun _ hk => List.mem_append_right _ hk) fun _ => rfl
  | makes _ he =>
    refine h.beside hshown hs hx rfl hsame fun k => ?_
    rw [cellAt_push (Envelope.fresh_of_make he).1]
  | collects _ _ =>
    exact h.beside hshown hs hx rfl hsame (apply_cellAt_take Cell.error (fun _ => rfl) _ _)
  | takes hy hp =>
    refine h.quiet hshown hs (fun _ hk => List.mem_cons_of_mem _ hk) (hx.idle hy)
      (.put (fun m _ => hy m) ?_)
    rintro _ ⟨⟩
    exact h.unfound hshown hn (hp ▸ List.mem_cons_self)
  | idles hy => exact h.quiet hshown hs hsame (hx.idle hy) (.drop (fun m _ => hy m) nofun)
  | opens hy _ =>
    refine h.quiet hshown hs hsame (hx.put hy rfl) (.put (hl _ _ hy) ?_)
    rintro _ ⟨⟩
    exact h.begins hshown hy _
  | body hy he ht => exact h.body hshown (hl _ _ hy) hs hx hy he ht rfl
  | bodyCalls hy _ _ _ _ =>
    refine h.quiet hshown hs hsame (hx.put hy rfl) (.put (hl _ _ hy) ?_)
    rintro _ ⟨⟩
    exact ⟨(h.inHand hy).1, (h.inHand hy).2⟩
  | @bodyReturns n k r g hy hr =>
    refine h.quiet hshown hs hsame (hx.put hy rfl) (.put (hl _ _ hy) ?_)
    rintro _ ⟨⟩
    obtain ⟨-, ⟨-, hg⟩, -⟩ := hshown.inHand hy
    obtain ⟨p, back?, hp⟩ := hg r
    rw [hp]
    exact ⟨(h.inHand hy).1, (h.inHand hy).2⟩
  | finishes hy => exact h.finishes hshown (hl _ _ hy) hs hx hy rfl rfl rfl
  | spoils _ _ => exact absurd rfl (hev _ _ _)
  | counts hy =>
    refine h.quiet hshown hs hsame (hx.put hy rfl) (.put (hl _ _ hy) ?_)
    rintro _ ⟨⟩
    trivial
  | closes hy => exact h.quiet hshown hs hsame (hx.drop hy rfl) (.drop (hl _ _ hy) nofun)
  | _ => exact h.beside hshown hs hx rfl hsame fun _ => rfl

end Judged

end Affairs

namespace Writer

variable {w₀ w u v : Writer σ V} {config : Config} {target : String}
  {factory : Option (Factory σ)} {resource : σ} {now : Time} {t t' : Thread} {j j' : Journal}
  {es : List (Finding V)} {s : Submission σ V} {k : Nat} {o : Outcome V}

/-- The runs of a writer are judged by their cells where no log line can fail. -/
lemma judged_of_run (hc : create config target factory resource now t j = (.ok w₀, j'))
    (h : Chronicle step finding (fun z => z.journal.armed = none) w₀ es w) :
    w.affairs.Judged es := by
  induction h with
  | refl _ =>
    rw [affairs_of_create hc]
    exact ⟨⟨nofun, fun _ => nofun⟩, nofun, nofun, .nil⟩
  | @step es u v m h hs _ ih =>
    have hf := Reachable.faithful hc (.of_along .refl h.along)
    refine ih.step hf.shown hf.alone hf.known.tickets.nodup (hf.affairs_step hs)
      (finds_of_step hf.tuned.linked hs) fun n k e hev => ?_
    exact armed_of_spoiled hs hev h.along.holds

/-- **The verdicts agree with the handles**: every run that is over was judged once, was judged a
failure exactly if its cell blames it, and was counted accordingly. -/
structure Agrees (es : List (Finding V)) (w : Writer σ V) : Prop where
  once : (tried es).Nodup
  accepted : ∀ k ∈ tried es, k ∈ w.queue.accepted
  judged : ∀ k x, .judged k x ∈ es → (w.cell k).ready = true ∧
    x = if blamed es k (w.cell k) then .failed else .succeeded
  executed : w.stats.executed + w.cycles.count CycleStage.isCounting = (tried es).length
  failed : w.stats.failed = (tried es).countP fun k => blamed es k (w.cell k)

lemma agrees_of_judged (hj : w.affairs.Judged es) (hshown : w.affairs.Shown)
    (hb : w.affairs.Booked (verdicts es)) : Agrees es w := by
  have hjudged : ∀ k x, .judged k x ∈ es → (w.cell k).ready = true ∧
      x = if blamed es k (w.cell k) then .failed else .succeeded := hj.judged
  have hmem : ∀ p ∈ judgments es,
      p.2 = if blamed es p.1 (w.cell p.1) then Verdict.failed else .succeeded :=
    fun p hp => (hjudged p.1 p.2 (mem_judgments.mp hp)).2
  refine ⟨hj.once, fun k hk => ?_, hjudged, ?_, ?_⟩
  · obtain ⟨⟨k, x⟩, hin, rfl⟩ := List.mem_map.mp hk
    change k ∈ w.affairs.accepted
    rw [hshown.split]
    exact List.mem_append_right _ (hj.found _ (mem_judgments.mp hin))
  · have hexecuted := hb.executed
    change w.stats.executed + w.cycles.count CycleStage.isCounting = _ at hexecuted
    rw [hexecuted, verdicts_eq, List.countP_map, tried, List.length_map, List.countP_eq_length]
    intro p hp
    rw [Function.comp_apply, hmem p hp]
    split <;> rfl
  · have hfailed := hb.failed
    change w.stats.failed = _ at hfailed
    rw [hfailed, verdicts_eq, List.countP_map, tried, List.countP_map]
    refine List.countP_congr fun p hp => ?_
    rw [Function.comp_apply, Function.comp_apply, hmem p hp]
    cases blamed es p.1 (w.cell p.1) <;> simp [Verdict.isFailure]

lemma answers_of_told (hc : create config target factory resource now t' j = (.ok w₀, j'))
    (hu : Along step (fun z => z.journal.armed = none) w₀ u)
    (ht : u.calls.get? t = some (.writing s (.told k .ready))) (hs : u.step (.run t) = some v) :
    (u.cell k).ready = true ∧
      ∃ r, v.result? t = some r ∧ ((∃ e, r = .error e) ↔ (u.cell k).error.isSome = true) := by
  have hready : (u.cell k).ready = true :=
    (Reachable.faithful hc (.of_along .refl hu)).held.told t s k ht
  obtain ⟨es, hes⟩ := Chronicle.of_along note hu
  have hposted := posted_of_run hc hes
  obtain ⟨o, ho⟩ := (hposted.ready k).mp hready
  have hbears : (u.cell k).Bears o := hposted.bears t _ k o ht rfl ho
  obtain ⟨y, hy, -, hr, -⟩ := step_of_ready hu.holds ht hbears
  obtain rfl := Option.some.inj (hs.symm.trans hy)
  refine ⟨hready, _, hr, ?_⟩
  cases o with
  | value v => simp [Outcome.answer, hbears.1]
  | error e => cases e <;> simp [Outcome.answer, hbears.1]

/-- **Verdicts, handles and answers agree**, where no log line can fail: a run counts as failed
exactly if its handle holds a failure that the task did not put there by its own hand, or if a
failure escaped the body after the outcome was decided. So whoever has waited for the outcome is
told of a failure exactly if it counts as one, but for late failures and those of the task's own
hand. -/
theorem agrees_of_run (hc : create config target factory resource now t' j = (.ok w₀, j'))
    (h : Chronicle step finding (fun z => z.journal.armed = none) w₀ es w) :
    Agrees es w ∧ ∀ u v t s k, Along step (fun z => z.journal.armed = none) w₀ u →
      u.calls.get? t = some (.writing s (.told k .ready)) → u.step (.run t) = some v →
      Along step (fun z => z.journal.armed = none) v w →
      ∃ r, v.result? t = some r ∧ ((∃ e, r = .error e) ↔ (w.cell k).error.isSome = true) ∧
        ∀ x, .judged k x ∈ es → (x = .failed ↔
          lateFault es k = true ∨ (∃ e, r = .error e) ∧ ownFault es k = false) := by
  have hagrees : Agrees es w :=
    agrees_of_judged (judged_of_run hc h) (Reachable.faithful hc (.of_along .refl h.along)).shown
      (booked_of_run hc h).1
  refine ⟨hagrees, fun u v t s k hu ht hs hv => ?_⟩
  obtain ⟨hready, r, hr, hanswer⟩ := answers_of_told hc hu ht hs
  -- the failure stays in the cell
  have hstay : (w.cell k).error = (u.cell k).error := by
    have hown : Along step (fun z => z.journal.armed = none) u v :=
      .step (.run t) (.refl hu.holds) hs hv.start
    have hf := Reachable.faithful hc (.of_along .refl hu)
    refine ((hown.trans hv).keeps (I := fun z => z.Faithful ∧ (z.cell k).ready = true ∧
      (z.cell k).error = (u.cell k).error) (fun _ => ⟨hf, hready, rfl⟩) ?_).2.2
    intro x m y _ ⟨hx, hxready, hxerror⟩ hs' _
    obtain ⟨hyready, hyerror, -⟩ := hx.shown.kept (hx.affairs_step hs') hxready
    exact ⟨hx.step hs', hyready, hyerror.trans hxerror⟩
  refine ⟨r, hr, by rw [hstay]; exact hanswer, fun x hx => ?_⟩
  obtain ⟨-, hverdict⟩ := hagrees.judged k x hx
  rw [hanswer, ← hstay, hverdict, blamed]
  cases lateFault es k <;> cases (w.cell k).error.isSome <;> cases ownFault es k <;> simp

/-- A factory whose first wrapper fails after the task, as when a commit is refused. -/
def lateCommit (i : Nat) : Except Failure (Wrapper Nat) :=
  .ok (if i = 0 then .invoke fun _ => .fail .foreign else .plain)

/-- The first task returns a value for which a client waits, the second returns a value too, and the
third fails. -/
def threeTasks : List (Move Nat Nat) :=
  startUp ++ write 1 (.ret 7) 1000 5 ++ submit 2 (.ret 3) ++ submit 3 (.fail .foreign) ++
    goOn (.worker 0) 34 ++ goOn (.client 1) 1

/-- What is to be seen when the client has been given its answer. -/
def seenAfter (es : List (Finding Nat)) (u : Writer Nat Nat) :=
  (u.step (.run (.client 1))).map fun v =>
    (v.journal.armed.isNone, judgments (es ++ (u.finding (.run (.client 1)) v).toList),
      v.stats.failed, v.result? (.client 1), (v.cell 0).error, (v.cell 2).error)

lemma exists_threeTasks : ∃ (w₀ u w : Writer Nat Nat) (j : Journal) (es : List (Finding Nat)),
    create {} "target" (some lateCommit) 0 0 (.client 0) {} = (.ok w₀, j) ∧
      Chronicle step finding (fun z => z.journal.armed = none) w₀ es u ∧
      u.calls.get? (.client 1) =
        some (.writing { work := .ret 7, id := "task", wait := 1000 } (.told 0 .ready)) ∧
      u.step (.run (.client 1)) = some w ∧ w.journal.armed = none ∧
      judgments (es ++ (u.finding (.run (.client 1)) w).toList) =
        [(0, .failed), (1, .succeeded), (2, .failed)] ∧
      w.stats.failed = 2 ∧ w.result? (.client 1) = some (.ok (some 7)) ∧
      (w.cell 0).error = none ∧ (w.cell 2).error = some .foreign := by
  obtain ⟨w₀, j, hc⟩ : ∃ (w₀ : Writer Nat Nat) (j : Journal),
      create {} "target" (some lateCommit) 0 0 (.client 0) {} = (.ok w₀, j) := ⟨_, _, rfl⟩
  obtain ⟨es, u, hu, hseen⟩ : ∃ es u, Chronicle step finding
      (fun z => z.journal.armed.isNone = true) w₀ es u ∧
      (u.calls.get? (.client 1), seenAfter es u) =
        (some (.writing { work := .ret 7, id := "task", wait := 1000 } (.told 0 .ready)),
          some (true, [(0, .failed), (1, .succeeded), (2, .failed)], 2, some (.ok (some 7)), none,
            some .foreign)) := by
    cases hc
    exact exists_chronicle threeTasks rfl
  obtain ⟨htold, hafter⟩ := Prod.mk.inj hseen
  obtain ⟨w, hw, hafter⟩ := Option.map_eq_some_iff.mp hafter
  simp only [Prod.mk.injEq] at hafter
  obtain ⟨hq, hrest⟩ := hafter
  exact ⟨w₀, u, w, j, es, hc, hu.mono fun _ hz => Option.isNone_iff_eq_none.mp hz, htold, hw,
    Option.isNone_iff_eq_none.mp hq, hrest⟩

/-- The client has been given the value of a task that counts as failed, because it failed late, as
does the third task, whose cell holds its failure. -/
theorem agrees_of_threeTasks : ∃ (w₀ w : Writer Nat Nat) (j : Journal) (es : List (Finding Nat)),
    create {} "target" (some lateCommit) 0 0 (.client 0) {} = (.ok w₀, j) ∧
      Chronicle step finding (fun z => z.journal.armed = none) w₀ es w ∧
      judgments es = [(0, .failed), (1, .succeeded), (2, .failed)] ∧ Agrees es w ∧
      w.stats.failed = 2 ∧ w.result? (.client 1) = some (.ok (some 7)) ∧
      lateFault es 0 = true ∧ blamed es 1 (w.cell 1) = false ∧
      (w.cell 2).error = some .foreign := by
  obtain ⟨w₀, u, w, j, es, hc, hu, htold, hw, hq, hjudged, hfailed, hresult, -, herror⟩ :=
    exists_threeTasks
  have hrun := hu.step (.run (.client 1)) hw hq
  obtain ⟨hagrees, hanswers⟩ := agrees_of_run hc hrun
  obtain ⟨r, hr, -, hverdict⟩ :=
    hanswers u w _ _ 0 hu.along htold hw (.refl hrun.along.holds)
  obtain rfl := Option.some.inj (hresult.symm.trans hr)
  have hfirst := mem_judgments.mp (hjudged ▸ List.mem_cons_self)
  have hsecond := mem_judgments.mp (hjudged ▸ List.mem_cons_of_mem _ List.mem_cons_self)
  refine ⟨w₀, w, j, _, hc, hrun, hjudged, hagrees, hfailed, hresult, ?_, ?_, herror⟩
  · exact ((hverdict _ hfirst).mp rfl).resolve_right fun h => nomatch h.1
  · refine Bool.eq_false_iff.mpr fun hb => ?_
    have hx := (hagrees.judged 1 _ hsecond).2
    rw [hb, if_pos rfl] at hx
    cases hx

/-- **A run can count as failed though its handle holds no failure**, and its caller be given the
value. -/
theorem failed_without_error : ∃ (w₀ w : Writer Nat Nat) (j : Journal) (es : List (Finding Nat)),
    create {} "target" (some lateCommit) 0 0 (.client 0) {} = (.ok w₀, j) ∧
      Chronicle step finding (fun z => z.journal.armed = none) w₀ es w ∧
      .judged 0 .failed ∈ es ∧ (w.cell 0).error = none ∧
      w.result? (.client 1) = some (.ok (some 7)) := by
  obtain ⟨w₀, u, w, j, es, hc, hu, -, hw, hq, hjudged, -, hresult, hnone, -⟩ := exists_threeTasks
  refine ⟨w₀, w, j, _, hc, hu.step (.run (.client 1)) hw hq, ?_, hnone, hresult⟩
  exact mem_judgments.mp (hjudged ▸ List.mem_cons_self)

end Writer

/-- **Run on its own, an envelope can succeed though its handle holds a failure**: one that the task
has put there before it returned. -/
theorem Envelope.succeeds_with_own_failure (id : String) (f : Failure) (v : V) (s : σ) (t : Thread)
    (j : Journal) :
    let e : Envelope σ V :=
      { id, body := .wrapped .plain (.resolve (.error (some f)) fun _ => .ret v) }
    (e.run s t j).1 = .ok true ∧ (e.run s t j).2.1.cell.error = some f := ⟨rfl, rfl⟩

end SerialWriter
