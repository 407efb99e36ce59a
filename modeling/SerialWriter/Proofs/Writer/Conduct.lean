import SerialWriter.Proofs.Writer.Affairs

/-!
Every move of a writer is a step of its affairs.
-/

namespace SerialWriter

variable {σ V : Type}

/-! ### The parts of a move -/

namespace Writer

variable {w v : Writer σ V} {t : Thread} {a : CallOfWriter σ V}

lemma affairs_withQueue (w : Writer σ V) {q : SharedQueue Nat}
    (h : SharedQueue.SameLog w.queue q) :
    ({ w with queue := q } : Writer σ V).affairs = w.affairs := by
  simp only [affairs, h.items, h.accepted, h.removed, h.size]

lemma affairs_log {n : Notice} {f : Option Failure} (h : w.log t n = (v, f)) :
    v.affairs = w.affairs := by
  obtain ⟨j, -, rfl⟩ := journal_of_log h
  rfl

lemma affairs_setCall {u : Writer σ V} (h : u.affairs = w.affairs) (t : Thread)
    (a : CallOfWriter σ V) :
    (u.setCall t a).affairs = { w.affairs with calls := w.affairs.calls.put t a } := by
  rw [← h]
  rfl

/-! ### Calls -/

lemma free_of_call (ha : w.calls.get? t = some a) (hw : a.isWrite = false) :
    w.affairs.Free t := by
  intro b hb
  change w.calls.get? t = some b at hb
  rw [ha, Option.some.injEq] at hb
  exact hb ▸ hw

/-- A call that is no write goes on beside the affairs. -/
lemma step_turns {b : CallOfWriter σ V} {u : Writer σ V} (ha : w.calls.get? t = some a)
    (hw : a.isWrite = false) (hu : u.affairs = w.affairs) (hb : b.isWrite = false) :
    w.affairs.Step none (u.setCall t b).affairs := by
  rw [affairs_setCall hu]
  exact .turns (free_of_call ha hw) hb

lemma affairs_of_inControl (h : w.InControl t v) : v.affairs = w.affairs := by
  cases h with
  | rings _ _ => exact affairs_withQueue w (.wake _ t)
  | wakes _ hq => exact affairs_withQueue { w with control := w.control.woken t w.now } (.notify hq)
  | turns _ _ _ => rfl

lemma noteCall_of_unmade {s : Submission σ V} (hv : v.envelopes.size = w.envelopes.size) :
    w.noteCall v t (.writing s .creating) = none := by
  rw [noteCall, hv, if_neg (Nat.lt_irrefl _)]

lemma noteCall_of_made {s : Submission σ V} (hv : v.envelopes.size = w.envelopes.size + 1) :
    w.noteCall v t (.writing s .creating) = some (.made t s w.envelopes.size) := by
  rw [noteCall, hv, if_pos (Nat.lt_succ_self _)]

lemma noteCall_of_inControl (hi : a.inControl = true) (u : Writer σ V) :
    w.noteCall u t a = none := by
  cases a with
  | starting | stopping _ | releasing => rfl
  | _ => cases hi

lemma Logs.isWrite {u : Writer σ V} {x : Notice} {b : Option Failure → CallOfWriter σ V}
    (h : w.Logs a u x b) (f : Option Failure) : (b f).isWrite = false := by
  cases h with
  | reports =>
    cases f with
    | none => exact CallOfWriter.isWrite_afterWalk _
    | some f => exact CallOfWriter.isWrite_faultOfWalk f _
  | closes => exact CallOfWriter.isWrite_afterStop ..
  | complains => cases f <;> rfl
  | loses | threw _ | expires | interrupted => rfl

/-- A call that logs a line goes on whatever becomes of the line. -/
lemma affairs_of_logs {u : Writer σ V} {x : Notice} {b : Option Failure → CallOfWriter σ V}
    {f : Option Failure} (ha : w.calls.get? t = some a) (hx : w.Logs a u x b)
    (hl : u.log t x = (v, f)) :
    w.affairs.Step (w.noteCall (v.setCall t (b f)) t a) (v.setCall t (b f)).affairs := by
  rw [affairs_setCall (affairs_log hl)]
  have hb := hx.isWrite f
  cases hx with
  | reports | closes | complains => exact .turns (free_of_call ha rfl) hb
  | loses => exact .drops ha
  | @threw s k e he =>
    have herr : (w.cell k).error.isSome = true := Option.isSome_iff_exists.mpr ⟨e, he⟩
    have hn : ∀ u, w.noteCall u t (.writing s (.told k .ready)) = none := fun _ => if_pos herr
    rw [hn]
    exact .parts ha fun _ => herr
  | expires => exact .parts ha (by rintro ⟨⟩)
  | interrupted => exact .parts ha (by rintro ⟨⟩)

theorem affairs_of_call (ha : w.calls.get? t = some a) (h : w.CallMoves t a v) :
    w.affairs.Step (w.noteCall v t a) v.affairs := by
  cases h with
  | inside hi h =>
    rw [noteCall_of_inControl hi, affairs_of_inControl h]
    exact .rests
  | @leaves _ r hi _ =>
    have hn : ∀ u, w.noteCall u t a = none := noteCall_of_inControl hi
    rw [hn]
    exact step_turns (u := { w with control := w.control.acknowledge t }) ha
      (CallOfWriter.isWrite_of_inControl hi) rfl (CallOfWriter.isWrite_afterControl hi r)
  | walks => exact .walks ha (CallOfWriter.isWrite_walked ..)
  | logs hx hl => exact affairs_of_logs ha hx hl
  | stops _ => exact step_turns (u := { w with control := w.control.beginStop t }) ha rfl rfl rfl
  | discards _ => exact step_turns ha rfl rfl rfl
  | clears => exact .clears ha
  | admits _ => exact .admits ha
  | refuses _ => exact .refuses ha (.inl rfl)
  | breaks _ =>
    rw [noteCall_of_unmade]
    · exact .refuses ha (.inr rfl)
    · rfl
  | makes he =>
    rw [noteCall_of_made]
    · exact .makes ha he
    · exact Array.size_push ..
  | @offers s k q hq =>
    obtain ⟨hi, hacc, hrem⟩ := SharedQueue.offer_true hq
    have hn : w.noteCall (({ w with queue := q } : Writer σ V).setCall t
        (.writing s (.notifying k))) t (.writing s (.offering k)) = some (.entered t s k) := by
      refine if_pos ?_
      change w.queue.accepted.length < q.accepted.length
      rw [hacc]
      exact Nat.lt_succ_self _
    have hc : (({ w with queue := q } : Writer σ V).setCall t
        (.writing s (.notifying k))).affairs =
        { w.affairs with pending := w.affairs.pending ++ [k]
                         queued := (w.affairs.pending ++ [k]).length
                         accepted := k :: w.affairs.accepted
                         calls := w.affairs.calls.put t (.writing s (.notifying k)) } := by
      simp only [affairs, setCall, hi, hacc, hrem, SharedQueue.size_offer hq]
    rw [hn, hc]
    exact .offers ha
  | @misses s k _ =>
    have hn : w.noteCall (w.setCall t (.writing s .losing)) t (.writing s (.offering k)) = none :=
      if_neg (Nat.lt_irrefl _)
    rw [hn]
    exact .misses ha
  | notifies hq =>
    rw [affairs_setCall (affairs_withQueue w (.notify hq))]
    exact .notifies ha
  | submits _ => exact .submits ha (.inl rfl)
  | awaits _ => exact .submits ha (.inr ⟨_, rfl⟩)
  | hears _ => exact .hears ha
  | @collects s k he =>
    have hn : ∀ u : Writer σ V, w.noteCall u t (.writing s (.told k .ready)) =
        some (.collected t k (w.cell k).value) := fun u => by
      rw [noteCall, he]
      rfl
    rw [hn]
    exact .collects ha he

/-! ### Bodies -/

variable {n k : Nat} {b b' : BodyStage σ V} {e : Envelope σ V}

lemma note_of_turn {s s' : σ} {d : CellChange V}
    (hy : w.cycles.get? (.worker n) = some (.running k b))
    (hv : v.cycles.get? (.worker n) = some (.running k b')) (h : BodyTurn e b s d b' s') :
    w.noteCycle v n = d.outcome?.map (.published k) := by
  cases h with
  | reaches _ hd =>
    simp only [noteCycle, hy]
    cases hd <;> rfl
  | _ =>
    simp only [noteCycle, hy, hv]
    rfl

/-- A cycle that the fault of a log line ends is spoiled. -/
lemma note_of_spoiled {u : Writer σ V} {last : Bool} {f : Failure}
    (hw : u.control.worker? n = some (.cycling last))
    (hy : w.cycles.get? (.worker n) = some (.running k b))
    (hb : (∃ x, b = .left x) ∨ ∃ ok, b = .verdict ok) :
    w.noteCycle (u.endCycle n (some f)) n = some (.spoiled n k f) := by
  have hcontrol : (u.endCycle n (some f)).control.worker? n = some (.failing f) := by
    change (u.control.endCycle n (some f)).worker? n = _
    rw [Control.endCycle_eq hw]
    exact Control.worker?_set_self rfl hw
  have hcycles : (u.endCycle n (some f)).cycles.get? (.worker n) = none :=
    Roster.get?_drop_self ..
  rcases hb with ⟨x, rfl⟩ | ⟨ok, rfl⟩
  · simp only [noteCycle, hy, hcontrol, hcycles]
  · simp only [noteCycle, hy, hcontrol, hcycles]

lemma note_of_stays {y : CycleStage σ V}
    (hy : w.cycles.get? (.worker n) = some (.running k b))
    (hb : (∃ x, b = .left x) ∨ ∃ ok, b = .verdict ok)
    (hv : v.cycles.get? (.worker n) = some y) : w.noteCycle v n = none := by
  rcases hb with ⟨x, rfl⟩ | ⟨ok, rfl⟩
  · simp only [noteCycle, hy, hv]
  · simp only [noteCycle, hy, hv]

lemma affairs_of_body {last : Bool} (hw : w.control.worker? n = some (.cycling last))
    (hy : w.cycles.get? (.worker n) = some (.running k b)) (he : w.envelopes[k]? = some e)
    (ht : w.affairs.Free (.worker n)) (h : w.BodyMoves n k e b v) :
    w.affairs.Step (w.noteCycle v n) v.affairs := by
  cases h with
  | turns h =>
    rw [note_of_turn hy (Roster.get?_put_self ..) h]
    exact .body hy he h
  | @reports f j hc _ =>
    rw [note_of_stays hy (.inl ⟨_, rfl⟩) (Roster.get?_put_self ..)]
    have hstep := Affairs.Step.body (c := w.affairs) hy he (.reports f hc)
    rwa [show changeCellAt w.affairs.envelopes k (CellChange.rests : CellChange V).change =
      w.affairs.envelopes from changeCellAt_id ..] at hstep
  | enters hp hg hi _ =>
    simp only [noteCycle, hy]
    refine .bodyCalls hy hp ht (.inl ?_) fun r => (hg r).imp fun _ h => ⟨_, h⟩
    exact CallOfWriter.isWrite_of_inControl hi
  | writes hp hg =>
    simp only [noteCycle, hy]
    exact .bodyCalls hy hp ht (.inr ⟨_, rfl⟩) fun r => (hg r).imp fun _ h => ⟨_, h⟩
  | returns hr =>
    simp only [noteCycle, hy]
    exact .bodyReturns hy hr
  | succeeds =>
    rw [note_of_stays hy (.inr ⟨_, rfl⟩) (Roster.get?_put_self ..)]
    exact @Affairs.Step.finishes _ _ w.affairs n k true hy
  | fails _ =>
    rw [note_of_stays hy (.inr ⟨_, rfl⟩) (Roster.get?_put_self ..)]
    exact @Affairs.Step.finishes _ _ w.affairs n k false hy
  | @garbles f x j hc _ =>
    have hclaimed : (w.cell k).claimed = true := cell_eq he ▸ hc
    rw [note_of_spoiled (u := ({ w with journal := j } : Writer σ V).markDone k) hw hy
      (.inl ⟨_, rfl⟩)]
    exact @Affairs.Step.spoils _ _ w.affairs n k _ x w.affairs.failed hy
      (.inr ⟨⟨_, rfl⟩, hclaimed⟩)
  | spoils _ =>
    rw [note_of_spoiled (u := ({ w with ledger := _, journal := _ } : Writer σ V).markDone k) hw hy
      (.inr ⟨_, rfl⟩)]
    exact .spoils hy (.inl ⟨_, rfl⟩)

/-! ### Cycles -/

lemma tookTicket_affairs {q : SharedQueue Nat} {x : Option Nat}
    (hrest : ∀ i, w.cycles.get? (.worker i) = none) (hp : SharedQueue.Popped x w.queue q) :
    w.affairs.Step (w.noteCycle (({ w with queue := q } : Writer σ V).tookTicket n x) n)
      (({ w with queue := q } : Writer σ V).tookTicket n x).affairs := by
  cases x with
  | none =>
    have hn : w.noteCycle (({ w with queue := q } : Writer σ V).tookTicket n none) n = none := by
      have hdrop : (({ w with queue := q } : Writer σ V).tookTicket n none).cycles.get?
          (.worker n) = none := Roster.get?_drop_self ..
      simp only [noteCycle, hrest, hdrop]
    have hq : SharedQueue.SameLog w.queue q :=
      ⟨hp.items.symm, hp.accepted, hp.removed, hp.size⟩
    have hc : (({ w with queue := q } : Writer σ V).tookTicket n none).affairs =
        { w.affairs with cycles := w.affairs.cycles.drop (.worker n) } := by
      rw [← affairs_withQueue w hq]
      rfl
    rw [hn, hc]
    exact .idles hrest
  | some k =>
    have hn : w.noteCycle (({ w with queue := q } : Writer σ V).tookTicket n (some k)) n =
        some (.took n k) := by
      have hput : (({ w with queue := q } : Writer σ V).tookTicket n (some k)).cycles.get?
          (.worker n) = some (.dequeued k) := Roster.get?_put_self ..
      simp only [noteCycle, hrest, hput]
    have hsize : q.size = q.items.length := hp.size
    have hc : (({ w with queue := q } : Writer σ V).tookTicket n (some k)).affairs =
        { w.affairs with pending := q.items, queued := q.items.length
                         removed := k :: w.affairs.removed
                         cycles := w.affairs.cycles.put (.worker n) (.dequeued k) } := by
      change ({ w.affairs with pending := q.items, queued := q.size, accepted := q.accepted
                               removed := q.removed, cycles := _ } : Affairs σ V) = _
      rw [hp.accepted, hp.removed, hsize]
      rfl
    rw [hn, hc]
    exact .takes hrest hp.items

lemma noteDepth_books {l l' : Ledger} {now : Time} {pending : Nat} {j j' : Journal}
    {f : Option Failure} (h : l.noteDepth now pending t j = (f, l', j')) :
    l'.executed = l.executed ∧ l'.failed = l.failed := by
  unfold Ledger.noteDepth at h
  split at h
  · split at h
    · cases h
      exact ⟨rfl, rfl⟩
    · cases h
      exact ⟨rfl, rfl⟩
  · cases h
    exact ⟨rfl, rfl⟩

theorem affairs_of_work (hl : w.course.Linked) (ht : w.affairs.Free (.worker n))
    (h : w.WorkMoves n v) : w.affairs.Step (w.noteCycle v n) v.affairs := by
  cases h with
  | @works s d j hb _ _ =>
    -- outside its cycles the worker has no ticket in hand
    have hy : w.cycles.get? (.worker n) = none := by
      refine Option.eq_none_iff_forall_ne_some.mpr fun y hy => ?_
      have hsome := Control.budget?_isSome_iff.mpr (hl.cycling hy)
      rw [show w.course.control.budget? n = none from hb] at hsome
      cases hsome
    have hn : w.noteCycle ({ w with control := d, journal := j } : Writer σ V) n = none := by
      simp only [noteCycle, hy]
    rw [hn]
    exact .rests
  | takes hw hy =>
    -- a worker without a ticket finds nobody with a ticket in hand
    refine tookTicket_affairs (fun i => ?_) (SharedQueue.popped_pop ..)
    by_cases hin : i = n
    · exact hin ▸ hy
    · exact hl.others (c := w.course) hw hin
  | @waits last d _ hy _ _ =>
    have hn : w.noteCycle ({ w with queue := { w.queue with
        stages := w.queue.stages.put (.worker n) (.waiting d false) } } : Writer σ V) n = none := by
      simp only [noteCycle, hy]
    rw [hn, affairs_withQueue w ⟨rfl, rfl, rfl, rfl⟩]
    exact .rests
  | opens _ hy he =>
    simp only [noteCycle, hy]
    exact .opens hy he
  | body hw hy he h => exact affairs_of_body hw hy he ht h
  | counts _ hy =>
    simp only [noteCycle, hy]
    exact .counts hy
  | @measures _ k f l j _ hy hd =>
    obtain ⟨hexec, hfail⟩ := noteDepth_books hd
    have hc : (({ w with ledger := l, journal := j } : Writer σ V).endCycle n f).affairs =
        { w.affairs with cycles := w.affairs.cycles.drop (.worker n) } := by
      simp only [affairs, endCycle, hexec, hfail]
    simp only [noteCycle, hy]
    rw [hc]
    exact .closes hy

/-! ### Moves -/

lemma note_of_call (ha : w.calls.get? t = some a) (h : w.CallMoves t a v) :
    w.note (.run t) v = w.noteCall v t a := by
  cases a with
  | ended r =>
    cases h with
    | inside hi _ | leaves hi _ => cases hi
    | logs hx _ => cases hx
  | _ => simp only [note, ha]

lemma note_of_work (hr : w.Rests (.worker n)) (v : Writer σ V) :
    w.note (.run (.worker n)) v = w.noteCycle v n := by
  cases ha : w.calls.get? (.worker n) with
  | none => simp only [note, ha]
  | some a =>
    obtain ⟨r, rfl⟩ := hr a ha
    simp only [note, ha]

lemma Rests.free (h : w.Rests t) : w.affairs.Free t := by
  intro a ha
  obtain ⟨r, rfl⟩ := h a ha
  rfl

theorem affairs_of_step {m : Move σ V} (hl : w.course.Linked) (h : w.step m = some v) :
    w.affairs.Step (w.note m v) v.affairs := by
  cases moves_of_step h with
  | @begins k r hn =>
    have hfree : w.affairs.Free (.client k) := fun b hb => nomatch hn.symm.trans hb
    cases r with
    | start spawns => exact .turns (a := .starting) hfree rfl
    | stop => exact .turns (a := .stopping false) hfree rfl
    | write s => exact .requests hfree
    | destroy => exact .turns (a := .destroying) hfree rfl
  | runs h =>
    cases h with
    | calls ha h =>
      rw [note_of_call ha h]
      exact affairs_of_call ha h
    | works hr h =>
      rw [note_of_work hr]
      exact affairs_of_work hl hr.free h
  | acknowledges hr => exact .quits hr
  | stirs _ => exact .rests
  | @rouses t _ =>
    rw [affairs_withQueue w (.rouse _ t)]
    exact .rests
  | opensGate | opensAll | arms | passes => exact .rests

end Writer

end SerialWriter
