import SerialWriter.Proofs.Writer.Cells
import SerialWriter.Proofs.Writer.Pace
import SerialWriter.Proofs.Writer.Serial
import SerialWriter.Proofs.Writer.Trail
import SerialWriter.Writer.Overload

/-!
How a write ends. It is refused, or no envelope is made for its task, or its ticket finds the queue
full, or its ticket is accepted, and whatever other threads do in between, it leaves nothing behind
unless it is accepted.
-/

namespace SerialWriter

variable {σ V : Type}

/-! ### The ways to hand over a task -/

namespace Overload

def work : Overload σ V → Program σ V
  | typed work _ _ | void work _ _ | named work _ | plain work => work

def id : Overload σ V → String
  | typed _ id _ | void _ id _ | named _ id => id
  | plain _ => unknownId

def wait : Overload σ V → Int
  | typed _ _ wait | void _ _ wait => wait
  | named _ _ | plain _ => 0

def value (unit : V) : Overload σ V → V → V
  | typed _ _ _, v => v
  | void _ _ _, _ | named _ _, _ | plain _, _ => unit

end Overload

/-- How a write ends. -/
inductive WriteExit
  /-- The phase does not welcome new work. -/
  | refused
  /-- No envelope is made. -/
  | failed
  /-- The queue is full. -/
  | lost
  | accepted
  deriving DecidableEq

/-- The phases that welcome new work. -/
def Phase.welcoming : List Phase := [.new, .starting, .running]

lemma Phase.mem_welcoming_iff {p : Phase} : p ∈ welcoming ↔ p.accepts = true := by
  cases p <;> decide

/-- The item has become the last one, and nothing else has changed for those who take. -/
structure SharedQueue.Appends {α : Type} (s : SharedQueue α) (a : α) (s' : SharedQueue α) :
    Prop where
  items : s'.items = s.items ++ [a]
  accepted : s'.accepted = a :: s.accepted
  removed : s'.removed = s.removed
  awake : s'.queue.awake = s.queue.awake

namespace Writer

/-- The turns that a thread has taken: the states before and after each. -/
abbrev OwnTurns (σ V : Type) : Type := List (Writer σ V × Writer σ V)

variable {w₀ w v u x y : Writer σ V} {t : Thread} {s : Submission σ V} {c k : Nat}
  {turns : OwnTurns σ V} {r : Except Failure (Option V)} {exit : WriteExit} {stage : WriteStage}

def isWriting (t : Thread) (w : Writer σ V) : Bool :=
  match w.calls.get? t with
  | some (.writing _ _) => true
  | _ => false

/-- **A write gets as far as its offer**: it is welcome, and an envelope is made for its task, to
which the ticket `k` belongs. -/
inductive Prepared (t : Thread) (s : Submission σ V) (k : Nat) : OwnTurns σ V → Prop
  | intro {x y : Writer σ V} {e : Envelope σ V} (hx : x.phase ∈ Phase.welcoming)
      (he : Envelope.make s.id s.work (y.factory.map fun f => f y.made) = .ok e)
      (hk : k = y.envelopes.size) :
      Prepared t s k [(x, x.setCall t (.writing s .creating)),
        (y, ({ y with made := y.made + 1, envelopes := y.envelopes.push e } : Writer σ V).setCall t
          (.writing s (.offering k)))]

/-- **A write puts its ticket in the queue**, in which there is room. -/
inductive Queued (c : Nat) (t : Thread) (s : Submission σ V) (k : Nat) : OwnTurns σ V → Prop
  | intro {turns : OwnTurns σ V} {x : Writer σ V} {queue : SharedQueue Nat}
      (h : Prepared t s k turns) (hroom : x.queue.items.length < c)
      (hq : x.queue.Appends k queue) :
      Queued c t s k (turns ++ [(x, { x with queue }.setCall t (.writing s (.notifying k)))])

/-- **A write is accepted**: once its ticket is in the queue it notifies the worker and counts the
submission. -/
inductive Accepted (c : Nat) (t : Thread) (s : Submission σ V) (k : Nat) : OwnTurns σ V → Prop
  | intro {turns : OwnTurns σ V} {x y : Writer σ V} {queue : SharedQueue Nat}
      {a : CallOfWriter σ V} (h : Queued c t s k turns) (hq : x.queue.SameLog queue) :
      Accepted c t s k (turns ++
        [(x, { x with queue }.setCall t (.writing s (.counting k))),
          (y, { y with submitted := y.submitted + 1 }.setCall t a)])

/-- **All the turns of a write that ends with `r`**, by its exit. -/
inductive WriteEnds (c : Nat) (t : Thread) (s : Submission σ V) :
    OwnTurns σ V → Except Failure (Option V) → WriteExit → Prop
  /-- It changes nothing, and does not call the factory. -/
  | refused {x : Writer σ V} {e : Refusal} (hx : x.phase ∉ Phase.welcoming)
      (he : e.kind = .illegalState) :
      WriteEnds c t s [(x, x.finish t (.error (.refused e)))] (.error (.refused e)) .refused
  /-- It changes nothing, but has called the factory. -/
  | failed {x y : Writer σ V} {f : Factory σ} {e : Failure} (hx : x.phase ∈ Phase.welcoming)
      (hf : y.factory = some f) (he : f y.made = .error e) :
      WriteEnds c t s [(x, x.setCall t (.writing s .creating)),
        (y, { y with made := y.made + 1 }.finish t (.error e))] (.error e) .failed
  /-- It leaves the queue alone, counts the loss and logs one line, which may fail. -/
  | lost {k : Nat} {turns : OwnTurns σ V} {x y : Writer σ V} {r : Except Failure (Option V)}
      (h : Prepared t s k turns) (hfull : x.queue.items.length = c)
      (hr : r = match (y.journal.log t (.lost s.id)).1 with
        | none => .ok none
        | some fault => .error fault) :
      WriteEnds c t s (turns ++ [(x, x.setCall t (.writing s .losing)),
        (y, { y with dropped := y.dropped + 1
                     journal := (y.journal.log t (.lost s.id)).2 }.finish t r)]) r .lost
  /-- What it still does after it is accepted has to do with its wait, if it waits. -/
  | accepted {k : Nat} {turns rest : OwnTurns σ V} {r : Except Failure (Option V)}
      (h : Accepted c t s k turns) (hnow : s.wait ≤ 0 → rest = [] ∧ r = .ok none)
      (hrest : ∀ z ∈ rest, z.2.queue = z.1.queue ∧ z.2.submitted = z.1.submitted ∧
        z.2.dropped = z.1.dropped) :
      WriteEnds c t s (turns ++ rest) r .accepted

/-- The turns of a write that is about to do the next thing. -/
inductive Wrote (c : Nat) (t : Thread) (s : Submission σ V) : WriteStage → OwnTurns σ V → Prop
  | checking : Wrote c t s .checking []
  | creating {x : Writer σ V} (hx : x.phase ∈ Phase.welcoming) :
      Wrote c t s .creating [(x, x.setCall t (.writing s .creating))]
  | offering {k : Nat} {turns : OwnTurns σ V} (h : Prepared t s k turns) :
      Wrote c t s (.offering k) turns
  | losing {k : Nat} {turns : OwnTurns σ V} {x : Writer σ V} (h : Prepared t s k turns)
      (hfull : x.queue.items.length = c) :
      Wrote c t s .losing (turns ++ [(x, x.setCall t (.writing s .losing))])
  | notifying {k : Nat} {turns : OwnTurns σ V} (h : Queued c t s k turns) :
      Wrote c t s (.notifying k) turns
  | counting {k : Nat} {turns : OwnTurns σ V} {x : Writer σ V} {queue : SharedQueue Nat}
      (h : Queued c t s k turns) (hq : x.queue.SameLog queue) :
      Wrote c t s (.counting k)
        (turns ++ [(x, { x with queue }.setCall t (.writing s (.counting k)))])
  | waiting {k : Nat} {d : Time} {turns : OwnTurns σ V} (h : Accepted c t s k turns)
      (hw : 0 < s.wait) : Wrote c t s (.waiting k d) turns
  | told {k : Nat} {status : WaitStatus} {turns : OwnTurns σ V} {x : Writer σ V}
      (h : Accepted c t s k turns) (hw : 0 < s.wait) :
      Wrote c t s (.told k status) (turns ++ [(x, x.setCall t (.writing s (.told k status)))])

lemma Prepared.length (h : Prepared t s k turns) : turns.length = 2 := by
  cases h
  rfl

lemma Queued.length (h : Queued c t s k turns) : turns.length = 3 := by
  cases h with
  | intro h _ _ => rw [List.length_append, h.length]; rfl

lemma Accepted.length (h : Accepted c t s k turns) : turns.length = 5 := by
  cases h with
  | intro h _ => rw [List.length_append, h.length]; rfl

lemma WriteEnds.length_of_lost (h : WriteEnds c t s turns r .lost) : turns.length = 4 := by
  cases h with
  | lost h _ _ => rw [List.length_append, h.length]; rfl

lemma WriteEnds.of_accepted (h : Accepted c t s k turns) :
    WriteEnds c t s turns (.ok none) .accepted := by
  rw [← List.append_nil turns]
  exact .accepted h (fun _ => ⟨rfl, rfl⟩) fun _ hz => absurd hz List.not_mem_nil

/-! ### A turn -/

/-- A write that goes on is about to do something else, or is over. -/
def Wrote.Next (c : Nat) (t : Thread) (s : Submission σ V) (turns : OwnTurns σ V)
    (v : Writer σ V) : Prop :=
  (∃ stage, v.calls.get? t = some (.writing s stage) ∧ Wrote c t s stage turns) ∨
    ∃ r exit, v.calls.get? t = some (.ended r) ∧ WriteEnds c t s turns r exit

namespace Wrote

lemma on (h : Wrote c t s stage (turns ++ [(x, u.setCall t (.writing s stage))])) :
    Next c t s (turns ++ [(x, u.setCall t (.writing s stage))]) (u.setCall t (.writing s stage)) :=
  .inl ⟨stage, Roster.get?_put_self .., h⟩

lemma out (h : WriteEnds c t s (turns ++ [(x, u.finish t r)]) r exit) :
    Next c t s (turns ++ [(x, u.finish t r)]) (u.finish t r) :=
  .inr ⟨r, exit, Roster.get?_put_self .., h⟩

lemma loses {z : Writer σ V} {f : Option Failure} (h : Prepared t s k turns)
    (hu : u.queue.items.length = c)
    (hl : ({ x with dropped := x.dropped + 1 } : Writer σ V).log t (.lost s.id) = (z, f)) :
    Next c t s (turns ++ [(u, u.setCall t (.writing s .losing)),
      (x, z.setCall t (.ended (f.elim (.ok none) .error)))])
      (z.setCall t (.ended (f.elim (.ok none) .error))) := by
  obtain ⟨j, hj, rfl⟩ := journal_of_log hl
  obtain rfl : (x.journal.log t (.lost s.id)).1 = f := congrArg Prod.fst hj
  obtain rfl : (x.journal.log t (.lost s.id)).2 = j := congrArg Prod.snd hj
  refine .inr ⟨_, _, Roster.get?_put_self .., .lost h hu ?_⟩
  cases (x.journal.log t (.lost s.id)).1 <;> rfl

/-- A write that knows how its wait has ended is over next, and has nothing more to do with the
queue and the submissions. -/
lemma ended_of_told {status : WaitStatus} (hs : x.CallMoves t (.writing s (.told k status)) y) :
    (∃ r, y.calls.get? t = some (.ended r)) ∧ y.queue = x.queue ∧ y.submitted = x.submitted ∧
      y.dropped = x.dropped := by
  cases hs with
  | inside hi _ | leaves hi _ => cases hi
  | collects _ => exact ⟨⟨_, Roster.get?_put_self ..⟩, rfl, rfl, rfl⟩
  | logs hx hl =>
    obtain ⟨j, -, rfl⟩ := journal_of_log hl
    cases hx <;> exact ⟨⟨_, Roster.get?_put_self ..⟩, rfl, rfl, rfl⟩

lemma step_told {status : WaitStatus} (h : Accepted c t s k turns) (hw : 0 < s.wait)
    (hs : x.CallMoves t (.writing s (.told k status)) y) :
    Next c t s (turns ++ [(u, u.setCall t (.writing s (.told k status))), (x, y)]) y := by
  obtain ⟨⟨r, hr⟩, hsame⟩ := ended_of_told hs
  refine .inr ⟨r, _, hr, .accepted h (fun hnot => absurd hw (Int.not_lt.mpr hnot)) ?_⟩
  intro z hz
  rcases List.mem_cons.mp hz with rfl | hz
  · exact ⟨rfl, rfl, rfl⟩
  · exact List.mem_singleton.mp hz ▸ hsame

theorem step (h : Wrote c t s stage turns) (hx : x.queue.WithinCapacity c)
    (hs : x.CallMoves t (.writing s stage) y) : Next c t s (turns ++ [(x, y)]) y := by
  have hmove := hs
  -- by what the call does; the stage that it is at leaves one story of the turns before
  cases hs with
  | inside hi _ | leaves hi _ => cases hi
  | admits hp =>
    cases h with
    | checking => exact on (.creating (Phase.mem_welcoming_iff.mpr hp))
  | refuses hp =>
    cases h with
    | checking =>
      exact out (.refused (fun hin => Bool.false_ne_true
        (hp.symm.trans (Phase.mem_welcoming_iff.mp hin))) rfl)
  | breaks he =>
    obtain ⟨f, hf, hfe⟩ := Option.map_eq_some_iff.mp (Envelope.factory_of_make he)
    cases h with
    | creating hu => exact .inr ⟨_, _, Roster.get?_put_self .., .failed hu hf hfe⟩
  | makes he =>
    cases h with
    | creating hu => exact .inl ⟨_, Roster.get?_put_self .., .offering (.intro hu he rfl)⟩
  | offers hq =>
    obtain ⟨hitems, haccepted, hremoved⟩ := SharedQueue.offer_true hq
    cases h with
    | offering h =>
      exact on (.notifying (.intro h (hx.room_of_offer hq)
        ⟨hitems, haccepted, hremoved, (SharedQueue.offer_stages hq).1⟩))
  | misses hq =>
    cases h with
    | offering h => exact on (.losing h (hx.full_of_offer hq))
  | notifies hq =>
    cases h with
    | notifying h => exact on (.counting h (.notify hq))
  | submits _ =>
    cases h with
    | counting h hq =>
      rw [List.append_assoc]
      exact .inr ⟨_, _, Roster.get?_put_self .., .of_accepted (.intro h hq)⟩
  | awaits hw =>
    cases h with
    | counting h hq =>
      rw [List.append_assoc]
      exact .inl ⟨_, Roster.get?_put_self .., .waiting (.intro h hq) hw⟩
  | hears _ =>
    cases h with
    | waiting h hw => exact on (.told h hw)
  | collects _ =>
    cases h with
    | told h hw =>
      rw [List.append_assoc]
      exact step_told h hw hmove
  | logs hx hl =>
    cases hx with
    | loses =>
      cases h with
      | losing h hu =>
        rw [List.append_assoc]
        exact loses h hu hl
    | threw _ | expires | interrupted =>
      cases h with
      | told h hw =>
        rw [List.append_assoc]
        exact step_told h hw hmove

end Wrote

/-- The ticket was given in one of these turns. -/
def Gives (turns : OwnTurns σ V) (k : Nat) : Prop :=
  ∃ z ∈ turns, z.1.envelopes.size ≤ k ∧ k < z.2.envelopes.size

lemma Prepared.eq_of_gives {k' : Nat} (h : Prepared t s k turns) (hg : Gives turns k') :
    k' = k := by
  cases h with
  | @intro x y e _ _ hk =>
    obtain ⟨z, hz, hle, hlt⟩ := hg
    rcases List.mem_cons.mp hz with rfl | hz
    · exact absurd hlt (Nat.not_lt.mpr hle)
    · rw [List.mem_singleton.mp hz] at hle hlt
      change y.envelopes.size ≤ k' at hle
      change k' < (y.envelopes.push e).size at hlt
      rw [Array.size_push] at hlt
      omega

lemma Gives.of_append (h : Gives (turns ++ [(x, y)]) k)
    (hsize : y.envelopes.size = x.envelopes.size) : Gives turns k := by
  obtain ⟨z, hz, hle, hlt⟩ := h
  rcases List.mem_append.mp hz with hz | hz
  · exact ⟨z, hz, hle, hlt⟩
  · rw [List.mem_singleton.mp hz] at hle hlt
    exact absurd (hsize ▸ hlt) (Nat.not_lt.mpr hle)

lemma WriteEnds.not_gives (h : WriteEnds c t s turns r exit)
    (hexit : exit = .refused ∨ exit = .failed) : ¬ Gives turns k := by
  rintro ⟨z, hz, hle, hlt⟩
  refine absurd (Nat.lt_of_le_of_lt hle hlt) (Nat.not_lt.mpr (Nat.le_of_eq ?_))
  cases h with
  | refused _ _ => rw [List.mem_singleton.mp hz]; rfl
  | failed _ _ _ =>
    rcases List.mem_cons.mp hz with rfl | hz
    · rfl
    · rw [List.mem_singleton.mp hz]
      rfl
  | lost _ _ _ | accepted _ _ _ => simp at hexit

/-! ### Whole writes -/

/-- **A write that is not over**: what it has done so far, and what it does next. -/
structure Midway (c : Nat) (t : Thread) (s : Submission σ V) (turns : OwnTurns σ V)
    (w : Writer σ V) (stage : WriteStage) : Prop where
  call : w.calls.get? t = some (.writing s stage)
  wrote : Wrote c t s stage turns
  lost : stage = .losing → ∀ k, Gives turns k → w.course.Lost k

namespace Midway

lemma offering_of_losing (hs : x.CallMoves t (.writing s stage) y)
    (hy : y.calls.get? t = some (.writing s .losing)) : ∃ k, stage = .offering k := by
  have hput : ∀ {v : Writer σ V} {a : CallOfWriter σ V},
      (v.setCall t a).calls.get? t = some (.writing s .losing) → a = .writing s .losing :=
    fun hv => Option.some.inj ((Roster.get?_put_self ..).symm.trans hv)
  cases hs with
  | inside hi _ | leaves hi _ => cases hi
  | misses _ => exact ⟨_, rfl⟩
  | logs hx _ => cases hx <;> cases hput hy
  | _ => cases hput hy

lemma envelopes_of_losing (hs : x.CallMoves t (.writing s .losing) y) :
    y.envelopes = x.envelopes := by
  cases hs with
  | inside hi _ | leaves hi _ => cases hi
  | logs hx hl => exact congrArg Course.envelopes (hx.course hl)

/-- After three turns a write is about to notify or to report a loss. -/
lemma stage_of_length (h : Wrote c t s stage turns) (hl : turns.length = 3) :
    stage = .losing ∨ ∃ k, stage = .notifying k := by
  cases h with
  | losing _ _ => exact .inl rfl
  | notifying _ => exact .inr ⟨_, rfl⟩
  | checking | creating _ => cases hl
  | offering h | waiting h _ => cases h.length.symm.trans hl
  | counting h _ | told h _ =>
    rw [List.length_append, h.length] at hl
    cases hl

theorem own (h : Midway c t s turns u stage) (hu : u.Faithful) (hq : u.queue.WithinCapacity c)
    (hs : u.step (.run t) = some v) :
    (∃ stage', Midway c t s (turns ++ [(u, v)]) v stage') ∨
      ∃ r exit, v.calls.get? t = some (.ended r) ∧ WriteEnds c t s (turns ++ [(u, v)]) r exit ∧
        (exit ≠ .accepted → ∀ k, Gives (turns ++ [(u, v)]) k → v.course.Lost k) := by
  have hturn := callMoves_of_run h.call nofun hs
  rcases h.wrote.step hq hturn with ⟨stage', hv, hw⟩ | hend
  · refine .inl ⟨stage', hv, hw, ?_⟩
    rintro rfl k hk
    obtain ⟨i, rfl⟩ := offering_of_losing hturn hv
    have hcourse := course_of_losing h.call hs hv
    -- the only ticket given so far is the one that has just been offered in vain
    cases h.wrote with
    | offering hp =>
      have hsize : v.envelopes.size = u.envelopes.size :=
        congrArg (fun d => d.envelopes.size) hcourse
      obtain rfl := hp.eq_of_gives (hk.of_append hsize)
      exact lost_of_losing hu.known.tickets h.call hs hv
  · obtain ⟨r, exit, hv, hends⟩ := hend
    refine .inr ⟨r, exit, hv, hends, fun hne k hk => ?_⟩
    cases exit with
    | accepted => exact absurd rfl hne
    | refused => exact absurd hk (hends.not_gives (.inl rfl))
    | failed => exact absurd hk (hends.not_gives (.inr rfl))
    | lost =>
      -- the turn that ends it is the report, and the ticket was lost before
      have hlength : turns.length = 3 := by
        have hall := hends.length_of_lost
        rw [List.length_append] at hall
        exact Nat.succ.inj hall
      rcases stage_of_length h.wrote hlength with rfl | ⟨i, rfl⟩
      · have hsize : v.envelopes.size = u.envelopes.size :=
          congrArg Array.size (envelopes_of_losing hturn)
        exact (h.lost rfl k (hk.of_append hsize)).step (step_course hs)
      · cases hturn with
        | inside hi _ | leaves hi _ => cases hi
        | logs hx _ => cases hx
        | notifies _ => cases (Roster.get?_put_self ..).symm.trans hv

lemma aside {m : Move σ V} (h : Midway c t s turns u stage) (hs : u.step m = some v)
    (hm : m ≠ .run t) (hv : v.isWriting t = true) : Midway c t s turns v stage := by
  refine ⟨?_, h.wrote, fun hl k hk => (h.lost hl k hk).step (step_course hs)⟩
  refine (call_of_step hs hm h.call).1.resolve_right fun hnone => ?_
  rw [isWriting, hnone] at hv
  cases hv

end Midway

section Run

variable {config : Config} {target : String} {factory : Option (Factory σ)} {resource : σ}
  {now : Time} {i : Thread} {j j' : Journal}

end Run

end Writer

end SerialWriter
