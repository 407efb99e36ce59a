import SerialWriter.Writer.Scene
import Mathlib.Tactic.Lemma

/-!
What the steps of a writer are made of: the cells of its envelopes, the stages at which a call goes
on, and what a worker does in the body of an envelope.
-/

namespace SerialWriter

/-! ### Envelopes -/

section Envelopes

variable {σ V : Type}

def cellAt (es : Array (Envelope σ V)) (k : Nat) : Cell V := ((es[k]?).map (·.cell)).getD {}

def changeCellAt (es : Array (Envelope σ V)) (k : Nat) (f : Cell V → Cell V) :
    Array (Envelope σ V) := es.modify k fun e => { e with cell := f e.cell }

def interruptAt (es : Array (Envelope σ V)) (l : List Nat) : Array (Envelope σ V) :=
  l.foldl (fun es k => changeCellAt es k Cell.interrupt) es

@[simp] lemma size_changeCellAt (es : Array (Envelope σ V)) (k : Nat) (f : Cell V → Cell V) :
    (changeCellAt es k f).size = es.size := Array.size_modify ..

@[simp] lemma size_interruptAt (es : Array (Envelope σ V)) (l : List Nat) :
    (interruptAt es l).size = es.size := by
  induction l generalizing es with
  | nil => rfl
  | cons k l ih => exact (ih _).trans (size_changeCellAt ..)

lemma cellAt_changeCellAt (es : Array (Envelope σ V)) (k : Nat) (f : Cell V → Cell V) (i : Nat) :
    cellAt (changeCellAt es k f) i =
      if i = k ∧ k < es.size then f (cellAt es i) else cellAt es i := by
  unfold cellAt changeCellAt
  rw [Array.getElem?_modify]
  by_cases hik : k = i
  · subst hik
    by_cases hk : k < es.size
    · simp [hk]
    · simp [hk]
  · rw [if_neg hik, if_neg fun h => hik h.1.symm]

lemma cellAt_eq {es : Array (Envelope σ V)} {e : Envelope σ V} {k : Nat} (he : es[k]? = some e) :
    cellAt es k = e.cell := by
  rw [cellAt, he]
  rfl

lemma cellAt_changeCellAt_ne (es : Array (Envelope σ V)) {k i : Nat} (hi : i ≠ k)
    (f : Cell V → Cell V) : cellAt (changeCellAt es k f) i = cellAt es i := by
  rw [cellAt_changeCellAt, if_neg fun h => hi h.1]

lemma cellAt_changeCellAt_of_lt {es : Array (Envelope σ V)} {k : Nat} (hk : k < es.size)
    (f : Cell V → Cell V) (i : Nat) :
    cellAt (changeCellAt es k f) i = if i = k then f (cellAt es i) else cellAt es i := by
  simp only [cellAt_changeCellAt, hk, and_true]

lemma cellAt_changeCellAt_self {es : Array (Envelope σ V)} {e : Envelope σ V} {k : Nat}
    (he : es[k]? = some e) (f : Cell V → Cell V) : cellAt (changeCellAt es k f) k = f e.cell := by
  rw [cellAt_changeCellAt_of_lt (Array.getElem?_eq_some_iff.mp he).1, if_pos rfl, cellAt_eq he]

lemma cellAt_changeCellAt_or (es : Array (Envelope σ V)) (k : Nat) (f : Cell V → Cell V)
    (i : Nat) : cellAt (changeCellAt es k f) i = cellAt es i ∨
      i = k ∧ cellAt (changeCellAt es k f) i = f (cellAt es i) := by
  rw [cellAt_changeCellAt]
  split
  · rename_i hi
    exact .inr ⟨hi.1, rfl⟩
  · exact .inl rfl

lemma forall_cellAt_changeCellAt (P : Nat → Cell V → Prop) {es : Array (Envelope σ V)} {k : Nat}
    {f : Cell V → Cell V} (hk : P k (f (cellAt es k))) (h : ∀ i, P i (cellAt es i)) (i : Nat) :
    P i (cellAt (changeCellAt es k f) i) := by
  rcases cellAt_changeCellAt_or es k f i with hi | ⟨rfl, hi⟩
  · exact hi ▸ h i
  · exact hi ▸ hk

lemma apply_cellAt_changeCellAt {α : Type} (g : Cell V → α) {f : Cell V → Cell V}
    (hf : ∀ a, g (f a) = g a) (es : Array (Envelope σ V)) (k i : Nat) :
    g (cellAt (changeCellAt es k f) i) = g (cellAt es i) := by
  rcases cellAt_changeCellAt_or es k f i with hi | ⟨-, hi⟩
  · rw [hi]
  · rw [hi, hf]

lemma apply_cellAt_take {α : Type} (g : Cell V → α) (hg : ∀ a, g a.take.2 = g a)
    (es : Array (Envelope σ V)) (k i : Nat) :
    g (cellAt (changeCellAt es k fun a => a.take.2) i) = g (cellAt es i) :=
  apply_cellAt_changeCellAt g hg es k i

lemma changeCellAt_id (es : Array (Envelope σ V)) (k : Nat) : changeCellAt es k id = es := by
  refine Array.ext_getElem? fun i => ?_
  unfold changeCellAt
  rw [Array.getElem?_modify]
  split
  · cases es[i]? <;> rfl
  · rfl

lemma Envelope.fresh_of_make {e : Envelope σ V} {id : String} {p : Program σ V}
    {f : Option (Except Failure (Wrapper σ))} (h : Envelope.make id p f = .ok e) :
    e.cell = {} ∧ e.body.task = p := by
  unfold Envelope.make at h
  split at h
  · cases h
    exact ⟨rfl, rfl⟩
  · cases h
    exact ⟨rfl, rfl⟩
  · cases h

lemma Envelope.factory_of_make {id : String} {p : Program σ V}
    {f : Option (Except Failure (Wrapper σ))} {e : Failure} (h : Envelope.make id p f = .error e) :
    f = some (.error e) := by
  unfold Envelope.make at h
  split at h
  · cases h
  · cases h
  · cases h
    rfl

lemma cellAt_push {es : Array (Envelope σ V)} {e : Envelope σ V} (he : e.cell = {}) (i : Nat) :
    cellAt (es.push e) i = cellAt es i := by
  unfold cellAt
  rw [Array.getElem?_push]
  split
  · rename_i hi
    rw [Array.getElem?_eq_none (Nat.le_of_eq hi.symm)]
    exact he
  · rfl

lemma cellAt_interruptAt (es : Array (Envelope σ V)) (l : List Nat) (i : Nat) :
    cellAt (interruptAt es l) i =
      if i ∈ l ∧ i < es.size then (cellAt es i).interrupt else cellAt es i := by
  induction l generalizing es with
  | nil => simp [interruptAt]
  | cons k l ih =>
    change cellAt (interruptAt (changeCellAt es k Cell.interrupt) l) i = _
    rw [ih, size_changeCellAt, cellAt_changeCellAt]
    by_cases hi : i < es.size
    · by_cases hik : i = k
      · subst hik
        by_cases hl : i ∈ l
        · simp [hi, hl, Cell.interrupt]
        · simp [hi, hl]
      · by_cases hl : i ∈ l
        · simp [hi, hl, hik]
        · simp [hl, hik]
    · by_cases hik : i = k
      · subst hik
        simp [hi]
      · simp [hi, hik]

lemma apply_cellAt_interruptAt {α : Type} (g : Cell V → α) (hg : ∀ a, g a.interrupt = g a)
    (es : Array (Envelope σ V)) (l : List Nat) (i : Nat) :
    g (cellAt (interruptAt es l) i) = g (cellAt es i) := by
  rw [cellAt_interruptAt]
  split
  · exact hg _
  · rfl

end Envelopes

/-! ### Stages -/

namespace CallOfWriter

variable {σ V : Type}

/-- The thread is inside a call of the control. -/
def inControl : CallOfWriter σ V → Bool
  | .starting | .stopping _ | .releasing => true
  | _ => false

/-- What follows a stop that ended with `r`; `b` tells whether it is part of a destruction. -/
def afterStop (b : Bool) (r : Except Failure Unit) : CallOfWriter σ V :=
  if b then
    match r with
    | .ok _ => .clearing
    | .error (.refused r) => .complaining r
    | .error e => .ended (.error e)
  else .ended (r.map fun _ => none)

/-- What follows a call of the control that ended with `r`. -/
def afterControl : CallOfWriter σ V → Except Failure Unit → CallOfWriter σ V
  | .stopping b, .ok _ => .walking (.close b)
  | .stopping b, .error (.refused r) => .walking (.refuse b r)
  | .stopping b, .error e => afterStop b (.error e)
  | _, r => .ended (r.map fun _ => none)

def afterWalk : AfterWalk → CallOfWriter σ V
  | .close b => .closing b
  | .refuse b r => afterStop b (.error (.refused r))
  | .discard => .clearing

/-- What follows the walk over the pending tickets if its report fails. -/
def faultOfWalk (fault : Failure) : AfterWalk → CallOfWriter σ V
  | .close b | .refuse b _ => afterStop b (.error fault)
  | .discard => .ended (.error fault)

def walked (pending : Nat) (after : AfterWalk) : CallOfWriter σ V :=
  if 0 < pending then .reporting pending after else .afterWalk after

lemma walked_length (l : List Nat) (after : AfterWalk) :
    (walked l.length after : CallOfWriter σ V) =
      if l = [] then .afterWalk after else .reporting l.length after := by
  cases l <;> rfl

end CallOfWriter

/-- The worker is inside a call of the writer. -/
def BodyStage.isCalling {σ V : Type} : BodyStage σ V → Bool
  | .calling _ => true
  | _ => false

/-! ### Bodies -/

section Bodies

variable {σ V : Type}

/-- The next step of the program touches its own cell or the writer. -/
def Program.involved : Program σ V → Bool
  | .resolve _ _ | .interrupt _ | .phase _ | .stats _ | .start _ | .stop _ | .write _ _ _ _ => true
  | .ret _ | .fail _ | .update _ _ | .pass _ _ => false

/-- What a step in the body of an envelope does to its own cell. -/
inductive CellChange (V : Type)
  | rests
  | claims
  | publishes (o : Outcome V)
  | interrupts

namespace CellChange

variable {V : Type}

def change : CellChange V → Cell V → Cell V
  | rests => id
  | claims => fun c => c.claim.2
  | publishes o => fun c => c.publish o
  | interrupts => Cell.interrupt

def outcome? : CellChange V → Option (Outcome V)
  | publishes o => some o
  | rests | claims | interrupts => none

/-- **How a task goes on** that has touched its own cell or asked about the writer. -/
inductive Reaches {σ : Type} (a : Cell V) : CellChange V → BodyStage σ V → Prop
  | rests (p : Program σ V) (back? : Option (Option Failure → Wrapper σ)) :
      Reaches a .rests (.inner p back?)
  | interrupts (p : Program σ V) (back? : Option (Option Failure → Wrapper σ)) :
      Reaches a .interrupts (.inner p back?)
  | claims (o : Outcome V) (p : Program σ V) (back? : Option (Option Failure → Wrapper σ))
      (hc : a.claimed = false) : Reaches a .claims (.publishing o (.inner p back?))

end CellChange

/-- **The steps of a worker in the body of the envelope `e`**: from a stage and a resource to the
next, with what is done to the cell. -/
inductive BodyTurn (e : Envelope σ V) :
    BodyStage σ V → σ → CellChange V → BodyStage σ V → σ → Prop
  /-- The wrapper ends. -/
  | ends {s : σ} : BodyTurn e (.outer .done) s .rests (.left none) s
  /-- The wrapper fails. -/
  | breaks {s : σ} (f : Failure) : BodyTurn e (.outer (.fail f)) s .rests (.left (some f)) s
  /-- The wrapper changes the resource. -/
  | changes {s : σ} (f : σ → σ) (next : σ → Wrapper σ) :
      BodyTurn e (.outer (.update f next)) s .rests (.outer (next s)) (f s)
  /-- The wrapper runs the task. -/
  | invokes {s : σ} (next : Option Failure → Wrapper σ) :
      BodyTurn e (.outer (.invoke next)) s .rests (.inner e.body.task (some next)) s
  /-- The task returns to nobody. -/
  | returns {s : σ} (v : V) : BodyTurn e (.inner (.ret v) none) s .rests (.left none) s
  /-- The task returns, and its value is to be the outcome. -/
  | wins {s : σ} (v : V) (next : Option Failure → Wrapper σ) (hc : e.cell.claimed = false) :
      BodyTurn e (.inner (.ret v) (some next)) s .claims
        (.publishing (.value v) (.outer (next none))) s
  /-- The task returns, too late for its value. -/
  | loses {s : σ} (v : V) (next : Option Failure → Wrapper σ) (hc : e.cell.claimed = true) :
      BodyTurn e (.inner (.ret v) (some next)) s .rests (.outer (next none)) s
  /-- The task fails. -/
  | fails {s : σ} (f : Failure) (back? : Option (Option Failure → Wrapper σ)) :
      BodyTurn e (.inner (.fail f) back?) s .rests
        (back?.elim (.left (some f)) fun next => .outer (next (some f))) s
  /-- The task changes the resource. -/
  | updates {s : σ} (f : σ → σ) (next : σ → Program σ V)
      (back? : Option (Option Failure → Wrapper σ)) :
      BodyTurn e (.inner (.update f next) back?) s .rests (.inner (next s) back?) (f s)
  /-- The task passes an open gate. -/
  | passes {s : σ} (gate : String) (next : Program σ V)
      (back? : Option (Option Failure → Wrapper σ)) :
      BodyTurn e (.inner (.pass gate next) back?) s .rests (.inner next back?) s
  /-- The task touches its cell or asks about the writer. -/
  | reaches {s : σ} {p : Program σ V} {back? : Option (Option Failure → Wrapper σ)}
      {d : CellChange V} {b : BodyStage σ V} (hp : p.involved = true) (hd : d.Reaches e.cell b) :
      BodyTurn e (.inner p back?) s d b s
  /-- The outcome is assigned. -/
  | publishes {s : σ} (o : Outcome V) (after : BodyStage σ V) :
      BodyTurn e (.publishing o after) s (.publishes o) after s
  /-- The body has failed after its outcome was decided. -/
  | reports {s : σ} (f : Failure) (hc : e.cell.claimed = true) :
      BodyTurn e (.left (some f)) s .rests (.verdict false) s
  /-- The body has failed, and its failure is to be the outcome. -/
  | blames {s : σ} (f : Failure) (hc : e.cell.claimed = false) :
      BodyTurn e (.left (some f)) s .claims (.publishing (.error (some f)) (.verdict false)) s
  /-- The body has ended after its outcome was decided. -/
  | succeeds {s : σ} (hc : e.cell.claimed = true) :
      BodyTurn e (.left none) s .rests (.verdict true) s
  /-- The body has ended without an outcome. -/
  | lacks {s : σ} (hc : e.cell.claimed = false) :
      BodyTurn e (.left none) s .claims
        (.publishing (.error (some (.noResult e.id))) (.verdict false)) s

end Bodies

/-! ### In a writer -/

namespace Writer

variable {σ V : Type} {w v : Writer σ V} {t : Thread} {a : CallOfWriter σ V} {n k : Nat}

lemma interruptPending_eq (w : Writer σ V) :
    w.interruptPending = { w with envelopes := interruptAt w.envelopes w.queue.items } := by
  have hfold : ∀ (l : List Nat) (w : Writer σ V),
      l.foldl (fun w ticket => w.changeCell ticket Cell.interrupt) w =
        { w with envelopes := interruptAt w.envelopes l } := by
    intro l
    induction l with
    | nil => exact fun _ => rfl
    | cons k l ih => exact fun w => ih _
  exact hfold _ w

lemma finishStop_eq (w : Writer σ V) (t : Thread) (closing : Bool) (r : Except Failure Unit) :
    w.finishStop t closing r = w.setCall t (.afterStop closing r) := by
  cases closing with
  | false => rfl
  | true =>
    cases r with
    | ok _ => rfl
    | error e => cases e <;> rfl

lemma afterStop_eq (w : Writer σ V) (t : Thread) (closing : Bool) (r : Except Failure Unit) :
    w.afterStop t closing r = w.setCall t ((CallOfWriter.stopping closing).afterControl r) := by
  cases r with
  | ok _ => rfl
  | error e =>
    cases e with
    | refused r => rfl
    | _ => exact finishStop_eq ..

lemma afterWalk_eq (w : Writer σ V) (t : Thread) (after : AfterWalk) :
    w.afterWalk t after = w.setCall t (.afterWalk after) := by
  cases after with
  | close closing => rfl
  | refuse closing r => exact finishStop_eq ..
  | discard => rfl

lemma faultOfWalk_eq (w : Writer σ V) (t : Thread) (fault : Failure) (after : AfterWalk) :
    w.faultOfWalk t fault after = w.setCall t (.faultOfWalk fault after) := by
  cases after with
  | close closing => exact finishStop_eq ..
  | refuse closing r => exact finishStop_eq ..
  | discard => rfl

lemma journal_of_log {x : Notice} {f : Option Failure} (h : w.log t x = (v, f)) :
    ∃ j, w.journal.log t x = (f, j) ∧ v = { w with journal := j } := by
  unfold log at h
  split at h
  rename_i hl
  cases h
  exact ⟨_, hl, rfl⟩

lemma result?_eq_some_iff {r : Except Failure (Option V)} :
    w.result? t = some r ↔ w.calls.get? t = some (.ended r) := by
  unfold result?
  split
  · rename_i r' h
    rw [h, Option.some.injEq, Option.some.injEq, CallOfWriter.ended.injEq]
  · rename_i h
    exact ⟨fun hr => (Option.some_ne_none r hr.symm).elim, fun hr => (h r hr).elim⟩

lemma cell_eq {e : Envelope σ V} (he : w.envelopes[k]? = some e) : w.cell k = e.cell :=
  cellAt_eq he

end Writer

end SerialWriter
