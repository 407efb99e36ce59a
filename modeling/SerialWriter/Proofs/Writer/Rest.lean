import SerialWriter.Proofs.Sequential
import SerialWriter.Proofs.Writer.Affairs

/-!
What is left of the run of an envelope: at every stage the worker is on the way to the evaluation of
its task, whatever else goes on in between.
-/

namespace SerialWriter

variable {σ V : Type}

namespace BodyStage

/-- The outcome is about to be assigned. -/
def isPublishing : BodyStage σ V → Bool
  | .publishing _ _ => true
  | _ => false

def isVerdict : BodyStage σ V → Bool
  | .verdict _ => true
  | _ => false

/-- What is left of the run never calls the writer and leaves the cell to the worker. -/
def Apart : BodyStage σ V → Prop
  | .outer _ | .left _ | .verdict _ => True
  | .inner p _ => p.Apart
  | .publishing _ after => after.Apart ∧ after.isPublishing = false
  | .calling _ => False

/-- What becomes of a run whose body has been left. -/
def close (x : Job σ V) (r : Option Failure × Bench σ V) : Bool × Bench σ V :=
  let (ok, cell, _) := Envelope.conclude x.id r.1 r.2.cell (.worker 0) {}
  (ok.toOption.getD false, { r.2 with cell })

/-- **What is left of the run of a task**: whether it succeeds, and what becomes of the resource and
of the cell. -/
def rest (x : Job σ V) : BodyStage σ V → Bench σ V → Bool × Bench σ V
  | .outer w, b => close x (w.run x.body.task b)
  | .inner p none, b =>
    match p.run b with
    | (.ok _, b) => close x (none, b)
    | (.error e, b) => close x (some e, b)
  | .inner p (some next), b => close x ((next (p.invoke b).1).run x.body.task (p.invoke b).2)
  | .publishing o after, b => after.rest x { b with cell := b.cell.publish o }
  | .calling _, b => (false, b)
  | .left e, b => close x (e, b)
  | .verdict ok, b => (ok, b)

end BodyStage

/-- The cell of a task with the outcome it holds. -/
def Cell.holding : Option (Outcome V) → Cell V
  | none => {}
  | some o => ({ claimed := true } : Cell V).publish o

@[simp] lemma Cell.claimed_holding (o? : Option (Outcome V)) :
    (Cell.holding o?).claimed = o?.isSome := by
  cases o? with
  | none => rfl
  | some o => cases o <;> rfl

@[simp] lemma Cell.outcome_holding (o : Outcome V) : (Cell.holding (some o)).outcome = o := by
  cases o <;> rfl

lemma Cell.resolve_holding (o o' : Outcome V) :
    (Cell.holding (some o)).resolve o' = (false, Cell.holding (some o)) := by
  rw [Cell.resolve_eq, Cell.claimed_holding]
  rfl

/-- The resource and the cell as the run of a task sees them: nobody else touches them. -/
def BodyStage.bench (b : BodyStage σ V) (s : σ) (held : Option (Outcome V)) : Bench σ V where
  resource := s
  cell := if b.isPublishing then { claimed := true } else .holding held

theorem Job.eval_eq (x : Job σ V) (s : σ) :
    x.eval s =
      { resource := (x.body.begin.rest x { resource := s }).2.resource
        outcome := (x.body.begin.rest x { resource := s }).2.cell.outcome
        succeeded := (x.body.begin.rest x { resource := s }).1 } := by
  obtain ⟨id, body⟩ := x
  cases body with
  | direct p =>
    simp only [eval, Envelope.run, Body.run, Body.begin, BodyStage.rest]
    rcases p.run { resource := s } with ⟨r, b⟩
    cases r <;> rfl
  | wrapped w p => rfl

/-- Where a run stands: it leaves the cell to the worker, the cell is claimed once the outcome is
decided, and the outcome is assigned before the verdict. -/
structure Standing (b : BodyStage σ V) (held : Option (Outcome V)) (claimed : Bool) : Prop where
  apart : b.Apart
  claimed : claimed = (b.isPublishing || held.isSome)
  unheld : b.isPublishing = true → held = none
  held : b.isVerdict = true → held.isSome = true

namespace BodyTurn

variable {e : Envelope σ V} {b b' : BodyStage σ V} {s s' : σ} {d : CellChange V}
  {held : Option (Outcome V)}

theorem keeps (h : BodyTurn e b s d b' s') (hs : Standing b held e.cell.claimed)
    (ht : e.body.task.Apart) :
    Standing b' (d.outcome?.or held) (d.change e.cell).claimed ∧
      b'.rest e.job (b'.bench s' (d.outcome?.or held)) = b.rest e.job (b.bench s held) := by
  obtain ⟨hapart, hclaimed, hunheld, hheld⟩ := hs
  -- an unclaimed cell holds nothing yet
  have hnone : b.isPublishing = false → e.cell.claimed = false → held = none := by
    intro hb hc
    rw [hclaimed, hb, Bool.false_or] at hc
    exact Option.not_isSome_iff_eq_none.mp (Bool.eq_false_iff.mp hc)
  have hsome : b.isPublishing = false → e.cell.claimed = true → ∃ o, held = some o := by
    intro hb hc
    rw [hclaimed, hb, Bool.false_or] at hc
    exact Option.isSome_iff_exists.mp hc
  cases h with
  | ends | breaks _ | changes _ _ | returns _ => exact ⟨⟨trivial, hclaimed, nofun, nofun⟩, rfl⟩
  | invokes _ => exact ⟨⟨ht, hclaimed, nofun, nofun⟩, rfl⟩
  | wins v next hc =>
    obtain rfl := hnone rfl hc
    exact ⟨⟨⟨trivial, rfl⟩, rfl, fun _ => rfl, nofun⟩, rfl⟩
  | loses v next hc =>
    obtain ⟨o, rfl⟩ := hsome rfl hc
    refine ⟨⟨trivial, hclaimed, nofun, nofun⟩, ?_⟩
    change BodyStage.close e.job ((next none).run e.body.task
        { resource := s, cell := Cell.holding (some o) }) =
      BodyStage.close e.job ((next none).run e.body.task
        { resource := s, cell := ((Cell.holding (some o)).resolve (.value v)).2 })
    rw [Cell.resolve_holding]
  | fails f back? => cases back? <;> exact ⟨⟨trivial, hclaimed, nofun, nofun⟩, rfl⟩
  | updates f next back? =>
    cases hapart with
    | update _ _ hnext =>
      refine ⟨⟨hnext s, hclaimed, nofun, nofun⟩, ?_⟩
      cases back? <;> rfl
  | passes gate next back? =>
    cases hapart with
    | pass _ _ hnext =>
      refine ⟨⟨hnext, hclaimed, nofun, nofun⟩, ?_⟩
      cases back? <;> rfl
  | @reaches _ p _ _ _ hp _ =>
    have hapart : p.Apart := hapart
    cases hapart <;> cases hp
  | publishes o _ =>
    obtain rfl := hunheld rfl
    obtain ⟨hafter, hnot⟩ := hapart
    have hbench : b'.bench s (some o) =
        { resource := s, cell := ({ claimed := true } : Cell V).publish o } := by
      simp only [BodyStage.bench, hnot, Cell.holding, Bool.false_eq_true, if_false]
    refine ⟨⟨hafter, ?_, ?_, fun _ => rfl⟩, ?_⟩
    · change (e.cell.publish o).claimed = (b'.isPublishing || true)
      rw [Bool.or_true]
      cases o <;> exact hclaimed
    · rw [hnot]
      exact nofun
    · change b'.rest e.job (b'.bench s (some o)) = _
      rw [hbench]
      rfl
  | reports f hc =>
    obtain ⟨o, rfl⟩ := hsome rfl hc
    refine ⟨⟨trivial, hclaimed, nofun, fun _ => rfl⟩, ?_⟩
    change (false, _) = BodyStage.close e.job (some f,
      { resource := s, cell := Cell.holding (some o) })
    simp only [BodyStage.close, Envelope.conclude, Cell.resolve_holding]
    rfl
  | blames f hc =>
    obtain rfl := hnone rfl hc
    exact ⟨⟨⟨trivial, rfl⟩, rfl, fun _ => rfl, nofun⟩, rfl⟩
  | succeeds hc =>
    obtain ⟨o, rfl⟩ := hsome rfl hc
    refine ⟨⟨trivial, hclaimed, nofun, fun _ => rfl⟩, ?_⟩
    change (true, _) = BodyStage.close e.job (none,
      { resource := s, cell := Cell.holding (some o) })
    simp only [BodyStage.close, Envelope.conclude, Cell.claimed_holding, Option.isSome_some,
      if_true]
    rfl
  | lacks hc =>
    obtain rfl := hnone rfl hc
    exact ⟨⟨⟨trivial, rfl⟩, rfl, fun _ => rfl, nofun⟩, rfl⟩

end BodyTurn

end SerialWriter
