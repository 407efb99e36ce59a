import SerialWriter.Proofs.Control.Turn

/-!
A control that takes no new work takes none until it is started again, and a stop that has looked at
the phase leaves such a control behind.
-/

namespace SerialWriter

/-- The stages of a stop that is no part of a destruction. -/
def CallStage.ofStop : CallStage → Bool
  | .stop false _ | .ended _ => true
  | _ => false

lemma CallStage.ofStop_roused (s : CallStage) : s.roused.ofStop = s.ofStop := by
  unfold roused
  split
  · rfl
  · rename_i b _ _
    cases b <;> rfl
  · rfl

namespace Control

variable {c d : Control} {t : Thread} {now : Time} {j j' : Journal}

/-- No start is under way. -/
def Startless (c : Control) : Prop := ∀ t b s, c.calls.get? t ≠ some (.start b s)

/-- The stop of `t` has yet to look at the phase, or no new work is taken any more. -/
def Stops (c : Control) (t : Thread) : Prop :=
  ∃ s, c.calls.get? t = some s ∧
    (s = .stop false .entering ∨ s.ofStop = true ∧ c.phase.accepts = false)

/-! ### No new work -/

/-- A stop lets in no new work, and shuts it out when it looks at the phase. -/
lemma closed_of_stopTurn {closing : Bool} {s : StopStage}
    (hs : s = .entering ∨ c.phase.accepts = false) (h : StopTurn c t now j closing s d j') :
    d.phase.accepts = false := by
  have hjoin : ∀ {e : Control}, c.join t = some e → c.phase.accepts = false →
      e.phase.accepts = false := fun he hp => (congrArg Phase.accepts (join_frame he).1).trans hp
  cases h with
  | retired _ _ he _ =>
    rw [finishStop_eq]
    exact (congrArg Phase.accepts (enter_frame he).1).trans rfl
  | already _ hp =>
    rw [finishStop_eq]
    exact (congrArg Phase.accepts hp).trans rfl
  | buries _ hp => exact (congrArg Phase.accepts hp).trans rfl
  | halted _ _ he => exact (congrArg Phase.accepts (enter_frame he).1).trans rfl
  | haltFault _ _ he =>
    rw [finishStop_eq]
    exact (congrArg Phase.accepts (enter_frame he).1).trans rfl
  | halts _ hp => exact (congrArg Phase.accepts hp).trans rfl
  | buried hd =>
    rw [finishStop_eq]
    exact (hjoin hd (hs.resolve_left nofun) :)
  | collects _ _ _ => exact hs.resolve_left nofun
  | expired _ _ _ =>
    rw [finishStop_eq]
    exact hs.resolve_left nofun
  | waits _ _ _ => exact hs.resolve_left nofun
  | @collected e hd =>
    obtain ⟨r, hr⟩ := concludeStop_eq e t closing j
    rw [hr]
    exact (hjoin hd (hs.resolve_left nofun) :)

theorem Step.closed (h : c.Step now j d j') (hs : c.Startless) (hp : c.phase.accepts = false) :
    d.phase.accepts = false := by
  cases h with
  | begins _ _ _ => exact hp
  | @calls t s d j' hc ht =>
    cases ht with
    | start _ => exact absurd hc (hs t _ _)
    | stop ht => exact closed_of_stopTurn (.inr hp) ht
    | destroy ht =>
      cases ht with
      | stops _ => exact hp
      | skips _ => exact hp
      | reported _ => exact hp
      | locks _ => exact hp
      | joined hd => exact (congrArg Phase.accepts (join_frame hd).1).trans hp
  | wakes _ => exact hp
  | acknowledges _ => exact hp
  | works _ hw =>
    cases hw with
    | opens _ hphase _ =>
      rw [hphase] at hp
      cases hp
    | hurries _ _ => exact hp
    | looks => exact hp
    | enters => exact hp
    | retires _ he => exact (congrArg Phase.accepts (enter_frame he).1).trans rfl
    | fails _ he => exact (congrArg Phase.accepts (enter_frame he).1).trans rfl
    | reports _ => exact hp
    | leaves => exact hp
  | endsCycle _ _ _ => exact hp
  | stirs _ => exact hp

/-! ### The stop of one thread -/

lemma ofStop_of_turn {s : StopStage} (h : StopTurn c t now j false s d j') :
    ∃ s', d.calls.get? t = some s' ∧ s'.ofStop = true := by
  cases h with
  | retired _ _ _ _ => exact ⟨_, Roster.get?_put_self .., rfl⟩
  | already _ _ => exact ⟨_, Roster.get?_put_self .., rfl⟩
  | buries _ _ => exact ⟨_, Roster.get?_put_self .., rfl⟩
  | halted _ _ _ => exact ⟨_, Roster.get?_put_self .., rfl⟩
  | haltFault _ _ _ => exact ⟨_, Roster.get?_put_self .., rfl⟩
  | halts _ _ => exact ⟨_, Roster.get?_put_self .., rfl⟩
  | buried _ => exact ⟨_, Roster.get?_put_self .., rfl⟩
  | collects _ _ _ => exact ⟨_, Roster.get?_put_self .., rfl⟩
  | expired _ _ _ => exact ⟨_, Roster.get?_put_self .., rfl⟩
  | waits _ _ _ => exact ⟨_, Roster.get?_put_self .., rfl⟩
  | @collected e _ =>
    obtain ⟨r, hr⟩ := concludeStop_eq e t false j
    rw [hr]
    exact ⟨_, Roster.get?_put_self .., rfl⟩

/-- **Where the call of `t` is after a step**: it has made the step itself, has woken the worker, is
where it was or is told to look again, or its result has been seen. -/
lemma Step.call {a : CallStage} (h : c.Step now j d j') (ha : c.calls.get? t = some a) :
    CallTurn c t now j a d j' ∨
      (∃ closing deadline, a = .stop closing .waking ∧
        d.calls.get? t = some (.stop closing (.waiting deadline false))) ∨
      (d.calls.get? t = some a ∨ d.calls.get? t = some a.roused) ∨ d.calls.get? t = none := by
  have hrouses : ∀ {e : Control}, Rouses c e →
      e.calls.get? t = some a ∨ e.calls.get? t = some a.roused := by
    intro e he
    rcases he t with hk | hk
    · exact .inl (hk.trans ha)
    · exact .inr (by rw [hk, ha]; rfl)
  have hother : ∀ {e : Control} {u : Thread} {s : CallStage}, Rouses c e → t ≠ u →
      (e.setCall u s).calls.get? t = some a ∨ (e.setCall u s).calls.get? t = some a.roused := by
    intro e u s he hu
    rw [setCall, Roster.get?_put_ne _ _ hu]
    exact hrouses he
  cases h with
  | @begins u s hn _ _ =>
    refine .inr (.inr (.inl (hother (.of_eq rfl) fun htu => ?_)))
    rw [← htu, ha] at hn
    cases hn
  | @calls u s d j' hu ht =>
    by_cases htu : t = u
    · subst htu
      obtain rfl : a = s := Option.some.inj (ha.symm.trans hu)
      exact .inl ht
    · obtain ⟨e, s', rfl, he, -⟩ := eq_setCall_of_turn ht
      exact .inr (.inr (.inl (hother he htu)))
  | @wakes u closing hu =>
    by_cases htu : t = u
    · subst htu
      obtain rfl : a = .stop closing .waking := Option.some.inj (ha.symm.trans hu)
      exact .inr (.inl ⟨closing, _, rfl, Roster.get?_put_self ..⟩)
    · exact .inr (.inr (.inl (hother (e := c.unlock) (.of_eq rfl) htu)))
  | @acknowledges u r _ =>
    by_cases htu : t = u
    · exact .inr (.inr (.inr (htu ▸ Roster.get?_drop_self ..)))
    · exact .inr (.inr (.inl (.inl ((Roster.get?_drop_ne _ htu).trans ha))))
  | works _ hw => exact .inr (.inr (.inl (hrouses (rouses_of_turn hw))))
  | endsCycle _ _ _ => exact .inr (.inr (.inl (.inl ha)))
  | @stirs u s hu =>
    by_cases htu : t = u
    · subst htu
      obtain rfl : a = s := Option.some.inj (ha.symm.trans hu)
      exact .inr (.inr (.inl (.inr (Roster.get?_put_self ..))))
    · exact .inr (.inr (.inl (hother (.of_eq rfl) htu)))

theorem Stops.step (h : c.Stops t) (hs : c.Startless) (hstep : c.Step now j d j')
    (hk : (d.calls.get? t).isSome = true) : d.Stops t := by
  have hclosed := hstep.closed hs
  obtain ⟨a, ha, hst⟩ := h
  rcases hstep.call ha with hturn | ⟨closing, deadline, rfl, hd⟩ | hkept | hnone
  · rcases hst with rfl | ⟨ho, hp⟩
    · cases hturn with
      | stop ht =>
        obtain ⟨s', hs', ho'⟩ := ofStop_of_turn ht
        exact ⟨s', hs', .inr ⟨ho', closed_of_stopTurn (.inl rfl) ht⟩⟩
    · cases hturn with
      | start _ => cases ho
      | @stop closing _ _ _ ht =>
        cases closing with
        | false =>
          obtain ⟨s', hs', ho'⟩ := ofStop_of_turn ht
          exact ⟨s', hs', .inr ⟨ho', hclosed hp⟩⟩
        | true => cases ho
      | destroy _ => cases ho
  · rcases hst with he | ⟨ho, hp⟩
    · cases he
    · cases closing with
      | false => exact ⟨_, hd, .inr ⟨rfl, hclosed hp⟩⟩
      | true => cases ho
  · rcases hkept with hd | hd
    · exact ⟨a, hd, hst.imp id fun ⟨ho, hp⟩ => ⟨ho, hclosed hp⟩⟩
    · refine ⟨a.roused, hd, hst.imp (fun he => ?_) fun ⟨ho, hp⟩ => ?_⟩
      · rw [he]
        rfl
      · exact ⟨a.ofStop_roused.trans ho, hclosed hp⟩
  · rw [hnone] at hk
    cases hk

end Control

end SerialWriter
