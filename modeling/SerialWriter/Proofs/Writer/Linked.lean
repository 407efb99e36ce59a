import SerialWriter.Proofs.Writer.Course

/-!
What the threads of a writer are in the middle of fits together: a thread inside the control is
there on behalf of a call, a worker calls from inside a task, and a ticket is in hand inside a
cycle. One worker at most has a ticket in hand.
-/

namespace SerialWriter

variable {σ V : Type}

/-- What `t` is in the middle of fits together. -/
structure Course.FitsAt (c : Course σ V) (t : Thread) : Prop where
  /-- A thread inside the control is there on behalf of a call. -/
  call : (c.control.calls.get? t).isSome = true →
    ∃ a, c.calls.get? t = some a ∧ a.inControl = true
  /-- A worker calls from inside a task. -/
  task : ∀ n a, t = .worker n → c.calls.get? t = some a →
    ∃ k g, c.cycles.get? t = some (.running k (.calling g))
  /-- A ticket is in hand inside a cycle. -/
  cycle : ∀ y, c.cycles.get? t = some y →
    ∃ n last, t = .worker n ∧ c.control.worker? n = some (.cycling last)

/-- **The control is in order, and all threads fit together.** -/
structure Course.Linked (c : Course σ V) : Prop where
  orderly : c.control.Orderly
  fits : ∀ t, c.FitsAt t

namespace Course.Linked

variable {c d : Course σ V} {t : Thread} {a : CallOfWriter σ V} {n : Nat} {last : Bool}

/-! ### What follows for one thread -/

lemma outside (h : c.Linked) (ha : ∀ b, c.calls.get? t = some b → b.inControl = false) :
    c.control.calls.get? t = none := by
  refine Option.eq_none_iff_forall_ne_some.mpr fun s hs => ?_
  obtain ⟨b, hb, hi⟩ := (h.fits t).call (Option.isSome_iff_exists.mpr ⟨s, hs⟩)
  rw [ha b hb] at hi
  cases hi

lemma outside_of_none (h : c.Linked) (hn : c.calls.get? t = none) :
    c.control.calls.get? t = none := by
  refine h.outside fun b hb => ?_
  rw [hn] at hb
  cases hb

lemma outside_of_call (h : c.Linked) (ha : c.calls.get? t = some a) (hi : a.inControl = false) :
    c.control.calls.get? t = none := by
  refine h.outside fun b hb => ?_
  rw [ha, Option.some.injEq] at hb
  exact hb ▸ hi

lemma idle (h : c.Linked) {y? : Option (CycleStage σ V)} (hy : c.cycles.get? (.worker n) = y?)
    (hne : ∀ k g, y? ≠ some (.running k (.calling g))) : c.calls.get? (.worker n) = none := by
  refine Option.eq_none_iff_forall_ne_some.mpr fun b hb => ?_
  obtain ⟨k, g, hk⟩ := (h.fits _).task n b rfl hb
  exact hne k g (hy ▸ hk)

lemma idle_of_running (h : c.Linked) {k : Nat} {b : BodyStage σ V}
    (hy : c.cycles.get? (.worker n) = some (.running k b)) (hb : b.isCalling = false) :
    c.calls.get? (.worker n) = none := by
  refine h.idle hy fun k' g hk => ?_
  rw [Option.some.injEq, CycleStage.running.injEq] at hk
  rw [hk.2] at hb
  cases hb

lemma cycling (h : c.Linked) {y : CycleStage σ V} (hy : c.cycles.get? (.worker n) = some y) :
    ∃ last, c.control.worker? n = some (.cycling last) := by
  obtain ⟨m, last, hm, hw⟩ := (h.fits _).cycle y hy
  rw [Thread.worker.injEq] at hm
  exact ⟨last, hm ▸ hw⟩

/-- **While a worker is in a cycle, no other worker has a ticket in hand.** -/
lemma others (h : c.Linked) (hw : c.control.worker? n = some (.cycling last)) {m : Nat}
    (hm : m ≠ n) : c.cycles.get? (.worker m) = none := by
  refine Option.eq_none_iff_forall_ne_some.mpr fun y hy => hm ?_
  obtain ⟨last', hv⟩ := h.cycling hy
  exact h.orderly.staffed.eq_of_present hv rfl hw rfl

/-! ### What a step does to the control -/

/-- **The control of a writer moves by its own steps.** -/
lemma control_step (h : c.Linked) (hs : c.Step d) :
    d.control = c.control ∨ ∃ now j j', c.control.Step now j d.control j' := by
  have hcycling : ∀ {t : Thread} {a : CallOfWriter σ V}, c.calls.get? t = some a →
      ∀ n, t = .worker n → ∃ last, c.control.worker? n = some (.cycling last) := by
    intro t a ha n hn
    obtain ⟨k, g, hk⟩ := (h.fits t).task n a hn ha
    exact h.cycling (hn ▸ hk)
  cases hs with
  | control hstep _ _ => exact .inr ⟨_, _, _, hstep⟩
  | @enters k a s hn _ ho =>
    exact .inr ⟨0, {}, {}, .begins (h.outside_of_none hn) (fun _ h => nomatch h) ho⟩
  | leaves _ _ hr => exact .inr ⟨0, {}, {}, .acknowledges hr⟩
  | stops ha => exact .inr ⟨0, {}, {}, .begins (h.outside_of_call ha rfl) (hcycling ha) rfl⟩
  | clears ha => exact .inr ⟨0, {}, {}, .begins (h.outside_of_call ha rfl) (hcycling ha) rfl⟩
  | idles hw hy =>
    exact .inr ⟨0, {}, {}, .endsCycle none hw (h.outside_of_none (h.idle hy nofun))⟩
  | @bodyEnters n k b s a g hy hb _ ho =>
    obtain ⟨last, hw⟩ := h.cycling hy
    have hn := h.outside_of_none (h.idle_of_running hy hb)
    refine .inr ⟨0, {}, {}, .begins hn (fun m hm => ?_) ho⟩
    cases hm
    exact ⟨last, hw⟩
  | breaks hw hy hb =>
    have hn := h.outside_of_none (h.idle_of_running hy hb)
    exact .inr ⟨0, {}, {}, .endsCycle _ hw hn⟩
  | @closes n k last f hw hy =>
    exact .inr ⟨0, {}, {}, .endsCycle f hw (h.outside_of_none (h.idle hy nofun))⟩
  | _ => exact .inl rfl

lemma step_orderly (h : c.Linked) (hs : c.Step d) : d.control.Orderly := by
  rcases h.control_step hs with hc | ⟨now, j, j', hc⟩
  · exact hc ▸ h.orderly
  · exact h.orderly.step hc

/-! ### What a step does to one thread -/

lemma turn (h : c.Linked) (t : Thread) (ho : d.control.Orderly)
    (hw : ∀ n last, .worker n ≠ t → c.control.worker? n = some (.cycling last) →
      d.control.worker? n = some (.cycling last))
    (hs : ∀ u, u ≠ t → d.control.calls.get? u = c.control.calls.get? u ∧
      d.calls.get? u = c.calls.get? u ∧ d.cycles.get? u = c.cycles.get? u)
    (hf : d.FitsAt t) : d.Linked := by
  refine ⟨ho, fun u => ?_⟩
  by_cases hu : u = t
  · exact hu ▸ hf
  · obtain ⟨hsc, hsa, hsy⟩ := hs u hu
    refine ⟨fun hi => ?_, fun n b hn hb => ?_, fun y hy => ?_⟩
    · rw [hsa]
      exact (h.fits u).call (hsc ▸ hi)
    · rw [hsy]
      exact (h.fits u).task n b hn (hsa ▸ hb)
    · obtain ⟨n, last, rfl, hl⟩ := (h.fits u).cycle y (hsy ▸ hy)
      exact ⟨n, last, rfl, hw n last hu hl⟩

lemma restage (h : c.Linked) (hn : c.control.calls.get? t = none)
    (ht : ∀ n, t = .worker n → ∃ k g, c.cycles.get? t = some (.running k (.calling g)))
    (hc : d.control = c.control) (ha : d.calls = c.calls.put t a) (hy : d.cycles = c.cycles) :
    d.Linked := by
  refine h.turn t (hc ▸ h.orderly) (fun n last _ hl => hc ▸ hl) (fun u hu => ?_) ⟨?_, ?_, ?_⟩
  · rw [hc, ha, hy]
    exact ⟨rfl, Roster.get?_put_ne _ _ hu, rfl⟩
  · rw [hc, hn]
    exact fun hi => nomatch hi
  · intro n _ htn _
    rw [hy]
    exact ht n htn
  · rw [hy, hc]
    exact (h.fits t).cycle

lemma enterCall (h : c.Linked) {s : CallStage} (hd : d.control.Orderly)
    (ht : ∀ n, t = .worker n → ∃ last, c.control.worker? n = some (.cycling last))
    (hi : a.inControl = true) (hc : d.control = c.control.setCall t s)
    (ha : d.calls = c.calls.put t a) (hy : ∀ u, u ≠ t → d.cycles.get? u = c.cycles.get? u)
    (htask : ∀ n, t = .worker n → ∃ k g, d.cycles.get? t = some (.running k (.calling g)))
    (hcycle : ∀ y, d.cycles.get? t = some y → ∃ n, t = .worker n) : d.Linked := by
  refine h.turn t hd (fun n last _ hl => ?_) (fun u hu => ?_)
    ⟨fun _ => ?_, fun n _ htn _ => htask n htn, fun y hty => ?_⟩
  · rw [hc]
    exact hl
  · rw [hc, ha]
    exact ⟨Roster.get?_put_ne _ _ hu, Roster.get?_put_ne _ _ hu, hy u hu⟩
  · rw [ha]
    exact ⟨a, Roster.get?_put_self .., hi⟩
  · obtain ⟨n, hn⟩ := hcycle y hty
    obtain ⟨last, hl⟩ := ht n hn
    rw [hc]
    exact ⟨n, last, hn, hl⟩

lemma recycle (h : c.Linked) {y : CycleStage σ V}
    (hw : c.control.worker? n = some (.cycling last)) (hn : c.calls.get? (.worker n) = none)
    (hc : d.control = c.control) (ha : d.calls = c.calls)
    (hy : d.cycles = c.cycles.put (.worker n) y) : d.Linked := by
  refine h.turn (.worker n) (hc ▸ h.orderly) (fun m last _ hl => hc ▸ hl) (fun u hu => ?_)
    ⟨?_, ?_, ?_⟩
  · rw [hc, ha, hy]
    exact ⟨rfl, rfl, Roster.get?_put_ne _ _ hu⟩
  · rw [hc, ha]
    exact (h.fits _).call
  · intro _ b _ hb
    rw [ha, hn] at hb
    cases hb
  · rw [hc]
    exact fun _ _ => ⟨n, last, rfl, hw⟩

lemma endCycle (h : c.Linked) {w : WorkerStage} (hd : d.control.Orderly)
    (hn : c.calls.get? (.worker n) = none) (hc : d.control = c.control.setWorker n w)
    (ha : d.calls = c.calls) (hy : d.cycles = c.cycles.drop (.worker n)) : d.Linked := by
  refine h.turn (.worker n) hd (fun m l hm hl => ?_) (fun u hu => ?_) ⟨?_, ?_, ?_⟩
  · rw [hc, Control.worker?, Control.setWorker,
      List.getElem?_set_ne fun hnm => hm (congrArg Thread.worker hnm.symm)]
    exact hl
  · rw [hc, ha, hy]
    exact ⟨rfl, rfl, Roster.get?_drop_ne _ hu⟩
  · rw [hc, ha]
    exact (h.fits _).call
  · intro _ b _ hb
    rw [ha, hn] at hb
    cases hb
  · intro y hty
    rw [hy, Roster.get?_drop_self] at hty
    cases hty

lemma goes (h : c.Linked) {b : CallOfWriter σ V} (ha : c.calls.get? t = some a)
    (hi : a.inControl = false) (hc : d.control = c.control) (hd : d.calls = c.calls.put t b)
    (hy : d.cycles = c.cycles) : d.Linked :=
  h.restage (h.outside_of_call ha hi) (fun n hn => (h.fits t).task n a hn ha) hc hd hy

lemma turnsIn (h : c.Linked) {b : CallOfWriter σ V} {s : CallStage}
    (ha : c.calls.get? t = some a) (ho : d.control.Orderly) (hb : b.inControl = true)
    (hc : d.control = c.control.setCall t s) (hd : d.calls = c.calls.put t b)
    (hy : d.cycles = c.cycles) : d.Linked := by
  have htask := fun n hn => (h.fits t).task n a hn ha
  refine h.enterCall ho (fun n hn => ?_) hb hc hd (fun u _ => by rw [hy])
    (fun n hn => by rw [hy]; exact htask n hn) fun y hty => ?_
  · obtain ⟨k, g, hk⟩ := htask n hn
    exact h.cycling (hn ▸ hk)
  · obtain ⟨n, -, hn, -⟩ := (h.fits t).cycle y (hy ▸ hty)
    exact ⟨n, hn⟩

lemma comesBack (h : c.Linked) {r : Except Failure (Option V)}
    (hr : c.calls.get? t = some (.ended r)) (hc : d.control = c.control)
    (hd : d.calls = c.calls.drop t) (hy : ∀ u, u ≠ t → d.cycles.get? u = c.cycles.get? u)
    (hcycle : ∀ y, d.cycles.get? t = some y →
      ∃ n last, t = .worker n ∧ c.control.worker? n = some (.cycling last)) : d.Linked := by
  refine h.turn t (hc ▸ h.orderly) (fun _ _ _ hl => hc ▸ hl) (fun u hu => ?_)
    ⟨fun hi => ?_, fun _ b _ hb => ?_, fun y hty => hc ▸ hcycle y hty⟩
  · rw [hc, hd]
    exact ⟨rfl, Roster.get?_drop_ne _ hu, hy u hu⟩
  · obtain ⟨b, hb, hib⟩ := (h.fits t).call (hc ▸ hi)
    obtain rfl := Option.some.inj (hb.symm.trans hr)
    cases hib
  · rw [hd, Roster.get?_drop_self] at hb
    cases hb

lemma callsOut (h : c.Linked) {k : Nat} {g : Except Failure (Option V) → BodyStage σ V}
    (hw : c.control.worker? n = some (.cycling last)) (hn : c.calls.get? (.worker n) = none)
    (hc : d.control = c.control) (ha : d.calls = c.calls.put (.worker n) a)
    (hy : d.cycles = c.cycles.put (.worker n) (.running k (.calling g))) : d.Linked := by
  refine h.turn (.worker n) (hc ▸ h.orderly) (fun _ _ _ hl => hc ▸ hl) (fun u hu => ?_)
    ⟨fun hi => ?_, fun _ _ _ _ => ⟨k, g, ?_⟩, fun _ _ => ⟨n, last, rfl, hc ▸ hw⟩⟩
  · rw [hc, ha, hy]
    exact ⟨rfl, Roster.get?_put_ne _ _ hu, Roster.get?_put_ne _ _ hu⟩
  · obtain ⟨b, hb, -⟩ := (h.fits _).call (hc ▸ hi)
    cases hn.symm.trans hb
  · rw [hy]
    exact Roster.get?_put_self ..

/-! ### Every step keeps the threads linked -/

theorem step (h : c.Linked) (hs : c.Step d) : d.Linked := by
  have hd := h.step_orderly hs
  cases hs with
  | rests => exact h
  | control _ hk hw =>
    refine ⟨hd, fun t => ⟨fun hi => ?_, (h.fits t).task, fun y hy => ?_⟩⟩
    · exact (h.fits t).call (hk t ▸ hi)
    · obtain ⟨n, last, hn, hl⟩ := (h.fits t).cycle y hy
      exact ⟨n, last, hn, hw n last hl⟩
  | @requests k a hn ha =>
    exact h.restage (t := .client k) (h.outside_of_none hn) (fun _ h => by cases h) rfl rfl rfl
  | @enters k a s _ ha _ =>
    refine h.enterCall (t := .client k) hd (fun _ h => by cases h) ha rfl rfl (fun _ _ => rfl)
      (fun _ h => by cases h) fun y hy => ?_
    obtain ⟨n, -, hn, -⟩ := (h.fits _).cycle y hy
    exact ⟨n, hn⟩
  | acknowledges hr => exact h.comesBack hr rfl rfl (fun _ _ => rfl) (h.fits _).cycle
  | @leaves t a r ha _ _ =>
    refine h.turn t hd (fun _ _ _ hl => hl)
      (fun u hu => ⟨Roster.get?_drop_ne _ hu, Roster.get?_put_ne _ _ hu, rfl⟩)
      ⟨fun hi => ?_, fun n _ hn _ => (h.fits t).task n a hn ha, (h.fits t).cycle⟩
    change ((c.control.calls.drop t).get? t).isSome = true at hi
    rw [Roster.get?_drop_self] at hi
    cases hi
  | goes ha hi _ => exact h.goes ha (CallOfWriter.inControl_of_beside hi) rfl rfl rfl
  | walks ha _ | discards ha | admits ha _ | makes ha _ | offers ha | collects ha =>
    exact h.goes ha rfl rfl rfl rfl
  | stops ha | clears ha => exact h.turnsIn ha hd rfl rfl rfl rfl
  | takes hw hy _ => exact h.recycle hw (h.idle hy nofun) rfl rfl rfl
  | opens hy | counts hy =>
    obtain ⟨last, hw⟩ := h.cycling hy
    exact h.recycle hw (h.idle hy nofun) rfl rfl rfl
  | body hy hb _ | finishes hy hb =>
    obtain ⟨last, hw⟩ := h.cycling hy
    exact h.recycle hw (h.idle_of_running hy hb) rfl rfl rfl
  | @bodyEnters n k b s a g hy _ ha _ =>
    obtain ⟨last, hw⟩ := h.cycling hy
    refine h.enterCall (t := .worker n) hd (fun m hm => ?_) ha rfl rfl
      (fun u hu => Roster.get?_put_ne _ _ hu) (fun _ _ => ⟨k, g, Roster.get?_put_self ..⟩)
      fun _ _ => ⟨n, rfl⟩
    cases hm
    exact ⟨last, hw⟩
  | bodyWrites hy hb =>
    obtain ⟨last, hw⟩ := h.cycling hy
    exact h.callsOut hw (h.idle_of_running hy hb) rfl rfl rfl
  | bodyReturns hy hr =>
    obtain ⟨last, hw⟩ := h.cycling hy
    exact h.comesBack hr rfl rfl (fun u hu => Roster.get?_put_ne _ _ hu) fun _ _ =>
      ⟨_, last, rfl, hw⟩
  | idles _ hy | closes _ hy => exact h.endCycle hd (h.idle hy nofun) rfl rfl rfl
  | breaks _ hy hb => exact h.endCycle hd (h.idle_of_running hy hb) rfl rfl rfl

end Course.Linked

end SerialWriter
