import SerialWriter.Cell.Shared
import SerialWriter.Proofs.Run

/-!
A shared cell is assigned once. Every move of the threads at a cell, by what it does; what can be
read off the calls and their answers; and that, whoever races with whom, one resolver wins, what it
assigns stays, and nobody who waits is told less than someone before.
-/

namespace SerialWriter

variable {V : Type}

/-- How much someone knows who has been told so. -/
def WaitStatus.rank : WaitStatus → Nat
  | timeout => 0
  | interrupted => 1
  | ready => 2

namespace Outcome

def value? : Outcome V → Option V
  | value v => some v
  | error _ => none

def error? : Outcome V → Option Failure
  | value _ => none
  | error e => e

end Outcome

/-- **Nothing has been assigned yet.** -/
structure Cell.Blank (c : Cell V) : Prop where
  ready : c.ready = false
  value : c.value = none
  error : c.error = none

lemma Cell.rank_status_le {c d : Cell V} (hr : c.ready = true → d.ready = true)
    (hi : c.interrupted = true → d.interrupted = true) : c.status.rank ≤ d.status.rank := by
  unfold status status?
  cases hc : c.ready with
  | true =>
    rw [hr hc]
    exact Nat.le_refl _
  | false =>
    cases hci : c.interrupted with
    | true =>
      rw [hi hci]
      cases d.ready <;> decide
    | false => exact Nat.zero_le _

lemma Cell.status_eq_ready_iff {c : Cell V} : c.status = .ready ↔ c.ready = true := by
  unfold status status?
  cases c.ready <;> cases c.interrupted <;> decide

lemma Cell.status_eq_interrupted_iff {c : Cell V} :
    c.status = .interrupted ↔ c.ready = false ∧ c.interrupted = true := by
  unfold status status?
  cases c.ready <;> cases c.interrupted <;> decide

namespace SharedCell

/-! ### Every move at a shared cell -/

/-- **With this move `t` looks at the cell**, to be told something at `d` at the latest. -/
inductive Looks (s : SharedCell V) (t : Thread) : Move V → Time → Prop
  | first {limit : Int} (hi : s.stages.get? t = none) :
      Looks s t (.wait t limit) (s.now.after limit)
  | again {d : Time} (ht : s.stages.get? t = some (.waiting d)) : Looks s t (.rewait t) d

/-- **What a move does**, with what the calling thread learns. -/
inductive Turn (s : SharedCell V) : Move V → Reply V → SharedCell V → Prop
  | wins {t : Thread} {o : Outcome V} (hi : s.stages.get? t = none)
      (hc : s.cell.claimed = false) :
      Turn s (.claim t o) .quiet
        { s with cell := { s.cell with claimed := true },
                 stages := s.stages.put t (.publishing o) }
  | loses {t : Thread} {o : Outcome V} (hi : s.stages.get? t = none)
      (hc : s.cell.claimed = true) : Turn s (.claim t o) (.resolved false) s
  | publishes {t : Thread} {o : Outcome V} (ht : s.stages.get? t = some (.publishing o)) :
      Turn s (.publish t) (.resolved true)
        { s with cell := s.cell.publish o, stages := s.stages.drop t }
  | interrupts {t : Thread} (hi : s.stages.get? t = none) :
      Turn s (.interrupt t) .quiet { s with cell := { s.cell with interrupted := true } }
  /-- A wait comes to its end. -/
  | tells {t : Thread} {m : Move V} {d : Time} (hm : s.Looks t m d)
      (h : s.cell.status?.isSome = true ∨ d ≤ s.now) :
      Turn s m (.status s.cell.status) { s with stages := s.stages.drop t }
  /-- A wait goes on. -/
  | waits {t : Thread} {m : Move V} {d : Time} (hm : s.Looks t m d)
      (h : s.cell.status? = none) (hd : s.now < d) :
      Turn s m .quiet { s with stages := s.stages.put t (.waiting d) }
  | reads {t : Thread} (hi : s.stages.get? t = none) :
      Turn s (.error t) (.error s.cell.error) s
  | asks {t : Thread} (hi : s.stages.get? t = none) :
      Turn s (.isResolved t) (.isResolved s.cell.claimed) s
  | takes {t : Thread} (hi : s.stages.get? t = none) :
      Turn s (.take t) (.took s.cell.value) { s with cell := { s.cell with value := none } }
  | passes {d : Nat} : Turn s (.pass d) .quiet { s with now := s.now + d }

variable {s s' u v : SharedCell V} {m : Move V} {r : Reply V} {t : Thread}

lemma turn_of_look {d : Time} (hm : s.Looks t m d) (h : s.look t d = (r, s')) : s.Turn m r s' := by
  unfold look at h
  cases hs : s.cell.status? with
  | some w =>
    rw [hs] at h
    cases h
    have hw : s.cell.status = w := by rw [Cell.status, hs, Option.getD_some]
    exact hw ▸ .tells hm (.inl (by rw [hs, Option.isSome_some]))
  | none =>
    rw [hs] at h
    dsimp only at h
    split at h
    · rename_i hd
      cases h
      have hw : s.cell.status = .timeout := by rw [Cell.status, hs, Option.getD_none]
      exact hw ▸ .tells hm (.inr hd)
    · rename_i hd
      cases h
      exact .waits hm hs (Int.not_le.mp hd)

theorem turn_of_step (h : s.step m = some (r, s')) : s.Turn m r s' := by
  cases m with
  | claim t o =>
    simp only [step, Option.ite_none_right_eq_some, Option.isNone_iff_eq_none] at h
    obtain ⟨hi, h⟩ := h
    unfold Cell.claim at h
    cases hc : s.cell.claimed <;> rw [hc] at h <;> cases h
    · exact .wins hi hc
    · exact .loses hi hc
  | publish t =>
    simp only [step] at h
    split at h
    · rename_i o ht
      cases h
      exact .publishes ht
    · cases h
  | wait t limit =>
    simp only [step, Option.ite_none_right_eq_some, Option.isNone_iff_eq_none,
      Option.some.injEq] at h
    exact turn_of_look (.first h.1) h.2
  | rewait t =>
    simp only [step] at h
    split at h
    · rename_i d ht
      exact turn_of_look (.again ht) (Option.some.inj h)
    · cases h
  | pass d =>
    cases h
    exact .passes
  | interrupt t | error t | isResolved t | take t =>
    simp only [step, Option.ite_none_right_eq_some, Option.isNone_iff_eq_none] at h
    obtain ⟨hi, h⟩ := h
    cases h
    constructor
    exact hi

def next (s : SharedCell V) (m : Move V) : Option (SharedCell V) := (s.step m).map (·.2)

def note (s : SharedCell V) (m : Move V) (_ : SharedCell V) : Option (Move V × Reply V) :=
  (s.step m).map fun r => (m, r.1)

lemma exists_turn (h : s.next m = some s') :
    ∃ r, s.step m = some (r, s') ∧ s.Turn m r s' ∧ s.note m s' = some (m, r) := by
  obtain ⟨⟨r, v⟩, hs, rfl⟩ := Option.map_eq_some_iff.mp h
  exact ⟨r, hs, turn_of_step hs, by rw [note, hs, Option.map_some]⟩

/-- **A run of threads at a new cell**, with every call and its answer. -/
def Run (es : List (Move V × Reply V)) (s : SharedCell V) : Prop :=
  Chronicle next note (fun _ => True) {} es s

/-! ### Calls and their answers -/

/-- The resolvers that have tried to win the cell, in order. -/
def claims (es : List (Move V × Reply V)) : List (Thread × Outcome V) :=
  es.filterMap fun
    | (.claim t o, _) => some (t, o)
    | _ => none

/-- The resolvers that have been told whether they won, by what they were told. -/
def told (won : Bool) (es : List (Move V × Reply V)) : List Thread :=
  es.filterMap fun
    | (.claim t _, .resolved b) | (.publish t, .resolved b) => if b = won then some t else none
    | _ => none

/-- Someone has interrupted those who wait. -/
def interrupted (es : List (Move V × Reply V)) : Bool :=
  es.any fun
    | (.interrupt _, _) => true
    | _ => false

def statuses (es : List (Move V × Reply V)) : List WaitStatus :=
  es.filterMap fun
    | (_, .status w) => some w
    | _ => none

def errors (es : List (Move V × Reply V)) : List (Option Failure) :=
  es.filterMap fun
    | (_, .error e) => some e
    | _ => none

def takings (es : List (Move V × Reply V)) : List (Option V) :=
  es.filterMap fun
    | (_, .took x) => some x
    | _ => none

def handed (es : List (Move V × Reply V)) : List V := (takings es).filterMap id

section Append

variable (es₁ es₂ : List (Move V × Reply V))

lemma claims_append : claims (es₁ ++ es₂) = claims es₁ ++ claims es₂ := List.filterMap_append

lemma told_append (won : Bool) : told won (es₁ ++ es₂) = told won es₁ ++ told won es₂ :=
  List.filterMap_append

lemma statuses_append : statuses (es₁ ++ es₂) = statuses es₁ ++ statuses es₂ :=
  List.filterMap_append

lemma errors_append : errors (es₁ ++ es₂) = errors es₁ ++ errors es₂ := List.filterMap_append

lemma takings_append : takings (es₁ ++ es₂) = takings es₁ ++ takings es₂ := List.filterMap_append

lemma handed_append : handed (es₁ ++ es₂) = handed es₁ ++ handed es₂ := by
  rw [handed, takings_append, List.filterMap_append, ← handed, ← handed]

end Append

/-! ### The one outcome of a cell -/

/-- `t` has won the cell and is still to assign `o`. -/
def Publishing (t : Thread) (o : Outcome V) (s : SharedCell V) : Prop :=
  s.stages.get? t = some (.publishing o)

lemma Looks.not_publishing {d : Time} (h : s.Looks t m d) (o : Outcome V) :
    ¬ Publishing t o s := by
  intro hp
  cases h with
  | first hi => cases hp.symm.trans hi
  | again ht => cases hp.symm.trans ht

section Story

variable {es es' : List (Move V × Reply V)}

/-- **What can have happened to a cell**: nobody has claimed it, or the first who did is still to
assign its outcome, or has done so. -/
inductive Story (es : List (Move V × Reply V)) (s : SharedCell V) : Prop
  | free (hc : s.cell.claimed = false) (hb : s.cell.Blank) (hp : ∀ t o, ¬ Publishing t o s)
      (hcl : (claims es).head? = none) (hw : told true es = []) (hh : handed es = [])
  | won {t : Thread} {o : Outcome V} (hc : s.cell.claimed = true) (hb : s.cell.Blank)
      (hp : ∀ u p, Publishing u p s ↔ u = t ∧ p = o)
      (hcl : (claims es).head? = some (t, o)) (hw : told true es = []) (hh : handed es = [])
  | assigned {t : Thread} {o : Outcome V} (hc : s.cell.claimed = true)
      (hr : s.cell.ready = true) (he : s.cell.error = o.error?) (hp : ∀ t o, ¬ Publishing t o s)
      (hcl : (claims es).head? = some (t, o)) (hw : told true es = [t])
      (hh : handed es ++ s.cell.value.toList = o.value?.toList)

namespace Story

lemma claimed_iff (h : Story es s) : s.cell.claimed = true ↔ claims es ≠ [] := by
  rw [ne_eq, ← List.head?_eq_none_iff]
  cases h with
  | free hc _ _ hcl => rw [hc, hcl]; simp
  | won hc _ _ hcl | assigned hc _ _ _ hcl => rw [hc, hcl]; simp

lemma ready_iff (h : Story es s) : s.cell.ready = true ↔ told true es ≠ [] := by
  cases h with
  | free _ hb _ _ hw | won _ hb _ _ hw => rw [hb.ready, hw]; simp
  | assigned _ hr _ _ _ hw => rw [hr, hw]; simp

lemma told_le (h : Story es s) : (told true es).length ≤ 1 := by
  cases h with
  | free _ _ _ _ hw | won _ _ _ _ hw | assigned _ _ _ _ _ hw =>
    rw [hw]
    simp

/-- As soon as nobody is about to assign an outcome, one resolver has won. -/
lemma told_eq_one (h : Story es s) (hc : claims es ≠ []) (hp : ∀ t o, ¬ Publishing t o s) :
    (told true es).length = 1 := by
  cases h with
  | free _ _ _ hcl => exact (hc (List.head?_eq_none_iff.mp hcl)).elim
  | won _ _ hp' => exact (hp _ _ ((hp' _ _).mpr ⟨rfl, rfl⟩)).elim
  | assigned _ _ _ _ _ hw =>
    rw [hw]
    rfl

lemma stored (h : Story es s) (ht : t ∈ told true es) :
    ∃ o, (claims es).head? = some (t, o) ∧ s.cell.error = o.error? ∧
      handed es ++ s.cell.value.toList = o.value?.toList := by
  cases h with
  | free _ _ _ _ hw | won _ _ _ _ hw =>
    rw [hw] at ht
    cases ht
  | assigned _ _ he _ hcl hw hh =>
    rw [hw] at ht
    obtain rfl := List.mem_singleton.mp ht
    exact ⟨_, hcl, he, hh⟩

lemma blank (h : Story es s) (hn : told true es = []) : s.cell.Blank ∧ handed es = [] := by
  cases h with
  | free _ hb _ _ _ hh | won _ hb _ _ _ hh => exact ⟨hb, hh⟩
  | assigned _ _ _ _ _ hw => cases hn.symm.trans hw

lemma handed_cases (h : Story es s) :
    handed es = [] ∨ ∃ v, handed es = [v] ∧ s.cell.error = none := by
  cases h with
  | free _ _ _ _ _ hh | won _ _ _ _ _ hh => exact .inl hh
  | @assigned t o _ _ he _ _ _ hh =>
    cases o with
    | value v =>
      refine (List.append_eq_singleton_iff.mp hh).imp (·.1) fun hv => ⟨v, hv.1, he⟩
    | error e => exact .inl (List.append_eq_nil_iff.mp hh).1

/-- What assigns nothing leaves the story as it is, if it comes too late to claim and takes
nothing. -/
lemma keep (h : Story es s) (b : Bool) (hcell : s'.cell = { s.cell with interrupted := b })
    (hpub : ∀ t o, Publishing t o s' ↔ Publishing t o s)
    (hclaims : (claims es').head? = (claims es).head?) (htold : told true es' = told true es)
    (hhanded : handed es' = handed es) : Story es' s' := by
  obtain ⟨cell', stages', now'⟩ := s'
  subst hcell
  cases h with
  | free hc hb hp hcl hw hh =>
    exact .free hc ⟨hb.ready, hb.value, hb.error⟩ (fun t o => mt (hpub t o).mp (hp t o))
      (hclaims.trans hcl) (htold.trans hw) (hhanded.trans hh)
  | won hc hb hp hcl hw hh =>
    exact .won hc ⟨hb.ready, hb.value, hb.error⟩ (fun u p => (hpub u p).trans (hp u p))
      (hclaims.trans hcl) (htold.trans hw) (hhanded.trans hh)
  | assigned hc hr he hp hcl hw hh =>
    exact .assigned hc hr he (fun t o => mt (hpub t o).mp (hp t o)) (hclaims.trans hcl)
      (htold.trans hw) (hhanded ▸ hh)

lemma snoc {e : Move V × Reply V} (h : Story es s) (b : Bool)
    (hcell : s'.cell = { s.cell with interrupted := b })
    (hpub : ∀ t o, Publishing t o s' ↔ Publishing t o s) (hclaims : claims [e] = [])
    (htold : told true [e] = []) (hhanded : handed [e] = []) : Story (es ++ [e]) s' :=
  h.keep b hcell hpub (by rw [claims_append, hclaims, List.append_nil])
    (by rw [told_append, htold, List.append_nil])
    (by rw [handed_append, hhanded, List.append_nil])

end Story

lemma publishing_put_iff {x : CellStage V} (h : ∀ o, ¬ Publishing t o s)
    (hx : ∀ o, x ≠ .publishing o) (u : Thread) (o : Outcome V) :
    Publishing u o { s with stages := s.stages.put t x } ↔ Publishing u o s := by
  unfold Publishing
  rw [Roster.get?_put]
  split
  · rename_i hut
    subst hut
    exact iff_of_false (fun hx' => hx o (Option.some.inj hx')) (h o)
  · rfl

lemma publishing_drop_iff (h : ∀ o, ¬ Publishing t o s) (u : Thread) (o : Outcome V) :
    Publishing u o { s with stages := s.stages.drop t } ↔ Publishing u o s := by
  unfold Publishing
  rw [Roster.get?_drop, Option.ite_none_left_eq_some]
  exact and_iff_right_of_imp fun hu hut => h o (hut ▸ hu)

lemma story_of_win {o : Outcome V} (h : Story es s) (hc : s.cell.claimed = false) :
    Story (es ++ [(.claim t o, .quiet)])
      { s with cell := { s.cell with claimed := true },
               stages := s.stages.put t (.publishing o) } := by
  cases h with
  | won hc' | assigned hc' => cases hc.symm.trans hc'
  | free _ hb hp hcl hw hh =>
    refine .won (t := t) (o := o) rfl ⟨hb.ready, hb.value, hb.error⟩ (fun u p => ?_) ?_ ?_ ?_
    · unfold Publishing
      rw [Roster.get?_put]
      split
      · rename_i hut
        rw [Option.some.injEq, CellStage.publishing.injEq, eq_comm]
        exact (and_iff_right hut).symm
      · rename_i hut
        exact iff_of_false (hp u p) fun h => hut h.1
    · rw [claims_append, List.head?_eq_none_iff.mp hcl]
      rfl
    · rw [told_append, hw]
      rfl
    · rw [handed_append, hh]
      rfl

lemma story_of_publish {o : Outcome V} (h : Story es s) (ht : Publishing t o s) :
    Story (es ++ [(.publish t, .resolved true)])
      { s with cell := s.cell.publish o, stages := s.stages.drop t } := by
  cases h with
  | free _ _ hp | assigned _ _ _ hp => exact (hp t o ht).elim
  | won hc hb hp hcl hw hh =>
    obtain ⟨rfl, rfl⟩ := (hp t o).mp ht
    refine .assigned (t := t) (o := o) ?_ ?_ ?_ (fun u p => ?_) ?_ ?_ ?_
    · cases o <;> exact hc
    · cases o <;> rfl
    · cases o with
      | value v => exact hb.error
      | error e => rfl
    · unfold Publishing
      rw [Roster.get?_drop, Option.ite_none_left_eq_some]
      exact fun hu => hu.1 ((hp u p).mp hu.2).1
    · rw [claims_append, List.head?_append, hcl]
      rfl
    · rw [told_append, hw]
      rfl
    · rw [handed_append, hh]
      cases o with
      | value v => rfl
      | error e => exact congrArg Option.toList hb.value

lemma story_of_take (h : Story es s) :
    Story (es ++ [(.take t, .took s.cell.value)])
      { s with cell := { s.cell with value := none } } := by
  by_cases hv : s.cell.value = none
  · rw [hv]
    exact h.snoc s.cell.interrupted (by rw [← hv]) (fun _ _ => Iff.rfl) rfl rfl rfl
  · cases h with
    | free _ hb | won _ hb => exact (hv hb.value).elim
    | @assigned u o hc hr he hp hcl hw hh =>
      refine .assigned (t := u) hc hr he hp ?_ ?_ ?_
      · exact (congrArg List.head? ((claims_append ..).trans (List.append_nil _))).trans hcl
      · exact ((told_append ..).trans (List.append_nil _)).trans hw
      · rw [handed_append, List.append_assoc, ← hh]
        cases s.cell.value <;> rfl

lemma story_of_turn (h : Story es s) (ht : s.Turn m r s') : Story (es ++ [(m, r)]) s' := by
  cases ht with
  | wins _ hc => exact story_of_win h hc
  | loses _ hc =>
    refine h.keep s.cell.interrupted rfl (fun _ _ => Iff.rfl) ?_ ?_ ?_
    · rw [claims_append, List.head?_append,
        Option.or_of_isSome (List.isSome_head?.mpr (h.claimed_iff.mp hc))]
    · exact (told_append ..).trans (List.append_nil _)
    · exact (handed_append ..).trans (List.append_nil _)
  | publishes ht => exact story_of_publish h ht
  | interrupts _ => exact h.snoc true rfl (fun _ _ => Iff.rfl) rfl rfl rfl
  | tells hm _ =>
    refine h.snoc s.cell.interrupted rfl (publishing_drop_iff hm.not_publishing) ?_ ?_ ?_ <;>
      cases hm <;> rfl
  | waits hm _ _ =>
    refine h.snoc s.cell.interrupted rfl
      (publishing_put_iff hm.not_publishing fun _ h => nomatch h) ?_ ?_ ?_ <;> cases hm <;> rfl
  | reads _ | asks _ | passes =>
    exact h.snoc s.cell.interrupted rfl (fun _ _ => Iff.rfl) rfl rfl rfl
  | takes _ => exact story_of_take h

lemma story_of_run (h : Run es s) : Story es s := by
  induction h with
  | refl _ => exact .free rfl ⟨rfl, rfl, rfl⟩ (fun _ _ => nofun) rfl rfl rfl
  | step m _ hs _ ih =>
    obtain ⟨r, -, ht, hn⟩ := exists_turn hs
    rw [hn]
    exact story_of_turn ih ht

end Story

/-! ### What is told -/

section Told

variable {es es' : List (Move V × Reply V)}

lemma claims_of_turn (ht : s.Turn m r s') :
    (claims [(m, r)]).length + s.cell.claimed.toNat =
      (told false [(m, r)]).length + s'.cell.claimed.toNat := by
  cases ht with
  | wins _ hc =>
    rw [hc]
    rfl
  | @publishes _ o _ => cases o <;> rfl
  | tells hm _ | waits hm _ _ => cases hm <;> rfl
  | loses _ _ | interrupts _ | reads _ | asks _ | takes _ | passes => rfl

lemma interrupted_of_turn (ht : s.Turn m r s') :
    s'.cell.interrupted = (s.cell.interrupted || interrupted [(m, r)]) := by
  cases ht with
  | interrupts _ => exact (Bool.or_true _).symm
  | @publishes _ o _ => cases o <;> exact (Bool.or_false _).symm
  | tells hm _ | waits hm _ _ => cases hm <;> exact (Bool.or_false _).symm
  | wins _ _ | loses _ _ | reads _ | asks _ | takes _ | passes => exact (Bool.or_false _).symm

lemma statuses_of_turn (ht : s.Turn m r s') :
    statuses [(m, r)] = [] ∨ statuses [(m, r)] = [s.cell.status] := by
  cases ht with
  | tells _ _ => exact .inr rfl
  | wins _ _ | loses _ _ | publishes _ | interrupts _ | waits _ _ _ | reads _ | asks _ | takes _
  | passes => exact .inl rfl

lemma errors_of_turn (ht : s.Turn m r s') : ∀ e ∈ errors [(m, r)], e = s.cell.error := by
  cases ht with
  | reads _ => exact fun e he => List.mem_singleton.mp he
  | wins _ _ | loses _ _ | publishes _ | interrupts _ | tells _ _ | waits _ _ _ | asks _ | takes _
  | passes => exact fun _ => nofun

lemma status_le_of_turn (ht : s.Turn m r s') : s.cell.status.rank ≤ s'.cell.status.rank := by
  refine Cell.rank_status_le (fun hr => ?_) fun hi => ?_
  · cases ht with
    | @publishes _ o _ => cases o <;> rfl
    | wins _ _ | loses _ _ | interrupts _ | tells _ _ | waits _ _ _ | reads _ | asks _ | takes _
    | passes => exact hr
  · rw [interrupted_of_turn ht, hi, Bool.true_or]

lemma error_of_turn (h : Story es s) (ht : s.Turn m r s') :
    s.cell.error = none ∨ s'.cell.error = s.cell.error := by
  cases ht with
  | publishes ht =>
    cases h with
    | free _ hb | won _ hb => exact .inl hb.error
    | assigned _ _ _ hp => exact (hp _ _ ht).elim
  | wins _ _ | loses _ _ | interrupts _ | tells _ _ | waits _ _ _ | reads _ | asks _ | takes _
  | passes => exact .inr rfl

/-- **What else a run keeps.** -/
structure Kept (es : List (Move V × Reply V)) (s : SharedCell V) : Prop where
  /-- Whoever comes after the first has lost. -/
  count : (claims es).length = (told false es).length + s.cell.claimed.toNat
  interrupted : s.cell.interrupted = interrupted es
  /-- Nobody has been told more than can be seen of the cell. -/
  seen : ∀ w ∈ statuses es, w.rank ≤ s.cell.status.rank
  order : (statuses es).Pairwise fun w w' => w.rank ≤ w'.rank
  /-- Nobody has been told of another failure. -/
  errors : ∀ e ∈ errors es, e = none ∨ e = s.cell.error

lemma kept_of_turn (hk : Kept es s) (h : Story es s) (ht : s.Turn m r s') :
    Kept (es ++ [(m, r)]) s' where
  count := by
    have hturn := claims_of_turn ht
    rw [claims_append, told_append, List.length_append, List.length_append, hk.count]
    omega
  interrupted := by
    rw [interrupted_of_turn ht, hk.interrupted]
    exact List.any_append.symm
  seen := by
    rw [statuses_append]
    intro w hw
    refine Nat.le_trans ?_ (status_le_of_turn ht)
    rcases List.mem_append.mp hw with hw | hw
    · exact hk.seen w hw
    · rcases statuses_of_turn ht with hn | hn <;> rw [hn] at hw
      · cases hw
      · exact Nat.le_of_eq (congrArg _ (List.mem_singleton.mp hw))
  order := by
    rw [statuses_append]
    rcases statuses_of_turn ht with hn | hn <;> rw [hn]
    · rw [List.append_nil]
      exact hk.order
    · refine List.pairwise_append.mpr ⟨hk.order, List.pairwise_singleton .., fun w hw w' hw' => ?_⟩
      rw [List.mem_singleton.mp hw']
      exact hk.seen w hw
  errors := by
    rw [errors_append]
    intro e he
    rcases List.mem_append.mp he with he | he
    · rcases hk.errors e he with hn | hs
      · exact .inl hn
      · exact (error_of_turn h ht).imp (fun hn => hs.trans hn) fun hs' => hs.trans hs'.symm
    · rw [errors_of_turn ht e he]
      exact (error_of_turn h ht).imp_right Eq.symm

lemma kept_of_run (h : Run es s) : Kept es s := by
  induction h with
  | refl _ => exact ⟨rfl, rfl, fun _ => nofun, .nil, fun _ => nofun⟩
  | step m h hs _ ih =>
    obtain ⟨r, -, ht, hn⟩ := exists_turn hs
    rw [hn]
    exact kept_of_turn ih (story_of_run h) ht

end Told

/-! ### Every run -/

section Runs

variable {es es' : List (Move V × Reply V)}

/-- **What stays of a cell from `s` on**, if its outcome has been assigned. -/
structure Lasting (s : SharedCell V) (es : List (Move V × Reply V)) (u : SharedCell V) :
    Prop where
  error : u.cell.error = s.cell.error
  errors : ∀ e ∈ errors es, e = s.cell.error
  /-- The value stays until someone takes it, who is given it; all others are given nothing. -/
  value : takings es = [] ∧ u.cell.value = s.cell.value ∨
    ∃ n, takings es = s.cell.value :: List.replicate n none ∧ u.cell.value = none

lemma Lasting.errors_snoc {e : Move V × Reply V} (h : Lasting s es u)
    (he : ∀ x ∈ SharedCell.errors [e], x = u.cell.error) :
    ∀ x ∈ SharedCell.errors (es ++ [e]), x = s.cell.error := by
  intro x hx
  rw [errors_append] at hx
  exact (List.mem_append.mp hx).elim (h.errors x) fun hx => (he x hx).trans h.error

lemma Lasting.snoc {e : Move V × Reply V} (h : Lasting s es u)
    (herror : v.cell.error = u.cell.error) (hvalue : v.cell.value = u.cell.value)
    (herrors : ∀ x ∈ SharedCell.errors [e], x = u.cell.error) (htakings : takings [e] = []) :
    Lasting s (es ++ [e]) v where
  error := herror.trans h.error
  errors := h.errors_snoc herrors
  value := by
    rw [takings_append, htakings, List.append_nil, hvalue]
    exact h.value

lemma lasting_of_turn (h : Lasting s es u) (hp : ∀ t o, ¬ Publishing t o u) (ht : u.Turn m r v) :
    Lasting s (es ++ [(m, r)]) v := by
  have herrors := errors_of_turn ht
  cases ht with
  | publishes ht => exact (hp _ _ ht).elim
  | takes _ =>
    refine ⟨h.error, h.errors_snoc herrors, .inr ?_⟩
    rw [takings_append]
    rcases h.value with ⟨ht, hv⟩ | ⟨n, ht, hv⟩
    · refine ⟨0, ?_, rfl⟩
      rw [ht, ← hv]
      rfl
    · refine ⟨n + 1, ?_, rfl⟩
      rw [ht, List.replicate_succ', ← hv]
      rfl
  | wins _ _ | loses _ _ | interrupts _ | tells _ _ | waits _ _ _ | reads _ | asks _ | passes =>
    exact h.snoc rfl rfl herrors rfl

lemma lasting_of_chronicle (h : Run es s) (hs : told true es ≠ [])
    (hu : Chronicle next note (fun _ => True) s es' u) : Lasting s es' u := by
  induction hu with
  | refl _ => exact ⟨rfl, fun _ => nofun, .inl ⟨rfl, rfl⟩⟩
  | step m hu hm _ ih =>
    obtain ⟨r, -, ht, hn⟩ := exists_turn hm
    rw [hn]
    refine lasting_of_turn ih ?_ ht
    cases story_of_run (h.trans hu) with
    | free _ _ hp | assigned _ _ _ hp => exact hp
    | won _ _ _ _ hw =>
      rw [told_append] at hw
      exact (hs (List.append_eq_nil_iff.mp hw).1).elim

/-- **A cell is assigned once**, at the end of a run and in whatever follows. -/
structure WriteOnce (es : List (Move V × Reply V)) (s : SharedCell V) : Prop where
  /-- At most one resolver has been told that it won. -/
  once : (told true es).length ≤ 1
  /-- If there were any and none is still to be answered, one of them has won and all others have
  lost. -/
  one : claims es ≠ [] → (∀ t o, ¬ Publishing t o s) →
    (told true es).length = 1 ∧ (told false es).length + 1 = (claims es).length
  /-- The one that has won was the first to claim, and its outcome is what the cell has held. -/
  stored : ∀ t ∈ told true es, ∃ o, (claims es).head? = some (t, o) ∧
    s.cell.error = o.error? ∧ handed es ++ s.cell.value.toList = o.value?.toList
  /-- Before that the cell holds nothing. -/
  blank : told true es = [] → s.cell.Blank ∧ handed es = [] ∧ ∀ e ∈ errors es, e = none
  /-- Whoever loses changes nothing. -/
  loses : ∀ m s', s.step m = some (.resolved false, s') → s' = s
  /-- A wait ends with `ready` exactly if the outcome has been assigned, and otherwise with
  `interrupted` exactly if someone has interrupted it. -/
  waits : ∀ m w s', s.step m = some (.status w, s') → (w = .ready ↔ told true es ≠ []) ∧
    (w = .interrupted ↔ told true es = [] ∧ interrupted es = true)
  /-- What those who wait are told never goes back. -/
  order : (statuses es).Pairwise fun w w' => w.rank ≤ w'.rank
  asked : ∀ m b s', s.step m = some (.isResolved b, s') → (b = true ↔ claims es ≠ [])
  /-- Once assigned the outcome stays, whatever else happens. -/
  lasting : told true es ≠ [] →
    ∀ es' u, Chronicle next note (fun _ => True) s es' u → Lasting s es' u
  /-- The value is handed out once at most, -/
  handed : (handed es).length ≤ 1
  /-- and then nobody has been told of a failure. -/
  alone : SharedCell.handed es ≠ [] → ∀ e ∈ errors es, e = none

/-- **Every run assigns a cell once at most**, whoever races, waits and reads. -/
theorem writeOnce_of_run (h : Run es s) : WriteOnce es s := by
  have hk := kept_of_run h
  have hstory := story_of_run h
  refine ⟨hstory.told_le, fun hne hp => ⟨hstory.told_eq_one hne hp, ?_⟩,
    fun t ht => hstory.stored ht, fun hn => ?_, fun m s' hs => ?_, fun m w s' hs => ?_, hk.order,
    fun m b s' hs => ?_, fun hs es' u hu => lasting_of_chronicle h hs hu, ?_, fun hne e he => ?_⟩
  · rw [hk.count, hstory.claimed_iff.mpr hne]
    rfl
  · obtain ⟨hb, hh⟩ := hstory.blank hn
    exact ⟨hb, hh, fun e he => (hk.errors e he).elim id fun h => h.trans hb.error⟩
  · cases turn_of_step hs with
    | loses _ _ => rfl
  · cases turn_of_step hs with
    | tells _ _ =>
      rw [Cell.status_eq_ready_iff, Cell.status_eq_interrupted_iff, ← hk.interrupted,
        hstory.ready_iff, ← Bool.not_eq_true, hstory.ready_iff, Classical.not_not]
      exact ⟨Iff.rfl, Iff.rfl⟩
  · cases turn_of_step hs with
    | asks _ => exact hstory.claimed_iff
  · rcases hstory.handed_cases with hh | ⟨v, hh, -⟩
    · rw [hh]
      exact Nat.zero_le _
    · rw [hh]
      exact Nat.le_refl _
  · obtain ⟨v, -, herr⟩ := hstory.handed_cases.resolve_left hne
    exact (hk.errors e he).elim id fun h => h.trans herr

/-- Two resolvers race; in between, those who wait are interrupted. -/
def racedMoves : List (Move Nat) :=
  [.wait (.client 3) 0, .claim (.client 1) (.value 7), .wait (.client 3) 5,
    .claim (.client 2) (.error none), .interrupt (.client 4), .rewait (.client 3),
    .publish (.client 1), .wait (.client 3) 0, .take (.client 3), .take (.client 4),
    .error (.client 4)]

theorem writeOnce_of_race : ∃ es s, Run (V := Nat) es s ∧
    told true es = [.client 1] ∧ told false es = [.client 2] ∧
    statuses es = [.timeout, .interrupted, .ready] ∧ takings es = [some 7, none] ∧
    errors es = [none] ∧ WriteOnce es s := by
  obtain ⟨es, s, h, hf⟩ : ∃ es s,
      Chronicle next note (fun _ => true = true) ({} : SharedCell Nat) es s ∧
        (told true es, told false es, statuses es, takings es, errors es) =
          ([.client 1], [.client 2], [.timeout, .interrupted, .ready], [some 7, none], [none]) :=
    exists_chronicle racedMoves rfl
  simp only [Prod.mk.injEq] at hf
  obtain ⟨hwon, hlost, hstatuses, htakings, herrors⟩ := hf
  have hrun : Run es s := h.mono fun _ _ => trivial
  exact ⟨es, s, hrun, hwon, hlost, hstatuses, htakings, herrors, writeOnce_of_run hrun⟩

end Runs

end SharedCell

end SerialWriter
