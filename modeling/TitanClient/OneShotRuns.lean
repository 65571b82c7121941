import TitanClient.OneShots

/-!
# One-shot quotes are over some time

Whatever the server answers, and whatever the order of the steps, calls of `get_swap_price` return:
`request_stream` does because the streams before it are stopped, `recv` because of the timeout, and
`stop` because the connection answers. The manager is then as it was before the first of them.

## Main results

* `Reached` — what holds after any run
* `Reached.done` — what is left when nothing can go on
* `one_shots_settle` — all calls return, and all slots come back
-/

namespace TitanClient

namespace OneShots

variable {β : Type*}

/-! ## Runs -/

/-- What a run comes to: the calls stand where they may, and the manager has had an orderly run. -/
structure Reached (max : UInt32) (s : State β) : Prop where
  linked : Linked s
  run : ∃ past, orderly.Valid (Slots.init max) past ∧
    orderly.exec (Slots.init max) past = s.slots

namespace Reached

variable {max : UInt32} {s : State β}

theorem orderly (h : Reached max s) : Orderly s.slots := by
  obtain ⟨past, hpast, hexec⟩ := h.run
  rw [← hexec]
  exact exec_orderly hpast

theorem known (h : Reached max s) : Slots.Known s.slots := by
  obtain ⟨past, hpast, hexec⟩ := h.run
  rw [← hexec]
  exact Slots.exec_known (Transition.System.restrict_valid.mp hpast).1

theorem settled (h : Reached max s) : Slots.Settled s.slots := by
  obtain ⟨past, hpast, hexec⟩ := h.run
  rw [← hexec]
  exact Slots.exec_settled (Transition.System.restrict_valid.mp hpast).1

theorem live (h : Reached max s) (i c : ℕ) (hi : s.tasks i = .receiving c) :
    (s.slots.claims c).handle = .live := by
  have hfits := h.linked.tasks i
  rw [hi] at hfits
  exact hfits.2

theorem next (h : Reached max s) {a : Action β} (ha : Enabled s a) :
    Reached max (OneShots.next s a) where
  linked := h.linked.next h.orderly h.known h.settled ha
  run := by
    obtain ⟨past, hpast, hexec⟩ := h.run
    rcases slots_next ha h.live with hsame | ⟨b, hb, hnext⟩
    · exact ⟨past, hpast, hexec.trans hsame.symm⟩
    · rw [← hexec] at hb
      refine ⟨past ++ [b], (Transition.System.valid_append _).mpr ⟨hpast, hb, trivial⟩, ?_⟩
      rw [Transition.System.exec_append, hexec, hnext]
      rfl

end Reached

theorem exec_reached {max : UInt32} {timeout : ℕ} {as : List (Action β)}
    (hv : (system β).Valid (init max timeout) as) :
    Reached max ((system β).exec (init max timeout) as) := by
  refine Transition.System.invariant (fun _ _ h ha => h.next ha) ⟨⟨fun i => rfl, ?_⟩, ⟨[], trivial,
    rfl⟩⟩ hv
  intro c hc
  cases hc

/-! ## At rest -/

/-- No call is in progress, no slot is taken and no request waits. -/
structure Done (s : State β) : Prop where
  tasks : ∀ i, s.tasks i = .none ∨ ∃ result, s.tasks i = .returned result
  counter : s.slots.activeCount = 0
  queue : s.slots.queue = []

/-- The step is work that has been begun: the timeout will come, if nothing else does. -/
def Action.isInternal : Action β → Bool
  | .slots a => a.isInternal
  | .start => false
  | _ => true

theorem safe_of_isOrderly {u : Slots.State} {a : Slots.Action} (h : isOrderly a = true) :
    Slots.Safe u a := by
  cases a with
  | abandonStart i c => cases h
  | abandonStop c => cases h
  | _ => trivial

theorem setsMax_of_isOrderly {a : Slots.Action} (h : isOrderly a = true) : a.setsMax = false := by
  cases a with
  | setMax max => cases h
  | _ => rfl

theorem isManagers_of_isInternal {a : Slots.Action} (h : a.isInternal = true) :
    isManagers a = true := by
  cases a with
  | onEnd c => rfl
  | _ => exact h

/-- An orderly run is safe and timely. -/
theorem Reached.atRest {max : UInt32} {s : State β} (h : Reached max s)
    (hidle : Slots.Idle s.slots) : s.slots.Served ∧ s.slots.maxConcurrent = max.toNat ∧
      (∀ r, (s.slots.releases r).stage = .done) ∧ ∀ c < s.slots.claimCount,
        (s.slots.claims c).released = false →
          (s.slots.claims c).handle = .live ∧ ∃ i, s.slots.calls i = .returned (.ok c) := by
  obtain ⟨past, hpast, hexec⟩ := h.run
  obtain ⟨hv, horderly⟩ := Transition.System.restrict_valid.mp hpast
  have hset : ∀ a ∈ past, a.setsMax = false := fun a ha => setsMax_of_isOrderly (horderly a ha)
  have hsafe : Slots.system.Along Slots.Safe (Slots.init max) past :=
    Transition.System.along_of_invariant (I := fun _ => True) (C := fun _ a => isOrderly a = true)
      (fun _ _ _ _ _ => trivial) (fun _ _ _ ho _ => safe_of_isOrderly ho) trivial
      (Transition.System.along_of_forall_mem (C := fun a => isOrderly a = true) horderly) hv
  rw [← hexec] at hidle ⊢
  have hrest := hidle.atRest (Slots.exec_awaited hv)
  exact ⟨hrest.served hv (Slots.timely_of_unchanged hv hset), (Slots.exec_unchanged hv hset).max,
    hrest.releases, fun c hc hunreleased =>
      hrest.live (Slots.exec_awaited hv) (Slots.exec_leakFree hv hsafe c hc hunreleased)⟩

section

variable {max : UInt32} {s : State β}

/-- A call that has got its stream goes on. -/
theorem Reached.on_its_way (h : Reached max s) (hrest : ∀ b, b.isInternal = true → ¬Enabled s b)
    (hreleases : ∀ r, (s.slots.releases r).stage = .done) (i : ℕ) :
    s.tasks i = .none ∨ (∃ result, s.tasks i = .returned result) ∨
      s.tasks i = .requesting ∧ ∀ result, s.slots.calls i ≠ .returned result := by
  have hfits := h.linked.tasks i
  cases ht : s.tasks i with
  | none => exact Or.inl rfl
  | requesting =>
    refine Or.inr (Or.inr ⟨rfl, fun result hret => ?_⟩)
    cases result with
    | ok c => exact hrest (.obtain i c) rfl ⟨ht, hret⟩
    | error e => exact hrest (.fail i e) rfl ⟨ht, hret⟩
  | receiving c => exact absurd ht (hrest (.elapse i c) rfl)
  | stopping c result =>
    -- `stop` goes on until it returns.
    rw [ht] at hfits
    have hstopping : isStopping (s.slots.claims c).handle = true := hfits.2
    cases hhandle : (s.slots.claims c).handle with
    | stopping => exact absurd ⟨hhandle, rfl⟩ (hrest (.slots (.stopSent c)) rfl)
    | stopReleasing r =>
      exact absurd ⟨⟨hhandle, hreleases r⟩, rfl⟩ (hrest (.slots (.stopReturn c r)) rfl)
    | stopped => exact absurd ⟨ht, hhandle⟩ (hrest (.stopped i c result) rfl)
    | _ =>
      rw [hhandle] at hstopping
      cases hstopping
  | returned result => exact Or.inr (Or.inl ⟨result, rfl⟩)

theorem Reached.done (h : Reached max s) (hmax : 0 < max)
    (hrest : ∀ b, b.isInternal = true → ¬Enabled s b) : Done s := by
  have hidle : Slots.Idle s.slots := fun b hb ha =>
    hrest (.slots b) hb ⟨ha, isManagers_of_isInternal hb⟩
  obtain ⟨hserved, hlimit, hreleases, hheld⟩ := h.atRest hidle
  have hway := h.on_its_way hrest hreleases
  have hcounter : s.slots.activeCount = 0 := by
    rw [hserved.counter, Slots.State.unreleased, Nat.count_iff_forall_not]
    intro c hc hunreleased
    -- Whose handle would it be?
    obtain ⟨hlive, i, hi⟩ := hheld c hc hunreleased
    have hfits := h.linked.tasks i
    rcases hway i with ht | ⟨result, ht⟩ | ⟨-, hnot⟩
    · rw [ht] at hfits
      cases hi.symm.trans hfits
    · rw [ht] at hfits
      rcases hfits with ⟨e, hi'⟩ | ⟨d, hi', hgone⟩
      · cases hi.symm.trans hi'
      · cases hi.symm.trans hi'
        rw [hlive] at hgone
        cases hgone
    · exact hnot _ hi
  have hqueue : s.slots.queue = [] := by
    by_contra hne
    have hfull := (hserved.full hne).1
    rw [hlimit, hcounter] at hfull
    have hpos : 0 < max.toNat := UInt32.lt_iff_toNat_lt.mp hmax
    omega
  refine ⟨fun i => ?_, hcounter, hqueue⟩
  rcases hway i with ht | hret | ⟨ht, hnot⟩
  · exact Or.inl ht
  · exact Or.inr hret
  · have hfits := h.linked.tasks i
    rw [ht] at hfits
    rcases hserved.calls i with hidle | hover | ⟨-, hmem⟩
    · exact absurd hidle hfits.1
    · cases hi : s.slots.calls i with
      | returned result => exact absurd hi (hnot result)
      | cancelled => exact absurd hi (h.orderly.going i)
      | _ =>
        rw [hi] at hover
        cases hover
    · rw [hqueue] at hmem
      cases hmem

end

/-! ## How long it takes -/

/-- A call pays for its `stop`, and for the drop of its handle. -/
def Task.cost : Task β → ℕ
  | .requesting => 14
  | .receiving _ => 13
  | .stopping _ _ => 6
  | _ => 0

/-- What is left to be done, with the first `n` calls. -/
def State.effort (n : ℕ) (s : State β) : ℕ :=
  s.slots.effort + Budget.weigh Task.cost s.tasks n

/-- How many steps can be taken at most before another call begins. -/
def State.patience (s : State β) : ℕ :=
  s.effort s.slots.callCount *
      (9 * (s.slots.workerCount + s.effort s.slots.callCount) + 1) + s.slots.lag

section

variable {max : UInt32} {s : State β} {n : ℕ}

/-- Only the first `n` calls have begun. -/
def Begun (n : ℕ) (s : State β) : Prop := ∀ i, n ≤ i → s.tasks i = .none

theorem Begun.lt (h : Begun n s) {i : ℕ} {t : Task β} (hi : s.tasks i = t) (hne : t ≠ .none) :
    i < n := by
  by_contra hle
  exact hne (hi.symm.trans (h i (Nat.not_lt.mp hle)))

theorem Begun.setTask (h : Begun n s) {i : ℕ} (hi : i < n) (t : Task β) :
    Begun n (s.setTask i t) := by
  intro j hj
  have hne : j ≠ i := fun heq => absurd hj (Nat.not_le.mpr (heq ▸ hi))
  exact (Function.update_of_ne hne ..).trans (h j hj)

/-- What a step of a call pays. -/
theorem effort_setTask {i : ℕ} (hi : i < n) {t : Task β} {u : Slots.State}
    (hlt : u.effort + t.cost < s.slots.effort + (s.tasks i).cost) :
    ({ s.setTask i t with slots := u } : State β).effort n < s.effort n := by
  have h := Budget.weigh_update Task.cost s.tasks hi t
  simp only [State.effort, State.setTask]
  omega

/-- `stop` has its requests and its release before it. -/
theorem effort_stop {u : Slots.State} (hk : Slots.Known u) {c : ℕ}
    (hlive : (u.claims c).handle = .live) : (Slots.next u (.stop c)).effort = u.effort + 6 := by
  have h := Slots.effort_setClaim (hk.positions.born c (Or.inr (by rw [hlive]; simp)))
    { u.claims c with stopped := true, handle := .stopping }
  have hold : (u.claims c).cost = (u.claims c).start.cost + 0 := by
    rw [Slots.Claim.cost, hlive]
    rfl
  have hnew : Slots.Claim.cost { u.claims c with stopped := true, handle := .stopping } =
      (u.claims c).start.cost + 6 := rfl
  rw [stop_eq hlive]
  omega

theorem Reached.pays (h : Reached max s) {a : Slots.Action} (ha : Slots.Enabled s.slots a)
    (hin : a.isInternal = true) : Slots.Pays s.slots (Slots.next s.slots a) := by
  obtain ⟨past, hpast, hexec⟩ := h.run
  have hv := (Transition.System.restrict_valid.mp hpast).1
  have hk := h.known
  rw [← hexec] at ha hk ⊢
  exact Slots.pays_next hk.roster hk.positions (Slots.balanced_run hv) (Slots.exec_handoff hv) ha
    hin

/-- What a step pays: as in the manager, where the calls have their costs. -/
def Pays (n : ℕ) (s s' : State β) : Prop :=
  s'.effort n < s.effort n ∧
      s'.slots.workerCount + s'.effort n ≤ s.slots.workerCount + s.effort n ∨
    s'.effort n = s.effort n ∧ s'.slots.workerCount = s.slots.workerCount ∧
      s'.slots.lag < s.slots.lag

theorem Pays.call {s' : State β} (hlt : s'.effort n < s.effort n)
    (hcount : s'.slots.workerCount = s.slots.workerCount) : Pays n s s' := by
  refine Or.inl ⟨hlt, ?_⟩
  omega

theorem pays_next (h : Reached max s) (hb : Begun n s) {a : Action β} (ha : Enabled s a)
    (hin : a.isInternal = true) : Begun n (next s a) ∧ Pays n s (next s a) := by
  cases a with
  | slots a =>
    refine ⟨hb, ?_⟩
    have hpays := h.pays ha.1 hin
    rcases hpays with ⟨hlt, hcount⟩ | ⟨heq, hcount, hlag⟩
    · refine Or.inl ⟨Nat.add_lt_add_right hlt _, ?_⟩
      change (Slots.next s.slots a).workerCount +
        ((Slots.next s.slots a).effort + Budget.weigh Task.cost s.tasks n) ≤
          s.slots.workerCount + (s.slots.effort + Budget.weigh Task.cost s.tasks n)
      omega
    · exact Or.inr ⟨congrArg (· + Budget.weigh Task.cost s.tasks n) heq, hcount, hlag⟩
  | start => cases hin
  | obtain i c =>
    have hi := hb.lt ha.1 (by simp)
    refine ⟨hb.setTask hi _, Pays.call (effort_setTask hi ?_) rfl⟩
    rw [ha.1]
    exact Nat.lt_succ_self _
  | fail i e =>
    have hi := hb.lt ha.1 (by simp)
    refine ⟨hb.setTask hi _, Pays.call (effort_setTask hi ?_) rfl⟩
    rw [ha.1]
    exact Nat.lt_add_of_pos_right (Nat.zero_lt_succ 13)
  | quote i c quotes =>
    have hreceiving : s.tasks i = .receiving c := ha
    have hi := hb.lt hreceiving (by simp)
    have hlive := h.live i c hreceiving
    refine ⟨hb.setTask hi _, Pays.call (effort_setTask hi ?_) ?_⟩
    · rw [effort_stop h.known hlive, hreceiving]
      exact Nat.lt_succ_self _
    · change (Slots.next s.slots (.stop c)).workerCount = _
      rw [stop_eq hlive]
      rfl
  | elapse i c =>
    have hreceiving : s.tasks i = .receiving c := ha
    have hi := hb.lt hreceiving (by simp)
    have hlive := h.live i c hreceiving
    refine ⟨hb.setTask hi _, Pays.call (effort_setTask hi ?_) ?_⟩
    · rw [effort_stop h.known hlive, hreceiving]
      exact Nat.lt_succ_self _
    · change (Slots.next s.slots (.stop c)).workerCount = _
      rw [stop_eq hlive]
      rfl
  | close i c =>
    have hreceiving : s.tasks i = .receiving c := ha
    have hi := hb.lt hreceiving (by simp)
    have hdrop := Slots.effort_dropHandle h.known.positions c
    refine ⟨hb.setTask hi _, Pays.call (effort_setTask hi ?_)
      (Slots.sameRoster_dropHandle s.slots c true).2.2.2⟩
    rw [hreceiving]
    change (s.slots.dropHandle c true).effort + 0 < s.slots.effort + 13
    omega
  | stopped i c result =>
    have hi := hb.lt ha.1 (by simp)
    have hdrop := Slots.effort_dropHandle h.known.positions c
    refine ⟨hb.setTask hi _, Pays.call (effort_setTask hi ?_)
      (Slots.sameRoster_dropHandle s.slots c true).2.2.2⟩
    rw [ha.1]
    change (s.slots.dropHandle c true).effort + 0 < s.slots.effort + 6
    omega

/-- Calls that have not begun have no number yet. -/
theorem Reached.begun (h : Reached max s) : Begun s.slots.callCount s := by
  intro i hi
  have hfits := h.linked.tasks i
  have hidle := h.known.roster.calls i hi
  cases ht : s.tasks i with
  | none => rfl
  | requesting =>
    rw [ht] at hfits
    exact absurd hidle hfits.1
  | receiving c =>
    rw [ht] at hfits
    cases hidle.symm.trans hfits.1
  | stopping c result =>
    rw [ht] at hfits
    cases hidle.symm.trans hfits.1
  | returned result =>
    rw [ht] at hfits
    rcases hfits with ⟨e, hret⟩ | ⟨c, hret, -⟩
    · cases hidle.symm.trans hret
    · cases hidle.symm.trans hret

end

/-- **One-shot calls settle.** A client that only asks for prices, and whose server grants at least
one stream, comes to rest: from every reachable state it takes no more steps than can be read off
the state, whatever the server answers and however the steps are interleaved, and then all calls
have returned, no slot is taken and no request waits. -/
theorem one_shots_settle (max : UInt32) (hmax : 0 < max) (timeout : ℕ) (as bs : List (Action β))
    (hv : (system β).Valid (init max timeout) as)
    (hbs : (system β).Valid ((system β).exec (init max timeout) as) bs)
    (hin : ∀ b ∈ bs, b.isInternal = true) :
    bs.length ≤ ((system β).exec (init max timeout) as).patience ∧
      ((∀ b : Action β, b.isInternal = true →
          ¬Enabled ((system β).exec (init max timeout) (as ++ bs)) b) →
        Done ((system β).exec (init max timeout) (as ++ bs))) := by
  have hvalid : (system β).Valid (init max timeout) (as ++ bs) :=
    (Transition.System.valid_append _).mpr ⟨hv, hbs⟩
  refine ⟨?_, (exec_reached hvalid).done hmax⟩
  have hstart := exec_reached hv
  generalize (system β).exec (init max timeout) as = s at hbs hstart
  refine Transition.System.length_le_of_rank (S := system β) (C := fun b => b.isInternal = true)
    (I := fun u => (Reached max u ∧ Begun s.slots.callCount u) ∧
      u.slots.workerCount + u.effort s.slots.callCount ≤
        s.slots.workerCount + s.effort s.slots.callCount)
    (State.effort s.slots.callCount) (fun u => u.slots.lag) ?_
    ⟨⟨hstart, hstart.begun⟩, le_refl _⟩ hin hbs
  rintro u b ⟨⟨hu, hbegun⟩, hbound⟩ hb ha
  obtain ⟨hbegun', hpays⟩ := pays_next hu hbegun ha hb
  have hlag := Slots.State.lag_le (next u b).slots
  refine ⟨⟨⟨hu.next ha, hbegun'⟩, ?_⟩, ?_⟩
  · change (next u b).slots.workerCount + (next u b).effort _ ≤ _
    rcases hpays with ⟨-, hcount⟩ | ⟨heffort, hcount, -⟩
    · exact hcount.trans hbound
    · omega
  · change (next u b).effort _ < _ ∧ (next u b).slots.lag ≤ _ ∨
      (next u b).effort _ = _ ∧ (next u b).slots.lag < _
    rcases hpays with ⟨heffort, hcount⟩ | ⟨heffort, -, hless⟩
    · refine Or.inl ⟨heffort, hlag.trans (Nat.mul_le_mul_left 9 ?_)⟩
      omega
    · exact Or.inr ⟨heffort, hless⟩

/-- Where the manager is idle and the calls have returned, nothing can go on. -/
theorem rest_of_returned {s : State β} (hidle : Slots.Idle s.slots)
    (htasks : ∀ i, s.tasks i = .none ∨ ∃ result, s.tasks i = .returned result) (b : Action β)
    (hb : b.isInternal = true) : ¬Enabled s b := by
  have hnot : ∀ {i : ℕ} {t : Task β}, s.tasks i = t → t ≠ .none →
      (∀ result, t ≠ .returned result) → False := by
    rintro i t rfl hnone hret
    rcases htasks i with hi | ⟨result, hi⟩
    · exact hnone hi
    · exact hret result hi
  intro ha
  cases b with
  | slots a => exact hidle a hb ha.1
  | start => cases hb
  | obtain i c => exact hnot ha.1 (by simp) (by simp)
  | fail i e => exact hnot ha.1 (by simp) (by simp)
  | quote i c quotes => exact hnot ha (by simp) (by simp)
  | elapse i c => exact hnot ha (by simp) (by simp)
  | close i c => exact hnot ha (by simp) (by simp)
  | stopped i c result => exact hnot ha.1 (by simp) (by simp)

/-- Two calls and one slot. The first gets its quote; the second waits in the queue, and then for a
quote that does not come. -/
def twoPrices : List (Action ℕ) :=
  [.slots (.loadMax 0), .slots (.loadCount 0 1), .slots (.claim 0 0), .slots (.loadMax 1),
    .slots (.loadCount 1 1), .slots (.push 1), .slots (.flagWorker 1), .slots (.spawn 1),
    .slots (.respond 0 (.stream 5)), .slots (.register 0 5), .slots (.finish 0 0 (.ok 0)),
    .obtain 0 0, .slots (.workerLoadMax 0), .slots (.workerLoadCount 0 1), .slots (.park 0),
    .quote 0 0 7, .slots (.stopSent 0), .slots (.swap 0), .slots (.subtract 0),
    .slots (.notify 0 (some 0)), .slots (.stopReturn 0 0), .stopped 0 0 (.ok 7),
    .slots (.workerLoadMax 0), .slots (.workerLoadCount 0 1), .slots (.pop 0 0),
    .slots (.workerClaim 0 1 0), .slots (.respond 1 (.stream 6)), .slots (.register 1 6),
    .slots (.deliver 0 1 1 (.ok 1)), .slots (.receive 1), .obtain 1 1, .elapse 1 1,
    .slots (.workerLoadMax 0), .slots (.workerLoadCount 0 1), .slots (.park 0),
    .slots (.stopSent 1), .slots (.swap 1), .slots (.subtract 1), .slots (.notify 1 (some 0)),
    .slots (.stopReturn 1 1), .stopped 1 1 (.error (.timeout 10000)), .slots (.workerLoadMax 0),
    .slots (.workerLoadCount 0 1), .slots (.pop 0 0), .slots (.idle 0), .slots (.recheck 0)]

set_option maxRecDepth 40000 in
theorem one_shots_settle_twoPrices :
    twoPrices.length ≤ ((system ℕ).exec (init 1 10000) [.start, .start]).patience ∧
      ((system ℕ).exec (init 1 10000) ([.start, .start] ++ twoPrices)).tasks 1 =
        .returned (.error (.timeout 10000)) ∧
      Done ((system ℕ).exec (init 1 10000) ([.start, .start] ++ twoPrices)) := by
  have hv : (system ℕ).Valid (init 1 10000) ([.start, .start] ++ twoPrices) := by decide +kernel
  have hparts := (Transition.System.valid_append (system ℕ)).mp hv
  have hreached := exec_reached hv
  have hidle := Slots.idle_of_costs hreached.known (by decide +kernel) (by decide +kernel)
    (by decide +kernel) (by decide +kernel) (by decide +kernel)
  have hsecond : ((system ℕ).exec (init 1 10000) ([.start, .start] ++ twoPrices)).tasks 1 =
      .returned (.error (.timeout 10000)) := by decide +kernel
  have htasks : ∀ i, ((system ℕ).exec (init 1 10000) ([.start, .start] ++ twoPrices)).tasks i =
      .none ∨ ∃ result, ((system ℕ).exec (init 1 10000) ([.start, .start] ++ twoPrices)).tasks i =
        .returned result := by
    intro i
    by_cases hi : 2 ≤ i
    · have hcount : ((system ℕ).exec (init 1 10000)
          ([.start, .start] ++ twoPrices)).slots.callCount = 2 := by decide +kernel
      exact Or.inl (hreached.begun i (hcount ▸ hi))
    · have hfirst : ((system ℕ).exec (init 1 10000) ([.start, .start] ++ twoPrices)).tasks 0 =
          .returned (.ok 7) := by decide +kernel
      have hsmall : i = 0 ∨ i = 1 := by omega
      rcases hsmall with rfl | rfl
      · exact Or.inr ⟨_, hfirst⟩
      · exact Or.inr ⟨_, hsecond⟩
  have hsettle := one_shots_settle 1 (by decide) 10000 [.start, .start] twoPrices hparts.1 hparts.2
    (by decide)
  exact ⟨hsettle.1, hsecond, hsettle.2 (rest_of_returned hidle htasks)⟩

end OneShots

end TitanClient
