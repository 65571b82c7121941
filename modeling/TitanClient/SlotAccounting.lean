import TitanClient.SlotLedger

/-!
# Slot accounting

Every step of the stream manager is an entry of the slot ledger or none, so its books are in order
in every reachable state: `active_count` is the number of claims whose guard has not been taken,
plus the number of releases that have taken a guard and are yet to do their `fetch_sub`. The second
part is there because guard and counter are two atomics: between the two steps a claim is neither
open nor given back.

## Main results

* `next_refines` — each step is seen in the ledger as one entry or none
* `slot_accounting` — the counter, its bound, and that no claim is given back twice
-/

namespace TitanClient

namespace Slots

/-! ## Loaded values -/

/-- A value a call has loaded is, or was at the time, below some limit. -/
def Caller.Fits (limits : List ℕ) : Caller → Prop
  | .loadedMax max => max ∈ limits
  | .claiming current => ∃ m ∈ limits, current < m
  | _ => True

/-- A value a worker has loaded is, or was at the time, below some limit. -/
def Worker.Fits (limits : List ℕ) : Worker → Prop
  | .loadedMax max => max ∈ limits
  | .popping current => ∃ m ∈ limits, current < m
  | .claiming _ current => ∃ m ∈ limits, current < m
  | _ => True

theorem Caller.Fits.append {limits limits' : List ℕ} {c : Caller} (h : c.Fits limits) :
    c.Fits (limits ++ limits') := by
  cases c with
  | loadedMax max => exact List.mem_append_left _ h
  | claiming current =>
    obtain ⟨m, hm, hlt⟩ := h
    exact ⟨m, List.mem_append_left _ hm, hlt⟩
  | _ => trivial

theorem Worker.Fits.append {limits limits' : List ℕ} {p : Worker} (h : p.Fits limits) :
    p.Fits (limits ++ limits') := by
  cases p with
  | loadedMax max => exact List.mem_append_left _ h
  | popping current =>
    obtain ⟨m, hm, hlt⟩ := h
    exact ⟨m, List.mem_append_left _ hm, hlt⟩
  | claiming i current =>
    obtain ⟨m, hm, hlt⟩ := h
    exact ⟨m, List.mem_append_left _ hm, hlt⟩
  | _ => trivial

/-- What tasks have loaded fits, and only claims that were made have starts and handles. -/
structure Positions (s : State) : Prop where
  max : s.maxConcurrent ∈ s.limits
  calls : ∀ i, (s.calls i).Fits s.limits
  workers : ∀ w, (s.workers w).Fits s.limits
  born : ∀ c, (s.claims c).start ≠ .none ∨ (s.claims c).handle ≠ .none → c < s.claimCount

theorem positions_init (max : UInt32) : Positions (init max) where
  max := List.mem_singleton.mpr rfl
  calls _ := trivial
  workers _ := trivial
  born _ h := by rcases h with h | h <;> exact absurd rfl h

section

variable {s : State}

theorem Positions.setCall (h : Positions s) (i : ℕ) {p : Caller} (hp : p.Fits s.limits) :
    Positions (s.setCall i p) where
  max := h.max
  calls j := by
    by_cases hj : j = i
    · subst hj
      simpa [State.setCall] using hp
    · simpa [State.setCall, hj] using h.calls j
  workers := h.workers
  born := h.born

theorem Positions.setWorker (h : Positions s) (w : ℕ) {p : Worker} (hp : p.Fits s.limits) :
    Positions (s.setWorker w p) where
  max := h.max
  calls := h.calls
  workers v := by
    by_cases hv : v = w
    · subst hv
      simpa [State.setWorker] using hp
    · simpa [State.setWorker, hv] using h.workers v
  born := h.born

theorem Positions.setClaim (h : Positions s) {c : ℕ} (hc : c < s.claimCount) (v : Claim) :
    Positions (s.setClaim c v) where
  max := h.max
  calls := h.calls
  workers := h.workers
  born d hd := by
    by_cases hdc : d = c
    · exact hdc ▸ hc
    · refine h.born d ?_
      simpa [State.setClaim, hdc] using hd

theorem Positions.setClaim_of_eq (h : Positions s) {c : ℕ} {v : Claim}
    (hs : v.start = (s.claims c).start) (hh : v.handle = (s.claims c).handle) :
    Positions (s.setClaim c v) where
  max := h.max
  calls := h.calls
  workers := h.workers
  born d hd := by
    refine h.born d ?_
    by_cases hdc : d = c
    · subst hdc
      simpa [State.setClaim, hs, hh] using hd
    · simpa [State.setClaim, hdc] using hd

theorem Positions.newClaim (h : Positions s) (i current : ℕ) :
    Positions (s.newClaim i current) where
  max := h.max
  calls := h.calls
  workers := h.workers
  born d hd := by
    have hlt : d < s.claimCount + 1 := by
      by_cases hdc : d = s.claimCount
      · omega
      · refine Nat.lt_succ_of_lt (h.born d ?_)
        simpa [State.newClaim, hdc] using hd
    exact hlt

theorem Positions.newRelease (h : Positions s) (c : ℕ) : Positions (s.newRelease c) :=
  ⟨h.max, h.calls, h.workers, h.born⟩

theorem Positions.setStage (h : Positions s) (r : ℕ) (g : Stage) : Positions (s.setStage r g) :=
  ⟨h.max, h.calls, h.workers, h.born⟩

theorem Positions.lt_of_start (h : Positions s) {c : ℕ} {p : Start} (hp : (s.claims c).start = p)
    (hne : p ≠ .none) : c < s.claimCount := h.born c (Or.inl (hp ▸ hne))

theorem Positions.lt_of_handle (h : Positions s) {c : ℕ} {p : Handle}
    (hp : (s.claims c).handle = p) (hne : p ≠ .none) : c < s.claimCount :=
  h.born c (Or.inr (hp ▸ hne))

/-! ## The ledger of a state -/

/-- What the ledger shows of a state. -/
def view (s : State) : Ledger where
  activeCount := s.activeCount
  released c := (s.claims c).released
  givenBack c := (s.claims c).givenBack
  claimCount := s.claimCount
  releases := s.releases
  releaseCount := s.releaseCount
  limits := s.limits

theorem view_setClaim (s : State) (c : ℕ) (v : Claim) :
    view (s.setClaim c v) = { view s with
      released := Function.update (view s).released c v.released
      givenBack := Function.update (view s).givenBack c v.givenBack } := by
  have hr : (fun d => (Function.update s.claims c v d).released) =
      Function.update (view s).released c v.released :=
    funext fun d => Function.apply_update (fun _ => Claim.released) s.claims c v d
  have hg : (fun d => (Function.update s.claims c v d).givenBack) =
      Function.update (view s).givenBack c v.givenBack :=
    funext fun d => Function.apply_update (fun _ => Claim.givenBack) s.claims c v d
  rw [← hr, ← hg]
  rfl

/-- Changing anything else of a claim is not seen. -/
theorem view_setClaim_of_eq {c : ℕ} {v : Claim} (hr : v.released = (s.claims c).released)
    (hg : v.givenBack = (s.claims c).givenBack) : view (s.setClaim c v) = view s := by
  rw [view_setClaim, hr, hg]
  change Ledger.mk _ (Function.update (view s).released c ((view s).released c))
    (Function.update (view s).givenBack c ((view s).givenBack c)) _ _ _ _ = _
  rw [Function.update_eq_self, Function.update_eq_self]

/-- A release begun while anything else of the claim changes is seen as an attempt. -/
theorem view_newRelease {c : ℕ} {v : Claim} (hr : v.released = (s.claims c).released)
    (hg : v.givenBack = (s.claims c).givenBack) :
    view ((s.setClaim c v).newRelease c) = (view s).next (.attempt c) :=
  congrArg (fun l : Ledger => l.next (.attempt c)) (view_setClaim_of_eq hr hg)

theorem view_newClaim {current : ℕ} (h : s.activeCount = current) (i : ℕ) :
    view (s.newClaim i current) = (view s).next .claim := by
  have hset := view_setClaim s s.claimCount { call := i, start := .sending }
  subst h
  rw [State.newClaim]
  have := congrArg (fun l : Ledger => { l with
    activeCount := s.activeCount + 1
    claimCount := s.claimCount + 1 }) hset
  exact this

/-! ## Dropping handles -/

theorem Positions.dropHandle (h : Positions s) (c : ℕ) (runtime : Bool) :
    Positions (s.dropHandle c runtime) := by
  rw [State.dropHandle]
  cases hc : (s.claims c).handle with
  | live =>
    have hlt := h.lt_of_handle hc Handle.noConfusion
    cases runtime with
    | true => exact h.setClaim hlt _
    | false => exact (h.setClaim hlt _).newRelease c
  | stopped => exact h.setClaim (h.lt_of_handle hc Handle.noConfusion) _
  | abandoned => exact h.setClaim (h.lt_of_handle hc Handle.noConfusion) _
  | _ => exact h

/-- Dropping a handle starts a release only where there is no runtime to send stop requests in. -/
theorem view_dropHandle (s : State) (c : ℕ) (runtime : Bool) :
    view (s.dropHandle c runtime) = view s ∨
      (s.claims c).handle = .live ∧ runtime = false ∧
        view (s.dropHandle c runtime) = (view s).next (.attempt c) := by
  rw [State.dropHandle]
  cases hc : (s.claims c).handle with
  | live =>
    cases runtime with
    | true => exact Or.inl (view_setClaim_of_eq rfl rfl)
    | false => exact Or.inr ⟨rfl, rfl, view_newRelease rfl rfl⟩
  | stopped => exact Or.inl (view_setClaim_of_eq rfl rfl)
  | abandoned => exact Or.inl (view_setClaim_of_eq rfl rfl)
  | _ => exact Or.inl rfl

theorem Positions.dropResult (h : Positions s) (result : Result) :
    Positions (s.dropResult result) := by
  cases result with
  | ok c => exact h.dropHandle c true
  | error e => exact h

theorem view_dropResult (s : State) (result : Result) : view (s.dropResult result) = view s := by
  cases result with
  | error e => rfl
  | ok c =>
    rcases view_dropHandle s c true with h | ⟨-, h, -⟩
    · exact h
    · cases h

theorem Positions.foldl_dropResult (h : Positions s) (results : List Result) :
    Positions (results.foldl State.dropResult s) := by
  induction results generalizing s with
  | nil => exact h
  | cons result results ih => exact ih (h.dropResult result)

theorem view_foldl_dropResult (s : State) (results : List Result) :
    view (results.foldl State.dropResult s) = view s := by
  induction results generalizing s with
  | nil => rfl
  | cons result results ih => rw [List.foldl_cons, ih, view_dropResult]

/-! ## Every step -/

/-- A call that goes on to claim has found the counter below the limit it has loaded. -/
theorem Positions.loadCount (h : Positions s) {i max : ℕ} (ha : Enabled s (.loadCount i max)) :
    Positions (Slots.next s (.loadCount i max)) := by
  refine h.setCall i ?_
  have hmax : (Caller.loadedMax max).Fits s.limits := by
    rw [← show s.calls i = .loadedMax max from ha]
    exact h.calls i
  by_cases hlt : s.activeCount < max
  · rw [if_pos hlt]
    exact ⟨max, hmax, hlt⟩
  · rw [if_neg hlt]
    trivial

/-- The claim of a call succeeds or fails. -/
theorem Positions.claim (h : Positions s) (i current : ℕ) :
    Positions (Slots.next s (.claim i current)) := by
  rw [Slots.next]
  by_cases heq : s.activeCount = current
  · rw [if_pos heq]
    exact (h.newClaim i current).setCall i trivial
  · rw [if_neg heq]
    exact h.setCall i trivial

/-- So has a worker that goes on to pop. -/
theorem Positions.workerLoadCount (h : Positions s) {w max : ℕ}
    (ha : Enabled s (.workerLoadCount w max)) :
    Positions (Slots.next s (.workerLoadCount w max)) := by
  refine h.setWorker w ?_
  have hmax : (Worker.loadedMax max).Fits s.limits := by
    rw [← show s.workers w = .loadedMax max from ha]
    exact h.workers w
  by_cases hlt : s.activeCount < max
  · rw [if_pos hlt]
    exact ⟨max, hmax, hlt⟩
  · rw [if_neg hlt]
    trivial

/-- It keeps the count it has loaded along with the request. -/
theorem Positions.pop (h : Positions s) {w current : ℕ} (ha : Enabled s (.pop w current)) :
    Positions (Slots.next s (.pop w current)) := by
  rw [Slots.next]
  have hcur : (Worker.popping current).Fits s.limits := by
    rw [← show s.workers w = .popping current from ha]
    exact h.workers w
  cases hq : s.queue with
  | nil => exact h.setWorker w trivial
  | cons i rest =>
    have := h.setWorker w (p := .claiming i current) hcur
    exact ⟨this.max, this.calls, this.workers, this.born⟩

/-- The claim of a worker succeeds or fails. -/
theorem Positions.workerClaim (h : Positions s) (w i current : ℕ) :
    Positions (Slots.next s (.workerClaim w i current)) := by
  rw [Slots.next]
  by_cases heq : s.activeCount = current
  · rw [if_pos heq]
    have := (h.newClaim i current).setWorker w (p := .starting s.claimCount i) trivial
    exact ⟨this.max, this.calls, this.workers, this.born⟩
  · rw [if_neg heq]
    exact h.setWorker w trivial

/-- The compare-and-swap of a release touches the guard alone. -/
theorem Positions.swap (h : Positions s) (r : ℕ) :
    Positions (Slots.next s (.swap r)) := by
  rw [Slots.next, swapNext]
  by_cases hfree : (s.claims (s.releases r).claim).released = true
  · rw [if_pos hfree]
    exact h.setStage r .done
  · rw [if_neg hfree]
    have hset : Positions (s.setClaim (s.releases r).claim
        { s.claims (s.releases r).claim with released := true }) := h.setClaim_of_eq rfl rfl
    exact hset.setStage r .subtracting

theorem Positions.subtract (h : Positions s) (r : ℕ) :
    Positions (Slots.next s (.subtract r)) := by
  have hset : Positions (s.setClaim (s.releases r).claim
      { s.claims (s.releases r).claim with
        givenBack := (s.claims (s.releases r).claim).givenBack + 1 }) := h.setClaim_of_eq rfl rfl
  exact ⟨hset.max, hset.calls, hset.workers, hset.born⟩

/-- Workers that are woken have loaded nothing yet. -/
theorem Positions.noticeMax (h : Positions s) :
    Positions (Slots.next s .noticeMax) := by
  refine ⟨h.max, h.calls, fun w => ?_, h.born⟩
  change (if s.workers w = .parked then Worker.loading else s.workers w).Fits s.limits
  by_cases hw : s.workers w = .parked
  · rw [if_pos hw]
    trivial
  · rw [if_neg hw]
    exact h.workers w

theorem Positions.next (h : Positions s) {a : Action} (ha : Enabled s a) :
    Positions (next s a) := by
  cases a with
  | call =>
    have := h.setCall s.callCount (p := .entered) trivial
    exact ⟨this.max, this.calls, this.workers, this.born⟩
  | loadMax i => exact h.setCall i h.max
  | loadCount i max => exact h.loadCount ha
  | claim i current => exact h.claim i current
  | push i =>
    have := h.setCall i (p := .flagging) trivial
    exact ⟨this.max, this.calls, this.workers, this.born⟩
  | flagWorker i =>
    rw [Slots.next]
    by_cases hactive : s.queueWorkerActive = true
    · rw [if_pos hactive]
      exact h.setCall i trivial
    · rw [if_neg hactive]
      have := h.setCall i (p := .spawning) trivial
      exact ⟨this.max, this.calls, this.workers, this.born⟩
  | spawn i =>
    have := (h.setCall i (p := .waiting) trivial).setWorker s.workerCount (p := .loading) trivial
    exact ⟨this.max, this.calls, this.workers, this.born⟩
  | finish i c result => exact h.setCall i trivial
  | receive i =>
    rw [Slots.next]
    cases hin : s.inbox i with
    | nil => exact h
    | cons result rest =>
      have := h.setCall i (p := .returned result) trivial
      exact ⟨this.max, this.calls, this.workers, this.born⟩
  | abandonStart i c =>
    refine (h.setClaim (h.lt_of_start rfl fun hnone => ?_) _).setCall i trivial
    have := ha.2
    rw [hnone] at this
    cases this
  | abandonWait i =>
    refine Positions.setCall (Positions.foldl_dropResult ?_ _) i trivial
    exact ⟨h.max, h.calls, h.workers, h.born⟩
  | workerLoadMax w => exact h.setWorker w h.max
  | workerLoadCount w max => exact h.workerLoadCount ha
  | park w =>
    rw [Slots.next]
    by_cases hpermit : s.permit = true
    · rw [if_pos hpermit]
      have := h.setWorker w (p := .loading) trivial
      exact ⟨this.max, this.calls, this.workers, this.born⟩
    · rw [if_neg hpermit]
      exact h.setWorker w trivial
  | pop w current => exact h.pop ha
  | idle w =>
    have := h.setWorker w (p := .rechecking) trivial
    exact ⟨this.max, this.calls, this.workers, this.born⟩
  | recheck w =>
    refine h.setWorker w ?_
    by_cases hq : s.queue = []
    · rw [if_pos hq]
      trivial
    · rw [if_neg hq]
      trivial
  | reflag w =>
    rw [Slots.next]
    by_cases hactive : s.queueWorkerActive = true
    · rw [if_pos hactive]
      exact h.setWorker w trivial
    · rw [if_neg hactive]
      have := h.setWorker w (p := .loading) trivial
      exact ⟨this.max, this.calls, this.workers, this.born⟩
  | workerClaim w i current => exact h.workerClaim w i current
  | requeue w i =>
    have := h.setWorker w (p := .loading) trivial
    exact ⟨this.max, this.calls, this.workers, this.born⟩
  | deliver w c i result =>
    refine Positions.setWorker ?_ w trivial
    rw [deliverNext]
    split
    · exact ⟨h.max, h.calls, h.workers, h.born⟩
    · exact h.dropResult result
  | respond c reply =>
    have hlt := h.lt_of_start ha Start.noConfusion
    cases reply with
    | failed text => exact (h.setClaim hlt _).newRelease c
    | noStream => exact (h.setClaim hlt _).newRelease c
    | stream id => exact h.setClaim hlt _
  | register c id => exact h.setClaim (h.lt_of_start ha Start.noConfusion) _
  | failStart c e r => exact h.setClaim (h.lt_of_start ha.1 Start.noConfusion) _
  | swap r => exact h.swap r
  | subtract r => exact h.subtract r
  | notify r woken =>
    cases woken with
    | none => exact ⟨h.max, h.calls, h.workers, h.born⟩
    | some w => exact (h.setStage r .done).setWorker w trivial
  | stop c =>
    rw [Slots.next, stopNext]
    cases hc : (s.claims c).handle with
    | live => exact h.setClaim (h.lt_of_handle hc Handle.noConfusion) _
    | _ => exact h
  | stopSent c => exact (h.setClaim (h.lt_of_handle ha Handle.noConfusion) _).newRelease c
  | stopReturn c r => exact h.setClaim (h.lt_of_handle ha.1 Handle.noConfusion) _
  | abandonStop c => exact h.setClaim (h.lt_of_handle ha Handle.noConfusion) _
  | dropHandle c runtime => exact h.dropHandle c runtime
  | dropSent c => exact (h.setClaim (h.lt_of_handle ha Handle.noConfusion) _).newRelease c
  | onEnd c =>
    refine (h.setClaim (h.lt_of_start rfl fun hnone => ?_) _).newRelease c
    have : (s.claims c).start.isRegistered = true := ha
    rw [hnone] at this
    cases this
  | setMax max =>
    exact ⟨List.mem_append_right _ (List.mem_singleton.mpr rfl), fun i => (h.calls i).append,
      fun w => (h.workers w).append, h.born⟩
  | noticeMax => exact h.noticeMax
/-- **Refinement.** In the ledger a step is one entry, or is not seen. -/
theorem next_refines (h : Positions s) {a : Action} (ha : Enabled s a) :
    view (next s a) = view s ∨
      ∃ e, (view s).Enabled e ∧ view (next s a) = (view s).next e := by
  cases a with
  | claim i current =>
    rw [Slots.next]
    by_cases heq : s.activeCount = current
    · rw [if_pos heq]
      refine Or.inr ⟨.claim, ?_, view_newClaim heq i⟩
      have hfits := h.calls i
      rw [show s.calls i = .claiming current from ha, ← heq] at hfits
      exact hfits
    · rw [if_neg heq]
      exact Or.inl rfl
  | workerClaim w i current =>
    rw [Slots.next]
    by_cases heq : s.activeCount = current
    · rw [if_pos heq]
      refine Or.inr ⟨.claim, ?_, view_newClaim heq i⟩
      have hfits := h.workers w
      rw [show s.workers w = .claiming i current from ha, ← heq] at hfits
      exact hfits
    · rw [if_neg heq]
      exact Or.inl rfl
  | flagWorker i =>
    rw [Slots.next]
    split <;> exact Or.inl rfl
  | receive i =>
    rw [Slots.next]
    split <;> exact Or.inl rfl
  | park w =>
    rw [Slots.next]
    split <;> exact Or.inl rfl
  | pop w current =>
    rw [Slots.next]
    split <;> exact Or.inl rfl
  | reflag w =>
    rw [Slots.next]
    split <;> exact Or.inl rfl
  | abandonStart i c =>
    have hset : view (s.setClaim c { s.claims c with start := .cancelled }) = view s :=
      view_setClaim_of_eq rfl rfl
    exact Or.inl hset
  | abandonWait i => exact Or.inl (view_foldl_dropResult _ _)
  | deliver w c i result =>
    refine Or.inl ?_
    change view (deliverNext s i result) = _
    rw [deliverNext]
    split
    · rfl
    · exact view_dropResult s result
  | respond c reply =>
    have hlt := h.lt_of_start ha Start.noConfusion
    cases reply with
    | failed text => exact Or.inr ⟨.attempt c, hlt, view_newRelease rfl rfl⟩
    | noStream => exact Or.inr ⟨.attempt c, hlt, view_newRelease rfl rfl⟩
    | stream id => exact Or.inl (view_setClaim_of_eq rfl rfl)
  | register c id => exact Or.inl (view_setClaim_of_eq rfl rfl)
  | failStart c e r => exact Or.inl (view_setClaim_of_eq rfl rfl)
  | swap r =>
    refine Or.inr ⟨.swap r, ha, ?_⟩
    rw [Slots.next, swapNext, Ledger.next]
    by_cases hfree : (s.claims (s.releases r).claim).released = true
    · have hfree' : (view s).released ((view s).releases r).claim = true := hfree
      rw [if_pos hfree, if_pos hfree']
      rfl
    · have hfree' : ¬(view s).released ((view s).releases r).claim = true := hfree
      rw [if_neg hfree, if_neg hfree']
      have hset := view_setClaim s (s.releases r).claim
        { s.claims (s.releases r).claim with released := true }
      rw [show Function.update (view s).givenBack (s.releases r).claim
        (s.claims (s.releases r).claim).givenBack = (view s).givenBack from
          Function.update_eq_self ..] at hset
      exact congrArg (fun l : Ledger => l.setStage r .subtracting) hset
  | subtract r =>
    refine Or.inr ⟨.subtract r, ha, ?_⟩
    have hset := view_setClaim s (s.releases r).claim
      { s.claims (s.releases r).claim with
        givenBack := (s.claims (s.releases r).claim).givenBack + 1 }
    rw [show Function.update (view s).released (s.releases r).claim
      (s.claims (s.releases r).claim).released = (view s).released from
        Function.update_eq_self ..] at hset
    exact congrArg (fun l : Ledger => { l.setStage r .notifying with
      activeCount := wrapPred32 s.activeCount }) hset
  | notify r woken =>
    cases woken with
    | none => exact Or.inr ⟨.close r, ha.1, rfl⟩
    | some w => exact Or.inr ⟨.close r, ha.1, rfl⟩
  | stop c =>
    rw [Slots.next, stopNext]
    split
    · exact Or.inl (view_setClaim_of_eq rfl rfl)
    · exact Or.inl rfl
  | stopSent c =>
    exact Or.inr ⟨.attempt c, h.lt_of_handle ha Handle.noConfusion, view_newRelease rfl rfl⟩
  | stopReturn c r => exact Or.inl (view_setClaim_of_eq rfl rfl)
  | abandonStop c => exact Or.inl (view_setClaim_of_eq rfl rfl)
  | dropHandle c runtime =>
    rcases view_dropHandle s c runtime with hsame | ⟨hc, -, hview⟩
    · exact Or.inl hsame
    · exact Or.inr ⟨.attempt c, h.lt_of_handle hc Handle.noConfusion, hview⟩
  | dropSent c =>
    exact Or.inr ⟨.attempt c, h.lt_of_handle ha Handle.noConfusion, view_newRelease rfl rfl⟩
  | onEnd c =>
    refine Or.inr ⟨.attempt c, h.lt_of_start rfl fun hnone => ?_, view_newRelease rfl rfl⟩
    have : (s.claims c).start.isRegistered = true := ha
    rw [hnone] at this
    cases this
  | setMax max => exact Or.inr ⟨.limit max, trivial, rfl⟩
  | _ => exact Or.inl rfl

end

/-! ## The books of a run -/

/-- The books are in order when the manager is created. -/
theorem balanced_init (max : UInt32) : (view (init max)).Balanced where
  total := rfl
  each _ hc := absurd hc (Nat.not_lt_zero _)
  bounded := ⟨max.toNat, List.mem_singleton.mpr rfl, Nat.zero_le _⟩
  limits m hm := by
    rw [List.mem_singleton.mp hm]
    exact max.toNat_lt
  known _ hr := absurd rfl hr

theorem balanced_run {max : UInt32} {as : List Action} (hv : system.Valid (init max) as) :
    (view (system.exec (init max) as)).Balanced := by
  have hstep : ∀ s a, Positions s → system.Enabled s a → view (system.next s a) = view s ∨
      ∃ e, Ledger.system.Enabled (view s) e ∧
        view (system.next s a) = Ledger.system.next (view s) e :=
    fun _ _ h ha => next_refines h ha
  obtain ⟨es, hes, hexec⟩ := Transition.System.refines
    (fun s a (h : Positions s) ha => h.next ha) hstep (positions_init max) hv
  rw [← hexec]
  exact Ledger.balanced_exec (balanced_init max) hes

/-- The number of claims whose `slot_released` is still false. -/
def State.unreleased (s : State) : ℕ :=
  Nat.count (fun c => (s.claims c).released = false) s.claimCount

/-- The number of releases between their compare-and-swap and their `fetch_sub`. -/
def State.midRelease (s : State) : ℕ :=
  Nat.count (fun r => (s.releases r).stage = .subtracting) s.releaseCount

/-- **Slot accounting.** In every reachable state `active_count` is the number of claims whose guard
is still false, plus the number of releases that have taken a guard and are yet to subtract; no
`fetch_sub` wraps; every claim is given back at most once, and only if its guard was taken; and the
counter is within a limit that is or was in force. -/
theorem slot_accounting (max : UInt32) (as : List Action) (hv : system.Valid (init max) as) :
    let s := system.exec (init max) as
    s.activeCount = s.unreleased + s.midRelease ∧
      (∀ r, (s.releases r).stage = .subtracting → wrapPred32 s.activeCount + 1 = s.activeCount) ∧
      (∀ c < s.claimCount, (s.claims c).givenBack ≤ (s.claims c).released.toNat) ∧
      ∃ m ∈ s.limits, s.activeCount ≤ m := by
  intro s
  have h : (view s).Balanced := balanced_run hv
  refine ⟨h.total, fun r hr => wrapPred32_add_one (h.activeCount_pos hr), fun c hc => ?_,
    h.bounded⟩
  rw [← show (view s).givenBack c + (view s).owedFor c = (s.claims c).released.toNat from
    h.each c hc]
  exact Nat.le_add_right _ _

/-- A request that fails, up to the moment its slot guard is taken. -/
def failedRequest : List Action :=
  [.call, .loadMax 0, .loadCount 0 1, .claim 0 0, .respond 0 (.failed "gone"), .swap 0]

theorem slot_accounting_failedRequest :
    (system.exec (init 1) failedRequest).activeCount =
      (system.exec (init 1) failedRequest).unreleased +
        (system.exec (init 1) failedRequest).midRelease :=
  (slot_accounting 1 failedRequest (by decide)).1

/-- The counter alone is not the number of claims with an open guard. -/
theorem active_count_ne_unreleased :
    system.Valid (init 1) failedRequest ∧
      (system.exec (init 1) failedRequest).activeCount ≠
        (system.exec (init 1) failedRequest).unreleased := by
  decide

end Slots

end TitanClient
