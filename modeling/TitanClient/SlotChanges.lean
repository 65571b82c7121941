import TitanClient.SlotQueue

/-!
# What one step can do to a call, a worker or a claim

A step moves at most one call, changes few claims, and moves one worker, or wakes some. An invariant
about single calls, workers or claims is a case analysis over the ways in which they change.

## Main results

* `CallChange`, `callChange` — all that a step can do to one call
* `WorkerChange`, `workerChange` — all that a step can do to one worker
* `ClaimChange`, `claimChange` — all that a step can do to one claim
* `ReleaseChange`, `releaseChange` — all that a step can do to one release
-/

namespace TitanClient

namespace Slots

/-! ## Calls -/

/-- All that a step can do to call `i`. -/
inductive CallChange (s : State) (i : ℕ) : Action → Caller → Prop
  | same {a : Action} : CallChange s i a (s.calls i)
  | entered (h : i = s.callCount) : CallChange s i .call .entered
  | loadedMax (h : s.calls i = .entered) : CallChange s i (.loadMax i) (.loadedMax s.maxConcurrent)
  | below {max : ℕ} (h : s.calls i = .loadedMax max) (hlt : s.activeCount < max) :
      CallChange s i (.loadCount i max) (.claiming s.activeCount)
  | full {max : ℕ} (h : s.calls i = .loadedMax max) : CallChange s i (.loadCount i max) .pushing
  | claimed {current : ℕ} (h : s.calls i = .claiming current) (heq : s.activeCount = current) :
      CallChange s i (.claim i current) (.starting s.claimCount)
  | lost {current : ℕ} (h : s.calls i = .claiming current) :
      CallChange s i (.claim i current) .pushing
  | pushed (h : s.calls i = .pushing) : CallChange s i (.push i) .flagging
  | flagged (h : s.calls i = .flagging) : CallChange s i (.flagWorker i) .waiting
  | spawning (h : s.calls i = .flagging) : CallChange s i (.flagWorker i) .spawning
  | spawned (h : s.calls i = .spawning) : CallChange s i (.spawn i) .waiting
  | finished {c : ℕ} {result : Result} (h : s.calls i = .starting c)
      (hstart : (s.claims c).start = .done result) :
      CallChange s i (.finish i c result) (.returned result)
  | received {result : Result} {rest : List Result} (h : s.calls i = .waiting)
      (hinbox : s.inbox i = result :: rest) : CallChange s i (.receive i) (.returned result)
  | startAbandoned {c : ℕ} (h : s.calls i = .starting c) :
      CallChange s i (.abandonStart i c) .cancelled
  | waitAbandoned (h : s.calls i = .waiting ∨ s.calls i = .pushing) :
      CallChange s i (.abandonWait i) .cancelled

private theorem callChange_setCall {s u : State} {a : Action} {j : ℕ} {c : Caller}
    (hu : u.calls = s.calls) (hc : CallChange s j a c) (i : ℕ) :
    CallChange s i a ((u.setCall j c).calls i) := by
  by_cases hi : i = j
  · subst hi
    have hself : (u.setCall i c).calls i = c := Function.update_self ..
    rwa [hself]
  · have hother : (u.setCall j c).calls i = s.calls i := by
      rw [← hu]
      exact Function.update_of_ne hi ..
    rw [hother]
    exact .same

/-- Each step moves a call in one of these ways, or not at all. -/
theorem callChange {s : State} {a : Action} (ha : Enabled s a) (i : ℕ) :
    CallChange s i a ((next s a).calls i) := by
  have hsame : ∀ {u : State}, s.SameRoster u → CallChange s i a (u.calls i) := by
    intro u hu
    rw [hu.1]
    exact .same
  cases a with
  | call => exact callChange_setCall rfl (.entered rfl) i
  | loadMax j => exact callChange_setCall rfl (.loadedMax ha) i
  | loadCount j max =>
    rw [next]
    split
    · exact callChange_setCall rfl (.below ha ‹_›) i
    · exact callChange_setCall rfl (.full ha) i
  | claim j current =>
    rw [next]
    split
    · exact callChange_setCall (by rfl) (.claimed ha ‹_›) i
    · exact callChange_setCall rfl (.lost ha) i
  | push j => exact callChange_setCall rfl (.pushed ha) i
  | flagWorker j =>
    rw [next]
    split
    · exact callChange_setCall rfl (.flagged ha) i
    · exact callChange_setCall rfl (.spawning ha) i
  | spawn j => exact callChange_setCall rfl (.spawned ha) i
  | finish j c result => exact callChange_setCall rfl (.finished ha.1 ha.2) i
  | receive j =>
    rw [next]
    split
    · exact callChange_setCall rfl (.received ha.1 ‹_›) i
    · exact .same
  | abandonStart j c => exact callChange_setCall (by rfl) (.startAbandoned ha.1) i
  | abandonWait j =>
    have hfold := (sameRoster_foldl_dropResult
      { s with inbox := Function.update s.inbox j [] } (s.inbox j)).1
    exact callChange_setCall (s := s) hfold (.waitAbandoned ha) i
  | park w =>
    rw [next]
    split <;> exact .same
  | pop w current =>
    rw [next]
    split <;> exact .same
  | reflag w =>
    rw [next]
    split <;> exact .same
  | workerClaim w j current =>
    rw [next]
    split <;> exact .same
  | deliver w c j result =>
    exact hsame (u := deliverNext s j result) (sameRoster_deliverNext s j result)
  | respond c reply => cases reply <;> exact .same
  | swap r =>
    rw [next, swapNext]
    split <;> exact .same
  | notify r woken => cases woken <;> exact .same
  | stop c =>
    rw [next, stopNext]
    split <;> exact .same
  | dropHandle c runtime => exact hsame (sameRoster_dropHandle s c runtime)
  | _ => exact .same

/-! ## Workers -/

/-- All that a step can do to worker `w`. -/
inductive WorkerChange (s : State) (w : ℕ) : Action → Worker → Prop
  | same {a : Action} : WorkerChange s w a (s.workers w)
  | spawned {i : ℕ} (h : w = s.workerCount) : WorkerChange s w (.spawn i) .loading
  | loadedMax (h : s.workers w = .loading) :
      WorkerChange s w (.workerLoadMax w) (.loadedMax s.maxConcurrent)
  | below {max : ℕ} (h : s.workers w = .loadedMax max) (hlt : s.activeCount < max) :
      WorkerChange s w (.workerLoadCount w max) (.popping s.activeCount)
  | full {max : ℕ} (h : s.workers w = .loadedMax max) (hle : max ≤ s.activeCount) :
      WorkerChange s w (.workerLoadCount w max) .parking
  | permitted (h : s.workers w = .parking) : WorkerChange s w (.park w) .loading
  | parked (h : s.workers w = .parking) (hpermit : s.permit = false) :
      WorkerChange s w (.park w) .parked
  | popped {i current : ℕ} {rest : List ℕ} (h : s.workers w = .popping current)
      (hqueue : s.queue = i :: rest) : WorkerChange s w (.pop w current) (.claiming i current)
  | foundNone {current : ℕ} (h : s.workers w = .popping current) (hqueue : s.queue = []) :
      WorkerChange s w (.pop w current) .idling
  | idled (h : s.workers w = .idling) : WorkerChange s w (.idle w) .rechecking
  | rechecked {p : Worker} (h : s.workers w = .rechecking) (hp : p = .exited ∨ p = .reflagging) :
      WorkerChange s w (.recheck w) p
  | reflagged {p : Worker} (h : s.workers w = .reflagging) (hp : p = .exited ∨ p = .loading) :
      WorkerChange s w (.reflag w) p
  | claimed {i current : ℕ} (h : s.workers w = .claiming i current)
      (heq : s.activeCount = current) :
      WorkerChange s w (.workerClaim w i current) (.starting s.claimCount i)
  | lost {i current : ℕ} (h : s.workers w = .claiming i current) :
      WorkerChange s w (.workerClaim w i current) (.requeueing i)
  | requeued {i : ℕ} (h : s.workers w = .requeueing i) : WorkerChange s w (.requeue w i) .loading
  | delivered {c i : ℕ} {result : Result} (h : s.workers w = .starting c i)
      (hstart : (s.claims c).start = .done result) :
      WorkerChange s w (.deliver w c i result) .loading
  | woken {r : ℕ} (h : s.workers w = .parked) : WorkerChange s w (.notify r (some w)) .loading
  | noticed (h : s.workers w = .parked) : WorkerChange s w .noticeMax .loading

private theorem workerChange_setWorker {s u : State} {a : Action} {v : ℕ} {p : Worker}
    (hu : u.workers = s.workers) (hp : WorkerChange s v a p) (w : ℕ) :
    WorkerChange s w a ((u.setWorker v p).workers w) := by
  by_cases hw : w = v
  · subst hw
    have hself : (u.setWorker w p).workers w = p := Function.update_self ..
    rwa [hself]
  · have hother : (u.setWorker v p).workers w = s.workers w := by
      rw [← hu]
      exact Function.update_of_ne hw ..
    rw [hother]
    exact .same

/-- Each step moves a worker in one of these ways, or not at all. -/
theorem workerChange {s : State} {a : Action} (ha : Enabled s a) (w : ℕ) :
    WorkerChange s w a ((next s a).workers w) := by
  have hsame : ∀ {u : State}, s.SameRoster u → WorkerChange s w a (u.workers w) := by
    intro u hu
    rw [hu.2.2.1]
    exact .same
  cases a with
  | claim i current =>
    rw [next]
    split <;> exact .same
  | flagWorker i =>
    rw [next]
    split <;> exact .same
  | spawn i => exact workerChange_setWorker (by rfl) (.spawned rfl) w
  | receive i =>
    rw [next]
    split <;> exact .same
  | abandonWait i =>
    have hfold := (sameRoster_foldl_dropResult
      { s with inbox := Function.update s.inbox i [] } (s.inbox i)).2.2.1
    change WorkerChange s w _ ((List.foldl State.dropResult _ _).workers w)
    rw [hfold]
    exact .same
  | workerLoadMax v => exact workerChange_setWorker rfl (.loadedMax ha) w
  | workerLoadCount v max =>
    rw [next]
    split
    · exact workerChange_setWorker rfl (.below ha ‹_›) w
    · exact workerChange_setWorker rfl (.full ha (Nat.not_lt.mp ‹_›)) w
  | park v =>
    rw [next]
    split
    · exact workerChange_setWorker rfl (.permitted ha) w
    · exact workerChange_setWorker rfl (.parked ha (Bool.eq_false_iff.mpr ‹_›)) w
  | pop v current =>
    rw [next]
    split
    · exact workerChange_setWorker rfl (.popped ha ‹_›) w
    · exact workerChange_setWorker rfl (.foundNone ha ‹_›) w
  | idle v => exact workerChange_setWorker rfl (.idled ha) w
  | recheck v =>
    rw [next]
    split
    · exact workerChange_setWorker rfl (.rechecked ha (Or.inl rfl)) w
    · exact workerChange_setWorker rfl (.rechecked ha (Or.inr rfl)) w
  | reflag v =>
    rw [next]
    split
    · exact workerChange_setWorker rfl (.reflagged ha (Or.inl rfl)) w
    · exact workerChange_setWorker rfl (.reflagged ha (Or.inr rfl)) w
  | workerClaim v i current =>
    rw [next]
    split
    · exact workerChange_setWorker (by rfl) (.claimed ha ‹_›) w
    · exact workerChange_setWorker rfl (.lost ha) w
  | requeue v i => exact workerChange_setWorker rfl (.requeued ha) w
  | deliver v c i result =>
    exact workerChange_setWorker (sameRoster_deliverNext s i result).2.2.1
      (.delivered ha.1 ha.2) w
  | respond c reply => cases reply <;> exact .same
  | swap r =>
    rw [next, swapNext]
    split <;> exact .same
  | notify r woken =>
    cases woken with
    | none => exact .same
    | some v => exact workerChange_setWorker (by rfl) (.woken ha.2) w
  | stop c =>
    rw [next, stopNext]
    split <;> exact .same
  | dropHandle c runtime => exact hsame (sameRoster_dropHandle s c runtime)
  | noticeMax =>
    change WorkerChange s w _ (if s.workers w = .parked then Worker.loading else s.workers w)
    split
    · exact .noticed ‹_›
    · exact .same
  | _ => exact .same

/-! ## Claims -/

/-- All that a step can do to claim `c`. -/
inductive ClaimChange (s : State) (c : ℕ) : Action → Claim → Prop
  | same {a : Action} : ClaimChange s c a (s.claims c)
  | made {i current : ℕ} (hc : c = s.claimCount) (hi : s.calls i = .claiming current) :
      ClaimChange s c (.claim i current) { call := i, start := .sending }
  | madeByWorker {w i current : ℕ} (hc : c = s.claimCount)
      (hw : s.workers w = .claiming i current) :
      ClaimChange s c (.workerClaim w i current) { call := i, start := .sending }
  | denied {reply : Reply} {e : Error} (h : (s.claims c).start = .sending) :
      ClaimChange s c (.respond c reply) { s.claims c with start := .failing e s.releaseCount }
  | answered {id : ℕ} (h : (s.claims c).start = .sending) :
      ClaimChange s c (.respond c (.stream id)) { s.claims c with start := .registering id }
  | registered {id : ℕ} (h : (s.claims c).start = .registering id) :
      ClaimChange s c (.register c id)
        { s.claims c with start := .done (.ok c), handle := .live }
  | failed {e : Error} {r : ℕ} (h : (s.claims c).start = .failing e r)
      (hr : (s.releases r).stage = .done) :
      ClaimChange s c (.failStart c e r) { s.claims c with start := .done (.error e) }
  | startAbandoned {i : ℕ} (h : s.calls i = .starting c)
      (hstart : (s.claims c).start.isAwaiting = true) :
      ClaimChange s c (.abandonStart i c) { s.claims c with start := .cancelled }
  | swapped {r : ℕ} (h : (s.releases r).stage = .swapping) (hclaim : (s.releases r).claim = c) :
      ClaimChange s c (.swap r) { s.claims c with released := true }
  | subtracted {r : ℕ} (h : (s.releases r).stage = .subtracting)
      (hclaim : (s.releases r).claim = c) :
      ClaimChange s c (.subtract r)
        { s.claims c with givenBack := (s.claims c).givenBack + 1 }
  | stopped (h : (s.claims c).handle = .live) :
      ClaimChange s c (.stop c) { s.claims c with stopped := true, handle := .stopping }
  | stopSent (h : (s.claims c).handle = .stopping) :
      ClaimChange s c (.stopSent c) { s.claims c with handle := .stopReleasing s.releaseCount }
  | stopReturned {r : ℕ} (h : (s.claims c).handle = .stopReleasing r)
      (hr : (s.releases r).stage = .done) :
      ClaimChange s c (.stopReturn c r) { s.claims c with handle := .stopped }
  | stopAbandoned (h : (s.claims c).handle = .stopping) :
      ClaimChange s c (.abandonStop c) { s.claims c with handle := .abandoned }
  | dropped {a : Action} (h : (s.claims c).handle = .live) :
      ClaimChange s c a { s.claims c with stopped := true, handle := .dropping }
  | droppedOutside (h : (s.claims c).handle = .live) :
      ClaimChange s c (.dropHandle c false) { s.claims c with stopped := true, handle := .dropped }
  | droppedAfter {a : Action} (h : (s.claims c).handle = .stopped ∨
      (s.claims c).handle = .abandoned) :
      ClaimChange s c a { s.claims c with handle := .dropped }
  | dropSent (h : (s.claims c).handle = .dropping) :
      ClaimChange s c (.dropSent c) { s.claims c with handle := .dropped }
  | ended (h : (s.claims c).start.isRegistered = true) :
      ClaimChange s c (.onEnd c) { s.claims c with stopped := true }

private theorem claimChange_setClaim {s u : State} {a : Action} {d : ℕ} {v : Claim}
    (hu : u.claims = s.claims) (hv : ClaimChange s d a v) (c : ℕ) :
    ClaimChange s c a ((u.setClaim d v).claims c) := by
  by_cases hc : c = d
  · subst hc
    have hself : (u.setClaim c v).claims c = v := Function.update_self ..
    rwa [hself]
  · have hother : (u.setClaim d v).claims c = s.claims c := by
      rw [← hu]
      exact Function.update_of_ne hc ..
    rw [hother]
    exact .same

theorem claimChange_drop (s : State) (a : Action) (c : ℕ) :
    ClaimChange s c a (s.claims c).drop := by
  rw [Claim.drop]
  split
  · exact .dropped ‹_›
  · exact .droppedAfter (Or.inl ‹_›)
  · exact .droppedAfter (Or.inr ‹_›)
  · exact .same

/-- Each step changes a claim in one of these ways, or not at all. -/
theorem claimChange {s : State} {a : Action} (ha : Enabled s a) (c : ℕ) :
    ClaimChange s c a ((next s a).claims c) := by
  have hdrop : ∀ (results : List Result) (u : State), u.claims = s.claims →
      ClaimChange s c a ((results.foldl State.dropResult u).claims c) := by
    intro results u hu
    rw [foldl_dropResult_eq]
    change ClaimChange s c a (if .ok c ∈ results then (u.claims c).drop else u.claims c)
    rw [hu]
    split
    · exact claimChange_drop s a c
    · exact .same
  cases a with
  | claim i current =>
    rw [next]
    split
    · exact claimChange_setClaim rfl (.made rfl ha) c
    · exact .same
  | flagWorker i =>
    rw [next]
    split <;> exact .same
  | receive i =>
    rw [next]
    split <;> exact .same
  | abandonStart i d => exact claimChange_setClaim rfl (.startAbandoned ha.1 ha.2) c
  | abandonWait i => exact hdrop (s.inbox i) { s with inbox := Function.update s.inbox i [] } rfl
  | park w =>
    rw [next]
    split <;> exact .same
  | pop w current =>
    rw [next]
    split <;> exact .same
  | reflag w =>
    rw [next]
    split <;> exact .same
  | workerClaim w i current =>
    rw [next]
    split
    · exact claimChange_setClaim rfl (.madeByWorker rfl ha) c
    · exact .same
  | deliver w d i result =>
    change ClaimChange s c _ ((deliverNext s i result).claims c)
    rw [deliverNext]
    split
    · exact .same
    · exact hdrop [result] s rfl
  | respond d reply =>
    cases reply with
    | failed text => exact claimChange_setClaim rfl (.denied ha) c
    | noStream => exact claimChange_setClaim rfl (.denied ha) c
    | stream id => exact claimChange_setClaim rfl (.answered ha) c
  | register d id => exact claimChange_setClaim rfl (.registered ha) c
  | failStart d e r => exact claimChange_setClaim rfl (.failed ha.1 ha.2) c
  | swap r =>
    rw [next, swapNext]
    split
    · exact .same
    · exact claimChange_setClaim rfl (.swapped ha rfl) c
  | subtract r => exact claimChange_setClaim rfl (.subtracted ha rfl) c
  | notify r woken => cases woken <;> exact .same
  | stop d =>
    rw [next, stopNext]
    split
    · exact claimChange_setClaim rfl (.stopped ‹_›) c
    · exact .same
  | stopSent d => exact claimChange_setClaim rfl (.stopSent ha) c
  | stopReturn d r => exact claimChange_setClaim rfl (.stopReturned ha.1 ha.2) c
  | abandonStop d => exact claimChange_setClaim rfl (.stopAbandoned ha) c
  | dropHandle d runtime =>
    rw [next, State.dropHandle]
    split
    · split
      · exact claimChange_setClaim rfl (.dropped ‹_›) c
      · rename_i hruntime
        rw [Bool.not_eq_true] at hruntime
        subst hruntime
        exact claimChange_setClaim rfl (.droppedOutside ‹_›) c
    · exact claimChange_setClaim rfl (.droppedAfter (Or.inl ‹_›)) c
    · exact claimChange_setClaim rfl (.droppedAfter (Or.inr ‹_›)) c
    · exact .same
  | dropSent d => exact claimChange_setClaim rfl (.dropSent ha) c
  | onEnd d => exact claimChange_setClaim rfl (.ended ha) c
  | _ => exact .same

/-! ## Releases -/

/-- All that a step can do to release `r`. A release begins for a start that is over or fails, or
for a handle. -/
inductive ReleaseChange (s : State) (r : ℕ) : Action → Release → Prop
  | same {a : Action} : ReleaseChange s r a (s.releases r)
  | begun {a : Action} {c : ℕ} (h : r = s.releaseCount)
      (hc : ((next s a).claims c).start.isAwaiting = false ∨ (s.claims c).handle ≠ .none) :
      ReleaseChange s r a ⟨c, .swapping⟩
  | lost (h : (s.releases r).stage = .swapping)
      (hreleased : (s.claims (s.releases r).claim).released = true) :
      ReleaseChange s r (.swap r) { s.releases r with stage := .done }
  | taken (h : (s.releases r).stage = .swapping) :
      ReleaseChange s r (.swap r) { s.releases r with stage := .subtracting }
  | subtracted (h : (s.releases r).stage = .subtracting) :
      ReleaseChange s r (.subtract r) { s.releases r with stage := .notifying }
  | notified {woken : Option ℕ} (h : (s.releases r).stage = .notifying) :
      ReleaseChange s r (.notify r woken) { s.releases r with stage := .done }

private theorem releaseChange_setStage {s u : State} {a : Action} {q : ℕ} {g : Stage}
    (hu : u.releases = s.releases) (hg : ReleaseChange s q a { s.releases q with stage := g })
    (r : ℕ) : ReleaseChange s r a ((u.setStage q g).releases r) := by
  by_cases hr : r = q
  · subst hr
    have hself : (u.setStage r g).releases r = { s.releases r with stage := g } := by
      rw [← hu]
      exact Function.update_self ..
    rwa [hself]
  · have hother : (u.setStage q g).releases r = s.releases r := by
      rw [← hu]
      exact Function.update_of_ne hr ..
    rw [hother]
    exact .same

private theorem releaseChange_newRelease {s u : State} {a : Action} {c : ℕ}
    (hu : u.releases = s.releases) (hcount : u.releaseCount = s.releaseCount)
    (hc : ((next s a).claims c).start.isAwaiting = false ∨ (s.claims c).handle ≠ .none) (r : ℕ) :
    ReleaseChange s r a ((u.newRelease c).releases r) := by
  by_cases hr : r = s.releaseCount
  · have hself : (u.newRelease c).releases r = ⟨c, .swapping⟩ := by
      rw [hr, ← hcount]
      exact Function.update_self ..
    rw [hself]
    exact .begun hr hc
  · have hother : (u.newRelease c).releases r = s.releases r := by
      rw [← hu]
      exact Function.update_of_ne (hcount ▸ hr) ..
    rw [hother]
    exact .same

/-- Each step changes a release in one of these ways, or not at all. -/
theorem releaseChange {s : State} {a : Action} (ha : Enabled s a) (r : ℕ) :
    ReleaseChange s r a ((next s a).releases r) := by
  cases a with
  | claim i current =>
    rw [next]
    split <;> exact .same
  | flagWorker i =>
    rw [next]
    split <;> exact .same
  | receive i =>
    rw [next]
    split <;> exact .same
  | abandonWait i =>
    rw [next, abandonWaitNext, foldl_dropResult_eq]
    exact .same
  | park w =>
    rw [next]
    split <;> exact .same
  | pop w current =>
    rw [next]
    split <;> exact .same
  | reflag w =>
    rw [next]
    split <;> exact .same
  | workerClaim w i current =>
    rw [next]
    split <;> exact .same
  | deliver w c i result =>
    rw [next, deliverNext_eq]
    exact .same
  | respond c reply =>
    cases reply with
    | failed text =>
      have hself : (next s (.respond c (.failed text))).claims c =
          { s.claims c with start := .failing (.request text) s.releaseCount } :=
        Function.update_self ..
      exact releaseChange_newRelease rfl rfl (Or.inl (by rw [hself]; rfl)) r
    | noStream =>
      have hself : (next s (.respond c .noStream)).claims c =
          { s.claims c with start := .failing missingStreamInfo s.releaseCount } :=
        Function.update_self ..
      exact releaseChange_newRelease rfl rfl (Or.inl (by rw [hself]; rfl)) r
    | stream id => exact .same
  | swap q =>
    rw [next, swapNext]
    split
    · exact releaseChange_setStage rfl (.lost ha ‹_›) r
    · exact releaseChange_setStage (by rfl) (.taken ha) r
  | subtract q => exact releaseChange_setStage (by rfl) (.subtracted ha) r
  | notify q woken =>
    cases woken with
    | none => exact releaseChange_setStage rfl (.notified ha.1) r
    | some w => exact releaseChange_setStage rfl (.notified ha.1) r
  | stop c =>
    rw [next, stopNext]
    split <;> exact .same
  | stopSent c =>
    have hstopping : (s.claims c).handle = .stopping := ha
    exact releaseChange_newRelease rfl rfl (Or.inr (by rw [hstopping]; simp)) r
  | dropHandle c runtime =>
    rw [next, State.dropHandle]
    split
    · split
      · exact .same
      · rename_i hlive _
        exact releaseChange_newRelease rfl rfl (Or.inr (by rw [hlive]; simp)) r
    · exact .same
    · exact .same
    · exact .same
  | dropSent c =>
    have hdropping : (s.claims c).handle = .dropping := ha
    exact releaseChange_newRelease rfl rfl (Or.inr (by rw [hdropping]; simp)) r
  | onEnd c =>
    have hregistered : (s.claims c).start.isRegistered = true := ha
    refine releaseChange_newRelease rfl rfl (Or.inl ?_) r
    have hself : (next s (.onEnd c)).claims c = { s.claims c with stopped := true } :=
      Function.update_self ..
    rw [hself]
    change (s.claims c).start.isAwaiting = false
    generalize (s.claims c).start = p at hregistered
    cases p with
    | done result => rfl
    | _ => cases hregistered
  | _ => exact .same

end Slots

end TitanClient
