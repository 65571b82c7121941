import TitanClient.Requests

/-!
# Stream slots

`StreamManager` with everything that claims or gives back a concurrency slot: `request_stream`, the
queue worker `process_queue`, `start_stream_internal` with its two error exits, `QuoteStream::stop`,
the drop of a handle with and without a runtime, and the `on_end` callbacks of the connection.

A slot is claimed by a successful compare-and-swap on `active_count`; the claims are numbered in
that order. A claim comes with one start of a stream, one slot guard `slot_released`, and, if the
start succeeds, one handle. The stream it asks for is named by the number of the call that asked.

## Steps

A step is one atomic access, one operation under the lock of the queue, or one await that resolves.
What the connection does is left open: any request may fail or be answered with or without a stream,
and `on_end` may be called at any time, any number of times, once the stream is registered. When an
answer comes is left open too, but it can always come. The connection that may keep a request
waiting for good is in `Lifecycle`, and what is said of this model at rest counts on every answer.

All paths that give a slot back do the same three things, the compare-and-swap on the guard, the
`fetch_sub` and the notification; each such attempt is a `Release` with its own position.

## Bookkeeping

`limits` (all values `max_concurrent` has had), `pushed` and `popped` (the queued requests in the
order of their pushes and of the claims made for them) and `givenBack` (how often the `fetch_sub` of
a claim was done) are read by no step.
-/

namespace TitanClient

/-- `fetch_sub(1)` on a `u32`, which wraps at zero. -/
def wrapPred32 (n : ℕ) : ℕ := if n = 0 then 2 ^ 32 - 1 else n - 1

theorem wrapPred32_add_one {n : ℕ} (h : 0 < n) : wrapPred32 n + 1 = n := by
  rw [wrapPred32, if_neg (Nat.ne_of_gt h), Nat.sub_add_cancel h]

namespace Slots

/-! ## State -/

/-- An error a stream request can end with: what `send_request` returned, or a local error. -/
inductive Error
  | request (text : String)
  | unexpected (text : String)
  deriving DecidableEq

/-- How a stream request ends. A handle is named by the claim it belongs to. -/
inductive Result
  | ok (claim : ℕ)
  | error (e : Error)
  deriving DecidableEq

/-- Where a call of `request_stream` stands. -/
inductive Caller
  | idle
  | entered
  | loadedMax (max : ℕ)
  | claiming (current : ℕ)
  | starting (claim : ℕ)
  | pushing
  | flagging
  | spawning
  | waiting
  | returned (result : Result)
  | cancelled
  deriving DecidableEq

/-- The call has queued its request and holds the receiver of its result channel. -/
def Caller.listens : Caller → Bool
  | .flagging => true
  | .spawning => true
  | .waiting => true
  | _ => false

/-- Where a `process_queue` task stands. -/
inductive Worker
  | unborn
  | loading
  | loadedMax (max : ℕ)
  | parking
  | parked
  | popping (current : ℕ)
  | idling
  | rechecking
  | reflagging
  | claiming (call current : ℕ)
  | requeueing (call : ℕ)
  | starting (claim call : ℕ)
  | exited
  deriving DecidableEq

/-- Where `start_stream_internal` stands. `failing` waits for the release of its own slot. -/
inductive Start
  | none
  | sending
  | failing (e : Error) (release : ℕ)
  | registering (id : ℕ)
  | done (result : Result)
  | cancelled
  deriving DecidableEq

/-- The handle of a claim: what its owner is doing with it. `stopping` and `dropping` stand for the
stop requests, `stopReleasing` for the release after them; `abandoned` is a `stop()` whose future
was dropped. -/
inductive Handle
  | none
  | live
  | stopping
  | stopReleasing (release : ℕ)
  | stopped
  | abandoned
  | dropping
  | dropped
  deriving DecidableEq

/-- One slot claim. `released` is `slot_released` and `stopped` the stopped flag. -/
structure Claim where
  call : ℕ := 0
  start : Start := .none
  handle : Handle := .none
  released : Bool := false
  stopped : Bool := false
  givenBack : ℕ := 0

/-- How far an attempt to give a slot back has come. -/
inductive Stage
  | swapping
  | subtracting
  | notifying
  | done
  deriving DecidableEq

/-- An attempt to give the slot of a claim back. -/
structure Release where
  claim : ℕ := 0
  stage : Stage := .done

/-- The fields of `StreamManager`, and all tasks around it. `permit` is what `slot_available`
stores, `limitNotices` counts the calls of `set_max_concurrent` that have yet to notify. -/
structure State where
  maxConcurrent : ℕ
  activeCount : ℕ := 0
  queue : List ℕ := []
  queueWorkerActive : Bool := false
  permit : Bool := false
  limitNotices : ℕ := 0
  calls : ℕ → Caller := fun _ => .idle
  callCount : ℕ := 0
  inbox : ℕ → List Result := fun _ => []
  workers : ℕ → Worker := fun _ => .unborn
  workerCount : ℕ := 0
  claims : ℕ → Claim := fun _ => {}
  claimCount : ℕ := 0
  releases : ℕ → Release := fun _ => {}
  releaseCount : ℕ := 0
  limits : List ℕ
  pushed : List ℕ := []
  popped : List ℕ := []

/-- `StreamManager::new`. -/
def init (maxConcurrent : UInt32) : State :=
  { maxConcurrent := maxConcurrent.toNat, limits := [maxConcurrent.toNat] }

namespace State

variable (s : State)

/-- Move a call to another position. -/
def setCall (i : ℕ) (c : Caller) : State := { s with calls := Function.update s.calls i c }

/-- Move a worker to another position. -/
def setWorker (w : ℕ) (p : Worker) : State := { s with workers := Function.update s.workers w p }

/-- Change the claim `c`. -/
def setClaim (c : ℕ) (v : Claim) : State := { s with claims := Function.update s.claims c v }

/-- Move a release to another stage. -/
def setStage (r : ℕ) (g : Stage) : State :=
  { s with releases := Function.update s.releases r { s.releases r with stage := g } }

/-- A successful `compare_exchange(current, current + 1)` on `active_count`: a new claim, for the
request of call `i`, whose start is about to send its request. -/
def newClaim (i current : ℕ) : State :=
  { s with
    activeCount := current + 1
    claims := Function.update s.claims s.claimCount { call := i, start := .sending }
    claimCount := s.claimCount + 1 }

/-- Begin to give the slot of claim `c` back. -/
def newRelease (c : ℕ) : State :=
  { s with
    releases := Function.update s.releases s.releaseCount ⟨c, .swapping⟩
    releaseCount := s.releaseCount + 1 }

/-- `Drop` for the handle of claim `c`: nothing if it was stopped. In a runtime a cleanup task sends
the stop requests first; without one the slot is given back at once. -/
def dropHandle (c : ℕ) (runtime : Bool) : State :=
  match (s.claims c).handle with
  | .live =>
    if runtime then s.setClaim c { s.claims c with stopped := true, handle := .dropping }
    else (s.setClaim c { s.claims c with stopped := true, handle := .dropped }).newRelease c
  | .stopped => s.setClaim c { s.claims c with handle := .dropped }
  | .abandoned => s.setClaim c { s.claims c with handle := .dropped }
  | _ => s

/-- Dropping a result: a handle in it is dropped, inside a runtime. -/
def dropResult : Result → State
  | .ok c => s.dropHandle c true
  | .error _ => s

end State

/-! ## Steps -/

/-- The answer to the request that a start sends. -/
inductive Reply
  | failed (text : String)
  | noStream
  | stream (id : ℕ)
  deriving DecidableEq

/-- The steps of calls (`i`), workers (`w`), starts and handles (`c`) and releases (`r`), and those
of `set_max_concurrent`. -/
inductive Action
  | call
  | loadMax (i : ℕ)
  | loadCount (i max : ℕ)
  | claim (i current : ℕ)
  | push (i : ℕ)
  | flagWorker (i : ℕ)
  | spawn (i : ℕ)
  | finish (i c : ℕ) (result : Result)
  | receive (i : ℕ)
  | abandonStart (i c : ℕ)
  | abandonWait (i : ℕ)
  | workerLoadMax (w : ℕ)
  | workerLoadCount (w max : ℕ)
  | park (w : ℕ)
  | pop (w current : ℕ)
  | idle (w : ℕ)
  | recheck (w : ℕ)
  | reflag (w : ℕ)
  | workerClaim (w i current : ℕ)
  | requeue (w i : ℕ)
  | deliver (w c i : ℕ) (result : Result)
  | respond (c : ℕ) (reply : Reply)
  | register (c id : ℕ)
  | failStart (c : ℕ) (e : Error) (r : ℕ)
  | swap (r : ℕ)
  | subtract (r : ℕ)
  | notify (r : ℕ) (woken : Option ℕ)
  | stop (c : ℕ)
  | stopSent (c : ℕ)
  | stopReturn (c r : ℕ)
  | abandonStop (c : ℕ)
  | dropHandle (c : ℕ) (runtime : Bool)
  | dropSent (c : ℕ)
  | onEnd (c : ℕ)
  | setMax (max : UInt32)
  | noticeMax
  deriving DecidableEq

/-- The start is at an await of its own, where its future can be dropped. -/
def Start.isAwaiting : Start → Bool
  | .sending => true
  | .registering _ => true
  | _ => false

/-- The stream has been registered, so that the connection can call its `on_end`. -/
def Start.isRegistered : Start → Bool
  | .done (.ok _) => true
  | _ => false

/-- The owner of the handle may call `stop()` or drop it. -/
def Handle.isOwned : Handle → Bool
  | .live => true
  | .stopped => true
  | .abandoned => true
  | _ => false

/-- When a step can be taken. -/
def Enabled (s : State) : Action → Prop
  | .call => True
  | .loadMax i => s.calls i = .entered
  | .loadCount i max => s.calls i = .loadedMax max
  | .claim i current => s.calls i = .claiming current
  | .push i => s.calls i = .pushing
  | .flagWorker i => s.calls i = .flagging
  | .spawn i => s.calls i = .spawning
  | .finish i c result => s.calls i = .starting c ∧ (s.claims c).start = .done result
  | .receive i => s.calls i = .waiting ∧ s.inbox i ≠ []
  | .abandonStart i c =>
    s.calls i = .starting c ∧ (s.claims c).start.isAwaiting = true
  | .abandonWait i => s.calls i = .waiting ∨ s.calls i = .pushing
  | .workerLoadMax w => s.workers w = .loading
  | .workerLoadCount w max => s.workers w = .loadedMax max
  | .park w => s.workers w = .parking
  | .pop w current => s.workers w = .popping current
  | .idle w => s.workers w = .idling
  | .recheck w => s.workers w = .rechecking
  | .reflag w => s.workers w = .reflagging
  | .workerClaim w i current => s.workers w = .claiming i current
  | .requeue w i => s.workers w = .requeueing i
  | .deliver w c i result => s.workers w = .starting c i ∧ (s.claims c).start = .done result
  | .respond c _ => (s.claims c).start = .sending
  | .register c id => (s.claims c).start = .registering id
  | .failStart c e r => (s.claims c).start = .failing e r ∧ (s.releases r).stage = .done
  | .swap r => (s.releases r).stage = .swapping
  | .subtract r => (s.releases r).stage = .subtracting
  | .notify r none =>
    (s.releases r).stage = .notifying ∧ ∀ w < s.workerCount, s.workers w ≠ .parked
  | .notify r (some w) => (s.releases r).stage = .notifying ∧ s.workers w = .parked
  | .stop c => (s.claims c).handle.isOwned = true
  | .stopSent c => (s.claims c).handle = .stopping
  | .stopReturn c r => (s.claims c).handle = .stopReleasing r ∧ (s.releases r).stage = .done
  | .abandonStop c => (s.claims c).handle = .stopping
  | .dropHandle c _ => (s.claims c).handle.isOwned = true
  | .dropSent c => (s.claims c).handle = .dropping
  | .onEnd c => (s.claims c).start.isRegistered = true
  | .setMax _ => True
  | .noticeMax => 0 < s.limitNotices

instance (s : State) (a : Action) : Decidable (Enabled s a) :=
  match a with
  | .call => inferInstanceAs (Decidable True)
  | .loadMax _ => inferInstanceAs (Decidable (_ = _))
  | .loadCount _ _ => inferInstanceAs (Decidable (_ = _))
  | .claim _ _ => inferInstanceAs (Decidable (_ = _))
  | .push _ => inferInstanceAs (Decidable (_ = _))
  | .flagWorker _ => inferInstanceAs (Decidable (_ = _))
  | .spawn _ => inferInstanceAs (Decidable (_ = _))
  | .finish _ _ _ => inferInstanceAs (Decidable (_ ∧ _))
  | .receive _ => inferInstanceAs (Decidable (_ ∧ _))
  | .abandonStart _ _ => inferInstanceAs (Decidable (_ ∧ _))
  | .abandonWait _ => inferInstanceAs (Decidable (_ ∨ _))
  | .workerLoadMax _ => inferInstanceAs (Decidable (_ = _))
  | .workerLoadCount _ _ => inferInstanceAs (Decidable (_ = _))
  | .park _ => inferInstanceAs (Decidable (_ = _))
  | .pop _ _ => inferInstanceAs (Decidable (_ = _))
  | .idle _ => inferInstanceAs (Decidable (_ = _))
  | .recheck _ => inferInstanceAs (Decidable (_ = _))
  | .reflag _ => inferInstanceAs (Decidable (_ = _))
  | .workerClaim _ _ _ => inferInstanceAs (Decidable (_ = _))
  | .requeue _ _ => inferInstanceAs (Decidable (_ = _))
  | .deliver _ _ _ _ => inferInstanceAs (Decidable (_ ∧ _))
  | .respond _ _ => inferInstanceAs (Decidable (_ = _))
  | .register _ _ => inferInstanceAs (Decidable (_ = _))
  | .failStart _ _ _ => inferInstanceAs (Decidable (_ ∧ _))
  | .swap _ => inferInstanceAs (Decidable (_ = _))
  | .subtract _ => inferInstanceAs (Decidable (_ = _))
  | .notify _ none => inferInstanceAs (Decidable (_ ∧ ∀ w < s.workerCount, _))
  | .notify _ (some _) => inferInstanceAs (Decidable (_ ∧ _))
  | .stop _ => inferInstanceAs (Decidable (_ = _))
  | .stopSent _ => inferInstanceAs (Decidable (_ = _))
  | .stopReturn _ _ => inferInstanceAs (Decidable (_ ∧ _))
  | .abandonStop _ => inferInstanceAs (Decidable (_ = _))
  | .dropHandle _ _ => inferInstanceAs (Decidable (_ = _))
  | .dropSent _ => inferInstanceAs (Decidable (_ = _))
  | .onEnd _ => inferInstanceAs (Decidable (_ = _))
  | .setMax _ => inferInstanceAs (Decidable True)
  | .noticeMax => inferInstanceAs (Decidable (_ < _))

/-- The text of the error for an answer without stream info. -/
def missingStreamInfo : Error := .unexpected "NewSwapQuoteStream response missing stream info"

/-- `start_stream_internal` after the answer: both error exits give the slot back first. -/
def respondNext (s : State) (c : ℕ) : Reply → State
  | .failed text =>
    (s.setClaim c { s.claims c with
      start := .failing (.request text) s.releaseCount }).newRelease c
  | .noStream =>
    (s.setClaim c { s.claims c with
      start := .failing missingStreamInfo s.releaseCount }).newRelease c
  | .stream id => s.setClaim c { s.claims c with start := .registering id }

/-- The compare-and-swap on the slot guard; who loses it is done. -/
def swapNext (s : State) (r : ℕ) : State :=
  let c := (s.releases r).claim
  if (s.claims c).released then s.setStage r .done
  else (s.setClaim c { s.claims c with released := true }).setStage r .subtracting

/-- `stop()` up to its first await. -/
def stopNext (s : State) (c : ℕ) : State :=
  match (s.claims c).handle with
  | .live => s.setClaim c { s.claims c with stopped := true, handle := .stopping }
  | _ => s

/-- Handing a result to the call that queued the request; if that call is gone, the result is
dropped. -/
def deliverNext (s : State) (i : ℕ) (result : Result) : State :=
  if (s.calls i).listens then
    { s with inbox := Function.update s.inbox i (s.inbox i ++ [result]) }
  else s.dropResult result

/-- Dropping a call that waits for its result, with what its channel holds. -/
def abandonWaitNext (s : State) (i : ℕ) : State :=
  ((s.inbox i).foldl State.dropResult { s with inbox := Function.update s.inbox i [] }).setCall i
    .cancelled

/-- The state after a step. -/
def next (s : State) : Action → State
  | .call => { s.setCall s.callCount .entered with callCount := s.callCount + 1 }
  | .loadMax i => s.setCall i (.loadedMax s.maxConcurrent)
  | .loadCount i max =>
    s.setCall i (if s.activeCount < max then .claiming s.activeCount else .pushing)
  | .claim i current =>
    if s.activeCount = current then (s.newClaim i current).setCall i (.starting s.claimCount)
    else s.setCall i .pushing
  | .push i => { s.setCall i .flagging with queue := s.queue ++ [i], pushed := s.pushed ++ [i] }
  | .flagWorker i =>
    if s.queueWorkerActive then s.setCall i .waiting
    else { s.setCall i .spawning with queueWorkerActive := true }
  | .spawn i =>
    { (s.setCall i .waiting).setWorker s.workerCount .loading with
      workerCount := s.workerCount + 1 }
  | .finish i _ result => s.setCall i (.returned result)
  | .receive i =>
    match s.inbox i with
    | result :: _ =>
      { s.setCall i (.returned result) with inbox := Function.update s.inbox i [] }
    | [] => s
  | .abandonStart i c => (s.setClaim c { s.claims c with start := .cancelled }).setCall i .cancelled
  | .abandonWait i => abandonWaitNext s i
  | .workerLoadMax w => s.setWorker w (.loadedMax s.maxConcurrent)
  | .workerLoadCount w max =>
    s.setWorker w (if s.activeCount < max then .popping s.activeCount else .parking)
  | .park w =>
    if s.permit then { s.setWorker w .loading with permit := false } else s.setWorker w .parked
  | .pop w current =>
    match s.queue with
    | i :: rest => { s.setWorker w (.claiming i current) with queue := rest }
    | [] => s.setWorker w .idling
  | .idle w => { s.setWorker w .rechecking with queueWorkerActive := false }
  | .recheck w => s.setWorker w (if s.queue = [] then .exited else .reflagging)
  | .reflag w =>
    if s.queueWorkerActive then s.setWorker w .exited
    else { s.setWorker w .loading with queueWorkerActive := true }
  | .workerClaim w i current =>
    if s.activeCount = current then
      { (s.newClaim i current).setWorker w (.starting s.claimCount i) with
        popped := s.popped ++ [i] }
    else s.setWorker w (.requeueing i)
  | .requeue w i => { s.setWorker w .loading with queue := i :: s.queue }
  | .deliver w _ i result => (deliverNext s i result).setWorker w .loading
  | .respond c reply => respondNext s c reply
  | .register c _ => s.setClaim c { s.claims c with start := .done (.ok c), handle := .live }
  | .failStart c e _ => s.setClaim c { s.claims c with start := .done (.error e) }
  | .swap r => swapNext s r
  | .subtract r =>
    let c := (s.releases r).claim
    { (s.setClaim c { s.claims c with givenBack := (s.claims c).givenBack + 1 }).setStage r
        .notifying with
      activeCount := wrapPred32 s.activeCount }
  | .notify r (some w) => (s.setStage r .done).setWorker w .loading
  | .notify r none => { s.setStage r .done with permit := true }
  | .stop c => stopNext s c
  | .stopSent c =>
    (s.setClaim c { s.claims c with handle := .stopReleasing s.releaseCount }).newRelease c
  | .stopReturn c _ => s.setClaim c { s.claims c with handle := .stopped }
  | .abandonStop c => s.setClaim c { s.claims c with handle := .abandoned }
  | .dropHandle c runtime => s.dropHandle c runtime
  | .dropSent c => (s.setClaim c { s.claims c with handle := .dropped }).newRelease c
  | .onEnd c => (s.setClaim c { s.claims c with stopped := true }).newRelease c
  | .setMax max =>
    { s with
      maxConcurrent := max.toNat
      limits := s.limits ++ [max.toNat]
      limitNotices := s.limitNotices + 1 }
  | .noticeMax =>
    { s with
      limitNotices := s.limitNotices - 1
      workers := fun w => if s.workers w = .parked then .loading else s.workers w }

/-- Callers, workers, starts, handles, callbacks and limit changes, as one system. -/
def system : Transition.System State Action := ⟨Enabled, next⟩

instance (s : State) (a : Action) : Decidable (system.Enabled s a) :=
  inferInstanceAs (Decidable (Enabled s a))

end Slots

end TitanClient
