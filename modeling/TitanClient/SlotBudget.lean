import TitanClient.Budget
import TitanClient.SlotAccounting
import TitanClient.SlotChanges

/-!
# What is left to be done

Apart from new calls, handles that are stopped or dropped, futures that are given up, ended streams
and limit changes, all steps of the stream manager are work that has been begun. Each call, claim,
handle and release has a cost that bounds the work it still makes; it is paid step by step. Only the
queue worker can go round in circles: its compare-and-swap can fail, and on its way out it can find
that something has arrived. Both take the step of another, which pays.

## Main results

* `State.effort`, `State.lag` — the two parts of the budget
* `budget_next` — what one step pays
* `settles` — how long the manager can go on by itself
-/

namespace TitanClient

namespace Slots

open Budget

/-- The step is work that has been begun. The connection answers the requests of starts, and the
others are steps of the manager and of tasks on their way. -/
def Action.isInternal : Action → Bool
  | .call => false
  | .abandonStart _ _ => false
  | .abandonWait _ => false
  | .stop _ => false
  | .abandonStop _ => false
  | .dropHandle _ _ => false
  | .onEnd _ => false
  | .setMax _ => false
  | _ => true

/-! ## Costs -/

/-- A queued request costs the claim, the start and the delivery of its result. -/
def queuedCost : ℕ := 13

/-- A release swaps, subtracts and notifies, and leaves a permit. -/
def Stage.cost : Stage → ℕ
  | .swapping => 4
  | .subtracting => 3
  | .notifying => 2
  | .done => 0

def Release.cost (v : Release) : ℕ := v.stage.cost

/-- A start that fails begins a release. -/
def Start.cost : Start → ℕ
  | .sending => 6
  | .failing _ _ => 1
  | .registering _ => 1
  | _ => 0

/-- So does a handle, after its stop requests. -/
def Handle.cost : Handle → ℕ
  | .stopping => 6
  | .stopReleasing _ => 1
  | .dropping => 5
  | _ => 0

def Claim.cost (v : Claim) : ℕ := v.start.cost + v.handle.cost

/-- A call makes a claim by itself, or queues its request. -/
def Caller.cost : Caller → ℕ
  | .entered => 20
  | .loadedMax _ => 19
  | .claiming _ => 18
  | .pushing => 17
  | .flagging => 3
  | .spawning => 2
  | .waiting => 1
  | .starting _ => 1
  | _ => 0

/-- A worker holds a request, or has a result to deliver, which is dropped if nobody waits. -/
def Worker.cost : Worker → ℕ
  | .claiming _ _ => queuedCost
  | .requeueing _ => queuedCost
  | .starting _ _ => 6
  | _ => 0

/-- A request taken from the queue and not yet started. -/
def Worker.held : Worker → ℕ
  | .claiming _ _ => 1
  | .requeueing _ => 1
  | _ => 0

/-- How far a worker is from its next claim, its wait or its end, while nobody else moves. If there
is a request, in the queue or in its hands, it is `busy`: it goes round once more if the counter is
not what it has read. -/
def Worker.lag (busy : Bool) (activeCount : ℕ) : Worker → ℕ
  | .idling => if busy then 9 else 2
  | .rechecking => if busy then 8 else 1
  | .reflagging => if busy then 7 else 6
  | .popping current => if busy then (if activeCount = current then 1 else 6) else 3
  | .claiming _ current => if activeCount = current then 0 else 5
  | .requeueing _ => 4
  | .loading => if busy then 3 else 5
  | .loadedMax _ => if busy then 2 else 4
  | .parking => 1
  | _ => 0

theorem Worker.lag_le (busy : Bool) (n : ℕ) (p : Worker) : p.lag busy n ≤ 9 := by
  cases p with
  | popping current =>
    rw [lag]
    split
    · split <;> decide
    · decide
  | claiming i current =>
    rw [lag]
    split <;> decide
  | _ => cases busy <;> exact Nat.le_of_ble_eq_true rfl

/-- What is left to be done, except by workers that hold nothing. -/
def State.effort (s : State) : ℕ :=
  weigh Caller.cost s.calls s.callCount + weigh Worker.cost s.workers s.workerCount +
    weigh Claim.cost s.claims s.claimCount +
    weigh Release.cost s.releases s.releaseCount +
    queuedCost * s.queue.length + s.permit.toNat + s.limitNotices

/-- The number of requests in the queue and in the hands of workers. -/
def State.backlog (s : State) : ℕ :=
  s.queue.length + weigh Worker.held s.workers s.workerCount

/-- What workers that hold nothing have left to do. -/
def State.lag (s : State) : ℕ :=
  weigh (Worker.lag (decide (s.backlog ≠ 0)) s.activeCount) s.workers s.workerCount

theorem State.lag_le (s : State) : s.lag ≤ 9 * s.workerCount :=
  weigh_le fun _ _ => Worker.lag_le ..

section

variable {s : State}

/-- What is left to be done does not depend on the counter. -/
theorem effort_activeCount (s : State) (n : ℕ) :
    ({ s with activeCount := n } : State).effort = s.effort := rfl

theorem effort_setCall {i : ℕ} (hi : i < s.callCount) (c : Caller) :
    (s.setCall i c).effort + (s.calls i).cost = s.effort + c.cost := by
  have h := weigh_update Caller.cost s.calls hi c
  simp only [State.effort, State.setCall]
  omega

theorem effort_setWorker {w : ℕ} (hw : w < s.workerCount) (p : Worker) :
    (s.setWorker w p).effort + (s.workers w).cost = s.effort + p.cost := by
  have h := weigh_update Worker.cost s.workers hw p
  simp only [State.effort, State.setWorker]
  omega

theorem effort_setClaim {c : ℕ} (hc : c < s.claimCount) (v : Claim) :
    (s.setClaim c v).effort + (s.claims c).cost = s.effort + v.cost := by
  have h := weigh_update Claim.cost s.claims hc v
  simp only [State.effort, State.setClaim]
  omega

theorem effort_setStage {r : ℕ} (hr : r < s.releaseCount) (g : Stage) :
    (s.setStage r g).effort + (s.releases r).stage.cost = s.effort + g.cost := by
  have h := weigh_update Release.cost s.releases hr
    { s.releases r with stage := g }
  simp only [Release.cost] at h
  simp only [State.effort, State.setStage]
  omega

/-- The new claim's start is about to send its request. -/
theorem effort_newClaim (i current : ℕ) : (s.newClaim i current).effort = s.effort + 6 := by
  have h := weigh_update_last (n := s.claimCount) Claim.cost s.claims
    { call := i, start := .sending }
  have hcost : Claim.cost { call := i, start := .sending } = 6 := rfl
  simp only [State.effort, State.newClaim]
  omega

theorem effort_newRelease (c : ℕ) : (s.newRelease c).effort = s.effort + 4 := by
  have h := weigh_update_last (n := s.releaseCount) Release.cost s.releases
    ⟨c, .swapping⟩
  have hcost : Release.cost ⟨c, .swapping⟩ = 4 := rfl
  simp only [State.effort, State.newRelease]
  omega

end

/-! ## What a step pays -/

/-- A step pays effort, and may bring a worker to life for it; or it pays lag alone. -/
def Pays (s u : State) : Prop :=
  u.effort < s.effort ∧ u.workerCount + u.effort ≤ s.workerCount + s.effort ∨
    u.effort = s.effort ∧ u.workerCount = s.workerCount ∧ u.lag < s.lag

section

variable {s u : State}

theorem Pays.effort (hlt : u.effort < s.effort) (hcount : u.workerCount = s.workerCount) :
    Pays s u := by
  refine Or.inl ⟨hlt, ?_⟩
  omega

/-- A call goes on. -/
theorem Pays.call (hr : Roster s) {i : ℕ} {p c : Caller} (hi : s.calls i = p) (hne : p ≠ .idle)
    (hlt : c.cost < p.cost) : Pays s (s.setCall i c) := by
  have h := effort_setCall (hr.lt_of_call hi hne) c
  rw [hi] at h
  refine Pays.effort ?_ rfl
  omega

/-- A claim changes. -/
theorem Pays.claim (hp : Positions s) {c : ℕ} {v : Claim}
    (hborn : (s.claims c).start ≠ .none ∨ (s.claims c).handle ≠ .none)
    (hlt : v.cost < (s.claims c).cost) : Pays s (s.setClaim c v) := by
  have h := effort_setClaim (hp.born c hborn) v
  refine Pays.effort ?_ rfl
  omega

/-- A claim changes so that a release is begun. -/
theorem Pays.release (hp : Positions s) {c : ℕ} {v : Claim}
    (hborn : (s.claims c).start ≠ .none ∨ (s.claims c).handle ≠ .none)
    (hlt : v.cost + 4 < (s.claims c).cost) : Pays s ((s.setClaim c v).newRelease c) := by
  have h := effort_setClaim (hp.born c hborn) v
  have hnew := effort_newRelease (s := s.setClaim c v) c
  refine Pays.effort ?_ rfl
  omega

/-- A release goes on. -/
theorem Pays.stage {r : ℕ} {g : Stage} (hr : r < s.releaseCount)
    (hlt : g.cost < (s.releases r).stage.cost) : Pays s (s.setStage r g) := by
  have h := effort_setStage hr g
  refine Pays.effort ?_ rfl
  omega

/-- A release goes on and leaves its mark on the claim. -/
theorem effort_mark {r c : ℕ} {g : Stage} {v : Claim} (hr : r < s.releaseCount)
    (hc : c < s.claimCount) (hv : v.cost = (s.claims c).cost)
    (hlt : g.cost < (s.releases r).stage.cost) :
    ((s.setClaim c v).setStage r g).effort < s.effort := by
  have hclaim := effort_setClaim hc v
  have h : ((s.setClaim c v).setStage r g).effort + (s.releases r).stage.cost =
      (s.setClaim c v).effort + g.cost := effort_setStage (s := s.setClaim c v) hr g
  omega

/-- A worker takes a request from the queue, or puts one back. -/
theorem Pays.exchange (hr : Roster s) {w : ℕ} {p q : Worker} {queue : List ℕ}
    (hw : s.workers w = p) (hne : p ≠ .unborn)
    (hcost : q.cost + queuedCost * queue.length = p.cost + queuedCost * s.queue.length)
    (hheld : q.held + queue.length = p.held + s.queue.length)
    (hlt : q.lag (decide (s.backlog ≠ 0)) s.activeCount <
      p.lag (decide (s.backlog ≠ 0)) s.activeCount) :
    Pays s { s.setWorker w q with queue := queue } := by
  have hborn := hr.lt_of_worker hw hne
  have heffort := effort_setWorker hborn q
  have hbacklog : ({ s.setWorker w q with queue := queue } : State).backlog = s.backlog := by
    have h := weigh_update Worker.held s.workers hborn q
    rw [hw] at h
    simp only [State.backlog, State.setWorker]
    omega
  have hlag := weigh_update (Worker.lag (decide (s.backlog ≠ 0)) s.activeCount) s.workers
    hborn q
  rw [hw] at heffort hlag
  refine Or.inr ⟨?_, rfl, ?_⟩
  · simp only [State.effort, State.setWorker] at heffort ⊢
    omega
  · rw [State.lag, hbacklog]
    change weigh (Worker.lag _ s.activeCount) (Function.update s.workers w q) s.workerCount < s.lag
    rw [State.lag]
    omega

/-- A worker goes on with what it has in its hands. -/
theorem Pays.worker (hr : Roster s) {w : ℕ} {p q : Worker} (hw : s.workers w = p)
    (hne : p ≠ .unborn) (hcost : q.cost = p.cost) (hheld : q.held = p.held)
    (hlt : q.lag (decide (s.backlog ≠ 0)) s.activeCount <
      p.lag (decide (s.backlog ≠ 0)) s.activeCount) : Pays s (s.setWorker w q) :=
  Pays.exchange hr hw hne (by rw [hcost]) (by rw [hheld]) hlt

/-- A handle that is dropped in a runtime has its cleanup task before it. -/
theorem effort_dropHandle (hp : Positions s) (c : ℕ) :
    (s.dropHandle c true).effort ≤ s.effort + 5 := by
  have hset : ∀ {v : Claim}, (s.claims c).handle ≠ .none → v.cost ≤ (s.claims c).cost + 5 →
      (s.setClaim c v).effort ≤ s.effort + 5 := by
    intro v hne hle
    have h := effort_setClaim (hp.born c (Or.inr hne)) v
    omega
  have hcost : (s.claims c).cost = (s.claims c).start.cost + (s.claims c).handle.cost := rfl
  rw [State.dropHandle]
  cases hc : (s.claims c).handle with
  | live =>
    refine hset (by rw [hc]; simp) ?_
    change (s.claims c).start.cost + 5 ≤ _
    omega
  | stopped =>
    refine hset (by rw [hc]; simp) ?_
    change (s.claims c).start.cost + 0 ≤ _
    omega
  | abandoned =>
    refine hset (by rw [hc]; simp) ?_
    change (s.claims c).start.cost + 0 ≤ _
    omega
  | _ => exact Nat.le_add_right _ _

/-- Handing over a result costs no more than dropping it. -/
theorem effort_deliverNext (hp : Positions s) (i : ℕ) (result : Result) :
    (deliverNext s i result).effort ≤ s.effort + 5 := by
  rw [deliverNext]
  split
  · exact Nat.le_add_right _ _
  · cases result with
    | ok c => exact effort_dropHandle hp c
    | error e => exact Nat.le_add_right _ _

/-- A worker that finds nothing to pop is alone with an empty queue. -/
theorem backlog_eq_zero (hs : Handoff.Sound (handoff s)) {w current : ℕ}
    (hw : s.workers w = .popping current) (hqueue : s.queue = []) : s.backlog = 0 := by
  have hrunning : (s.workers w).isRunning = true := by rw [hw]; rfl
  have hheld : weigh Worker.held s.workers s.workerCount ≤ 0 * s.workerCount := by
    refine weigh_le fun v _ => Nat.le_of_eq ?_
    cases hv : s.workers v with
    | claiming i n =>
      cases running_unique hs (v := v) (w := w) (by rw [hv]; rfl) hrunning
      cases hw.symm.trans hv
    | requeueing i =>
      cases running_unique hs (v := v) (w := w) (by rw [hv]; rfl) hrunning
      cases hw.symm.trans hv
    | _ => rfl
  rw [State.backlog, hqueue]
  simpa using hheld

/-- A request in the queue is one to be served. -/
theorem backlog_ne_zero (hqueue : s.queue ≠ []) : s.backlog ≠ 0 := by
  have hlength := List.length_pos_iff.mpr hqueue
  rw [State.backlog]
  omega

/-- So is one in the hands of a worker. -/
theorem backlog_ne_zero_of_held (hr : Roster s) {w : ℕ} {p : Worker} (hw : s.workers w = p)
    (hheld : p.held = 1) : s.backlog ≠ 0 := by
  have hborn := hr.lt_of_worker hw (by rintro rfl; cases hheld)
  have h := weigh_update Worker.held s.workers hborn .exited
  rw [hw, hheld] at h
  have hzero : Worker.held .exited = 0 := rfl
  rw [State.backlog]
  omega

/-- The claim of a call that wins has a start, which is in the hands of the call. -/
theorem pays_claim (hr : Roster s) {i current : ℕ} (ha : Enabled s (.claim i current)) :
    Pays s (next s (.claim i current)) := by
  rw [next]
  split
  · have hnew := effort_newClaim (s := s) i current
    have hborn : i < (s.newClaim i current).callCount := hr.lt_of_call ha (by simp)
    have h := effort_setCall hborn (.starting s.claimCount)
    have hcost : ((s.newClaim i current).calls i).cost = 18 := by
      change (s.calls i).cost = 18
      rw [ha]
      rfl
    have hstarting : (Caller.starting s.claimCount).cost = 1 := rfl
    refine Pays.effort ?_ rfl
    omega
  · exact Pays.call hr ha (by simp) (Nat.lt_succ_self 17)

/-- A call that queues its request leaves the claim to a worker. -/
theorem pays_push (hr : Roster s) {i : ℕ} (ha : Enabled s (.push i)) :
    Pays s (next s (.push i)) := by
  have h := effort_setCall (hr.lt_of_call ha (by simp)) .flagging
  have hold : (s.calls i).cost = 17 := by rw [ha]; rfl
  have hnew : Caller.flagging.cost = 3 := rfl
  refine Pays.effort ?_ rfl
  simp only [State.effort, State.setCall, next, List.length_append, List.length_singleton,
    queuedCost] at h ⊢
  omega

/-- The new worker has nothing in its hands yet. -/
theorem pays_spawn (hr : Roster s) {i : ℕ} (ha : Enabled s (.spawn i)) :
    Pays s (next s (.spawn i)) := by
  have h := effort_setCall (hr.lt_of_call ha (by simp)) .waiting
  have hold : (s.calls i).cost = 2 := by rw [ha]; rfl
  have hnew : Caller.waiting.cost = 1 := rfl
  have hborn := weigh_update_last (n := s.workerCount) Worker.cost s.workers
    .loading
  have hworker : Worker.loading.cost = 0 := rfl
  have heffort : (next s (.spawn i)).effort = (s.setCall i .waiting).effort := by
    simp only [State.effort, State.setCall, State.setWorker, next]
    omega
  refine Or.inl ⟨by omega, ?_⟩
  change s.workerCount + 1 + (next s (.spawn i)).effort ≤ _
  omega

/-- A worker that finds a permit uses it up. -/
theorem pays_park (hr : Roster s) {w : ℕ} (ha : Enabled s (.park w)) :
    Pays s (next s (.park w)) := by
  rw [next]
  split
  · next hpermit =>
    have h := effort_setWorker (hr.lt_of_worker ha (by simp)) .loading
    rw [ha] at h
    have hparking : Worker.parking.cost = 0 := rfl
    have hloading : Worker.loading.cost = 0 := rfl
    refine Pays.effort ?_ rfl
    simp only [State.effort, State.setWorker, hpermit, Bool.toNat_true, Bool.toNat_false] at h ⊢
    omega
  · refine Pays.worker hr ha (by simp) rfl rfl ?_
    exact Nat.zero_lt_one

/-- A worker takes what is first in the queue, or is on its way out. -/
theorem pays_pop (hr : Roster s) (hs : Handoff.Sound (handoff s)) {w current : ℕ}
    (ha : Enabled s (.pop w current)) :
    Pays s (next s (.pop w current)) := by
  rw [next]
  split
  · next i rest hqueue =>
    refine Pays.exchange hr ha (by simp) ?_ ?_ ?_
    · rw [hqueue, List.length_cons]
      simp only [Worker.cost, queuedCost]
      omega
    · rw [hqueue, List.length_cons]
      simp only [Worker.held]
      omega
    · have hbusy := backlog_ne_zero (s := s) (by rw [hqueue]; simp)
      rw [decide_eq_true hbusy, Worker.lag, Worker.lag, if_pos rfl]
      split <;> decide
  · next hqueue =>
    have hempty := backlog_eq_zero hs ha hqueue
    refine Pays.worker hr ha (by simp) rfl rfl ?_
    rw [hempty]
    exact Nat.lt_succ_self 2

/-- When the worker wins, the request in its hands gives way to a claim with a start. -/
theorem pays_workerClaim (hr : Roster s) {w i current : ℕ}
    (ha : Enabled s (.workerClaim w i current)) :
    Pays s (next s (.workerClaim w i current)) := by
  rw [next]
  split
  · have hnew := effort_newClaim (s := s) i current
    have hborn : w < (s.newClaim i current).workerCount := hr.lt_of_worker ha (by simp)
    have h := effort_setWorker hborn (.starting s.claimCount i)
    have hcost : ((s.newClaim i current).workers w).cost = 13 := by
      change (s.workers w).cost = 13
      rw [ha]
      rfl
    have hstarting : (Worker.starting s.claimCount i).cost = 6 := rfl
    have heffort : ({ (s.newClaim i current).setWorker w (.starting s.claimCount i) with
        popped := s.popped ++ [i] } : State).effort =
          ((s.newClaim i current).setWorker w (.starting s.claimCount i)).effort := rfl
    refine Pays.effort ?_ rfl
    omega
  · next hne =>
    refine Pays.worker hr ha (by simp) rfl rfl ?_
    rw [Worker.lag, Worker.lag, if_neg hne]
    exact Nat.lt_succ_self 4

/-- A worker that has lost puts the request back. -/
theorem pays_requeue (hr : Roster s) {w i : ℕ} (ha : Enabled s (.requeue w i)) :
    Pays s (next s (.requeue w i)) := by
  refine Pays.exchange hr ha (by simp) ?_ ?_ ?_
  · rw [List.length_cons]
    simp only [Worker.cost, queuedCost]
    omega
  · rw [List.length_cons]
    simp only [Worker.held]
    omega
  · rw [decide_eq_true (backlog_ne_zero_of_held hr ha rfl)]
    exact Nat.lt_succ_self 3

/-- The result goes to its caller, or is dropped when nobody waits. -/
theorem pays_deliver (hr : Roster s) (hp : Positions s) {w c i : ℕ} {result : Result}
    (ha : Enabled s (.deliver w c i result)) :
    Pays s (next s (.deliver w c i result)) := by
  have hdeliver := effort_deliverNext hp i result
  have hsame := sameRoster_deliverNext s i result
  have hborn : w < (deliverNext s i result).workerCount :=
    hsame.2.2.2.symm ▸ hr.lt_of_worker ha.1 (by simp)
  have h := effort_setWorker hborn .loading
  rw [congrFun hsame.2.2.1 w, ha.1] at h
  have hstarting : (Worker.starting c i).cost = 6 := rfl
  have hloading : Worker.loading.cost = 0 := rfl
  refine Pays.effort ?_ hsame.2.2.2
  change ((deliverNext s i result).setWorker w .loading).effort < s.effort
  omega

/-- The answer ends a start or sends it on to register. -/
theorem pays_respond (hp : Positions s) {c : ℕ} {reply : Reply}
    (ha : Enabled s (.respond c reply)) :
    Pays s (next s (.respond c reply)) := by
  have hstart : (s.claims c).start = .sending := ha
  have hcost : (s.claims c).cost = 6 + (s.claims c).handle.cost := by
    rw [Claim.cost, hstart]
    rfl
  have hborn : (s.claims c).start ≠ .none ∨ (s.claims c).handle ≠ .none :=
    Or.inl (by rw [hstart]; simp)
  cases reply with
  | failed text =>
    refine Pays.release hp hborn ?_
    change 1 + (s.claims c).handle.cost + 4 < _
    omega
  | noStream =>
    refine Pays.release hp hborn ?_
    change 1 + (s.claims c).handle.cost + 4 < _
    omega
  | stream id =>
    refine Pays.claim hp hborn ?_
    change 1 + (s.claims c).handle.cost < _
    omega

/-- A release ends with a permit or a worker that is woken. -/
theorem pays_notify (hr : Roster s) {r : ℕ} {woken : Option ℕ} (hb : (view s).Balanced)
    (ha : Enabled s (.notify r woken)) :
    Pays s (next s (.notify r woken)) := by
  have hnotifying : (s.releases r).stage = .notifying := by
    cases woken with
    | none => exact ha.1
    | some w => exact ha.1
  have hborn : r < s.releaseCount := (hb.known r (by
    change (s.releases r).stage ≠ .done
    rw [hnotifying]
    simp)).1
  have h := effort_setStage hborn .done
  rw [hnotifying] at h
  have hold : Stage.notifying.cost = 2 := rfl
  have hnew : Stage.done.cost = 0 := rfl
  cases woken with
  | none =>
    refine Pays.effort ?_ rfl
    simp only [State.effort, State.setStage, next, Bool.toNat_true] at h ⊢
    omega
  | some w =>
    have hborn : w < (s.setStage r .done).workerCount := hr.lt_of_worker ha.2 (by simp)
    have hworker := effort_setWorker hborn .loading
    have hparked : ((s.setStage r .done).workers w).cost = 0 := by
      change (s.workers w).cost = 0
      rw [ha.2]
      rfl
    have hloading : Worker.loading.cost = 0 := rfl
    refine Pays.effort ?_ rfl
    change ((s.setStage r .done).setWorker w .loading).effort < s.effort
    omega

/-- The notice of a new limit wakes workers, which have nothing in their hands. -/
theorem pays_noticeMax (ha : Enabled s .noticeMax) :
    Pays s (next s .noticeMax) := by
  have hworkers : weigh Worker.cost (next s .noticeMax).workers s.workerCount =
      weigh Worker.cost s.workers s.workerCount := by
    refine weigh_congr fun w _ => ?_
    change (if s.workers w = .parked then Worker.loading else s.workers w).cost = _
    split
    · next hw => rw [hw]; rfl
    · rfl
  have hnotices : 0 < s.limitNotices := ha
  refine Pays.effort ?_ rfl
  simp only [State.effort, next] at hworkers ⊢
  omega

/-- **What one step pays.** All work that has been begun is paid for. -/
theorem pays_next (hr : Roster s) (hp : Positions s) (hb : (view s).Balanced)
    (hs : Handoff.Sound (handoff s)) {a : Action} (ha : Enabled s a) (hin : a.isInternal = true) :
    Pays s (next s a) := by
  have hknown : ∀ {r : ℕ} {g : Stage}, (s.releases r).stage = g → g ≠ .done →
      r < s.releaseCount ∧ (s.releases r).claim < s.claimCount := by
    rintro r g rfl hg
    exact hb.known r hg
  cases a with
  | loadMax i => exact Pays.call hr ha (by simp) (Nat.lt_succ_self 19)
  | loadCount i max =>
    refine Pays.call hr ha (by simp) ?_
    split <;> exact Nat.le_of_ble_eq_true rfl
  | claim i current => exact pays_claim hr ha
  | push i => exact pays_push hr ha
  | flagWorker i =>
    rw [next]
    split
    · exact Pays.call hr ha (by simp) (by decide)
    · exact Pays.call (c := .spawning) hr ha (by simp) (by decide)
  | spawn i => exact pays_spawn hr ha
  | finish i c result => exact Pays.call hr ha.1 (by simp) Nat.zero_lt_one
  | receive i =>
    rw [next]
    split
    · next result rest hinbox =>
      exact Pays.call (c := .returned result) hr ha.1 (by simp) Nat.zero_lt_one
    · next hinbox => exact absurd hinbox ha.2
  | workerLoadMax w =>
    refine Pays.worker hr ha (by simp) rfl rfl ?_
    cases decide (s.backlog ≠ 0) <;> exact Nat.le_of_ble_eq_true rfl
  | workerLoadCount w max =>
    rw [next]
    split
    · refine Pays.worker hr ha (by simp) rfl rfl ?_
      rw [Worker.lag, if_pos rfl]
      cases decide (s.backlog ≠ 0) <;> exact Nat.le_of_ble_eq_true rfl
    · refine Pays.worker hr ha (by simp) rfl rfl ?_
      cases decide (s.backlog ≠ 0) <;> exact Nat.le_of_ble_eq_true rfl
  | park w => exact pays_park hr ha
  | pop w current => exact pays_pop hr hs ha
  | idle w =>
    refine Pays.worker (q := .rechecking) hr ha (by simp) rfl rfl ?_
    cases decide (s.backlog ≠ 0) <;> exact Nat.le_of_ble_eq_true rfl
  | recheck w =>
    rw [next]
    split
    · refine Pays.worker hr ha (by simp) rfl rfl ?_
      cases decide (s.backlog ≠ 0) <;> exact Nat.le_of_ble_eq_true rfl
    · next hqueue =>
      refine Pays.worker hr ha (by simp) rfl rfl ?_
      rw [decide_eq_true (backlog_ne_zero hqueue)]
      exact Nat.lt_succ_self 7
  | reflag w =>
    rw [next]
    split
    · refine Pays.worker hr ha (by simp) rfl rfl ?_
      cases decide (s.backlog ≠ 0) <;> exact Nat.le_of_ble_eq_true rfl
    · refine Pays.worker (q := .loading) hr ha (by simp) rfl rfl ?_
      cases decide (s.backlog ≠ 0) <;> exact Nat.le_of_ble_eq_true rfl
  | workerClaim w i current => exact pays_workerClaim hr ha
  | requeue w i => exact pays_requeue hr ha
  | deliver w c i result => exact pays_deliver hr hp ha
  | respond c reply => exact pays_respond hp ha
  | register c id =>
    have hstart : (s.claims c).start = .registering id := ha
    refine Pays.claim hp (Or.inl (by rw [hstart]; simp)) ?_
    rw [Claim.cost, Claim.cost, hstart]
    change 0 + 0 < 1 + (s.claims c).handle.cost
    omega
  | failStart c e r =>
    refine Pays.claim hp (Or.inl (by rw [ha.1]; simp)) ?_
    rw [Claim.cost, Claim.cost, ha.1]
    change 0 + (s.claims c).handle.cost < 1 + (s.claims c).handle.cost
    omega
  | swap r =>
    obtain ⟨hborn, hclaim⟩ := hknown ha (by simp)
    rw [next, swapNext]
    split
    · refine Pays.stage hborn ?_
      rw [ha]
      decide
    · refine Pays.effort (effort_mark hborn hclaim rfl ?_) rfl
      rw [ha]
      decide
  | subtract r =>
    obtain ⟨hborn, hclaim⟩ := hknown ha (by simp)
    have hlt := effort_mark (g := .notifying) (v := { s.claims (s.releases r).claim with
      givenBack := (s.claims (s.releases r).claim).givenBack + 1 }) hborn hclaim rfl
      (by rw [ha]; decide)
    exact Pays.effort ((effort_activeCount _ _).trans_lt hlt) rfl
  | notify r woken => exact pays_notify hr hb ha
  | stopSent c =>
    have hhandle : (s.claims c).handle = .stopping := ha
    refine Pays.release hp (Or.inr (by rw [hhandle]; simp)) ?_
    rw [Claim.cost, Claim.cost, hhandle]
    change (s.claims c).start.cost + 1 + 4 < (s.claims c).start.cost + 6
    omega
  | stopReturn c r =>
    refine Pays.claim hp (Or.inr (by rw [ha.1]; simp)) ?_
    rw [Claim.cost, Claim.cost, ha.1]
    change (s.claims c).start.cost + 0 < (s.claims c).start.cost + 1
    omega
  | dropSent c =>
    have hhandle : (s.claims c).handle = .dropping := ha
    refine Pays.release hp (Or.inr (by rw [hhandle]; simp)) ?_
    rw [Claim.cost, Claim.cost, hhandle]
    change (s.claims c).start.cost + 0 + 4 < (s.claims c).start.cost + 5
    omega
  | noticeMax => exact pays_noticeMax ha
  | _ => cases hin

end

/-! ## Runs -/

/-- How many steps the manager can take at most before somebody calls it again. -/
def State.patience (s : State) : ℕ :=
  s.effort * (9 * (s.workerCount + s.effort) + 1) + s.lag

/-- **The manager comes to rest.** From every reachable state it can take so many steps by itself,
and no more. -/
theorem internal_length_le {max : UInt32} {as bs : List Action}
    (hv : system.Valid (init max) as) (hbs : system.Valid (system.exec (init max) as) bs)
    (hin : ∀ b ∈ bs, b.isInternal = true) :
    bs.length ≤ (system.exec (init max) as).patience := by
  refine Transition.System.length_le_of_rank (S := system) (C := fun b => b.isInternal = true)
    (I := fun u => (∃ past, system.Valid (init max) past ∧ system.exec (init max) past = u) ∧
      u.workerCount + u.effort ≤
        (system.exec (init max) as).workerCount + (system.exec (init max) as).effort)
    State.effort State.lag ?_ ⟨⟨as, hv, rfl⟩, le_refl _⟩ hin hbs
  rintro u b ⟨⟨past, hpast, rfl⟩, hbound⟩ hb ha
  have hvalid : system.Valid (init max) (past ++ [b]) :=
    (Transition.System.valid_append _).mpr ⟨hpast, ha, trivial⟩
  have hpays := pays_next (Transition.System.invariant (fun _ _ h ha => h.next ha)
    (roster_init max) hpast) (Transition.System.invariant (fun _ _ h ha => h.next ha)
      (positions_init max) hpast) (balanced_run hpast) (exec_handoff hpast) ha hb
  have hlag := State.lag_le (system.next (system.exec (init max) past) b)
  refine ⟨⟨⟨past ++ [b], hvalid, Transition.System.exec_append ..⟩, ?_⟩, ?_⟩
  · rcases hpays with ⟨-, hcount⟩ | ⟨heffort, hcount, -⟩
    · exact hcount.trans hbound
    · change (next _ b).workerCount + (next _ b).effort ≤ _
      omega
  · rcases hpays with ⟨heffort, hcount⟩ | ⟨heffort, -, hlag⟩
    · refine Or.inl ⟨heffort, hlag.trans (Nat.mul_le_mul_left 9 ?_)⟩
      change (next _ b).workerCount ≤ _
      omega
    · exact Or.inr ⟨heffort, hlag⟩

end Slots

end TitanClient
