import TitanClient.Handoff
import TitanClient.Slots

/-!
# The queue worker

`request_stream` and `process_queue` hand the queue from worker to worker by the protocol of
`Handoff`: `queue_worker_active` is the flag, calls are the producers, `process_queue` tasks the
workers, and what is served are the requests for which a worker has claimed a slot. Seen in that way
every step of the stream manager is a step of the protocol or none.

## Main results

* `handoff`, `handoff_next` — the manager follows the protocol
* `queue_not_stranded` — a queued request is somebody's concern, and one worker at a time is at work
-/

namespace TitanClient

namespace Slots

/-! ## Dropping results -/

/-- What becomes of the claim of a handle that is dropped in a runtime. -/
def Claim.drop (v : Claim) : Claim :=
  match v.handle with
  | .live => { v with stopped := true, handle := .dropping }
  | .stopped => { v with handle := .dropped }
  | .abandoned => { v with handle := .dropped }
  | _ => v

theorem Claim.drop_drop (v : Claim) : v.drop.drop = v.drop := by
  rw [Claim.drop.eq_def v]
  split
  · rfl
  · rfl
  · rfl
  · rw [drop]
    split <;> simp_all

/-- Dropping a handle in a runtime changes its claim and nothing else. -/
theorem dropHandle_eq (s : State) (d : ℕ) : s.dropHandle d true =
    { s with claims := fun c => if c = d then (s.claims c).drop else s.claims c } := by
  have hset : s.setClaim d (s.claims d).drop =
      { s with claims := fun c => if c = d then (s.claims c).drop else s.claims c } := by
    rw [State.setClaim]
    congr 1
    funext c
    by_cases hc : c = d
    · subst hc
      rw [Function.update_self, if_pos rfl]
    · rw [Function.update_of_ne hc, if_neg hc]
  rw [← hset, State.dropHandle, Claim.drop]
  have hself : s.setClaim d (s.claims d) = s := by rw [State.setClaim, Function.update_eq_self]
  cases hh : (s.claims d).handle with
  | live => rfl
  | stopped => rfl
  | abandoned => rfl
  | _ => exact hself.symm

/-- Dropping results drops the handles among them. -/
theorem foldl_dropResult_eq (s : State) (results : List Result) :
    results.foldl State.dropResult s =
      { s with claims := fun c => if .ok c ∈ results then (s.claims c).drop else s.claims c } := by
  induction results generalizing s with
  | nil => rfl
  | cons result results ih =>
    rw [List.foldl_cons, ih]
    cases result with
    | error e => simp [State.dropResult]
    | ok d =>
      rw [State.dropResult, dropHandle_eq]
      congr 1
      funext c
      by_cases hc : c = d
      · subst hc
        simp [Claim.drop_drop]
      · have hne : Result.ok c ≠ .ok d := fun h => hc (Result.ok.inj h)
        simp [hc, hne]

/-- A result that nobody waits for any more is dropped. -/
theorem deliverNext_eq (s : State) (i : ℕ) (result : Result) :
    deliverNext s i result =
      { s with
        inbox := if (s.calls i).listens then Function.update s.inbox i (s.inbox i ++ [result])
          else s.inbox
        claims := fun c => if (s.calls i).listens = false ∧ .ok c = result then (s.claims c).drop
          else s.claims c } := by
  rw [deliverNext]
  by_cases hlisten : (s.calls i).listens = true
  · simp [hlisten]
  · rw [if_neg hlisten, if_neg hlisten]
    have hfold := foldl_dropResult_eq s [result]
    simp only [List.foldl_cons, List.foldl_nil, List.mem_singleton] at hfold
    rw [hfold]
    simp [Bool.eq_false_iff.mpr hlisten]

/-! ## Calls and workers -/

/-- Calls and workers are numbered in the order in which they begin. -/
structure Roster (s : State) : Prop where
  calls : ∀ i, s.callCount ≤ i → s.calls i = .idle
  workers : ∀ w, s.workerCount ≤ w → s.workers w = .unborn

/-- Calls and workers of a state that differs elsewhere. -/
def State.SameRoster (s u : State) : Prop :=
  u.calls = s.calls ∧ u.callCount = s.callCount ∧ u.workers = s.workers ∧
    u.workerCount = s.workerCount

namespace Roster

variable {s u : State}

theorem lt_of_call (h : Roster s) {i : ℕ} {c : Caller} (hi : s.calls i = c) (hc : c ≠ .idle) :
    i < s.callCount := by
  by_contra hle
  exact hc (hi.symm.trans (h.calls i (Nat.not_lt.mp hle)))

theorem lt_of_worker (h : Roster s) {w : ℕ} {p : Worker} (hw : s.workers w = p)
    (hp : p ≠ .unborn) : w < s.workerCount := by
  by_contra hle
  exact hp (hw.symm.trans (h.workers w (Nat.not_lt.mp hle)))

theorem congr (h : Roster s) (hsame : s.SameRoster u) : Roster u := by
  obtain ⟨hcalls, hcallCount, hworkers, hworkerCount⟩ := hsame
  refine ⟨fun i hi => ?_, fun w hw => ?_⟩
  · rw [hcalls]
    exact h.calls i (hcallCount ▸ hi)
  · rw [hworkers]
    exact h.workers w (hworkerCount ▸ hw)

theorem setCall (h : Roster s) {i : ℕ} (hi : i < s.callCount) (c : Caller) :
    Roster (s.setCall i c) := by
  refine ⟨fun j hj => ?_, h.workers⟩
  have hne : j ≠ i := fun heq => absurd hj (Nat.not_le.mpr (heq ▸ hi))
  exact (Function.update_of_ne hne ..).trans (h.calls j hj)

theorem setWorker (h : Roster s) {w : ℕ} (hw : w < s.workerCount) (p : Worker) :
    Roster (s.setWorker w p) := by
  refine ⟨h.calls, fun v hv => ?_⟩
  have hne : v ≠ w := fun heq => absurd hv (Nat.not_le.mpr (heq ▸ hw))
  exact (Function.update_of_ne hne ..).trans (h.workers v hv)

end Roster

theorem roster_init (max : UInt32) : Roster (init max) := ⟨fun _ _ => rfl, fun _ _ => rfl⟩

section

variable {s : State}

theorem sameRoster_dropHandle (s : State) (c : ℕ) (runtime : Bool) :
    s.SameRoster (s.dropHandle c runtime) := by
  rw [State.dropHandle]
  split
  · split <;> exact ⟨rfl, rfl, rfl, rfl⟩
  · exact ⟨rfl, rfl, rfl, rfl⟩
  · exact ⟨rfl, rfl, rfl, rfl⟩
  · exact ⟨rfl, rfl, rfl, rfl⟩

theorem sameRoster_foldl_dropResult (s : State) (results : List Result) :
    s.SameRoster (results.foldl State.dropResult s) := by
  rw [foldl_dropResult_eq]
  exact ⟨rfl, rfl, rfl, rfl⟩

theorem sameRoster_deliverNext (s : State) (i : ℕ) (result : Result) :
    s.SameRoster (deliverNext s i result) := by
  rw [deliverNext_eq]
  exact ⟨rfl, rfl, rfl, rfl⟩

theorem Roster.next (h : Roster s) {a : Action} (ha : Enabled s a) : Roster (next s a) := by
  have hcall : ∀ {i : ℕ} {c : Caller}, s.calls i = c → c ≠ .idle → ∀ c', Roster (s.setCall i c') :=
    fun hi hc c' => h.setCall (h.lt_of_call hi hc) c'
  have hworker : ∀ {w : ℕ} {p : Worker}, s.workers w = p → p ≠ .unborn →
      ∀ p', Roster (s.setWorker w p') :=
    fun hw hp p' => h.setWorker (h.lt_of_worker hw hp) p'
  cases a with
  | call =>
    refine ⟨fun i hi => ?_, h.workers⟩
    have hlt : s.callCount < i := hi
    exact (Function.update_of_ne (Nat.ne_of_gt hlt) ..).trans (h.calls i (Nat.le_of_lt hlt))
  | loadMax i => exact hcall ha Caller.noConfusion _
  | loadCount i max => exact hcall ha Caller.noConfusion _
  | claim i current =>
    rw [Slots.next]
    split
    · exact (hcall ha Caller.noConfusion (.starting s.claimCount)).congr ⟨rfl, rfl, rfl, rfl⟩
    · exact hcall ha Caller.noConfusion _
  | push i => exact (hcall ha Caller.noConfusion .flagging).congr ⟨rfl, rfl, rfl, rfl⟩
  | flagWorker i =>
    rw [Slots.next]
    split
    · exact hcall ha Caller.noConfusion _
    · exact (hcall ha Caller.noConfusion .spawning).congr ⟨rfl, rfl, rfl, rfl⟩
  | spawn i =>
    have hset := hcall ha Caller.noConfusion .waiting
    refine ⟨hset.calls, fun w hw => ?_⟩
    have hlt : s.workerCount < w := hw
    exact (Function.update_of_ne (Nat.ne_of_gt hlt) ..).trans (h.workers w (Nat.le_of_lt hlt))
  | finish i c result => exact hcall ha.1 Caller.noConfusion _
  | receive i =>
    rw [Slots.next]
    split
    · exact (hcall ha.1 Caller.noConfusion (.returned _)).congr ⟨rfl, rfl, rfl, rfl⟩
    · exact h
  | abandonStart i c =>
    exact (hcall ha.1 Caller.noConfusion .cancelled).congr ⟨rfl, rfl, rfl, rfl⟩
  | abandonWait i =>
    have hlt : i < s.callCount :=
      ha.elim (h.lt_of_call · Caller.noConfusion) (h.lt_of_call · Caller.noConfusion)
    have hsame := sameRoster_foldl_dropResult
      { s with inbox := Function.update s.inbox i [] } (s.inbox i)
    have hfold : Roster _ := (h.congr ⟨rfl, rfl, rfl, rfl⟩ :
      Roster { s with inbox := Function.update s.inbox i [] }).congr hsame
    exact hfold.setCall (hsame.2.1.symm ▸ hlt) .cancelled
  | workerLoadMax w => exact hworker ha Worker.noConfusion _
  | workerLoadCount w max => exact hworker ha Worker.noConfusion _
  | park w =>
    rw [Slots.next]
    split
    · exact (hworker ha Worker.noConfusion .loading).congr ⟨rfl, rfl, rfl, rfl⟩
    · exact hworker ha Worker.noConfusion _
  | pop w current =>
    rw [Slots.next]
    split
    · exact (hworker ha Worker.noConfusion (.claiming _ current)).congr ⟨rfl, rfl, rfl, rfl⟩
    · exact hworker ha Worker.noConfusion _
  | idle w => exact (hworker ha Worker.noConfusion .rechecking).congr ⟨rfl, rfl, rfl, rfl⟩
  | recheck w => exact hworker ha Worker.noConfusion _
  | reflag w =>
    rw [Slots.next]
    split
    · exact hworker ha Worker.noConfusion _
    · exact (hworker ha Worker.noConfusion .loading).congr ⟨rfl, rfl, rfl, rfl⟩
  | workerClaim w i current =>
    rw [Slots.next]
    split
    · exact (hworker ha Worker.noConfusion (.starting s.claimCount i)).congr ⟨rfl, rfl, rfl, rfl⟩
    · exact hworker ha Worker.noConfusion _
  | requeue w i => exact (hworker ha Worker.noConfusion .loading).congr ⟨rfl, rfl, rfl, rfl⟩
  | deliver w c i result =>
    have hsame := sameRoster_deliverNext s i result
    have hlt := h.lt_of_worker ha.1 Worker.noConfusion
    exact (h.congr hsame).setWorker (hsame.2.2.2.symm ▸ hlt) .loading
  | respond c reply => cases reply <;> exact h.congr ⟨rfl, rfl, rfl, rfl⟩
  | swap r =>
    rw [Slots.next, swapNext]
    split <;> exact h.congr ⟨rfl, rfl, rfl, rfl⟩
  | notify r woken =>
    cases woken with
    | none => exact h.congr ⟨rfl, rfl, rfl, rfl⟩
    | some w => exact (hworker ha.2 Worker.noConfusion .loading).congr ⟨rfl, rfl, rfl, rfl⟩
  | stop c =>
    rw [Slots.next, stopNext]
    split <;> exact h.congr ⟨rfl, rfl, rfl, rfl⟩
  | dropHandle c runtime => exact h.congr (sameRoster_dropHandle s c runtime)
  | noticeMax =>
    refine ⟨h.calls, fun w hw => ?_⟩
    have hunborn := h.workers w hw
    change (if s.workers w = .parked then Worker.loading else s.workers w) = .unborn
    rw [hunborn]
    rfl
  | _ => exact h.congr ⟨rfl, rfl, rfl, rfl⟩

end

/-! ## The protocol -/

/-- A call as a producer. -/
def Caller.producer : Caller → Handoff.Producer
  | .flagging => .flagging
  | .spawning => .spawning
  | _ => .away

/-- A `process_queue` task as a worker of the protocol: from the pop to the claim, or to the moment
it puts the request back, it holds a request. -/
def Worker.consumer : Worker → Handoff.Worker ℕ
  | .unborn => .off
  | .rechecking => .rechecking
  | .reflagging => .reflagging
  | .claiming i _ => .holding i
  | .requeueing i => .holding i
  | .exited => .off
  | _ => .serving

/-- The queue, its flag and both sides, as the protocol sees them. -/
def handoff (s : State) : Handoff.State ℕ ℕ ℕ where
  queue := s.queue
  active := s.queueWorkerActive
  producers i := (s.calls i).producer
  workers w := (s.workers w).consumer
  pushed := s.pushed
  served := s.popped

section

variable {s : State}

theorem handoff_setCall (s : State) (i : ℕ) (c : Caller) :
    handoff (s.setCall i c) = (handoff s).setProducer i c.producer := by
  have hcalls : (fun j => (Function.update s.calls i c j).producer) =
      Function.update (handoff s).producers i c.producer :=
    funext fun j => Function.apply_update (fun _ => Caller.producer) s.calls i c j
  rw [Handoff.State.setProducer, ← hcalls]
  rfl

theorem handoff_setWorker (s : State) (w : ℕ) (p : Worker) :
    handoff (s.setWorker w p) = (handoff s).setWorker w p.consumer := by
  have hworkers : (fun v => (Function.update s.workers w p v).consumer) =
      Function.update (handoff s).workers w p.consumer :=
    funext fun v => Function.apply_update (fun _ => Worker.consumer) s.workers w p v
  rw [Handoff.State.setWorker, ← hworkers]
  rfl

/-- A call that is elsewhere before and after has not moved. -/
theorem handoff_setCall_of_eq {i : ℕ} {c c' : Caller} (hi : s.calls i = c)
    (hc : c'.producer = c.producer) : handoff (s.setCall i c') = handoff s := by
  have hsame : c'.producer = (handoff s).producers i := by
    rw [hc, ← hi]
    rfl
  rw [handoff_setCall, Handoff.State.setProducer, hsame, Function.update_eq_self]

/-- A worker that goes on serving, or holding its request, has not moved. -/
theorem handoff_setWorker_of_eq {w : ℕ} {p p' : Worker} (hw : s.workers w = p)
    (hp : p'.consumer = p.consumer) : handoff (s.setWorker w p') = handoff s := by
  have hsame : p'.consumer = (handoff s).workers w := by
    rw [hp, ← hw]
    rfl
  rw [handoff_setWorker, Handoff.State.setWorker, hsame, Function.update_eq_self]

theorem handoff_dropHandle (s : State) (c : ℕ) (runtime : Bool) :
    handoff (s.dropHandle c runtime) = handoff s := by
  rw [State.dropHandle]
  split
  · split <;> rfl
  · rfl
  · rfl
  · rfl

theorem handoff_foldl_dropResult (s : State) (results : List Result) :
    handoff (results.foldl State.dropResult s) = handoff s := by
  rw [foldl_dropResult_eq]
  rfl

theorem handoff_deliverNext (s : State) (i : ℕ) (result : Result) :
    handoff (deliverNext s i result) = handoff s := by
  rw [deliverNext_eq]
  rfl

theorem producer_of_call {i : ℕ} {c : Caller} (hi : s.calls i = c) :
    (handoff s).producers i = c.producer := by
  rw [← hi]
  rfl

theorem consumer_of_worker {w : ℕ} {p : Worker} (hw : s.workers w = p) :
    (handoff s).workers w = p.consumer := by
  rw [← hw]
  rfl

/-- In the protocol the step is one step, or is not seen. -/
def Follows (s : State) (a : Action) : Prop :=
  handoff (next s a) = handoff s ∨
    ∃ b, Handoff.Enabled (handoff s) b ∧ handoff (next s a) = Handoff.next (handoff s) b

theorem follows_push {i : ℕ} (ha : Enabled s (.push i)) :
    Follows s (.push i) := by
  refine Or.inr ⟨.push i i, producer_of_call ha, ?_⟩
  have hset := handoff_setCall s i .flagging
  exact congrArg (fun u : Handoff.State ℕ ℕ ℕ =>
    { u with queue := s.queue ++ [i], pushed := s.pushed ++ [i] }) hset

/-- The call that finds the flag down is the one to spawn a worker. -/
theorem follows_flagWorker {i : ℕ} (ha : Enabled s (.flagWorker i)) :
    Follows s (.flagWorker i) := by
  refine Or.inr ⟨.flag i, producer_of_call ha, ?_⟩
  rw [next, Handoff.next]
  by_cases hactive : s.queueWorkerActive = true
  · have hactive' : (handoff s).active = true := hactive
    rw [if_pos hactive, if_pos hactive']
    exact handoff_setCall s i .waiting
  · have hactive' : ¬(handoff s).active = true := hactive
    rw [if_neg hactive, if_neg hactive']
    exact congrArg (fun u : Handoff.State ℕ ℕ ℕ => { u with active := true })
      (handoff_setCall s i .spawning)

theorem follows_spawn (h : Roster s) {i : ℕ} (ha : Enabled s (.spawn i)) :
    Follows s (.spawn i) := by
  refine Or.inr ⟨.spawn i s.workerCount,
    ⟨producer_of_call ha, consumer_of_worker (h.workers _ (le_refl _))⟩, ?_⟩
  change handoff ((s.setCall i .waiting).setWorker s.workerCount .loading) = _
  rw [handoff_setWorker, handoff_setCall]
  rfl

/-- A result that nobody waits for any more is dropped. -/
theorem follows_abandonWait {i : ℕ} (ha : Enabled s (.abandonWait i)) :
    Follows s (.abandonWait i) := by
  left
  have hsame := sameRoster_foldl_dropResult
    { s with inbox := Function.update s.inbox i [] } (s.inbox i)
  have hcalls := congrFun hsame.1 i
  have hfold := handoff_foldl_dropResult
    { s with inbox := Function.update s.inbox i [] } (s.inbox i)
  refine Eq.trans ?_ hfold
  rcases ha with hi | hi
  · exact handoff_setCall_of_eq (hcalls.trans hi) rfl
  · exact handoff_setCall_of_eq (hcalls.trans hi) rfl

/-- Finding the queue empty is no step of the protocol. It is on the way out. -/
theorem follows_pop {w current : ℕ} (ha : Enabled s (.pop w current)) :
    Follows s (.pop w current) := by
  rw [Follows, next]
  cases hq : s.queue with
  | nil => exact Or.inl (handoff_setWorker_of_eq ha rfl)
  | cons i rest =>
    refine Or.inr ⟨.pop w i, ⟨consumer_of_worker ha, ?_⟩, ?_⟩
    · change s.queue.head? = some i
      rw [hq]
      rfl
    · have hset := congrArg (fun u : Handoff.State ℕ ℕ ℕ => { u with queue := rest })
        (handoff_setWorker s w (.claiming i current))
      have htail : (handoff s).queue.tail = rest := by
        change s.queue.tail = rest
        rw [hq]
        rfl
      rw [Handoff.next, htail]
      exact hset

theorem follows_idle {w : ℕ} (ha : Enabled s (.idle w)) :
    Follows s (.idle w) := by
  refine Or.inr ⟨.idle w, consumer_of_worker ha, ?_⟩
  exact congrArg (fun u : Handoff.State ℕ ℕ ℕ => { u with active := false })
    (handoff_setWorker s w .rechecking)

theorem follows_recheck {w : ℕ} (ha : Enabled s (.recheck w)) :
    Follows s (.recheck w) := by
  refine Or.inr ⟨.recheck w, consumer_of_worker ha, ?_⟩
  rw [next, handoff_setWorker, Handoff.next]
  congr 1
  change _ = if s.queue.isEmpty then _ else _
  by_cases hq : s.queue = []
  · rw [if_pos hq, if_pos (List.isEmpty_iff.mpr hq)]
    rfl
  · rw [if_neg hq, if_neg (by rwa [List.isEmpty_iff])]
    rfl

/-- A worker that has seen a request come in goes on if nobody else has raised the flag. -/
theorem follows_reflag {w : ℕ} (ha : Enabled s (.reflag w)) :
    Follows s (.reflag w) := by
  refine Or.inr ⟨.reflag w, consumer_of_worker ha, ?_⟩
  rw [next, Handoff.next]
  by_cases hactive : s.queueWorkerActive = true
  · have hactive' : (handoff s).active = true := hactive
    rw [if_pos hactive, if_pos hactive']
    exact handoff_setWorker s w .exited
  · have hactive' : ¬(handoff s).active = true := hactive
    rw [if_neg hactive, if_neg hactive']
    exact congrArg (fun u : Handoff.State ℕ ℕ ℕ => { u with active := true })
      (handoff_setWorker s w .loading)

/-- Serving a request is to win its claim. -/
theorem follows_workerClaim {w i current : ℕ} (ha : Enabled s (.workerClaim w i current)) :
    Follows s (.workerClaim w i current) := by
  rw [Follows, next]
  split
  · refine Or.inr ⟨.serve w i, consumer_of_worker ha, ?_⟩
    exact congrArg (fun u : Handoff.State ℕ ℕ ℕ => { u with served := s.popped ++ [i] })
      (handoff_setWorker (s.newClaim i current) w (.starting s.claimCount i))
  · exact Or.inl (handoff_setWorker_of_eq ha rfl)

/-- Parked or woken, a worker is serving. -/
theorem follows_noticeMax (s : State) :
    Follows s .noticeMax := by
  left
  have hworkers : (fun w => (if s.workers w = .parked then Worker.loading
      else s.workers w).consumer) = (handoff s).workers := by
    funext w
    change _ = (s.workers w).consumer
    by_cases hw : s.workers w = .parked
    · rw [if_pos hw, hw]
      rfl
    · rw [if_neg hw]
  exact congrArg (fun ws => ({ handoff s with workers := ws } : Handoff.State ℕ ℕ ℕ)) hworkers

/-- **Refinement.** In the protocol a step is one step, or is not seen. -/
theorem handoff_next (h : Roster s) {a : Action} (ha : Enabled s a) :
    handoff (next s a) = handoff s ∨
      ∃ b, Handoff.Enabled (handoff s) b ∧ handoff (next s a) = Handoff.next (handoff s) b := by
  change Follows s a
  cases a with
  | call => exact Or.inl (handoff_setCall_of_eq (h.calls _ (le_refl _)) rfl)
  | loadMax i => exact Or.inl (handoff_setCall_of_eq ha rfl)
  | loadCount i max =>
    refine Or.inl (handoff_setCall_of_eq ha ?_)
    split <;> rfl
  | claim i current =>
    have hi : (s.newClaim i current).calls i = .claiming current := ha
    rw [Follows, next]
    split
    · exact Or.inl (handoff_setCall_of_eq hi rfl)
    · exact Or.inl (handoff_setCall_of_eq ha rfl)
  | push i => exact follows_push ha
  | flagWorker i => exact follows_flagWorker ha
  | spawn i => exact follows_spawn h ha
  | finish i c result => exact Or.inl (handoff_setCall_of_eq ha.1 rfl)
  | receive i =>
    rw [Follows, next]
    split
    · exact Or.inl (handoff_setCall_of_eq ha.1 rfl)
    · exact Or.inl rfl
  | abandonStart i c =>
    have hi : (s.setClaim c { s.claims c with start := .cancelled }).calls i = .starting c := ha.1
    exact Or.inl (handoff_setCall_of_eq hi rfl)
  | abandonWait i => exact follows_abandonWait ha
  | workerLoadMax w => exact Or.inl (handoff_setWorker_of_eq ha rfl)
  | workerLoadCount w max =>
    refine Or.inl (handoff_setWorker_of_eq ha ?_)
    split <;> rfl
  | park w =>
    rw [Follows, next]
    split
    · exact Or.inl (handoff_setWorker_of_eq ha rfl)
    · exact Or.inl (handoff_setWorker_of_eq ha rfl)
  | pop w current => exact follows_pop ha
  | idle w => exact follows_idle ha
  | recheck w => exact follows_recheck ha
  | reflag w => exact follows_reflag ha
  | workerClaim w i current => exact follows_workerClaim ha
  | requeue w i =>
    refine Or.inr ⟨.putBack w i, consumer_of_worker ha, ?_⟩
    exact congrArg (fun u : Handoff.State ℕ ℕ ℕ => { u with queue := i :: s.queue })
      (handoff_setWorker s w .loading)
  | deliver w c i result =>
    left
    have hw := (congrFun (sameRoster_deliverNext s i result).2.2.1 w).trans ha.1
    refine Eq.trans ?_ (handoff_deliverNext s i result)
    exact handoff_setWorker_of_eq hw rfl
  | respond c reply => cases reply <;> exact Or.inl rfl
  | swap r =>
    rw [Follows, next, swapNext]
    split <;> exact Or.inl rfl
  | notify r woken =>
    cases woken with
    | none => exact Or.inl rfl
    | some w =>
      have hw : (s.setStage r .done).workers w = .parked := ha.2
      exact Or.inl (handoff_setWorker_of_eq hw rfl)
  | stop c =>
    rw [Follows, next, stopNext]
    split <;> exact Or.inl rfl
  | dropHandle c runtime => exact Or.inl (handoff_dropHandle s c runtime)
  | noticeMax => exact follows_noticeMax s
  | _ => exact Or.inl rfl

end

/-- Every run follows the protocol. -/
theorem exec_handoff {max : UInt32} {as : List Action} (hv : system.Valid (init max) as) :
    Handoff.Sound (handoff (system.exec (init max) as)) := by
  obtain ⟨bs, hbs, hexec⟩ := Transition.System.refines
    (A := (Handoff.system : Transition.System (Handoff.State ℕ ℕ ℕ) (Handoff.Action ℕ ℕ ℕ)))
    (fun s a (h : Roster s) ha => h.next ha) (fun _ _ h ha => handoff_next h ha)
    (roster_init max) hv
  rw [← hexec]
  exact Handoff.exec_sound Handoff.sound_init hbs

/-! ## Who looks after the queue -/

/-- The worker is in the loop of `process_queue`: it waits for a slot, pops, claims, or starts a
stream. -/
def Worker.isRunning : Worker → Bool
  | .unborn => false
  | .rechecking => false
  | .reflagging => false
  | .exited => false
  | _ => true

/-- The worker has stored `false` and has yet to look at the queue again, or to try to set the
flag. -/
def Worker.isLeaving : Worker → Bool
  | .rechecking => true
  | .reflagging => true
  | _ => false

/-- Who holds `queue_worker_active`: the call whose compare-and-swap has succeeded, until it spawns
a worker, or a running worker. -/
def State.HoldsFlag (s : State) : ℕ ⊕ ℕ → Prop
  | .inl i => s.calls i = .spawning
  | .inr w => (s.workers w).isRunning = true

theorem holdsFlag_iff {s : State} {x : ℕ ⊕ ℕ} : s.HoldsFlag x ↔ (handoff s).Holds x := by
  cases x with
  | inl i =>
    change s.calls i = .spawning ↔ (s.calls i).producer = .spawning
    cases s.calls i <;> simp [Caller.producer]
  | inr w =>
    change (s.workers w).isRunning = true ↔ (s.workers w).consumer.IsServing
    cases s.workers w <;> simp [Worker.isRunning, Worker.consumer, Handoff.Worker.IsServing]

/-- At most one worker is in its loop. -/
theorem running_unique {s : State} (hs : Handoff.Sound (handoff s)) {v w : ℕ}
    (hv : (s.workers v).isRunning = true) (hw : (s.workers w).isRunning = true) : v = w := by
  have hx : (handoff s).Holds (.inr v) := holdsFlag_iff.mp hv
  have hy : (handoff s).Holds (.inr w) := holdsFlag_iff.mp hw
  exact Sum.inr.inj (hs.exclusive.unique _ _ hx hy)

/-- **No queued request is stranded.** In every reachable state with a request in the queue,
`queue_worker_active` is true and held by exactly one worker, or by the call about to spawn one; or
a worker on its way out has yet to make up its mind; or a call has pushed and not yet done its
compare-and-swap. And at most one worker is in its loop. -/
theorem queue_not_stranded (max : UInt32) (as : List Action) (hv : system.Valid (init max) as) :
    let s := system.exec (init max) as
    (s.queue ≠ [] →
      (s.queueWorkerActive = true ∧ ∃! x, s.HoldsFlag x) ∨
        (∃ w, (s.workers w).isLeaving = true) ∨ ∃ i, s.calls i = .flagging) ∧
      ∀ w w', (s.workers w).isRunning = true → (s.workers w').isRunning = true → w = w' := by
  intro s
  have h : Handoff.Sound (handoff s) := exec_handoff hv
  refine ⟨fun hqueue => ?_, fun w w' hw hw' => ?_⟩
  · rcases h.attended hqueue with hactive | ⟨w, hw⟩ | ⟨i, hi⟩
    · obtain ⟨x, hx⟩ := h.exclusive.active.mp hactive
      refine Or.inl ⟨hactive, x, holdsFlag_iff.mpr hx, fun y hy => ?_⟩
      exact h.exclusive.unique y x (holdsFlag_iff.mp hy) hx
    · refine Or.inr (Or.inl ⟨w, ?_⟩)
      change (s.workers w).consumer.IsLeaving at hw
      generalize s.workers w = p at hw
      cases p with
      | rechecking => rfl
      | reflagging => rfl
      | _ => exact hw.elim
    · refine Or.inr (Or.inr ⟨i, ?_⟩)
      change (s.calls i).producer = .flagging at hi
      generalize s.calls i = c at hi
      cases c with
      | flagging => rfl
      | _ => cases hi
  · exact running_unique h hw hw'

/-- With no slot to be had, one call queues its request and spawns a worker, which waits; a second
call queues its own and has yet to look at the flag. -/
def twoQueued : List Action :=
  [.call, .loadMax 0, .loadCount 0 0, .push 0, .flagWorker 0, .spawn 0, .workerLoadMax 0,
    .workerLoadCount 0 0, .park 0, .call, .loadMax 1, .loadCount 1 0, .push 1]

theorem queue_not_stranded_twoQueued :
    (system.exec (init 0) twoQueued).queue = [0, 1] ∧
      (((system.exec (init 0) twoQueued).queueWorkerActive = true ∧
          ∃! x, (system.exec (init 0) twoQueued).HoldsFlag x) ∨
        (∃ w, ((system.exec (init 0) twoQueued).workers w).isLeaving = true) ∨
          ∃ i, (system.exec (init 0) twoQueued).calls i = .flagging) :=
  ⟨by decide, (queue_not_stranded 0 twoQueued (by decide)).1 (by decide)⟩

end Slots

end TitanClient
