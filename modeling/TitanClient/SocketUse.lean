import TitanClient.RequestIds

/-!
# What the loop does with a socket it has given up

`ws_stream` outlives the iteration in which it was found dead. When a dial fails the loop goes back
to its head, and `run_single_connection` runs again on the socket that was given up: it takes
requests from the channel and writes them there, until it notices once more.

An observer keeps account of the dials that succeeded and of whether `run_single_connection` has
returned for the last of these sockets. It takes no part: the observed runs are the runs of the
client (`observed_run`), so what `abandoned_socket_unused` says of them is said of the client.

## Main results

* `Fresh` — requests are only taken, encoded and written for the newest socket, before it is given
  up
* `Waits` — a request stays in the channel, unanswered, until then or until the loop exits
* `abandoned_socket_unused` — both hold as long as no request is there when a dial fails, and none
  comes while the loop runs on the old socket; nothing else is left out
* `abandoned_socket_written` — a request that waits while a dial fails
-/

namespace TitanClient

namespace Requests

variable {ρ β : Type}

/-- After the checks the loop backs off or is done. -/
theorem decideNext_eq (s : State ρ β) : ∃ attempt loop, (loop = .cleaning ∨ loop = .backoff) ∧
    decideNext s = { s with reconnectAttempt := attempt, loop := loop } := by
  rw [decideNext]
  split
  · exact ⟨s.reconnectAttempt, .cleaning, Or.inl rfl, rfl⟩
  · dsimp only
    split
    · exact ⟨_, .cleaning, Or.inl rfl, rfl⟩
    · exact ⟨_, .backoff, Or.inr rfl, rfl⟩

/-! ## The channel -/

/-- The loop has taken the request of call `i`. -/
def State.Taken (s : State ρ β) (i : ℕ) : Prop := i ∈ s.dequeued.map (·.responseTx)

/-- The sender of a request in the channel is nowhere else, and nothing was sent on it. Unlike
`Tokens` this needs no bound on the number of calls. -/
structure Queued (s : State ρ β) : Prop where
  nodup : ((s.dequeued ++ s.channel).map (·.responseTx)).Nodup
  entered : ∀ i ∈ (s.dequeued ++ s.channel).map (·.responseTx),
    (s.calls i).caller.isEarly = false ∧ (s.calls i).caller.isSending = false
  late : ∀ i, s.callCount ≤ i → (s.calls i).caller = .idle
  hand : ∀ r ∈ s.loop.inHand, r ∈ s.dequeued
  pending : ∀ id i, s.pending.lookup id = some i → s.Taken i
  answered : ∀ i, (s.calls i).answered ≠ [] → s.Taken i

theorem queued_init (max : Option ℕ) : Queued (init max : State ρ β) where
  nodup := List.nodup_nil
  entered := nofun
  late _ _ := rfl
  hand := nofun
  pending := nofun
  answered _ h := absurd rfl h

namespace Queued

variable {s t : State ρ β}

/-- A request in the channel has no answer. -/
theorem unanswered (h : Queued s) {r : PendingRequest ρ} (hr : r ∈ s.channel) :
    (s.calls r.responseTx).answered = [] := by
  by_contra hanswered
  have hnodup := h.nodup
  rw [List.map_append] at hnodup
  exact List.disjoint_of_nodup_append hnodup (h.answered _ hanswered)
    (List.mem_map_of_mem hr)

/-- A step that moves no caller and takes nothing from the channel. -/
theorem of_calls (h : Queued s) (hcount : t.callCount = s.callCount)
    (hcaller : ∀ i, (t.calls i).caller = (s.calls i).caller)
    (hanswered : ∀ i, (t.calls i).answered ≠ [] → (s.calls i).answered ≠ [] ∨ s.Taken i)
    (hchannel : t.channel.Sublist s.channel) (hdequeued : t.dequeued = s.dequeued)
    (hhand : ∀ r ∈ t.loop.inHand, r ∈ s.loop.inHand)
    (hpending : ∀ id i, t.pending.lookup id = some i →
      s.pending.lookup id = some i ∨ s.Taken i) : Queued t := by
  have htaken : ∀ {i}, s.Taken i → t.Taken i := by
    intro i hi
    rw [State.Taken, hdequeued]
    exact hi
  have hsub : ((t.dequeued ++ t.channel).map (·.responseTx)).Sublist
      ((s.dequeued ++ s.channel).map (·.responseTx)) := by
    rw [hdequeued]
    exact (hchannel.append_left _).map _
  refine ⟨h.nodup.sublist hsub, fun i hi => ?_, fun i hi => ?_, fun r hr => ?_, fun id i hi => ?_,
    fun i hi => ?_⟩
  · rw [hcaller]
    exact h.entered i (hsub.subset hi)
  · rw [hcaller]
    exact h.late i (hcount ▸ hi)
  · rw [hdequeued]
    exact h.hand r (hhand r hr)
  · rcases hpending id i hi with hlook | htook
    · exact htaken (h.pending id i hlook)
    · exact htaken htook
  · rcases hanswered i hi with hans | htook
    · exact htaken (h.answered i hans)
    · exact htaken htook

/-- A step that moves one caller. -/
theorem moveCaller (h : Queued s) {i : ℕ} {c : Caller ρ β}
    (hcalls : t.calls = (s.setCaller i c).calls) (hcount : s.callCount ≤ t.callCount)
    (hi : i < t.callCount) (hchannel : t.channel = s.channel) (hdequeued : t.dequeued = s.dequeued)
    (hloop : t.loop = s.loop) (hpending : t.pending = s.pending)
    (hc : (s.calls i).caller.isEarly = false → (s.calls i).caller.isSending = false →
      c.isEarly = false ∧ c.isSending = false) : Queued t := by
  have hcaller : ∀ j, (t.calls j).caller = if j = i then c else (s.calls j).caller := by
    intro j
    rw [hcalls, caller_setCaller]
  have hanswered : ∀ j, (t.calls j).answered = (s.calls j).answered := by
    intro j
    rw [hcalls]
    by_cases hji : j = i
    · simp [State.setCaller, hji]
    · simp [State.setCaller, hji]
  refine ⟨?_, fun j hj => ?_, fun j hj => ?_, fun r hr => ?_, fun id j hj => ?_, fun j hj => ?_⟩
  · rw [hdequeued, hchannel]
    exact h.nodup
  · rw [hdequeued, hchannel] at hj
    have hsent := h.entered j hj
    rw [hcaller]
    by_cases hji : j = i
    · rw [if_pos hji]
      exact hc (hji ▸ hsent.1) (hji ▸ hsent.2)
    · rw [if_neg hji]
      exact hsent
  · rw [hcaller, if_neg (by omega)]
    exact h.late j (by omega)
  · rw [hdequeued]
    exact h.hand r (hloop ▸ hr)
  · rw [State.Taken, hdequeued]
    exact h.pending id j (hpending ▸ hj)
  · rw [State.Taken, hdequeued]
    exact h.answered j (hanswered j ▸ hj)

/-- A caller that has entered is one of the calls made so far. -/
theorem lt_callCount (h : Queued s) {i : ℕ} (hi : (s.calls i).caller ≠ .idle) :
    i < s.callCount := by
  by_contra hlt
  exact hi (h.late i (Nat.not_lt.mp hlt))

/-- Completing an entry of the map answers a request that was taken. -/
theorem completePending (h : Queued s) (id : ℕ) (a : Answer β) :
    Queued (s.completePending id a) := by
  rw [State.completePending_eq]
  refine h.of_calls rfl (fun i => ?_) (fun i hi => ?_) (List.Sublist.refl _) rfl (fun r hr => hr)
    fun _ _ hj => Or.inl (Table.lookup_of_lookup_erase hj)
  · dsimp only
    split <;> rfl
  · dsimp only at hi
    split at hi
    · exact Or.inr (h.pending id i ‹_›)
    · exact Or.inl hi

theorem handleServerMessage (h : Queued s) (msg : ServerMessage β) :
    Queued (s.handleServerMessage msg) := by
  rcases s.handleServerMessage_eq msg with heq | ⟨id, result, -, -, heq⟩
  · rw [heq]
    exact h
  · rw [heq]
    exact h.completePending id _

theorem failPendingRequests (h : Queued s) (reason : String) :
    Queued (s.failPendingRequests reason) := by
  rw [State.failPendingRequests_eq]
  refine h.of_calls rfl (fun _ => rfl) (fun i hi => ?_) (List.Sublist.refl _) rfl (fun r hr => hr)
    nofun
  by_cases hcount : Table.count s.pending (· == i) = 0
  · dsimp only at hi
    rw [hcount, List.replicate_zero, List.append_nil] at hi
    exact Or.inl hi
  · obtain ⟨id, j, hlook, hj⟩ := Table.count_pos_iff.mp (Nat.pos_of_ne_zero hcount)
    obtain rfl : j = i := by simpa using hj
    exact Or.inr (h.pending id j hlook)

/-- The request at the head of the channel is taken. -/
theorem dequeue (h : Queued s) {r : PendingRequest ρ} {rest : List (PendingRequest ρ)}
    (hc : s.channel = r :: rest) : Queued (dequeueNext s) := by
  have hnext : dequeueNext s = { s with
      channel := rest
      requestIdCounter := wrap32 (max r.request.id s.requestIdCounter + 1)
      loop := .inserting r
      dequeued := s.dequeued ++ [r] } := by
    rw [dequeueNext]
    split
    · next hnil =>
      rw [hnil] at hc
      cases hc
    · next hcons =>
      rw [hcons] at hc
      cases hc
      rfl
  have hall : s.dequeued ++ [r] ++ rest = s.dequeued ++ s.channel := by
    rw [hc, List.append_assoc, List.singleton_append]
  have htaken : ∀ {i}, s.Taken i → i ∈ (s.dequeued ++ [r]).map (·.responseTx) := by
    intro i hi
    rw [List.map_append]
    exact List.mem_append_left _ hi
  rw [hnext]
  refine ⟨?_, ?_, h.late, fun q hq => ?_, fun id i hi => htaken (h.pending id i hi),
    fun i hi => htaken (h.answered i hi)⟩
  · dsimp only
    rw [hall]
    exact h.nodup
  · dsimp only
    rw [hall]
    exact h.entered
  · rw [List.mem_singleton.mp hq]
    exact List.mem_append_right _ List.mem_cons_self

/-- A request joins the channel. -/
theorem enqueue (h : Queued s) {i : ℕ} {request : ClientRequest ρ}
    (hi : (s.calls i).caller = .sending request) :
    Queued { s.setCaller i .waiting with channel := s.channel ++ [⟨request, i⟩] } := by
  have hmoved : Queued (s.setCaller i .waiting) :=
    h.moveCaller rfl (Nat.le_refl _) (h.lt_callCount (by rw [hi]; nofun)) rfl rfl rfl rfl
      fun _ _ => ⟨rfl, rfl⟩
  have hnot : i ∉ (s.dequeued ++ s.channel).map (·.responseTx) := by
    intro hmem
    have hsent := (h.entered i hmem).2
    rw [hi] at hsent
    cases hsent
  have hall : (s.dequeued ++ (s.channel ++ [(⟨request, i⟩ : PendingRequest ρ)])).map
      (·.responseTx) = (s.dequeued ++ s.channel).map (·.responseTx) ++ [i] := by
    rw [← List.append_assoc, List.map_append, List.map_singleton]
  refine ⟨?_, fun j hj => ?_, hmoved.late, hmoved.hand, hmoved.pending, hmoved.answered⟩
  · refine hall ▸ List.Nodup.append h.nodup (List.nodup_singleton i) ?_
    exact List.disjoint_singleton.mpr hnot
  · rcases List.mem_append.mp (hall ▸ hj) with hj | hj
    · exact hmoved.entered j hj
    · obtain rfl := List.mem_singleton.mp hj
      change ((s.setCaller j .waiting).calls j).caller.isEarly = false ∧
        ((s.setCaller j .waiting).calls j).caller.isSending = false
      rw [caller_setCaller, if_pos rfl]
      exact ⟨rfl, rfl⟩

/-- Where the loop stands matters for the request in hand only. -/
theorem of_same {t : State ρ β} (h : Queued s) (hcalls : t.calls = s.calls)
    (hcount : t.callCount = s.callCount) (hchannel : t.channel = s.channel)
    (hdequeued : t.dequeued = s.dequeued) (hpending : t.pending = s.pending)
    (hhand : ∀ r ∈ t.loop.inHand, r ∈ s.loop.inHand) : Queued t := by
  refine h.of_calls hcount (fun i => by rw [hcalls]) (fun i hi => ?_)
    (by rw [hchannel]) hdequeued hhand fun id i hi => ?_
  · exact Or.inl (hcalls ▸ hi)
  · exact Or.inl (hpending ▸ hi)

/-- The loop lays down the request in hand. -/
theorem layDown {t : State ρ β} (h : Queued s) (hcalls : t.calls = s.calls)
    (hcount : t.callCount = s.callCount) (hchannel : t.channel = s.channel)
    (hdequeued : t.dequeued = s.dequeued) (hpending : t.pending = s.pending)
    (hhand : t.loop.inHand = []) : Queued t := by
  refine h.of_same hcalls hcount hchannel hdequeued hpending fun r hr => ?_
  rw [hhand] at hr
  cases hr

/-- **The channel.** What is queued is unspent. -/
theorem next {a : Action ρ β} (h : Queued s) (ha : Enabled s a) : Queued (Requests.next s a) := by
  have hmove : ∀ {i : ℕ} {c : Caller ρ β}, (s.calls i).caller ≠ .idle →
      ((s.calls i).caller.isEarly = false → (s.calls i).caller.isSending = false →
        c.isEarly = false ∧ c.isSending = false) → Queued (s.setCaller i c) :=
    fun hi hc => h.moveCaller rfl (Nat.le_refl _) (h.lt_callCount hi) rfl rfl rfl rfl hc
  cases a with
  | call data =>
    refine h.moveCaller rfl (Nat.le_succ _) (Nat.lt_succ_self _) rfl rfl rfl rfl fun hearly => ?_
    rw [h.late _ (Nat.le_refl _)] at hearly
    cases hearly
  | check i data =>
    have hi : (s.calls i).caller = .entered data := ha
    rw [Requests.next]
    split
    · exact hmove (by rw [hi]; simp) fun _ _ => ⟨rfl, rfl⟩
    · exact hmove (by rw [hi]; simp) fun hearly => by rw [hi] at hearly; cases hearly
  | allocate i data =>
    have hi : (s.calls i).caller = .checked data := ha
    refine h.moveCaller rfl (Nat.le_refl _) (h.lt_callCount (by rw [hi]; simp)) rfl rfl rfl rfl
      fun hearly => ?_
    rw [hi] at hearly
    cases hearly
  | enqueue i request =>
    have hi : (s.calls i).caller = .sending request := ha.1
    rw [Requests.next]
    split
    · exact hmove (by rw [hi]; simp) fun _ _ => ⟨rfl, rfl⟩
    · exact h.enqueue hi
  | receive i =>
    have hi : (s.calls i).caller = .waiting := ha.1
    exact hmove (by rw [hi]; simp) fun _ _ => ⟨rfl, rfl⟩
  | abandon i => exact hmove ha.1 fun _ _ => ⟨rfl, rfl⟩
  | dequeue =>
    obtain ⟨r, rest, hc⟩ := List.exists_cons_of_ne_nil ha.2
    exact h.dequeue hc
  | insert r =>
    have hloop : s.loop = .inserting r := ha
    refine h.of_calls rfl (fun _ => rfl) (fun i hi => Or.inl hi) (List.Sublist.refl _) rfl
      (fun q hq => by rw [hloop]; exact hq) fun id i hi => ?_
    by_cases hid : id = r.request.id
    · subst hid
      have hlook : (s.pending.insert r.request.id r.responseTx).lookup r.request.id = some i := hi
      rw [AList.lookup_insert] at hlook
      cases hlook
      exact Or.inr (List.mem_map_of_mem (h.hand r (by rw [hloop]; exact List.mem_cons_self)))
    · have hlook : (s.pending.insert r.request.id r.responseTx).lookup id = some i := hi
      rw [AList.lookup_insert_ne hid] at hlook
      exact Or.inl hlook
  | encode r error =>
    have hloop : s.loop = .encoding r := ha
    cases error with
    | none => exact h.of_same rfl rfl rfl rfl rfl fun q hq => by rw [hloop]; exact hq
    | some e =>
      have hdone := h.completePending r.request.id ⟨.unexpected s!"Encode failed: {e}", none⟩
      exact hdone.layDown rfl rfl rfl rfl rfl rfl
  | write r error =>
    cases error with
    | none => exact h.layDown rfl rfl rfl rfl rfl rfl
    | some e =>
      have hdone := h.completePending r.request.id ⟨.connectionClosed s!"Send failed: {e}", none⟩
      exact hdone.layDown rfl rfl rfl rfl rfl rfl
  | read msg => exact h.handleServerMessage msg
  | failPending reason =>
    have hdone := h.failPendingRequests reason
    exact hdone.layDown rfl rfl rfl rfl rfl rfl
  | decide =>
    obtain ⟨attempt, loop, hto, hnext⟩ := decideNext_eq s
    rw [Requests.next, hnext]
    rcases hto with rfl | rfl
    · exact h.layDown rfl rfl rfl rfl rfl rfl
    · exact h.layDown rfl rfl rfl rfl rfl rfl
  | dial connected => cases connected <;> exact h.layDown rfl rfl rfl rfl rfl rfl
  | resumeRead msg => exact h.handleServerMessage msg
  | cleanup =>
    have hdone := h.failPendingRequests "Connection closed"
    exact hdone.layDown rfl rfl rfl rfl rfl rfl
  | exit =>
    refine h.of_calls rfl (fun i => ?_) (fun i hi => ?_) (List.nil_sublist _) rfl
      (by rintro _ ⟨⟩) fun id i hi => Or.inl hi
    · simp only [Requests.next, State.dropReceiver]
      split <;> rfl
    · simp only [Requests.next, State.dropReceiver] at hi
      split at hi <;> exact Or.inl hi
  | leaveShutdown => exact h.layDown rfl rfl rfl rfl rfl rfl
  | leaveChannelClosed => exact h.layDown rfl rfl rfl rfl rfl rfl
  | leaveLost reason => exact h.layDown rfl rfl rfl rfl rfl rfl
  | resumed => exact h.layDown rfl rfl rfl rfl rfl rfl
  | cancel => exact h.of_same rfl rfl rfl rfl rfl fun r hr => hr
  | dropConnection => exact h.of_same rfl rfl rfl rfl rfl fun r hr => hr
  | resumeWrite error => exact h.of_same rfl rfl rfl rfl rfl fun r hr => hr

end Queued

/-! ## The observer -/

/-- How many dials have succeeded since `connect`, and whether `run_single_connection` has returned
for the socket of the last one. -/
structure Account where
  dials : ℕ := 0
  abandoned : Bool := false
  deriving DecidableEq

/-- Keeping account of a step. -/
def Account.see (_ : State ρ β) (o : Account) : Action ρ β → Account
  | .dial true => ⟨o.dials + 1, false⟩
  | .leaveShutdown => { o with abandoned := true }
  | .leaveChannelClosed => { o with abandoned := true }
  | .leaveLost _ => { o with abandoned := true }
  | _ => o

/-- The system under observation. -/
def observed (ρ β : Type) : Transition.System (State ρ β × Account) (Action ρ β) :=
  (system ρ β).observe Account.see

instance [DecidableEq ρ] [DecidableEq β] (u : State ρ β × Account) (a : Action ρ β) :
    Decidable ((observed ρ β).Enabled u a) := inferInstanceAs (Decidable (Enabled u.1 a))

/-- The observed runs are the runs of the client. -/
theorem observed_run (s : State ρ β) (o : Account) (as : List (Action ρ β)) :
    ((observed ρ β).Valid (s, o) as ↔ (system ρ β).Valid s as) ∧
      ((observed ρ β).exec (s, o) as).1 = (system ρ β).exec s as :=
  ⟨Transition.System.observe_valid, Transition.System.observe_exec _ as⟩

/-- The socket is the one of the last successful dial, and it is not given up. -/
def Current (u : State ρ β × Account) : Prop := u.1.socket = u.2.dials ∧ u.2.abandoned = false

/-- The step takes a request from the channel, or goes on with it. -/
def Action.handlesRequest : Action ρ β → Bool
  | .dequeue => true
  | .insert _ => true
  | .encode _ _ => true
  | .write _ _ => true
  | _ => false

/-- The loop handles requests for the newest socket only, before that is given up. -/
def Fresh (u : State ρ β × Account) (a : Action ρ β) : Prop := a.handlesRequest = true → Current u

instance (u : State ρ β × Account) (a : Action ρ β) : Decidable (Fresh u a) :=
  inferInstanceAs (Decidable (_ → _ ∧ _))

/-- A request in the channel is unanswered after the step, and it is still there unless the newest
socket has it now or the loop exits. -/
def Waits (u : State ρ β × Account) (a : Action ρ β) : Prop :=
  ∀ r ∈ u.1.channel, ((next u.1 a).calls r.responseTx).answered = [] ∧
    (r ∈ (next u.1 a).channel ∨ a = .dequeue ∧ Current u ∨ a = .exit)

/-- No request is in the channel when a dial fails, and none comes while the loop runs on a socket
that it has given up. -/
def Calm (u : State ρ β × Account) : Action ρ β → Prop
  | .dial false => u.1.channel = []
  | .enqueue _ _ => u.2.abandoned = true → u.1.loop ≠ .serving
  | _ => True

instance [DecidableEq ρ] (u : State ρ β × Account) (a : Action ρ β) : Decidable (Calm u a) :=
  match a with
  | .dial false => inferInstanceAs (Decidable (_ = _))
  | .enqueue _ _ => inferInstanceAs (Decidable (_ → ¬_ = _))
  | .dial true | .call _ | .check _ _ | .allocate _ _ | .receive _ | .abandon _ | .cancel
  | .dropConnection | .dequeue | .insert _ | .encode _ _ | .write _ _ | .read _ | .leaveShutdown
  | .leaveChannelClosed | .leaveLost _ | .failPending _ | .decide | .resumeWrite _
  | .resumeRead _ | .resumed | .cleanup | .exit => isTrue trivial

/-- `run_single_connection` has returned, and there is no new connection yet. -/
def Loop.isLost : Loop ρ → Bool
  | .left _ => true
  | .failed => true
  | .backoff => true
  | _ => false

/-- What is known of the sockets of a calm run. -/
structure Settled (u : State ρ β × Account) : Prop where
  queued : Queued u.1
  phases : Phases u.1
  socket : u.1.socket = u.2.dials
  hand : u.1.loop.inHand ≠ [] → u.2.abandoned = false
  resuming : u.1.loop = .resuming → u.2.abandoned = false
  lost : u.1.loop.isLost = true → u.2.abandoned = true
  drained : u.2.abandoned = true → u.1.loop = .serving → u.1.channel = []

theorem settled_init (max : Option ℕ) : Settled ((init max : State ρ β), ({} : Account)) where
  queued := queued_init max
  phases := phases_init max
  socket := rfl
  hand _ := rfl
  resuming _ := rfl
  lost := nofun
  drained := nofun

section

variable {u : State ρ β × Account} {a : Action ρ β}

/-- A step that handles a request is one for the newest socket. -/
theorem Settled.fresh (h : Settled u) (ha : Enabled u.1 a) : Fresh u a := by
  intro hhandles
  refine ⟨h.socket, ?_⟩
  cases a with
  | dequeue =>
    obtain ⟨hloop, hchannel⟩ := ha
    by_contra habandoned
    exact hchannel (h.drained (by simpa using habandoned) hloop)
  | insert r =>
    have hloop : u.1.loop = .inserting r := ha
    exact h.hand (by rw [hloop]; nofun)
  | encode r error =>
    have hloop : u.1.loop = .encoding r := ha
    exact h.hand (by rw [hloop]; nofun)
  | write r error =>
    have hloop : u.1.loop = .writing r := ha
    exact h.hand (by rw [hloop]; nofun)
  | _ => cases hhandles

/-- Answering requests is not seen here. -/
theorem handleServerMessage_loop (s : State ρ β) (msg : ServerMessage β) :
    (s.handleServerMessage msg).loop = s.loop ∧ (s.handleServerMessage msg).socket = s.socket ∧
      (s.handleServerMessage msg).channel = s.channel := by
  rcases s.handleServerMessage_eq msg with heq | ⟨id, result, -, -, heq⟩
  · rw [heq]
    exact ⟨rfl, rfl, rfl⟩
  · rw [heq, State.completePending_eq]
    exact ⟨rfl, rfl, rfl⟩

/-- The channel loses requests to the loop only. -/
theorem channel_next (s : State ρ β) :
    s.channel ⊆ (next s a).channel ∨ a = .dequeue ∨ a = .exit := by
  cases a with
  | check i data =>
    rw [next]
    split <;> exact Or.inl (List.Subset.refl _)
  | enqueue i request =>
    rw [next]
    split
    · exact Or.inl (List.Subset.refl _)
    · exact Or.inl (List.subset_append_left _ _)
  | dequeue => exact Or.inr (Or.inl rfl)
  | exit => exact Or.inr (Or.inr rfl)
  | encode r error =>
    cases error with
    | none => exact Or.inl (List.Subset.refl _)
    | some e =>
      rw [next, State.completePending_eq]
      exact Or.inl (List.Subset.refl _)
  | write r error =>
    cases error with
    | none => exact Or.inl (List.Subset.refl _)
    | some e =>
      rw [next, State.completePending_eq]
      exact Or.inl (List.Subset.refl _)
  | read msg =>
    rw [next, (handleServerMessage_loop s msg).2.2]
    exact Or.inl (List.Subset.refl _)
  | resumeRead msg =>
    rw [next, (handleServerMessage_loop s msg).2.2]
    exact Or.inl (List.Subset.refl _)
  | failPending reason =>
    rw [next, State.failPendingRequests_eq]
    exact Or.inl (List.Subset.refl _)
  | cleanup =>
    rw [next, State.failPendingRequests_eq]
    exact Or.inl (List.Subset.refl _)
  | decide =>
    obtain ⟨attempt, loop, -, hnext⟩ := decideNext_eq s
    rw [next, hnext]
    exact Or.inl (List.Subset.refl _)
  | dial connected => cases connected <;> exact Or.inl (List.Subset.refl _)
  | _ => exact Or.inl (List.Subset.refl _)

/-- A request that waits is not answered. -/
theorem Settled.waits (h : Settled u) (ha : Enabled u.1 a) : Waits u a := by
  intro r hr
  rcases channel_next (a := a) u.1 with hsub | rfl | rfl
  · exact ⟨(h.queued.next ha).unanswered (hsub hr), Or.inl (hsub hr)⟩
  · refine ⟨?_, Or.inr (Or.inl ⟨rfl, h.fresh ha rfl⟩)⟩
    obtain ⟨q, rest, hc⟩ := List.exists_cons_of_ne_nil ha.2
    rw [next, dequeueNext]
    split <;> exact h.queued.unanswered hr
  · refine ⟨?_, Or.inr (Or.inr rfl)⟩
    simp only [next, State.dropReceiver]
    split <;> exact h.queued.unanswered hr

section

variable {v : State ρ β × Account}

/-- A step that leaves loop and socket alone. -/
theorem Settled.still (h : Settled u) (hqueued : Queued v.1) (hphases : Phases v.1)
    (hloop : v.1.loop = u.1.loop) (hsocket : v.1.socket = u.1.socket) (haccount : v.2 = u.2)
    (hchannel : v.1.channel = u.1.channel ∨ (u.2.abandoned = true → u.1.loop ≠ .serving)) :
    Settled v := by
  refine ⟨hqueued, hphases, by rw [hsocket, haccount, h.socket], fun hh => ?_, fun hr => ?_,
    fun hl => ?_, fun hab hs => ?_⟩
  · exact haccount ▸ h.hand (hloop ▸ hh)
  · exact haccount ▸ h.resuming (hloop ▸ hr)
  · exact haccount ▸ h.lost (hloop ▸ hl)
  · rw [haccount] at hab
    rw [hloop] at hs
    rcases hchannel with hc | hno
    · exact hc.trans (h.drained hab hs)
    · exact absurd hs (hno hab)

/-- A step of the loop while the socket is alive. -/
theorem Settled.alive (h : Settled u) (hqueued : Queued v.1) (hphases : Phases v.1)
    (hab : u.2.abandoned = false) (haccount : v.2 = u.2) (hsocket : v.1.socket = u.1.socket)
    (hlost : v.1.loop.isLost = false) : Settled v := by
  have halive : v.2.abandoned = false := by rw [haccount, hab]
  refine ⟨hqueued, hphases, by rw [hsocket, haccount, h.socket], fun _ => halive, fun _ => halive,
    fun hl => ?_, fun hab' => ?_⟩
  · cases hlost.symm.trans hl
  · cases halive.symm.trans hab'

/-- A step of the loop that leads out of the request arm and of the resumption. -/
theorem Settled.leave (h : Settled u) (hqueued : Queued v.1) (hphases : Phases v.1)
    (hdials : v.2.dials = u.2.dials) (hsocket : v.1.socket = u.1.socket)
    (hhand : v.1.loop.inHand = []) (hresuming : v.1.loop ≠ .resuming)
    (hserving : v.1.loop ≠ .serving)
    (hlost : v.1.loop.isLost = true → v.2.abandoned = true) : Settled v :=
  ⟨hqueued, hphases, hsocket.trans (h.socket.trans hdials.symm), fun hh => absurd hhand hh,
    fun hr => absurd hr hresuming, hlost, fun _ hs => absurd hs hserving⟩

end

/-- **One step** of a calm run. -/
theorem Settled.next (h : Settled u) (hcalm : Calm u a) (ha : Enabled u.1 a) :
    Settled (Requests.next u.1 a, Account.see u.1 u.2 a) := by
  have hqueued := h.queued.next ha
  have hphases := phases_next h.phases ha
  cases a with
  | call data => exact h.still hqueued hphases rfl rfl rfl (Or.inl rfl)
  | check i data =>
    have hloop : (Requests.next u.1 (.check i data)).loop = u.1.loop ∧
        (Requests.next u.1 (.check i data)).socket = u.1.socket ∧
        (Requests.next u.1 (.check i data)).channel = u.1.channel := by
      rw [Requests.next]
      split <;> exact ⟨rfl, rfl, rfl⟩
    exact h.still hqueued hphases hloop.1 hloop.2.1 rfl (Or.inl hloop.2.2)
  | enqueue i request =>
    have hloop : (Requests.next u.1 (.enqueue i request)).loop = u.1.loop ∧
        (Requests.next u.1 (.enqueue i request)).socket = u.1.socket := by
      rw [Requests.next]
      split <;> exact ⟨rfl, rfl⟩
    exact h.still hqueued hphases hloop.1 hloop.2 rfl (Or.inr hcalm)
  | allocate i data => exact h.still hqueued hphases rfl rfl rfl (Or.inl rfl)
  | receive i => exact h.still hqueued hphases rfl rfl rfl (Or.inl rfl)
  | abandon i => exact h.still hqueued hphases rfl rfl rfl (Or.inl rfl)
  | cancel => exact h.still hqueued hphases rfl rfl rfl (Or.inl rfl)
  | dropConnection => exact h.still hqueued hphases rfl rfl rfl (Or.inl rfl)
  | dequeue =>
    obtain ⟨r, rest, hc⟩ := List.exists_cons_of_ne_nil ha.2
    have hloop : (dequeueNext u.1).socket = u.1.socket ∧ (dequeueNext u.1).loop.isLost = false := by
      rw [dequeueNext, hc]
      exact ⟨rfl, rfl⟩
    exact h.alive hqueued hphases (h.fresh ha rfl).2 rfl hloop.1 hloop.2
  | insert r => exact h.alive hqueued hphases (h.fresh ha rfl).2 rfl rfl rfl
  | encode r error =>
    cases error with
    | none => exact h.alive hqueued hphases (h.fresh ha rfl).2 rfl rfl rfl
    | some e =>
      refine h.alive hqueued hphases (h.fresh ha rfl).2 rfl ?_ rfl
      rw [Requests.next, State.completePending_eq]
  | write r error =>
    cases error with
    | none => exact h.alive hqueued hphases (h.fresh ha rfl).2 rfl rfl rfl
    | some e =>
      refine h.alive hqueued hphases (h.fresh ha rfl).2 rfl ?_ rfl
      rw [Requests.next, State.completePending_eq]
  | read msg =>
    obtain ⟨hloop, hsocket, hchannel⟩ := handleServerMessage_loop u.1 msg
    exact h.still hqueued hphases hloop hsocket rfl (Or.inl hchannel)
  | leaveShutdown =>
    exact h.leave hqueued hphases rfl rfl rfl (by rintro ⟨⟩) (by rintro ⟨⟩) fun _ => rfl
  | leaveChannelClosed =>
    exact h.leave hqueued hphases rfl rfl rfl (by rintro ⟨⟩) (by rintro ⟨⟩) fun _ => rfl
  | leaveLost reason =>
    exact h.leave hqueued hphases rfl rfl rfl (by rintro ⟨⟩) (by rintro ⟨⟩) fun _ => rfl
  | failPending reason =>
    have hloop : u.1.loop = .left reason := ha
    refine h.leave hqueued hphases rfl ?_ rfl (by rintro ⟨⟩) (by rintro ⟨⟩) fun _ =>
      h.lost (by rw [hloop]; rfl)
    rw [Requests.next, State.failPendingRequests_eq]
  | decide =>
    have hloop : u.1.loop = .failed := ha
    have hab := h.lost (by rw [hloop]; rfl)
    obtain ⟨attempt, loop, hto, hnext⟩ := decideNext_eq u.1
    have hq : Queued (decideNext u.1) := hqueued
    have hp : Phases (decideNext u.1) := hphases
    rw [hnext] at hq hp
    change Settled (decideNext u.1, u.2)
    rw [hnext]
    rcases hto with rfl | rfl
    · exact ⟨hq, hp, h.socket, fun hh => absurd rfl hh, by rintro ⟨⟩, fun _ => hab, by rintro - ⟨⟩⟩
    · exact ⟨hq, hp, h.socket, fun hh => absurd rfl hh, by rintro ⟨⟩, fun _ => hab, by rintro - ⟨⟩⟩
  | dial connected =>
    have hloop : u.1.loop = .backoff := ha
    cases connected with
    | true =>
      exact ⟨hqueued, hphases, congrArg (· + 1) h.socket, fun _ => rfl, fun _ => rfl,
        by rintro ⟨⟩, by rintro ⟨⟩⟩
    | false =>
      exact ⟨hqueued, hphases, h.socket, fun hh => absurd rfl hh, by rintro ⟨⟩, by rintro ⟨⟩,
        fun _ _ => hcalm⟩
  | resumeWrite error => exact h.still hqueued hphases rfl rfl rfl (Or.inl rfl)
  | resumeRead msg =>
    obtain ⟨hloop, hsocket, hchannel⟩ := handleServerMessage_loop u.1 msg
    exact h.still hqueued hphases hloop hsocket rfl (Or.inl hchannel)
  | resumed => exact h.alive hqueued hphases (h.resuming ha) rfl rfl rfl
  | cleanup =>
    refine h.leave hqueued hphases rfl ?_ rfl (by rintro ⟨⟩) (by rintro ⟨⟩) (by rintro ⟨⟩)
    rw [Requests.next, State.failPendingRequests_eq]
  | exit => exact h.leave hqueued hphases rfl rfl rfl (by rintro ⟨⟩) (by rintro ⟨⟩) (by rintro ⟨⟩)

/-- **Nothing else is left out.** A step that is not calm lets the loop take a request for a socket
that it has given up. -/
theorem Settled.stale (h : Settled u) (ha : Enabled u.1 a) (hcalm : ¬Calm u a) :
    Enabled (Requests.next u.1 a) .dequeue ∧
      ¬Fresh (Requests.next u.1 a, Account.see u.1 u.2 a) .dequeue := by
  cases a with
  | enqueue i request =>
    obtain ⟨hab, hserving⟩ := Classical.not_imp.mp hcalm
    have hloop : u.1.loop = .serving := not_not.mp hserving
    have hopen : u.1.receiverDropped = false := by
      by_contra hdropped
      have hexited := h.phases.receiver.mp (by simpa using hdropped)
      cases hloop.symm.trans hexited
    have hnext : Requests.next u.1 (.enqueue i request) = { u.1.setCaller i .waiting with
        channel := u.1.channel ++ [⟨request, i⟩] } := by
      rw [Requests.next, hopen]
      rfl
    refine ⟨?_, fun hfresh => ?_⟩
    · rw [hnext]
      exact ⟨hloop, List.append_ne_nil_of_right_ne_nil _ (List.cons_ne_nil _ _)⟩
    · cases hab.symm.trans (hfresh rfl).2
  | dial connected =>
    cases connected with
    | true => exact absurd trivial hcalm
    | false =>
      have hloop : u.1.loop = .backoff := ha
      refine ⟨⟨rfl, hcalm⟩, fun hfresh => ?_⟩
      cases (h.lost (by rw [hloop]; rfl)).symm.trans (hfresh rfl).2
  | _ => exact absurd trivial hcalm

end

/-! ## Every run -/

/-- **No request for a socket that was given up.** In a calm run the loop takes, encodes and writes
requests only for the newest socket and before `run_single_connection` has returned for it, and a
request in the channel waits for that or for the loop's exit. After a step that is not calm the next
one can be wrong. -/
theorem abandoned_socket_unused (max : Option ℕ) (as : List (Action ρ β))
    (hv : (observed ρ β).Valid (init max, {}) as)
    (hcalm : (observed ρ β).Along Calm (init max, {}) as) :
    (observed ρ β).Along (fun u a => Fresh u a ∧ Waits u a) (init max, {}) as ∧
      ∀ a, (observed ρ β).Enabled ((observed ρ β).exec (init max, {}) as) a →
        ¬Calm ((observed ρ β).exec (init max, {}) as) a →
        let u := (observed ρ β).next ((observed ρ β).exec (init max, {}) as) a
        (observed ρ β).Enabled u .dequeue ∧ ¬Fresh u .dequeue := by
  have hsettled : Settled ((observed ρ β).exec (init max, {}) as) :=
    Transition.System.invariant_along (fun u a h hc ha => h.next hc ha) (settled_init max) hcalm hv
  refine ⟨?_, fun a ha hno => hsettled.stale ha hno⟩
  exact Transition.System.along_of_invariant (I := Settled) (fun u a h hc ha => h.next hc ha)
    (fun u a h _ ha => ⟨h.fresh ha, h.waits ha⟩) (settled_init max) hcalm hv

/-- The connection is lost, and `run_single_connection` returns. -/
def lostConnection : List (Action ℕ ℕ) :=
  [.leaveLost "Pong timeout", .failPending "Pong timeout", .decide]

/-- A request arrives. -/
def requestTen : List (Action ℕ ℕ) :=
  [.call 10, .check 0 10, .allocate 0 10, .enqueue 0 ⟨1, 10⟩]

/-- The loop takes it and writes it. -/
def servedTen : List (Action ℕ ℕ) :=
  [.dequeue, .insert ⟨⟨1, 10⟩, 0⟩, .encode ⟨⟨1, 10⟩, 0⟩ none, .write ⟨⟨1, 10⟩, 0⟩ none]

/-- A dial fails, a request arrives during the next backoff, and the next dial succeeds. -/
def patientRun : List (Action ℕ ℕ) :=
  lostConnection ++ [.dial false] ++ lostConnection ++ requestTen ++ [.dial true, .resumed] ++
    servedTen

theorem abandoned_socket_unused_patientRun :
    (observed ℕ ℕ).Along (fun u a => Fresh u a ∧ Waits u a) (init none, {}) patientRun ∧
      ((observed ℕ ℕ).exec (init none, {}) patientRun).1.written = [⟨1, 2, 1, some 0⟩] :=
  ⟨(abandoned_socket_unused none patientRun (by decide) (by decide)).1, by decide⟩

/-- A request arrives during the backoff, and the dial fails. -/
def hastyRun : List (Action ℕ ℕ) := lostConnection ++ requestTen ++ [.dial false] ++ servedTen

/-- **Written where nobody listens.** The request goes out on the socket that was given up, where
the write still succeeds. -/
theorem abandoned_socket_written :
    (observed ℕ ℕ).Valid (init none, {}) hastyRun ∧
      ¬(observed ℕ ℕ).Along Fresh (init none, {}) hastyRun ∧
      ((observed ℕ ℕ).exec (init none, {}) hastyRun).2 = ⟨0, true⟩ ∧
      ((observed ℕ ℕ).exec (init none, {}) hastyRun).1.written = [⟨0, 1, 1, some 0⟩] := by
  decide

end Requests

end TitanClient
