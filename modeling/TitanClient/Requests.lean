import Mathlib.Algebra.Order.Ring.Nat
import TitanClient.Table
import TitanClient.Transition

/-!
# Requests and their answers

`Connection::send_request` on one side, and on the other side the background task
`run_connection_loop_with_reconnect` with the functions it calls. The two meet in the bounded
request channel, in `pending_requests`, and in one oneshot channel for each call.

Only what decides who gets which answer is here: the stream map is modelled elsewhere, so a
server message that is neither a `Response` nor an `Error` has no effect. One that carries data of a
stream may keep the loop waiting for room in the channel of that stream. That delays answers and
changes none of them; where it matters who waits for what, `Stalling` has it.

`request_id_counter` and `reconnect_attempt` are advanced with `+ 1`, and here they wrap, as they do
when the code is compiled without overflow checks. With them the task would panic at `u32::MAX`.

## Steps

A step is one atomic access, one operation under the lock of `pending_requests`, or one await
that resolves. The outcome of everything the client does not control is part of the action: what
the server sends, whether encoding, writing or dialling fails, and why a connection ends.

## Bookkeeping

Four fields record what happened and are read by no step: `issued` (the calls in the order of their
`fetch_add`), `dequeued` (what the loop took from the channel), `written` (the request frames put on
a socket) and `resumeCount`. The field `answered` of a call is the list of all values sent on its
oneshot channel; that it never holds two is a theorem, not a property of the type.
-/

namespace TitanClient

/-- The value of a `u32` after arithmetic that wraps. -/
def wrap32 (n : ℕ) : ℕ := n % 2 ^ 32

theorem wrap32_of_lt {n : ℕ} (h : n < 2 ^ 32) : wrap32 n = n := Nat.mod_eq_of_lt h

theorem wrap32_succ (n : ℕ) : wrap32 (wrap32 n + 1) = wrap32 (n + 1) := Nat.mod_add_mod ..

namespace Requests

variable {ρ β : Type}

/-! ## Messages -/

/-- A request frame: the id and the request data. -/
structure ClientRequest (ρ : Type) where
  id : ℕ
  data : ρ
  deriving DecidableEq

/-- `ServerMessage`; stream data, stream ends and unknown messages are `other`. -/
inductive ServerMessage (β : Type)
  | response (requestId : ℕ) (data : β)
  | error (requestId code : ℕ) (message : String)
  | other
  deriving DecidableEq

/-- `ResponseResult`, with the cases of `TitanClientError` that `send_request` can return.
`unexpected` carries the text of the `anyhow` error. -/
inductive ResponseResult (β : Type)
  | ok (requestId : ℕ) (data : β)
  | serverError (code : ℕ) (message : String)
  | connectionClosed (reason : String)
  | unexpected (text : String)
  deriving DecidableEq

/-- The id of the request a message answers. -/
def ServerMessage.requestId : ServerMessage β → Option ℕ
  | .response id _ => some id
  | .error id _ _ => some id
  | .other => none

/-- What `handle_server_message` sends on the response channel. -/
def ServerMessage.result : ServerMessage β → Option (ResponseResult β)
  | .response id data => some (.ok id data)
  | .error _ code message => some (.serverError code message)
  | .other => none

/-- A request in the channel. `responseTx` is the oneshot sender, named by the call that holds the
receiving end. -/
structure PendingRequest (ρ : Type) where
  request : ClientRequest ρ
  responseTx : ℕ
  deriving DecidableEq

/-- A value sent on a oneshot channel. `frame` is the server message it was made from and the run of
`run_single_connection` that read it; a local error has none. -/
structure Answer (β : Type) where
  result : ResponseResult β
  frame : Option (ServerMessage β × ℕ)
  deriving DecidableEq

/-! ## State -/

/-- Where a call of `send_request` stands. -/
inductive Caller (ρ β : Type)
  | idle
  | entered (data : ρ)
  | checked (data : ρ)
  | sending (request : ClientRequest ρ)
  | waiting
  | returned (result : ResponseResult β)
  | cancelled
  deriving DecidableEq

/-- The call has returned, or its future was dropped. -/
def Caller.isDone : Caller ρ β → Bool
  | .returned _ => true
  | .cancelled => true
  | _ => false

/-- One call: its position, the values sent on its oneshot channel, and whether the sender was
dropped unused. -/
structure Call (ρ β : Type) where
  caller : Caller ρ β := .idle
  answered : List (Answer β) := []
  txDropped : Bool := false

/-- Where `run_connection_loop_with_reconnect` stands. From `inserting` to `writing` it is inside
the request arm of `run_single_connection`; `left` is right after `run_single_connection`
returned. -/
inductive Loop (ρ : Type)
  | serving
  | inserting (pending : PendingRequest ρ)
  | encoding (pending : PendingRequest ρ)
  | writing (pending : PendingRequest ρ)
  | left (reason : String)
  | failed
  | backoff
  | resuming
  | cleaning
  | exiting
  | exited
  deriving DecidableEq

/-- A request frame on a socket. `call` is `none` for a resume request. -/
structure Written where
  socket : ℕ
  run : ℕ
  id : ℕ
  call : Option ℕ
  deriving DecidableEq

/-- The connection. `socket` numbers the successful dials and `run` the calls of
`run_single_connection`. -/
structure State (ρ β : Type) where
  nextId : ℕ := 1
  shutdown : Bool := false
  dropped : Bool := false
  calls : ℕ → Call ρ β := fun _ => {}
  callCount : ℕ := 0
  channel : List (PendingRequest ρ) := []
  receiverDropped : Bool := false
  pending : AList fun _ : ℕ => ℕ := ∅
  requestIdCounter : ℕ := 1
  reconnectAttempt : ℕ := 0
  maxReconnectAttempts : Option ℕ := none
  loop : Loop ρ := .serving
  socket : ℕ := 0
  run : ℕ := 0
  issued : List ℕ := []
  dequeued : List (PendingRequest ρ) := []
  written : List Written := []
  resumeCount : ℕ := 0

/-- The state after `connect`, for the given `max_reconnect_attempts`. -/
def init (maxReconnectAttempts : Option ℕ) : State ρ β :=
  { maxReconnectAttempts := maxReconnectAttempts }

namespace State

variable (s : State ρ β)

/-- Move a call to another position. -/
def setCaller (i : ℕ) (c : Caller ρ β) : State ρ β :=
  { s with calls := Function.update s.calls i { s.calls i with caller := c } }

/-- `tx.send(answer)` on the oneshot channel of call `i`. -/
def complete (i : ℕ) (a : Answer β) : State ρ β :=
  { s with
    calls := Function.update s.calls i
      { s.calls i with answered := (s.calls i).answered ++ [a] } }

/-- `if let Some(tx) = pending.remove(&id) { tx.send(answer) }`. -/
def completePending (id : ℕ) (a : Answer β) : State ρ β :=
  match s.pending.lookup id with
  | some i => { s with pending := s.pending.erase id }.complete i a
  | none => s

/-- `handle_server_message`, for the pending map. -/
def handleServerMessage (msg : ServerMessage β) : State ρ β :=
  match msg.requestId, msg.result with
  | some id, some result => s.completePending id ⟨result, some (msg, s.run)⟩
  | _, _ => s

/-- `fail_pending_requests`: drain the map, answering every entry with `ConnectionClosed`. -/
def failPendingRequests (reason : String) : State ρ β :=
  s.pending.entries.foldl (fun t e => t.complete e.2 ⟨.connectionClosed reason, none⟩)
    { s with pending := ∅ }

/-- Dropping `request_rx`: the requests still in the channel are dropped with their senders. -/
def dropReceiver : State ρ β :=
  { s with
    receiverDropped := true
    channel := []
    calls := fun i =>
      if i ∈ s.channel.map (·.responseTx) then { s.calls i with txDropped := true }
      else s.calls i }

/-- `completePending` as one record update: the entry leaves the map and its call gets the
answer. -/
theorem completePending_eq (id : ℕ) (a : Answer β) :
    s.completePending id a =
      { s with
        pending := s.pending.erase id
        calls := fun i =>
          if s.pending.lookup id = some i then
            { s.calls i with answered := (s.calls i).answered ++ [a] }
          else s.calls i } := by
  rw [completePending]
  cases h : s.pending.lookup id with
  | none => simp [Table.erase_of_lookup_eq_none h]
  | some i =>
    simp only [complete, Option.some.injEq]
    congr 1
    funext j
    by_cases hj : j = i
    · subst hj; simp
    · rw [Function.update_of_ne hj, if_neg (Ne.symm hj)]

private theorem foldl_complete (a : Answer β) (l : List (Sigma fun _ : ℕ => ℕ)) :
    l.foldl (fun t e => t.complete e.2 a) s =
      { s with
        calls := fun i =>
          { s.calls i with
            answered := (s.calls i).answered ++ List.replicate (l.countP (·.2 == i)) a } } := by
  induction l generalizing s with
  | nil => simp
  | cons e l ih =>
    rw [List.foldl_cons, ih]
    simp only [complete]
    congr 1
    funext i
    by_cases hi : i = e.2
    · subst hi; simp [List.replicate_succ]
    · simp [Function.update_of_ne hi, Ne.symm hi]

/-- Draining answers every entry of the map once. -/
theorem failPendingRequests_eq (reason : String) :
    s.failPendingRequests reason =
      { s with
        pending := ∅
        calls := fun i =>
          { s.calls i with
            answered := (s.calls i).answered ++
              List.replicate (Table.count s.pending (· == i))
                ⟨.connectionClosed reason, none⟩ } } :=
  foldl_complete _ _ _

/-- `handle_server_message` takes at most one entry out of the map. -/
theorem handleServerMessage_eq (msg : ServerMessage β) :
    s.handleServerMessage msg = s ∨ ∃ id result, msg.requestId = some id ∧
      msg.result = some result ∧
      s.handleServerMessage msg = s.completePending id ⟨result, some (msg, s.run)⟩ := by
  cases msg with
  | response id data => exact Or.inr ⟨id, _, rfl, rfl, rfl⟩
  | error id code message => exact Or.inr ⟨id, _, rfl, rfl, rfl⟩
  | other => exact Or.inl rfl

/-- No call is in progress, so the last owner may drop the `Connection`. -/
def Quiet : Prop := ∀ i < s.callCount, (s.calls i).caller.isDone = true

end State

/-! ## Steps -/

/-- The steps of callers (named by their number, with the data or request they hold), of the owner
of the `Connection`, and of the connection loop. An outcome `none` of an encode or write is
success. -/
inductive Action (ρ β : Type)
  | call (data : ρ)
  | check (i : ℕ) (data : ρ)
  | allocate (i : ℕ) (data : ρ)
  | enqueue (i : ℕ) (request : ClientRequest ρ)
  | receive (i : ℕ)
  | abandon (i : ℕ)
  | cancel
  | dropConnection
  | dequeue
  | insert (r : PendingRequest ρ)
  | encode (r : PendingRequest ρ) (error : Option String)
  | write (r : PendingRequest ρ) (error : Option String)
  | read (msg : ServerMessage β)
  | leaveShutdown
  | leaveChannelClosed
  | leaveLost (reason : String)
  | failPending (reason : String)
  | decide
  | dial (connected : Bool)
  | resumeWrite (error : Option String)
  | resumeRead (msg : ServerMessage β)
  | resumed
  | cleanup
  | exit
  deriving DecidableEq

/-- When a step can be taken. `leaveLost` covers the close frame, the read error, the pong timeout
and the failed ping, with whatever text they give. -/
def Enabled (s : State ρ β) : Action ρ β → Prop
  | .call _ => s.dropped = false
  | .check i data => (s.calls i).caller = .entered data
  | .allocate i data => (s.calls i).caller = .checked data
  | .enqueue i request =>
    (s.calls i).caller = .sending request ∧ (s.receiverDropped = true ∨ s.channel.length < 32)
  | .receive i =>
    (s.calls i).caller = .waiting ∧ ((s.calls i).answered ≠ [] ∨ (s.calls i).txDropped = true)
  | .abandon i => (s.calls i).caller ≠ .idle ∧ (s.calls i).caller.isDone = false
  | .cancel => True
  | .dropConnection => s.Quiet
  | .dequeue => s.loop = .serving ∧ s.channel ≠ []
  | .insert r => s.loop = .inserting r
  | .encode r _ => s.loop = .encoding r
  | .write r _ => s.loop = .writing r
  | .read _ => s.loop = .serving
  | .leaveShutdown => s.loop = .serving ∧ s.shutdown = true
  | .leaveChannelClosed => s.loop = .serving ∧ s.dropped = true ∧ s.channel = []
  | .leaveLost _ => s.loop = .serving
  | .failPending reason => s.loop = .left reason
  | .decide => s.loop = .failed
  | .dial _ => s.loop = .backoff
  | .resumeWrite _ => s.loop = .resuming
  | .resumeRead _ => s.loop = .resuming
  | .resumed => s.loop = .resuming
  | .cleanup => s.loop = .cleaning
  | .exit => s.loop = .exiting

instance [DecidableEq ρ] [DecidableEq β] (s : State ρ β) (a : Action ρ β) :
    Decidable (Enabled s a) :=
  match a with
  | .call _ => inferInstanceAs (Decidable (_ = _))
  | .check _ _ => inferInstanceAs (Decidable (_ = _))
  | .allocate _ _ => inferInstanceAs (Decidable (_ = _))
  | .enqueue _ _ => inferInstanceAs (Decidable (_ ∧ (_ ∨ _)))
  | .receive _ => inferInstanceAs (Decidable (_ ∧ (_ ∨ _)))
  | .abandon _ => inferInstanceAs (Decidable (_ ∧ _))
  | .cancel => inferInstanceAs (Decidable True)
  | .dropConnection => inferInstanceAs (Decidable (∀ i < s.callCount, _))
  | .dequeue => inferInstanceAs (Decidable (_ ∧ _))
  | .insert _ => inferInstanceAs (Decidable (_ = _))
  | .encode _ _ => inferInstanceAs (Decidable (_ = _))
  | .write _ _ => inferInstanceAs (Decidable (_ = _))
  | .read _ => inferInstanceAs (Decidable (_ = _))
  | .leaveShutdown => inferInstanceAs (Decidable (_ ∧ _))
  | .leaveChannelClosed => inferInstanceAs (Decidable (_ ∧ _ ∧ _))
  | .leaveLost _ => inferInstanceAs (Decidable (_ = _))
  | .failPending _ => inferInstanceAs (Decidable (_ = _))
  | .decide => inferInstanceAs (Decidable (_ = _))
  | .dial _ => inferInstanceAs (Decidable (_ = _))
  | .resumeWrite _ => inferInstanceAs (Decidable (_ = _))
  | .resumeRead _ => inferInstanceAs (Decidable (_ = _))
  | .resumed => inferInstanceAs (Decidable (_ = _))
  | .cleanup => inferInstanceAs (Decidable (_ = _))
  | .exit => inferInstanceAs (Decidable (_ = _))

/-- The checks after `fail_pending_requests`: shutdown, request channel closed, attempts used up. -/
def decideNext (s : State ρ β) : State ρ β :=
  if s.shutdown ∨ s.dropped then { s with loop := .cleaning }
  else
    let attempt := wrap32 (s.reconnectAttempt + 1)
    if s.maxReconnectAttempts.any (attempt > ·) then
      { s with reconnectAttempt := attempt, loop := .cleaning }
    else { s with reconnectAttempt := attempt, loop := .backoff }

/-- The request arm of `run_single_connection` up to the counter update. -/
def dequeueNext (s : State ρ β) : State ρ β :=
  match s.channel with
  | [] => s
  | r :: rest =>
    { s with
      channel := rest
      requestIdCounter := wrap32 (max r.request.id s.requestIdCounter + 1)
      loop := .inserting r
      dequeued := s.dequeued ++ [r] }

/-- The value `response_rx` resolves to, mapped as `send_request` maps it. -/
def Call.received (c : Call ρ β) : ResponseResult β :=
  match c.answered with
  | a :: _ => a.result
  | [] => .connectionClosed "Response channel closed"

/-- The state after a step. -/
def next (s : State ρ β) : Action ρ β → State ρ β
  | .call data => { s.setCaller s.callCount (.entered data) with callCount := s.callCount + 1 }
  | .check i data =>
    if s.shutdown then s.setCaller i (.returned (.connectionClosed "Client shutdown"))
    else s.setCaller i (.checked data)
  | .allocate i data =>
    { s.setCaller i (.sending ⟨s.nextId, data⟩) with
      nextId := wrap32 (s.nextId + 1)
      issued := s.issued ++ [i] }
  | .enqueue i request =>
    if s.receiverDropped then s.setCaller i (.returned (.connectionClosed "Connection closed"))
    else { s.setCaller i .waiting with channel := s.channel ++ [⟨request, i⟩] }
  | .receive i => s.setCaller i (.returned (s.calls i).received)
  | .abandon i => s.setCaller i .cancelled
  | .cancel => { s with shutdown := true }
  | .dropConnection => { s with dropped := true }
  | .dequeue => dequeueNext s
  | .insert r =>
    { s with pending := s.pending.insert r.request.id r.responseTx, loop := .encoding r }
  | .encode r none => { s with loop := .writing r }
  | .encode r (some e) =>
    { s.completePending r.request.id ⟨.unexpected s!"Encode failed: {e}", none⟩ with
      loop := .serving }
  | .write r none =>
    { s with
      loop := .serving
      written := s.written ++ [⟨s.socket, s.run, r.request.id, some r.responseTx⟩] }
  | .write r (some e) =>
    { s.completePending r.request.id ⟨.connectionClosed s!"Send failed: {e}", none⟩ with
      loop := .serving }
  | .read msg => s.handleServerMessage msg
  | .leaveShutdown => { s with loop := .left "Client shutdown" }
  | .leaveChannelClosed => { s with loop := .left "Request channel closed" }
  | .leaveLost reason => { s with loop := .left reason }
  | .failPending reason => { s.failPendingRequests reason with loop := .failed }
  | .decide => decideNext s
  | .dial true => { s with socket := s.socket + 1, reconnectAttempt := 0, loop := .resuming }
  | .dial false => { s with run := s.run + 1, loop := .serving }
  | .resumeWrite error =>
    { s with
      requestIdCounter := wrap32 (s.requestIdCounter + 1)
      resumeCount := s.resumeCount + 1
      written := if error.isNone then s.written ++ [⟨s.socket, s.run, s.requestIdCounter, none⟩]
        else s.written }
  | .resumeRead msg => s.handleServerMessage msg
  | .resumed => { s with run := s.run + 1, loop := .serving }
  | .cleanup => { s.failPendingRequests "Connection closed" with loop := .exiting }
  | .exit => { s.dropReceiver with loop := .exited }

/-- Callers, the owner of the `Connection` and the connection loop, as one system. -/
def system (ρ β : Type) : Transition.System (State ρ β) (Action ρ β) := ⟨Enabled, next⟩

instance [DecidableEq ρ] [DecidableEq β] (s : State ρ β) (a : Action ρ β) :
    Decidable ((system ρ β).Enabled s a) := inferInstanceAs (Decidable (Enabled s a))

end Requests

end TitanClient
