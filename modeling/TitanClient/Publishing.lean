import TitanClient.Requests

/-!
# Publishing the connection state

Everything that publishes a `ConnectionState`: the end of `connect`, the loop
`run_connection_loop_with_reconnect` with the exits of `run_single_connection`, and `shutdown`.
There are nine publishing sites. Eight of them use `send`, which stores nothing while there is no
receiver; `connect` uses `send_replace`.

The model starts when `connect` has spawned the loop, with the receiver that `connect` itself holds
until it returns.

## Steps

A step is one access to the watch channel or to the shutdown token, or one await that resolves.
Receivers come and go at any time after `connect` has returned.

## Bookkeeping

`intended` is the last status that the loop or `shutdown` has set out to publish, `log` has what
anybody has, with its author, and `up` tells whether the loop has a connection that it has not lost:
the first one, or one that it has dialled. No step reads them.
-/

namespace TitanClient

/-- tokio's `watch` channel: the value, and how many receivers there are. -/
structure Watch (α : Type) where
  value : α
  receivers : ℕ

namespace Watch

variable {α : Type} (w : Watch α)

/-- `Sender::send` stores the value only if there is a receiver. -/
def send (v : α) : Watch α := if w.receivers = 0 then w else { w with value := v }

/-- `Sender::send_replace` always stores it. -/
def sendReplace (v : α) : Watch α := { w with value := v }

/-- `Sender::subscribe`. -/
def subscribe : Watch α := { w with receivers := w.receivers + 1 }

/-- Dropping a receiver. -/
def dropReceiver : Watch α := { w with receivers := w.receivers - 1 }

@[simp] theorem send_receivers (v : α) : (w.send v).receivers = w.receivers := by
  rw [send]
  split <;> rfl

variable {w}

theorem send_value {v : α} (h : 0 < w.receivers) : (w.send v).value = v := by
  rw [send, if_neg (Nat.ne_of_gt h)]

theorem send_value_of_none {v : α} (h : w.receivers = 0) : (w.send v).value = w.value := by
  rw [send, if_pos h]

end Watch

namespace Publishing

/-- `ConnectionState`. -/
inductive ConnectionState
  | connected
  | reconnecting (attempt : ℕ)
  | disconnected (reason : String)
  deriving DecidableEq

/-- Why `run_single_connection` gives a connection up. -/
inductive Loss
  | closed (frame : Option String)
  | error (text : String)
  | pongTimeout
  | pingFailed (text : String)
  deriving DecidableEq

/-- The reason it publishes and returns. -/
def Loss.reason : Loss → String
  | .closed none => "Server closed connection"
  | .closed (some reason) => reason
  | .error text => "WebSocket error: " ++ text
  | .pongTimeout => "Pong timeout"
  | .pingFailed text => "Failed to send ping: " ++ text

/-- Where `connect` stands. -/
inductive Connect
  | spawned
  | published
  | returned
  deriving DecidableEq

/-- Where the loop stands. After `run_single_connection` has returned it looks at the shutdown token
(`left`), at the request channel (`checked`) and at the number of attempts (`deciding`); `dialed` is
before the new connection is announced, `cleaning` after the loop. -/
inductive Loop
  | serving
  | left (reason : String)
  | checked (reason : String)
  | deciding (reason : String)
  | backoff
  | dialing
  | dialed
  | resuming
  | cleaning
  | exited
  deriving DecidableEq

/-- The loop is over. -/
def Loop.isOver : Loop → Bool
  | .cleaning => true
  | .exited => true
  | _ => false

/-- Where a call of `shutdown` stands: stopping the streams, or between the cancellation of the
token and the publication. -/
inductive Shutdown
  | idle
  | stopping
  | cancelled
  | done
  deriving DecidableEq

/-- Who publishes. -/
inductive Author
  | connect
  | loop
  | shutdown
  deriving DecidableEq

/-- The watch channel, the shutdown token and the tasks around them. -/
structure State where
  cell : Watch ConnectionState := ⟨.disconnected "Connecting...", 1⟩
  connect : Connect := .spawned
  loop : Loop := .serving
  reconnectAttempt : ℕ := 0
  maxReconnectAttempts : Option ℕ
  cancelled : Bool := false
  dropped : Bool := false
  shutdowns : ℕ → Shutdown := fun _ => .idle
  shutdownCount : ℕ := 0
  intended : ConnectionState := .connected
  log : List (Author × ConnectionState) := []
  up : Bool := true

/-- The state right after the loop was spawned, for the given `max_reconnect_attempts`. -/
def init (maxReconnectAttempts : Option ℕ) : State :=
  { maxReconnectAttempts := maxReconnectAttempts }

namespace State

variable (s : State)

/-- `state_tx.send`, by the loop or by `shutdown`. -/
def publish (author : Author) (status : ConnectionState) : State :=
  { s with
    cell := s.cell.send status
    intended := status
    log := s.log ++ [(author, status)] }

/-- `Connection::state`. -/
def state : ConnectionState := s.cell.value

/-- The first value that a receiver sees which `state_receiver` returns now. -/
def firstSeen : ConnectionState := s.cell.subscribe.value

end State

/-- The steps of `connect`, of the owner of the `Connection`, of the calls of `shutdown` and of the
loop. -/
inductive Action
  | connectPublish
  | connectReturn
  | subscribe
  | dropReceiver
  | dropConnection
  | shutdown
  | cancel (k : ℕ)
  | publishShutdown (k : ℕ)
  | abandonShutdown (k : ℕ)
  | lose (loss : Loss)
  | leaveShutdown
  | leaveChannelClosed
  | checkShutdown (reason : String)
  | checkClosed (reason : String)
  | announce (reason : String)
  | wake
  | dial (connected : Bool)
  | publishConnected
  | resumed
  | exit
  deriving DecidableEq

/-- When a step can be taken. -/
def Enabled (s : State) : Action → Prop
  | .connectPublish => s.connect = .spawned
  | .connectReturn => s.connect = .published
  | .subscribe => s.connect = .returned ∧ s.dropped = false
  | .dropReceiver => s.connect = .returned ∧ 0 < s.cell.receivers
  | .dropConnection => s.connect = .returned ∧
      ∀ k < s.shutdownCount, s.shutdowns k ≠ .stopping ∧ s.shutdowns k ≠ .cancelled
  | .shutdown => s.connect = .returned ∧ s.dropped = false
  | .cancel k => s.shutdowns k = .stopping
  | .publishShutdown k => s.shutdowns k = .cancelled
  | .abandonShutdown k => s.shutdowns k = .stopping
  | .lose _ => s.loop = .serving
  | .leaveShutdown => s.loop = .serving ∧ s.cancelled = true
  | .leaveChannelClosed => s.loop = .serving ∧ s.dropped = true
  | .checkShutdown reason => s.loop = .left reason
  | .checkClosed reason => s.loop = .checked reason
  | .announce reason => s.loop = .deciding reason
  | .wake => s.loop = .backoff
  | .dial _ => s.loop = .dialing
  | .publishConnected => s.loop = .dialed
  | .resumed => s.loop = .resuming
  | .exit => s.loop = .cleaning

instance (s : State) (a : Action) : Decidable (Enabled s a) :=
  match a with
  | .connectPublish => inferInstanceAs (Decidable (_ = _))
  | .connectReturn => inferInstanceAs (Decidable (_ = _))
  | .subscribe => inferInstanceAs (Decidable (_ ∧ _))
  | .dropReceiver => inferInstanceAs (Decidable (_ ∧ _))
  | .dropConnection => inferInstanceAs (Decidable (_ ∧ ∀ k < s.shutdownCount, _))
  | .shutdown => inferInstanceAs (Decidable (_ ∧ _))
  | .cancel _ => inferInstanceAs (Decidable (_ = _))
  | .publishShutdown _ => inferInstanceAs (Decidable (_ = _))
  | .abandonShutdown _ => inferInstanceAs (Decidable (_ = _))
  | .lose _ => inferInstanceAs (Decidable (_ = _))
  | .leaveShutdown => inferInstanceAs (Decidable (_ ∧ _))
  | .leaveChannelClosed => inferInstanceAs (Decidable (_ ∧ _))
  | .checkShutdown _ => inferInstanceAs (Decidable (_ = _))
  | .checkClosed _ => inferInstanceAs (Decidable (_ = _))
  | .announce _ => inferInstanceAs (Decidable (_ = _))
  | .wake => inferInstanceAs (Decidable (_ = _))
  | .dial _ => inferInstanceAs (Decidable (_ = _))
  | .publishConnected => inferInstanceAs (Decidable (_ = _))
  | .resumed => inferInstanceAs (Decidable (_ = _))
  | .exit => inferInstanceAs (Decidable (_ = _))

/-- Counting the attempt, and then giving up or backing off. -/
def announceNext (s : State) (reason : String) : State :=
  let attempt := wrap32 (s.reconnectAttempt + 1)
  if s.maxReconnectAttempts.any (attempt > ·) then
    { s.publish .loop
        (.disconnected ("Max reconnect attempts reached. Last error: " ++ reason)) with
      reconnectAttempt := attempt
      loop := .cleaning
      up := false }
  else
    { s.publish .loop (.reconnecting attempt) with
      reconnectAttempt := attempt
      loop := .backoff
      up := false }

/-- The state after a step. -/
def next (s : State) : Action → State
  | .connectPublish =>
    { s with
      cell := s.cell.sendReplace .connected
      connect := .published
      log := s.log ++ [(.connect, .connected)] }
  | .connectReturn => { s with cell := s.cell.dropReceiver, connect := .returned }
  | .subscribe => { s with cell := s.cell.subscribe }
  | .dropReceiver => { s with cell := s.cell.dropReceiver }
  | .dropConnection => { s with dropped := true }
  | .shutdown =>
    { s with
      shutdowns := Function.update s.shutdowns s.shutdownCount .stopping
      shutdownCount := s.shutdownCount + 1 }
  | .cancel k => { s with cancelled := true, shutdowns := Function.update s.shutdowns k .cancelled }
  | .publishShutdown k =>
    { s.publish .shutdown (.disconnected "Client shutdown") with
      shutdowns := Function.update s.shutdowns k .done }
  | .abandonShutdown k => { s with shutdowns := Function.update s.shutdowns k .done }
  | .lose loss =>
    { s.publish .loop (.disconnected loss.reason) with loop := .left loss.reason, up := false }
  | .leaveShutdown => { s with loop := .left "Client shutdown" }
  | .leaveChannelClosed => { s with loop := .left "Request channel closed" }
  | .checkShutdown reason => { s with loop := if s.cancelled then .cleaning else .checked reason }
  | .checkClosed reason => { s with loop := if s.dropped then .cleaning else .deciding reason }
  | .announce reason => announceNext s reason
  | .wake => { s with loop := .dialing }
  | .dial true => { s with reconnectAttempt := 0, loop := .dialed, up := true }
  | .dial false => { s with loop := .serving }
  | .publishConnected => { s.publish .loop .connected with loop := .resuming }
  | .resumed => { s with loop := .serving }
  | .exit => { s with loop := .exited }

/-- `connect`, `shutdown`, the owners of receivers and the loop, as one system. -/
def system : Transition.System State Action := ⟨Enabled, next⟩

instance (s : State) (a : Action) : Decidable (system.Enabled s a) :=
  inferInstanceAs (Decidable (Enabled s a))

/-- What the loop or `shutdown` publishes in a step. -/
def Action.status (s : State) : Action → Option ConnectionState
  | .publishShutdown _ => some (.disconnected "Client shutdown")
  | .lose loss => some (.disconnected loss.reason)
  | .announce reason => some (announceNext s reason).intended
  | .publishConnected => some .connected
  | _ => none

end Publishing

end TitanClient
