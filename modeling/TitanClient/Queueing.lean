import TitanClient.FairLock
import TitanClient.Lifecycle

/-!
# The lock of the map and the look at the token

`Lifecycle` says when the map may be read and written, and not who comes first. `tokio`'s lock is
fair: whoever cannot have it at once waits in a queue that is served from its front, so a reader
does not overtake a writer who waits. And `send_request` looks at the shutdown token once, before it
takes a place in the request channel; a sender that has found the token uncancelled and waits for
room is refused only when the channel is closed. Both decide who waits for whom, and with them on
top of it the client of `Lifecycle` is the client of the source.

## The parties

A lock knows its tasks by name. The loop is one of them, and so are the task of each start, whoever
runs the stop sequence of a stream, its adapter task, and the tasks that shut the client down. A
party stands with one leg in `Lifecycle`, where its position says what it needs next (`need`), and
with the other here, where its `Phase` says whether it has asked for that.

## Steps

A step of `Lifecycle` that touches the map is taken by a party that holds the lock (`Ready`). The
lock goes back with the step, unless the loop keeps it: for reading while it waits for room in a raw
channel, for writing between taking an entry out and putting it back. Once the loop has a frame in
its hands that needs the lock, it takes no other step.

A party at `resuming` needs the lock only for an entry that it gives up, since the stream has ended
or the request could not be written; asking for it is the decision.

## What is left out

The lock of the pending requests, which nobody holds across an await; and futures that are dropped
in the queue, as everywhere in `Lifecycle`.

## Main results

* `client_run`, `exec_client` — a run here is a run of `Lifecycle`, so that whatever holds of those
  holds here
-/

namespace TitanClient

namespace Queueing

open FairLock (Lock Mode Serves)

/-! ## Parties -/

/-- Who takes the lock of the map, and who sends requests. -/
inductive Party
  | loop
  | start (i : ℕ)
  | stopper (i : ℕ)
  | adapter (i : ℕ)
  | task (t : ℕ)
  deriving DecidableEq

/-- Where a party stands with the lock. It is `admitted` when it has a request to send and has found
the token uncancelled. -/
inductive Phase
  | free
  | waiting (m : Mode)
  | holding (m : Mode)
  | admitted
  deriving DecidableEq

namespace Phase

/-- How it holds the lock. -/
def holds : Phase → Option Mode
  | .holding m => some m
  | _ => none

/-- How it waits for the lock. -/
def waits : Phase → Option Mode
  | .waiting m => some m
  | _ => none

end Phase

/-- Whose step it is. The calls of owners and the steps of the server are nobody's. -/
def party : Lifecycle.Action → Option Party
  | .request i => some (.start i)
  | .refused i => some (.start i)
  | .receive i _ _ => some (.start i)
  | .register i _ => some (.start i)
  | .fail i => some (.start i)
  | .stopLoad i => some (.stopper i)
  | .stopReload i _ => some (.stopper i)
  | .stopRequest i _ _ => some (.stopper i)
  | .stopRefused i _ _ => some (.stopper i)
  | .stopReceive i _ _ => some (.stopper i)
  | .stopUnregister i _ _ => some (.stopper i)
  | .stopRelease i => some (.stopper i)
  | .adapterRecv i => some (.adapter i)
  | .adapterForward i _ => some (.adapter i)
  | .adapterFail i _ => some (.adapter i)
  | .adapterLoad i => some (.adapter i)
  | .adapterUnregister i _ => some (.adapter i)
  | .adapterEnd i => some (.adapter i)
  | .collect t _ => some (.task t)
  | .shutdownRequest t _ _ => some (.task t)
  | .shutdownRefused t _ _ => some (.task t)
  | .shutdownReceive t _ _ => some (.task t)
  | .clear t => some (.task t)
  | .cancel t => some (.task t)
  | .dequeue _ => some .loop
  | .read _ _ => some .loop
  | .sendRaw _ _ _ => some .loop
  | .leave => some .loop
  | .decide _ => some .loop
  | .dial _ => some .loop
  | .snapshot _ => some .loop
  | .resume _ _ _ _ => some .loop
  | .resumeLost _ _ _ _ => some .loop
  | .store _ _ _ => some .loop
  | .insert _ _ _ => some .loop
  | .resumed => some .loop
  | .cleanup => some .loop
  | _ => none

/-! ## What a party needs -/

/-- How a frame that is read needs the map: `handle_server_message` reads it for data and writes to
it for the end of a stream, `resume_streams` writes to it with its own answer. -/
def frameNeeds : Lifecycle.Reading → Lifecycle.Message → Option Mode
  | _, .data _ _ => some .read
  | _, .ended _ => some .write
  | .resuming _ _ ticket _, .response t _ => if t = ticket then some .write else none
  | .resuming _ _ ticket _, .error t => if t = ticket then some .write else none
  | _, _ => none

/-- How the loop needs the map, or has it. -/
def loopNeeds (wire : List Lifecycle.Message) : Lifecycle.Loop → Option Mode
  | .reading r => wire.head?.bind (frameNeeds r)
  | .sending _ _ _ => some .read
  | .snapshotting => some .read
  | .resuming (_ :: _) => some .write
  | .storing _ _ _ => some .write
  | .inserting _ _ _ => some .write
  | .cleaning => some .write
  | _ => none

def startNeeds : Lifecycle.Start → Option Mode
  | .registering _ => some .write
  | _ => none

def stopperNeeds : Lifecycle.Stopper → Option Mode
  | .unregistering _ => some .write
  | _ => none

def adapterNeeds : Lifecycle.Adapter → Option Mode
  | .unregistering _ => some .write
  | _ => none

def taskNeeds : Lifecycle.Task → Option Mode
  | .collecting => some .read
  | .clearing => some .write
  | _ => none

/-- How a party needs the map for what it does next. -/
def need (s : Lifecycle.State) : Party → Option Mode
  | .loop => loopNeeds s.wire s.loop
  | .start i => startNeeds (s.streams i).start
  | .stopper i => stopperNeeds (s.streams i).stopper
  | .adapter i => adapterNeeds (s.streams i).adapter
  | .task t => taskNeeds (s.tasks t)

/-- The party has a request to send. -/
def Sends (s : Lifecycle.State) : Party → Prop
  | .start i => (s.streams i).start = .requesting
  | .stopper i => ∃ ids, (s.streams i).stopper = .requesting ids
  | .task t => ∃ ids, s.tasks t = .requesting ids
  | _ => False

instance (s : Lifecycle.State) (p : Party) : Decidable (Sends s p) :=
  match p with
  | .loop => isFalse id
  | .start _ => inferInstanceAs (Decidable (_ = _))
  | .stopper i =>
    match h : (s.streams i).stopper with
    | .requesting ids => isTrue ⟨ids, h⟩
    | .idle | .loading | .loaded _ | .awaiting _ _ | .unregistering _ | .releasing | .done =>
      isFalse fun ⟨_, hids⟩ => by cases h.symm.trans hids
  | .adapter _ => isFalse id
  | .task t =>
    match h : s.tasks t with
    | .requesting ids => isTrue ⟨ids, h⟩
    | .idle | .stopping _ | .collecting | .awaiting _ _ | .clearing | .cancelling =>
      isFalse fun ⟨_, hids⟩ => by cases h.symm.trans hids

/-- What a step is about. -/
inductive Use
  | nothing
  | lock
  | request
  | refusal
  deriving DecidableEq

/-- A step touches the map, sends a request, is the refusal of one, or does neither. -/
def use (s : Lifecycle.State) : Lifecycle.Action → Use
  | .request _ => .request
  | .stopRequest _ _ _ => .request
  | .shutdownRequest _ _ _ => .request
  | .refused _ => .refusal
  | .stopRefused _ _ _ => .refusal
  | .shutdownRefused _ _ _ => .refusal
  | .register _ _ => .lock
  | .stopUnregister _ _ _ => .lock
  | .adapterUnregister _ _ => .lock
  | .collect _ _ => .lock
  | .clear _ => .lock
  | .read r m => if frameNeeds r m = none then .nothing else .lock
  | .sendRaw _ _ _ => .lock
  | .snapshot _ => .lock
  | .resume _ i _ sent => if s.isEnded i ∨ sent = false then .lock else .nothing
  | .store _ _ _ => .lock
  | .insert _ _ _ => .lock
  | .cleanup => .lock
  | _ => .nothing

/-! ## State -/

/-- The client, the lock of its map, and where each party stands with it. -/
structure State where
  client : Lifecycle.State := Lifecycle.init
  lock : Lock Party := {}
  phases : Party → Phase := fun _ => .free

/-- The state after `connect`. -/
def init : State := {}

/-- The party goes on under the lock. -/
def keeps (s : Lifecycle.State) : Party → Bool
  | .loop => !s.loop.isUnlocked
  | _ => false

namespace State

variable (s : State)

/-- The party has the lock if it needs it, and has looked at the token if it sends. -/
def Ready (p : Party) : Use → Prop
  | .nothing => s.phases p = .free
  | .lock => (s.phases p).holds ≠ none
  | .request => s.phases p = .admitted
  | .refusal => s.phases p = .free ∧ s.client.shutdown = true ∨
      s.phases p = .admitted ∧ s.client.closed = true

instance (p : Party) (u : Use) : Decidable (s.Ready p u) :=
  match u with
  | .nothing => inferInstanceAs (Decidable (_ = _))
  | .lock => inferInstanceAs (Decidable (_ ≠ _))
  | .request => inferInstanceAs (Decidable (_ = _))
  | .refusal => inferInstanceAs (Decidable (_ ∧ _ ∨ _ ∧ _))

/-- A party moves to another phase. -/
def setPhase (p : Party) (ph : Phase) : State :=
  { s with phases := Function.update s.phases p ph }

/-- A party is done with the lock and with its request. -/
def leave (p : Party) : State :=
  match s.phases p with
  | .holding m => { s.setPhase p .free with lock := s.lock.release p m }
  | _ => s.setPhase p .free

/-- The client after one of its steps. -/
def step (a : Lifecycle.Action) : State :=
  let t : State := { s with client := Lifecycle.next s.client a }
  match party a with
  | none => t
  | some p => if keeps t.client p then t else t.leave p

end State

/-! ## Steps -/

/-- The steps of `Lifecycle`, and those of the lock: a party begins to wait, and the front of the
queue gets the lock. The look at the token comes before a request. -/
inductive Action
  | step (a : Lifecycle.Action)
  | ask (p : Party) (m : Mode)
  | grant (p : Party) (m : Mode)
  | look (p : Party)
  deriving DecidableEq

/-- When a step can be taken. -/
def Enabled (s : State) : Action → Prop
  | .step a => Lifecycle.Enabled s.client a ∧ ∀ p ∈ party a, s.Ready p (use s.client a)
  | .ask p m => need s.client p = some m ∧ s.phases p = .free
  | .grant p m => s.lock.queue.head? = some (p, m) ∧ s.lock.Admits m
  | .look p => Sends s.client p ∧ s.phases p = .free ∧ s.client.shutdown = false

instance (s : State) (a : Action) : Decidable (Enabled s a) :=
  match a with
  | .step _ => inferInstanceAs (Decidable (_ ∧ ∀ _ ∈ _, _))
  | .ask _ _ => inferInstanceAs (Decidable (_ ∧ _))
  | .grant _ _ => inferInstanceAs (Decidable (_ ∧ _))
  | .look _ => inferInstanceAs (Decidable (_ ∧ _ ∧ _))

/-- The state after a step. -/
def next (s : State) : Action → State
  | .step a => s.step a
  | .ask p m => { s.setPhase p (.waiting m) with lock := s.lock.enqueue p m }
  | .grant p m => { s.setPhase p (.holding m) with lock := s.lock.grant }
  | .look p => s.setPhase p .admitted

/-- The client with its lock and the server, as one system. -/
def system : Transition.System State Action := ⟨Enabled, next⟩

instance (s : State) (a : Action) : Decidable (system.Enabled s a) :=
  inferInstanceAs (Decidable (Enabled s a))

/-! ## The client underneath -/

/-- The steps of the client among these. -/
def Action.steps : Action → List Lifecycle.Action
  | .step a => [a]
  | _ => []

section

variable {s : State} {a : Action} {b : Lifecycle.Action} {p q : Party} {m : Mode} {ph : Phase}

@[simp] theorem State.leave_client (s : State) (p : Party) : (s.leave p).client = s.client := by
  rw [State.leave]
  split <;> rfl

@[simp] theorem State.step_client (s : State) (b : Lifecycle.Action) :
    (s.step b).client = Lifecycle.next s.client b := by
  rw [State.step]
  dsimp only
  split
  · rfl
  · split
    · rfl
    · rw [State.leave_client]

/-- **Refinement.** A run of the client with its lock is a run of `Lifecycle`. -/
theorem client_run {s : State} {as : List Action} (hv : system.Valid s as) :
    Lifecycle.system.Valid s.client (as.flatMap Action.steps) ∧
      (system.exec s as).client =
        Lifecycle.system.exec s.client (as.flatMap Action.steps) := by
  refine Transition.System.project (A := Lifecycle.system) State.client Action.steps
    (fun s a ha => ?_) hv
  cases a with
  | step b => exact ⟨⟨ha.1, trivial⟩, State.step_client s b⟩
  | ask p m => exact ⟨trivial, rfl⟩
  | grant p m => exact ⟨trivial, rfl⟩
  | look p => exact ⟨trivial, rfl⟩

end

/-- What holds of every reachable state of `Lifecycle` holds of the client here. -/
theorem exec_client {as : List Action} (hv : system.Valid init as) :
    ∃ bs, Lifecycle.system.Valid Lifecycle.init bs ∧
      (system.exec init as).client = Lifecycle.system.exec Lifecycle.init bs :=
  ⟨_, client_run hv⟩

end Queueing

end TitanClient
