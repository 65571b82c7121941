import TitanClient.Table
import TitanClient.Transition

/-!
# The life of a stream

One client with all its streams, from the request that opens a stream to the removal of its entry
from `resumable_streams`: the tasks that run `start_stream_internal`, the adapter tasks, the owners
of the handles with `recv`, `stop` and `Connection::shutdown`, the cleanup tasks of dropped handles,
and the connection loop with `handle_server_message`, `resume_streams` and its final cleanup. On the
other side of the socket is a server.

A stream is named by a number, in the order in which starts claimed their slots. The number stands
for its request and for the cells its entry, its handle and its tasks share.

## Steps

A step is one atomic access, one operation under the lock of the map, or one await that resolves.
The loop keeps the read lock while it waits for room in a raw channel (`Loop.sending`), and the
write lock between taking an entry out for its new id and putting it back (`Loop.storing`,
`Loop.inserting`); nobody else can then write to the map. All other critical sections are single
steps.

What is not the client's is in the choice of the action: what the server answers and sends, whether
a request can be written, when the connection is lost, why the loop leaves it.

## The socket

`run_single_connection` returns for many reasons, and the socket is gone in only some of them. The
loop fails the requests it has written and keeps the socket; after a failed dial it serves the same
socket again. So what is on its way, and what is open on the server, stays there when the loop
leaves (`leave`), until a new connection takes the place of the old one (`dial true`), the task of
the loop returns (`cleanup`), `resume_streams` runs into the end of the socket (`resumeLost`), or
the connection breaks (`lose`), which may happen at any time. A request that has been given up may
still be carried out by the server, and its answer may still be read.

## What is left out

* A request carries a ticket, which stands for its request id. That an answer reaches the request
  whose id it carries is shown in `RequestAnswers`.
* A slot is given back in one step. That the counter follows the guard is shown in
  `SlotAccounting`.
* The last cleanup and the return of the task, which drops the socket, are one step.
* Who gets the lock of the map first, and when `send_request` looks at the token. A step under the
  lock asks only that the loop does not keep it, and a request is refused whenever the token is
  cancelled, so there are more runs here than the client has. `Queueing` adds the queue of the lock
  and the look at the token; its runs are among those here (`Queueing.client_run`).

## Bookkeeping

`consumed` (the frames the loop has taken up), `Answer.seen` and `Stream.since` (how many there were
when an answer came), `liveIds` (the stream ids that came with responses on this socket and have not
been ended since), `cutShort` (`resume_streams` has found its connection gone, and there has been no
other since) and `openStreams` (what is open on the server) are read by no step of the client.
-/

namespace TitanClient

namespace Lifecycle

/-! ## Messages -/

/-- The payload of a `StreamData` frame; quotes are named by a number. -/
inductive Payload
  | quotes (q : ℕ)
  | other
  deriving DecidableEq

/-- What a request asks for: open stream `i`, or stop the stream with an id. -/
inductive Request
  | newStream (i : ℕ)
  | stopStream (id : ℕ)
  deriving DecidableEq

/-- What the loop reads. `noise` stands for everything it skips. -/
inductive Message
  | response (ticket : ℕ) (stream : Option ℕ)
  | error (ticket : ℕ)
  | data (id : ℕ) (payload : Payload)
  | ended (id : ℕ)
  | noise
  deriving DecidableEq

/-- The result of a request: a response with its stream id, if any, or an error. -/
inductive Reply
  | ok (stream : Option ℕ)
  | failed
  deriving DecidableEq

/-- A result as sent on the oneshot channel of its request. -/
structure Answer where
  reply : Reply
  seen : ℕ
  deriving DecidableEq

/-! ## Positions -/

/-- Where `start_stream_internal` stands. -/
inductive Start
  | idle
  | requesting
  | awaiting (ticket : ℕ)
  | registering (id : ℕ)
  | failing
  | done
  | failed
  deriving DecidableEq

/-- Where the adapter task stands. It is `failing` once it could not pass a quote on. -/
inductive Adapter
  | none
  | receiving
  | holding (q : ℕ)
  | failing
  | unregistering (id : ℕ)
  | exited
  deriving DecidableEq

/-- What has become of the handle. -/
inductive Handle
  | none
  | live
  | stopping
  | stopped
  | dropped
  deriving DecidableEq

/-- Where the stop sequence stands, run by `stop()` or by the cleanup task of a dropped handle: two
loads of the effective id, then for each id the stop request and the removal of the entry, then the
slot. The first of the ids is the one being dealt with. -/
inductive Stopper
  | idle
  | loading
  | loaded (first : ℕ)
  | requesting (ids : List ℕ)
  | awaiting (ticket : ℕ) (ids : List ℕ)
  | unregistering (ids : List ℕ)
  | releasing
  | done
  deriving DecidableEq

/-- What the task that owns some handles is doing. -/
inductive Task
  | idle
  | stopping (i : ℕ)
  | collecting
  | requesting (ids : List ℕ)
  | awaiting (ticket : ℕ) (ids : List ℕ)
  | clearing
  | cancelling
  deriving DecidableEq

/-- Where frames are read: in `run_single_connection`, or in `resume_streams` while the answer to
the request with `ticket` is awaited, which was sent for the snapshot entry `i` under `oldId`. -/
inductive Reading
  | serving
  | resuming (oldId i ticket : ℕ) (rest : List (ℕ × ℕ))
  deriving DecidableEq

/-- Where the connection loop stands. The rest of a snapshot is a list of ids and streams. -/
inductive Loop
  | reading (r : Reading)
  | sending (r : Reading) (i : ℕ) (payload : Payload)
  | down
  | backoff
  | snapshotting
  | resuming (rest : List (ℕ × ℕ))
  | storing (i newId : ℕ) (rest : List (ℕ × ℕ))
  | inserting (i newId : ℕ) (rest : List (ℕ × ℕ))
  | cleaning
  | exited
  deriving DecidableEq

/-! ## State -/

/-- One stream: its start, the cells it shares, its two channels with the adapter between them, its
handle and its stop sequence. -/
structure Stream where
  owner : ℕ := 0
  start : Start := .idle
  streamId : ℕ := 0
  effectiveId : ℕ := 0
  stopped : Bool := false
  slotReleased : Bool := false
  raw : List Payload := []
  adapter : Adapter := .none
  quotes : List ℕ := []
  received : List ℕ := []
  handle : Handle := .none
  stopper : Stopper := .idle
  since : ℕ := 0

/-- The client, the socket and the server. -/
structure State where
  streams : ℕ → Stream := fun _ => {}
  streamCount : ℕ := 0
  resumable : AList fun _ : ℕ => ℕ := ∅
  tasks : ℕ → Task := fun _ => .idle
  nextTicket : ℕ := 0
  channel : List (ℕ × Request) := []
  pending : List ℕ := []
  answers : ℕ → Option Answer := fun _ => none
  loop : Loop := .reading .serving
  closed : Bool := false
  shutdown : Bool := false
  activeCount : ℕ := 0
  alive : Bool := true
  toServer : List (ℕ × Request) := []
  wire : List Message := []
  openStreams : List (ℕ × ℕ) := []
  consumed : List Message := []
  liveIds : List ℕ := []
  cutShort : Bool := false

/-- The capacity of the request channel, the raw channels and the quotes channels. -/
def capacity : ℕ := 32

/-- The snapshot clone of stream `i` is still held. -/
def Reading.holds (j : ℕ) : Reading → Bool
  | .serving => false
  | .resuming _ i _ rest => i == j || rest.any (·.2 == j)

/-- A sender of stream `j` is held by the loop itself. -/
def Loop.holds (j : ℕ) : Loop → Bool
  | .reading r => r.holds j
  | .sending r _ _ => r.holds j
  | .resuming rest => rest.any (·.2 == j)
  | .storing i _ rest => i == j || rest.any (·.2 == j)
  | .inserting i _ rest => i == j || rest.any (·.2 == j)
  | _ => false

/-- The loop holds no lock of the map. -/
def Loop.isUnlocked : Loop → Bool
  | .sending _ _ _ => false
  | .storing _ _ _ => false
  | .inserting _ _ _ => false
  | _ => true

/-- The loop does not hold the write lock of the map. -/
def Loop.isReadable : Loop → Bool
  | .storing _ _ _ => false
  | .inserting _ _ _ => false
  | _ => true

/-- The ids a stop sequence works through: the two loads of the effective id, if they differ, and
the original id, if it is neither. -/
def stopIds (first second original : ℕ) : List ℕ :=
  [first] ++ (if second ≠ first then [second] else []) ++
    (if original ≠ first ∧ original ≠ second then [original] else [])

/-- The ids that came with responses and have not been ended, after one more frame. -/
def Message.liveIds (ids : List ℕ) : Message → List ℕ
  | .response _ (some id) => id :: ids
  | .ended id => ids.filter (· ≠ id)
  | _ => ids

namespace State

variable (s : State)

/-- Change stream `i`. -/
def setStream (i : ℕ) (v : Stream) : State := { s with streams := Function.update s.streams i v }

/-- Move task `t` to another position. -/
def setTask (t : ℕ) (p : Task) : State := { s with tasks := Function.update s.tasks t p }

/-- Some sender of stream `i` is left, so that its raw channel stays open. -/
def senderHeld (i : ℕ) : Bool :=
  s.resumable.entries.any (·.2 == i) || s.loop.holds i

/-- The slot of stream `i` is given back, unless it has been before. -/
def release (i : ℕ) : State :=
  if (s.streams i).slotReleased then s
  else
    { s.setStream i { s.streams i with slotReleased := true } with
      activeCount := s.activeCount - 1 }

/-- The `on_end` callback of stream `i`. -/
def onEnd (i : ℕ) : State :=
  (s.setStream i { s.streams i with stopped := true }).release i

/-- `unregister_stream`. -/
def unregister (id : ℕ) : State := { s with resumable := s.resumable.erase id }

/-- `if let Some(stream) = streams.remove(&id) { on_end() }`. -/
def removeAndEnd (id : ℕ) : State :=
  match s.resumable.lookup id with
  | some i => (s.unregister id).onEnd i
  | none => s

/-- Drain the map and call `on_end` for each entry. -/
def endAll : State :=
  s.resumable.entries.foldl (fun u e => u.onEnd e.2) { s with resumable := ∅ }

/-- Put a request into the channel, with the next ticket. -/
def push (r : Request) : State :=
  { s with channel := s.channel ++ [(s.nextTicket, r)], nextTicket := s.nextTicket + 1 }

/-- The request channel has room. -/
def HasRoom : Prop := s.closed = false ∧ s.channel.length < capacity

/-- `send_request` returns an error at once. -/
def Refuses : Prop := s.shutdown = true ∨ s.closed = true

instance : Decidable s.HasRoom := inferInstanceAs (Decidable (_ ∧ _))

instance : Decidable s.Refuses := inferInstanceAs (Decidable (_ ∨ _))

/-- Complete the request with the given ticket, if it is pending. -/
def complete (ticket : ℕ) (reply : Reply) : State :=
  if ticket ∈ s.pending then
    { s with
      pending := s.pending.erase ticket
      answers := Function.update s.answers ticket (some ⟨reply, s.consumed.length⟩) }
  else s

/-- Complete all the given requests with an error. -/
def failAll (tickets : List ℕ) : State :=
  { s with
    answers := fun t => if t ∈ tickets then some ⟨.failed, s.consumed.length⟩ else s.answers t }

/-- The connection is gone, and with it what the server had open for it. -/
def disconnected : State := { s with alive := false, toServer := [], openStreams := [] }

/-- `stopped.load() || sender.is_closed()`. -/
def isEnded (i : ℕ) : Bool := (s.streams i).stopped || (s.streams i).adapter == .exited

/-- `handle_server_message`, called where frames are read in position `r`. For stream data it takes
the read lock and then waits for room in the raw channel. -/
def handleServerMessage (r : Reading) : Message → State
  | .response ticket stream => s.complete ticket (.ok stream)
  | .error ticket => s.complete ticket .failed
  | .data id payload =>
    match s.resumable.lookup id with
    | some i => { s with loop := .sending r i payload }
    | none => s
  | .ended id => s.removeAndEnd id
  | .noise => s

/-- `resume_streams` gives up on the entry under `oldId` and goes on. -/
def giveUp (oldId : ℕ) (rest : List (ℕ × ℕ)) : State :=
  { s.removeAndEnd oldId with loop := .resuming rest }

/-- The server has answered a resume request with a new id: the entry under the old id is taken out
and its flags are looked at, under the write lock. -/
def takeOut (oldId newId : ℕ) (rest : List (ℕ × ℕ)) : State :=
  match s.resumable.lookup oldId with
  | some j =>
    if s.isEnded j then { (s.unregister oldId).onEnd j with loop := .resuming rest }
    else { s.unregister oldId with loop := .storing j newId rest }
  | none => { s with loop := .resuming rest }

/-- The frame `m` is taken off the wire. -/
def taken (m : Message) : State :=
  { s with
    wire := s.wire.tail
    consumed := s.consumed ++ [m]
    liveIds := m.liveIds s.liveIds }

/-- The answer to a resume request. -/
def resumeAnswered (oldId : ℕ) (rest : List (ℕ × ℕ)) : Option ℕ → State
  | some newId => s.takeOut oldId newId rest
  | none => s.giveUp oldId rest

/-- A frame taken up by the loop. -/
def take (r : Reading) (m : Message) : State :=
  match r, m with
  | .resuming oldId i ticket rest, .response t stream =>
    if t = ticket then s.resumeAnswered oldId rest stream
    else s.handleServerMessage (.resuming oldId i ticket rest) (.response t stream)
  | .resuming oldId i ticket rest, .error t =>
    if t = ticket then s.giveUp oldId rest
    else s.handleServerMessage (.resuming oldId i ticket rest) (.error t)
  | r, m => s.handleServerMessage r m

end State

/-- What becomes of the streams open on the server when it sends a frame. -/
def Message.openStreams (opens : List (ℕ × ℕ)) : Message → List (ℕ × ℕ)
  | .ended id => opens.filter (·.1 ≠ id)
  | _ => opens

/-- What becomes of them when the server carries out a request. -/
def Request.openStreams (opens : List (ℕ × ℕ)) : Request → List (ℕ × ℕ)
  | .stopStream id => opens.filter (·.1 ≠ id)
  | .newStream _ => opens

/-! ## Steps -/

/-- The steps of starts, owners, stop sequences and adapters of stream `i`, of the task `t` that
shuts the client down, of the connection loop, and of the server. -/
inductive Action
  | begin (t : ℕ)
  | request (i : ℕ)
  | refused (i : ℕ)
  | receive (i ticket : ℕ) (a : Answer)
  | register (i id : ℕ)
  | fail (i : ℕ)
  | recv (i : ℕ)
  | stop (i : ℕ)
  | drop (i : ℕ) (runtime : Bool)
  | stopLoad (i : ℕ)
  | stopReload (i first : ℕ)
  | stopRequest (i id : ℕ) (ids : List ℕ)
  | stopRefused (i id : ℕ) (ids : List ℕ)
  | stopReceive (i ticket : ℕ) (ids : List ℕ)
  | stopUnregister (i id : ℕ) (ids : List ℕ)
  | stopRelease (i : ℕ)
  | stopReturn (i : ℕ)
  | adapterRecv (i : ℕ)
  | adapterForward (i q : ℕ)
  | adapterFail (i q : ℕ)
  | adapterLoad (i : ℕ)
  | adapterUnregister (i id : ℕ)
  | adapterEnd (i : ℕ)
  | shutdown (t : ℕ)
  | collect (t : ℕ) (ids : List ℕ)
  | shutdownRequest (t id : ℕ) (ids : List ℕ)
  | shutdownRefused (t id : ℕ) (ids : List ℕ)
  | shutdownReceive (t ticket : ℕ) (ids : List ℕ)
  | clear (t : ℕ)
  | cancel (t : ℕ)
  | dequeue (sent : Bool)
  | read (r : Reading) (m : Message)
  | sendRaw (r : Reading) (i : ℕ) (payload : Payload)
  | leave
  | decide (giveUp : Bool)
  | dial (connected : Bool)
  | snapshot (order : List (ℕ × ℕ))
  | resume (oldId i : ℕ) (rest : List (ℕ × ℕ)) (sent : Bool)
  | resumeLost (oldId i ticket : ℕ) (rest : List (ℕ × ℕ))
  | store (i newId : ℕ) (rest : List (ℕ × ℕ))
  | insert (i newId : ℕ) (rest : List (ℕ × ℕ))
  | resumed
  | cleanup
  | lose
  | accept (ticket i id : ℕ)
  | carryOut (ticket : ℕ) (r : Request) (ok : Bool)
  | serverSend (m : Message)
  deriving DecidableEq

/-- When a step can be taken. `leave` covers every reason for which `run_single_connection` returns,
`resumeLost` the close frame, the read error and the end of the stream; `decide true` stands for
used-up attempts and a dropped client. -/
def Enabled (s : State) : Action → Prop
  | .begin _ => True
  | .request i => (s.streams i).start = .requesting ∧ s.HasRoom
  | .refused i => (s.streams i).start = .requesting ∧ s.Refuses
  | .receive i ticket a => (s.streams i).start = .awaiting ticket ∧ s.answers ticket = some a
  | .register i id => (s.streams i).start = .registering id ∧ s.loop.isUnlocked = true
  | .fail i => (s.streams i).start = .failing
  | .recv i =>
    ((s.streams i).handle = .live ∨ (s.streams i).handle = .stopped) ∧
      s.tasks (s.streams i).owner = .idle ∧ (s.streams i).quotes ≠ []
  | .stop i => (s.streams i).handle = .live ∧ s.tasks (s.streams i).owner = .idle
  | .drop i _ =>
    ((s.streams i).handle = .live ∨ (s.streams i).handle = .stopped) ∧
      s.tasks (s.streams i).owner = .idle
  | .stopLoad i => (s.streams i).stopper = .loading
  | .stopReload i first => (s.streams i).stopper = .loaded first
  | .stopRequest i id ids => (s.streams i).stopper = .requesting (id :: ids) ∧ s.HasRoom
  | .stopRefused i id ids => (s.streams i).stopper = .requesting (id :: ids) ∧ s.Refuses
  | .stopReceive i ticket ids =>
    (s.streams i).stopper = .awaiting ticket ids ∧ s.answers ticket ≠ none
  | .stopUnregister i id ids =>
    (s.streams i).stopper = .unregistering (id :: ids) ∧ s.loop.isUnlocked = true
  | .stopRelease i => (s.streams i).stopper = .releasing
  | .stopReturn i =>
    (s.streams i).handle = .stopping ∧ s.tasks (s.streams i).owner = .stopping i ∧
      (s.streams i).stopper = .done
  | .adapterRecv i => (s.streams i).adapter = .receiving ∧ (s.streams i).raw ≠ []
  | .adapterForward i q =>
    (s.streams i).adapter = .holding q ∧ (s.streams i).handle ≠ .dropped ∧
      (s.streams i).quotes.length < capacity
  | .adapterFail i q => (s.streams i).adapter = .holding q ∧ (s.streams i).handle = .dropped
  | .adapterLoad i => (s.streams i).adapter = .failing
  | .adapterUnregister i id =>
    (s.streams i).adapter = .unregistering id ∧ s.loop.isUnlocked = true
  | .adapterEnd i =>
    (s.streams i).adapter = .receiving ∧ (s.streams i).raw = [] ∧ s.senderHeld i = false
  | .shutdown t => s.tasks t = .idle
  | .collect t ids =>
    s.tasks t = .collecting ∧ s.loop.isReadable = true ∧ ids.Perm s.resumable.keys
  | .shutdownRequest t id ids => s.tasks t = .requesting (id :: ids) ∧ s.HasRoom
  | .shutdownRefused t id ids => s.tasks t = .requesting (id :: ids) ∧ s.Refuses
  | .shutdownReceive t ticket ids => s.tasks t = .awaiting ticket ids ∧ s.answers ticket ≠ none
  | .clear t => s.tasks t = .clearing ∧ s.loop.isUnlocked = true
  | .cancel t => s.tasks t = .cancelling
  | .dequeue _ => s.loop = .reading .serving ∧ s.channel ≠ []
  | .read r m => s.loop = .reading r ∧ s.wire.head? = some m
  | .sendRaw r i payload =>
    s.loop = .sending r i payload ∧
      ((s.streams i).adapter = .exited ∨ (s.streams i).raw.length < capacity)
  | .leave => s.loop = .reading .serving
  | .decide _ => s.loop = .down
  | .dial _ => s.loop = .backoff
  | .snapshot order =>
    s.loop = .snapshotting ∧ order.Perm (s.resumable.entries.map fun e => (e.1, e.2))
  | .resume oldId i rest _ => s.loop = .resuming ((oldId, i) :: rest)
  | .resumeLost oldId i ticket rest => s.loop = .reading (.resuming oldId i ticket rest)
  | .store i newId rest => s.loop = .storing i newId rest
  | .insert i newId rest => s.loop = .inserting i newId rest
  | .resumed => s.loop = .resuming []
  | .cleanup => s.loop = .cleaning
  | .lose => True
  | .accept ticket i _ => s.alive = true ∧ (ticket, .newStream i) ∈ s.toServer
  | .carryOut ticket r _ => s.alive = true ∧ (ticket, r) ∈ s.toServer
  | .serverSend _ => s.alive = true

instance (s : State) (a : Action) : Decidable (Enabled s a) :=
  match a with
  | .begin _ => inferInstanceAs (Decidable True)
  | .request _ => inferInstanceAs (Decidable (_ ∧ _))
  | .refused _ => inferInstanceAs (Decidable (_ ∧ _))
  | .receive _ _ _ => inferInstanceAs (Decidable (_ ∧ _))
  | .register _ _ => inferInstanceAs (Decidable (_ ∧ _))
  | .fail _ => inferInstanceAs (Decidable (_ = _))
  | .recv _ => inferInstanceAs (Decidable (_ ∧ _ ∧ _))
  | .stop _ => inferInstanceAs (Decidable (_ ∧ _))
  | .drop _ _ => inferInstanceAs (Decidable (_ ∧ _))
  | .stopLoad _ => inferInstanceAs (Decidable (_ = _))
  | .stopReload _ _ => inferInstanceAs (Decidable (_ = _))
  | .stopRequest _ _ _ => inferInstanceAs (Decidable (_ ∧ _))
  | .stopRefused _ _ _ => inferInstanceAs (Decidable (_ ∧ _))
  | .stopReceive _ _ _ => inferInstanceAs (Decidable (_ ∧ _))
  | .stopUnregister _ _ _ => inferInstanceAs (Decidable (_ ∧ _))
  | .stopRelease _ => inferInstanceAs (Decidable (_ = _))
  | .stopReturn _ => inferInstanceAs (Decidable (_ ∧ _ ∧ _))
  | .adapterRecv _ => inferInstanceAs (Decidable (_ ∧ _))
  | .adapterForward _ _ => inferInstanceAs (Decidable (_ ∧ _ ∧ _))
  | .adapterFail _ _ => inferInstanceAs (Decidable (_ ∧ _))
  | .adapterLoad _ => inferInstanceAs (Decidable (_ = _))
  | .adapterUnregister _ _ => inferInstanceAs (Decidable (_ ∧ _))
  | .adapterEnd _ => inferInstanceAs (Decidable (_ ∧ _ ∧ _))
  | .shutdown _ => inferInstanceAs (Decidable (_ = _))
  | .collect _ _ => inferInstanceAs (Decidable (_ ∧ _ ∧ _))
  | .shutdownRequest _ _ _ => inferInstanceAs (Decidable (_ ∧ _))
  | .shutdownRefused _ _ _ => inferInstanceAs (Decidable (_ ∧ _))
  | .shutdownReceive _ _ _ => inferInstanceAs (Decidable (_ ∧ _))
  | .clear _ => inferInstanceAs (Decidable (_ ∧ _))
  | .cancel _ => inferInstanceAs (Decidable (_ = _))
  | .dequeue _ => inferInstanceAs (Decidable (_ ∧ _))
  | .read _ _ => inferInstanceAs (Decidable (_ ∧ _))
  | .sendRaw _ _ _ => inferInstanceAs (Decidable (_ ∧ (_ ∨ _)))
  | .leave => inferInstanceAs (Decidable (_ = _))
  | .decide _ => inferInstanceAs (Decidable (_ = _))
  | .dial _ => inferInstanceAs (Decidable (_ = _))
  | .snapshot _ => inferInstanceAs (Decidable (_ ∧ _))
  | .resume _ _ _ _ => inferInstanceAs (Decidable (_ = _))
  | .resumeLost _ _ _ _ => inferInstanceAs (Decidable (_ = _))
  | .store _ _ _ => inferInstanceAs (Decidable (_ = _))
  | .insert _ _ _ => inferInstanceAs (Decidable (_ = _))
  | .resumed => inferInstanceAs (Decidable (_ = _))
  | .cleanup => inferInstanceAs (Decidable (_ = _))
  | .lose => inferInstanceAs (Decidable True)
  | .accept _ _ _ => inferInstanceAs (Decidable (_ ∧ _))
  | .carryOut _ _ _ => inferInstanceAs (Decidable (_ ∧ _))
  | .serverSend _ => inferInstanceAs (Decidable (_ = _))

/-- `start_stream_internal` once the result of its request is there. -/
def receiveNext (s : State) (i : ℕ) (a : Answer) : State :=
  match a.reply with
  | .ok (some id) =>
    s.setStream i { s.streams i with start := .registering id, since := a.seen }
  | .ok none => s.setStream i { s.streams i with start := .failing }
  | .failed => s.setStream i { s.streams i with start := .failing }

/-- `register_stream`, the adapter task and the handle. -/
def registerNext (s : State) (i id : ℕ) : State :=
  { s.setStream i { s.streams i with
      start := .done
      streamId := id
      effectiveId := id
      raw := []
      adapter := .receiving
      quotes := []
      received := []
      handle := .live } with
    resumable := s.resumable.insert id i }

/-- `Drop` for the handle of stream `i`. -/
def dropNext (s : State) (i : ℕ) (runtime : Bool) : State :=
  match (s.streams i).handle with
  | .live =>
    if runtime then
      s.setStream i { s.streams i with stopped := true, handle := .dropped, stopper := .loading }
    else (s.setStream i { s.streams i with stopped := true, handle := .dropped }).release i
  | _ => s.setStream i { s.streams i with handle := .dropped }

/-- The next stop request, or the slot if there is none. -/
def stopNextId : List ℕ → Stopper
  | [] => .releasing
  | ids => .requesting ids

/-- The adapter takes the next frame from its raw channel. -/
def adapterRecvNext (s : State) (i : ℕ) : State :=
  match (s.streams i).raw with
  | .quotes q :: rest => s.setStream i { s.streams i with raw := rest, adapter := .holding q }
  | .other :: rest => s.setStream i { s.streams i with raw := rest }
  | [] => s

/-- `stop_all_streams` after it has sent what it wanted to: nothing was there to be stopped, or the
map is cleared. -/
def collectNext : List ℕ → Task
  | [] => .cancelling
  | ids => .requesting ids

/-- The next stop request of `stop_all_streams`. -/
def shutdownNextId : List ℕ → Task
  | [] => .clearing
  | ids => .requesting ids

/-- The loop takes a request from the channel and writes it. -/
def dequeueNext (s : State) (sent : Bool) : State :=
  match s.channel with
  | [] => s
  | (ticket, r) :: rest =>
    if sent then
      { s with
        channel := rest
        pending := s.pending ++ [ticket]
        toServer := if s.alive then s.toServer ++ [(ticket, r)] else s.toServer }
    else { s.failAll [ticket] with channel := rest }

/-- One turn of `resume_streams` up to the first await for the answer. -/
def resumeNext (s : State) (oldId i : ℕ) (rest : List (ℕ × ℕ)) (sent : Bool) : State :=
  if s.isEnded i then s.giveUp oldId rest
  else if sent then
    { s with
      nextTicket := s.nextTicket + 1
      toServer :=
        if s.alive then s.toServer ++ [(s.nextTicket, .newStream i)] else s.toServer
      loop := .reading (.resuming oldId i s.nextTicket rest) }
  else s.giveUp oldId rest

/-- The state after a step. -/
def next (s : State) : Action → State
  | .begin t =>
    { s.setStream s.streamCount { owner := t, start := .requesting } with
      streamCount := s.streamCount + 1
      activeCount := s.activeCount + 1 }
  | .request i =>
    (s.setStream i { s.streams i with start := .awaiting s.nextTicket }).push (.newStream i)
  | .refused i => s.setStream i { s.streams i with start := .failing }
  | .receive i _ a => receiveNext s i a
  | .register i id => registerNext s i id
  | .fail i => (s.setStream i { s.streams i with start := .failed }).release i
  | .recv i =>
    s.setStream i { s.streams i with
      quotes := (s.streams i).quotes.tail
      received := (s.streams i).received ++ (s.streams i).quotes.take 1 }
  | .stop i =>
    (s.setStream i { s.streams i with
      stopped := true
      handle := .stopping
      stopper := .loading }).setTask (s.streams i).owner (.stopping i)
  | .drop i runtime => dropNext s i runtime
  | .stopLoad i =>
    s.setStream i { s.streams i with stopper := .loaded (s.streams i).effectiveId }
  | .stopReload i first =>
    s.setStream i { s.streams i with
      stopper :=
        .requesting (stopIds first (s.streams i).effectiveId (s.streams i).streamId) }
  | .stopRequest i id ids =>
    (s.setStream i { s.streams i with stopper := .awaiting s.nextTicket (id :: ids) }).push
      (.stopStream id)
  | .stopRefused i id ids =>
    s.setStream i { s.streams i with stopper := .unregistering (id :: ids) }
  | .stopReceive i _ ids => s.setStream i { s.streams i with stopper := .unregistering ids }
  | .stopUnregister i id ids =>
    (s.setStream i { s.streams i with stopper := stopNextId ids }).unregister id
  | .stopRelease i => (s.setStream i { s.streams i with stopper := .done }).release i
  | .stopReturn i =>
    (s.setStream i { s.streams i with handle := .stopped }).setTask (s.streams i).owner .idle
  | .adapterRecv i => adapterRecvNext s i
  | .adapterForward i q =>
    s.setStream i { s.streams i with
      adapter := .receiving
      quotes := (s.streams i).quotes ++ [q] }
  | .adapterFail i _ => s.setStream i { s.streams i with adapter := .failing }
  | .adapterLoad i =>
    s.setStream i { s.streams i with adapter := .unregistering (s.streams i).effectiveId }
  | .adapterUnregister i id =>
    (s.setStream i { s.streams i with adapter := .exited }).unregister id
  | .adapterEnd i => s.setStream i { s.streams i with adapter := .exited }
  | .shutdown t => s.setTask t .collecting
  | .collect t ids => s.setTask t (collectNext ids)
  | .shutdownRequest t id ids => (s.setTask t (.awaiting s.nextTicket ids)).push (.stopStream id)
  | .shutdownRefused t _ ids => s.setTask t (shutdownNextId ids)
  | .shutdownReceive t _ ids => s.setTask t (shutdownNextId ids)
  | .clear t => s.endAll.setTask t .cancelling
  | .cancel t => { s.setTask t .idle with shutdown := true }
  | .dequeue sent => dequeueNext s sent
  | .read r m => (s.taken m).take r m
  | .sendRaw r i payload =>
    if (s.streams i).adapter = .exited then { s with loop := .reading r }
    else
      { s.setStream i { s.streams i with raw := (s.streams i).raw ++ [payload] } with
        loop := .reading r }
  | .leave =>
    { s.failAll s.pending with
      pending := []
      loop := .down }
  | .decide giveUp =>
    { s with loop := if s.shutdown ∨ giveUp then .cleaning else .backoff }
  | .dial true =>
    { s.disconnected with
      alive := true
      wire := []
      liveIds := []
      cutShort := false
      loop := .snapshotting }
  | .dial false => { s with loop := .reading .serving }
  | .snapshot order => { s with loop := .resuming order }
  | .resume oldId i rest sent => resumeNext s oldId i rest sent
  | .resumeLost _ _ _ rest =>
    { s.disconnected with wire := [], cutShort := true, loop := .resuming rest }
  | .store i newId rest =>
    { s.setStream i { s.streams i with effectiveId := newId } with
      loop := .inserting i newId rest }
  | .insert i newId rest =>
    { s with resumable := s.resumable.insert newId i, loop := .resuming rest }
  | .resumed => { s with loop := .reading .serving }
  | .cleanup =>
    { (s.endAll.failAll (s.channel.map (·.1))).disconnected with
      channel := []
      wire := []
      closed := true
      loop := .exited }
  | .lose => s.disconnected
  | .accept ticket i id =>
    { s with
      toServer := s.toServer.erase (ticket, .newStream i)
      openStreams := s.openStreams ++ [(id, i)]
      wire := s.wire ++ [.response ticket (some id)] }
  | .carryOut ticket r ok =>
    { s with
      toServer := s.toServer.erase (ticket, r)
      openStreams := r.openStreams s.openStreams
      wire := s.wire ++ [if ok then .response ticket none else .error ticket] }
  | .serverSend m =>
    { s with openStreams := m.openStreams s.openStreams, wire := s.wire ++ [m] }

/-- The client with its connection and the server, as one system. -/
def system : Transition.System State Action := ⟨Enabled, next⟩

instance (s : State) (a : Action) : Decidable (system.Enabled s a) :=
  inferInstanceAs (Decidable (Enabled s a))

/-- The state after `connect`. -/
def init : State := {}

/-- Stream `0` is started by task `0` and registered under the id `7`. -/
def startRun : List Action :=
  [.begin 0, .request 0, .dequeue true, .accept 0 0 7, .read .serving (.response 0 (some 7)),
    .receive 0 0 ⟨.ok (some 7), 1⟩, .register 0 7]

example : (system.exec init startRun).resumable.lookup 7 = some 0 := by decide

end Lifecycle

end TitanClient
