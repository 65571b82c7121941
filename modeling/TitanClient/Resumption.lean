import TitanClient.Requests

/-!
# Resuming streams after a reconnect

`Connection::resume_streams`: a snapshot of `resumable_streams` is taken, and for each of its
entries in turn the stream's request is sent again and its answer awaited on the new socket. The map
is rewritten in place, under the ids the snapshot was taken with.

The function is modelled as one recursion over the snapshot. Everything it does not control is in
its argument `env`: for each entry what other tasks do in the meantime, whether encoding and writing
succeed, and what the socket yields while the answer is awaited.

## Streams

An entry shares four cells with the handle of its stream: the sender, `effective_id`, the stopped
flag and the `on_end` callback with the slot guard. `ResumableStream.stream` names these cells, and
the state holds their contents. Entries put in by `start_stream_internal` have all of them.

## Other tasks

The map is not locked between two turns of the loop, nor while an answer is awaited, and
`resume_streams` is not the only one to write it. A start whose request was answered before the
connection was lost may register its stream only now. The stop sequence of a handle, and the adapter
of a dropped one, take out an id that they have loaded from the stream's `effective_id`, perhaps
long before; when they do, the stopped flag of their own stream is set, which is why
`TaskEvent.unregisters` names that stream. `stop_all_streams` drains the map. These are all writers
there are besides the loop itself, and `TaskEvent` has them beside what owners do to the flags.

`pending_requests` is left out: it is empty while streams are resumed, so frames that answer other
requests find nothing there.

## Bookkeeping

`written`, `granted`, `routed` and `abandoned` record what happened and are read by no step:
the resume requests put on the socket, the new ids received with the request ids they answer, the
`StreamData` frames handed to a stream, and the streams that have been given up: their owner has
stopped or dropped them, or `stop_all_streams` has ended them.
-/

namespace TitanClient

namespace Resumption

open Requests (ClientRequest)

variable {ρ : Type}

/-! ## State -/

/-- An entry of `resumable_streams`. -/
structure ResumableStream (ρ : Type) where
  request : ρ
  stream : ℕ
  deriving DecidableEq

/-- An entry together with the id it is registered under. -/
abbrev Entry (ρ : Type) : Type := Sigma fun _ : ℕ => ResumableStream ρ

/-- The map, the cells its entries share with the handles, and the loop's own counter. -/
structure State (ρ : Type) where
  streams : AList fun _ : ℕ => ResumableStream ρ := ∅
  effectiveId : ℕ → ℕ := fun _ => 0
  stopped : ℕ → Bool := fun _ => false
  closed : ℕ → Bool := fun _ => false
  slotReleased : ℕ → Bool := fun _ => false
  onEndCalls : ℕ → ℕ := fun _ => 0
  requestIdCounter : ℕ := 1
  written : List (ClientRequest ρ) := []
  granted : List (ℕ × ℕ) := []
  routed : List (ℕ × ℕ) := []
  abandoned : ℕ → Bool := fun _ => false

/-- What the socket yields. A response carries the id of the new stream, if any; `text` stands for
every message that is neither binary nor a control frame. -/
inductive Incoming
  | response (requestId : ℕ) (stream : Option ℕ)
  | error (requestId : ℕ)
  | streamData (id : ℕ)
  | streamEnd (id : ℕ)
  | other
  | undecodable
  | ping
  | pong
  | text
  | close
  | failed
  | eof
  deriving DecidableEq

/-- What the owner of a handle does to the cells of its stream: `stop()` and `Drop` set the stopped
flag, and the raw channel closes once the receiver is gone. -/
inductive OwnerEvent
  | stops (i : ℕ)
  | closes (i : ℕ)
  deriving DecidableEq

/-- The stream whose owner acts. -/
def OwnerEvent.stream : OwnerEvent → ℕ
  | .stops i => i
  | .closes i => i

/-- What another task does. `registers id r` is `register_stream`; `unregisters i id` is
`unregister_stream(id)`, called on behalf of stream `i`. -/
inductive TaskEvent (ρ : Type)
  | owner (e : OwnerEvent)
  | registers (id : ℕ) (r : ResumableStream ρ)
  | unregisters (i id : ℕ)
  | stopsAll
  deriving DecidableEq

/-- One thing that happens while the loop awaits an answer. -/
inductive Event (ρ : Type)
  | task (e : TaskEvent ρ)
  | frame (f : Incoming)
  deriving DecidableEq

namespace State

variable (s : State ρ)

/-- `stopped.load() || sender.is_closed()`. -/
def isEnded (i : ℕ) : Bool := s.stopped i || s.closed i

/-- The `on_end` callback of a stream: set the stopped flag and release the slot, once. -/
def onEnd (i : ℕ) : State ρ :=
  { s with
    stopped := Function.update s.stopped i true
    slotReleased := Function.update s.slotReleased i true
    onEndCalls := Function.update s.onEndCalls i (s.onEndCalls i + 1) }

/-- `if let Some(stream) = streams.remove(&id) { on_end() }`. -/
def removeAndEnd (id : ℕ) : State ρ :=
  match s.streams.lookup id with
  | some r => { s with streams := s.streams.erase id }.onEnd r.stream
  | none => s

/-- The update of the stream mapping when the server answered with a new stream id. -/
def remap (oldId newId : ℕ) : State ρ :=
  match s.streams.lookup oldId with
  | some r =>
    if s.isEnded r.stream then { s with streams := s.streams.erase oldId }.onEnd r.stream
    else
      { s with
        effectiveId := Function.update s.effectiveId r.stream newId
        streams := (s.streams.erase oldId).insert newId r }
  | none => s

/-- `handle_server_message`, for the stream map. -/
def handleServerMessage : Incoming → State ρ
  | .streamData id =>
    match s.streams.lookup id with
    | some r => { s with routed := s.routed ++ [(id, r.stream)] }
    | none => s
  | .streamEnd id => s.removeAndEnd id
  | _ => s

/-- What an owner does. -/
def owner : OwnerEvent → State ρ
  | .stops i =>
    { s with
      stopped := Function.update s.stopped i true
      abandoned := Function.update s.abandoned i true }
  | .closes i =>
    { s with
      closed := Function.update s.closed i true
      abandoned := Function.update s.abandoned i true }

/-- `register_stream`. -/
def registerStream (id : ℕ) (r : ResumableStream ρ) : State ρ :=
  { s with streams := s.streams.insert id r }

/-- `unregister_stream`. -/
def unregisterStream (id : ℕ) : State ρ := { s with streams := s.streams.erase id }

/-- The end of `stop_all_streams`: drain the map and call `on_end` for each entry. -/
def stopAllStreams : State ρ :=
  s.streams.entries.foldl (fun t e => t.onEnd e.2.stream)
    { s with
      streams := ∅
      abandoned := fun i => s.abandoned i || s.streams.entries.any fun e => e.2.stream == i }

/-- What another task does. -/
def task : TaskEvent ρ → State ρ
  | .owner e => s.owner e
  | .registers id r => s.registerStream id r
  | .unregisters i id => (s.owner (.stops i)).unregisterStream id
  | .stopsAll => s.stopAllStreams

end State

/-! ## The function -/

/-- The inner loop: read frames until the one that answers `requestId`, or until the connection is
lost. `none` means that the frames have run out and the loop is still waiting. -/
def awaitResponse (oldId requestId : ℕ) : State ρ → List (Event ρ) → Option (State ρ)
  | _, [] => none
  | s, .task e :: es => awaitResponse oldId requestId (s.task e) es
  | s, .frame f :: es =>
    match f with
    | .response id stream =>
      if id ≠ requestId then awaitResponse oldId requestId (s.handleServerMessage f) es
      else
        match stream with
        | some newId => some ({ s with granted := s.granted ++ [(id, newId)] }.remap oldId newId)
        | none => some (s.removeAndEnd oldId)
    | .error id =>
      if id ≠ requestId then awaitResponse oldId requestId (s.handleServerMessage f) es
      else some (s.removeAndEnd oldId)
    | .streamData _ => awaitResponse oldId requestId (s.handleServerMessage f) es
    | .streamEnd _ => awaitResponse oldId requestId (s.handleServerMessage f) es
    | .other => awaitResponse oldId requestId (s.handleServerMessage f) es
    | .undecodable => awaitResponse oldId requestId s es
    | .ping => awaitResponse oldId requestId s es
    | .pong => awaitResponse oldId requestId s es
    | .text => awaitResponse oldId requestId s es
    | .close => some s
    | .failed => some s
    | .eof => some s

/-- What happens during the turn of one entry: what other tasks did before it, whether the request
is encoded and written, and what then happens until the loop goes on. The server may look at the
request id. -/
structure Turn (ρ : Type) where
  before : List (TaskEvent ρ) := []
  encoded : Bool := true
  sent : Bool := true
  events : ℕ → List (Event ρ) := fun _ => []

/-- The state in which the answer is awaited. -/
def State.request (s : State ρ) (e : Entry ρ) : State ρ :=
  { s with
    requestIdCounter := wrap32 (s.requestIdCounter + 1)
    written := s.written ++ [⟨s.requestIdCounter, e.2.request⟩] }

/-- One iteration of the outer loop. -/
def resumeTurn (s : State ρ) (e : Entry ρ) (turn : Turn ρ) : Option (State ρ) :=
  let s := turn.before.foldl State.task s
  if s.isEnded e.2.stream then some (s.removeAndEnd e.1)
  else
    let requestId := s.requestIdCounter
    let s := { s with requestIdCounter := wrap32 (requestId + 1) }
    if turn.encoded = false then some (s.removeAndEnd e.1)
    else if turn.sent = false then some (s.removeAndEnd e.1)
    else
      awaitResponse e.1 requestId { s with written := s.written ++ [⟨requestId, e.2.request⟩] }
        (turn.events requestId)

/-- The outer loop, over what is left of the snapshot. -/
def resumeLoop (env : ℕ → Turn ρ) : State ρ → List (Entry ρ) → Option (State ρ)
  | s, [] => some s
  | s, e :: rest => (resumeTurn s e (env e.1)).bind fun t => resumeLoop env t rest

/-- `resume_streams` with the snapshot in the given order. From its start on, `abandoned` tells
which streams have been given up. -/
def resumeStreams (s : State ρ) (order : List (Entry ρ)) (env : ℕ → Turn ρ) : Option (State ρ) :=
  resumeLoop env { s with abandoned := s.isEnded } order

/-! ## What the operations do to the map -/

/-- The slot of stream `i` is as it was, and its `on_end` has not been called. -/
def Held (s t : State ρ) (i : ℕ) : Prop :=
  t.slotReleased i = s.slotReleased i ∧ t.onEndCalls i = s.onEndCalls i

namespace State

variable (s : State ρ)

@[simp] theorem onEnd_streams (i : ℕ) : (s.onEnd i).streams = s.streams := rfl

theorem onEnd_isEnded_of_ne {i j : ℕ} (h : j ≠ i) : (s.onEnd i).isEnded j = s.isEnded j := by
  simp only [isEnded, onEnd, Function.update_of_ne h]

theorem onEnd_isEnded (i : ℕ) : (s.onEnd i).isEnded i = true := by
  simp only [isEnded, onEnd, Function.update_self, Bool.true_or]

theorem isEnded_onEnd_of_isEnded {i j : ℕ} (h : s.isEnded j = true) :
    (s.onEnd i).isEnded j = true := by
  by_cases hj : j = i
  · rw [hj, onEnd_isEnded]
  · rwa [onEnd_isEnded_of_ne s hj]

/-- Removing an id takes out its entry and ends its stream. -/
theorem removeAndEnd_of_lookup {id : ℕ} {r : ResumableStream ρ}
    (h : s.streams.lookup id = some r) :
    s.removeAndEnd id = { s with streams := s.streams.erase id }.onEnd r.stream := by
  rw [removeAndEnd, h]

/-- Whatever stood under the id, nothing does afterwards, and the other entries are untouched. -/
theorem removeAndEnd_streams (id : ℕ) : (s.removeAndEnd id).streams = s.streams.erase id := by
  rw [removeAndEnd]
  cases h : s.streams.lookup id with
  | none => exact (Table.erase_of_lookup_eq_none h).symm
  | some r => rfl

/-- No stream is touched but the one that stood under the id. -/
theorem removeAndEnd_apart {id i : ℕ} (h : ∀ r, s.streams.lookup id = some r → r.stream ≠ i) :
    (s.removeAndEnd id).isEnded i = s.isEnded i ∧
      (s.removeAndEnd id).effectiveId = s.effectiveId ∧ Held s (s.removeAndEnd id) i := by
  cases hl : s.streams.lookup id with
  | none =>
    rw [removeAndEnd, hl]
    exact ⟨rfl, rfl, rfl, rfl⟩
  | some r =>
    have hi := (h r hl).symm
    rw [removeAndEnd_of_lookup s hl]
    exact ⟨onEnd_isEnded_of_ne _ hi, rfl, Function.update_of_ne hi _ _,
      Function.update_of_ne hi _ _⟩

theorem isEnded_removeAndEnd {id i : ℕ} (h : s.isEnded i = true) :
    (s.removeAndEnd id).isEnded i = true := by
  rw [removeAndEnd]
  cases s.streams.lookup id with
  | none => exact h
  | some r => exact isEnded_onEnd_of_isEnded { s with streams := s.streams.erase id } h

theorem remap_of_isEnded {oldId newId : ℕ} {r : ResumableStream ρ}
    (h : s.streams.lookup oldId = some r) (he : s.isEnded r.stream = true) :
    s.remap oldId newId = s.removeAndEnd oldId := by
  rw [remap, h, removeAndEnd_of_lookup s h]
  simp only [he, if_true]

theorem remap_of_lookup {oldId newId : ℕ} {r : ResumableStream ρ}
    (h : s.streams.lookup oldId = some r) (he : s.isEnded r.stream = false) :
    s.remap oldId newId =
      { s with
        effectiveId := Function.update s.effectiveId r.stream newId
        streams := (s.streams.erase oldId).insert newId r } := by
  rw [remap, h]
  simp only [he, Bool.false_eq_true, if_false]

theorem remap_of_lookup_eq_none {oldId newId : ℕ} (h : s.streams.lookup oldId = none) :
    s.remap oldId newId = s := by
  rw [remap, h]

/-- The other ids are not touched. -/
theorem remap_lookup_of_ne {oldId newId k : ℕ} (hold : k ≠ oldId) (hnew : k ≠ newId) :
    (s.remap oldId newId).streams.lookup k = s.streams.lookup k := by
  cases hl : s.streams.lookup oldId with
  | none => rw [remap_of_lookup_eq_none s hl]
  | some r =>
    by_cases he : s.isEnded r.stream = true
    · rw [remap_of_isEnded s hl he, removeAndEnd_streams, AList.lookup_erase_ne hold]
    · rw [remap_of_lookup s hl (by simpa using he)]
      change ((s.streams.erase oldId).insert newId r).lookup k = _
      rw [AList.lookup_insert_ne hnew, AList.lookup_erase_ne hold]

theorem owner_isEnded (o : OwnerEvent) {i : ℕ} :
    (s.owner o).isEnded i = true ↔ s.isEnded i = true ∨ o.stream = i := by
  have hupdate : ∀ (f : ℕ → Bool) (j : ℕ),
      Function.update f j true i = true ↔ f i = true ∨ j = i := by
    intro f j
    by_cases hij : j = i
    · rw [hij, Function.update_self]
      exact iff_of_true rfl (Or.inr rfl)
    · rw [Function.update_of_ne (Ne.symm hij)]
      exact (or_iff_left hij).symm
  cases o with
  | stops j =>
    simp only [isEnded, owner, Bool.or_eq_true, hupdate, OwnerEvent.stream]
    tauto
  | closes j =>
    simp only [isEnded, owner, Bool.or_eq_true, hupdate, OwnerEvent.stream]
    tauto

theorem owner_abandoned (o : OwnerEvent) {i : ℕ} :
    (s.owner o).abandoned i = true ↔ s.abandoned i = true ∨ o.stream = i := by
  have hupdate : ∀ j : ℕ,
      Function.update s.abandoned j true i = true ↔ s.abandoned i = true ∨ j = i := by
    intro j
    by_cases hij : j = i
    · rw [hij, Function.update_self]
      exact iff_of_true rfl (Or.inr rfl)
    · rw [Function.update_of_ne (Ne.symm hij)]
      exact (or_iff_left hij).symm
  cases o with
  | stops j => exact hupdate j
  | closes j => exact hupdate j

/-- Calling `on_end` for the entries of a list ends their streams and touches no others. -/
theorem foldl_onEnd (l : List (Entry ρ)) (s : State ρ) :
    ∃ t, l.foldl (fun t e => t.onEnd e.2.stream) s = t ∧ t.streams = s.streams ∧
      t.effectiveId = s.effectiveId ∧ t.written = s.written ∧ t.granted = s.granted ∧
      t.abandoned = s.abandoned ∧
      (∀ i, t.isEnded i = true ↔ s.isEnded i = true ∨ ∃ e ∈ l, e.2.stream = i) ∧
      ∀ i, (∀ e ∈ l, e.2.stream ≠ i) → Held s t i := by
  induction l generalizing s with
  | nil =>
    refine ⟨s, rfl, rfl, rfl, rfl, rfl, rfl, fun i => ?_, fun i _ => ⟨rfl, rfl⟩⟩
    exact (or_iff_left fun ⟨_, he, _⟩ => List.not_mem_nil he).symm
  | cons e l ih =>
    obtain ⟨t, ht, hstreams, heff, hwritten, hgranted, hab, hended, hheld⟩ :=
      ih (s.onEnd e.2.stream)
    refine ⟨t, ht, hstreams, heff, hwritten, hgranted, hab, fun i => ?_, fun i hi => ?_⟩
    · rw [hended i]
      by_cases hi : i = e.2.stream
      · rw [hi, onEnd_isEnded]
        exact iff_of_true (Or.inl rfl) (Or.inr ⟨e, List.mem_cons_self, rfl⟩)
      · rw [onEnd_isEnded_of_ne s hi, List.exists_mem_cons_iff]
        exact or_congr_right (or_iff_right (Ne.symm hi)).symm
    · have hne := (hi e List.mem_cons_self).symm
      obtain ⟨hslot, hcalls⟩ := hheld i fun e' he' => hi e' (List.mem_cons_of_mem _ he')
      exact ⟨hslot.trans (Function.update_of_ne hne _ _),
        hcalls.trans (Function.update_of_ne hne _ _)⟩

end State

end Resumption

end TitanClient
