import TitanClient.BackpressureDrop
import TitanClient.LifecycleBudget

/-!
# What the client waits for

The positions in which a task of the client waits for others: the loop for a frame, for a connection
or for room in a raw channel; whoever has sent a request for its answer; and the call of `stop()`
for its stop sequence. Who waits for the lock of the map and for room in the request channel is in
`Standstill`.

## Main results

* `LoopRests`, `LoopRests.not_enabled` — the positions of a loop that takes no step by itself
* `Waits` — an answer that is not there, whose request is not lost
* `Busy`, `exec_busy` — a task that sends stop requests has one to send
* `Exited` — once the loop has exited nobody waits for it
* `Returned` — what is left then
-/

namespace TitanClient

namespace Lifecycle

/-! ## Waiting -/

/-- The loop waits for room in a raw channel, and holds the lock of the map. -/
def Locked (s : State) : Prop := ∃ r i payload, s.loop = .sending r i payload

/-- Where the request with this ticket is that nobody has answered. Either the loop has yet to take
it from the channel, or it has been written in this run of `run_single_connection`; then the server
has yet to deal with it, unless the connection is lost or there are frames to be read. -/
inductive Asked (s : State) (ticket : ℕ) : Prop
  | queued (h : ticket ∈ s.channel.map (·.1)) (hloop : s.loop ≠ .reading .serving)
  | written (h : ticket ∈ s.pending) (hloop : s.loop.reading? = some .serving)
      (hserver : s.alive = true → s.wire = [] → ∃ r, (ticket, r) ∈ s.toServer)

/-- The answer with this ticket is not there, and its request is not lost. -/
structure Waits (s : State) (ticket : ℕ) : Prop where
  unanswered : s.answers ticket = none
  asked : Asked s ticket

/-- What the loop waits for. -/
inductive LoopRests (s : State) : Prop
  | serving (h : s.loop = .reading .serving) (hwire : s.wire = []) (hchannel : s.channel = [])
      (hshutdown : s.shutdown = false)
  | resuming {oldId i ticket : ℕ} {rest : List (ℕ × ℕ)}
      (h : s.loop = .reading (.resuming oldId i ticket rest)) (hwire : s.wire = [])
  | full {r : Reading} {i : ℕ} {payload : Payload} (h : s.loop = .sending r i payload)
      (hclogged : (s.streams i).Clogged) (hhandle : (s.streams i).handle ≠ .dropped)
  | wedged {i : ℕ} (h : Wedged s i)
  | backoff (h : s.loop = .backoff)
  | exited (h : s.loop = .exited)

/-! ## The shutdown task -/

/-- A task that sends stop requests has one to send, and one that waits for `stop()` waits for a
stop sequence that has begun. -/
structure Busy (s : State) : Prop where
  requesting : ∀ t, s.tasks t ≠ .requesting []
  stopping : ∀ i, (s.streams i).handle = .stopping → (s.streams i).stopper ≠ .idle

theorem shutdownNextId_ne (ids : List ℕ) : shutdownNextId ids ≠ .requesting [] := by
  cases ids with
  | nil => exact Task.noConfusion
  | cons id ids => simp [shutdownNextId]

theorem collectNext_ne (ids : List ℕ) : collectNext ids ≠ .requesting [] := by
  cases ids with
  | nil => exact Task.noConfusion
  | cons id ids => simp [collectNext]

theorem TaskChange.requesting {s : State} {t : ℕ} {a : Action} {p : Task}
    (hc : TaskChange s t a p) (h : s.tasks t ≠ .requesting []) : p ≠ .requesting [] := by
  cases hc with
  | same => exact h
  | collected => exact collectNext_ne _
  | refused => exact shutdownNextId_ne _
  | received => exact shutdownNextId_ne _
  | _ => exact Task.noConfusion

theorem Change.begun_stopping {s : State} {a : Action} {i : ℕ} {v : Stream}
    (hc : Change s i a v) (h : (s.streams i).handle = .stopping → (s.streams i).stopper ≠ .idle) :
    v.handle = .stopping → v.stopper ≠ .idle := by
  cases hc with
  | begun => exact Handle.noConfusion
  | registered => exact Handle.noConfusion
  | dropped => exact Handle.noConfusion
  | droppedOutside => exact Handle.noConfusion
  | droppedStopped => exact Handle.noConfusion
  | stopReturned => exact Handle.noConfusion
  | @stopUnregistered _ ids => cases ids <;> exact fun _ => Stopper.noConfusion
  | stopped => exact fun _ => Stopper.noConfusion
  | loaded => exact fun _ => Stopper.noConfusion
  | reloaded => exact fun _ => Stopper.noConfusion
  | stopRequested => exact fun _ => Stopper.noConfusion
  | stopRefused => exact fun _ => Stopper.noConfusion
  | stopReceived => exact fun _ => Stopper.noConfusion
  | stopReleased => exact fun _ => Stopper.noConfusion
  | _ => exact h

theorem Busy.next {s : State} (h : Busy s) {a : Action} (ha : Enabled s a) :
    Busy (next s a) where
  requesting t := (taskChange ha t).requesting (h.requesting t)
  stopping i := (change ha i).begun_stopping (h.stopping i)

theorem busy_init : Busy init where
  requesting _ := Task.noConfusion
  stopping _ := Handle.noConfusion

theorem exec_busy {as : List Action} (hv : system.Valid init as) : Busy (system.exec init as) :=
  Transition.System.invariant (fun _ _ h ha => h.next ha) busy_init hv

/-! ## A loop at rest -/

section

variable {s : State}

namespace LoopRests

/-- The positions in which the loop awaits something. -/
theorem waits (h : LoopRests s) : (∃ r, s.loop = .reading r) ∨
    (∃ r i payload, s.loop = .sending r i payload) ∨ s.loop = .backoff ∨ s.loop = .exited := by
  cases h with
  | serving h => exact Or.inl ⟨_, h⟩
  | resuming h => exact Or.inl ⟨_, h⟩
  | full h => exact Or.inr (Or.inl ⟨_, _, _, h⟩)
  | wedged h =>
    obtain ⟨-, ⟨r, payload, hloop⟩, -⟩ := h
    exact Or.inr (Or.inl ⟨_, _, _, hloop⟩)
  | backoff h => exact Or.inr (Or.inr (Or.inl h))
  | exited h => exact Or.inr (Or.inr (Or.inr h))

/-- Nothing is left to be read. -/
theorem wire (h : LoopRests s) {r : Reading} (hloop : s.loop = .reading r) : s.wire = [] := by
  cases h with
  | serving _ hwire => exact hwire
  | resuming _ hwire => exact hwire
  | full h => cases hloop.symm.trans h
  | wedged h =>
    obtain ⟨-, ⟨r', payload, h⟩, -⟩ := h
    cases hloop.symm.trans h
  | backoff h => cases hloop.symm.trans h
  | exited h => cases hloop.symm.trans h

/-- Nothing is left to be written, and nobody has shut the client down. -/
theorem served (h : LoopRests s) (hloop : s.loop = .reading .serving) :
    s.channel = [] ∧ s.shutdown = false := by
  cases h with
  | serving _ _ hchannel hshutdown => exact ⟨hchannel, hshutdown⟩
  | resuming h => cases hloop.symm.trans h
  | full h => cases hloop.symm.trans h
  | wedged h =>
    obtain ⟨-, ⟨r', payload, h⟩, -⟩ := h
    cases hloop.symm.trans h
  | backoff h => cases hloop.symm.trans h
  | exited h => cases hloop.symm.trans h

/-- There is no room for the frame that is to be handed on. -/
theorem no_room (h : LoopRests s) {r : Reading} {i : ℕ} {payload : Payload}
    (hloop : s.loop = .sending r i payload) :
    (s.streams i).adapter ≠ .exited ∧ capacity ≤ (s.streams i).raw.length := by
  cases h with
  | serving h => cases hloop.symm.trans h
  | resuming h => cases hloop.symm.trans h
  | full h hclogged =>
    cases hloop.symm.trans h
    obtain ⟨q, hadapter⟩ := hclogged.adapter
    exact ⟨by rw [hadapter]; exact Adapter.noConfusion, hclogged.raw⟩
  | wedged h =>
    obtain ⟨-, ⟨r', payload', h⟩, hraw, id, hadapter⟩ := h
    cases hloop.symm.trans h
    exact ⟨by rw [hadapter]; exact Adapter.noConfusion, hraw⟩
  | backoff h => cases hloop.symm.trans h
  | exited h => cases hloop.symm.trans h

/-- The loop takes no step by itself. -/
theorem not_enabled (h : LoopRests s) {a : Action} (ha : a.isInternal s = true)
    (hmoves : a.movesLoop = true) : ¬Enabled s a := by
  intro hen
  have hwaits := h.waits
  cases a with
  | sendRaw r i payload =>
    obtain ⟨hadapter, hraw⟩ := h.no_room hen.1
    exact hen.2.elim hadapter (Nat.not_lt.mpr hraw)
  | leave => exact Bool.false_ne_true ((h.served hen).2.symm.trans ha)
  | decide giveUp =>
    rw [show s.loop = .down from hen] at hwaits
    simp at hwaits
  | snapshot order =>
    rw [hen.1] at hwaits
    simp at hwaits
  | resume oldId i rest sent =>
    rw [show s.loop = .resuming ((oldId, i) :: rest) from hen] at hwaits
    simp at hwaits
  | store i newId rest =>
    rw [show s.loop = .storing i newId rest from hen] at hwaits
    simp at hwaits
  | insert i newId rest =>
    rw [show s.loop = .inserting i newId rest from hen] at hwaits
    simp at hwaits
  | resumed =>
    rw [show s.loop = .resuming [] from hen] at hwaits
    simp at hwaits
  | cleanup =>
    rw [show s.loop = .cleaning from hen] at hwaits
    simp at hwaits
  | dial connected => cases ha
  | resumeLost oldId i ticket rest => cases ha
  | _ => cases hmoves

end LoopRests

end

/-! ## After the exit of the loop -/

/-- The loop has exited. Nothing is in the request channel any more, nothing gets into it, and
nothing is pending. -/
structure Exited (s : State) : Prop where
  loop : s.loop = .exited
  closed : s.closed = true
  channel : s.channel = []
  pending : s.pending = []

theorem Posted.exit {s : State} (hp : Posted s) (hexit : s.loop = .exited) : Exited s where
  loop := hexit
  closed := (hp.exited hexit).1
  channel := (hp.exited hexit).2
  pending := hp.pending_eq_nil (by rw [hexit]; exact nofun)

namespace Exited

variable {s : State}

theorem not_locked (h : Exited s) : ¬Locked s := by
  rintro ⟨r, i, payload, hloop⟩
  cases h.loop.symm.trans hloop

theorem not_waits (h : Exited s) {ticket : ℕ} : ¬Waits s ticket := by
  rintro ⟨-, ⟨hmem, -⟩ | ⟨hmem, -, -⟩⟩
  · rw [h.channel] at hmem
    cases hmem
  · rw [h.pending] at hmem
    cases hmem

end Exited

/-- The adapters that are left then: those with an entry in the map, which was put in after the loop
had drained it, and those that hold a quote their owner does not take. -/
def Adapter.Left (s : State) (i : ℕ) : Adapter → Prop
  | .receiving => (s.streams i).raw = [] ∧ ∃ id, s.resumable.lookup id = some i
  | .holding _ => capacity ≤ (s.streams i).quotes.length ∧ (s.streams i).handle ≠ .dropped
  | .failing => False
  | .unregistering _ => False
  | _ => True

/-- What is left when the loop has exited and nobody can move. -/
structure Returned (s : State) : Prop where
  start : ∀ i, (s.streams i).start = .idle ∨ (s.streams i).start = .done ∨
    (s.streams i).start = .failed
  stopper : ∀ i, (s.streams i).stopper = .idle ∨ (s.streams i).stopper = .done
  task : ∀ t, s.tasks t = .idle
  adapter : ∀ i, (s.streams i).adapter.Left s i

end Lifecycle

end TitanClient
