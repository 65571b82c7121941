import Mathlib.Data.Finset.Card
import Mathlib.Data.List.Infix
import TitanClient.ReportedState

/-!
# Waiting for the connection

`TitanClient::wait_for_connected` reads the published states and takes a disconnection for a
permanent one if its reason contains `Max reconnect attempts`. That text is the loop's own when it
gives up. A server can also send it in a close frame, and none of the other ways in which the loop
ends publishes it.

The client is `live` until `close` has cleared its connection. The `Connection` itself may live on,
in a `QuoteStream` say, and with it a sender of the watch channel.

## Main results

* `State.Honest` — an error only after the loop has given up, and nobody parked after its exit
* `Foreseen` — the steps after which that stays so
* `wait_for_connected_honest` — nothing else is left out
* `misled_waiters` — a close frame that fails a waiter, and a shutdown that strands one
-/

namespace TitanClient

namespace Waiting

open Publishing (ConnectionState Loss)

/-! ## The test on the reason -/

/-- `reason.contains("Max reconnect attempts")`. -/
def isPermanent (reason : String) : Bool :=
  decide ("Max reconnect attempts".toList <:+: reason.toList)

theorem isPermanent_clientShutdown : isPermanent "Client shutdown" = false := by decide

/-- `wait_for_connected` returns an error for this state. -/
def isFatal : ConnectionState → Bool
  | .disconnected reason => isPermanent reason
  | _ => false

/-- `wait_for_connected` returns at this state. -/
def settles : ConnectionState → Bool
  | .connected => true
  | status => isFatal status

theorem settles_of_fatal {status : ConnectionState} (h : isFatal status = true) :
    settles status = true := by
  cases status with
  | connected => rfl
  | _ => exact h

/-! ## State -/

/-- Where a call of `wait_for_connected` stands: before it looks at the state, or in `changed()`,
with or without a state that it has not seen. An `orphan` has the receiver of a channel without a
sender, which is what a closed client gives. -/
inductive Waiter
  | idle
  | looking
  | parked (changed : Bool)
  | orphan
  | returned
  | failed
  | cancelled
  deriving DecidableEq

/-- It has a receiver of the connection's channel. -/
def Waiter.isSubscribed : Waiter → Bool
  | .looking => true
  | .parked _ => true
  | _ => false

/-- The call is in progress. -/
def Waiter.isLive : Waiter → Bool
  | .orphan => true
  | w => w.isSubscribed

/-- A value has been stored. -/
def Waiter.mark : Waiter → Waiter
  | .parked _ => .parked true
  | w => w

/-- The `TitanClient`: with its connection, closed, or gone. -/
inductive Client
  | live
  | closed
  | dropped
  deriving DecidableEq

/-- The connection with those who wait for it. `subscribed` are the waiters with a receiver, and
`shutdownDone` says that a call of `shutdown` has run to its end. -/
structure State where
  conn : Publishing.State
  client : Client := .live
  shutdownDone : Bool := false
  waiters : ℕ → Waiter := fun _ => .idle
  waiterCount : ℕ := 0
  subscribed : Finset ℕ := ∅

/-- The state right after the loop was spawned. -/
def init (maxReconnectAttempts : Option ℕ) : State :=
  { conn := Publishing.init maxReconnectAttempts }

/-- The value that a step of the connection stores, if it stores one. -/
def stored (u : Publishing.State) (a : Publishing.Action) : Option ConnectionState :=
  if a = .connectPublish then some .connected
  else if 0 < u.cell.receivers then a.status u else none

namespace State

variable (s : State)

/-- A waiter is done, and its receiver is dropped. -/
def leave (w : ℕ) (result : Waiter) : State :=
  { s with
    conn := if w ∈ s.subscribed then { s.conn with cell := s.conn.cell.dropReceiver } else s.conn
    waiters := Function.update s.waiters w result
    subscribed := s.subscribed.erase w }

/-- A waiter goes on waiting. -/
def setWaiter (w : ℕ) (position : Waiter) : State :=
  { s with waiters := Function.update s.waiters w position }

/-- Somebody waits on the connection's channel, or still can. -/
def Watched : Prop := s.client = .live ∨ s.subscribed.Nonempty

instance : Decidable s.Watched := inferInstanceAs (Decidable (_ ∨ _))

end State

/-! ## Steps -/

/-- The steps of the connection, of the client's owner and of the calls. -/
inductive Action
  | conn (a : Publishing.Action)
  | close
  | dropClient
  | call
  | look (w : ℕ)
  | wake (w : ℕ)
  | fail (w : ℕ)
  | cancel (w : ℕ)
  deriving DecidableEq

/-- When a step can be taken. `dropReceiver` is for receivers that no waiter holds; `changed()`
fails when the value was seen and both senders are gone. -/
def Enabled (s : State) : Action → Prop
  | .conn a => Publishing.Enabled s.conn a ∧
    (a = .dropReceiver → s.subscribed.card < s.conn.cell.receivers) ∧
    (a = .dropConnection → s.client ≠ .live)
  | .close => s.client = .live ∧ s.shutdownDone = true
  | .dropClient => s.client ≠ .dropped ∧ s.conn.connect = .returned ∧
    ∀ w < s.waiterCount, (s.waiters w).isLive = false
  | .call => s.client ≠ .dropped ∧ s.conn.connect = .returned
  | .look w => s.waiters w = .looking
  | .wake w => s.waiters w = .parked true
  | .fail w => s.waiters w = .orphan ∨
    s.waiters w = .parked false ∧ s.conn.dropped = true ∧ s.conn.loop = .exited
  | .cancel w => (s.waiters w).isLive = true

instance (s : State) (a : Action) : Decidable (Enabled s a) :=
  match a with
  | .conn _ => inferInstanceAs (Decidable (_ ∧ (_ → _) ∧ (_ → ¬_)))
  | .close => inferInstanceAs (Decidable (_ ∧ _))
  | .dropClient => inferInstanceAs (Decidable (_ ∧ _ ∧ ∀ w < s.waiterCount, _))
  | .call => inferInstanceAs (Decidable (_ ∧ _))
  | .look _ => inferInstanceAs (Decidable (_ = _))
  | .wake _ => inferInstanceAs (Decidable (_ = _))
  | .fail _ => inferInstanceAs (Decidable (_ ∨ _ ∧ _))
  | .cancel _ => inferInstanceAs (Decidable (_ = _))

/-- A step of the connection, seen by everybody parked if it stores a value. -/
def connNext (s : State) (a : Publishing.Action) : State :=
  { s with
    conn := Publishing.next s.conn a
    waiters := if (stored s.conn a).isSome then fun w => (s.waiters w).mark else s.waiters
    shutdownDone := match a with
      | .publishShutdown _ => true
      | _ => s.shutdownDone }

/-- `state_receiver` and the head of the loop. -/
def callNext (s : State) : State :=
  if s.client = .live then
    { s with
      conn := { s.conn with cell := s.conn.cell.subscribe }
      waiters := Function.update s.waiters s.waiterCount .looking
      waiterCount := s.waiterCount + 1
      subscribed := insert s.waiterCount s.subscribed }
  else
    { s with
      waiters := Function.update s.waiters s.waiterCount .orphan
      waiterCount := s.waiterCount + 1 }

/-- `borrow_and_update`, and the `match` on the state. -/
def lookNext (s : State) (w : ℕ) : State :=
  match s.conn.cell.value with
  | .connected => s.leave w .returned
  | .disconnected reason =>
    if isPermanent reason then s.leave w .failed else s.setWaiter w (.parked false)
  | .reconnecting _ => s.setWaiter w (.parked false)

/-- The state after a step. -/
def next (s : State) : Action → State
  | .conn a => connNext s a
  | .close => { s with client := .closed }
  | .dropClient => { s with client := .dropped }
  | .call => callNext s
  | .look w => lookNext s w
  | .wake w => s.setWaiter w .looking
  | .fail w => s.leave w .failed
  | .cancel w => s.leave w .cancelled

/-- The connection, its owner and those who wait. -/
def system : Transition.System State Action := ⟨Enabled, next⟩

instance (s : State) (a : Action) : Decidable (system.Enabled s a) :=
  inferInstanceAs (Decidable (Enabled s a))

/-! ## The property -/

/-- An error means that the loop has given up or has exited; and nobody who has seen the last state
is parked after the exit, unless the `Connection` is gone too. -/
structure State.Honest (s : State) : Prop where
  failed : ∀ w, s.waiters w = .failed → s.conn.loop.isOver = true
  parked : s.conn.loop = .exited → s.conn.dropped = false → ∀ w, s.waiters w ≠ .parked false

/-- No reason of a lost connection contains the text while somebody hears it; the loop exits with
`Connected` or that text published, as far as anybody waits; `shutdown` publishes nothing after
that; and a closed client is asked only when the loop is over. -/
def Foreseen (s : State) : Action → Prop
  | .conn (.lose loss) => isPermanent loss.reason = true →
    s.conn.cell.receivers = 0 ∨ s.conn.connect = .spawned ∨ ¬s.Watched
  | .conn .exit => s.conn.dropped = true ∨ s.conn.connect = .spawned ∨ ¬s.Watched ∨
    settles s.conn.cell.value = true
  | .conn (.publishShutdown _) => s.conn.loop = .exited →
    s.conn.cell.receivers = 0 ∨ ¬s.Watched
  | .call => s.client = .closed → s.conn.loop.isOver = true
  | _ => True

instance (s : State) (a : Action) : Decidable (Foreseen s a) :=
  match a with
  | .conn (.lose _) => inferInstanceAs (Decidable (_ → _ ∨ _ ∨ ¬_))
  | .conn .exit => inferInstanceAs (Decidable (_ ∨ _ ∨ ¬_ ∨ _))
  | .conn (.publishShutdown _) => inferInstanceAs (Decidable (_ → _ ∨ ¬_))
  | .call => inferInstanceAs (Decidable (_ → _))
  | .close | .dropClient | .look _ | .wake _ | .fail _ | .cancel _ | .conn .connectPublish
  | .conn .connectReturn | .conn .subscribe | .conn .dropReceiver | .conn .dropConnection
  | .conn .shutdown | .conn (.cancel _) | .conn (.abandonShutdown _) | .conn .leaveShutdown
  | .conn .leaveChannelClosed | .conn (.checkShutdown _) | .conn (.checkClosed _)
  | .conn (.announce _) | .conn .wake | .conn (.dial _) | .conn .publishConnected
  | .conn .resumed => isTrue trivial

/-! ## What the connection does -/

section

variable {u : Publishing.State} {a : Publishing.Action}

/-- The value is the one that is stored, or the old one. -/
theorem value_next : (Publishing.next u a).cell.value = (stored u a).getD u.cell.value := by
  have hsend : ∀ {status : ConnectionState}, status ∈ a.status u → a ≠ .connectPublish →
      (Publishing.next u a).cell.value = (stored u a).getD u.cell.value := by
    intro status hstatus ha
    rw [(Publishing.next_publish hstatus).1, stored, if_neg ha]
    by_cases hr : 0 < u.cell.receivers
    · rw [if_pos hr, Watch.send_value hr, hstatus]
      rfl
    · rw [if_neg hr, Watch.send_value_of_none (Nat.eq_zero_of_not_pos hr)]
      rfl
  have hsame : a.status u = none → a ≠ .connectPublish →
      (Publishing.next u a).cell.value = u.cell.value →
      (Publishing.next u a).cell.value = (stored u a).getD u.cell.value := by
    intro hstatus ha hvalue
    rw [hvalue, stored, if_neg ha, hstatus, ite_self]
    rfl
  cases a with
  | connectPublish => rfl
  | publishShutdown k => exact hsend rfl nofun
  | lose loss => exact hsend rfl nofun
  | announce reason => exact hsend rfl nofun
  | publishConnected => exact hsend rfl nofun
  | dial connected => cases connected <;> exact hsame rfl nofun rfl
  | _ => exact hsame rfl nofun rfl

/-- A loop that is over stays so. -/
theorem isOver_next (ha : Publishing.Enabled u a) (h : u.loop.isOver = true) :
    (Publishing.next u a).loop.isOver = true := by
  have hno : ∀ {l : Publishing.Loop}, u.loop = l → l.isOver = false → False := by
    rintro l rfl hl
    cases hl.symm.trans h
  cases a with
  | lose loss => exact (hno ha rfl).elim
  | leaveShutdown => exact (hno ha.1 rfl).elim
  | leaveChannelClosed => exact (hno ha.1 rfl).elim
  | checkShutdown reason => exact (hno ha rfl).elim
  | checkClosed reason => exact (hno ha rfl).elim
  | announce reason => exact (hno ha rfl).elim
  | wake => exact (hno ha rfl).elim
  | dial connected => exact (hno ha rfl).elim
  | publishConnected => exact (hno ha rfl).elim
  | resumed => exact (hno ha rfl).elim
  | exit => rfl
  | _ => exact h

/-- `connect` holds a receiver until it returns. -/
def held (u : Publishing.State) : ℕ := if u.connect = .returned then 0 else 1

/-- Receivers that are counted stay counted. -/
theorem held_next {n : ℕ} (ha : Publishing.Enabled u a) (h : n + held u ≤ u.cell.receivers)
    (hdrop : a = .dropReceiver → n < u.cell.receivers) :
    n + held (Publishing.next u a) ≤ (Publishing.next u a).cell.receivers := by
  cases a with
  | connectPublish =>
    have hconnect : u.connect = .spawned := ha
    rw [held, hconnect] at h
    exact h
  | connectReturn =>
    have hconnect : u.connect = .published := ha
    rw [held, hconnect] at h
    exact Nat.le_sub_of_add_le h
  | subscribe => exact Nat.le_succ_of_le h
  | dropReceiver =>
    have hlt := hdrop rfl
    rw [held, if_pos ha.1] at h
    change n + held u ≤ u.cell.receivers - 1
    rw [held, if_pos ha.1]
    omega
  | publishShutdown k =>
    change n + held u ≤ (u.cell.send _).receivers
    rwa [Watch.send_receivers]
  | lose loss =>
    change n + held u ≤ (u.cell.send _).receivers
    rwa [Watch.send_receivers]
  | announce reason =>
    obtain ⟨status, attempt, loop, -, heq⟩ := Publishing.announceNext_eq u reason
    rw [Publishing.next, heq]
    change n + held u ≤ (u.cell.send _).receivers
    rwa [Watch.send_receivers]
  | publishConnected =>
    change n + held u ≤ (u.cell.send _).receivers
    rwa [Watch.send_receivers]
  | dial connected => cases connected <;> exact h
  | _ => exact h

/-- `connect` moves on by its own two steps. -/
theorem connect_next : (Publishing.next u a).connect = u.connect ∨
    a = .connectPublish ∨ a = .connectReturn := by
  cases a with
  | connectPublish => exact Or.inr (Or.inl rfl)
  | connectReturn => exact Or.inr (Or.inr rfl)
  | announce reason =>
    obtain ⟨status, attempt, loop, -, heq⟩ := Publishing.announceNext_eq u reason
    rw [Publishing.next, heq]
    exact Or.inl rfl
  | dial connected => cases connected <;> exact Or.inl rfl
  | _ => exact Or.inl rfl

/-- While a call of `shutdown` is in progress the `Connection` is there. -/
def Sheltered (u : Publishing.State) : Prop :=
  ∀ k, u.shutdowns k = .stopping ∨ u.shutdowns k = .cancelled →
    k < u.shutdownCount ∧ u.connect = .returned ∧ u.dropped = false

theorem Sheltered.next (h : Sheltered u) (ha : Publishing.Enabled u a) :
    Sheltered (Publishing.next u a) := by
  have hmove : ∀ {t : Publishing.State} {k : ℕ} {p : Publishing.Shutdown},
      (u.shutdowns k = .stopping ∨ u.shutdowns k = .cancelled) →
      t.shutdowns = Function.update u.shutdowns k p → t.shutdownCount = u.shutdownCount →
      t.connect = u.connect → t.dropped = u.dropped → Sheltered t := by
    intro t k p hk hshutdowns hcount hconnect hdropped j hj
    rw [hcount, hconnect, hdropped]
    by_cases hjk : j = k
    · rw [hjk]
      exact h k hk
    · rw [hshutdowns, Function.update_of_ne hjk] at hj
      exact h j hj
  have hreturned : ∀ {t : Publishing.State}, t.shutdowns = u.shutdowns →
      t.shutdownCount = u.shutdownCount → (u.connect = .returned → t.connect = .returned) →
      t.dropped = u.dropped → Sheltered t := by
    intro t hshutdowns hcount hconnect hdropped j hj
    obtain ⟨hlt, hret, hlive⟩ := h j (hshutdowns ▸ hj)
    exact ⟨hcount ▸ hlt, hconnect hret, hdropped.trans hlive⟩
  cases a with
  | connectPublish =>
    refine hreturned rfl rfl (fun hret => ?_) rfl
    have hspawned : u.connect = .spawned := ha
    cases hspawned.symm.trans hret
  | connectReturn => exact hreturned rfl rfl (fun _ => rfl) rfl
  | dropConnection =>
    intro j hj
    obtain ⟨hlt, -, -⟩ := h j hj
    obtain ⟨hstopping, hcancelled⟩ := ha.2 j hlt
    exact (hj.elim hstopping hcancelled).elim
  | shutdown =>
    intro j hj
    by_cases hjk : j = u.shutdownCount
    · rw [hjk]
      exact ⟨Nat.lt_succ_self _, ha⟩
    · have hold : (Publishing.next u .shutdown).shutdowns j = u.shutdowns j :=
        Function.update_of_ne hjk _ _
      rw [hold] at hj
      obtain ⟨hlt, hrest⟩ := h j hj
      exact ⟨Nat.lt_succ_of_lt hlt, hrest⟩
  | cancel k => exact hmove (Or.inl ha) rfl rfl rfl rfl
  | publishShutdown k => exact hmove (Or.inr ha) rfl rfl rfl rfl
  | abandonShutdown k => exact hmove (Or.inl ha) rfl rfl rfl rfl
  | announce reason =>
    obtain ⟨status, attempt, loop, -, heq⟩ := Publishing.announceNext_eq u reason
    rw [Publishing.next, heq]
    exact hreturned rfl rfl id rfl
  | dial connected => cases connected <;> exact h
  | _ => exact h

end

/-! ## Who waits -/

theorem isSubscribed_mark (w : Waiter) : w.mark.isSubscribed = w.isSubscribed := by
  cases w <;> rfl

/-- Nobody who is told of a new value has seen it. -/
theorem mark_ne_parked (w : Waiter) : w.mark ≠ .parked false := by
  cases w <;> nofun

theorem of_mark {w p : Waiter} (h : w.mark = p) (hp : p ≠ .parked true) : w = p := by
  cases w with
  | parked changed => exact absurd h.symm hp
  | _ => exact h

theorem connNext_waiters (s : State) (a : Publishing.Action) (w : ℕ) :
    (connNext s a).waiters w =
      if (stored s.conn a).isSome = true then (s.waiters w).mark else s.waiters w := by
  change (if (stored s.conn a).isSome = true then fun w => (s.waiters w).mark else s.waiters) w = _
  split <;> rfl

/-- The waiters of any run. Nobody is parked at a value that settles the matter. -/
structure Sound (s : State) : Prop where
  parked : ∀ w, s.waiters w = .parked false → settles s.conn.cell.value = false
  subscribed : ∀ w, w ∈ s.subscribed ↔ (s.waiters w).isSubscribed = true
  fresh : ∀ w, s.waiterCount ≤ w → s.waiters w = .idle
  receivers : s.subscribed.card + held s.conn ≤ s.conn.cell.receivers
  returned : s.subscribed.Nonempty → s.conn.connect = .returned
  sheltered : Sheltered s.conn

theorem sound_init (max : Option ℕ) : Sound (init max) where
  parked := nofun
  subscribed w := iff_of_false (Finset.notMem_empty w) nofun
  fresh _ _ := rfl
  receivers := Nat.le_refl 1
  returned h := absurd h Finset.not_nonempty_empty
  sheltered _ h := h.elim nofun nofun

namespace Sound

variable {s : State} {w : ℕ}

/-- A live waiter is one of the calls made so far. -/
theorem lt_waiterCount (h : Sound s) (hw : s.waiters w ≠ .idle) : w < s.waiterCount := by
  by_contra hlt
  exact hw (h.fresh w (Nat.not_lt.mp hlt))

/-- A waiter is done. -/
theorem leave (h : Sound s) {result : Waiter} (hw : s.waiters w ≠ .idle)
    (hresult : result.isSubscribed = false) : Sound (s.leave w result) := by
  have hlt := h.lt_waiterCount hw
  have hvalue : (s.leave w result).conn.cell.value = s.conn.cell.value := by
    rw [State.leave]
    dsimp only
    split <;> rfl
  refine ⟨fun v hv => ?_, fun v => ?_, fun v hv => ?_, ?_, fun hne => ?_, ?_⟩
  · rw [hvalue]
    by_cases hvw : v = w
    · rw [hvw] at hv
      have hself : (s.leave w result).waiters w = result := Function.update_self ..
      rw [hself] at hv
      rw [hv] at hresult
      cases hresult
    · have hother : (s.leave w result).waiters v = s.waiters v := Function.update_of_ne hvw _ _
      exact h.parked v (hother ▸ hv)
  · change v ∈ s.subscribed.erase w ↔ (Function.update s.waiters w result v).isSubscribed = true
    by_cases hvw : v = w
    · rw [hvw, Function.update_self, hresult]
      exact iff_of_false (Finset.notMem_erase w _) nofun
    · rw [Function.update_of_ne hvw, Finset.mem_erase, h.subscribed v]
      exact and_iff_right hvw
  · have hother : (s.leave w result).waiters v = s.waiters v :=
      Function.update_of_ne (Nat.ne_of_gt (Nat.lt_of_lt_of_le hlt hv)) _ _
    rw [hother]
    exact h.fresh v hv
  · change (s.subscribed.erase w).card + held (s.leave w result).conn ≤ _
    have hreceivers := h.receivers
    rw [State.leave]
    dsimp only
    by_cases hmem : w ∈ s.subscribed
    · rw [if_pos hmem, Finset.card_erase_of_mem hmem]
      have hcard : 0 < s.subscribed.card := Finset.card_pos.mpr ⟨w, hmem⟩
      change s.subscribed.card - 1 + held s.conn ≤ s.conn.cell.receivers - 1
      omega
    · rw [if_neg hmem, Finset.erase_eq_of_notMem hmem]
      exact hreceivers
  · have hreturned := h.returned (hne.mono (Finset.erase_subset _ _))
    rw [State.leave]
    dsimp only
    split <;> exact hreturned
  · rw [State.leave]
    dsimp only
    split <;> exact h.sheltered

/-- A waiter goes on waiting. -/
theorem setWaiter (h : Sound s) {position : Waiter} (hw : (s.waiters w).isSubscribed = true)
    (hposition : position.isSubscribed = true)
    (hparked : position = .parked false → settles s.conn.cell.value = false) :
    Sound (s.setWaiter w position) := by
  have hlt : w < s.waiterCount := h.lt_waiterCount fun hidle => by rw [hidle] at hw; cases hw
  refine ⟨fun v hv => ?_, fun v => ?_, fun v hv => ?_, h.receivers, h.returned, h.sheltered⟩
  · change Function.update s.waiters w position v = .parked false at hv
    by_cases hvw : v = w
    · rw [hvw, Function.update_self] at hv
      exact hparked hv
    · rw [Function.update_of_ne hvw] at hv
      exact h.parked v hv
  · change v ∈ s.subscribed ↔ (Function.update s.waiters w position v).isSubscribed = true
    by_cases hvw : v = w
    · rw [hvw, Function.update_self, h.subscribed w, hw, hposition]
    · rw [Function.update_of_ne hvw, h.subscribed v]
  · change Function.update s.waiters w position v = .idle
    rw [Function.update_of_ne (Nat.ne_of_gt (Nat.lt_of_lt_of_le hlt hv))]
    exact h.fresh v hv

/-- A new call. -/
theorem call (h : Sound s) (hreturned : s.conn.connect = .returned) : Sound (callNext s) := by
  have hnew : s.waiterCount ∉ s.subscribed := by
    rw [h.subscribed, h.fresh _ (Nat.le_refl _)]
    nofun
  have hother : ∀ {v : ℕ} {p : Waiter}, s.waiterCount + 1 ≤ v →
      Function.update s.waiters s.waiterCount p v = .idle := by
    intro v p hv
    rw [Function.update_of_ne (by omega)]
    exact h.fresh v (by omega)
  have hparked : ∀ {v : ℕ} {p : Waiter}, p ≠ .parked false →
      Function.update s.waiters s.waiterCount p v = .parked false →
        settles s.conn.cell.value = false := by
    intro v p hp hv
    by_cases hvc : v = s.waiterCount
    · rw [hvc, Function.update_self] at hv
      exact absurd hv hp
    · rw [Function.update_of_ne hvc] at hv
      exact h.parked v hv
  rw [callNext]
  split
  · refine ⟨fun v hv => hparked (p := .looking) nofun hv, fun v => ?_, fun v hv => hother hv, ?_,
      fun _ => hreturned, h.sheltered⟩
    · dsimp only
      by_cases hvc : v = s.waiterCount
      · rw [hvc, Function.update_self]
        exact iff_of_true (Finset.mem_insert_self _ _) rfl
      · rw [Function.update_of_ne hvc, Finset.mem_insert, h.subscribed v]
        exact or_iff_right hvc
    · have hreceivers := h.receivers
      dsimp only
      rw [Finset.card_insert_of_notMem hnew]
      change s.subscribed.card + 1 + held s.conn ≤ s.conn.cell.receivers + 1
      omega
  · refine ⟨fun v hv => hparked (p := .orphan) nofun hv, fun v => ?_, fun v hv => hother hv,
      h.receivers, h.returned, h.sheltered⟩
    dsimp only
    by_cases hvc : v = s.waiterCount
    · rw [hvc, Function.update_self]
      exact iff_of_false hnew nofun
    · rw [Function.update_of_ne hvc, h.subscribed v]

/-- Looking at the state. -/
theorem look (h : Sound s) (hw : s.waiters w = .looking) : Sound (lookNext s w) := by
  have hne : s.waiters w ≠ .idle := by
    rw [hw]
    nofun
  have hsub : (s.waiters w).isSubscribed = true := by
    rw [hw]
    rfl
  rw [lookNext]
  split
  · exact h.leave hne rfl
  · next reason hvalue =>
    split
    · exact h.leave hne rfl
    · next hno =>
      refine h.setWaiter hsub rfl fun _ => ?_
      rw [hvalue]
      exact Bool.eq_false_of_not_eq_true hno
  · next attempt hvalue =>
    refine h.setWaiter hsub rfl fun _ => ?_
    rw [hvalue]
    rfl

/-- A step of the connection. -/
theorem conn (h : Sound s) {a : Publishing.Action} (ha : Publishing.Enabled s.conn a)
    (hdrop : a = .dropReceiver → s.subscribed.card < s.conn.cell.receivers) :
    Sound (connNext s a) := by
  refine ⟨fun v hv => ?_, fun v => ?_, fun v hv => ?_, held_next ha h.receivers hdrop,
    fun hne => ?_, h.sheltered.next ha⟩
  · rw [connNext_waiters] at hv
    change settles (Publishing.next s.conn a).cell.value = false
    rw [value_next]
    cases hstored : stored s.conn a with
    | none =>
      rw [hstored] at hv
      exact h.parked v hv
    | some status =>
      rw [hstored] at hv
      exact absurd hv (mark_ne_parked _)
  · rw [connNext_waiters]
    split
    · rw [isSubscribed_mark]
      exact h.subscribed v
    · exact h.subscribed v
  · rw [connNext_waiters, h.fresh v hv]
    split <;> rfl
  · have hreturned := h.returned hne
    change (Publishing.next s.conn a).connect = .returned
    rcases connect_next (u := s.conn) (a := a) with hsame | rfl | rfl
    · exact hsame.trans hreturned
    · have hspawned : s.conn.connect = .spawned := ha
      cases hspawned.symm.trans hreturned
    · rfl

/-- **Waiters of any run.** -/
theorem next {a : Action} (h : Sound s) (ha : Enabled s a) : Sound (Waiting.next s a) := by
  cases a with
  | conn a => exact h.conn ha.1 ha.2.1
  | close => exact ⟨h.parked, h.subscribed, h.fresh, h.receivers, h.returned, h.sheltered⟩
  | dropClient => exact ⟨h.parked, h.subscribed, h.fresh, h.receivers, h.returned, h.sheltered⟩
  | call => exact h.call ha.2
  | look w => exact h.look ha
  | wake w =>
    have hw : s.waiters w = .parked true := ha
    exact h.setWaiter (by rw [hw]; rfl) rfl nofun
  | fail w =>
    refine h.leave (fun hidle => ?_) rfl
    rcases ha with hw | ⟨hw, -⟩
    · cases hidle.symm.trans hw
    · cases hidle.symm.trans hw
  | cancel w =>
    have hw : (s.waiters w).isLive = true := ha
    refine h.leave (fun hidle => ?_) rfl
    rw [hidle] at hw
    cases hw

end Sound

/-! ## What the value says -/

/-- A fatal value is the loop's last word, and after the exit the value settles the matter, as far
as anybody waits. -/
structure Truthful (s : State) : Prop where
  fatal : isFatal s.conn.cell.value = true →
    s.conn.loop.isOver = true ∨ s.conn.connect = .spawned ∨ ¬s.Watched
  exited : s.conn.loop = .exited → s.conn.dropped = true ∨ s.conn.connect = .spawned ∨
    ¬s.Watched ∨ settles s.conn.cell.value = true
  failed : ∀ w, s.waiters w = .failed → s.conn.loop.isOver = true
  orphan : ∀ w, s.waiters w = .orphan → s.conn.loop.isOver = true

theorem truthful_init (max : Option ℕ) : Truthful (init max) where
  fatal _ := Or.inr (Or.inl rfl)
  exited := nofun
  failed := nofun
  orphan := nofun

section

variable {s t : State} {u : Publishing.State}

/-- A loop that publishes a fatal reason has given up. -/
theorem isOver_of_fatal {reason : String}
    (h : isFatal (Publishing.announceNext u reason).intended = true) :
    (Publishing.announceNext u reason).loop.isOver = true := by
  rw [Publishing.announceNext] at h ⊢
  dsimp only at h ⊢
  split
  · rfl
  · next hgoes =>
    rw [if_neg hgoes] at h
    cases h

/-- The fatal values of a conforming step. -/
theorem Truthful.fatal_next (h : Truthful s) {a : Publishing.Action}
    (hf : Foreseen s (.conn a)) (ha : Publishing.Enabled s.conn a)
    (hfatal : isFatal (Publishing.next s.conn a).cell.value = true) :
    (Publishing.next s.conn a).loop.isOver = true ∨
      (Publishing.next s.conn a).connect = .spawned ∨ ¬s.Watched := by
  rw [value_next] at hfatal
  have hold : stored s.conn a = none → (Publishing.next s.conn a).loop.isOver = true ∨
      (Publishing.next s.conn a).connect = .spawned ∨ ¬s.Watched := by
    intro hnone
    rw [hnone] at hfatal
    rcases h.fatal hfatal with hover | hspawned | hno
    · exact Or.inl (isOver_next ha hover)
    · rcases connect_next (u := s.conn) (a := a) with hsame | rfl | rfl
      · exact Or.inr (Or.inl (hsame.trans hspawned))
      · cases hnone
      · have hpublished : s.conn.connect = .published := ha
        cases hspawned.symm.trans hpublished
    · exact Or.inr (Or.inr hno)
  by_cases hr : 0 < s.conn.cell.receivers
  · have hstored : a ≠ .connectPublish → stored s.conn a = a.status s.conn := by
      intro hne
      rw [stored, if_neg hne, if_pos hr]
    cases a with
    | connectPublish => cases hfatal
    | publishShutdown k =>
      rw [hstored nofun] at hfatal
      cases isPermanent_clientShutdown.symm.trans hfatal
    | lose loss =>
      rw [hstored nofun] at hfatal
      rcases hf hfatal with hnone | hspawned | hno
      · exact absurd hnone (Nat.ne_of_gt hr)
      · exact Or.inr (Or.inl hspawned)
      · exact Or.inr (Or.inr hno)
    | announce reason =>
      rw [hstored nofun] at hfatal
      exact Or.inl (isOver_of_fatal hfatal)
    | publishConnected =>
      rw [hstored nofun] at hfatal
      cases hfatal
    | _ => exact hold (hstored nofun)
  · by_cases hconnect : a = .connectPublish
    · rw [hconnect] at hfatal
      cases hfatal
    · refine hold ?_
      rw [stored, if_neg hconnect, if_neg hr]

/-- The exit of a conforming run. -/
theorem Truthful.exited_next (h : Truthful s) {a : Publishing.Action}
    (hf : Foreseen s (.conn a)) (ha : Publishing.Enabled s.conn a)
    (hexited : (Publishing.next s.conn a).loop = .exited) :
    (Publishing.next s.conn a).dropped = true ∨ (Publishing.next s.conn a).connect = .spawned ∨
      ¬s.Watched ∨ settles (Publishing.next s.conn a).cell.value = true := by
  cases a with
  | exit => exact hf
  | connectPublish => exact Or.inr (Or.inr (Or.inr rfl))
  | connectReturn =>
    have hpublished : s.conn.connect = .published := ha
    rcases h.exited hexited with hdropped | hspawned | hrest
    · exact Or.inl hdropped
    · cases hspawned.symm.trans hpublished
    · exact Or.inr (Or.inr hrest)
  | publishShutdown k =>
    rcases hf hexited with hnone | hno
    · have hvalue : (Publishing.next s.conn (.publishShutdown k)).cell.value =
          s.conn.cell.value := Watch.send_value_of_none hnone
      rw [hvalue]
      exact h.exited hexited
    · exact Or.inr (Or.inr (Or.inl hno))
  | dropConnection => exact Or.inl rfl
  | announce reason =>
    change (Publishing.announceNext s.conn reason).loop = .exited at hexited
    rw [Publishing.announceNext] at hexited
    dsimp only at hexited
    split at hexited <;> cases hexited
  | checkShutdown reason =>
    change (if s.conn.cancelled then Publishing.Loop.cleaning else _) = _ at hexited
    split at hexited <;> cases hexited
  | checkClosed reason =>
    change (if s.conn.dropped then Publishing.Loop.cleaning else _) = _ at hexited
    split at hexited <;> cases hexited
  | dial connected => cases connected <;> cases hexited
  | lose loss => cases hexited
  | leaveShutdown => cases hexited
  | leaveChannelClosed => cases hexited
  | wake => cases hexited
  | publishConnected => cases hexited
  | resumed => cases hexited
  | _ => exact h.exited hexited

/-- A step that leaves the connection as it is, but for the receivers. -/
theorem Truthful.of_same (h : Truthful s) (hvalue : t.conn.cell.value = s.conn.cell.value)
    (hloop : t.conn.loop = s.conn.loop) (hconnect : t.conn.connect = s.conn.connect)
    (hdropped : t.conn.dropped = s.conn.dropped) (hwatched : t.Watched → s.Watched)
    (hfailed : ∀ w, t.waiters w = .failed → s.conn.loop.isOver = true)
    (horphan : ∀ w, t.waiters w = .orphan → s.conn.loop.isOver = true) : Truthful t := by
  refine ⟨?_, ?_, fun w hw => ?_, fun w hw => ?_⟩
  · rw [hvalue, hloop, hconnect]
    intro hfatal
    rcases h.fatal hfatal with hover | hspawned | hno
    · exact Or.inl hover
    · exact Or.inr (Or.inl hspawned)
    · exact Or.inr (Or.inr fun hw => hno (hwatched hw))
  · rw [hvalue, hloop, hconnect, hdropped]
    intro hexited
    rcases h.exited hexited with hd | hspawned | hno | hsettles
    · exact Or.inl hd
    · exact Or.inr (Or.inl hspawned)
    · exact Or.inr (Or.inr (Or.inl fun hw => hno (hwatched hw)))
    · exact Or.inr (Or.inr (Or.inr hsettles))
  · rw [hloop]
    exact hfailed w hw
  · rw [hloop]
    exact horphan w hw

theorem leave_conn (s : State) (w : ℕ) (result : Waiter) :
    (s.leave w result).conn.cell.value = s.conn.cell.value ∧
      (s.leave w result).conn.loop = s.conn.loop ∧
      (s.leave w result).conn.connect = s.conn.connect ∧
      (s.leave w result).conn.dropped = s.conn.dropped := by
  rw [State.leave]
  dsimp only
  split <;> exact ⟨rfl, rfl, rfl, rfl⟩

/-- A waiter is done; with an error, the loop is over. -/
theorem Truthful.leave (h : Truthful s) (w : ℕ) {result : Waiter} (horphan : result ≠ .orphan)
    (hfailed : result = .failed → s.conn.loop.isOver = true) : Truthful (s.leave w result) := by
  obtain ⟨hvalue, hloop, hconnect, hdropped⟩ := leave_conn s w result
  have hwaiters : ∀ {v p}, (s.leave w result).waiters v = p → result = p ∨ s.waiters v = p := by
    intro v p hv
    change Function.update s.waiters w result v = p at hv
    by_cases hvw : v = w
    · rw [hvw, Function.update_self] at hv
      exact Or.inl hv
    · rw [Function.update_of_ne hvw] at hv
      exact Or.inr hv
  refine h.of_same hvalue hloop hconnect hdropped ?_ (fun v hv => ?_) fun v hv => ?_
  · rintro (hlive | hne)
    · exact Or.inl hlive
    · exact Or.inr (hne.mono (Finset.erase_subset _ _))
  · exact (hwaiters hv).elim hfailed (h.failed v)
  · exact (hwaiters hv).elim (fun heq => absurd heq horphan) (h.orphan v)

/-- A waiter goes on waiting. -/
theorem Truthful.setWaiter (h : Truthful s) (w : ℕ) {position : Waiter}
    (hposition : position.isSubscribed = true) : Truthful (s.setWaiter w position) := by
  have hwaiters : ∀ {v p}, p.isSubscribed = false → (s.setWaiter w position).waiters v = p →
      s.waiters v = p := by
    intro v p hp hv
    change Function.update s.waiters w position v = p at hv
    by_cases hvw : v = w
    · rw [hvw, Function.update_self] at hv
      rw [hv] at hposition
      cases hp.symm.trans hposition
    · rwa [Function.update_of_ne hvw] at hv
  exact h.of_same rfl rfl rfl rfl id (fun v hv => h.failed v (hwaiters rfl hv))
    fun v hv => h.orphan v (hwaiters rfl hv)

/-- Looking at the state fails only when the loop is over. -/
theorem Truthful.look (h : Truthful s) (hs : Sound s) {w : ℕ} (hw : s.waiters w = .looking) :
    Truthful (lookNext s w) := by
  have hmem : w ∈ s.subscribed := by
    rw [hs.subscribed, hw]
    rfl
  rw [lookNext]
  split
  · exact h.leave w nofun nofun
  · next reason hvalue =>
    split
    · next hpermanent =>
      refine h.leave w nofun fun _ => ?_
      have hfatal : isFatal s.conn.cell.value = true := by
        rw [hvalue]
        exact hpermanent
      rcases h.fatal hfatal with hover | hspawned | hno
      · exact hover
      · cases hspawned.symm.trans (hs.returned ⟨w, hmem⟩)
      · exact absurd (Or.inr ⟨w, hmem⟩) hno
    · exact h.setWaiter w rfl
  · exact h.setWaiter w rfl

/-- **One step** of a conforming run. -/
theorem Truthful.next {a : Action} (h : Truthful s) (hs : Sound s) (hf : Foreseen s a)
    (ha : Enabled s a) : Truthful (Waiting.next s a) := by
  cases a with
  | conn a =>
    have hwaiters : ∀ {v p}, p ≠ .parked true → (connNext s a).waiters v = p →
        s.waiters v = p := by
      intro v p hp hv
      rw [connNext_waiters] at hv
      split at hv
      · exact of_mark hv hp
      · exact hv
    exact ⟨h.fatal_next hf ha.1, h.exited_next hf ha.1,
      fun w hw => isOver_next ha.1 (h.failed w (hwaiters nofun hw)),
      fun w hw => isOver_next ha.1 (h.orphan w (hwaiters nofun hw))⟩
  | close =>
    refine h.of_same rfl rfl rfl rfl ?_ h.failed h.orphan
    rintro (hlive | hne)
    · cases hlive
    · exact Or.inr hne
  | dropClient =>
    refine h.of_same rfl rfl rfl rfl ?_ h.failed h.orphan
    rintro (hlive | hne)
    · cases hlive
    · exact Or.inr hne
  | call =>
    have hold : ∀ {p q : Waiter} {v : ℕ}, Function.update s.waiters s.waiterCount p v = q →
        p ≠ q → s.waiters v = q := by
      intro p q v hv hne
      by_cases hvc : v = s.waiterCount
      · rw [hvc, Function.update_self] at hv
        exact absurd hv hne
      · rwa [Function.update_of_ne hvc] at hv
    change Truthful (callNext s)
    rw [callNext]
    split
    · next hlive =>
      exact h.of_same rfl rfl rfl rfl (fun _ => Or.inl hlive)
        (fun v hv => h.failed v (hold hv nofun)) fun v hv => h.orphan v (hold hv nofun)
    · next hnot =>
      have hclosed : s.client = .closed := by
        cases hc : s.client with
        | live => exact absurd hc hnot
        | closed => rfl
        | dropped => exact absurd hc ha.1
      have hover := hf hclosed
      exact h.of_same rfl rfl rfl rfl id (fun v hv => h.failed v (hold hv nofun)) fun _ _ => hover
  | look w => exact h.look hs ha
  | wake w => exact h.setWaiter w rfl
  | fail w =>
    refine h.leave w nofun fun _ => ?_
    rcases ha with horphan | ⟨-, -, hexited⟩
    · exact h.orphan w horphan
    · rw [hexited]
      rfl
  | cancel w => exact h.leave w nofun nofun

/-- What is published is what waiters need. -/
theorem Truthful.honest (h : Truthful s) (hs : Sound s) : s.Honest where
  failed := h.failed
  parked hexited hdropped w hw := by
    have hmem : w ∈ s.subscribed := by
      rw [hs.subscribed, hw]
      rfl
    rcases h.exited hexited with hd | hspawned | hno | hsettles
    · cases hdropped.symm.trans hd
    · cases hspawned.symm.trans (hs.returned ⟨w, hmem⟩)
    · exact hno (Or.inr ⟨w, hmem⟩)
    · cases (hs.parked w hw).symm.trans hsettles

end

/-! ## Every run -/

section

variable {s : State}

theorem lookNext_fatal {w : ℕ} (h : isFatal s.conn.cell.value = true) :
    lookNext s w = s.leave w .failed := by
  rw [lookNext]
  split
  · next hvalue =>
    rw [hvalue] at h
    cases h
  · next reason hvalue =>
    rw [hvalue] at h
    exact if_pos h
  · next attempt hvalue =>
    rw [hvalue] at h
    cases h

theorem lookNext_unsettled {w : ℕ} (h : settles s.conn.cell.value = false) :
    lookNext s w = s.setWaiter w (.parked false) := by
  rw [lookNext]
  split
  · next hvalue =>
    rw [hvalue] at h
    cases h
  · next reason hvalue =>
    rw [hvalue] at h
    exact if_neg (Bool.eq_false_iff.mp h)
  · rfl

/-- Somebody who waits, or comes now, is about to look at the state or has seen it. -/
theorem Sound.looks (h : Sound s) (hwatched : s.Watched) (hconnect : s.conn.connect ≠ .spawned) :
    ∃ bs w, system.Valid s bs ∧ (system.exec s bs).conn.loop = s.conn.loop ∧
      (system.exec s bs).conn.dropped = s.conn.dropped ∧
      (system.exec s bs).conn.cell.value = s.conn.cell.value ∧
      ((system.exec s bs).waiters w = .looking ∨ (system.exec s bs).waiters w = .parked false) := by
  have hcall : ∀ t : State, t.client = .live → t.conn.connect = .returned →
      system.Valid t [.call] ∧ (system.exec t [.call]).conn.loop = t.conn.loop ∧
        (system.exec t [.call]).conn.dropped = t.conn.dropped ∧
        (system.exec t [.call]).conn.cell.value = t.conn.cell.value ∧
        (system.exec t [.call]).waiters t.waiterCount = .looking := by
    intro t hlive hreturned
    have hnext : system.exec t [.call] = { t with
        conn := { t.conn with cell := t.conn.cell.subscribe }
        waiters := Function.update t.waiters t.waiterCount .looking
        waiterCount := t.waiterCount + 1
        subscribed := insert t.waiterCount t.subscribed } := if_pos hlive
    rw [hnext]
    refine ⟨⟨⟨?_, hreturned⟩, trivial⟩, rfl, rfl, rfl, Function.update_self ..⟩
    rw [hlive]
    nofun
  by_cases hlive : s.client = .live
  · cases hc : s.conn.connect with
    | spawned => exact absurd hc hconnect
    | published =>
      obtain ⟨hvalid, hloop, hdropped, hvalue, hlooking⟩ :=
        hcall (connNext s .connectReturn) hlive rfl
      exact ⟨[.conn .connectReturn, .call], _, ⟨⟨hc, nofun, nofun⟩, hvalid⟩, hloop, hdropped,
        hvalue, Or.inl hlooking⟩
    | returned =>
      obtain ⟨hvalid, hloop, hdropped, hvalue, hlooking⟩ := hcall s hlive hc
      exact ⟨[.call], _, hvalid, hloop, hdropped, hvalue, Or.inl hlooking⟩
  · obtain ⟨w, hmem⟩ := hwatched.resolve_left hlive
    have hsub := (h.subscribed w).mp hmem
    cases hw : s.waiters w with
    | looking => exact ⟨[], w, trivial, rfl, rfl, rfl, Or.inl hw⟩
    | parked changed =>
      cases changed with
      | true =>
        exact ⟨[.wake w], w, ⟨hw, trivial⟩, rfl, rfl, rfl, Or.inl (Function.update_self ..)⟩
      | false => exact ⟨[], w, trivial, rfl, rfl, rfl, Or.inr hw⟩
    | idle => rw [hw] at hsub; cases hsub
    | orphan => rw [hw] at hsub; cases hsub
    | returned => rw [hw] at hsub; cases hsub
    | failed => rw [hw] at hsub; cases hsub
    | cancelled => rw [hw] at hsub; cases hsub

/-- A fatal value misleads somebody while the loop goes on. -/
theorem Sound.misleads (h : Sound s) (hwatched : s.Watched) (hconnect : s.conn.connect ≠ .spawned)
    (hfatal : isFatal s.conn.cell.value = true) (hloop : s.conn.loop.isOver = false) :
    ∃ bs, system.Valid s bs ∧ ¬(system.exec s bs).Honest := by
  obtain ⟨bs, w, hvalid, hsame, -, hvalue, hlooking⟩ := h.looks hwatched hconnect
  rw [← hvalue] at hfatal
  rcases hlooking with hlooking | hparked
  · have hlook : system.Valid (system.exec s bs) [.look w] := ⟨hlooking, trivial⟩
    refine ⟨bs ++ [.look w], (system.valid_append).mpr ⟨hvalid, hlook⟩, fun hhonest => ?_⟩
    have hnext : system.exec s (bs ++ [.look w]) = (system.exec s bs).leave w .failed := by
      rw [Transition.System.exec_append]
      exact lookNext_fatal hfatal
    rw [hnext] at hhonest
    have hover := hhonest.failed w (Function.update_self ..)
    rw [(leave_conn _ w .failed).2.1, hsame] at hover
    cases hloop.symm.trans hover
  · have hsound := Transition.System.invariant (S := system) (I := Sound)
      (fun _ _ hs ha => hs.next ha) h hvalid
    cases (hsound.parked w hparked).symm.trans (settles_of_fatal hfatal)

/-- A value that settles nothing strands somebody after the exit. -/
theorem Sound.strands (h : Sound s) (hwatched : s.Watched) (hconnect : s.conn.connect ≠ .spawned)
    (hopen : settles s.conn.cell.value = false) (hloop : s.conn.loop = .exited)
    (hdropped : s.conn.dropped = false) :
    ∃ bs, system.Valid s bs ∧ ¬(system.exec s bs).Honest := by
  obtain ⟨bs, w, hvalid, hsame, hstill, hvalue, hlooking⟩ := h.looks hwatched hconnect
  rw [← hvalue] at hopen
  rw [← hsame] at hloop
  rw [← hstill] at hdropped
  rcases hlooking with hlooking | hparked
  · have hlook : system.Valid (system.exec s bs) [.look w] := ⟨hlooking, trivial⟩
    refine ⟨bs ++ [.look w], (system.valid_append).mpr ⟨hvalid, hlook⟩, fun hhonest => ?_⟩
    have hnext : system.exec s (bs ++ [.look w]) =
        (system.exec s bs).setWaiter w (.parked false) := by
      rw [Transition.System.exec_append]
      exact lookNext_unsettled hopen
    rw [hnext] at hhonest
    exact hhonest.parked hloop hdropped w (Function.update_self ..)
  · exact ⟨bs, hvalid, fun hhonest => hhonest.parked hloop hdropped w hparked⟩

/-- **Nothing else is left out.** A step that is not foreseen misleads a waiter or strands one. -/
theorem Sound.unforeseen (h : Sound s) {a : Action} (ha : Enabled s a) (hf : ¬Foreseen s a) :
    ∃ bs, system.Valid (Waiting.next s a) bs ∧
      ¬(system.exec (Waiting.next s a) bs).Honest := by
  have hsound : Sound (Waiting.next s a) := h.next ha
  cases a with
  | conn a =>
    cases a with
    | lose loss =>
      obtain ⟨hpermanent, hno⟩ := Classical.not_imp.mp hf
      obtain ⟨hreceivers, hconnect, hwatched⟩ := not_or.mp hno |>.imp_right not_or.mp
      have hvalue : (Publishing.next s.conn (.lose loss)).cell.value = .disconnected loss.reason :=
        Watch.send_value (Nat.pos_of_ne_zero hreceivers)
      refine hsound.misleads (not_not.mp hwatched) hconnect ?_ rfl
      change isFatal (Publishing.next s.conn (.lose loss)).cell.value = true
      rw [hvalue]
      exact hpermanent
    | exit =>
      obtain ⟨hdropped, hno⟩ := not_or.mp hf
      obtain ⟨hconnect, hno⟩ := not_or.mp hno
      obtain ⟨hwatched, hsettles⟩ := not_or.mp hno
      exact hsound.strands (not_not.mp hwatched) hconnect (Bool.eq_false_iff.mpr hsettles) rfl
        (Bool.eq_false_iff.mpr hdropped)
    | publishShutdown k =>
      obtain ⟨hexited, hno⟩ := Classical.not_imp.mp hf
      obtain ⟨hreceivers, hwatched⟩ := not_or.mp hno
      have hvalue : (Publishing.next s.conn (.publishShutdown k)).cell.value =
          .disconnected "Client shutdown" := Watch.send_value (Nat.pos_of_ne_zero hreceivers)
      have hstopping : s.conn.shutdowns k = .cancelled := ha.1
      obtain ⟨-, hreturned, hdropped⟩ := h.sheltered k (Or.inr hstopping)
      refine hsound.strands (not_not.mp hwatched) (fun hspawned => ?_) ?_ hexited hdropped
      · cases hreturned.symm.trans hspawned
      · change settles (Publishing.next s.conn (.publishShutdown k)).cell.value = false
        rw [hvalue]
        exact isPermanent_clientShutdown
    | _ => exact absurd trivial hf
  | call =>
    obtain ⟨hclosed, hover⟩ := Classical.not_imp.mp hf
    have hnot : ¬s.client = .live := by
      rw [hclosed]
      nofun
    have hnext : Waiting.next s .call = { s with
        waiters := Function.update s.waiters s.waiterCount .orphan
        waiterCount := s.waiterCount + 1 } := if_neg hnot
    refine ⟨[.fail s.waiterCount], ⟨Or.inl ?_, trivial⟩, fun hhonest => hover ?_⟩
    · rw [hnext]
      exact Function.update_self ..
    · have hfailed := hhonest.failed s.waiterCount (Function.update_self ..)
      change ((Waiting.next s .call).leave s.waiterCount .failed).conn.loop.isOver = true
        at hfailed
      rw [(leave_conn _ s.waiterCount .failed).2.1, hnext] at hfailed
      exact hfailed
  | _ => exact absurd trivial hf

end

/-- **Waiters are told the truth.** In every state of a run whose steps are all foreseen, an error
of `wait_for_connected` means that the loop has given up or has exited, and nobody who has seen the
last state is parked after the exit while the `Connection` is alive. After a step that is not
foreseen the run goes on to a state where that is wrong. -/
theorem wait_for_connected_honest (max : Option ℕ) (as : List Action)
    (hv : system.Valid (init max) as) :
    (system.Along Foreseen (init max) as → (system.exec (init max) as).Honest) ∧
      ∀ a, Enabled (system.exec (init max) as) a → ¬Foreseen (system.exec (init max) as) a →
        ∃ bs, system.Valid (next (system.exec (init max) as) a) bs ∧
          ¬(system.exec (next (system.exec (init max) as) a) bs).Honest := by
  have hsound : Sound (system.exec (init max) as) :=
    Transition.System.invariant (fun _ _ h ha => h.next ha) (sound_init max) hv
  refine ⟨fun hforeseen => ?_, fun a ha hno => hsound.unforeseen ha hno⟩
  have hreach := Transition.System.along_of_reachable (S := system) (R := Sound)
    (fun past hpast => Transition.System.invariant (fun _ _ h ha => h.next ha) (sound_init max)
      hpast) hv
  have htruthful : Truthful (system.exec (init max) as) :=
    Transition.System.invariant_along (fun _ _ h hc ha => h.next hc.2 hc.1 ha) (truthful_init max)
      (hforeseen.and hreach) hv
  exact htruthful.honest hsound

/-- `connect` returns, and somebody waits. -/
def firstCall : List Action := [.conn .connectPublish, .conn .connectReturn, .call]

/-- The connection is lost, and the loop decides about the next attempt. -/
def outage : List Action :=
  [.conn (.lose .pongTimeout), .conn (.checkShutdown "Pong timeout"),
    .conn (.checkClosed "Pong timeout"), .conn (.announce "Pong timeout")]

/-- A waiter sees the connection come back. A second one comes during the next outage and sees the
loop give up after one attempt. -/
def givenUpRun : List Action :=
  firstCall ++ outage ++ [.look 0, .conn .wake, .conn (.dial true), .conn .publishConnected,
    .wake 0, .look 0, .conn .resumed, .call] ++ outage ++ [.look 1, .conn .wake,
    .conn (.dial false)] ++ outage ++ [.conn .exit, .wake 1, .look 1]

set_option maxRecDepth 20000 in
theorem wait_for_connected_honest_givenUpRun :
    (system.exec (init (some 1)) givenUpRun).Honest ∧
      (system.exec (init (some 1)) givenUpRun).waiters 0 = .returned ∧
      (system.exec (init (some 1)) givenUpRun).waiters 1 = .failed :=
  ⟨(wait_for_connected_honest (some 1) givenUpRun (by decide)).1 (by decide), by decide, by decide⟩

/-- The server closes the connection with a reason of its own. -/
def rateLimited : List Action :=
  firstCall ++ [.conn (.lose (.closed (some "Max reconnect attempts per hour exceeded"))), .look 0]

/-- The client is closed while somebody waits and the `Connection` is held elsewhere. -/
def closedWhileHeld : List Action :=
  firstCall ++ [.conn .shutdown, .conn (.cancel 0), .conn (.publishShutdown 0), .look 0, .close,
    .conn .leaveShutdown, .conn (.checkShutdown "Client shutdown"), .conn .exit]

set_option maxRecDepth 20000 in
/-- **A waiter that fails too early, and one that never returns.** The close frame's reason makes
`wait_for_connected` return an error while the loop is about to reconnect. After `close` the loop
exits with a reason that does not contain the text, and nobody wakes the waiter any more. -/
theorem misled_waiters :
    (system.Valid (init none) rateLimited ∧
      (system.exec (init none) rateLimited).waiters 0 = .failed ∧
      (system.exec (init none) rateLimited).conn.loop.isOver = false ∧
      ¬(system.exec (init none) rateLimited).Honest) ∧
    system.Valid (init none) closedWhileHeld ∧
      (system.exec (init none) closedWhileHeld).waiters 0 = .parked false ∧
      (system.exec (init none) closedWhileHeld).conn.loop = .exited ∧
      (system.exec (init none) closedWhileHeld).conn.dropped = false ∧
      ¬(system.exec (init none) closedWhileHeld).Honest := by
  refine ⟨⟨by decide, by decide, by decide, fun h => ?_⟩, by decide, by decide, by decide,
    by decide, fun h => ?_⟩
  · exact absurd (h.failed 0 (by decide)) (by decide)
  · exact h.parked (by decide) (by decide) 0 (by decide)

end Waiting

end TitanClient
