import TitanClient.FairLock
import TitanClient.WaitConnected

/-!
# The client

`TitanClient` keeps its connection and its stream manager behind two locks. Every function of the
API begins with a look behind one of them; `close` shuts the connection down while it holds the
first for reading, and then clears the manager and the connection, each under its lock for writing.
The locks are fair, so a `close` that waits to write keeps everybody out who comes later.

## Steps

A step is one operation on a lock, or what is done under it; none of that awaits, except that
`close` holds the lock of the connection while it awaits `Connection::shutdown`. That function is
the one of `Publishing`, with the connection and all its tasks: it returns when it has published.

A future can be dropped where it awaits: in the queue of a lock, or in `shutdown` while the streams
are being stopped.

## What is left out

What the functions of the API do once they have the connection or the manager: they hold no lock
then.

## Main results

* `Consistent` — the locks agree with the positions of the calls, in every reachable state
-/

namespace TitanClient

namespace Client

open FairLock (Lock Mode Serves)

/-! ## Calls -/

/-- The two fields of `TitanClient` that are behind a lock. -/
inductive Cell
  | connection
  | manager
  deriving DecidableEq

/-- Where a call stands. A `peek` is a look behind a lock: for the connection in `state`,
`state_receiver`, `is_closed` and `get_connection`, for the manager in `get_stream_manager`. The
other positions are those of `close`. -/
inductive Position
  | idle
  | peekEntered (c : Cell)
  | peekWaiting (c : Cell)
  | peeking (c : Cell)
  | peeked (c : Cell) (found : Bool)
  | closeEntered
  | closeWaiting
  | closing
  | shuttingDown (k : ℕ)
  | clearEntered (c : Cell)
  | clearWaiting (c : Cell)
  | clearing (c : Cell)
  | closed
  | cancelled
  deriving DecidableEq

namespace Position

/-- The lock of `c` is what the call asks for next. -/
def requests (c : Cell) : Position → Option Mode
  | .peekEntered c' => if c' = c then some .read else none
  | .closeEntered => if c = .connection then some .read else none
  | .clearEntered c' => if c' = c then some .write else none
  | _ => none

/-- It waits for the lock of `c`. -/
def waits (c : Cell) : Position → Option Mode
  | .peekWaiting c' => if c' = c then some .read else none
  | .closeWaiting => if c = .connection then some .read else none
  | .clearWaiting c' => if c' = c then some .write else none
  | _ => none

/-- It holds the lock of `c`. -/
def holds (c : Cell) : Position → Option Mode
  | .peeking c' => if c' = c then some .read else none
  | .closing => if c = .connection then some .read else none
  | .shuttingDown _ => if c = .connection then some .read else none
  | .clearing c' => if c' = c then some .write else none
  | _ => none

/-- Once it is in the queue. -/
def enqueued : Position → Position
  | .peekEntered c => .peekWaiting c
  | .closeEntered => .closeWaiting
  | .clearEntered c => .clearWaiting c
  | p => p

/-- Once it has the lock. -/
def granted : Position → Position
  | .peekWaiting c => .peeking c
  | .closeWaiting => .closing
  | .clearWaiting c => .clearing c
  | p => p

/-- The call has returned, or its future was dropped. -/
def isDone : Position → Bool
  | .peeked _ _ => true
  | .closed => true
  | .cancelled => true
  | _ => false

end Position

/-- What the functions of the API make of a missing connection or manager. -/
inductive Error
  | connectionFailed (attempts : ℕ) (reason : String)
  deriving DecidableEq

/-- `get_connection` and `get_stream_manager`, after the look. -/
def getArc (found : Bool) : Except Error Unit :=
  if found then .ok () else .error (.connectionFailed 0 "Not connected")

/-- `state`, after the look at a connection that reports `status`. -/
def state (status : Publishing.ConnectionState) (found : Bool) : Publishing.ConnectionState :=
  if found then status else .disconnected "Not connected"

/-- `is_closed`, after the look. -/
def isClosed (found : Bool) : Bool := !found

/-- `active_stream_count` and `queued_stream_count`, after the look at a manager that counts `n`. -/
def streamCount (n : ℕ) (found : Bool) : ℕ := if found then n else 0

/-! ## State -/

/-- The connection, what is left behind the locks, and the calls. `gone` says that the client itself
has been dropped. -/
structure State where
  conn : Publishing.State
  gone : Bool := false
  present : Cell → Bool := fun _ => true
  locks : Cell → Lock ℕ := fun _ => {}
  calls : ℕ → Position := fun _ => .idle
  callCount : ℕ := 0

/-- The state right after the loop was spawned; calls begin once `connect` has returned. -/
def init (maxReconnectAttempts : Option ℕ) : State :=
  { conn := Publishing.init maxReconnectAttempts }

namespace State

variable (s : State)

/-- Move a call to another position. -/
def setCall (t : ℕ) (p : Position) : State := { s with calls := Function.update s.calls t p }

/-- Change the lock of `c`. -/
def setLock (c : Cell) (l : Lock ℕ) : State := { s with locks := Function.update s.locks c l }

end State

/-! ## Steps -/

/-- The steps of the connection and its tasks, of the client's owner and of calls `t`. -/
inductive Action
  | conn (a : Publishing.Action)
  | dropClient
  | peek (c : Cell)
  | close
  | request (t : ℕ) (c : Cell) (m : Mode)
  | grant (t : ℕ) (c : Cell) (m : Mode)
  | look (t : ℕ) (c : Cell)
  | enter (t : ℕ)
  | leave (t k : ℕ)
  | clear (t : ℕ) (c : Cell)
  | cancel (t : ℕ)
  deriving DecidableEq

/-- `shutdown` is called, and its future dropped, by `close` alone. -/
def isCloses : Publishing.Action → Bool
  | .shutdown => true
  | .abandonShutdown _ => true
  | _ => false

/-- A future can be dropped here. -/
def Cancellable (s : State) : Position → Prop
  | .peekWaiting _ => True
  | .closeWaiting => True
  | .clearWaiting _ => True
  | .shuttingDown k => s.conn.shutdowns k = .stopping
  | _ => False

instance (s : State) (p : Position) : Decidable (Cancellable s p) :=
  match p with
  | .peekWaiting _ | .closeWaiting | .clearWaiting _ => isTrue trivial
  | .shuttingDown _ => inferInstanceAs (Decidable (_ = _))
  | .idle | .peekEntered _ | .peeking _ | .peeked _ _ | .closeEntered | .closing | .clearEntered _
  | .clearing _ | .closed | .cancelled => isFalse id

/-- When a step can be taken. A client is not dropped while it is borrowed. -/
def Enabled (s : State) : Action → Prop
  | .conn a => Publishing.Enabled s.conn a ∧ isCloses a = false ∧
    (a = .dropConnection → s.gone = true ∨ s.present .connection = false ∧
      s.present .manager = false)
  | .dropClient => s.conn.connect = .returned ∧ s.gone = false ∧
    ∀ t < s.callCount, (s.calls t).isDone = true
  | .peek _ => s.conn.connect = .returned ∧ s.gone = false
  | .close => s.conn.connect = .returned ∧ s.gone = false
  | .request t c m => (s.calls t).requests c = some m
  | .grant t c m => (s.locks c).queue.head? = some (t, m) ∧ (s.locks c).Admits m
  | .look t c => s.calls t = .peeking c
  | .enter t => s.calls t = .closing
  | .leave t k => s.calls t = .shuttingDown k ∧ s.conn.shutdowns k = .done
  | .clear t c => s.calls t = .clearing c
  | .cancel t => Cancellable s (s.calls t)

instance (s : State) (a : Action) : Decidable (Enabled s a) :=
  match a with
  | .conn _ => inferInstanceAs (Decidable (_ ∧ _ ∧ (_ → _ ∨ _ ∧ _)))
  | .dropClient => inferInstanceAs (Decidable (_ ∧ _ ∧ ∀ t < s.callCount, _))
  | .peek _ => inferInstanceAs (Decidable (_ ∧ _))
  | .close => inferInstanceAs (Decidable (_ ∧ _))
  | .request _ _ _ => inferInstanceAs (Decidable (_ = _))
  | .grant _ _ _ => inferInstanceAs (Decidable (_ ∧ _))
  | .look _ _ => inferInstanceAs (Decidable (_ = _))
  | .enter _ => inferInstanceAs (Decidable (_ = _))
  | .leave _ _ => inferInstanceAs (Decidable (_ ∧ _))
  | .clear _ _ => inferInstanceAs (Decidable (_ = _))
  | .cancel t => inferInstanceAs (Decidable (Cancellable s (s.calls t)))

/-- The lock of `c` has been given back, and the call goes on at `p`. -/
def State.giveBack (s : State) (t : ℕ) (c : Cell) (m : Mode) (p : Position) : State :=
  (s.setLock c ((s.locks c).release t m)).setCall t p

/-- The first block of `close`: `shutdown` is called if there is a connection. -/
def enterNext (s : State) (t : ℕ) : State :=
  if s.present .connection then
    { s.setCall t (.shuttingDown s.conn.shutdownCount) with
      conn := Publishing.next s.conn .shutdown }
  else s.giveBack t .connection .read (.clearEntered .manager)

/-- What `close` does after it has cleared `c`. -/
def Cell.next : Cell → Position
  | .manager => .clearEntered .connection
  | .connection => .closed

/-- A future is dropped. -/
def cancelNext (s : State) (t : ℕ) : State :=
  match s.calls t with
  | .peekWaiting c => (s.setLock c ((s.locks c).withdraw t)).setCall t .cancelled
  | .closeWaiting =>
    (s.setLock .connection ((s.locks .connection).withdraw t)).setCall t .cancelled
  | .clearWaiting c => (s.setLock c ((s.locks c).withdraw t)).setCall t .cancelled
  | .shuttingDown k =>
    { s.giveBack t .connection .read .cancelled with
      conn := Publishing.next s.conn (.abandonShutdown k) }
  | _ => s

/-- The state after a step. -/
def next (s : State) : Action → State
  | .conn a => { s with conn := Publishing.next s.conn a }
  | .dropClient => { s with gone := true }
  | .peek c => { s.setCall s.callCount (.peekEntered c) with callCount := s.callCount + 1 }
  | .close => { s.setCall s.callCount .closeEntered with callCount := s.callCount + 1 }
  | .request t c m => (s.setLock c ((s.locks c).enqueue t m)).setCall t (s.calls t).enqueued
  | .grant t c _ => (s.setLock c (s.locks c).grant).setCall t (s.calls t).granted
  | .look t c => s.giveBack t c .read (.peeked c (s.present c))
  | .enter t => enterNext s t
  | .leave t _ => s.giveBack t .connection .read (.clearEntered .manager)
  | .clear t c =>
    { s.giveBack t c .write c.next with present := Function.update s.present c false }
  | .cancel t => cancelNext s t

/-- The client with its connection, as one system. -/
def system : Transition.System State Action := ⟨Enabled, next⟩

instance (s : State) (a : Action) : Decidable (system.Enabled s a) :=
  inferInstanceAs (Decidable (Enabled s a))

/-! ## The locks -/

namespace Position

variable {p : Position} {c d : Cell} {m : Mode}

/-- Who asks for a lock holds none and waits for none, and waits for that one afterwards. -/
theorem requests_spec (h : p.requests c = some m) (d : Cell) :
    p.holds d = none ∧ p.waits d = none ∧ p.enqueued.holds d = none ∧
      p.enqueued.waits d = if d = c then some m else none := by
  cases p <;> cases c <;> cases d <;> simp_all [requests, holds, waits, enqueued]

/-- Who waits for a lock holds none and waits for no other, and has that one afterwards. -/
theorem waits_spec (h : p.waits c = some m) (d : Cell) :
    p.holds d = none ∧ p.waits d = (if d = c then some m else none) ∧
      p.granted.holds d = (if d = c then some m else none) ∧ p.granted.waits d = none := by
  cases p <;> cases c <;> cases d <;> simp_all [holds, waits, granted]

/-- Who holds a lock waits for none and holds no other. -/
theorem holds_spec (h : p.holds c = some m) (d : Cell) :
    p.waits d = none ∧ p.holds d = if d = c then some m else none := by
  cases p <;> cases c <;> cases d <;> simp_all [holds, waits]

end Position

/-- What the calls hold and wait for is what the locks have them down for. -/
structure Consistent (s : State) : Prop where
  serves : ∀ c, Serves (s.locks c) (fun t => (s.calls t).holds c) fun t => (s.calls t).waits c
  fresh : ∀ t, s.callCount ≤ t → s.calls t = .idle

theorem consistent_init (max : Option ℕ) : Consistent (init max) where
  serves _ := FairLock.Serves.init
  fresh _ _ := rfl

namespace Consistent

variable {s s' : State} {t : ℕ} {c : Cell} {m : Mode} {p : Position} {l : Lock ℕ}

/-- A call in progress is one of those begun so far. -/
theorem lt_callCount (h : Consistent s) (ht : s.calls t ≠ .idle) : t < s.callCount := by
  by_contra hle
  exact ht (h.fresh t (Nat.le_of_not_lt hle))

theorem of_same (h : Consistent s) (hlocks : s'.locks = s.locks) (hcalls : s'.calls = s.calls)
    (hcount : s'.callCount = s.callCount) : Consistent s' := by
  refine ⟨fun c => ?_, fun t ht => ?_⟩
  · rw [hlocks, hcalls]
    exact h.serves c
  · rw [hcalls]
    exact h.fresh t (hcount ▸ ht)

/-- One call moves on, and one lock with it. -/
theorem move (h : Consistent s) (ht : s.calls t ≠ .idle)
    (hlocks : s'.locks = Function.update s.locks c l)
    (hcalls : s'.calls = Function.update s.calls t p) (hcount : s'.callCount = s.callCount)
    (hserves : Serves l (Function.update (fun u => (s.calls u).holds c) t (p.holds c))
      (Function.update (fun u => (s.calls u).waits c) t (p.waits c)))
    (hother : ∀ d, d ≠ c → p.holds d = (s.calls t).holds d ∧ p.waits d = (s.calls t).waits d) :
    Consistent s' := by
  have hholds : ∀ d, (fun u => (s'.calls u).holds d) =
      Function.update (fun u => (s.calls u).holds d) t (p.holds d) := fun d => by
    rw [hcalls]
    exact funext (Function.apply_update (fun _ q => Position.holds d q) s.calls t p)
  have hwaits : ∀ d, (fun u => (s'.calls u).waits d) =
      Function.update (fun u => (s.calls u).waits d) t (p.waits d) := fun d => by
    rw [hcalls]
    exact funext (Function.apply_update (fun _ q => Position.waits d q) s.calls t p)
  refine ⟨fun d => ?_, fun u hu => ?_⟩
  · rw [hholds, hwaits, hlocks]
    by_cases hd : d = c
    · rw [hd, Function.update_self]
      exact hserves
    · rw [Function.update_of_ne hd, (hother d hd).1, (hother d hd).2, Function.update_eq_self,
        Function.update_eq_self]
      exact h.serves d
  · have hne : u ≠ t := fun heq => by
      have hlt := h.lt_callCount ht
      omega
    rw [hcalls, Function.update_of_ne hne]
    exact h.fresh u (hcount ▸ hu)

/-- A call begins. -/
theorem begin (h : Consistent s) (hlocks : s'.locks = s.locks)
    (hcalls : s'.calls = Function.update s.calls s.callCount p)
    (hcount : s'.callCount = s.callCount + 1) (hquiet : ∀ c, p.holds c = none ∧ p.waits c = none) :
    Consistent s' := by
  have hidle := h.fresh s.callCount le_rfl
  have hsame : ∀ d u, (s'.calls u).holds d = (s.calls u).holds d ∧
      (s'.calls u).waits d = (s.calls u).waits d := by
    intro d u
    rw [hcalls]
    by_cases hu : u = s.callCount
    · rw [hu, Function.update_self, hidle, (hquiet d).1, (hquiet d).2]
      exact ⟨rfl, rfl⟩
    · rw [Function.update_of_ne hu]
      exact ⟨rfl, rfl⟩
  refine ⟨fun d => ?_, fun u hu => ?_⟩
  · rw [hlocks]
    exact (h.serves d).congr (fun u => (hsame d u).1) fun u => (hsame d u).2
  · have hne : u ≠ s.callCount := by omega
    rw [hcalls, Function.update_of_ne hne]
    exact h.fresh u (by omega)

/-- A lock is given back by a call that goes on without one. -/
theorem giveBack (h : Consistent s) (ht : (s.calls t).holds c = some m)
    (hlocks : s'.locks = Function.update s.locks c ((s.locks c).release t m))
    (hcalls : s'.calls = Function.update s.calls t p) (hcount : s'.callCount = s.callCount)
    (hquiet : ∀ d, p.holds d = none ∧ p.waits d = none) : Consistent s' := by
  have hspec := Position.holds_spec ht
  refine h.move (fun hidle => ?_) hlocks hcalls hcount ?_ fun d hd => ?_
  · rw [hidle] at ht
    cases ht
  · have hwaits : p.waits c = (s.calls t).waits c := (hquiet c).2.trans (hspec c).1.symm
    rw [(hquiet c).1, hwaits, Function.update_eq_self]
    exact (h.serves c).release ht
  · rw [(hquiet d).1, (hquiet d).2, (hspec d).1, (hspec d).2, if_neg hd]
    exact ⟨rfl, rfl⟩

/-- A call that waits gives up. -/
theorem withdraw (h : Consistent s) (ht : (s.calls t).waits c = some m)
    (hlocks : s'.locks = Function.update s.locks c ((s.locks c).withdraw t))
    (hcalls : s'.calls = Function.update s.calls t .cancelled)
    (hcount : s'.callCount = s.callCount) : Consistent s' := by
  have hspec := Position.waits_spec ht
  refine h.move (fun hidle => ?_) hlocks hcalls hcount ?_ fun d hd => ?_
  · rw [hidle] at ht
    cases ht
  · have hholds : Position.holds c .cancelled = (s.calls t).holds c := (hspec c).1.symm
    rw [hholds, Function.update_eq_self]
    exact (h.serves c).withdraw t
  · rw [(hspec d).1, (hspec d).2.1, if_neg hd]
    exact ⟨rfl, rfl⟩

/-- **One step.** -/
theorem next (h : Consistent s) {a : Action} (ha : Enabled s a) : Consistent (Client.next s a) := by
  cases a with
  | conn a => exact h.of_same rfl rfl rfl
  | dropClient => exact h.of_same rfl rfl rfl
  | peek c => exact h.begin rfl rfl rfl fun _ => ⟨rfl, rfl⟩
  | close => exact h.begin rfl rfl rfl fun _ => ⟨rfl, rfl⟩
  | request t c m =>
    have hspec := Position.requests_spec ha
    refine h.move (fun hidle => ?_) rfl rfl rfl ?_ fun d hd => ?_
    · have hrequests : (s.calls t).requests c = some m := ha
      rw [hidle] at hrequests
      cases hrequests
    · rw [(hspec c).2.2.1, (hspec c).2.2.2, if_pos rfl, ← (hspec c).1, Function.update_eq_self]
      exact (h.serves c).enqueue (hspec c).2.1 m
    · rw [(hspec d).1, (hspec d).2.1, (hspec d).2.2.1, (hspec d).2.2.2, if_neg hd]
      exact ⟨rfl, rfl⟩
  | grant t c m =>
    have hwaits : (s.calls t).waits c = some m :=
      ((h.serves c).queue t m).mp (List.mem_of_mem_head? ha.1)
    have hspec := Position.waits_spec hwaits
    refine h.move (fun hidle => ?_) rfl rfl rfl ?_ fun d hd => ?_
    · rw [hidle] at hwaits
      cases hwaits
    · rw [(hspec c).2.2.1, (hspec c).2.2.2, if_pos rfl]
      exact (h.serves c).grant ha.1 ha.2 (hspec c).1
    · rw [(hspec d).1, (hspec d).2.1, (hspec d).2.2.1, (hspec d).2.2.2, if_neg hd]
      exact ⟨rfl, rfl⟩
  | look t c =>
    refine h.giveBack (m := .read) ?_ rfl rfl rfl fun _ => ⟨rfl, rfl⟩
    have hp : s.calls t = .peeking c := ha
    rw [hp]
    exact if_pos rfl
  | enter t =>
    have hp : s.calls t = .closing := ha
    have hholds : (s.calls t).holds .connection = some .read := by
      rw [hp]
      rfl
    change Consistent (enterNext s t)
    rw [enterNext]
    split
    · have hspec := Position.holds_spec hholds
      refine h.move (c := .connection) (fun hidle => ?_) (Function.update_eq_self ..).symm rfl rfl
        ?_ fun d _ => ?_
      · rw [hidle] at hp
        cases hp
      · have heq : ∀ k, Position.holds .connection (.shuttingDown k) =
            (s.calls t).holds .connection := fun _ => hholds.symm
        have hwaits : ∀ k, Position.waits .connection (.shuttingDown k) =
            (s.calls t).waits .connection := fun _ => (hspec .connection).1.symm
        rw [heq, hwaits, Function.update_eq_self, Function.update_eq_self]
        exact h.serves .connection
      · rw [(hspec d).1, hp]
        exact ⟨rfl, rfl⟩
    · refine h.giveBack hholds rfl rfl rfl fun d => ⟨rfl, rfl⟩
  | leave t k =>
    refine h.giveBack (m := .read) (c := .connection) ?_ rfl rfl rfl fun _ => ⟨rfl, rfl⟩
    rw [ha.1]
    rfl
  | clear t c =>
    have hp : s.calls t = .clearing c := ha
    refine h.giveBack (m := .write) ?_ rfl rfl rfl fun d => ?_
    · rw [hp]
      exact if_pos rfl
    · cases c <;> exact ⟨rfl, rfl⟩
  | cancel t =>
    change Consistent (cancelNext s t)
    rw [cancelNext]
    split
    · next c hp =>
      refine h.withdraw (m := .read) ?_ rfl rfl rfl
      rw [hp]
      exact if_pos rfl
    · next hp =>
      refine h.withdraw (m := .read) (c := .connection) ?_ rfl rfl rfl
      rw [hp]
      rfl
    · next c hp =>
      refine h.withdraw (m := .write) ?_ rfl rfl rfl
      rw [hp]
      exact if_pos rfl
    · next k hp =>
      refine h.giveBack (m := .read) (c := .connection) ?_ rfl rfl rfl fun _ => ⟨rfl, rfl⟩
      rw [hp]
      rfl
    · exact h

end Consistent

theorem exec_consistent {max : Option ℕ} {as : List Action} (hv : system.Valid (init max) as) :
    Consistent (system.exec (init max) as) :=
  Transition.System.invariant (fun _ _ h ha => h.next ha) (consistent_init max) hv

end Client

end TitanClient
