import TitanClient.Arrival
import TitanClient.Transition

/-!
# Keepalive

The ping side of `run_single_connection`: at every tick of the ping timer the connection either ends
with a pong timeout or writes a ping, and a pong clears `awaiting_pong`. Times are nanoseconds, as
in `Instant` and `Duration`.

Each ping overwrites `last_ping`, also when the one before is still unanswered, so what is timed is
the last ping and not the first one that the server has missed.

## Bookkeeping

`now` and `lastTick` pace the run, and `log` has the pings and pongs in their order; the code reads
none of them.

## Main results

* `Silent` — a ping with no pong since
* `Config.Detects`, `Config.Patient` — a silent server is detected, and no other
* `keepalive_iff` — the keepalive detects a silent server exactly when the pong timeout is shorter
  than the ping interval, and never reports another
-/

namespace TitanClient

namespace Keepalive

/-- `DEFAULT_PING_INTERVAL_MS`. -/
def DEFAULT_PING_INTERVAL_MS : UInt64 := 25000

/-- `DEFAULT_PONG_TIMEOUT_MS`. -/
def DEFAULT_PONG_TIMEOUT_MS : UInt64 := 10000

/-- The two fields of `TitanConfig` that the keepalive reads, with their defaults. -/
structure Config where
  pingIntervalMs : UInt64 := DEFAULT_PING_INTERVAL_MS
  pongTimeoutMs : UInt64 := DEFAULT_PONG_TIMEOUT_MS

/-- `Duration::from_millis`. -/
def fromMillis (ms : UInt64) : ℕ := ms.toNat * 1000000

/-- The period of the ping timer. -/
def Config.pingInterval (c : Config) : ℕ :=
  fromMillis (if c.pingIntervalMs > 0 then c.pingIntervalMs else DEFAULT_PING_INTERVAL_MS)

/-- The time the server has for a pong. -/
def Config.pongTimeout (c : Config) : ℕ := fromMillis c.pongTimeoutMs

/-- The frames of the keepalive, with the time at which they are written or received. -/
inductive Frame
  | ping (t : ℕ)
  | pong (t : ℕ)
  deriving DecidableEq

/-- Why the tick arm has left the loop. -/
inductive Ending
  | pongTimeout
  | pingFailed (error : String)
  deriving DecidableEq

/-- The reason it returns. -/
def Ending.reason : Ending → String
  | .pongTimeout => "Pong timeout"
  | .pingFailed error => "Failed to send ping: " ++ error

/-- The variables of the loop, and how it has ended. -/
structure State where
  lastPing : ℕ
  awaitingPong : Bool := false
  ended : Option Ending := none
  now : ℕ
  lastTick : Option ℕ := none
  log : List Frame := []

/-- The state before the loop, at the time at which it is entered. -/
def init (start : ℕ) : State := { lastPing := start, now := start }

/-- A tick of the timer, with the error of sending the ping if that fails, and a pong. -/
inductive Action
  | tick (t : ℕ) (error : Option String)
  | pong (t : ℕ)
  deriving DecidableEq

variable (c : Config)

/-- Events come in the order of their times, and ticks one interval apart. -/
def Enabled (s : State) : Action → Prop
  | .tick t _ => s.ended = none ∧ s.now ≤ t ∧ ∀ u ∈ s.lastTick, t = u + c.pingInterval
  | .pong t => s.ended = none ∧ s.now ≤ t

instance (s : State) (a : Action) : Decidable (Enabled c s a) :=
  match a with
  | .tick _ _ => inferInstanceAs (Decidable (_ ∧ _ ∧ ∀ u ∈ s.lastTick, _))
  | .pong _ => inferInstanceAs (Decidable (_ ∧ _))

/-- The tick arm gives up: the last ping has been without a pong for too long. -/
def State.TimesOut (s : State) (t : ℕ) : Prop :=
  c.pongTimeoutMs > 0 ∧ s.awaitingPong = true ∧ t - s.lastPing > c.pongTimeout

instance (s : State) (t : ℕ) : Decidable (s.TimesOut c t) :=
  inferInstanceAs (Decidable (_ ∧ _ ∧ _))

/-- Writing a ping at a tick. It takes no time: `last_ping` is the time of the tick. -/
def pingNext (s : State) (t : ℕ) : Option String → State
  | some error => { s with now := t, lastTick := some t, ended := some (.pingFailed error) }
  | none =>
    { s with
      now := t
      lastTick := some t
      awaitingPong := true
      lastPing := t
      log := s.log ++ [.ping t] }

/-- The tick arm. -/
def tickNext (s : State) (t : ℕ) (error : Option String) : State :=
  if s.TimesOut c t then { s with now := t, lastTick := some t, ended := some .pongTimeout }
  else pingNext s t error

/-- The state after a tick or a pong. -/
def next (s : State) : Action → State
  | .tick t error => tickNext c s t error
  | .pong t => { s with now := t, awaitingPong := false, log := s.log ++ [.pong t] }

/-- The keepalive of one connection. -/
def system : Transition.System State Action := ⟨Enabled c, next c⟩

instance (s : State) (a : Action) : Decidable ((system c).Enabled s a) :=
  inferInstanceAs (Decidable (Enabled c s a))

/-! ## Silent servers -/

/-- A ping was written at `s`, and no pong has been received since. -/
def Silent (log : List Frame) (s : ℕ) : Prop :=
  ∃ past rest, log = past ++ .ping s :: rest ∧ ∀ p, .pong p ∉ rest

/-- Every ping was followed by a pong within the timeout, if that has passed by the time `t`. -/
def Answered (timeout t : ℕ) (log : List Frame) : Prop :=
  ∀ past s rest, log = past ++ .ping s :: rest → s + timeout < t →
    ∃ p, .pong p ∈ rest ∧ p ≤ s + timeout

/-- The connection does not survive a tick when there has been no pong since a ping that is longer
ago than the timeout. -/
def Config.Detects : Prop :=
  ∀ (start : ℕ) (as : List Action) (t : ℕ) (error : Option String),
    (system c).Valid (init start) as → Enabled c ((system c).exec (init start) as) (.tick t error) →
      (next c ((system c).exec (init start) as) (.tick t error)).ended = none →
        ∀ s, Silent ((system c).exec (init start) as).log s → t - s ≤ c.pongTimeout

/-- No pong timeout is reported when every ping was followed by a pong within the timeout. -/
def Config.Patient : Prop :=
  ∀ (start : ℕ) (as : List Action) (t : ℕ) (error : Option String),
    (system c).Valid (init start) as → Enabled c ((system c).exec (init start) as) (.tick t error) →
      Answered c.pongTimeout t ((system c).exec (init start) as).log →
        (next c ((system c).exec (init start) as) (.tick t error)).ended ≠ some .pongTimeout

/-- After a pong no ping is silent. -/
theorem not_silent_pong {log : List Frame} {t s : ℕ} : ¬Silent (log ++ [.pong t]) s := by
  rintro ⟨past, rest, hlog, hrest⟩
  rcases Arrival.append_singleton_eq_append_cons.mp hlog with ⟨-, -, hx⟩ | ⟨rest', rfl, -⟩
  · cases hx
  · exact hrest t (List.mem_append_right _ List.mem_cons_self)

/-- A ping is silent at first, and the ones before stay silent. -/
theorem silent_ping {log : List Frame} {t s : ℕ} :
    Silent (log ++ [.ping t]) s ↔ s = t ∨ Silent log s := by
  constructor
  · rintro ⟨past, rest, hlog, hrest⟩
    rcases Arrival.append_singleton_eq_append_cons.mp hlog with ⟨-, -, hx⟩ | ⟨rest', rfl, hold⟩
    · left
      exact (Frame.ping.inj hx).symm
    · right
      exact ⟨past, rest', hold, fun p hp => hrest p (List.mem_append_left _ hp)⟩
  · rintro (rfl | ⟨past, rest, rfl, hrest⟩)
    · exact ⟨log, [], rfl, nofun⟩
    · refine ⟨past, rest ++ [.ping t], ?_, fun p hp => ?_⟩
      · rw [List.append_assoc, List.cons_append]
      · rcases List.mem_append.mp hp with hp | hp
        · exact hrest p hp
        · cases List.mem_singleton.mp hp

theorem not_silent_of_answered {timeout t : ℕ} {log : List Frame} (h : Answered timeout t log)
    {s : ℕ} (hlate : s + timeout < t) : ¬Silent log s := by
  rintro ⟨past, rest, hlog, hrest⟩
  obtain ⟨p, hp, -⟩ := h past s rest hlog hlate
  exact hrest p hp

/-! ## The flag and the timestamp -/

/-- The flag says whether a ping is silent, and the timestamp is that of the last tick then. -/
structure Timed (s : State) : Prop where
  awaiting : s.awaitingPong = true ↔ ∃ t, Silent s.log t
  last : s.awaitingPong = true → Silent s.log s.lastPing ∧ s.lastTick = some s.lastPing

theorem timed_init (start : ℕ) : Timed (init start) where
  awaiting := by
    refine ⟨Bool.noConfusion, ?_⟩
    rintro ⟨t, past, rest, hlog, -⟩
    exact absurd hlog.symm (List.append_ne_nil_of_right_ne_nil _ (List.cons_ne_nil _ _))
  last := Bool.noConfusion

section

variable {c} {s : State}

/-- Each arm leaves flag and timestamp in order, unless it ends the loop. -/
theorem timed_next {a : Action} (halive : (next c s a).ended = none) : Timed (next c s a) := by
  cases a with
  | pong t =>
    refine ⟨⟨Bool.noConfusion, ?_⟩, Bool.noConfusion⟩
    rintro ⟨s, hs⟩
    exact absurd hs not_silent_pong
  | tick t error =>
    change Timed (tickNext c s t error)
    change (tickNext c s t error).ended = none at halive
    rw [tickNext] at halive ⊢
    split at halive
    · cases halive
    · rename_i hno
      rw [if_neg hno]
      cases error with
      | some e => cases halive
      | none =>
        have hsilent : Silent (s.log ++ [.ping t]) t := silent_ping.mpr (Or.inl rfl)
        exact ⟨⟨fun _ => ⟨t, hsilent⟩, fun _ => rfl⟩, fun _ => ⟨hsilent, rfl⟩⟩

/-- A tick that the connection survives is one that has not timed out. -/
theorem not_timesOut {t : ℕ} {error : Option String}
    (halive : (next c s (.tick t error)).ended = none) : ¬s.TimesOut c t := by
  intro htimeout
  rw [next, tickNext, if_pos htimeout] at halive
  cases halive

/-- The connection gives up only on a tick that times out. -/
theorem timesOut_of_ended {t : ℕ} {error : Option String} (halive : s.ended = none)
    (hended : (next c s (.tick t error)).ended = some .pongTimeout) : s.TimesOut c t := by
  by_contra hno
  rw [next, tickNext, if_neg hno] at hended
  cases error with
  | some e => cases hended
  | none => cases halive.symm.trans hended

theorem exec_timed {start : ℕ} {as : List Action} (hv : (system c).Valid (init start) as)
    (halive : ((system c).exec (init start) as).ended = none) :
    Timed ((system c).exec (init start) as) := by
  exact Transition.System.invariant (S := system c) (I := fun u => u.ended = none → Timed u)
    (fun _ _ _ _ hnext => timed_next hnext) (fun _ => timed_init start) hv halive

/-- A shorter timeout than the interval leaves no silent ping to the next tick. -/
theorem detects_of_lt (htimeout : c.pongTimeoutMs > 0) (hlt : c.pongTimeout < c.pingInterval) :
    c.Detects := by
  intro start as t error hv ha halive s hs
  have h := exec_timed hv ha.1
  have hawaiting := h.awaiting.mpr ⟨s, hs⟩
  have htick := ha.2.2 _ (h.last hawaiting).2
  refine absurd ⟨htimeout, hawaiting, ?_⟩ (not_timesOut halive)
  omega

/-- A ping that was answered in time is not taken for silent. -/
theorem patient (c : Config) : c.Patient := by
  intro start as t error hv ha hanswered hended
  have h := exec_timed hv ha.1
  obtain ⟨-, hawaiting, hlong⟩ := timesOut_of_ended ha.1 hended
  exact not_silent_of_answered hanswered (by omega) (h.last hawaiting).1

/-! ## Overwritten timestamps -/

/-- Ticks at which nothing has come from the server, the last one `n` intervals after the first. -/
def silentTicks (c : Config) : ℕ → List Action
  | 0 => [.tick 0 none]
  | n + 1 => silentTicks c n ++ [.tick ((n + 1) * c.pingInterval) none]

/-- A tick that does not give up pings. -/
theorem next_tick {s : State} {t : ℕ} (hno : ¬s.TimesOut c t) :
    next c s (.tick t none) = pingNext s t none := by
  rw [next, tickNext, if_neg hno]

/-- Each tick times the ping of the tick before, so that none times out. -/
theorem exec_silentTicks (hle : c.pingInterval ≤ c.pongTimeout) (n : ℕ) :
    (system c).Valid (init 0) (silentTicks c n) ∧
      let s := (system c).exec (init 0) (silentTicks c n)
      s.ended = none ∧ s.now = n * c.pingInterval ∧ s.lastPing = n * c.pingInterval ∧
        s.lastTick = some (n * c.pingInterval) ∧ Silent s.log 0 := by
  induction n with
  | zero =>
    have hno : ¬(init 0).TimesOut c 0 := fun h => Bool.noConfusion h.2.1
    have hnext : next c (init 0) (.tick 0 none) =
        { lastPing := 0, awaitingPong := true, now := 0, lastTick := some 0,
          log := [.ping 0] } := by
      rw [next_tick hno]
      rfl
    refine ⟨⟨⟨rfl, Nat.le_refl _, nofun⟩, trivial⟩, ?_⟩
    intro s
    have hs : s = next c (init 0) (.tick 0 none) := rfl
    rw [hs, hnext, Nat.zero_mul]
    exact ⟨rfl, rfl, rfl, rfl, [], [], rfl, nofun⟩
  | succ n ih =>
    obtain ⟨hv, halive, hnow, hlast, htick, hsilent⟩ := ih
    have hsucc : (n + 1) * c.pingInterval = n * c.pingInterval + c.pingInterval := Nat.succ_mul ..
    have hno : ¬((system c).exec (init 0) (silentTicks c n)).TimesOut c
        ((n + 1) * c.pingInterval) := by
      rintro ⟨-, -, hlong⟩
      omega
    rw [silentTicks, Transition.System.valid_append, Transition.System.exec_append]
    refine ⟨⟨hv, ⟨halive, by omega, fun u hu => ?_⟩, trivial⟩, ?_⟩
    · rw [htick] at hu
      cases hu
      exact hsucc
    · intro s
      have hs : s = pingNext ((system c).exec (init 0) (silentTicks c n))
          ((n + 1) * c.pingInterval) none := next_tick hno
      rw [hs, pingNext]
      exact ⟨halive, rfl, rfl, rfl, silent_ping.mpr (Or.inr hsilent)⟩

/-- With a timeout that is not shorter than the interval, a server that never answers is pinged for
ever. -/
theorem not_detects_of_le (hle : c.pingInterval ≤ c.pongTimeout) (hpos : 0 < c.pingInterval) :
    ¬c.Detects := by
  intro hdetects
  obtain ⟨hv, -, -, -, -, hsilent⟩ := exec_silentTicks hle c.pongTimeout
  obtain ⟨hv', halive, -⟩ := exec_silentTicks hle (c.pongTimeout + 1)
  rw [silentTicks, Transition.System.valid_append] at hv'
  rw [silentTicks, Transition.System.exec_append] at halive
  have hlate := hdetects 0 _ _ none hv hv'.2.1 halive 0 hsilent
  have hlong : c.pongTimeout + 1 ≤ (c.pongTimeout + 1) * c.pingInterval :=
    Nat.le_mul_of_pos_right _ hpos
  omega

theorem pingInterval_pos (c : Config) : 0 < c.pingInterval := by
  rw [Config.pingInterval, fromMillis]
  refine Nat.mul_pos ?_ (by decide)
  split
  · exact UInt64.lt_iff_toNat_lt.mp ‹_›
  · decide

/-- **A silent server is detected exactly when the pong timeout is shorter than the ping interval.**
A pong timeout is never reported while every ping is answered in time. -/
theorem keepalive_iff (c : Config) (htimeout : c.pongTimeoutMs > 0) :
    (c.Detects ∧ c.Patient) ↔ c.pongTimeout < c.pingInterval := by
  constructor
  · rintro ⟨hdetects, -⟩
    by_contra hle
    exact not_detects_of_le (Nat.not_lt.mp hle) (pingInterval_pos c) hdetects
  · intro hlt
    exact ⟨detects_of_lt htimeout hlt, patient c⟩

/-- The default configuration. -/
theorem keepalive_iff_default :
    (({} : Config).Detects ∧ ({} : Config).Patient) ↔
      ({} : Config).pongTimeout < ({} : Config).pingInterval :=
  keepalive_iff {} (by decide)

end

/-- Pings every ten milliseconds, and a pong timeout of twenty-five. -/
def slowTimeout : Config := { pingIntervalMs := 10, pongTimeoutMs := 25 }

/-- **A dead server goes unnoticed.** Nothing has come from the server since the ping at the start,
and the connection survives the tick thirty milliseconds later. -/
theorem silent_server_undetected : slowTimeout.pongTimeoutMs > 0 ∧ ¬slowTimeout.Detects := by
  refine ⟨by decide, fun hdetects => ?_⟩
  have hlate := hdetects 0 (silentTicks slowTimeout 2) 30000000 none (by decide) (by decide)
    (by decide) 0 ⟨[], [.ping 10000000, .ping 20000000], by decide, by simp⟩
  exact absurd hlate (by decide)

end Keepalive

end TitanClient
