import TitanClient.Publishing
import TitanClient.Word

/-!
# Backoff

`calculate_backoff`, and the loop that sleeps for what it returns. The power saturates, but the
product around it is a plain one: from the 59th attempt of an outage on it does not fit into a
`u64`. Compiled with overflow checks the connection task panics; without them the product wraps, and
at the 63rd and the 64th attempt there is nothing left of it.

## Bookkeeping

`failed` (the dials that have failed since the last successful one) and `sleeps` are read by no
step.

## Main results

* `overflows_iff` — which attempts overflow
* `calculateBackoff_eq`, `calculateBackoff_wraps` — the delays of the others, and of those
* `Paced`, `backoff_paced_iff` — the delays of a run are the right ones exactly when no outage gets
  to its 59th attempt
* `backoff_paced_of_config` — that is never certain unless `max_reconnect_attempts` says so
-/

namespace TitanClient

namespace Backoff

open Publishing (ConnectionState Loss)
open Word (Overflow)

/-! ## The delay -/

/-- `INITIAL_BACKOFF_MS`. -/
def INITIAL_BACKOFF_MS : ℕ := 100

/-- The product in `calculate_backoff`, as a number. -/
def product (attempt : ℕ) : ℕ :=
  INITIAL_BACKOFF_MS * Word.saturatingPow 64 2 (Word.saturatingSub attempt 1)

/-- `calculate_backoff`; `none` is a panic. -/
def calculateBackoff (o : Overflow) (attempt maxDelayMs : ℕ) : Option ℕ :=
  (Word.mul 64 o INITIAL_BACKOFF_MS
    (Word.saturatingPow 64 2 (Word.saturatingSub attempt 1))).map fun baseDelay =>
      min baseDelay maxDelayMs

/-- The delay before the `k`-th dial of an outage, in unbounded arithmetic. -/
def delayOf (k maxDelayMs : ℕ) : ℕ := min (INITIAL_BACKOFF_MS * 2 ^ (k - 1)) maxDelayMs

/-- `calculate_backoff` overflows. -/
def Overflows (attempt : ℕ) : Prop := 2 ^ 64 ≤ product attempt

theorem delayOf_mono {k k' : ℕ} (h : k ≤ k') (maxDelayMs : ℕ) :
    delayOf k maxDelayMs ≤ delayOf k' maxDelayMs := by
  refine min_le_min_right _ (Nat.mul_le_mul_left _ (Nat.pow_le_pow_right (by decide) ?_))
  omega

theorem delayOf_pos {k maxDelayMs : ℕ} (h : 0 < maxDelayMs) : 0 < delayOf k maxDelayMs :=
  lt_min (Nat.mul_pos (by decide) (Nat.pow_pos (by decide))) h

section

variable {o : Overflow} {attempt maxDelayMs : ℕ}

/-- Up to `2 ^ 63` the power is exact. -/
theorem product_of_le (h : attempt ≤ 64) :
    product attempt = INITIAL_BACKOFF_MS * 2 ^ (attempt - 1) := by
  have hpow : 2 ^ (attempt - 1) < 2 ^ 64 := Nat.pow_lt_pow_right (by decide) (by omega)
  rw [product, Word.saturatingSub, Word.saturatingPow_of_lt hpow]

/-- Above, it is the largest word. -/
theorem product_of_lt (h : 64 < attempt) :
    product attempt = INITIAL_BACKOFF_MS * (2 ^ 64 - 1) := by
  have hpow : 2 ^ 64 ≤ 2 ^ (attempt - 1) := Nat.pow_le_pow_right (by decide) (by omega)
  rw [product, Word.saturatingSub, Word.saturatingPow_of_le hpow]

/-- **Overflow.** From the 59th attempt on the product does not fit. -/
theorem overflows_iff : Overflows attempt ↔ 58 < attempt := by
  rw [Overflows]
  constructor
  · intro h
    by_contra hle
    have hpow : 2 ^ (attempt - 1) ≤ 2 ^ 57 := Nat.pow_le_pow_right (by decide) (by omega)
    rw [product_of_le (by omega), INITIAL_BACKOFF_MS] at h
    omega
  · intro h
    have hmono : Word.saturatingPow 64 2 58 ≤ Word.saturatingPow 64 2 (attempt - 1) :=
      Word.saturatingPow_mono (by decide) (by omega)
    have hfirst : Word.saturatingPow 64 2 58 = 2 ^ 58 :=
      Word.saturatingPow_of_lt (Nat.pow_lt_pow_right (by decide) (by decide))
    rw [product, Word.saturatingSub, INITIAL_BACKOFF_MS]
    omega

/-- Before, the delay is the one of unbounded arithmetic. -/
theorem calculateBackoff_eq (h : attempt ≤ 58) :
    calculateBackoff o attempt maxDelayMs = some (delayOf attempt maxDelayMs) := by
  have hfits : product attempt < 2 ^ 64 := by
    by_contra hover
    have := overflows_iff.mp (Nat.not_lt.mp hover)
    omega
  have hmul : Word.mul 64 o INITIAL_BACKOFF_MS
      (Word.saturatingPow 64 2 (Word.saturatingSub attempt 1)) = some (product attempt) :=
    Word.fit_of_lt hfits
  rw [calculateBackoff, hmul, product_of_le (by omega), delayOf]
  rfl

theorem calculateBackoff_panics (h : 58 < attempt) :
    calculateBackoff .panics attempt maxDelayMs = none := by
  have hmul : Word.mul 64 .panics INITIAL_BACKOFF_MS
      (Word.saturatingPow 64 2 (Word.saturatingSub attempt 1)) = none :=
    Word.fit_panics (overflows_iff.mpr h)
  rw [calculateBackoff, hmul]
  rfl

/-- What is left of the product when it wraps. -/
theorem calculateBackoff_wraps : calculateBackoff .wraps attempt maxDelayMs =
    some (min (if attempt ≤ 64 then INITIAL_BACKOFF_MS * 2 ^ (attempt - 1) % 2 ^ 64
      else 2 ^ 64 - INITIAL_BACKOFF_MS) maxDelayMs) := by
  have hmul : Word.mul 64 .wraps INITIAL_BACKOFF_MS
      (Word.saturatingPow 64 2 (Word.saturatingSub attempt 1)) =
        some (product attempt % 2 ^ 64) := Word.fit_wraps
  rw [calculateBackoff, hmul]
  by_cases hle : attempt ≤ 64
  · rw [if_pos hle, product_of_le hle]
    rfl
  · rw [if_neg hle, product_of_lt (by omega)]
    rfl

/-- **No delay.** Without overflow checks the 63rd and the 64th attempt of an outage follow at
once. -/
theorem calculateBackoff_wraps_zero (hmax : 0 < maxDelayMs) :
    calculateBackoff .wraps attempt maxDelayMs = some 0 ↔ attempt = 63 ∨ attempt = 64 := by
  by_cases hsmall : attempt ≤ 58
  · rw [calculateBackoff_eq hsmall]
    have hpos := delayOf_pos (k := attempt) hmax
    constructor
    · intro h
      have := Option.some.inj h
      omega
    · omega
  · rw [calculateBackoff_wraps, Option.some.injEq]
    by_cases hle : attempt ≤ 64
    · rw [if_pos hle, INITIAL_BACKOFF_MS]
      have hcases : attempt = 59 ∨ attempt = 60 ∨ attempt = 61 ∨ attempt = 62 ∨
          attempt = 63 ∨ attempt = 64 := by omega
      rcases hcases with rfl | rfl | rfl | rfl | rfl | rfl <;> omega
    · rw [if_neg hle, INITIAL_BACKOFF_MS]
      omega

end

/-! ## The loop -/

/-- What decides about the delays: how the client was compiled, and the two fields of
`TitanConfig`. -/
structure Config where
  overflow : Overflow
  maxReconnectDelayMs : ℕ := 30000
  maxReconnectAttempts : Option ℕ := none

/-- A delay that was slept, before which dial since the last successful one, and at which value of
`reconnect_attempt`. -/
structure Sleep where
  dial : ℕ
  attempt : ℕ
  delay : ℕ
  deriving DecidableEq

/-- The loop with the delays it has slept. -/
structure State where
  conn : Publishing.State
  panicked : Bool := false
  failed : ℕ := 0
  sleeps : List Sleep := []

/-- The state right after the loop was spawned. -/
def init (c : Config) : State := { conn := Publishing.init c.maxReconnectAttempts }

/-- The step is one of the loop. -/
def isLoopStep : Publishing.Action → Bool
  | .lose _ => true
  | .leaveShutdown => true
  | .leaveChannelClosed => true
  | .checkShutdown _ => true
  | .checkClosed _ => true
  | .announce _ => true
  | .wake => true
  | .dial _ => true
  | .publishConnected => true
  | .resumed => true
  | .exit => true
  | _ => false

variable (c : Config)

/-- When a step can be taken. A task that has panicked takes none. -/
def Enabled (s : State) (a : Publishing.Action) : Prop :=
  Publishing.Enabled s.conn a ∧ (s.panicked = true → isLoopStep a = false)

instance (s : State) (a : Publishing.Action) : Decidable (Enabled s a) :=
  inferInstanceAs (Decidable (_ ∧ (_ → _)))

/-- Counting the attempt, and then giving up, or computing the delay and sleeping for it. -/
def announceNext (s : State) (reason : String) : State :=
  match Word.add 32 c.overflow s.conn.reconnectAttempt 1 with
  | none => { s with panicked := true }
  | some attempt =>
    if s.conn.maxReconnectAttempts.any (attempt > ·) then
      { s with conn := Publishing.next s.conn (.announce reason) }
    else
      match calculateBackoff c.overflow attempt c.maxReconnectDelayMs with
      | none => { s with panicked := true }
      | some delay =>
        { s with
          conn := Publishing.next s.conn (.announce reason)
          sleeps := s.sleeps ++ [⟨s.failed + 1, attempt, delay⟩] }

/-- The state after a step. -/
def next (s : State) : Publishing.Action → State
  | .announce reason => announceNext c s reason
  | .dial true => { s with conn := Publishing.next s.conn (.dial true), failed := 0 }
  | .dial false => { s with conn := Publishing.next s.conn (.dial false), failed := s.failed + 1 }
  | a => { s with conn := Publishing.next s.conn a }

/-- The loop with its delays, among the tasks around it. -/
def system : Transition.System State Publishing.Action := ⟨Enabled, next c⟩

instance (s : State) (a : Publishing.Action) : Decidable ((system c).Enabled s a) :=
  inferInstanceAs (Decidable (Enabled s a))

/-! ## The right delays -/

/-- The task is alive, no delay has overflowed, and before the `k`-th dial of an outage the loop has
slept for `min(100 * 2^(k-1), max_reconnect_delay_ms)`. So delays do not decrease from one dial to
the next, and there always is one if the configuration allows one. -/
structure Paced (s : State) : Prop where
  alive : s.panicked = false
  fits : ∀ z ∈ s.sleeps, ¬Overflows z.attempt
  exact : ∀ z ∈ s.sleeps, z.delay = delayOf z.dial c.maxReconnectDelayMs
  rising : ∀ z ∈ s.sleeps, ∀ z' ∈ s.sleeps, z.dial ≤ z'.dial → z.delay ≤ z'.delay
  positive : 0 < c.maxReconnectDelayMs → ∀ z ∈ s.sleeps, 0 < z.delay

/-- The loop is about to give up. -/
def State.givesUp (s : State) : Bool :=
  s.conn.maxReconnectAttempts.any (wrap32 (s.conn.reconnectAttempt + 1) > ·)

/-- No outage gets to its 59th attempt: fewer than 58 dials have failed when the next attempt
begins, or the loop gives up. -/
def WithinReach (s : State) : Publishing.Action → Prop
  | .announce _ => s.givesUp = true ∨ s.failed < 58
  | _ => True

instance (s : State) (a : Publishing.Action) : Decidable (WithinReach s a) :=
  match a with
  | .announce _ => inferInstanceAs (Decidable (_ ∨ _))
  | .connectPublish | .connectReturn | .subscribe | .dropReceiver | .dropConnection | .shutdown
  | .cancel _ | .publishShutdown _ | .abandonShutdown _ | .lose _ | .leaveShutdown
  | .leaveChannelClosed | .checkShutdown _ | .checkClosed _ | .wake | .dial _
  | .publishConnected | .resumed | .exit => isTrue trivial

section

variable {c} {s t : State}

/-- Exact delays are rising and positive. -/
theorem paced_of_exact (halive : s.panicked = false) (hfits : ∀ z ∈ s.sleeps, ¬Overflows z.attempt)
    (hexact : ∀ z ∈ s.sleeps, z.delay = delayOf z.dial c.maxReconnectDelayMs) : Paced c s where
  alive := halive
  fits := hfits
  exact := hexact
  rising z hz z' hz' hle := by
    rw [hexact z hz, hexact z' hz']
    exact delayOf_mono hle _
  positive hmax z hz := by
    rw [hexact z hz]
    exact delayOf_pos hmax

/-- What had gone wrong before has gone wrong. -/
theorem Paced.of_le (h : Paced c t) (hsleeps : s.sleeps ⊆ t.sleeps)
    (halive : s.panicked = true → t.panicked = true) : Paced c s := by
  refine paced_of_exact ?_ (fun z hz => h.fits z (hsleeps hz)) fun z hz => h.exact z (hsleeps hz)
  by_contra hpanicked
  have := h.alive
  rw [halive (by simpa using hpanicked)] at this
  cases this

end

/-! ## Counting dials -/

/-- The loop is about to dial. -/
def awaitsDial : Publishing.Loop → Bool
  | .backoff => true
  | .dialing => true
  | _ => false

/-- The dials of the outage, with the one that the loop is about to make. -/
def State.dials (s : State) : ℕ := s.failed + if awaitsDial s.conn.loop then 1 else 0

/-- `reconnect_attempt` counts the dials, and past the 58th something has gone wrong. -/
structure Counted (s : State) : Prop where
  attempt : s.conn.loop.isOver = false → s.conn.reconnectAttempt = wrap32 s.dials
  late : 58 < s.dials → ¬Paced c s

theorem State.dials_of_deciding {s : State} {reason : String}
    (h : s.conn.loop = .deciding reason) : s.dials = s.failed := by
  rw [State.dials, h]
  rfl

theorem State.dials_of_dialing {s : State} (h : s.conn.loop = .dialing) :
    s.dials = s.failed + 1 := by
  rw [State.dials, h]
  rfl

theorem Counted.attempt_of_deciding {c : Config} {s : State} {reason : String} (hs : Counted c s)
    (h : s.conn.loop = .deciding reason) : s.conn.reconnectAttempt = wrap32 s.failed := by
  rw [hs.attempt (by rw [h]; rfl), s.dials_of_deciding h]

section

variable {c} {s : State} {a : Publishing.Action}

theorem announceNext_grows (reason : String) :
    s.sleeps ⊆ (announceNext c s reason).sleeps ∧
      (s.panicked = true → (announceNext c s reason).panicked = true) := by
  rw [announceNext]
  split
  · exact ⟨List.Subset.refl _, fun _ => rfl⟩
  · split
    · exact ⟨List.Subset.refl _, id⟩
    · split
      · exact ⟨List.Subset.refl _, fun _ => rfl⟩
      · exact ⟨List.subset_append_left _ _, id⟩

/-- Counting the attempt gives its number, as long as that fits. -/
theorem add_attempt (hr : s.conn.reconnectAttempt = wrap32 s.failed) (hle : s.failed ≤ 58) :
    Word.add 32 c.overflow s.conn.reconnectAttempt 1 = some (s.failed + 1) := by
  have hlt : s.failed + 1 < 2 ^ 32 := by omega
  rw [hr, wrap32_of_lt (by omega)]
  exact Word.fit_of_lt hlt

/-- **Announcing an attempt.** The delay is the right one, unless it is the 59th attempt or a later
one. -/
theorem paced_announce {reason : String} (hs : Counted c s)
    (hloop : s.conn.loop = .deciding reason) :
    Paced c (announceNext c s reason) ↔
      Paced c s ∧ (s.givesUp = true ∨ s.failed < 58) := by
  obtain ⟨hsleeps, hpanicked⟩ := announceNext_grows (c := c) (s := s) reason
  have hback : Paced c (announceNext c s reason) → Paced c s := fun h => h.of_le hsleeps hpanicked
  have hdials := s.dials_of_deciding hloop
  have hr := hs.attempt_of_deciding hloop
  by_cases hlate : 58 < s.failed
  · have hno : ¬Paced c s := hs.late (by rwa [hdials])
    exact ⟨fun h => absurd (hback h) hno, fun h => absurd h.1 hno⟩
  · have hadd := add_attempt (c := c) hr (Nat.not_lt.mp hlate)
    have hgives : s.givesUp = s.conn.maxReconnectAttempts.any (s.failed + 1 > ·) := by
      rw [State.givesUp, hr, wrap32_succ, wrap32_of_lt (by omega)]
    constructor
    · intro h
      refine ⟨hback h, ?_⟩
      by_contra hno
      obtain ⟨hstay, hfailed⟩ := not_or.mp hno
      have hover : Overflows (s.failed + 1) := overflows_iff.mpr (by omega)
      rw [hgives] at hstay
      rw [announceNext, hadd] at h
      dsimp only at h
      rw [if_neg hstay] at h
      cases hd : calculateBackoff c.overflow (s.failed + 1) c.maxReconnectDelayMs with
      | none =>
        rw [hd] at h
        cases h.alive
      | some delay =>
        rw [hd] at h
        exact h.fits _ (List.mem_append_right _ List.mem_cons_self) hover
    · rintro ⟨h, hreach⟩
      rw [announceNext, hadd]
      dsimp only
      by_cases hgive : s.givesUp = true
      · rw [if_pos (hgives ▸ hgive)]
        exact h.of_le (List.Subset.refl _) id
      · have hfailed := hreach.resolve_left hgive
        rw [if_neg (hgives ▸ hgive), calculateBackoff_eq (by omega)]
        refine paced_of_exact h.alive (fun z hz => ?_) fun z hz => ?_
        · rcases List.mem_append.mp hz with hz | hz
          · exact h.fits z hz
          · rw [List.mem_singleton.mp hz, overflows_iff]
            change ¬58 < s.failed + 1
            omega
        · rcases List.mem_append.mp hz with hz | hz
          · exact h.exact z hz
          · rw [List.mem_singleton.mp hz]

/-- A step that is neither an announcement nor the result of a dial counts nothing. -/
theorem counter_next {u : Publishing.State} (ha : Publishing.Enabled u a)
    (hannounce : ∀ reason, a ≠ .announce reason) (hdial : ∀ connected, a ≠ .dial connected) :
    (Publishing.next u a).reconnectAttempt = u.reconnectAttempt ∧
      awaitsDial (Publishing.next u a).loop = awaitsDial u.loop ∧
      (u.loop.isOver = true → (Publishing.next u a).loop.isOver = true) := by
  have hmoved : ∀ {l l' : Publishing.Loop}, u.loop = l → awaitsDial l' = awaitsDial l →
      l.isOver = false →
        awaitsDial l' = awaitsDial u.loop ∧ (u.loop.isOver = true → l'.isOver = true) := by
    rintro l l' rfl hawaits hover
    exact ⟨hawaits, fun h => by cases hover.symm.trans h⟩
  cases a with
  | announce reason => exact absurd rfl (hannounce reason)
  | dial connected => exact absurd rfl (hdial connected)
  | lose loss => exact ⟨rfl, hmoved ha rfl rfl⟩
  | leaveShutdown => exact ⟨rfl, hmoved ha.1 rfl rfl⟩
  | leaveChannelClosed => exact ⟨rfl, hmoved ha.1 rfl rfl⟩
  | checkShutdown reason =>
    refine ⟨rfl, hmoved ha ?_ rfl⟩
    change awaitsDial (if u.cancelled then _ else _) = _
    split <;> rfl
  | checkClosed reason =>
    refine ⟨rfl, hmoved ha ?_ rfl⟩
    change awaitsDial (if u.dropped then _ else _) = _
    split <;> rfl
  | wake => exact ⟨rfl, hmoved ha rfl rfl⟩
  | publishConnected => exact ⟨rfl, hmoved ha rfl rfl⟩
  | resumed => exact ⟨rfl, hmoved ha rfl rfl⟩
  | exit =>
    have hloop : u.loop = .cleaning := ha
    rw [hloop]
    exact ⟨rfl, rfl, fun _ => rfl⟩
  | _ => exact ⟨rfl, rfl, id⟩

theorem announce_attempt (u : Publishing.State) (reason : String) :
    (Publishing.announceNext u reason).reconnectAttempt = wrap32 (u.reconnectAttempt + 1) ∧
      ((Publishing.announceNext u reason).loop = .cleaning ∨
        (Publishing.announceNext u reason).loop = .backoff ∧
          ¬u.maxReconnectAttempts.any (wrap32 (u.reconnectAttempt + 1) > ·) = true) := by
  rw [Publishing.announceNext]
  dsimp only
  split
  · exact ⟨rfl, Or.inl rfl⟩
  · exact ⟨rfl, Or.inr ⟨rfl, ‹_›⟩⟩

/-- A loop that gives up is over. -/
theorem announce_over {reason : String} (hr : s.conn.reconnectAttempt = wrap32 s.failed)
    (hle : s.failed ≤ 58) (hgive : s.givesUp = true) :
    (announceNext c s reason).conn.loop = .cleaning := by
  have hgives : s.conn.maxReconnectAttempts.any (s.failed + 1 > ·) = true := by
    rw [State.givesUp, hr, wrap32_succ, wrap32_of_lt (by omega)] at hgive
    exact hgive
  rw [announceNext, add_attempt hr hle]
  dsimp only
  rw [if_pos hgives]
  change (Publishing.announceNext s.conn reason).loop = .cleaning
  rw [State.givesUp] at hgive
  rw [Publishing.announceNext]
  dsimp only
  rw [if_pos hgive]

theorem announceNext_failed (reason : String) : (announceNext c s reason).failed = s.failed := by
  rw [announceNext]
  split
  · rfl
  · split
    · rfl
    · split <;> rfl

/-- The attempt is counted, or the task has panicked. -/
theorem announceNext_conn (reason : String) :
    (announceNext c s reason).conn = s.conn ∨
      (announceNext c s reason).conn = Publishing.announceNext s.conn reason := by
  rw [announceNext]
  split
  · exact Or.inl rfl
  · split
    · exact Or.inr rfl
    · split
      · exact Or.inl rfl
      · exact Or.inr rfl

private theorem counted_announce {reason : String} (hs : Counted c s)
    (hloop : s.conn.loop = .deciding reason) : Counted c (announceNext c s reason) := by
  have hdials := s.dials_of_deciding hloop
  have hr := hs.attempt_of_deciding hloop
  have hfailed := announceNext_failed (c := c) (s := s) reason
  obtain ⟨hattempt, hover⟩ := announce_attempt s.conn reason
  refine ⟨fun halive => ?_, fun hlate hpaced => ?_⟩
  · rw [State.dials, hfailed]
    rcases announceNext_conn (c := c) (s := s) reason with hconn | hconn
    · rw [hconn, hloop]
      exact hr
    · rw [hconn] at halive ⊢
      rcases hover with hcleaning | ⟨hbackoff, -⟩
      · rw [hcleaning] at halive
        cases halive
      · rw [hattempt, hbackoff, hr, wrap32_succ]
        rfl
  · obtain ⟨h, hreach⟩ := (paced_announce hs hloop).mp hpaced
    have hle : s.failed ≤ 58 := by
      by_contra hmore
      exact hs.late (by omega) h
    rw [State.dials, hfailed] at hlate
    rcases hreach with hgive | hfew
    · rw [announce_over hr hle hgive] at hlate
      exact absurd hlate (Nat.not_lt.mpr hle)
    · split at hlate <;> omega

/-- **The counter.** `reconnect_attempt` goes on counting the dials of the outage. -/
theorem Counted.next (hs : Counted c s) (ha : Enabled s a) : Counted c (next c s a) := by
  have hconn : (∀ reason, a ≠ .announce reason) → (∀ connected, a ≠ .dial connected) →
      Counted c { s with conn := Publishing.next s.conn a } := by
    intro hannounce hdial
    obtain ⟨hattempt, hawaits, hover⟩ := counter_next ha.1 hannounce hdial
    have hdials : State.dials { s with conn := Publishing.next s.conn a } = s.dials := by
      rw [State.dials, State.dials, hawaits]
    refine ⟨fun halive => ?_, fun hlate hpaced => ?_⟩
    · rw [hdials]
      refine hattempt.trans (hs.attempt ?_)
      by_contra hdone
      cases (hover (by simpa using hdone)).symm.trans halive
    · rw [hdials] at hlate
      exact hs.late hlate (hpaced.of_le (List.Subset.refl _) id)
  cases a with
  | announce reason => exact counted_announce hs ha.1
  | dial connected =>
    have hloop : s.conn.loop = .dialing := ha.1
    cases connected with
    | true => exact ⟨fun _ => rfl, fun hlate => absurd hlate (Nat.not_lt.mpr (Nat.zero_le _))⟩
    | false =>
      have hdials := State.dials_of_dialing hloop
      refine ⟨fun _ => ?_, fun hlate hpaced => ?_⟩
      · have hattempt := hs.attempt (by rw [hloop]; rfl)
        rw [hdials] at hattempt
        exact hattempt
      · refine hs.late ?_ (hpaced.of_le (List.Subset.refl _) id)
        rw [hdials]
        exact hlate
  | _ => exact hconn nofun nofun

theorem counted_init (c : Config) : Counted c (init c) where
  attempt _ := rfl
  late := nofun

/-- **One step.** The delays stay right exactly when the step does not begin a 59th attempt. -/
theorem paced_next (hs : Counted c s) (ha : Enabled s a) :
    Paced c (Backoff.next c s a) ↔ Paced c s ∧ WithinReach s a := by
  have hsame : ∀ {t : State}, t.sleeps = s.sleeps → t.panicked = s.panicked → WithinReach s a →
      (Paced c t ↔ Paced c s ∧ WithinReach s a) := by
    intro t hsleeps hpanicked hreach
    constructor
    · intro h
      refine ⟨h.of_le ?_ fun hp => hpanicked ▸ hp, hreach⟩
      rw [hsleeps]
      exact List.Subset.refl _
    · rintro ⟨h, -⟩
      refine h.of_le ?_ fun hp => hpanicked ▸ hp
      rw [hsleeps]
      exact List.Subset.refl _
  cases a with
  | announce reason => exact paced_announce hs ha.1
  | dial connected => cases connected <;> exact hsame rfl rfl trivial
  | _ => exact hsame rfl rfl trivial

end

/-! ## Long outages -/

/-- The connection is lost, or the old socket is found dead again, and the next dial fails. -/
def round : List Publishing.Action :=
  [.lose .pongTimeout, .checkShutdown "Pong timeout", .checkClosed "Pong timeout",
    .announce "Pong timeout", .wake, .dial false]

/-- So many dials fail one after the other. -/
def outage : ℕ → List Publishing.Action
  | 0 => []
  | n + 1 => outage n ++ round

/-- The state after so many failed dials, when nobody has shut the client down. -/
structure Adrift (c : Config) (n : ℕ) (s : State) : Prop where
  loop : s.conn.loop = .serving
  cancelled : s.conn.cancelled = false
  dropped : s.conn.dropped = false
  attempt : s.conn.reconnectAttempt = n
  max : s.conn.maxReconnectAttempts = c.maxReconnectAttempts
  alive : s.panicked = false
  failed : s.failed = n
  slept : ∀ k, 0 < k → k ≤ n → ∃ delay,
    calculateBackoff c.overflow k c.maxReconnectDelayMs = some delay ∧ ⟨k, k, delay⟩ ∈ s.sleeps

section

variable {c : Config} {s : State} {n : ℕ}

/-- The loop decides about the next attempt. -/
theorem Adrift.deciding (h : Adrift c n s) :
    (system c).Valid s (round.take 3) ∧
      (system c).exec s (round.take 3) =
        { s with conn := { s.conn.publish .loop (.disconnected "Pong timeout") with
          loop := .deciding "Pong timeout"
          up := false } } := by
  have halive : ∀ {b : Bool}, s.panicked = true → b = false :=
    fun hp => by cases h.alive.symm.trans hp
  have hshutdown : (if s.conn.cancelled = true then Publishing.Loop.cleaning
      else .checked "Pong timeout") = .checked "Pong timeout" := by
    rw [h.cancelled]
    rfl
  have hclosed : (if s.conn.dropped = true then Publishing.Loop.cleaning
      else .deciding "Pong timeout") = .deciding "Pong timeout" := by
    rw [h.dropped]
    rfl
  refine ⟨⟨⟨h.loop, halive⟩, ⟨rfl, halive⟩, ⟨hshutdown, halive⟩, trivial⟩, ?_⟩
  change { s with conn := { s.conn.publish .loop (.disconnected "Pong timeout") with
    loop := if s.conn.dropped = true then Publishing.Loop.cleaning
      else .deciding "Pong timeout"
    up := false } } = _
  rw [hclosed]

/-- Announcing the next attempt, when its delay can be computed and the loop does not give up. -/
theorem announceNext_sleeps {reason : String} {delay : ℕ}
    (hadd : Word.add 32 c.overflow s.conn.reconnectAttempt 1 = some (n + 1))
    (hstay : s.conn.maxReconnectAttempts.any (n + 1 > ·) = false)
    (hdelay : calculateBackoff c.overflow (n + 1) c.maxReconnectDelayMs = some delay) :
    announceNext c s reason = { s with
      conn := Publishing.announceNext s.conn reason
      sleeps := s.sleeps ++ [⟨s.failed + 1, n + 1, delay⟩] } := by
  rw [announceNext, hadd]
  dsimp only
  rw [hstay, hdelay]
  rfl

/-- When its delay overflows and overflows are checked, the task panics. -/
theorem announceNext_panics {reason : String}
    (hadd : Word.add 32 c.overflow s.conn.reconnectAttempt 1 = some (n + 1))
    (hstay : s.conn.maxReconnectAttempts.any (n + 1 > ·) = false)
    (hdelay : calculateBackoff c.overflow (n + 1) c.maxReconnectDelayMs = none) :
    announceNext c s reason = { s with panicked := true } := by
  rw [announceNext, hadd]
  dsimp only
  rw [hstay, hdelay]
  rfl

/-- Announcing an attempt without giving up. -/
theorem announceNext_backoff {u : Publishing.State} {reason : String}
    (hstay : u.maxReconnectAttempts.any (wrap32 (u.reconnectAttempt + 1) > ·) = false) :
    Publishing.announceNext u reason =
      { u.publish .loop (.reconnecting (wrap32 (u.reconnectAttempt + 1))) with
        reconnectAttempt := wrap32 (u.reconnectAttempt + 1)
        loop := .backoff
        up := false } := by
  rw [Publishing.announceNext]
  dsimp only
  rw [hstay]
  rfl

/-- **One more failed dial.** -/
theorem Adrift.round {delay : ℕ} (h : Adrift c n s) (hn : n + 1 < 2 ^ 32)
    (hstay : c.maxReconnectAttempts.any (n + 1 > ·) = false)
    (hdelay : calculateBackoff c.overflow (n + 1) c.maxReconnectDelayMs = some delay) :
    (system c).Valid s Backoff.round ∧
      Adrift c (n + 1) ((system c).exec s Backoff.round) := by
  have halive : ∀ {b : Bool}, s.panicked = true → b = false :=
    fun hp => by cases h.alive.symm.trans hp
  obtain ⟨hvalid, hexec⟩ := h.deciding
  have hsplit : Backoff.round =
      Backoff.round.take 3 ++ [.announce "Pong timeout", .wake, .dial false] := rfl
  have hadd : Word.add 32 c.overflow s.conn.reconnectAttempt 1 = some (n + 1) := by
    rw [h.attempt]
    exact Word.fit_of_lt hn
  have hwrap : wrap32 (s.conn.reconnectAttempt + 1) = n + 1 := by
    rw [h.attempt, wrap32_of_lt hn]
  have hmax : s.conn.maxReconnectAttempts.any (n + 1 > ·) = false := by rwa [h.max]
  rw [hsplit, Transition.System.valid_append, Transition.System.exec_append, hexec]
  generalize hu : { s.conn.publish .loop (.disconnected "Pong timeout") with
    loop := Publishing.Loop.deciding "Pong timeout"
    up := false } = u
  have hr : u.reconnectAttempt = s.conn.reconnectAttempt := by rw [← hu]; rfl
  have hm : u.maxReconnectAttempts = s.conn.maxReconnectAttempts := by rw [← hu]; rfl
  have hannounce : next c { s with conn := u } (.announce "Pong timeout") =
      { s with
        conn := { u.publish .loop (.reconnecting (n + 1)) with
          reconnectAttempt := n + 1
          loop := .backoff
          up := false }
        sleeps := s.sleeps ++ [⟨s.failed + 1, n + 1, delay⟩] } := by
    have hback : Publishing.announceNext u "Pong timeout" = _ :=
      announceNext_backoff (by rwa [hr, hwrap, hm])
    rw [hr, hwrap] at hback
    rw [← hback]
    exact announceNext_sleeps (s := { s with conn := u }) (by rwa [hr]) (by rwa [hm]) hdelay
  have hdial : (system c).exec { s with conn := u }
      [.announce "Pong timeout", .wake, .dial false] =
        { s with
          conn := { u.publish .loop (.reconnecting (n + 1)) with
            reconnectAttempt := n + 1
            loop := .serving
            up := false }
          failed := s.failed + 1
          sleeps := s.sleeps ++ [⟨s.failed + 1, n + 1, delay⟩] } := by
    rw [Transition.System.exec_cons]
    change (system c).exec (next c { s with conn := u } (.announce "Pong timeout")) _ = _
    rw [hannounce]
    rfl
  refine ⟨⟨hvalid, ⟨?_, halive⟩, ?_⟩, ?_⟩
  · rw [← hu]
    exact rfl
  · change (system c).Valid (next c { s with conn := u } (.announce "Pong timeout")) _
    rw [hannounce]
    exact ⟨⟨rfl, halive⟩, ⟨rfl, halive⟩, trivial⟩
  · rw [hdial, ← hu]
    refine ⟨rfl, h.cancelled, h.dropped, rfl, h.max, h.alive, congrArg (· + 1) h.failed, ?_⟩
    intro k hpos hk
    rcases Nat.lt_or_eq_of_le hk with hlt | rfl
    · obtain ⟨d, hd, hmem⟩ := h.slept k hpos (Nat.le_of_lt_succ hlt)
      exact ⟨d, hd, List.mem_append_left _ hmem⟩
    · refine ⟨delay, hdelay, List.mem_append_right _ ?_⟩
      rw [h.failed]
      exact List.mem_singleton_self _

theorem adrift_init (c : Config) : Adrift c 0 (init c) where
  loop := rfl
  cancelled := rfl
  dropped := rfl
  attempt := rfl
  max := rfl
  alive := rfl
  failed := rfl
  slept _ hpos hk := absurd hk (Nat.not_le.mpr hpos)

/-- **Outages.** An outage lasts as long as the configuration lets it. -/
theorem outage_spec (hn : n < 2 ^ 32)
    (hstay : ∀ k, k ≤ n → c.maxReconnectAttempts.any (k > ·) = false)
    (hdelay : ∀ k, k ≤ n → ∃ delay,
      calculateBackoff c.overflow k c.maxReconnectDelayMs = some delay) :
    (system c).Valid (init c) (outage n) ∧ Adrift c n ((system c).exec (init c) (outage n)) := by
  induction n with
  | zero => exact ⟨trivial, adrift_init c⟩
  | succ n ih =>
    obtain ⟨hvalid, hadrift⟩ := ih (by omega) (fun k hk => hstay k (by omega))
      fun k hk => hdelay k (by omega)
    obtain ⟨delay, hd⟩ := hdelay (n + 1) (Nat.le_refl _)
    obtain ⟨hround, hlater⟩ := hadrift.round hn (hstay (n + 1) (Nat.le_refl _)) hd
    rw [outage, Transition.System.valid_append, Transition.System.exec_append]
    exact ⟨⟨hvalid, hround⟩, hlater⟩

/-- A dial that would be the 59th of its outage is announced, if the loop does not give up. -/
theorem Adrift.announce (h : Adrift c n s) :
    (system c).Valid s (Backoff.round.take 4) ∧
      (system c).exec s (Backoff.round.take 4) =
        announceNext c { s with conn := { s.conn.publish .loop (.disconnected "Pong timeout") with
          loop := .deciding "Pong timeout"
          up := false } } "Pong timeout" := by
  obtain ⟨hvalid, hexec⟩ := h.deciding
  have hsplit : Backoff.round.take 4 = Backoff.round.take 3 ++ [.announce "Pong timeout"] := rfl
  rw [hsplit, Transition.System.valid_append, Transition.System.exec_append, hexec]
  exact ⟨⟨hvalid, ⟨rfl, fun hp => by cases h.alive.symm.trans hp⟩, trivial⟩, rfl⟩

/-- With overflow checks, a delay that overflows ends the task. -/
theorem Adrift.panics (h : Adrift c n s) (hn : n + 1 < 2 ^ 32)
    (hstay : c.maxReconnectAttempts.any (n + 1 > ·) = false)
    (hdelay : calculateBackoff c.overflow (n + 1) c.maxReconnectDelayMs = none) :
    ((system c).exec s (Backoff.round.take 4)).panicked = true := by
  obtain ⟨-, hexec⟩ := h.announce
  have hadd : Word.add 32 c.overflow s.conn.reconnectAttempt 1 = some (n + 1) := by
    rw [h.attempt]
    exact Word.fit_of_lt hn
  rw [← h.max] at hstay
  rw [hexec]
  refine congrArg State.panicked (announceNext_panics (n := n) ?_ ?_ hdelay)
  · exact hadd
  · exact hstay

/-- After 58 failed dials the next announcement goes wrong. -/
theorem Adrift.not_paced (h : Adrift c 58 s) (hs : Counted c s)
    (hstay : c.maxReconnectAttempts.any (59 > ·) = false) :
    (system c).Valid s (Backoff.round.take 4) ∧
      ¬Paced c ((system c).exec s (Backoff.round.take 4)) := by
  obtain ⟨hvalid, hexec⟩ := h.announce
  obtain ⟨hbefore, hdeciding⟩ := h.deciding
  refine ⟨hvalid, fun hpaced => ?_⟩
  rw [hexec] at hpaced
  have hcounted := Transition.System.invariant (S := system c) (I := Counted c)
    (fun _ _ h ha => h.next ha) hs hbefore
  rw [hdeciding] at hcounted
  obtain ⟨-, hgive | hfew⟩ := (paced_announce hcounted rfl).mp hpaced
  · change s.conn.maxReconnectAttempts.any (wrap32 (s.conn.reconnectAttempt + 1) > ·) = true
      at hgive
    rw [h.attempt, h.max, wrap32_of_lt (by decide)] at hgive
    cases hstay.symm.trans hgive
  · change s.failed < 58 at hfew
    rw [h.failed] at hfew
    exact absurd hfew (by decide)

end

/-! ## Every run -/

/-- **Backoff.** Whatever the configuration, the delays of a run are those of unbounded arithmetic,
without overflow, exactly when none of its outages gets to a 59th attempt. -/
theorem backoff_paced_iff (c : Config) (as : List Publishing.Action)
    (hv : (system c).Valid (init c) as) :
    Paced c ((system c).exec (init c) as) ↔ (system c).Along WithinReach (init c) as := by
  have hcounted := Transition.System.along_of_reachable (S := system c) (R := Counted c)
    (fun past hpast => Transition.System.invariant (fun _ _ h ha => h.next ha) (counted_init c)
      hpast) hv
  rw [Transition.System.iff_along (P := Paced c) (C := WithinReach)
    (fun s a h ha => paced_next h ha) hcounted hv]
  exact and_iff_right (paced_of_exact rfl nofun nofun)

/-- Nothing configured: the delay is capped at 30 seconds, and the loop never gives up. -/
def defaultConfig (o : Overflow) : Config := { overflow := o }

/-- Two dials fail, the third brings a new connection. -/
def recovery : List Publishing.Action :=
  outage 2 ++ round.take 5 ++ [.dial true, .publishConnected, .resumed]

theorem backoff_paced_iff_recovery :
    Paced (defaultConfig .wraps) ((system (defaultConfig .wraps)).exec
        (init (defaultConfig .wraps)) recovery) ∧
      ((system (defaultConfig .wraps)).exec (init (defaultConfig .wraps)) recovery).sleeps =
        [⟨1, 1, 100⟩, ⟨2, 2, 200⟩, ⟨3, 3, 400⟩] :=
  ⟨(backoff_paced_iff (defaultConfig .wraps) recovery (by decide)).mpr (by decide), by decide⟩

/-- **A long outage.** In the default configuration, with the server unreachable. With overflow
checks the 59th attempt of an outage ends the connection task, without them the 63rd and the 64th
follow at once. -/
theorem long_outage_overflows :
    (system (defaultConfig .panics)).Valid (init (defaultConfig .panics))
        (outage 58 ++ round.take 4) ∧
      ((system (defaultConfig .panics)).exec (init (defaultConfig .panics))
        (outage 58 ++ round.take 4)).panicked = true ∧
      (system (defaultConfig .wraps)).Valid (init (defaultConfig .wraps)) (outage 64) ∧
      ⟨63, 63, 0⟩ ∈ ((system (defaultConfig .wraps)).exec (init (defaultConfig .wraps))
        (outage 64)).sleeps ∧
      delayOf 63 (defaultConfig .wraps).maxReconnectDelayMs = 30000 ∧
      ¬Paced (defaultConfig .wraps) ((system (defaultConfig .wraps)).exec
        (init (defaultConfig .wraps)) (outage 64)) := by
  have hdelay : delayOf 63 (defaultConfig .wraps).maxReconnectDelayMs = 30000 := by decide
  obtain ⟨hvalid, hadrift⟩ := outage_spec (c := defaultConfig .panics) (n := 58) (by decide)
    (fun _ _ => rfl) fun k hk => ⟨_, calculateBackoff_eq hk⟩
  obtain ⟨hlater, -⟩ := hadrift.announce
  obtain ⟨hvalid', hadrift'⟩ := outage_spec (c := defaultConfig .wraps) (n := 64) (by decide)
    (fun _ _ => rfl) fun k hk => ⟨_, calculateBackoff_wraps⟩
  obtain ⟨delay, hd, hmem⟩ := hadrift'.slept 63 (by decide) (by decide)
  have hzero : calculateBackoff .wraps 63 (defaultConfig .wraps).maxReconnectDelayMs = some 0 :=
    (calculateBackoff_wraps_zero (by decide)).mpr (Or.inl rfl)
  obtain rfl : delay = 0 := Option.some.inj (hd.symm.trans hzero)
  refine ⟨(Transition.System.valid_append _).mpr ⟨hvalid, hlater⟩, ?_, hvalid', hmem, hdelay,
    fun h => ?_⟩
  · rw [Transition.System.exec_append]
    exact hadrift.panics (by decide) rfl (calculateBackoff_panics (by decide))
  · have hexact := h.exact _ hmem
    rw [hdelay] at hexact
    cases hexact

/-! ## Configurations -/

/-- No outage has had more than `m` dials. -/
structure Bounded (m : ℕ) (s : State) : Prop where
  max : s.conn.maxReconnectAttempts = some m
  dials : s.conn.loop.isOver = false → s.dials ≤ m

section

variable {c : Config} {s : State} {a : Publishing.Action} {m : ℕ}

/-- A bound below the 59th attempt keeps the loop within reach. -/
theorem Bounded.withinReach (hb : Bounded m s) (hm : m ≤ 58) (hs : Counted c s)
    (ha : Enabled s a) : WithinReach s a := by
  cases a with
  | announce reason =>
    have hloop : s.conn.loop = .deciding reason := ha.1
    have halive : s.conn.loop.isOver = false := by
      rw [hloop]
      rfl
    have hfailed : s.failed ≤ m := s.dials_of_deciding hloop ▸ hb.dials halive
    by_cases hlast : s.failed < 58
    · exact Or.inr hlast
    · refine Or.inl ?_
      have hm' : m < s.failed + 1 := by omega
      rw [State.givesUp, hs.attempt_of_deciding hloop, wrap32_succ, wrap32_of_lt (by omega), hb.max]
      simpa using hm'
  | _ => exact trivial

private theorem bounded_announce {reason : String} (hb : Bounded m s) (hm : m ≤ 58)
    (hs : Counted c s) (hloop : s.conn.loop = .deciding reason) :
    Bounded m (announceNext c s reason) := by
  have halive : s.conn.loop.isOver = false := by
    rw [hloop]
    rfl
  have hle : s.failed ≤ m := s.dials_of_deciding hloop ▸ hb.dials halive
  have hfailed := announceNext_failed (c := c) (s := s) reason
  obtain ⟨-, hover⟩ := announce_attempt s.conn reason
  rcases announceNext_conn (c := c) (s := s) reason with hconn | hconn
  · refine ⟨by rw [hconn, hb.max], fun _ => ?_⟩
    rw [State.dials, hconn, hfailed]
    exact hb.dials halive
  · have hmax : (Publishing.announceNext s.conn reason).maxReconnectAttempts = some m := by
      rw [← hb.max, Publishing.announceNext]
      dsimp only
      split <;> rfl
    refine ⟨by rw [hconn, hmax], fun hgoes => ?_⟩
    rw [hconn] at hgoes
    rcases hover with hcleaning | ⟨hbackoff, hstay⟩
    · rw [hcleaning] at hgoes
      cases hgoes
    · rw [hs.attempt_of_deciding hloop, wrap32_succ, wrap32_of_lt (by omega), hb.max] at hstay
      rw [State.dials, hconn, hfailed, hbackoff]
      change s.failed + 1 ≤ m
      simpa using hstay

theorem Bounded.next (hb : Bounded m s) (hm : m ≤ 58) (hs : Counted c s) (ha : Enabled s a) :
    Bounded m (Backoff.next c s a) := by
  have hconn : (∀ reason, a ≠ .announce reason) → (∀ connected, a ≠ .dial connected) →
      (Publishing.next s.conn a).maxReconnectAttempts = s.conn.maxReconnectAttempts →
      Bounded m { s with conn := Publishing.next s.conn a } := by
    intro hannounce hdial hmax
    obtain ⟨-, hawaits, hover⟩ := counter_next ha.1 hannounce hdial
    refine ⟨hmax.trans hb.max, fun hgoes => ?_⟩
    rw [State.dials, hawaits]
    refine hb.dials ?_
    by_contra hdone
    cases (hover (by simpa using hdone)).symm.trans hgoes
  cases a with
  | announce reason => exact bounded_announce hb hm hs ha.1
  | dial connected =>
    have hloop : s.conn.loop = .dialing := ha.1
    cases connected with
    | true => exact ⟨hb.max, fun _ => Nat.zero_le _⟩
    | false =>
      have hdials := State.dials_of_dialing hloop
      have hle := hb.dials (by rw [hloop]; rfl)
      rw [hdials] at hle
      exact ⟨hb.max, fun _ => hle⟩
  | _ => exact hconn nofun nofun rfl

end

/-- **Configurations.** The delays of every run are the right ones just for those that give up
before the 59th attempt. The default is not one of them. -/
theorem backoff_paced_of_config (c : Config) :
    (∀ as, (system c).Valid (init c) as → Paced c ((system c).exec (init c) as)) ↔
      ∃ m ≤ 58, c.maxReconnectAttempts = some m := by
  constructor
  · intro h
    by_contra hno
    have hstay : ∀ k, k ≤ 59 → c.maxReconnectAttempts.any (k > ·) = false := by
      intro k hk
      cases hmax : c.maxReconnectAttempts with
      | none => rfl
      | some m =>
        have hm : 58 < m := by
          by_contra hle
          exact hno ⟨m, Nat.not_lt.mp hle, hmax⟩
        have hle : k ≤ m := by omega
        simpa using hle
    obtain ⟨hvalid, hadrift⟩ := outage_spec (c := c) (n := 58) (by decide)
      (fun k hk => hstay k (by omega)) fun k hk => ⟨_, calculateBackoff_eq hk⟩
    have hcounted := Transition.System.invariant (S := system c) (I := Counted c)
      (fun _ _ h ha => h.next ha) (counted_init c) hvalid
    obtain ⟨hlater, hover⟩ := hadrift.not_paced hcounted (hstay 59 (Nat.le_refl _))
    have hpaced := h _ ((system c).valid_append.mpr ⟨hvalid, hlater⟩)
    rw [Transition.System.exec_append] at hpaced
    exact hover hpaced
  · rintro ⟨m, hm, hmax⟩ as hv
    have hrun : Paced c ((system c).exec (init c) as) ∧ Counted c ((system c).exec (init c) as) ∧
        Bounded m ((system c).exec (init c) as) := by
      refine Transition.System.invariant
        (I := fun s => Paced c s ∧ Counted c s ∧ Bounded m s) ?_ ?_ hv
      · rintro s a ⟨hp, hs, hb⟩ ha
        exact ⟨(paced_next hs ha).mpr ⟨hp, hb.withinReach hm hs ha⟩, hs.next ha,
          hb.next hm hs ha⟩
      · exact ⟨paced_of_exact rfl nofun nofun, counted_init c, hmax, fun _ => Nat.zero_le _⟩
    exact hrun.1

end Backoff

end TitanClient
