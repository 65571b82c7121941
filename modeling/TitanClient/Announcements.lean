import Mathlib.Data.List.Induction
import TitanClient.ReportedState

/-!
# What the loop announces

Whoever watches the connection state sees what the loop has sent, or a part of it. `advance` says
what may follow what: a loss, then a number, then either the connection again or the next loss; the
numbers count the dials of an outage from one; and the announcement that ends it all quotes the last
loss. `Phase` is all that one has to remember for that.

## Main results

* `announcements_accepted` — the announcements of every run follow that grammar
* `gives_up_iff` — the loop gives up exactly when as many dials have failed as the configuration
  allows
-/

namespace TitanClient

namespace Announcements

open Publishing (ConnectionState Author Action State)

/-! ## The grammar -/

/-- What has been announced: the connection, its loss after `failed` failed dials, the dial that
comes after them, or the end. -/
inductive Phase
  | up
  | down (failed : ℕ) (reason : String)
  | trying (failed : ℕ)
  | ended
  deriving DecidableEq

/-- After this many failed dials the loop may dial again. The attempt is a `u32`. -/
def allowed (max : Option ℕ) (failed : ℕ) : Bool := !max.any (wrap32 (failed + 1) > ·)

/-- What an announcement leads to; `none` if it may not come now. -/
def advance (max : Option ℕ) : Phase → ConnectionState → Option Phase
  | .up, .disconnected reason => some (.down 0 reason)
  | .trying n, .disconnected reason => some (.down (n + 1) reason)
  | .trying _, .connected => some .up
  | .down n _, .reconnecting attempt =>
    if allowed max n = true ∧ attempt = wrap32 (n + 1) then some (.trying n) else none
  | .down n last, .disconnected reason =>
    if allowed max n = false ∧ reason = "Max reconnect attempts reached. Last error: " ++ last then
      some .ended
    else none
  | _, _ => none

/-- The phase after a sequence of announcements, if they may come in that order. -/
def accepted (max : Option ℕ) (statuses : List ConnectionState) : Option Phase :=
  statuses.foldlM (advance max) .up

theorem accepted_append (max : Option ℕ) (statuses : List ConnectionState)
    (status : ConnectionState) :
    accepted max (statuses ++ [status]) =
      (accepted max statuses).bind fun phase => advance max phase status := by
  rw [accepted, List.foldlM_append]
  change (accepted max statuses).bind _ = _
  congr 1
  funext phase
  change (advance max phase status).bind _ = _
  exact Option.bind_fun_some _

/-- All dials of the outage were allowed. -/
def Phase.Open (max : Option ℕ) : Phase → Prop
  | .down n _ => ∀ k < n, allowed max k = true
  | .trying n => ∀ k < n + 1, allowed max k = true
  | _ => True

theorem advance_open {max : Option ℕ} {phase phase' : Phase} {status : ConnectionState}
    (h : phase.Open max) (ha : advance max phase status = some phase') : phase'.Open max := by
  cases phase with
  | up =>
    cases status with
    | disconnected reason =>
      rw [← Option.some.inj ha]
      exact fun k hk => absurd hk (Nat.not_lt_zero k)
    | _ => cases ha
  | trying n =>
    cases status with
    | disconnected reason =>
      rw [← Option.some.inj ha]
      exact h
    | connected =>
      rw [← Option.some.inj ha]
      trivial
    | reconnecting attempt => cases ha
  | down n last =>
    cases status with
    | reconnecting attempt =>
      rw [advance] at ha
      split at ha
      · next hallowed =>
        rw [← Option.some.inj ha]
        intro k hk
        rcases Nat.lt_succ_iff_lt_or_eq.mp hk with hlt | rfl
        · exact h k hlt
        · exact hallowed.1
      · cases ha
    | disconnected reason =>
      rw [advance] at ha
      split at ha
      · rw [← Option.some.inj ha]
        trivial
      · cases ha
    | connected => cases ha
  | ended => cases status <;> cases ha

/-- An outage has no more dials than allowed. -/
theorem accepted_open {max : Option ℕ} {statuses : List ConnectionState} {phase : Phase}
    (h : accepted max statuses = some phase) : phase.Open max := by
  induction statuses using List.reverseRecOn generalizing phase with
  | nil =>
    rw [← Option.some.inj h]
    trivial
  | append_singleton statuses status ih =>
    rw [accepted_append] at h
    obtain ⟨phase₀, hphase₀, hadvance⟩ := Option.bind_eq_some_iff.mp h
    exact advance_open (ih hphase₀) hadvance

/-- The dial that is not allowed is the one after the last allowed one. -/
theorem not_allowed_iff {max : Option ℕ} {n : ℕ} (h : ∀ k < n, allowed max k = true) :
    allowed max n = false ↔ max = some n ∧ n + 1 < 2 ^ 32 := by
  cases max with
  | none => exact iff_of_false Bool.noConfusion fun h => by cases h.1
  | some m =>
    have hiff : ∀ k, allowed (some m) k = false ↔ m < wrap32 (k + 1) := fun k => by
      simp [allowed]
    have hle : wrap32 (n + 1) < 2 ^ 32 := Nat.mod_lt _ (by decide)
    rw [hiff, Option.some.injEq]
    constructor
    · intro hlt
      have hm : m + 1 < 2 ^ 32 := by omega
      have hn : n ≤ m := by
        by_contra hmore
        have hopen := h m (by omega)
        rw [(hiff m).mpr (by rw [wrap32_of_lt hm]; exact Nat.lt_succ_self m)] at hopen
        cases hopen
      rw [wrap32_of_lt (by omega)] at hlt
      omega
    · rintro ⟨rfl, hn⟩
      rw [wrap32_of_lt hn]
      exact Nat.lt_succ_self m

/-! ## The loop follows it -/

/-- What the loop has announced, in order. -/
def announced (s : State) : List ConnectionState :=
  s.log.filterMap fun p => if p.1 = .loop then some p.2 else none

/-- What the loop announces in a step. -/
def announces (s : State) : Action → Option ConnectionState
  | .lose loss => some (.disconnected loss.reason)
  | .announce reason => some (Publishing.announceNext s reason).intended
  | .publishConnected => some .connected
  | _ => none

/-- The dials that have failed since the last successful one. -/
def countDial (failed : ℕ) : Action → ℕ
  | .dial true => 0
  | .dial false => failed + 1
  | _ => failed

/-- The same, for a run. -/
def failedDials (as : List Action) : ℕ := as.foldl countDial 0

/-- What has been announced when the loop stands at `l`, for the given `reconnect_attempt`, token,
sender and failed dials. -/
def Fits (l : Publishing.Loop) (attempt : ℕ) (cancelled dropped : Bool) (failed : ℕ)
    (phase : Phase) : Prop :=
  match l with
  | .serving => phase = .up ∧ attempt = 0 ∧ failed = 0 ∨
    ∃ n, phase = .trying n ∧ attempt = wrap32 (n + 1) ∧ failed = n + 1
  | .left reason => phase = .down failed reason ∧ attempt = wrap32 failed ∨ cancelled = true ∨
    dropped = true
  | .checked reason => phase = .down failed reason ∧ attempt = wrap32 failed ∨ dropped = true
  | .deciding reason => phase = .down failed reason ∧ attempt = wrap32 failed
  | .backoff => phase = .trying failed ∧ attempt = wrap32 (failed + 1)
  | .dialing => phase = .trying failed ∧ attempt = wrap32 (failed + 1)
  | .dialed => (∃ n, phase = .trying n) ∧ attempt = 0 ∧ failed = 0
  | .resuming => phase = .up ∧ attempt = 0 ∧ failed = 0
  | .cleaning => True
  | .exited => True

section

variable {s : State} {a : Action} {max : Option ℕ} {failed : ℕ} {phase : Phase}

theorem announced_next (s : State) (a : Action) :
    announced (Publishing.next s a) = announced s ++ (announces s a).toList := by
  have hloop : ∀ status : ConnectionState,
      (s.log ++ [(Author.loop, status)]).filterMap (fun p => if p.1 = .loop then some p.2 else none) =
        announced s ++ [status] := fun status => List.filterMap_append ..
  have hother : ∀ {author : Author} {status : ConnectionState}, author ≠ .loop →
      (s.log ++ [(author, status)]).filterMap (fun p => if p.1 = .loop then some p.2 else none) =
        announced s ++ [] := by
    intro author status hauthor
    have hnil : [(author, status)].filterMap
        (fun p => if p.1 = .loop then some p.2 else none) = ([] : List ConnectionState) :=
      List.filterMap_cons_none (if_neg hauthor)
    rw [List.filterMap_append, hnil]
    rfl
  have hsame : announced s = announced s ++ [] := (List.append_nil _).symm
  cases a with
  | connectPublish => exact hother (by rintro ⟨⟩)
  | publishShutdown k => exact hother (by rintro ⟨⟩)
  | lose loss => exact hloop _
  | announce reason =>
    obtain ⟨status, attempt, loop, -, heq⟩ := Publishing.announceNext_eq s reason
    change announced (Publishing.announceNext s reason) =
      announced s ++ [(Publishing.announceNext s reason).intended]
    rw [heq]
    exact hloop status
  | publishConnected => exact hloop _
  | dial connected => cases connected <;> exact hsame
  | _ => exact hsame

theorem announce_spec (s : State) (reason : String) :
    (Publishing.announceNext s reason).reconnectAttempt = wrap32 (s.reconnectAttempt + 1) ∧
      (Publishing.announceNext s reason).maxReconnectAttempts = s.maxReconnectAttempts ∧
      (s.maxReconnectAttempts.any (wrap32 (s.reconnectAttempt + 1) > ·) = true ∧
          (Publishing.announceNext s reason).loop = .cleaning ∧
          (Publishing.announceNext s reason).intended =
            .disconnected ("Max reconnect attempts reached. Last error: " ++ reason) ∨
        s.maxReconnectAttempts.any (wrap32 (s.reconnectAttempt + 1) > ·) = false ∧
          (Publishing.announceNext s reason).loop = .backoff ∧
          (Publishing.announceNext s reason).intended =
            .reconnecting (wrap32 (s.reconnectAttempt + 1))) := by
  rw [Publishing.announceNext]
  dsimp only
  split
  · next h => exact ⟨rfl, rfl, Or.inl ⟨h, rfl, rfl⟩⟩
  · next h => exact ⟨rfl, rfl, Or.inr ⟨Bool.eq_false_iff.mpr h, rfl, rfl⟩⟩

/-- Flags that are set spoil nothing. -/
theorem Fits.mono {l : Publishing.Loop} {attempt : ℕ} {c d c' d' : Bool}
    (h : Fits l attempt c d failed phase) (hc : c = true → c' = true)
    (hd : d = true → d' = true) : Fits l attempt c' d' failed phase := by
  cases l with
  | left reason => exact Or.imp_right (Or.imp hc hd) h
  | checked reason => exact Or.imp_right hd h
  | _ => exact h

/-- **One step.** What the loop announces may come now, and leads to where the loop then stands. -/
theorem fits_next (hmax : s.maxReconnectAttempts = max)
    (h : Fits s.loop s.reconnectAttempt s.cancelled s.dropped failed phase)
    (ha : Publishing.Enabled s a) :
    ∃ phase', (announces s a).toList.foldlM (advance max) phase = some phase' ∧
      Fits (Publishing.next s a).loop (Publishing.next s a).reconnectAttempt
        (Publishing.next s a).cancelled (Publishing.next s a).dropped (countDial failed a)
        phase' := by
  cases a with
  | lose loss =>
    have hloop : s.loop = .serving := ha
    rw [hloop] at h
    rcases h with ⟨rfl, hattempt, rfl⟩ | ⟨n, rfl, hattempt, rfl⟩
    · exact ⟨.down 0 loss.reason, rfl, Or.inl ⟨rfl, hattempt⟩⟩
    · exact ⟨.down (n + 1) loss.reason, rfl, Or.inl ⟨rfl, hattempt⟩⟩
  | leaveShutdown => exact ⟨phase, rfl, Or.inr (Or.inl ha.2)⟩
  | leaveChannelClosed => exact ⟨phase, rfl, Or.inr (Or.inr ha.2)⟩
  | checkShutdown reason =>
    have hloop : s.loop = .left reason := ha
    rw [hloop] at h
    refine ⟨phase, rfl, ?_⟩
    change Fits (if s.cancelled then .cleaning else .checked reason) _ _ _ _ _
    cases hc : s.cancelled with
    | true => trivial
    | false =>
      rcases h with hdown | hcancelled | hdropped
      · exact Or.inl hdown
      · cases hc.symm.trans hcancelled
      · exact Or.inr hdropped
  | checkClosed reason =>
    have hloop : s.loop = .checked reason := ha
    rw [hloop] at h
    refine ⟨phase, rfl, ?_⟩
    change Fits (if s.dropped then .cleaning else .deciding reason) _ _ _ _ _
    cases hd : s.dropped with
    | true => trivial
    | false =>
      rcases h with hdown | hdropped
      · exact hdown
      · cases hd.symm.trans hdropped
  | announce reason =>
    have hloop : s.loop = .deciding reason := ha
    rw [hloop] at h
    obtain ⟨rfl, hattempt⟩ := h
    obtain ⟨hnext, -, hspec⟩ := announce_spec s reason
    rw [hmax, hattempt, wrap32_succ] at hspec
    rw [hattempt, wrap32_succ] at hnext
    change ∃ phase', [(Publishing.announceNext s reason).intended].foldlM (advance max) _ = _ ∧
      Fits (Publishing.announceNext s reason).loop _ _ _ failed phase'
    rcases hspec with ⟨hgive, hcleaning, hintended⟩ | ⟨hgo, hbackoff, hintended⟩
    · rw [hintended, hcleaning]
      refine ⟨.ended, ?_, trivial⟩
      have hno : allowed max failed = false := by rw [allowed, hgive]; rfl
      change (if allowed max failed = false ∧ _ then _ else _) >>= _ = _
      rw [if_pos ⟨hno, rfl⟩]
      rfl
    · rw [hintended, hbackoff]
      refine ⟨.trying failed, ?_, rfl, hnext⟩
      have hyes : allowed max failed = true := by rw [allowed, hgo]; rfl
      change (if allowed max failed = true ∧ _ then _ else _) >>= _ = _
      rw [if_pos ⟨hyes, rfl⟩]
      rfl
  | wake =>
    have hloop : s.loop = .backoff := ha
    rw [hloop] at h
    exact ⟨phase, rfl, h⟩
  | dial connected =>
    have hloop : s.loop = .dialing := ha
    rw [hloop] at h
    obtain ⟨rfl, hattempt⟩ := h
    cases connected with
    | true => exact ⟨_, rfl, ⟨failed, rfl⟩, rfl, rfl⟩
    | false => exact ⟨_, rfl, Or.inr ⟨failed, rfl, hattempt, rfl⟩⟩
  | publishConnected =>
    have hloop : s.loop = .dialed := ha
    rw [hloop] at h
    obtain ⟨⟨n, rfl⟩, hattempt, hfailed⟩ := h
    exact ⟨.up, rfl, rfl, hattempt, hfailed⟩
  | resumed =>
    have hloop : s.loop = .resuming := ha
    rw [hloop] at h
    exact ⟨phase, rfl, Or.inl h⟩
  | exit => exact ⟨phase, rfl, trivial⟩
  | cancel k => exact ⟨phase, rfl, h.mono (fun _ => rfl) id⟩
  | dropConnection => exact ⟨phase, rfl, h.mono id fun _ => rfl⟩
  | _ => exact ⟨phase, rfl, h⟩

theorem max_next (s : State) (a : Action) :
    (Publishing.next s a).maxReconnectAttempts = s.maxReconnectAttempts := by
  cases a with
  | announce reason => exact (announce_spec s reason).2.1
  | dial connected => cases connected <;> rfl
  | _ => rfl

end

/-- The loop has kept to the grammar, and stands where its announcements say. -/
def Tracked (max : Option ℕ) (as : List Action) (s : State) : Prop :=
  s.maxReconnectAttempts = max ∧ ∃ phase, accepted max (announced s) = some phase ∧
    Fits s.loop s.reconnectAttempt s.cancelled s.dropped (failedDials as) phase

theorem tracked_next {max : Option ℕ} {as : List Action} {s : State} {a : Action}
    (h : Tracked max as s) (ha : Publishing.Enabled s a) :
    Tracked max (as ++ [a]) (Publishing.next s a) := by
  obtain ⟨hmax, phase, haccepted, hfits⟩ := h
  obtain ⟨phase', hadvance, hfits'⟩ := fits_next hmax hfits ha
  refine ⟨(max_next s a).trans hmax, phase', ?_, ?_⟩
  · rw [announced_next, accepted, List.foldlM_append]
    change (accepted max (announced s)).bind _ = _
    rw [haccepted]
    exact hadvance
  · rw [failedDials, List.foldl_append]
    exact hfits'

theorem exec_tracked {max : Option ℕ} {as : List Action}
    (hv : Publishing.system.Valid (Publishing.init max) as) :
    Tracked max as (Publishing.system.exec (Publishing.init max) as) :=
  Transition.System.history (J := Tracked max) (fun _ _ _ h ha => tracked_next h ha)
    ⟨rfl, .up, rfl, Or.inl ⟨rfl, rfl, rfl⟩⟩ hv

/-- **The announcements of the loop.** In every run each may come when it does: a loss after the
connection or after a failed dial, `Reconnecting` with the number of the dial that follows, counted
from one and as far as allowed, `Connected` only after that, and the end with the last loss quoted.
When the loop decides, the announcements tell the number of failed dials and the last reason. -/
theorem announcements_accepted (max : Option ℕ) (as : List Action)
    (hv : Publishing.system.Valid (Publishing.init max) as) :
    ∃ phase, accepted max (announced (Publishing.system.exec (Publishing.init max) as)) =
        some phase ∧
      ∀ reason, (Publishing.system.exec (Publishing.init max) as).loop = .deciding reason →
        phase = .down (failedDials as) reason := by
  obtain ⟨-, phase, haccepted, hfits⟩ := exec_tracked hv
  refine ⟨phase, haccepted, fun reason hloop => ?_⟩
  rw [hloop] at hfits
  exact hfits.1

/-- The connection is lost, one dial fails, and no other is allowed. -/
def oneRetry : List Action :=
  [.connectPublish, .connectReturn, .lose .pongTimeout, .checkShutdown "Pong timeout",
    .checkClosed "Pong timeout", .announce "Pong timeout", .wake, .dial false,
    .lose (.error "broken pipe"), .checkShutdown "WebSocket error: broken pipe",
    .checkClosed "WebSocket error: broken pipe"]

theorem announcements_accepted_oneRetry :
    ∃ phase, accepted (some 1) (announced (Publishing.system.exec (Publishing.init (some 1))
        oneRetry)) = some phase ∧ phase = .down 1 "WebSocket error: broken pipe" :=
  (announcements_accepted (some 1) oneRetry (by decide)).imp fun _ h =>
    ⟨h.1, h.2 "WebSocket error: broken pipe" (by decide)⟩

/-- **Giving up.** Whenever the loop decides, it gives up just if as many dials have failed since
the last successful one as `max_reconnect_attempts` says; the largest `u32` is no bound. -/
theorem gives_up_iff (max : Option ℕ) (as : List Action)
    (hv : Publishing.system.Valid (Publishing.init max) as) (reason : String)
    (hloop : (Publishing.system.exec (Publishing.init max) as).loop = .deciding reason) :
    (Publishing.next (Publishing.system.exec (Publishing.init max) as) (.announce reason)).loop =
        .cleaning ↔ max = some (failedDials as) ∧ failedDials as + 1 < 2 ^ 32 := by
  obtain ⟨hmax, phase, haccepted, hfits⟩ := exec_tracked hv
  rw [hloop] at hfits
  obtain ⟨rfl, hattempt⟩ := hfits
  rw [← not_allowed_iff (accepted_open haccepted)]
  obtain ⟨-, -, hspec⟩ :=
    announce_spec (Publishing.system.exec (Publishing.init max) as) reason
  rw [hmax, hattempt, wrap32_succ] at hspec
  change (Publishing.announceNext _ reason).loop = .cleaning ↔ _
  rcases hspec with ⟨hgive, hcleaning, -⟩ | ⟨hgo, hbackoff, -⟩
  · refine iff_of_true hcleaning ?_
    rw [allowed, hgive]
    rfl
  · refine iff_of_false (fun h => by cases hbackoff.symm.trans h) ?_
    rw [allowed, hgo]
    rintro ⟨⟩

theorem gives_up_iff_oneRetry :
    (Publishing.next (Publishing.system.exec (Publishing.init (some 1)) oneRetry)
      (.announce "WebSocket error: broken pipe")).loop = .cleaning :=
  (gives_up_iff (some 1) oneRetry (by decide) "WebSocket error: broken pipe" (by decide)).mpr
    ⟨by decide, by decide⟩

end Announcements

end TitanClient
