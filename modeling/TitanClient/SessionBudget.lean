import TitanClient.Budget
import TitanClient.SessionSenders

/-!
# What the connection has begun

Some steps wait for nobody outside: those of callers, but for the answer they wait for, and those of
the loop, but for what it reads, for the outcome of a dial and for a resumption. Each of them brings
the work that has been begun nearer to its end, so that there are no long runs of them.

## Main results

* `Action.isInternal` — the steps that wait for nobody outside
* `State.effort` — how many of them there can still be
* `pays_next` — each is paid for
-/

namespace TitanClient

namespace Session

open Budget
open Requests (PendingRequest Caller)

variable {ρ β : Type}

/-- The step waits for nobody outside. The backoff ends by itself, and encoding and writing do. -/
def Action.isInternal : Action ρ β → Bool
  | .reqs (.check _ _) => true
  | .reqs (.allocate _ _) => true
  | .reqs (.enqueue _ _) => true
  | .reqs (.receive _) => true
  | .reqs .dequeue => true
  | .reqs (.insert _) => true
  | .reqs (.encode _ _) => true
  | .reqs (.write _ _) => true
  | .reqs (.failPending _) => true
  | .reqs .cleanup => true
  | .conn .leaveShutdown => true
  | .conn .leaveChannelClosed => true
  | .conn (.checkShutdown _) => true
  | .conn (.checkClosed _) => true
  | .conn (.announce _) => true
  | .conn .wake => true
  | .conn .publishConnected => true
  | .conn .exit => true
  | _ => false

/-! ## Costs -/

/-- What a call still costs. A request that is put into the channel costs the loop four steps. -/
def callerCost : Caller ρ β → ℕ
  | .entered _ => 8
  | .checked _ => 7
  | .sending _ => 6
  | .waiting => 1
  | _ => 0

/-- What the request side of the loop still costs. -/
def handCost : Requests.Loop ρ → ℕ
  | .inserting _ => 3
  | .encoding _ => 2
  | .writing _ => 1
  | .left _ => 1
  | .cleaning => 1
  | _ => 0

/-- What the loop still costs until it waits for a dial or a resumption, or is over. -/
def loopCost : Publishing.Loop → ℕ
  | .serving => 7
  | .left _ => 5
  | .checked _ => 4
  | .deciding _ => 3
  | .backoff => 1
  | .dialed => 1
  | .cleaning => 1
  | _ => 0

/-- The positions of the calls. -/
def callers (r : Requests.State ρ β) (i : ℕ) : Caller ρ β := (r.calls i).caller

/-- What the calls still cost. -/
def callersCost (r : Requests.State ρ β) : ℕ := weigh callerCost (callers r) r.callCount

/-- How many internal steps there can be before anything else happens. -/
def State.effort (s : State ρ β) : ℕ :=
  callersCost s.reqs + 4 * s.reqs.channel.length + handCost s.reqs.loop + loopCost s.conn.loop

section

variable {r t : Requests.State ρ β}

/-- A step that moves no caller costs the calls nothing. -/
theorem callersCost_congr (hcount : t.callCount = r.callCount)
    (h : ∀ i, (t.calls i).caller = (r.calls i).caller) : callersCost t = callersCost r := by
  rw [callersCost, callersCost, hcount]
  exact weigh_congr fun i _ => by rw [callers, callers, h]

theorem callersCost_setCaller {i : ℕ} {c c' : Caller ρ β} (hi : i < r.callCount)
    (hc : (r.calls i).caller = c) :
    callersCost (r.setCaller i c') + callerCost c = callersCost r + callerCost c' := by
  have hcallers : callers (r.setCaller i c') = Function.update (callers r) i c' := by
    funext j
    rw [callers, Requests.caller_setCaller, Function.update_apply]
    rfl
  have h := weigh_update callerCost (callers r) hi c'
  rw [← hcallers, show callers r i = c from hc] at h
  exact h

theorem caller_completePending (r : Requests.State ρ β) (id : ℕ) (x : Requests.Answer β) (i : ℕ) :
    ((r.completePending id x).calls i).caller = (r.calls i).caller := by
  rw [Requests.State.completePending_eq]
  dsimp only
  split <;> rfl

theorem caller_failPendingRequests (r : Requests.State ρ β) (reason : String) (i : ℕ) :
    ((r.failPendingRequests reason).calls i).caller = (r.calls i).caller := by
  rw [Requests.State.failPendingRequests_eq]

/-- Giving up an encoding or a write. -/
theorem callersCost_completePending (id : ℕ) (x : Requests.Answer β) :
    callersCost (r.completePending id x) = callersCost r :=
  callersCost_congr (by rw [Requests.State.completePending_eq]) (caller_completePending r id x)

theorem channel_completePending (id : ℕ) (x : Requests.Answer β) :
    (r.completePending id x).channel = r.channel := by
  rw [Requests.State.completePending_eq]

theorem callersCost_failPendingRequests (reason : String) :
    callersCost (r.failPendingRequests reason) = callersCost r :=
  callersCost_congr (by rw [Requests.State.failPendingRequests_eq])
    (caller_failPendingRequests r reason)

theorem channel_failPendingRequests (reason : String) :
    (r.failPendingRequests reason).channel = r.channel := by
  rw [Requests.State.failPendingRequests_eq]

/-- What the request side costs, but for the other half of the loop. -/
def sideCost (r : Requests.State ρ β) : ℕ :=
  callersCost r + 4 * r.channel.length + handCost r.loop

theorem State.effort_eq (s : State ρ β) : s.effort = sideCost s.reqs + loopCost s.conn.loop := rfl

/-- **One step** of the request side, by itself. -/
theorem sideCost_next (hissues : Issues r) {b : Requests.Action ρ β}
    (hb : Requests.Enabled r b) (hin : (Action.reqs b : Action ρ β).isInternal = true) :
    sideCost (reqsNext r b) < sideCost r := by
  have hmove : ∀ {i : ℕ} {c : Caller ρ β} (c' : Caller ρ β), (r.calls i).caller = c → c ≠ .idle →
      callersCost (r.setCaller i c') + callerCost c = callersCost r + callerCost c' :=
    fun _ hi hne => callersCost_setCaller (hissues.lt_callCount (by rwa [hi])) hi
  cases b with
  | check i data =>
    have hi : (r.calls i).caller = .entered data := hb
    change sideCost (Requests.next r _) < _
    rw [Requests.next]
    split
    · have h := hmove (.returned (.connectionClosed "Client shutdown")) hi (by rintro ⟨⟩)
      simp only [callerCost] at h
      change callersCost (r.setCaller i _) + 4 * r.channel.length + handCost r.loop < _
      rw [sideCost]
      omega
    · have h := hmove (.checked data) hi (by rintro ⟨⟩)
      simp only [callerCost] at h
      change callersCost (r.setCaller i _) + 4 * r.channel.length + handCost r.loop < _
      rw [sideCost]
      omega
  | allocate i data =>
    have hi : (r.calls i).caller = .checked data := hb
    have h := hmove (.sending ⟨r.nextId, data⟩) hi (by rintro ⟨⟩)
    simp only [callerCost] at h
    change callersCost (r.setCaller i _) + 4 * r.channel.length + handCost r.loop < _
    rw [sideCost]
    omega
  | enqueue i request =>
    have hi : (r.calls i).caller = .sending request := hb.1
    change sideCost (Requests.next r _) < _
    rw [Requests.next]
    split
    · have h := hmove (.returned (.connectionClosed "Connection closed")) hi (by rintro ⟨⟩)
      simp only [callerCost] at h
      change callersCost (r.setCaller i _) + 4 * r.channel.length + handCost r.loop < _
      rw [sideCost]
      omega
    · have h := hmove .waiting hi (by rintro ⟨⟩)
      simp only [callerCost] at h
      change callersCost (r.setCaller i _) + 4 * (r.channel ++ [_]).length + handCost r.loop < _
      rw [sideCost, List.length_append, List.length_singleton]
      omega
  | receive i =>
    have hi : (r.calls i).caller = .waiting := hb.1
    have h := hmove (.returned (r.calls i).received) hi (by rintro ⟨⟩)
    simp only [callerCost] at h
    change callersCost (r.setCaller i _) + 4 * r.channel.length + handCost r.loop < _
    rw [sideCost]
    omega
  | dequeue =>
    change sideCost (Requests.dequeueNext r) < _
    obtain ⟨hloop, hne⟩ := hb
    rw [Requests.dequeueNext]
    cases hchannel : r.channel with
    | nil => exact absurd hchannel hne
    | cons p rest =>
      change callersCost r + 4 * rest.length + 3 < _
      rw [sideCost, hchannel, List.length_cons]
      omega
  | insert p =>
    have hloop : r.loop = .inserting p := hb
    change sideCost (insertNext r p) < _
    have hcost : callersCost (insertNext r p) = callersCost r := by
      rw [insertNext_eq]
      refine callersCost_congr rfl fun i => ?_
      dsimp only
      split <;> rfl
    have hrest : 4 * (insertNext r p).channel.length + handCost (insertNext r p).loop =
        4 * r.channel.length + 2 := by
      rw [insertNext_eq]
      rfl
    rw [sideCost, sideCost, hcost, hloop, handCost]
    omega
  | encode p error =>
    have hloop : r.loop = .encoding p := hb
    cases error with
    | none =>
      change callersCost r + 4 * r.channel.length + 1 < _
      rw [sideCost, hloop, handCost]
      omega
    | some e =>
      change callersCost (r.completePending _ _) +
        4 * (r.completePending _ _).channel.length + 0 < _
      rw [callersCost_completePending, channel_completePending, sideCost, hloop, handCost]
      omega
  | write p error =>
    have hloop : r.loop = .writing p := hb
    cases error with
    | none =>
      change callersCost r + 4 * r.channel.length + 0 < _
      rw [sideCost, hloop, handCost]
      omega
    | some e =>
      change callersCost (r.completePending _ _) +
        4 * (r.completePending _ _).channel.length + 0 < _
      rw [callersCost_completePending, channel_completePending, sideCost, hloop, handCost]
      omega
  | failPending reason =>
    have hloop : r.loop = .left reason := hb
    change callersCost (r.failPendingRequests reason) +
      4 * (r.failPendingRequests reason).channel.length + 0 < _
    rw [callersCost_failPendingRequests, channel_failPendingRequests, sideCost, hloop, handCost]
    omega
  | cleanup =>
    have hloop : r.loop = .cleaning := hb
    change callersCost (r.failPendingRequests _) +
      4 * (r.failPendingRequests _).channel.length + 0 < _
    rw [callersCost_failPendingRequests, channel_failPendingRequests, sideCost, hloop, handCost]
    omega
  | _ => cases hin

/-- The loop has decided. -/
theorem handCost_decidedNext {u : Publishing.State} (hr : r.loop = .failed) :
    sideCost (decidedNext r u) = sideCost r + (if u.loop = .cleaning then 1 else 0) := by
  change callersCost (decidedNext r u) + 4 * r.channel.length + handCost (decidedNext r u).loop = _
  have hcallers : callersCost (decidedNext r u) = callersCost r :=
    callersCost_congr rfl fun _ => rfl
  rw [hcallers, sideCost, hr, decidedNext]
  cases u.loop with
  | cleaning => rfl
  | backoff => rfl
  | _ =>
    dsimp only
    rw [hr]
    rfl

end

section

variable {s : State ρ β} {a : Action ρ β}

/-- **One step.** -/
theorem pays_next (h : Sound s) (ha : Enabled s a) (hin : a.isInternal = true) :
    (next s a).effort < s.effort := by
  cases a with
  | reqs b =>
    have hside := sideCost_next h.issues ha.2.1 hin
    rw [State.effort_eq, State.effort_eq]
    exact Nat.add_lt_add_right hside _
  | conn a =>
    obtain ⟨hconn, hshared, hdecides⟩ := ha
    rw [State.effort_eq, State.effort_eq]
    cases a with
    | leaveShutdown =>
      rw [show s.conn.loop = .serving from hconn.1]
      have hloop : s.reqs.loop = .serving := hshared.1
      change callersCost s.reqs + 4 * s.reqs.channel.length + 1 + 5 < _
      rw [sideCost, hloop]
      change _ < _ + 0 + 7
      omega
    | leaveChannelClosed =>
      rw [show s.conn.loop = .serving from hconn.1]
      have hloop : s.reqs.loop = .serving := hshared.1
      change callersCost s.reqs + 4 * s.reqs.channel.length + 1 + 5 < _
      rw [sideCost, hloop]
      change _ < _ + 0 + 7
      omega
    | checkShutdown reason =>
      have hloop : s.conn.loop = .left reason := hconn
      change sideCost (decidedNext s.reqs (Publishing.next s.conn (.checkShutdown reason))) +
        loopCost (if s.conn.cancelled then .cleaning else .checked reason) < _
      rw [handCost_decidedNext (hdecides rfl), hloop]
      change _ + (if (if s.conn.cancelled then _ else _) = Publishing.Loop.cleaning then 1 else 0) +
        _ < _
      cases s.conn.cancelled <;> simp [loopCost]
    | checkClosed reason =>
      have hloop : s.conn.loop = .checked reason := hconn
      change sideCost (decidedNext s.reqs (Publishing.next s.conn (.checkClosed reason))) +
        loopCost (if s.conn.dropped then .cleaning else .deciding reason) < _
      rw [handCost_decidedNext (hdecides rfl), hloop]
      change _ + (if (if s.conn.dropped then _ else _) = Publishing.Loop.cleaning then 1 else 0) +
        _ < _
      cases s.conn.dropped <;> simp [loopCost]
    | announce reason =>
      have hloop : s.conn.loop = .deciding reason := hconn
      change sideCost (decidedNext s.reqs (Publishing.announceNext s.conn reason)) +
        loopCost (Publishing.announceNext s.conn reason).loop < _
      rw [handCost_decidedNext (hdecides rfl), hloop]
      rw [Publishing.announceNext]
      split <;> simp [loopCost]
    | wake =>
      have hloop : s.conn.loop = .backoff := hconn
      change sideCost s.reqs + 0 < _
      rw [hloop, loopCost]
      omega
    | publishConnected =>
      have hloop : s.conn.loop = .dialed := hconn
      change sideCost s.reqs + 0 < _
      rw [hloop, loopCost]
      omega
    | exit =>
      have hloop : s.conn.loop = .cleaning := hconn
      have hexiting : s.reqs.loop = .exiting := hshared
      change callersCost { s.reqs.dropReceiver with loop := .exited } + 4 * 0 + 0 + 0 < _
      have hcallers : callersCost { s.reqs.dropReceiver with loop := .exited } =
          callersCost s.reqs := by
        refine callersCost_congr rfl fun i => ?_
        change (if i ∈ _ then _ else _ : Requests.Call ρ β).caller = _
        split <;> rfl
      rw [hcallers, sideCost, hloop, hexiting]
      change _ < _ + 0 + 1
      omega
    | _ => cases hin

end

/-- **The connection comes to rest.** From every reachable state it takes no more steps by itself
than can be read off the state. -/
theorem internal_length_le {max : Option ℕ} {as bs : List (Action ρ β)}
    (hv : (system ρ β).Valid (init max) as)
    (hbs : (system ρ β).Valid ((system ρ β).exec (init max) as) bs)
    (hin : ∀ b ∈ bs, b.isInternal = true) :
    bs.length ≤ ((system ρ β).exec (init max) as).effort := by
  have hlength := Transition.System.length_le_of_rank (S := system ρ β) (I := Sound)
    (C := fun b => b.isInternal = true) (b := 0) State.effort (fun _ => 0)
    (fun s a hs hb ha => ⟨hs.next ha, Or.inl ⟨pays_next hs ha hb, le_refl 0⟩⟩)
    (exec_sound hv) hin hbs
  rwa [Nat.zero_add, Nat.mul_one, Nat.add_zero] at hlength

end Session

end TitanClient
