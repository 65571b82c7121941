import TitanClient.SessionBudget
import TitanClient.SessionWritten

/-!
# Requests come to rest

`Session` leaves the data of the streams aside. It goes past the requests, but it can hold them up:
`handle_server_message` puts a quote into the raw channel of its stream with `send`, and if the
channel is full the loop stays there until there is room, in the arm of `select!` as well as in
`resume_streams`. Meanwhile it takes no request out of the channel, reads nothing and looks neither
at the token nor at the clock. Here that may happen at any frame, and `stalled` says that it has.

What a call of `send_request` waits for when neither a caller nor the loop can go on by itself: for
the server, which has been sent its frame in the current run of `run_single_connection`; or, with
its request in the channel or in front of a full one, for a loop that dials, resumes streams or
waits for room. Once the loop has exited nobody waits.

## What is left out

Which stream it is, and who makes room. That is up to its adapter and to whoever takes its quotes,
and both may never do so. `Lifecycle` has them.

## Main results

* `session_run` — a run here is a run of `Session`, so that whatever holds of those holds here
* `Idle` — no internal step can be taken
* `Stands` — where a call stands then
* `requests_settle` — it comes to that within a number of steps that can be read off the state
-/

namespace TitanClient

namespace Stalling

open Session (Joined Sound Sent WrittenNow)
open Requests (Caller tokens service)

variable {ρ β : Type}

/-- The connection with its requests, and whether its loop waits for room in a raw channel. -/
structure State (ρ β : Type) where
  session : Session.State ρ β
  stalled : Bool

/-- The state right after the loop was spawned. -/
def init (maxReconnectAttempts : Option ℕ) : State ρ β :=
  { session := Session.init maxReconnectAttempts, stalled := false }

/-- The loop reads data for a stream whose raw channel is `full`, and there is `room` again or
nobody who reads the channel any more. -/
inductive Action (ρ β : Type)
  | session (a : Session.Action ρ β)
  | full
  | room
  deriving DecidableEq

/-- The step is one of the loop. The others are those of callers, of `connect`, of `shutdown` and of
the owners of the `Connection` and of receivers. -/
def isLoops : Session.Action ρ β → Bool
  | .reqs (.call _) => false
  | .reqs (.check _ _) => false
  | .reqs (.allocate _ _) => false
  | .reqs (.enqueue _ _) => false
  | .reqs (.receive _) => false
  | .reqs (.abandon _) => false
  | .conn .connectPublish => false
  | .conn .connectReturn => false
  | .conn .subscribe => false
  | .conn .dropReceiver => false
  | .conn .dropConnection => false
  | .conn .shutdown => false
  | .conn (.cancel _) => false
  | .conn (.publishShutdown _) => false
  | .conn (.abandonShutdown _) => false
  | _ => true

/-- The loop is about to read a frame, in `run_single_connection` or in `resume_streams`. -/
def Reads (s : Session.State ρ β) : Prop := s.reqs.loop = .serving ∨ s.conn.loop = .resuming

/-- When a step can be taken. -/
def Enabled (s : State ρ β) : Action ρ β → Prop
  | .session a => Session.Enabled s.session a ∧ (isLoops a = true → s.stalled = false)
  | .full => s.stalled = false ∧ Reads s.session
  | .room => s.stalled = true

instance [DecidableEq ρ] [DecidableEq β] (s : State ρ β) (a : Action ρ β) :
    Decidable (Enabled s a) :=
  match a with
  | .session _ => inferInstanceAs (Decidable (_ ∧ (_ → _)))
  | .full => inferInstanceAs (Decidable (_ ∧ (_ ∨ _)))
  | .room => inferInstanceAs (Decidable (_ = _))

/-- The state after a step. -/
def next (s : State ρ β) : Action ρ β → State ρ β
  | .session a => { s with session := Session.next s.session a }
  | .full => { s with stalled := true }
  | .room => { s with stalled := false }

/-- The connection with its requests and the data of its streams, as one system. -/
def system (ρ β : Type) : Transition.System (State ρ β) (Action ρ β) := ⟨Enabled, next⟩

instance [DecidableEq ρ] [DecidableEq β] (s : State ρ β) (a : Action ρ β) :
    Decidable ((system ρ β).Enabled s a) := inferInstanceAs (Decidable (Enabled s a))

/-! ## The session in it -/

/-- What the session does in a step. -/
def Action.ofSession : Action ρ β → List (Session.Action ρ β)
  | .session a => [a]
  | _ => []

/-- A run is one of the session. -/
theorem session_run {s : State ρ β} {as : List (Action ρ β)} (hv : (system ρ β).Valid s as) :
    (Session.system ρ β).Valid s.session (as.flatMap Action.ofSession) ∧
      ((system ρ β).exec s as).session =
        (Session.system ρ β).exec s.session (as.flatMap Action.ofSession) := by
  refine Transition.System.project State.session Action.ofSession (fun s a ha => ?_) hv
  cases a with
  | session a => exact ⟨⟨ha.1, trivial⟩, rfl⟩
  | full => exact ⟨trivial, rfl⟩
  | room => exact ⟨trivial, rfl⟩

theorem exec_sound {max : Option ℕ} {as : List (Action ρ β)}
    (hv : (system ρ β).Valid (init max) as) :
    Sound ((system ρ β).exec (init max) as).session := by
  obtain ⟨hvalid, hexec⟩ := session_run hv
  rw [hexec]
  exact Session.exec_sound hvalid

theorem exec_sent {max : Option ℕ} {as : List (Action ρ β)}
    (hv : (system ρ β).Valid (init max) as) :
    Sent ((system ρ β).exec (init max) as).session.reqs := by
  obtain ⟨hvalid, hexec⟩ := session_run hv
  rw [hexec]
  exact Session.exec_sent hvalid

/-- Steps of others leave the loop where it is. -/
theorem loop_of_not_isLoops (s : Session.State ρ β) {a : Session.Action ρ β}
    (ha : isLoops a = false) :
    (Session.next s a).reqs.loop = s.reqs.loop ∧ (Session.next s a).conn.loop = s.conn.loop := by
  cases a with
  | reqs b =>
    cases b with
    | check i data =>
      refine ⟨?_, rfl⟩
      change (Requests.next s.reqs _).loop = _
      rw [Requests.next]
      split <;> rfl
    | enqueue i request =>
      refine ⟨?_, rfl⟩
      change (Requests.next s.reqs _).loop = _
      rw [Requests.next]
      split <;> rfl
    | call data => exact ⟨rfl, rfl⟩
    | allocate i data => exact ⟨rfl, rfl⟩
    | receive i => exact ⟨rfl, rfl⟩
    | abandon i => exact ⟨rfl, rfl⟩
    | _ => cases ha
  | conn b =>
    cases b with
    | connectPublish => exact ⟨rfl, rfl⟩
    | connectReturn => exact ⟨rfl, rfl⟩
    | subscribe => exact ⟨rfl, rfl⟩
    | dropReceiver => exact ⟨rfl, rfl⟩
    | dropConnection => exact ⟨rfl, rfl⟩
    | shutdown => exact ⟨rfl, rfl⟩
    | cancel k => exact ⟨rfl, rfl⟩
    | publishShutdown k => exact ⟨rfl, rfl⟩
    | abandonShutdown k => exact ⟨rfl, rfl⟩
    | _ => cases ha

/-- The loop waits for room only with a frame in its hands. -/
def HoldsFrame (s : State ρ β) : Prop := s.stalled = true → Reads s.session

theorem HoldsFrame.next {s : State ρ β} {a : Action ρ β} (h : HoldsFrame s) (ha : Enabled s a) :
    HoldsFrame (Stalling.next s a) := by
  cases a with
  | session a =>
    intro hstalled
    have hothers : isLoops a = false := by
      by_contra hloops
      exact Bool.false_ne_true ((ha.2 (Bool.not_eq_false _ ▸ hloops)).symm.trans hstalled)
    obtain ⟨hreqs, hconn⟩ := loop_of_not_isLoops s.session hothers
    exact (h hstalled).imp hreqs.trans hconn.trans
  | full => exact fun _ => ha.2
  | room => rintro ⟨⟩

theorem exec_holdsFrame {max : Option ℕ} {as : List (Action ρ β)}
    (hv : (system ρ β).Valid (init max) as) : HoldsFrame ((system ρ β).exec (init max) as) :=
  Transition.System.invariant (S := system ρ β) (I := HoldsFrame) (fun _ _ h ha => h.next ha)
    (by rintro ⟨⟩) hv

/-! ## At rest -/

/-- The step waits for nobody outside. Frames come from the server, and room from a stream. -/
def Action.isInternal : Action ρ β → Bool
  | .session a => a.isInternal
  | _ => false

/-- No internal step can be taken. -/
def Idle (s : State ρ β) : Prop := ∀ a : Action ρ β, a.isInternal = true → ¬Enabled s a

/-- The loop takes no request: it waits for the outcome of a dial, for the end of a resumption, or
for room. -/
def Away (s : State ρ β) : Prop :=
  s.session.conn.loop = .dialing ∨ s.session.conn.loop = .resuming ∨
    s.session.conn.loop = .serving ∧ s.stalled = true

/-- Where a call stands that cannot go on. `crowded` waits for room in the channel. -/
inductive Stands (s : State ρ β) (i : ℕ) : Prop
  | idle (h : (s.session.reqs.calls i).caller = .idle)
  | over (h : (s.session.reqs.calls i).caller.isDone = true)
  | asked (id : ℕ) (h : (s.session.reqs.calls i).caller = .waiting)
      (hloop : s.session.conn.loop = .serving)
      (hpending : s.session.reqs.pending.lookup id = some i)
      (hwritten : WrittenNow s.session.reqs id i)
  | queued (p : Requests.PendingRequest ρ) (h : (s.session.reqs.calls i).caller = .waiting)
      (hloop : Away s) (hp : p ∈ s.session.reqs.channel) (hi : p.responseTx = i)
  | crowded (request : Requests.ClientRequest ρ)
      (h : (s.session.reqs.calls i).caller = .sending request) (hloop : Away s)
      (hfull : 32 ≤ s.session.reqs.channel.length)

section

variable {s : State ρ β}

/-- A caller can go on whether the loop is stalled or not. -/
theorem Idle.caller (hidle : Idle s) {b : Requests.Action ρ β}
    (hin : (Session.Action.reqs b).isInternal = true) (hloops : isLoops (.reqs b) = false)
    (hown : Session.isOwn b = true) (hresuming : Session.isResuming b = false)
    (hcall : Session.isCall b = false) : ¬Requests.Enabled s.session.reqs b := by
  intro hb
  refine hidle (.session (.reqs b)) hin ⟨⟨hown, hb, ?_, ?_⟩, ?_⟩
  · rw [hresuming]
    rintro ⟨⟩
  · rw [hcall]
    rintro ⟨⟩
  · rw [hloops]
    rintro ⟨⟩

/-- A loop that is not stalled takes each step that it can. -/
theorem Idle.loopStep (hidle : Idle s) (hfree : s.stalled = false) {a : Session.Action ρ β}
    (hin : a.isInternal = true) : ¬Session.Enabled s.session a :=
  fun ha => hidle (.session a) hin ⟨ha, fun _ => hfree⟩

/-- The loop serves with nothing in its hands and nothing in the channel, is away, or is over. -/
theorem Idle.loop (hidle : Idle s) (hj : Joined s.session) (hframe : HoldsFrame s) :
    (s.session.conn.loop = .serving ∧ s.session.reqs.loop = .serving ∧
        s.session.reqs.channel = []) ∨
      Away s ∨ s.session.conn.loop = .exited := by
  have hagrees := hj.loop
  cases hstalled : s.stalled with
  | true =>
    rcases hframe hstalled with hserving | hresuming
    · exact Or.inr (Or.inl (Or.inr (Or.inr ⟨hagrees.serving (Or.inl hserving), hstalled⟩)))
    · exact Or.inr (Or.inl (Or.inr (Or.inl hresuming)))
  | false =>
    have hstep := fun {a} => hidle.loopStep hstalled (a := a)
    cases hl : s.session.conn.loop with
    | serving =>
      rw [hl] at hagrees
      rcases hagrees with hr | ⟨p, hr | hr | hr⟩
      · refine Or.inl ⟨rfl, hr, ?_⟩
        by_contra hne
        exact hstep (a := .reqs .dequeue) rfl ⟨rfl, ⟨hr, hne⟩, by rintro ⟨⟩, by rintro ⟨⟩⟩
      · exact absurd ⟨rfl, hr, by rintro ⟨⟩, by rintro ⟨⟩⟩ (hstep (a := .reqs (.insert p)) rfl)
      · exact absurd ⟨rfl, hr, by rintro ⟨⟩, by rintro ⟨⟩⟩
          (hstep (a := .reqs (.encode p none)) rfl)
      · exact absurd ⟨rfl, hr, by rintro ⟨⟩, by rintro ⟨⟩⟩ (hstep (a := .reqs (.write p none)) rfl)
    | left reason =>
      rw [hl] at hagrees
      rcases hagrees with hr | hr
      · exact absurd ⟨rfl, hr, by rintro ⟨⟩, by rintro ⟨⟩⟩
          (hstep (a := .reqs (.failPending reason)) rfl)
      · exact absurd ⟨hl, trivial, fun _ => hr⟩ (hstep (a := .conn (.checkShutdown reason)) rfl)
    | checked reason =>
      rw [hl] at hagrees
      exact absurd ⟨hl, trivial, fun _ => hagrees⟩ (hstep (a := .conn (.checkClosed reason)) rfl)
    | deciding reason =>
      rw [hl] at hagrees
      exact absurd ⟨hl, trivial, fun _ => hagrees⟩ (hstep (a := .conn (.announce reason)) rfl)
    | backoff => exact absurd ⟨hl, trivial, by rintro ⟨⟩⟩ (hstep (a := .conn .wake) rfl)
    | dialed => exact absurd ⟨hl, trivial, by rintro ⟨⟩⟩ (hstep (a := .conn .publishConnected) rfl)
    | cleaning =>
      rw [hl] at hagrees
      rcases hagrees with hr | hr
      · exact absurd ⟨rfl, hr, by rintro ⟨⟩, by rintro ⟨⟩⟩ (hstep (a := .reqs .cleanup) rfl)
      · exact absurd ⟨hl, hr, by rintro ⟨⟩⟩ (hstep (a := .conn .exit) rfl)
    | dialing => exact Or.inr (Or.inl (Or.inl hl))
    | resuming => exact Or.inr (Or.inl (Or.inr (Or.inl hl)))
    | exited => exact Or.inr (Or.inr rfl)

/-- Who waits has neither been answered nor been given up. -/
theorem Idle.unanswered (hidle : Idle s) {i : ℕ}
    (hi : (s.session.reqs.calls i).caller = .waiting) :
    (s.session.reqs.calls i).answered = [] ∧ (s.session.reqs.calls i).txDropped = false := by
  have hreceive := hidle.caller (b := .receive i) rfl rfl rfl rfl rfl
  constructor
  · by_contra hne
    exact hreceive ⟨hi, Or.inl hne⟩
  · by_contra hne
    exact hreceive ⟨hi, Or.inr (Bool.not_eq_false _ ▸ hne)⟩

/-- While the loop is away, it is between two connections or has a frame in its hands. -/
theorem Away.loop (haway : Away s) (hj : Joined s.session) (hframe : HoldsFrame s) :
    s.session.reqs.loop.isDrained = true ∨
      s.session.conn.loop = .serving ∧ s.session.reqs.loop = .serving := by
  rcases haway with hl | hl | ⟨hl, hstalled⟩
  · exact Or.inl (hj.drained (by rw [hl]; rfl))
  · exact Or.inl (hj.drained (by rw [hl]; rfl))
  · refine Or.inr ⟨hl, (hframe hstalled).resolve_right ?_⟩
    rw [hl]
    rintro ⟨⟩

/-- At rest the loop has no request in its hands. -/
theorem Idle.hand (hidle : Idle s) (hj : Joined s.session) (hframe : HoldsFrame s) (i : ℕ) :
    s.session.reqs.loop.hand i = false := by
  rcases hidle.loop hj hframe with ⟨-, hloop, -⟩ | haway | hexited
  · rw [hloop]
    rfl
  · rcases haway.loop hj hframe with hl | ⟨-, hloop⟩
    · exact Requests.hand_of_isDrained hl i
    · rw [hloop]
      rfl
  · exact Requests.hand_of_isDrained (hj.drained (by rw [hexited]; rfl)) i

/-- The sender of a call that waits is in the map, if the loop serves, or in the channel, if it is
away. -/
theorem Idle.waiting (hidle : Idle s) (h : Sound s.session) (hsent : Sent s.session.reqs)
    (hframe : HoldsFrame s) {i : ℕ} (hi : (s.session.reqs.calls i).caller = .waiting) :
    Stands s i := by
  have hone : tokens s.session.reqs i = 1 := h.accounted.placed i hi
  obtain ⟨hanswered, hdropped⟩ := hidle.unanswered hi
  rw [tokens, service, hi, hanswered, hdropped, hidle.hand h.joined hframe] at hone
  have hplace : 0 < Table.count s.session.reqs.pending (· == i) ∨
      0 < s.session.reqs.channel.countP (·.responseTx == i) := by
    simp only [Caller.isSending, Bool.toNat_false, List.length_nil] at hone
    omega
  rcases hplace with hcount | hcount
  · obtain ⟨id, v, hlook, hv⟩ := Table.count_pos_iff.mp hcount
    cases beq_iff_eq.mp hv
    have hnotDrained : ¬s.session.reqs.loop.isDrained = true := by
      intro hdrained
      rw [h.phases.drained hdrained] at hlook
      cases hlook
    have hserving : s.session.conn.loop = .serving ∧ s.session.reqs.loop = .serving := by
      rcases hidle.loop h.joined hframe with ⟨hl, hloop, -⟩ | haway | hexited
      · exact ⟨hl, hloop⟩
      · exact (haway.loop h.joined hframe).resolve_left hnotDrained
      · exact absurd (h.joined.drained (by rw [hexited]; rfl)) hnotDrained
    refine .asked id hi hserving.1 hlook ((hsent id i hlook).resolve_right ?_)
    rintro ⟨p, hp, -⟩
    rw [hserving.2] at hp
    cases hp
  · obtain ⟨p, hp, hpi⟩ := List.countP_pos_iff.mp hcount
    rcases hidle.loop h.joined hframe with ⟨-, -, hchannel⟩ | haway | hexited
    · rw [hchannel] at hp
      cases hp
    · exact .queued p hi haway hp (beq_iff_eq.mp hpi)
    · exact absurd (h.accounted.returns hexited i hi).2.1
        (hidle.caller (b := .receive i) rfl rfl rfl rfl rfl)

/-- Who waits for room in the channel does so while the loop is away. -/
theorem Idle.sending (hidle : Idle s) (h : Sound s.session) (hframe : HoldsFrame s) {i : ℕ}
    {request : Requests.ClientRequest ρ}
    (hi : (s.session.reqs.calls i).caller = .sending request) : Stands s i := by
  have hroom : ¬(s.session.reqs.receiverDropped = true ∨ s.session.reqs.channel.length < 32) :=
    fun hroom => hidle.caller (b := .enqueue i request) rfl rfl rfl rfl rfl ⟨hi, hroom⟩
  rcases hidle.loop h.joined hframe with ⟨-, -, hchannel⟩ | haway | hexited
  · refine absurd (Or.inr ?_) hroom
    rw [hchannel, List.length_nil]
    omega
  · exact .crowded request hi haway (Nat.not_lt.mp fun hlt => hroom (Or.inr hlt))
  · have hagrees := h.joined.loop
    rw [hexited] at hagrees
    exact absurd (Or.inl (h.phases.receiver.mpr hagrees)) hroom

/-- **At rest** every call is over or waits for somebody outside. -/
theorem Idle.stands (hidle : Idle s) (h : Sound s.session) (hsent : Sent s.session.reqs)
    (hframe : HoldsFrame s) (i : ℕ) : Stands s i := by
  cases hi : (s.session.reqs.calls i).caller with
  | idle => exact .idle hi
  | entered data => exact absurd hi (hidle.caller (b := .check i data) rfl rfl rfl rfl rfl)
  | checked data => exact absurd hi (hidle.caller (b := .allocate i data) rfl rfl rfl rfl rfl)
  | sending request => exact hidle.sending h hframe hi
  | waiting => exact hidle.waiting h hsent hframe hi
  | returned result => exact .over (by rw [hi]; rfl)
  | cancelled => exact .over (by rw [hi]; rfl)

end

/-- Internal steps are steps of the session. -/
theorem length_ofSession {bs : List (Action ρ β)} (hin : ∀ b ∈ bs, b.isInternal = true) :
    (bs.flatMap Action.ofSession).length = bs.length ∧
      ∀ a ∈ bs.flatMap Action.ofSession, a.isInternal = true := by
  induction bs with
  | nil => exact ⟨rfl, by rintro _ ⟨⟩⟩
  | cons b bs ih =>
    obtain ⟨hlength, hall⟩ := ih fun c hc => hin c (List.mem_cons_of_mem _ hc)
    cases b with
    | session a =>
      refine ⟨by simp [Action.ofSession, hlength], ?_⟩
      intro c hc
      rcases List.mem_cons.mp hc with rfl | hc
      · exact hin (.session c) List.mem_cons_self
      · exact hall c hc
    | full => cases hin .full List.mem_cons_self
    | room => cases hin .room List.mem_cons_self

/-- **Requests settle.** From every reachable state the callers and the loop take no more steps by
themselves than can be read off the state, whatever the order and whatever else has happened. When
they can take none, every call that is not over waits for the server, which has its frame, or for a
loop that is away. -/
theorem requests_settle (max : Option ℕ) (as bs : List (Action ρ β))
    (hv : (system ρ β).Valid (init max) as)
    (hbs : (system ρ β).Valid ((system ρ β).exec (init max) as) bs)
    (hin : ∀ b ∈ bs, b.isInternal = true) :
    bs.length ≤ ((system ρ β).exec (init max) as).session.effort ∧
      (Idle ((system ρ β).exec (init max) (as ++ bs)) →
        ∀ i, Stands ((system ρ β).exec (init max) (as ++ bs)) i) := by
  have hvalid : (system ρ β).Valid (init max) (as ++ bs) :=
    (Transition.System.valid_append _).mpr ⟨hv, hbs⟩
  refine ⟨?_, fun hidle i =>
    hidle.stands (exec_sound hvalid) (exec_sent hvalid) (exec_holdsFrame hvalid) i⟩
  obtain ⟨has, hexec⟩ := session_run hv
  have hsteps := (session_run hbs).1
  rw [hexec] at hsteps ⊢
  obtain ⟨hlength, hall⟩ := length_ofSession hin
  rw [← hlength]
  exact Session.internal_length_le has hsteps hall

/-- While the loop waits for room, no step can be taken if no caller can go on. -/
theorem idle_of_stalled {s : State ρ β} (hstalled : s.stalled = true)
    (hcalls : ∀ i, (s.session.reqs.calls i).caller = .idle ∨
      (s.session.reqs.calls i).caller = .waiting ∧ (s.session.reqs.calls i).answered = [] ∧
        (s.session.reqs.calls i).txDropped = false) : Idle s := by
  intro a hin ha
  cases a with
  | full => cases hin
  | room => cases hin
  | session a =>
    have hothers : ¬isLoops a = true := by
      intro hloops
      cases hstalled.symm.trans (ha.2 hloops)
    have hcaller : ∀ i, (s.session.reqs.calls i).caller = .idle ∨
        (s.session.reqs.calls i).caller = .waiting := fun i => (hcalls i).imp_right And.left
    cases a with
    | conn b => cases b <;> first | exact hothers rfl | cases hin
    | reqs b =>
      have hb := ha.1.2.1
      cases b with
      | call data => cases hin
      | abandon i => cases hin
      | check i data => rcases hcaller i with h | h <;> cases h.symm.trans hb
      | allocate i data => rcases hcaller i with h | h <;> cases h.symm.trans hb
      | enqueue i request => rcases hcaller i with h | h <;> cases h.symm.trans hb.1
      | receive i =>
        rcases hcalls i with h | ⟨-, hanswered, hdropped⟩
        · cases h.symm.trans hb.1
        · rcases hb.2 with hne | htrue
          · exact hne hanswered
          · cases hdropped.symm.trans htrue
      | _ => exact hothers rfl

/-- A call waits for its answer, a second one has taken its id, and the loop comes upon a stream
whose raw channel is full. -/
def heldUp : List (Action ℕ ℕ) := (Session.lostRun.take 13).map .session ++ [.full]

/-- The second call gets into the channel, and no further. -/
theorem requests_settle_heldUp :
    let s := (system ℕ ℕ).exec (init (some 0)) (heldUp ++ [.session (.reqs (.enqueue 1 ⟨2, 6⟩))])
    1 ≤ ((system ℕ ℕ).exec (init (some 0)) heldUp).session.effort ∧ Idle s ∧ ∀ i, Stands s i := by
  have hv : (system ℕ ℕ).Valid (init (some 0))
      (heldUp ++ [.session (.reqs (.enqueue 1 ⟨2, 6⟩))]) := by decide +kernel
  have hparts := (Transition.System.valid_append (system ℕ ℕ)).mp hv
  have hsettle := requests_settle (some 0) heldUp _ hparts.1 hparts.2 (by decide)
  have hidle : Idle ((system ℕ ℕ).exec (init (some 0))
      (heldUp ++ [.session (.reqs (.enqueue 1 ⟨2, 6⟩))])) := by
    refine idle_of_stalled rfl fun i => ?_
    match i with
    | 0 => exact Or.inr ⟨rfl, rfl, rfl⟩
    | 1 => exact Or.inr ⟨rfl, rfl, rfl⟩
    | i + 2 => exact Or.inl rfl
  exact ⟨hsettle.1, hidle, hsettle.2 hidle⟩

end Stalling

end TitanClient
