import TitanClient.SlotRest

/-!
# One-shot quotes

A client that asks for prices with `get_swap_price` only. Each call opens a stream, waits for its
first quote or for the timeout, stops the stream and returns; if the stream ends without a quote the
handle is dropped at the end of the function, and its cleanup task does the rest.

The calls are numbered with the calls of `request_stream` that they make. What `recv` gives is left
open: a quote, the end of the stream, or nothing before the timeout. No future is dropped, and
nobody else uses the manager; the server may end streams whenever it likes.

As in `Slots`, the connection answers every request. That is an assumption: `get_swap_price` takes
no quotes while it waits in `stop`, and a server that goes on sending can fill the channels of the
stream until the loop waits for room in them, which is the deadlock that `Backpressure` is about.

## Main results

* `slots_next` — what the manager sees is a run of its own, without cancellations and limit changes
* `handle_next` — what becomes of a handle while its owner does nothing
* `Linked`, `Linked.next` — where a call stands, its claim and the handle of its stream
-/

namespace TitanClient

namespace OneShots

/-- An error of `get_swap_price`. -/
inductive Error
  | request (e : Slots.Error)
  | unexpected (text : String)
  | timeout (durationMs : ℕ)
  deriving DecidableEq

variable {β : Type*}

/-- Where a call of `get_swap_price` stands. It waits for `request_stream`, in `recv` or in `stop`,
with the claim of its stream. -/
inductive Task (β : Type*)
  | none
  | requesting
  | receiving (claim : ℕ)
  | stopping (claim : ℕ) (result : Except Error β)
  | returned (result : Except Error β)
  deriving DecidableEq

/-- The stream manager, the calls and `one_shot_timeout_ms`. -/
structure State (β : Type*) where
  slots : Slots.State
  tasks : ℕ → Task β := fun _ => .none
  oneShotTimeoutMs : ℕ

def init (max : UInt32) (oneShotTimeoutMs : ℕ) : State β :=
  { slots := Slots.init max, oneShotTimeoutMs := oneShotTimeoutMs }

/-- Move a call to another position. -/
def State.setTask (s : State β) (i : ℕ) (t : Task β) : State β :=
  { s with tasks := Function.update s.tasks i t }

/-- The steps of the manager, and those of call `i`: it begins, gets the result of `request_stream`,
of `recv` (a quote, the end or the timeout) and of `stop`. -/
inductive Action (β : Type*)
  | slots (a : Slots.Action)
  | start
  | obtain (i c : ℕ)
  | fail (i : ℕ) (e : Slots.Error)
  | quote (i c : ℕ) (quotes : β)
  | elapse (i c : ℕ)
  | close (i c : ℕ)
  | stopped (i c : ℕ) (result : Except Error β)

/-- The manager goes on by itself, or the server ends a stream. -/
def isManagers : Slots.Action → Bool
  | .onEnd _ => true
  | a => a.isInternal

/-- When a step can be taken. -/
def Enabled (s : State β) : Action β → Prop
  | .slots a => Slots.Enabled s.slots a ∧ isManagers a = true
  | .start => True
  | .obtain i c => s.tasks i = .requesting ∧ s.slots.calls i = .returned (.ok c)
  | .fail i e => s.tasks i = .requesting ∧ s.slots.calls i = .returned (.error e)
  | .quote i c _ => s.tasks i = .receiving c
  | .elapse i c => s.tasks i = .receiving c
  | .close i c => s.tasks i = .receiving c
  | .stopped i c result => s.tasks i = .stopping c result ∧ (s.slots.claims c).handle = .stopped

instance [DecidableEq β] (s : State β) (a : Action β) : Decidable (Enabled s a) :=
  match a with
  | .slots _ => inferInstanceAs (Decidable (_ ∧ _))
  | .start => inferInstanceAs (Decidable True)
  | .obtain _ _ => inferInstanceAs (Decidable (_ ∧ _))
  | .fail _ _ => inferInstanceAs (Decidable (_ ∧ _))
  | .quote _ _ _ => inferInstanceAs (Decidable (_ = _))
  | .elapse _ _ => inferInstanceAs (Decidable (_ = _))
  | .close _ _ => inferInstanceAs (Decidable (_ = _))
  | .stopped _ _ _ => inferInstanceAs (Decidable (_ ∧ _))

/-- The state after a step. -/
def next (s : State β) : Action β → State β
  | .slots a => { s with slots := Slots.next s.slots a }
  | .start =>
    { s.setTask s.slots.callCount .requesting with slots := Slots.next s.slots .call }
  | .obtain i c => s.setTask i (.receiving c)
  | .fail i e => s.setTask i (.returned (.error (.request e)))
  | .quote i c quotes =>
    { s.setTask i (.stopping c (.ok quotes)) with slots := Slots.next s.slots (.stop c) }
  | .elapse i c =>
    { s.setTask i (.stopping c (.error (.timeout s.oneShotTimeoutMs))) with
      slots := Slots.next s.slots (.stop c) }
  | .close i c =>
    { s.setTask i (.returned (.error (.unexpected "Stream ended without sending quotes"))) with
      slots := Slots.next s.slots (.dropHandle c true) }
  | .stopped i c result =>
    { s.setTask i (.returned result) with slots := Slots.next s.slots (.dropHandle c true) }

/-- One-shot calls and the manager as a system. -/
def system (β : Type*) : Transition.System (State β) (Action β) := ⟨Enabled, next⟩

instance [DecidableEq β] (s : State β) (a : Action β) : Decidable ((system β).Enabled s a) :=
  inferInstanceAs (Decidable (Enabled s a))

/-! ## What the manager sees -/

/-- No future is dropped, and the limit stays as it is. -/
def isOrderly : Slots.Action → Bool
  | .abandonStart _ _ => false
  | .abandonWait _ => false
  | .abandonStop _ => false
  | .setMax _ => false
  | _ => true

/-- The manager with orderly users. -/
def orderly : Transition.System Slots.State Slots.Action :=
  Slots.system.restrict fun a => isOrderly a = true

theorem isOrderly_of_isManagers {a : Slots.Action} (h : isManagers a = true) :
    isOrderly a = true := by
  cases a with
  | abandonStart i c => cases h
  | abandonWait i => cases h
  | abandonStop c => cases h
  | setMax max => cases h
  | _ => rfl

/-- What an orderly run comes to. -/
structure Orderly (u : Slots.State) : Prop where
  listening : ∀ w c i, u.workers w = .starting c i → (u.calls i).listens = true
  going : ∀ i, u.calls i ≠ .cancelled
  own : ∀ c d, (u.claims c).start = .done (.ok d) → d = c

section

variable {u : Slots.State} {a : Slots.Action}

theorem Orderly.next_listening (h : Orderly u) (hk : Slots.Known u)
    (hs : Handoff.Sound (Slots.handoff u)) (ha : Slots.Enabled u a) (ho : isOrderly a = true)
    (w c i : ℕ) (hw : (Slots.next u a).workers w = .starting c i) :
    ((Slots.next u a).calls i).listens = true := by
  have hc := Slots.callChange ha i
  by_cases hold : u.workers w = .starting c i
  · have hlistens := h.listening w c i hold
    have hnot : ∀ {p : Slots.Caller}, u.calls i = p → p.listens = false → False := by
      rintro p rfl hp
      cases hlistens.symm.trans hp
    generalize (Slots.next u a).calls i = p at hc
    cases hc with
    | same => exact hlistens
    | entered hcount => exact (hnot (hk.roster.calls i (le_of_eq hcount.symm)) rfl).elim
    | loadedMax hp => exact (hnot hp rfl).elim
    | below hp => exact (hnot hp rfl).elim
    | full hp => exact (hnot hp rfl).elim
    | claimed hp => exact (hnot hp rfl).elim
    | lost hp => exact (hnot hp rfl).elim
    | finished hp => exact (hnot hp rfl).elim
    | startAbandoned hp => exact (hnot hp rfl).elim
    | received hp hinbox =>
      cases hinbox.symm.trans (hk.traced.worker w c i hold).2.2.2
    | waitAbandoned => cases ho
    | _ => rfl
  · -- The request has been in the queue until now, so its call has no result yet.
    obtain ⟨current, rfl, heq, -, rfl⟩ := Slots.started_by_claim ha hw hold
    obtain ⟨hmem, hnew⟩ := hk.traced.in_hand hs.ordered ha
    have hcalls : (Slots.next u (.workerClaim w i current)).calls i = u.calls i := by
      rw [Slots.next, if_pos heq]
      rfl
    rw [hcalls]
    have hqueued := hk.traced.queued i hmem
    cases hi : u.calls i with
    | flagging => rfl
    | spawning => rfl
    | waiting => rfl
    | returned result =>
      obtain ⟨d, hd, hcall, -⟩ := hk.traced.returned i result hi
      exact absurd (Slots.mem_starts.mpr ⟨d, hd, hcall⟩) hnew
    | cancelled => exact absurd hi (h.going i)
    | _ =>
      rw [hi] at hqueued
      cases hqueued

theorem Orderly.next (h : Orderly u) (hk : Slots.Known u)
    (hs : Handoff.Sound (Slots.handoff u)) (ha : Slots.Enabled u a) (ho : isOrderly a = true) :
    Orderly (Slots.next u a) where
  listening := h.next_listening hk hs ha ho
  going i hi := by
    have hc := Slots.callChange ha i
    generalize (Slots.next u a).calls i = p at hi hc
    cases hc with
    | same => exact h.going i hi
    | startAbandoned => cases ho
    | waitAbandoned => cases ho
    | _ => cases hi
  own c d hd := by
    have hc := Slots.claimChange ha c
    generalize (Slots.next u a).claims c = v at hd hc
    cases hc with
    | made => cases hd
    | madeByWorker => cases hd
    | denied => cases hd
    | answered => cases hd
    | registered =>
      cases hd
      rfl
    | failed => cases hd
    | startAbandoned => cases hd
    | _ => exact h.own c d hd

end

theorem orderly_init (max : UInt32) : Orderly (Slots.init max) where
  listening _ _ _ hw := by cases hw
  going _ hi := by cases hi
  own _ _ hd := by cases hd

/-- All that is known of the manager along an orderly run. -/
theorem exec_orderly {max : UInt32} {bs : List Slots.Action}
    (hv : orderly.Valid (Slots.init max) bs) : Orderly (orderly.exec (Slots.init max) bs) := by
  have hreach : ∀ past, orderly.Valid (Slots.init max) past →
      Slots.Known (orderly.exec (Slots.init max) past) ∧
        Handoff.Sound (Slots.handoff (orderly.exec (Slots.init max) past)) := by
    intro past hpast
    have hvalid := (Transition.System.restrict_valid.mp hpast).1
    exact ⟨Slots.exec_known hvalid, Slots.exec_handoff hvalid⟩
  exact Transition.System.invariant_along (S := orderly)
    (C := fun u _ => Slots.Known u ∧ Handoff.Sound (Slots.handoff u))
    (fun _ _ h hC ha => h.next hC.1 hC.2 ha.1 ha.2) (orderly_init max)
    (Transition.System.along_of_reachable hreach hv) hv

/-- Each step is an orderly step of the manager, or is not seen. -/
theorem slots_next {s : State β} {a : Action β} (ha : Enabled s a)
    (hlive : ∀ i c, s.tasks i = .receiving c → (s.slots.claims c).handle = .live) :
    (next s a).slots = s.slots ∨ ∃ b, orderly.Enabled s.slots b ∧
      (next s a).slots = orderly.next s.slots b := by
  have howned : ∀ {i c}, s.tasks i = .receiving c →
      ((s.slots.claims c).handle).isOwned = true := by
    intro i c hi
    rw [hlive i c hi]
    rfl
  cases a with
  | slots a => exact Or.inr ⟨a, ⟨ha.1, isOrderly_of_isManagers ha.2⟩, rfl⟩
  | start => exact Or.inr ⟨.call, ⟨trivial, rfl⟩, rfl⟩
  | obtain i c => exact Or.inl rfl
  | fail i e => exact Or.inl rfl
  | quote i c quotes => exact Or.inr ⟨.stop c, ⟨howned ha, rfl⟩, rfl⟩
  | elapse i c => exact Or.inr ⟨.stop c, ⟨howned ha, rfl⟩, rfl⟩
  | close i c => exact Or.inr ⟨.dropHandle c true, ⟨howned ha, rfl⟩, rfl⟩
  | stopped i c result =>
    refine Or.inr ⟨.dropHandle c true, ⟨?_, rfl⟩, rfl⟩
    change ((s.slots.claims c).handle).isOwned = true
    rw [ha.2]
    rfl

/-! ## Handles -/

/-- How a handle goes on by itself: a `stop` sends its requests and gives the slot back, and so does
a cleanup task. -/
inductive HandleMove : Slots.Handle → Slots.Handle → Prop
  | same {p : Slots.Handle} : HandleMove p p
  | sent {r : ℕ} : HandleMove .stopping (.stopReleasing r)
  | returned {r : ℕ} : HandleMove (.stopReleasing r) .stopped
  | cleaned : HandleMove .dropping .dropped

section

variable {u : Slots.State} {a : Slots.Action}

theorem handle_setClaim {c d : ℕ} {v : Slots.Claim}
    (hv : c = d → HandleMove (u.claims c).handle v.handle) :
    HandleMove (u.claims c).handle ((u.setClaim d v).claims c).handle := by
  by_cases hd : c = d
  · have hself : (u.setClaim d v).claims c = v := by
      rw [hd]
      exact Function.update_self ..
    rw [hself]
    exact hv hd
  · have hother : (u.setClaim d v).claims c = u.claims c := Function.update_of_ne hd ..
    rw [hother]
    exact .same

/-- Left to the manager, a handle goes on with what its owner has begun. -/
theorem handle_next (h : Orderly u) (hk : Slots.Known u) (hs : Slots.Settled u)
    (ha : Slots.Enabled u a) (hm : isManagers a = true) {c : ℕ}
    (hc : (u.claims c).handle ≠ .none) :
    HandleMove (u.claims c).handle ((Slots.next u a).claims c).handle := by
  have hborn : c < u.claimCount := hk.positions.born c (Or.inr hc)
  have hdone := hs.handle c hc
  have hnew : ∀ i current, ((u.newClaim i current).claims c) = u.claims c :=
    fun i current => Function.update_of_ne (Nat.ne_of_lt hborn) ..
  cases a with
  | claim i current =>
    rw [Slots.next]
    split
    · change HandleMove _ ((u.newClaim i current).claims c).handle
      rw [hnew]
      exact .same
    · exact .same
  | flagWorker i =>
    rw [Slots.next]
    split <;> exact .same
  | receive i =>
    rw [Slots.next]
    split <;> exact .same
  | park w =>
    rw [Slots.next]
    split <;> exact .same
  | pop w current =>
    rw [Slots.next]
    split <;> exact .same
  | reflag w =>
    rw [Slots.next]
    split <;> exact .same
  | workerClaim w i current =>
    rw [Slots.next]
    split
    · change HandleMove _ ((u.newClaim i current).claims c).handle
      rw [hnew]
      exact .same
    · exact .same
  | deliver w d i result =>
    -- The call listens, so the result is not dropped.
    have hclaims : (Slots.next u (.deliver w d i result)).claims = u.claims := by
      change (Slots.deliverNext u i result).claims = u.claims
      rw [Slots.deliverNext, if_pos (h.listening w d i ha.1)]
    rw [hclaims]
    exact .same
  | respond d reply =>
    cases reply with
    | failed text => exact handle_setClaim fun hd => by rw [hd]; exact .same
    | noStream => exact handle_setClaim fun hd => by rw [hd]; exact .same
    | stream id => exact handle_setClaim fun hd => by rw [hd]; exact .same
  | register d id =>
    refine handle_setClaim fun hd => ?_
    rw [hd] at hdone
    cases hdone.symm.trans ha
  | failStart d e r => exact handle_setClaim fun hd => by rw [hd]; exact .same
  | swap r =>
    rw [Slots.next, Slots.swapNext]
    split
    · exact .same
    · exact handle_setClaim fun hd => by rw [hd]; exact .same
  | subtract r => exact handle_setClaim fun hd => by rw [hd]; exact .same
  | notify r woken => cases woken <;> exact .same
  | stopSent d =>
    refine handle_setClaim fun hd => ?_
    rw [hd, show (u.claims d).handle = .stopping from ha]
    exact .sent
  | stopReturn d r =>
    refine handle_setClaim fun hd => ?_
    rw [hd, ha.1]
    exact .returned
  | dropSent d =>
    refine handle_setClaim fun hd => ?_
    rw [hd, show (u.claims d).handle = .dropping from ha]
    exact .cleaned
  | onEnd d => exact handle_setClaim fun hd => by rw [hd]; exact .same
  | call => cases hm
  | abandonStart i d => cases hm
  | abandonWait i => cases hm
  | stop d => cases hm
  | abandonStop d => cases hm
  | dropHandle d runtime => cases hm
  | setMax max => cases hm
  | _ => exact .same

end

/-! ## Calls and their handles -/

/-- `stop` is in progress, or has returned. -/
def isStopping : Slots.Handle → Bool
  | .stopping => true
  | .stopReleasing _ => true
  | .stopped => true
  | _ => false

/-- The handle was dropped without having been stopped, or afterwards. -/
def isGone : Slots.Handle → Bool
  | .dropping => true
  | .dropped => true
  | _ => false

/-- What is true of call `i` where it stands. -/
def Task.Fits (u : Slots.State) (i : ℕ) : Task β → Prop
  | .none => u.calls i = .idle
  | .requesting => u.calls i ≠ .idle ∧
    ∀ c, u.calls i = .returned (.ok c) → (u.claims c).handle = .live
  | .receiving c => u.calls i = .returned (.ok c) ∧ (u.claims c).handle = .live
  | .stopping c _ => u.calls i = .returned (.ok c) ∧ isStopping (u.claims c).handle = true
  | .returned _ => (∃ e, u.calls i = .returned (.error e)) ∨
    ∃ c, u.calls i = .returned (.ok c) ∧ isGone (u.claims c).handle = true

/-- Calls stand where they may, and a handle that nobody has got yet is live. -/
structure Linked (s : State β) : Prop where
  tasks : ∀ i, (s.tasks i).Fits s.slots i
  fresh : ∀ c, (s.slots.claims c).start = .done (.ok c) →
    (∀ i, s.slots.calls i ≠ .returned (.ok c)) → (s.slots.claims c).handle = .live

theorem HandleMove.live {p q : Slots.Handle} (h : HandleMove p q) (hp : p = .live) : q = .live := by
  cases h with
  | same => exact hp
  | _ => cases hp

theorem HandleMove.isStopping {p q : Slots.Handle} (h : HandleMove p q)
    (hp : isStopping p = true) : isStopping q = true := by
  cases h with
  | same => exact hp
  | cleaned => cases hp
  | _ => rfl

theorem HandleMove.isGone {p q : Slots.Handle} (h : HandleMove p q) (hp : isGone p = true) :
    isGone q = true := by
  cases h with
  | same => exact hp
  | cleaned => rfl
  | _ => cases hp

section

variable {u u' : Slots.State} {a : Slots.Action} {i c : ℕ}

/-- A stream that a call has got is the stream of its own claim. -/
theorem own_ok (h : Orderly u) (hown : u.Own i (.ok c)) :
    c < u.claimCount ∧ (u.claims c).call = i ∧ (u.claims c).start = .done (.ok c) := by
  obtain ⟨d, hd, hcall, hstart⟩ := hown
  obtain rfl := h.own d c hstart
  exact ⟨hd, hcall, hstart⟩

/-- What has been returned stays so. -/
theorem returned_next (hk : Slots.Known u) (ha : Slots.Enabled u a) {result : Slots.Result}
    (hi : u.calls i = .returned result) : (Slots.next u a).calls i = .returned result :=
  ((Slots.callChange ha i).isOver hk.roster (by rw [hi]; rfl)).trans hi

/-- A handle that is just being returned is live. -/
theorem live_of_returned (h : Orderly u) (hk : Slots.Known u)
    (hfresh : (u.claims c).start = .done (.ok c) → (∀ j, u.calls j ≠ .returned (.ok c)) →
      (u.claims c).handle = .live)
    (ha : Slots.Enabled u a) (hnot : u.calls i ≠ .returned (.ok c))
    (hi : (Slots.next u a).calls i = .returned (.ok c)) : (u.claims c).handle = .live := by
  have hown : u.Own i (.ok c) := by
    have hc := Slots.callChange ha i
    generalize (Slots.next u a).calls i = p at hi hc
    cases hc with
    | same => exact absurd hi hnot
    | @finished d result hstarting hstart =>
      cases hi
      obtain ⟨hd, hcall⟩ := hk.traced.caller i d hstarting
      exact ⟨d, hd, hcall, hstart⟩
    | received hwaiting hinbox =>
      cases hi
      rcases hk.traced.inbox i with hnil | ⟨result, hone, hown, -⟩
      · cases hinbox.symm.trans hnil
      · cases hinbox.symm.trans hone
        exact hown
    | _ => cases hi
  obtain ⟨-, hcall, hstart⟩ := own_ok h hown
  refine hfresh hstart fun j hj => hnot ?_
  -- Whoever had got it would be the same call.
  obtain ⟨-, hcall', -⟩ := own_ok h (hk.traced.returned j _ hj)
  rwa [← hcall, hcall']

theorem Task.Fits.manager {t : Task β} (ht : t.Fits u i) (h : Orderly u) (hk : Slots.Known u)
    (hs : Slots.Settled u) (hfresh : ∀ c, (u.claims c).start = .done (.ok c) →
      (∀ j, u.calls j ≠ .returned (.ok c)) → (u.claims c).handle = .live)
    (ha : Slots.Enabled u a) (hm : isManagers a = true) : t.Fits (Slots.next u a) i := by
  have hmove : ∀ c, (u.claims c).handle ≠ .none →
      HandleMove (u.claims c).handle ((Slots.next u a).claims c).handle :=
    fun c => handle_next h hk hs ha hm
  cases t with
  | none =>
    have hidle : u.calls i = .idle := ht
    have hc := Slots.callChange ha i
    change (Slots.next u a).calls i = .idle
    generalize (Slots.next u a).calls i = p at hc
    cases hc with
    | same => exact hidle
    | entered => cases hm
    | loadedMax hi => cases hidle.symm.trans hi
    | below hi => cases hidle.symm.trans hi
    | full hi => cases hidle.symm.trans hi
    | claimed hi => cases hidle.symm.trans hi
    | lost hi => cases hidle.symm.trans hi
    | pushed hi => cases hidle.symm.trans hi
    | flagged hi => cases hidle.symm.trans hi
    | spawning hi => cases hidle.symm.trans hi
    | spawned hi => cases hidle.symm.trans hi
    | finished hi => cases hidle.symm.trans hi
    | received hi => cases hidle.symm.trans hi
    | startAbandoned hi => cases hidle.symm.trans hi
    | waitAbandoned hi => rcases hi with hi | hi <;> cases hidle.symm.trans hi
  | requesting =>
    refine ⟨fun hidle => ?_, fun c hret => ?_⟩
    · have hc := Slots.callChange ha i
      generalize (Slots.next u a).calls i = p at hidle hc
      cases hc with
      | same => exact ht.1 hidle
      | _ => cases hidle
    · have hlive : (u.claims c).handle = .live := by
        by_cases hbefore : u.calls i = .returned (.ok c)
        · exact ht.2 c hbefore
        · exact live_of_returned h hk (hfresh c) ha hbefore hret
      exact (hmove c (by rw [hlive]; simp)).live hlive
  | receiving c =>
    exact ⟨returned_next hk ha ht.1, (hmove c (by rw [ht.2]; simp)).live ht.2⟩
  | stopping c result =>
    refine ⟨returned_next hk ha ht.1, (hmove c fun hnone => ?_).isStopping ht.2⟩
    have hstopping := ht.2
    rw [hnone] at hstopping
    cases hstopping
  | returned result =>
    rcases ht with ⟨e, hi⟩ | ⟨c, hi, hgone⟩
    · exact Or.inl ⟨e, returned_next hk ha hi⟩
    · refine Or.inr ⟨c, returned_next hk ha hi, (hmove c fun hnone => ?_).isGone hgone⟩
      rw [hnone] at hgone
      cases hgone

theorem fresh_manager (h : Orderly u) (hk : Slots.Known u) (hs : Slots.Settled u)
    (hfresh : ∀ c, (u.claims c).start = .done (.ok c) →
      (∀ j, u.calls j ≠ .returned (.ok c)) → (u.claims c).handle = .live)
    (ha : Slots.Enabled u a) (hm : isManagers a = true) (c : ℕ)
    (hstart : ((Slots.next u a).claims c).start = .done (.ok c))
    (hnobody : ∀ j, (Slots.next u a).calls j ≠ .returned (.ok c)) :
    ((Slots.next u a).claims c).handle = .live := by
  by_cases hdone : (u.claims c).start = .done (.ok c)
  · have hlive := hfresh c hdone fun j hj => hnobody j (returned_next hk ha hj)
    exact (handle_next h hk hs ha hm (by rw [hlive]; simp)).live hlive
  · have hc := Slots.claimChange ha c
    generalize (Slots.next u a).claims c = v at hstart hc
    cases hc with
    | made => cases hstart
    | madeByWorker => cases hstart
    | denied => cases hstart
    | answered => cases hstart
    | registered => rfl
    | failed => cases hstart
    | startAbandoned => cases hstart
    | _ => exact absurd hstart hdone

/-- The owner of the handle of claim `c` has done something with it; nothing else has changed. -/
structure Touched (c : ℕ) (u u' : Slots.State) : Prop where
  calls : u'.calls = u.calls
  starts : ∀ d, (u'.claims d).start = (u.claims d).start
  handles : ∀ d, d ≠ c → (u'.claims d).handle = (u.claims d).handle

theorem touched_setClaim {v : Slots.Claim} (hv : v.start = (u.claims c).start) :
    Touched c u (u.setClaim c v) := by
  refine ⟨rfl, fun d => ?_, fun d hd => ?_⟩
  · by_cases hd : d = c
    · have hself : (u.setClaim c v).claims d = v := by
        rw [hd]
        exact Function.update_self ..
      rw [hself, hv, hd]
    · have hother : (u.setClaim c v).claims d = u.claims d := Function.update_of_ne hd ..
      rw [hother]
  · have hother : (u.setClaim c v).claims d = u.claims d := Function.update_of_ne hd ..
    rw [hother]

theorem stop_eq (hlive : (u.claims c).handle = .live) : Slots.next u (.stop c) =
    u.setClaim c { u.claims c with stopped := true, handle := .stopping } := by
  rw [Slots.next, Slots.stopNext, hlive]

theorem stop_spec (hlive : (u.claims c).handle = .live) :
    Touched c u (Slots.next u (.stop c)) ∧
      ((Slots.next u (.stop c)).claims c).handle = .stopping := by
  have hself : (u.setClaim c { u.claims c with stopped := true, handle := .stopping }).claims c =
      { u.claims c with stopped := true, handle := .stopping } := Function.update_self ..
  rw [stop_eq hlive, hself]
  exact ⟨touched_setClaim rfl, rfl⟩

/-- Dropping a handle that is live leaves it to a cleanup task. -/
theorem dropHandle_spec
    (hhandle : (u.claims c).handle = .live ∨ (u.claims c).handle = .stopped) :
    Touched c u (Slots.next u (.dropHandle c true)) ∧
      isGone ((Slots.next u (.dropHandle c true)).claims c).handle = true := by
  rcases hhandle with hlive | hstopped
  · have hnext : Slots.next u (.dropHandle c true) =
        u.setClaim c { u.claims c with stopped := true, handle := .dropping } := by
      rw [Slots.next, Slots.State.dropHandle, hlive]
      rfl
    have hself : (u.setClaim c { u.claims c with stopped := true, handle := .dropping }).claims c =
        { u.claims c with stopped := true, handle := .dropping } := Function.update_self ..
    rw [hnext, hself]
    exact ⟨touched_setClaim rfl, rfl⟩
  · have hnext : Slots.next u (.dropHandle c true) =
        u.setClaim c { u.claims c with handle := .dropped } := by
      rw [Slots.next, Slots.State.dropHandle, hstopped]
    have hself : (u.setClaim c { u.claims c with handle := .dropped }).claims c =
        { u.claims c with handle := .dropped } := Function.update_self ..
    rw [hnext, hself]
    exact ⟨touched_setClaim rfl, rfl⟩

/-- A call is where it was if nothing has changed for it. -/
theorem Task.Fits.congr {t : Task β} (ht : t.Fits u i) (hcalls : u'.calls i = u.calls i)
    (hhandle : ∀ d, u.calls i = .returned (.ok d) →
      (u'.claims d).handle = (u.claims d).handle) : t.Fits u' i := by
  cases t with
  | none => exact hcalls.trans ht
  | requesting =>
    refine ⟨fun hidle => ht.1 (hcalls.symm.trans hidle), fun d hd => ?_⟩
    rw [hcalls] at hd
    exact (hhandle d hd).trans (ht.2 d hd)
  | receiving d => exact ⟨hcalls.trans ht.1, (hhandle d ht.1).trans ht.2⟩
  | stopping d result => exact ⟨hcalls.trans ht.1, (hhandle d ht.1).symm ▸ ht.2⟩
  | returned result =>
    rcases ht with ⟨e, hi⟩ | ⟨d, hi, hgone⟩
    · exact Or.inl ⟨e, hcalls.trans hi⟩
    · exact Or.inr ⟨d, hcalls.trans hi, (hhandle d hi).symm ▸ hgone⟩

theorem Task.Fits.touched {t : Task β} (ht : t.Fits u i) (h : Touched c u u')
    (hnot : u.calls i ≠ .returned (.ok c)) : t.Fits u' i := by
  refine ht.congr (congrFun h.calls i) fun d hd => h.handles d fun hdc => hnot ?_
  rwa [hdc] at hd

end

section

variable {s : State β} {i c : ℕ}

/-- A call does something with the handle it has. -/
theorem Linked.touch (h : Linked s) (ho : Orderly s.slots) (hk : Slots.Known s.slots)
    (hi : s.slots.calls i = .returned (.ok c)) {u' : Slots.State} (hu : Touched c s.slots u')
    {t : Task β} (ht : t.Fits u' i) : Linked { s.setTask i t with slots := u' } where
  tasks j := by
    change Task.Fits u' j (Function.update s.tasks i t j)
    by_cases hj : j = i
    · subst hj
      rw [Function.update_self]
      exact ht
    · rw [Function.update_of_ne hj]
      refine (h.tasks j).touched hu fun hj' => hj ?_
      obtain ⟨-, hcall, -⟩ := own_ok ho (hk.traced.returned i _ hi)
      obtain ⟨-, hcall', -⟩ := own_ok ho (hk.traced.returned j _ hj')
      exact hcall'.symm.trans hcall
  fresh d hd hnobody := by
    have hnobody : ∀ j, s.slots.calls j ≠ .returned (.ok d) := by
      intro j hj
      refine hnobody j ?_
      change u'.calls j = _
      rw [hu.calls]
      exact hj
    refine (hu.handles d fun hdc => hnobody i ?_).trans (h.fresh d ?_ hnobody)
    · rw [hdc]
      exact hi
    · exact (hu.starts d).symm.trans hd

/-- A call goes on without touching the manager. -/
theorem Linked.setTask (h : Linked s) {t : Task β} (ht : t.Fits s.slots i) :
    Linked (s.setTask i t) where
  tasks j := by
    change Task.Fits s.slots j (Function.update s.tasks i t j)
    by_cases hj : j = i
    · subst hj
      rw [Function.update_self]
      exact ht
    · rw [Function.update_of_ne hj]
      exact h.tasks j
  fresh := h.fresh

theorem Linked.next (h : Linked s) (ho : Orderly s.slots) (hk : Slots.Known s.slots)
    (hs : Slots.Settled s.slots) {a : Action β} (ha : Enabled s a) :
    Linked (OneShots.next s a) := by
  cases a with
  | slots a =>
    exact ⟨fun i => (h.tasks i).manager ho hk hs h.fresh ha.1 ha.2,
      fresh_manager ho hk hs h.fresh ha.1 ha.2⟩
  | start =>
    have hidle : s.slots.calls s.slots.callCount = .idle := hk.roster.calls _ (le_refl _)
    have hself : (Slots.next s.slots .call).calls s.slots.callCount = .entered :=
      Function.update_self ..
    refine ⟨fun j => ?_, fun c hc hnobody => h.fresh c hc fun j hj => hnobody j ?_⟩
    · change Task.Fits (Slots.next s.slots .call) j
        (Function.update s.tasks s.slots.callCount .requesting j)
      by_cases hj : j = s.slots.callCount
      · subst hj
        rw [Function.update_self]
        refine ⟨?_, fun c hret => ?_⟩
        · rw [hself]
          simp
        · cases hself.symm.trans hret
      · rw [Function.update_of_ne hj]
        exact (h.tasks j).congr (Function.update_of_ne hj ..) fun d _ => rfl
    · have hne : j ≠ s.slots.callCount := by
        rintro rfl
        cases hidle.symm.trans hj
      exact (Function.update_of_ne hne ..).trans hj
  | obtain i c =>
    have hi := h.tasks i
    rw [ha.1] at hi
    exact h.setTask ⟨ha.2, hi.2 c ha.2⟩
  | fail i e => exact h.setTask (Or.inl ⟨e, ha.2⟩)
  | quote i c quotes =>
    have hi := h.tasks i
    rw [show s.tasks i = .receiving c from ha] at hi
    obtain ⟨htouched, hstopping⟩ := stop_spec hi.2
    refine h.touch ho hk hi.1 htouched ⟨?_, by rw [hstopping]; rfl⟩
    rw [htouched.calls]
    exact hi.1
  | elapse i c =>
    have hi := h.tasks i
    rw [show s.tasks i = .receiving c from ha] at hi
    obtain ⟨htouched, hstopping⟩ := stop_spec hi.2
    refine h.touch ho hk hi.1 htouched ⟨?_, by rw [hstopping]; rfl⟩
    rw [htouched.calls]
    exact hi.1
  | close i c =>
    have hi := h.tasks i
    rw [show s.tasks i = .receiving c from ha] at hi
    obtain ⟨htouched, hgone⟩ := dropHandle_spec (Or.inl hi.2)
    refine h.touch ho hk hi.1 htouched (Or.inr ⟨c, ?_, hgone⟩)
    rw [htouched.calls]
    exact hi.1
  | stopped i c result =>
    have hi := h.tasks i
    rw [ha.1] at hi
    obtain ⟨htouched, hgone⟩ := dropHandle_spec (Or.inr ha.2)
    refine h.touch ho hk hi.1 htouched (Or.inr ⟨c, ?_, hgone⟩)
    rw [htouched.calls]
    exact hi.1

end

end OneShots

end TitanClient
