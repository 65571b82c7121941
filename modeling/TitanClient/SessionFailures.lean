import TitanClient.SessionSenders
import TitanClient.WaitConnected

/-!
# Why a request fails

A call of `send_request` that fails tells its caller a reason. Three of the texts are fixed, one is
a prefix with the error of a write; every other reason is the one with which the connection was
lost, and that one has been published as the state `Disconnected`, before the call could return.

## Main results

* `Explained` — what the reason of a failed call says about the connection
* `failures_explained` — every call that has returned is explained
-/

namespace TitanClient

namespace Session

open Requests (PendingRequest Caller ResponseResult)

variable {ρ β : Type}

/-! ## Reasons -/

/-- A connection was given up with this reason: it was lost and the reason published, or the loop
was told to end. -/
def Lost (u : Publishing.State) (reason : String) : Prop :=
  (.loop, .disconnected reason) ∈ u.log ∨ reason = "Client shutdown" ∧ u.cancelled = true ∨
    reason = "Request channel closed" ∧ u.dropped = true

/-- What a value on a oneshot channel says about the connection. -/
def Told (u : Publishing.State) : ResponseResult β → Prop
  | .ok _ _ => True
  | .serverError _ _ => True
  | .unexpected text => ∃ error, text = "Encode failed: " ++ error
  | .connectionClosed reason => Lost u reason ∨ (∃ error, reason = "Send failed: " ++ error) ∨
    reason = "Connection closed" ∧ u.loop.isOver = true

/-- What the result of a call says about the connection and the requests. -/
def Explained (s : State ρ β) : ResponseResult β → Prop
  | .ok _ _ => True
  | .serverError _ _ => True
  | .unexpected text => ∃ error, text = "Encode failed: " ++ error
  | .connectionClosed reason => (.loop, .disconnected reason) ∈ s.conn.log ∨
    reason = "Client shutdown" ∧ s.conn.cancelled = true ∨
    (∃ error, reason = "Send failed: " ++ error) ∨
    reason = "Connection closed" ∧ s.conn.loop.isOver = true ∨
    reason = "Response channel closed" ∧
      (s.conn.loop = .exited ∨ 2 ^ 32 ≤ s.reqs.issued.length)

theorem Lost.next {u : Publishing.State} {reason : String} (h : Lost u reason)
    (a : Publishing.Action) : Lost (Publishing.next u a) reason :=
  h.imp (fun hlog => Publishing.mem_log_next hlog a)
    (Or.imp (And.imp_right fun hc => Publishing.cancelled_next hc a)
      (And.imp_right fun hd => Publishing.dropped_next hd a))

theorem Told.next {u : Publishing.State} {a : Publishing.Action} {result : ResponseResult β}
    (ha : Publishing.Enabled u a) (h : Told u result) : Told (Publishing.next u a) result := by
  cases result with
  | connectionClosed reason =>
    exact Or.imp (fun hl => hl.next a)
      (Or.imp_right (And.imp_right (Waiting.isOver_next ha))) h
  | _ => exact h

/-- The loop does not leave its end. -/
theorem exited_next {u : Publishing.State} {a : Publishing.Action} (ha : Publishing.Enabled u a)
    (h : u.loop = .exited) : (Publishing.next u a).loop = .exited := by
  have hno : ∀ {l : Publishing.Loop}, u.loop = l → l ≠ .exited → False :=
    fun hl hne => hne (hl.symm.trans h)
  cases a with
  | lose loss => exact (hno ha (by rintro ⟨⟩)).elim
  | leaveShutdown => exact (hno ha.1 (by rintro ⟨⟩)).elim
  | leaveChannelClosed => exact (hno ha.1 (by rintro ⟨⟩)).elim
  | checkShutdown reason => exact (hno ha (by rintro ⟨⟩)).elim
  | checkClosed reason => exact (hno ha (by rintro ⟨⟩)).elim
  | announce reason => exact (hno ha (by rintro ⟨⟩)).elim
  | wake => exact (hno ha (by rintro ⟨⟩)).elim
  | dial connected => exact (hno ha (by rintro ⟨⟩)).elim
  | publishConnected => exact (hno ha (by rintro ⟨⟩)).elim
  | resumed => exact (hno ha (by rintro ⟨⟩)).elim
  | exit => rfl
  | _ => exact h

/-! ## What is said on the oneshot channels -/

/-- A step that puts a value on a oneshot channel. -/
inductive Puts : Requests.Action ρ β → ResponseResult β → Prop
  | encode (p : PendingRequest ρ) (error : String) :
      Puts (.encode p (some error)) (.unexpected ("Encode failed: " ++ error))
  | write (p : PendingRequest ρ) (error : String) :
      Puts (.write p (some error)) (.connectionClosed ("Send failed: " ++ error))
  | read {msg : Requests.ServerMessage β} {result : ResponseResult β}
      (h : msg.result = some result) : Puts (.read msg) result
  | resumeRead {msg : Requests.ServerMessage β} {result : ResponseResult β}
      (h : msg.result = some result) : Puts (.resumeRead msg) result
  | failPending (reason : String) : Puts (.failPending reason) (.connectionClosed reason)
  | cleanup : Puts .cleanup (.connectionClosed "Connection closed")

section

variable {r : Requests.State ρ β} {b : Requests.Action ρ β} {i : ℕ}

theorem answered_completePending {id : ℕ} {x y : Requests.Answer β}
    (hy : y ∈ ((r.completePending id x).calls i).answered) :
    y ∈ (r.calls i).answered ∨ y = x := by
  rw [Requests.State.completePending_eq] at hy
  dsimp only at hy
  split at hy
  · rcases List.mem_append.mp hy with hold | hnew
    · exact Or.inl hold
    · exact Or.inr (List.mem_singleton.mp hnew)
  · exact Or.inl hy

theorem answered_handleServerMessage {msg : Requests.ServerMessage β} {y : Requests.Answer β}
    (hy : y ∈ ((r.handleServerMessage msg).calls i).answered) :
    y ∈ (r.calls i).answered ∨ msg.result = some y.result := by
  rcases r.handleServerMessage_eq msg with heq | ⟨id, result, -, hresult, heq⟩
  · rw [heq] at hy
    exact Or.inl hy
  · rw [heq] at hy
    rcases answered_completePending hy with hold | rfl
    · exact Or.inl hold
    · exact Or.inr hresult

theorem answered_failPendingRequests {reason : String} {y : Requests.Answer β}
    (hy : y ∈ ((r.failPendingRequests reason).calls i).answered) :
    y ∈ (r.calls i).answered ∨ y.result = .connectionClosed reason := by
  rw [Requests.State.failPendingRequests_eq] at hy
  rcases List.mem_append.mp hy with hold | hnew
  · exact Or.inl hold
  · rw [List.eq_of_mem_replicate hnew]
    exact Or.inr rfl

/-- **Answers.** A value on a oneshot channel was there before, or the step puts it there. -/
theorem answered_next {y : Requests.Answer β} (hb : Requests.Enabled r b)
    (hy : y ∈ ((Requests.next r b).calls i).answered) :
    y ∈ (r.calls i).answered ∨ Puts b y.result := by
  have hset : ∀ {j : ℕ} {c : Caller ρ β}, y ∈ ((r.setCaller j c).calls i).answered →
      y ∈ (r.calls i).answered := by
    intro j c hmem
    by_cases hij : i = j
    · subst hij
      simpa only [Requests.State.setCaller, Function.update_self] using hmem
    · simpa only [Requests.State.setCaller, Function.update_of_ne hij] using hmem
  cases b with
  | call data => exact Or.inl (hset hy)
  | check j data =>
    rw [Requests.next] at hy
    split at hy <;> exact Or.inl (hset hy)
  | allocate j data => exact Or.inl (hset hy)
  | enqueue j request =>
    rw [Requests.next] at hy
    split at hy <;> exact Or.inl (hset hy)
  | receive j => exact Or.inl (hset hy)
  | abandon j => exact Or.inl (hset hy)
  | dequeue =>
    change y ∈ ((Requests.dequeueNext r).calls i).answered at hy
    rw [Requests.dequeueNext] at hy
    split at hy <;> exact Or.inl hy
  | encode p error =>
    cases error with
    | none => exact Or.inl hy
    | some error =>
      rcases answered_completePending hy with hold | rfl
      · exact Or.inl hold
      · exact Or.inr (.encode p error)
  | write p error =>
    cases error with
    | none => exact Or.inl hy
    | some error =>
      rcases answered_completePending hy with hold | rfl
      · exact Or.inl hold
      · exact Or.inr (.write p error)
  | read msg => exact (answered_handleServerMessage hy).imp_right .read
  | resumeRead msg => exact (answered_handleServerMessage hy).imp_right .resumeRead
  | failPending reason =>
    refine (answered_failPendingRequests hy).imp_right fun hresult => ?_
    rw [hresult]
    exact .failPending reason
  | cleanup =>
    refine (answered_failPendingRequests hy).imp_right fun hresult => ?_
    rw [hresult]
    exact .cleanup
  | decide =>
    change y ∈ ((Requests.decideNext r).calls i).answered at hy
    rw [Requests.decideNext] at hy
    dsimp only at hy
    split_ifs at hy <;> exact Or.inl hy
  | dial connected => cases connected <;> exact Or.inl hy
  | exit =>
    have hcalls : (Requests.next r .exit).calls i = if i ∈ r.channel.map (·.responseTx) then
        { r.calls i with txDropped := true } else r.calls i := rfl
    rw [hcalls] at hy
    split at hy <;> exact Or.inl hy
  | _ => exact Or.inl hy

/-- A step in which a call returns. -/
inductive Returns (r : Requests.State ρ β) : Requests.Action ρ β → ℕ → ResponseResult β → Prop
  | check (i : ℕ) (data : ρ) (h : r.shutdown = true) :
      Returns r (.check i data) i (.connectionClosed "Client shutdown")
  | enqueue (i : ℕ) (q : Requests.ClientRequest ρ) (h : r.receiverDropped = true) :
      Returns r (.enqueue i q) i (.connectionClosed "Connection closed")
  | receive (i : ℕ) : Returns r (.receive i) i (r.calls i).received

/-- **Returns.** A call has returned before, or returns in the step. -/
theorem returned_next {result : ResponseResult β} (hb : Requests.Enabled r b)
    (hi : ((Requests.next r b).calls i).caller = .returned result) :
    (r.calls i).caller = .returned result ∨ Returns r b i result := by
  have hset : ∀ {j : ℕ} {c : Caller ρ β}, ((r.setCaller j c).calls i).caller = .returned result →
      (r.calls i).caller = .returned result ∨ i = j ∧ c = .returned result := by
    intro j c hc
    rw [Requests.caller_setCaller] at hc
    split at hc
    · next heq => exact Or.inr ⟨heq, hc⟩
    · exact Or.inl hc
  have hquiet : ∀ {j : ℕ} {c : Caller ρ β}, ((r.setCaller j c).calls i).caller = .returned result →
      c ≠ .returned result → (r.calls i).caller = .returned result :=
    fun hc hne => (hset hc).resolve_right fun h => hne h.2
  have hcomplete : ∀ {id : ℕ} {x : Requests.Answer β},
      ((r.completePending id x).calls i).caller = (r.calls i).caller := by
    intro id x
    rw [Requests.State.completePending_eq]
    dsimp only
    split <;> rfl
  have hserver : ∀ {msg : Requests.ServerMessage β},
      ((r.handleServerMessage msg).calls i).caller = (r.calls i).caller := by
    intro msg
    rcases r.handleServerMessage_eq msg with heq | ⟨id, x, -, -, heq⟩
    · rw [heq]
    · rw [heq]
      exact hcomplete
  cases b with
  | call data => exact Or.inl (hquiet hi (by rintro ⟨⟩))
  | check j data =>
    rw [Requests.next] at hi
    split at hi
    · next hshutdown =>
      refine (hset hi).imp_right fun h => ?_
      obtain ⟨rfl, hresult⟩ := h
      rw [← Caller.returned.inj hresult]
      exact .check i data hshutdown
    · exact Or.inl (hquiet hi (by rintro ⟨⟩))
  | allocate j data => exact Or.inl (hquiet hi (by rintro ⟨⟩))
  | enqueue j request =>
    rw [Requests.next] at hi
    split at hi
    · next hdropped =>
      refine (hset hi).imp_right fun h => ?_
      obtain ⟨rfl, hresult⟩ := h
      rw [← Caller.returned.inj hresult]
      exact .enqueue i request hdropped
    · exact Or.inl (hquiet hi (by rintro ⟨⟩))
  | receive j =>
    refine (hset hi).imp_right fun h => ?_
    obtain ⟨rfl, hresult⟩ := h
    rw [← Caller.returned.inj hresult]
    exact .receive i
  | abandon j => exact Or.inl (hquiet hi (by rintro ⟨⟩))
  | dequeue =>
    change ((Requests.dequeueNext r).calls i).caller = _ at hi
    rw [Requests.dequeueNext] at hi
    split at hi <;> exact Or.inl hi
  | encode p error =>
    cases error with
    | none => exact Or.inl hi
    | some error => exact Or.inl (hcomplete.symm.trans hi)
  | write p error =>
    cases error with
    | none => exact Or.inl hi
    | some error => exact Or.inl (hcomplete.symm.trans hi)
  | read msg => exact Or.inl (hserver.symm.trans hi)
  | resumeRead msg => exact Or.inl (hserver.symm.trans hi)
  | failPending reason =>
    rw [Requests.next, Requests.State.failPendingRequests_eq] at hi
    exact Or.inl hi
  | cleanup =>
    rw [Requests.next, Requests.State.failPendingRequests_eq] at hi
    exact Or.inl hi
  | decide =>
    change ((Requests.decideNext r).calls i).caller = _ at hi
    rw [Requests.decideNext] at hi
    dsimp only at hi
    split_ifs at hi <;> exact Or.inl hi
  | dial connected => cases connected <;> exact Or.inl hi
  | exit =>
    have hcalls : (Requests.next r .exit).calls i = if i ∈ r.channel.map (·.responseTx) then
        { r.calls i with txDropped := true } else r.calls i := rfl
    rw [hcalls] at hi
    split at hi <;> exact Or.inl hi
  | _ => exact Or.inl hi

/-- **Callers.** A caller stays where it is, or its call is in progress, or a call begins. -/
theorem caller_next (hb : Requests.Enabled r b) (i : ℕ) :
    ((Requests.next r b).calls i).caller = (r.calls i).caller ∨
      (r.calls i).caller ≠ .idle ∧ (r.calls i).caller.isDone = false ∨ r.dropped = false := by
  have hset : ∀ {j : ℕ} {c : Caller ρ β}, (r.calls j).caller ≠ .idle →
      (r.calls j).caller.isDone = false →
      ((r.setCaller j c).calls i).caller = (r.calls i).caller ∨
        (r.calls i).caller ≠ .idle ∧ (r.calls i).caller.isDone = false ∨ r.dropped = false := by
    intro j c hidle hdone
    rw [Requests.caller_setCaller]
    split
    · next heq =>
      rw [heq]
      exact Or.inr (Or.inl ⟨hidle, hdone⟩)
    · exact Or.inl rfl
  have hcomplete : ∀ {id : ℕ} {x : Requests.Answer β},
      ((r.completePending id x).calls i).caller = (r.calls i).caller := by
    intro id x
    rw [Requests.State.completePending_eq]
    dsimp only
    split <;> rfl
  have hserver : ∀ {msg : Requests.ServerMessage β},
      ((r.handleServerMessage msg).calls i).caller = (r.calls i).caller := by
    intro msg
    rcases r.handleServerMessage_eq msg with heq | ⟨id, x, -, -, heq⟩
    · rw [heq]
    · rw [heq]
      exact hcomplete
  cases b with
  | call data => exact Or.inr (Or.inr hb)
  | check j data =>
    have hj : (r.calls j).caller = .entered data := hb
    rw [Requests.next]
    split <;> exact hset (by rw [hj]; rintro ⟨⟩) (by rw [hj]; rfl)
  | allocate j data =>
    have hj : (r.calls j).caller = .checked data := hb
    exact hset (by rw [hj]; rintro ⟨⟩) (by rw [hj]; rfl)
  | enqueue j request =>
    rw [Requests.next]
    split <;> exact hset (by rw [hb.1]; rintro ⟨⟩) (by rw [hb.1]; rfl)
  | receive j => exact hset (by rw [hb.1]; rintro ⟨⟩) (by rw [hb.1]; rfl)
  | abandon j => exact hset hb.1 hb.2
  | dequeue =>
    change ((Requests.dequeueNext r).calls i).caller = _ ∨ _
    rw [Requests.dequeueNext]
    split <;> exact Or.inl rfl
  | encode p error =>
    cases error with
    | none => exact Or.inl rfl
    | some error => exact Or.inl hcomplete
  | write p error =>
    cases error with
    | none => exact Or.inl rfl
    | some error => exact Or.inl hcomplete
  | read msg => exact Or.inl hserver
  | resumeRead msg => exact Or.inl hserver
  | failPending reason =>
    rw [Requests.next, Requests.State.failPendingRequests_eq]
    exact Or.inl rfl
  | cleanup =>
    rw [Requests.next, Requests.State.failPendingRequests_eq]
    exact Or.inl rfl
  | decide =>
    change ((Requests.decideNext r).calls i).caller = _ ∨ _
    rw [Requests.decideNext]
    dsimp only
    split_ifs <;> exact Or.inl rfl
  | dial connected => cases connected <;> exact Or.inl rfl
  | exit =>
    have hcalls : (Requests.next r .exit).calls i = if i ∈ r.channel.map (·.responseTx) then
        { r.calls i with txDropped := true } else r.calls i := rfl
    rw [hcalls]
    split <;> exact Or.inl rfl
  | _ => exact Or.inl rfl

/-- Nobody is in a call of a `Connection` that has been dropped. -/
def Vacated (r : Requests.State ρ β) : Prop :=
  r.dropped = true → ∀ i, (r.calls i).caller = .idle ∨ (r.calls i).caller.isDone = true

end

/-! ## Every call is explained -/

section

variable {s : State ρ β} {a : Action ρ β} {r t : Requests.State ρ β}

theorem insertNext_calls (r : Requests.State ρ β) (p : PendingRequest ρ) (i : ℕ) :
    ((insertNext r p).calls i).caller = (r.calls i).caller ∧
      ((insertNext r p).calls i).answered = (r.calls i).answered := by
  rw [insertNext_eq]
  dsimp only
  split <;> exact ⟨rfl, rfl⟩

theorem Changes.answered (hc : Changes r t) {i : ℕ} {y : Requests.Answer β}
    (hy : y ∈ (t.calls i).answered) :
    y ∈ (r.calls i).answered ∨ ∃ b, Requests.Enabled r b ∧ Puts b y.result := by
  cases hc with
  | still => exact Or.inl hy
  | step b hb _ _ => exact (answered_next hb hy).imp_right fun h => ⟨b, hb, h⟩
  | insert p _ =>
    rw [(insertNext_calls r p i).2] at hy
    exact Or.inl hy
  | decided attempt l _ _ => exact Or.inl hy

theorem Changes.returned (hc : Changes r t) {i : ℕ} {result : ResponseResult β}
    (hi : (t.calls i).caller = .returned result) :
    (r.calls i).caller = .returned result ∨
      ∃ b, Requests.Enabled r b ∧ Returns r b i result := by
  cases hc with
  | still => exact Or.inl hi
  | step b hb _ _ => exact (returned_next hb hi).imp_right fun h => ⟨b, hb, h⟩
  | insert p _ => exact Or.inl ((insertNext_calls r p i).1.symm.trans hi)
  | decided attempt l _ _ => exact Or.inl hi

/-- Only the owner drops the `Connection`. -/
theorem reqs_dropped {b : Requests.Action ρ β} (hinsert : ∀ p, b ≠ .insert p)
    (hdecide : b ≠ .decide) (hd : (Requests.next r b).dropped = true) :
    r.dropped = true ∨ b = .dropConnection := by
  have hown : isOwn b = true → (reqsNext r b).dropped = true → r.dropped = true :=
    fun hb hd => (own_flags r hb).2.symm.trans hd
  cases b with
  | dropConnection => exact Or.inr rfl
  | insert p => exact absurd rfl (hinsert p)
  | decide => exact absurd rfl hdecide
  | dial connected => cases connected <;> exact Or.inl hd
  | cancel => exact Or.inl hd
  | leaveShutdown => exact Or.inl hd
  | leaveChannelClosed => exact Or.inl hd
  | leaveLost reason => exact Or.inl hd
  | resumed => exact Or.inl hd
  | exit => exact Or.inl hd
  | _ => exact Or.inl (hown rfl hd)

theorem Changes.vacated (hc : Changes r t) (h : Vacated r) (hissues : Issues r) : Vacated t := by
  cases hc with
  | still => exact h
  | step b hb hinsert hdecide =>
    intro hd i
    rcases reqs_dropped hinsert hdecide hd with hbefore | rfl
    · rcases caller_next hb i with hsame | ⟨hidle, hdone⟩ | hlive
      · rw [hsame]
        exact h hbefore i
      · rcases h hbefore i with hi | hi
        · exact absurd hi hidle
        · cases hdone.symm.trans hi
      · cases hbefore.symm.trans hlive
    · by_cases hi : i < r.callCount
      · exact Or.inr (hb i hi)
      · exact Or.inl (hissues.late i (Nat.le_of_not_lt hi))
  | insert p _ =>
    intro hd i
    rw [(insertNext_calls r p i).1]
    refine h ?_ i
    rw [insertNext_eq] at hd
    exact hd
  | decided attempt l _ _ => exact h

/-- What every reachable state knows about reasons. -/
structure Informed (s : State ρ β) : Prop where
  left : ∀ reason, s.conn.loop = .left reason → Lost s.conn reason
  told : ∀ i, ∀ y ∈ (s.reqs.calls i).answered, Told s.conn y.result
  explained : ∀ i result, (s.reqs.calls i).caller = .returned result → Explained s result
  vacated : Vacated s.reqs

theorem informed_init (max : Option ℕ) : Informed (init max : State ρ β) where
  left reason h := by cases h
  told i y hy := absurd hy List.not_mem_nil
  explained i result h := by cases h
  vacated h := by cases h

/-- What a step puts on a oneshot channel is true of the connection. -/
theorem Informed.told_of_puts (h : Informed s) (hs : Sound s) {b : Requests.Action ρ β}
    {result : ResponseResult β} (hb : Requests.Enabled s.reqs b) (hputs : Puts b result) :
    Told s.conn result := by
  have hloop := hs.joined.loop
  have hframe : ∀ {msg : Requests.ServerMessage β}, msg.result = some result →
      Told s.conn result := by
    intro msg hresult
    cases msg with
    | response id data =>
      rw [← Option.some.inj hresult]
      trivial
    | error id code message =>
      rw [← Option.some.inj hresult]
      trivial
    | other => cases hresult
  cases hputs with
  | encode p error => exact ⟨error, rfl⟩
  | write p error => exact Or.inr (Or.inl ⟨error, rfl⟩)
  | read hresult => exact hframe hresult
  | resumeRead hresult => exact hframe hresult
  | failPending reason =>
    refine Or.inl (h.left reason ?_)
    rw [show s.reqs.loop = .left reason from hb] at hloop
    cases hl : s.conn.loop with
    | left reason' =>
      rw [hl] at hloop
      rcases hloop with hloop | hloop
      · rw [Requests.Loop.left.inj hloop]
      · cases hloop
    | serving =>
      rw [hl] at hloop
      rcases hloop with hloop | ⟨p, hloop | hloop | hloop⟩ <;> cases hloop
    | cleaning =>
      rw [hl] at hloop
      rcases hloop with hloop | hloop <;> cases hloop
    | _ =>
      rw [hl] at hloop
      cases hloop
  | cleanup =>
    refine Or.inr (Or.inr ⟨rfl, ?_⟩)
    rw [show s.reqs.loop = .cleaning from hb] at hloop
    cases hl : s.conn.loop with
    | cleaning => rfl
    | serving =>
      rw [hl] at hloop
      rcases hloop with hloop | ⟨p, hloop | hloop | hloop⟩ <;> cases hloop
    | left reason =>
      rw [hl] at hloop
      rcases hloop with hloop | hloop <;> cases hloop
    | _ =>
      rw [hl] at hloop
      cases hloop

/-- What a call returns is explained. -/
theorem Informed.returns (h : Informed s) (hs : Sound s) {b : Requests.Action ρ β} {i : ℕ}
    {result : ResponseResult β} (hb : Requests.Enabled s.reqs b)
    (hreturns : Returns s.reqs b i result) : Explained s result := by
  cases hreturns with
  | check i data hshutdown =>
    exact Or.inr (Or.inl ⟨rfl, hs.joined.shutdown.symm.trans hshutdown⟩)
  | enqueue i q hdropped =>
    have hexited := hs.joined.exited (hs.phases.receiver.mp hdropped)
    refine Or.inr (Or.inr (Or.inr (Or.inl ⟨rfl, ?_⟩)))
    rw [hexited]
    rfl
  | receive i =>
    rw [Requests.Call.received]
    cases hanswered : (s.reqs.calls i).answered with
    | nil =>
      have hdropped := hb.2.resolve_left fun hne => hne hanswered
      exact Or.inr (Or.inr (Or.inr (Or.inr
        ⟨rfl, (hs.orphans i hdropped).imp_left hs.joined.exited⟩)))
    | cons y ys =>
      have htold := h.told i y (by rw [hanswered]; exact List.mem_cons_self)
      change Explained s y.result
      cases hresult : y.result with
      | ok id data => trivial
      | serverError code message => trivial
      | unexpected text =>
        rw [hresult] at htold
        exact htold
      | connectionClosed reason =>
        rw [hresult] at htold
        rcases htold with (hlog | hshutdown | ⟨-, hdropped⟩) | hsend | hclosed
        · exact Or.inl hlog
        · exact Or.inr (Or.inl hshutdown)
        · -- the owner has dropped the connection, and nobody waits any more
          rcases h.vacated (hs.joined.dropped.trans hdropped) i with hidle | hdone
          · cases hb.1.symm.trans hidle
          · rw [hb.1] at hdone
            cases hdone
        · exact Or.inr (Or.inr (Or.inl hsend))
        · exact Or.inr (Or.inr (Or.inr (Or.inl hclosed)))

/-- The issued ids only grow. -/
theorem Changes.issued_le (hc : Changes r t) : r.issued.length ≤ t.issued.length := by
  cases hc with
  | still => exact le_rfl
  | step b hb hinsert _ => exact (step_frame hb hinsert).2.1
  | insert p _ =>
    rw [insertNext_eq]
    exact le_rfl
  | decided attempt l _ _ => exact le_rfl

theorem Explained.next {result : ResponseResult β} (h : Explained s result) (ha : Enabled s a) :
    Explained (Session.next s a) result := by
  cases result with
  | ok id data => trivial
  | serverError code message => trivial
  | unexpected text => exact h
  | connectionClosed reason =>
    have hissued := (reqs_changes ha).issued_le
    cases a with
    | reqs b =>
      exact h.imp_right (Or.imp_right (Or.imp_right (Or.imp_right
        (And.imp_right (Or.imp_right fun hle => hle.trans hissued)))))
    | conn a =>
      rcases h with hlog | ⟨hr, hc⟩ | hsend | ⟨hr, hover⟩ | ⟨hr, hgone⟩
      · exact Or.inl (Publishing.mem_log_next hlog a)
      · exact Or.inr (Or.inl ⟨hr, Publishing.cancelled_next hc a⟩)
      · exact Or.inr (Or.inr (Or.inl hsend))
      · exact Or.inr (Or.inr (Or.inr (Or.inl ⟨hr, Waiting.isOver_next ha.1 hover⟩)))
      · exact Or.inr (Or.inr (Or.inr (Or.inr
          ⟨hr, hgone.imp (exited_next ha.1) fun hle => hle.trans hissued⟩)))

/-- The reason of the run that has just ended. -/
theorem left_next {u : Publishing.State} {b : Publishing.Action}
    (hleft : ∀ reason, u.loop = .left reason → Lost u reason) (hb : Publishing.Enabled u b)
    {reason : String} (h : (Publishing.next u b).loop = .left reason) :
    Lost (Publishing.next u b) reason := by
  have hstay : (Publishing.next u b).loop = u.loop → Lost (Publishing.next u b) reason :=
    fun hsame => (hleft reason (hsame.symm.trans h)).next b
  cases b with
  | lose loss =>
    rw [← Publishing.Loop.left.inj h]
    exact Or.inl (List.mem_append_right _ (List.mem_singleton_self _))
  | leaveShutdown =>
    rw [← Publishing.Loop.left.inj h]
    exact Or.inr (Or.inl ⟨rfl, hb.2⟩)
  | leaveChannelClosed =>
    rw [← Publishing.Loop.left.inj h]
    exact Or.inr (Or.inr ⟨rfl, hb.2⟩)
  | checkShutdown reason' =>
    change (if u.cancelled then _ else _) = _ at h
    split at h <;> cases h
  | checkClosed reason' =>
    change (if u.dropped then _ else _) = _ at h
    split at h <;> cases h
  | announce reason' =>
    change (Publishing.announceNext u reason').loop = _ at h
    rcases (announce_frame u reason').2.2 with hl | hl <;> cases hl.symm.trans h
  | wake => cases h
  | dial connected => cases connected <;> cases h
  | publishConnected => cases h
  | resumed => cases h
  | exit => cases h
  | _ => exact hstay rfl

theorem Informed.next (h : Informed s) (hs : Sound s) (ha : Enabled s a) :
    Informed (Session.next s a) := by
  have hc := reqs_changes ha
  have htold : ∀ {result : ResponseResult β}, Told s.conn result →
      Told (Session.next s a).conn result := by
    intro result htold
    cases a with
    | reqs b => exact htold
    | conn a => exact htold.next ha.1
  refine ⟨fun reason hleft => ?_, fun i y hy => htold ?_, fun i result hi => ?_,
    hc.vacated h.vacated hs.issues⟩
  · cases a with
    | reqs b => exact h.left reason hleft
    | conn a => exact left_next h.left ha.1 hleft
  · rcases hc.answered hy with hold | ⟨b, hb, hputs⟩
    · exact h.told i y hold
    · exact h.told_of_puts hs hb hputs
  · rcases hc.returned hi with hold | ⟨b, hb, hreturns⟩
    · exact (h.explained i result hold).next ha
    · exact (h.returns hs hb hreturns).next ha

end

/-- **Every failure is explained.** If a call of `send_request` has failed with `ConnectionClosed`,
its reason has been published as the state `Disconnected`, unless it is one of the fixed texts, and
each of those is true: `Client shutdown` after the token was cancelled, `Send failed: …`,
`Connection closed` once the loop has ended, and `Response channel closed` after its exit or once
the ids have wrapped. -/
theorem failures_explained (max : Option ℕ) (as : List (Action ρ β))
    (hv : (system ρ β).Valid (init max) as) (i : ℕ) (result : ResponseResult β)
    (hi : (((system ρ β).exec (init max) as).reqs.calls i).caller = .returned result) :
    Explained ((system ρ β).exec (init max) as) result :=
  (Transition.System.invariant (S := system ρ β) (I := fun s => Sound s ∧ Informed s)
    (fun _ _ h ha => ⟨h.1.next ha, h.2.next h.1 ha⟩) ⟨sound_init max, informed_init max⟩
    hv).2.explained i result hi

set_option maxRecDepth 20000 in
/-- The second request of `lostRun` was still in the channel. -/
theorem failures_explained_lostRun :
    Explained ((system ℕ ℕ).exec (init (some 0)) (lostRun ++ [.reqs (.receive 0),
      .reqs (.receive 1)])) (.connectionClosed "Pong timeout") ∧
    Explained ((system ℕ ℕ).exec (init (some 0)) (lostRun ++ [.reqs (.receive 0),
      .reqs (.receive 1)])) (.connectionClosed "Response channel closed") :=
  ⟨failures_explained (some 0) _ (by decide) 0 _ (by decide),
    failures_explained (some 0) _ (by decide) 1 _ (by decide)⟩

end Session

end TitanClient
