import TitanClient.Arrival
import TitanClient.Publishing

/-!
# The reported connection state

What `Connection::state` and a new receiver see is the value of the watch channel. It is the last
status that was published as long as somebody listens; and `Connected` is the last word on a dead
connection only if `connect`, the loop and `shutdown` publish in an unlucky order.

## Main results

* `State.Faithful`, `reported_state_is_real` — when the reported state is the real one
* `unheard_disconnect` — with no receiver a lost connection stays `Connected`
* `State.Honest`, `connected_not_last` — when `Connected` is not the last word
* `connected_after_shutdown` — a dial that outlasts `shutdown` publishes `Connected`
-/

namespace TitanClient

namespace Publishing

/-- Giving up and backing off both publish a status other than `Connected`. -/
theorem announceNext_eq (s : State) (reason : String) :
    ∃ status attempt loop, (status ≠ .connected ∧ loop ≠ .dialed) ∧
      announceNext s reason =
        { s.publish .loop status with
          reconnectAttempt := attempt
          loop := loop
          up := false } := by
  rw [announceNext]
  dsimp only
  split
  · refine ⟨_, _, .cleaning, ⟨?_, nofun⟩, rfl⟩
    nofun
  · refine ⟨_, _, .backoff, ⟨?_, nofun⟩, rfl⟩
    nofun

/-- What anybody has published stays in the log. -/
theorem mem_log_next {s : State} {p : Author × ConnectionState} (h : p ∈ s.log) (a : Action) :
    p ∈ (next s a).log := by
  cases a with
  | connectPublish => exact List.mem_append_left _ h
  | publishShutdown k => exact List.mem_append_left _ h
  | lose loss => exact List.mem_append_left _ h
  | announce reason =>
    obtain ⟨status, attempt, loop, -, heq⟩ := announceNext_eq s reason
    rw [next, heq]
    exact List.mem_append_left _ h
  | publishConnected => exact List.mem_append_left _ h
  | dial connected => cases connected <;> exact h
  | _ => exact h

/-- The shutdown token is not taken back. -/
theorem cancelled_next {s : State} (h : s.cancelled = true) (a : Action) :
    (next s a).cancelled = true := by
  cases a with
  | cancel k => rfl
  | announce reason =>
    obtain ⟨status, attempt, loop, -, heq⟩ := announceNext_eq s reason
    rw [next, heq]
    exact h
  | dial connected => cases connected <;> exact h
  | _ => exact h

/-- Nor does a dropped `Connection` come back. -/
theorem dropped_next {s : State} (h : s.dropped = true) (a : Action) :
    (next s a).dropped = true := by
  cases a with
  | dropConnection => rfl
  | announce reason =>
    obtain ⟨status, attempt, loop, -, heq⟩ := announceNext_eq s reason
    rw [next, heq]
    exact h
  | dial connected => cases connected <;> exact h
  | _ => exact h

/-! ## The real state -/

/-- After `connect` has returned, `state()` and the first value that a new receiver sees are the
status that the loop or `shutdown` has last set out to publish, which is not `Connected` during a
backoff. -/
def State.Faithful (s : State) : Prop :=
  s.connect = .returned → s.state = s.intended ∧ s.firstSeen = s.intended ∧
    (s.loop = .backoff → s.state ≠ .connected)

/-- Whoever publishes has a receiver, or publishes what is stored already; and `connect` overwrites
nothing that the loop has published before. -/
def Heard (s : State) (a : Action) : Prop :=
  (a = .connectPublish → s.intended = .connected) ∧
    ∀ status ∈ a.status s, 0 < s.cell.receivers ∨ s.cell.value = status

/-- The stored value is the intended one. -/
structure Real (s : State) : Prop where
  value : s.connect ≠ .spawned → s.cell.value = s.intended
  backoff : s.loop = .backoff → s.intended ≠ .connected

theorem real_init (max : Option ℕ) : Real (init max) where
  value h := absurd rfl h
  backoff := nofun

/-- Before `connect` has returned, it holds a receiver, and nobody else has the connection. -/
structure Early (s : State) : Prop where
  receivers : s.connect ≠ .returned → 0 < s.cell.receivers
  shutdowns : s.connect ≠ .returned → ∀ k, s.shutdowns k = .idle
  log : s.connect ≠ .returned → ∀ p ∈ s.log, p.1 ≠ .shutdown
  cancelled : s.cancelled = true → s.connect = .returned
  dropped : s.dropped = true → s.connect = .returned

theorem early_init (max : Option ℕ) : Early (init max) where
  receivers _ := Nat.one_pos
  shutdowns _ _ := rfl
  log _ := nofun
  cancelled := nofun
  dropped := nofun

section

variable {s : State} {a : Action}

/-- A step that has to do with `shutdown` comes after `connect`. -/
private theorem Early.late (h : Early s) {k : ℕ} (hk : s.shutdowns k ≠ .idle) :
    s.connect = .returned := by
  by_contra hearly
  exact hk (h.shutdowns hearly k)

theorem Early.next (h : Early s) (ha : Enabled s a) : Early (next s a) := by
  have hlate : ∀ {t : State}, s.connect = .returned → t.connect = s.connect → Early t := by
    intro t hreturned ht
    rw [← ht] at hreturned
    exact ⟨fun hno => absurd hreturned hno, fun hno => absurd hreturned hno,
      fun hno => absurd hreturned hno, fun _ => hreturned, fun _ => hreturned⟩
  have happend : ∀ {p : Author × ConnectionState}, (∀ q ∈ s.log, q.1 ≠ .shutdown) →
      p.1 ≠ .shutdown → ∀ q ∈ s.log ++ [p], q.1 ≠ .shutdown := by
    intro p hold hp q hq
    rcases List.mem_append.mp hq with hq | hq
    · exact hold q hq
    · rwa [List.mem_singleton.mp hq]
  have hpublish : ∀ {t : State} {status : ConnectionState},
      t.cell = s.cell.send status → t.log = s.log ++ [(.loop, status)] →
        t.connect = s.connect → t.shutdowns = s.shutdowns → t.cancelled = s.cancelled →
          t.dropped = s.dropped → Early t := by
    intro t status hcell hlog hconnect hshutdowns hcancelled hdropped
    refine ⟨fun hno => ?_, fun hno => ?_, fun hno => ?_, fun hc => ?_, fun hd => ?_⟩
    · rw [hcell, Watch.send_receivers]
      exact h.receivers (hconnect ▸ hno)
    · rw [hshutdowns]
      exact h.shutdowns (hconnect ▸ hno)
    · rw [hlog]
      exact happend (h.log (hconnect ▸ hno)) nofun
    · rw [hconnect]
      exact h.cancelled (hcancelled ▸ hc)
    · rw [hconnect]
      exact h.dropped (hdropped ▸ hd)
  cases a with
  | connectPublish =>
    have hspawned : s.connect ≠ .returned := by
      rw [show s.connect = .spawned from ha]
      nofun
    exact ⟨fun _ => h.receivers hspawned, fun _ => h.shutdowns hspawned,
      fun _ => happend (h.log hspawned) nofun, fun hc => absurd (h.cancelled hc) hspawned,
      fun hd => absurd (h.dropped hd) hspawned⟩
  | connectReturn =>
    exact ⟨fun hno => absurd rfl hno, fun hno => absurd rfl hno, fun hno => absurd rfl hno,
      fun _ => rfl, fun _ => rfl⟩
  | subscribe => exact hlate ha.1 rfl
  | dropReceiver => exact hlate ha.1 rfl
  | dropConnection => exact hlate ha.1 rfl
  | shutdown => exact hlate ha.1 rfl
  | cancel k => exact hlate (h.late (by rw [show s.shutdowns k = _ from ha]; nofun)) rfl
  | publishShutdown k => exact hlate (h.late (by rw [show s.shutdowns k = _ from ha]; nofun)) rfl
  | abandonShutdown k => exact hlate (h.late (by rw [show s.shutdowns k = _ from ha]; nofun)) rfl
  | lose loss => exact hpublish rfl rfl rfl rfl rfl rfl
  | announce reason =>
    obtain ⟨status, attempt, loop, -, heq⟩ := announceNext_eq s reason
    rw [Publishing.next, heq]
    exact hpublish rfl rfl rfl rfl rfl rfl
  | publishConnected => exact hpublish rfl rfl rfl rfl rfl rfl
  | dial connected =>
    cases connected with
    | true => exact ⟨h.receivers, h.shutdowns, h.log, h.cancelled, h.dropped⟩
    | false => exact ⟨h.receivers, h.shutdowns, h.log, h.cancelled, h.dropped⟩
  | _ => exact ⟨h.receivers, h.shutdowns, h.log, h.cancelled, h.dropped⟩

/-- A status that is heard, or is stored already, is stored. -/
theorem send_value_of_heard {status : ConnectionState}
    (h : 0 < s.cell.receivers ∨ s.cell.value = status) : (s.cell.send status).value = status := by
  rcases h with hreceivers | hvalue
  · exact Watch.send_value hreceivers
  · by_cases hnone : s.cell.receivers = 0
    · rw [Watch.send_value_of_none hnone, hvalue]
    · exact Watch.send_value (Nat.pos_of_ne_zero hnone)

theorem Real.next (h : Real s) (hheard : Heard s a) (ha : Enabled s a) : Real (next s a) := by
  cases a with
  | connectPublish => exact ⟨fun _ => (hheard.1 rfl).symm, h.backoff⟩
  | connectReturn =>
    have hpublished : s.connect = .published := ha
    exact ⟨fun _ => h.value (by rw [hpublished]; nofun), h.backoff⟩
  | publishShutdown k =>
    exact ⟨fun _ => send_value_of_heard (hheard.2 _ rfl), fun _ => nofun⟩
  | lose loss => exact ⟨fun _ => send_value_of_heard (hheard.2 _ rfl), nofun⟩
  | announce reason =>
    obtain ⟨status, attempt, loop, ⟨hstatus, -⟩, heq⟩ := announceNext_eq s reason
    have hstored := hheard.2 _ rfl
    rw [heq] at hstored
    rw [Publishing.next, heq]
    exact ⟨fun _ => send_value_of_heard hstored, fun _ => hstatus⟩
  | publishConnected => exact ⟨fun _ => send_value_of_heard (hheard.2 _ rfl), nofun⟩
  | checkShutdown reason =>
    refine ⟨h.value, fun hloop => ?_⟩
    change (if s.cancelled then Loop.cleaning else .checked reason) = .backoff at hloop
    split at hloop <;> cases hloop
  | checkClosed reason =>
    refine ⟨h.value, fun hloop => ?_⟩
    change (if s.dropped then Loop.cleaning else .deciding reason) = .backoff at hloop
    split at hloop <;> cases hloop
  | dial connected =>
    cases connected with
    | true => exact ⟨h.value, nofun⟩
    | false => exact ⟨h.value, nofun⟩
  | leaveShutdown => exact ⟨h.value, nofun⟩
  | leaveChannelClosed => exact ⟨h.value, nofun⟩
  | wake => exact ⟨h.value, nofun⟩
  | resumed => exact ⟨h.value, nofun⟩
  | exit => exact ⟨h.value, nofun⟩
  | _ => exact ⟨h.value, h.backoff⟩

theorem Real.faithful (h : Real s) : s.Faithful := by
  intro hreturned
  have hvalue : s.state = s.intended := h.value (by rw [hreturned]; nofun)
  refine ⟨hvalue, hvalue, fun hloop => ?_⟩
  rw [hvalue]
  exact h.backoff hloop

/-- What the loop or `shutdown` publishes is what it intends, heard or not. -/
theorem next_publish {status : ConnectionState} (h : status ∈ a.status s) :
    (next s a).cell = s.cell.send status ∧ (next s a).intended = status ∧
      (next s a).connect = s.connect := by
  cases a with
  | publishShutdown k =>
    cases h
    exact ⟨rfl, rfl, rfl⟩
  | lose loss =>
    cases h
    exact ⟨rfl, rfl, rfl⟩
  | announce reason =>
    obtain ⟨status', attempt, loop, -, heq⟩ := announceNext_eq s reason
    have hstatus : (announceNext s reason).intended = status := Option.some.inj h
    rw [heq] at hstatus
    have hsame : status' = status := hstatus
    rw [next, heq, ← hsame]
    exact ⟨rfl, rfl, rfl⟩
  | publishConnected =>
    cases h
    exact ⟨rfl, rfl, rfl⟩
  | _ => cases h

/-- A status that is not heard makes the reported state a wrong one, at once or when `connect`
returns. -/
theorem unfaithful_of_unheard (h : Early s) (hheard : ¬Heard s a) (ha : Enabled s a) :
    ∃ bs, system.Valid (next s a) bs ∧ ¬(system.exec (next s a) bs).Faithful := by
  by_cases hconnect : a = .connectPublish ∧ s.intended ≠ .connected
  · obtain ⟨rfl, hintended⟩ := hconnect
    refine ⟨[.connectReturn], ⟨rfl, trivial⟩, fun hfaithful => ?_⟩
    exact hintended (hfaithful rfl).1.symm
  · have hmissed : ∃ status ∈ a.status s, s.cell.receivers = 0 ∧ s.cell.value ≠ status := by
      by_contra hno
      refine hheard ⟨fun hc => ?_, fun status hstatus => ?_⟩
      · by_contra hintended
        exact hconnect ⟨hc, hintended⟩
      · by_contra hlost
        rw [not_or] at hlost
        exact hno ⟨status, hstatus, Nat.eq_zero_of_not_pos hlost.1, hlost.2⟩
    obtain ⟨status, hstatus, hnone, hvalue⟩ := hmissed
    obtain ⟨hcell, hintended, hsame⟩ := next_publish hstatus
    have hreturned : s.connect = .returned := by
      by_contra hearly
      exact absurd hnone (Nat.ne_of_gt (h.receivers hearly))
    refine ⟨[], trivial, fun hfaithful => hvalue ?_⟩
    have hstate : (next s a).cell.value = (next s a).intended :=
      (hfaithful (hsame.trans hreturned)).1
    rw [hcell, hintended, Watch.send_value_of_none hnone] at hstate
    exact hstate

end

theorem exec_early {max : Option ℕ} {as : List Action} (hv : system.Valid (init max) as) :
    Early (system.exec (init max) as) :=
  Transition.System.invariant (fun _ _ h ha => h.next ha) (early_init max) hv

/-- **The reported state is the real one as long as every status is heard.** In every state of a run
in which whoever publishes has a receiver, and `connect` overwrites nothing, `state()` and a new
receiver see the last status that was published, and not `Connected` during a backoff. A status that
is not heard is followed by a state in which the report is wrong. -/
theorem reported_state_is_real (max : Option ℕ) (as : List Action)
    (hv : system.Valid (init max) as) :
    (system.Along Heard (init max) as → (system.exec (init max) as).Faithful) ∧
      ∀ a, Enabled (system.exec (init max) as) a → ¬Heard (system.exec (init max) as) a →
        ∃ bs, system.Valid (next (system.exec (init max) as) a) bs ∧
          ¬(system.exec (next (system.exec (init max) as) a) bs).Faithful := by
  refine ⟨fun hheard => ?_, fun a ha hnot => unfaithful_of_unheard (exec_early hv) hnot ha⟩
  have hreal : Real (system.exec (init max) as) :=
    Transition.System.invariant_along (fun _ _ h hh ha => h.next hh ha) (real_init max) hheard hv
  exact hreal.faithful

/-- `connect` has returned, somebody listens, and the connection is lost. -/
def heardDisconnect : List Action :=
  [.connectPublish, .connectReturn, .subscribe, .lose .pongTimeout, .checkShutdown "Pong timeout",
    .checkClosed "Pong timeout", .announce "Pong timeout"]

theorem reported_state_is_real_heardDisconnect :
    (system.exec (init none) heardDisconnect).state = .reconnecting 1 ∧
      (system.exec (init none) heardDisconnect).Faithful := by
  have hheard : system.Along Heard (init none) heardDisconnect := by
    refine ⟨⟨fun _ => rfl, nofun⟩, ⟨nofun, nofun⟩, ⟨nofun, nofun⟩, ⟨nofun, fun _ _ => ?_⟩,
      ⟨nofun, nofun⟩, ⟨nofun, nofun⟩, ⟨nofun, fun _ _ => ?_⟩, trivial⟩
    · exact Or.inl (by decide)
    · exact Or.inl (by decide)
  exact ⟨by decide, (reported_state_is_real none heardDisconnect (by decide)).1 hheard⟩

/-- The same with nobody listening. -/
def unheard : List Action :=
  [.connectPublish, .connectReturn, .lose .pongTimeout, .checkShutdown "Pong timeout",
    .checkClosed "Pong timeout", .announce "Pong timeout"]

/-- **A lost connection stays `Connected`.** The loop backs off after the loss, and `state()` is
still `Connected`. -/
theorem unheard_disconnect :
    system.Valid (init none) unheard ∧
      (system.exec (init none) unheard).loop = .backoff ∧
      (system.exec (init none) unheard).state = .connected ∧
      ¬(system.exec (init none) unheard).Faithful := by
  refine ⟨by decide, by decide, by decide, fun hfaithful => ?_⟩
  exact absurd (hfaithful (by decide)).1 (by decide)

/-! ## The last word -/

/-- After `connect` has returned, the last word on a loop that backs off or is over is not
`Connected`; and after `shutdown` has published, `Connected` is not published any more. -/
def State.Honest (s : State) : Prop :=
  (s.connect = .returned → s.loop = .backoff ∨ s.loop.isOver = true → s.state ≠ .connected) ∧
    ∀ past status rest, s.log = past ++ (.shutdown, status) :: rest →
      ∀ p ∈ rest, p.2 ≠ .connected

/-- Every status is stored. -/
def Stored (s : State) (a : Action) : Prop := ∀ status ∈ a.status s, 0 < s.cell.receivers

/-- A call of `shutdown` has published. -/
def State.ShutDown (s : State) : Prop := ∃ p ∈ s.log, p.1 = .shutdown

/-- Nobody has published since `connect` has. -/
def State.Late (s : State) : Prop := ∃ p, s.log.getLast? = some p ∧ p.1 = .connect

/-- The loop may be over: a call of `shutdown` has published, or the loop has lost the connection
and dialled no other, and `connect` was not late. -/
def State.Dismissed (s : State) : Prop := s.ShutDown ∨ s.up = false ∧ ¬s.Late

/-- The parties act in a good order. `connect` stores its `Connected` before the loop it has spawned
backs off or is over. No dial succeeds after a call of `shutdown` has published, and none publishes
between the success of a dial and its announcement. And when the loop finds the token cancelled or
the `Connection` dropped, then it has lost the connection, or a call of `shutdown` has gone all the
way to its publication. -/
def Ordered (s : State) : Action → Prop
  | .connectPublish => s.loop ≠ .backoff ∧ s.loop.isOver = false
  | .dial connected => connected = true → ¬s.ShutDown
  | .publishShutdown _ => s.loop ≠ .dialed
  | .checkShutdown _ => s.cancelled = true → s.Dismissed
  | .checkClosed _ => s.dropped = true → s.Dismissed
  | _ => True

/-- What the stored value says. After a call of `shutdown` has published it is not `Connected`, and
before that it tells whether the loop has a connection, unless `connect` was late. -/
structure Telling (s : State) : Prop where
  down : s.connect ≠ .spawned → s.up = false → ¬s.Late → s.cell.value ≠ .connected
  up : s.connect ≠ .spawned → ¬s.ShutDown → s.loop ≠ .dialed → s.up = true ∨ s.Late →
    s.cell.value = .connected
  dialed : s.loop = .dialed → s.up = true

/-- What `Honest` needs of the states before `connect` has returned. -/
structure Calm (s : State) : Prop where
  word : s.connect ≠ .spawned → s.loop = .backoff ∨ s.loop.isOver = true →
    s.cell.value ≠ .connected
  final : ∀ past status rest, s.log = past ++ (.shutdown, status) :: rest →
    ∀ p ∈ rest, p.2 ≠ .connected
  shutDown : s.ShutDown → s.cell.value ≠ .connected
  dialed : s.loop = .dialed → ¬s.ShutDown

theorem telling_init (max : Option ℕ) : Telling (init max) where
  down h := absurd rfl h
  up h := absurd rfl h
  dialed := nofun

theorem calm_init (max : Option ℕ) : Calm (init max) where
  word h := absurd rfl h
  final _ _ _ h := absurd h.symm (List.append_ne_nil_of_right_ne_nil _ nofun)
  shutDown := fun ⟨_, hp, _⟩ => absurd hp List.not_mem_nil
  dialed := nofun

section

variable {s : State} {a : Action}

theorem shutDown_append {l : List (Author × ConnectionState)} {p : Author × ConnectionState}
    (hp : p.1 ≠ .shutdown) : (∃ q ∈ l ++ [p], q.1 = .shutdown) ↔ ∃ q ∈ l, q.1 = .shutdown := by
  constructor
  · rintro ⟨q, hq, hauthor⟩
    rcases List.mem_append.mp hq with hq | hq
    · exact ⟨q, hq, hauthor⟩
    · rw [List.mem_singleton.mp hq] at hauthor
      exact absurd hauthor hp
  · rintro ⟨q, hq, hauthor⟩
    exact ⟨q, List.mem_append_left _ hq, hauthor⟩

theorem late_append {l : List (Author × ConnectionState)} {p : Author × ConnectionState} :
    (∃ q, (l ++ [p]).getLast? = some q ∧ q.1 = .connect) ↔ p.1 = .connect := by
  rw [List.getLast?_append_cons, List.getLast?_singleton]
  exact ⟨fun ⟨q, hq, hauthor⟩ => Option.some.inj hq ▸ hauthor, fun hauthor => ⟨p, rfl, hauthor⟩⟩

/-- Another entry in the log is not `Connected`, or nothing of `shutdown` is in it yet. -/
theorem Calm.final_append (h : Calm s) {p : Author × ConnectionState}
    (hp : p.2 ≠ .connected ∨ ¬s.ShutDown) :
    ∀ past status rest, s.log ++ [p] = past ++ (.shutdown, status) :: rest →
      ∀ q ∈ rest, q.2 ≠ .connected := by
  intro past status rest hlog q hq
  rcases Arrival.append_singleton_eq_append_cons.mp hlog with ⟨rfl, -, -⟩ | ⟨rest', rfl, hold⟩
  · cases hq
  · rcases List.mem_append.mp hq with hq | hq
    · exact h.final past status rest' hold q hq
    · rw [List.mem_singleton.mp hq]
      rcases hp with hp | hnone
      · exact hp
      · refine absurd ⟨(.shutdown, status), ?_, rfl⟩ hnone
        rw [hold]
        exact List.mem_append_right _ List.mem_cons_self

theorem Telling.next (h : Telling s) (hstored : Stored s a) (ha : Enabled s a) :
    Telling (next s a) := by
  have hkeep : ∀ {loop : Loop}, s.loop ≠ .dialed → loop ≠ .dialed →
      Telling { s with loop := loop } :=
    fun hold hnew => ⟨h.down, fun hconnect hnone _ => h.up hconnect hnone hold,
      fun hloop => absurd hloop hnew⟩
  cases a with
  | connectPublish =>
    exact ⟨fun _ _ hlate => absurd (late_append.mpr rfl) hlate, fun _ _ _ _ => rfl, h.dialed⟩
  | connectReturn =>
    have hspawned : s.connect ≠ .spawned := by
      rw [show s.connect = .published from ha]
      nofun
    exact ⟨fun _ => h.down hspawned, fun _ => h.up hspawned, h.dialed⟩
  | publishShutdown k =>
    have hvalue := Watch.send_value (v := .disconnected "Client shutdown") (hstored _ rfl)
    refine ⟨fun _ _ _ => ?_, fun _ hnone => ?_, h.dialed⟩
    · change (s.cell.send _).value ≠ _
      rw [hvalue]
      nofun
    · exact absurd ⟨_, List.mem_append_right _ List.mem_cons_self, rfl⟩ hnone
  | lose loss =>
    have hvalue := Watch.send_value (v := .disconnected loss.reason) (hstored _ rfl)
    refine ⟨fun _ _ _ => ?_, fun _ _ _ hup => ?_, nofun⟩
    · change (s.cell.send _).value ≠ _
      rw [hvalue]
      nofun
    · rcases hup with hup | hlate
      · cases hup
      · cases late_append.mp hlate
  | announce reason =>
    obtain ⟨status, attempt, loop, ⟨hstatus, hloop⟩, heq⟩ := announceNext_eq s reason
    have hreceivers := hstored _ rfl
    rw [Publishing.next, heq]
    refine ⟨fun _ _ _ => ?_, fun _ _ _ hup => ?_, fun hdialed => absurd hdialed hloop⟩
    · change (s.cell.send status).value ≠ .connected
      rw [Watch.send_value hreceivers]
      exact hstatus
    · rcases hup with hup | hlate
      · cases hup
      · cases late_append.mp hlate
  | publishConnected =>
    have hup : s.up = true := h.dialed ha
    refine ⟨fun _ hdown => ?_, fun _ _ _ _ => ?_, nofun⟩
    · rw [show s.up = false from hdown] at hup
      cases hup
    · exact Watch.send_value (hstored _ rfl)
  | dial connected =>
    cases connected with
    | true => exact ⟨nofun, fun _ _ hloop => absurd rfl hloop, fun _ => rfl⟩
    | false => exact hkeep (by rw [show s.loop = .dialing from ha]; nofun) nofun
  | leaveShutdown => exact hkeep (by rw [show s.loop = .serving from ha.1]; nofun) nofun
  | leaveChannelClosed => exact hkeep (by rw [show s.loop = .serving from ha.1]; nofun) nofun
  | checkShutdown reason =>
    exact hkeep (by rw [show s.loop = .left reason from ha]; nofun) (by split <;> nofun)
  | checkClosed reason =>
    exact hkeep (by rw [show s.loop = .checked reason from ha]; nofun) (by split <;> nofun)
  | wake => exact hkeep (by rw [show s.loop = .backoff from ha]; nofun) nofun
  | resumed => exact hkeep (by rw [show s.loop = .resuming from ha]; nofun) nofun
  | exit => exact hkeep (by rw [show s.loop = .cleaning from ha]; nofun) nofun
  | _ => exact ⟨h.down, h.up, h.dialed⟩

/-- A loop that may be over has not left `Connected` behind. -/
theorem Calm.dismissed (h : Calm s) (ht : Telling s) (hconnect : s.connect ≠ .spawned)
    (hd : s.Dismissed) : s.cell.value ≠ .connected := by
  rcases hd with hshutDown | ⟨hup, hlate⟩
  · exact h.shutDown hshutDown
  · exact ht.down hconnect hup hlate

/-- If it may not, it does. -/
theorem Telling.connected_of_not_dismissed (h : Telling s) (hconnect : s.connect ≠ .spawned)
    (hloop : s.loop ≠ .dialed) (hd : ¬s.Dismissed) : s.cell.value = .connected := by
  rw [State.Dismissed, not_or] at hd
  refine h.up hconnect hd.1 hloop ?_
  by_contra hno
  rw [not_or, Bool.not_eq_true] at hno
  exact hd.2 hno

theorem Calm.next (h : Calm s) (he : Early s) (ht : Telling s) (hstored : Stored s a)
    (hordered : Ordered s a) (ha : Enabled s a) : Calm (next s a) := by
  have hkeep : ∀ {loop : Loop}, loop ≠ .dialed → (loop = .backoff ∨ loop.isOver = true →
      s.connect ≠ .spawned → s.cell.value ≠ .connected) → Calm { s with loop := loop } :=
    fun hnew hloop => ⟨fun hconnect hquiet => hloop hquiet hconnect, h.final, h.shutDown,
      fun hdialed => absurd hdialed hnew⟩
  have hbusy : ∀ {loop : Loop}, loop ≠ .dialed → loop ≠ .backoff → loop.isOver = false →
      Calm { s with loop := loop } := by
    intro loop hnew hbackoff hover
    refine hkeep hnew fun hquiet => ?_
    rcases hquiet with hloop | hloop
    · exact absurd hloop hbackoff
    · cases hover.symm.trans hloop
  cases a with
  | connectPublish =>
    obtain ⟨hbackoff, hover⟩ := hordered
    have hspawned : s.connect ≠ .returned := by
      rw [show s.connect = .spawned from ha]
      nofun
    have hnone : ¬s.ShutDown := fun ⟨p, hp, hauthor⟩ => he.log hspawned p hp hauthor
    have hnone' : ¬∃ p ∈ s.log ++ [(Author.connect, ConnectionState.connected)],
        p.1 = .shutdown := fun hmem => hnone ((shutDown_append (by decide)).mp hmem)
    refine ⟨fun _ hquiet => ?_, h.final_append (Or.inr hnone), fun hsh => absurd hsh hnone',
      fun _ => hnone'⟩
    rcases hquiet with hloop | hloop
    · exact absurd hloop hbackoff
    · cases hover.symm.trans hloop
  | connectReturn =>
    have hpublished : s.connect = .published := ha
    exact ⟨fun _ => h.word (by rw [hpublished]; nofun), h.final, h.shutDown, h.dialed⟩
  | publishShutdown k =>
    have hvalue : (s.cell.send (.disconnected "Client shutdown")).value ≠ .connected := by
      rw [Watch.send_value (hstored _ rfl)]
      nofun
    exact ⟨fun _ _ => hvalue, h.final_append (Or.inl nofun), fun _ => hvalue,
      fun hdialed => absurd hdialed hordered⟩
  | lose loss =>
    have hvalue : (s.cell.send (.disconnected loss.reason)).value ≠ .connected := by
      rw [Watch.send_value (hstored _ rfl)]
      nofun
    exact ⟨fun _ => nofun, h.final_append (Or.inl nofun), fun _ => hvalue, nofun⟩
  | announce reason =>
    obtain ⟨status, attempt, loop, ⟨hstatus, hloop⟩, heq⟩ := announceNext_eq s reason
    have hvalue : (s.cell.send status).value ≠ .connected := by
      rw [Watch.send_value (hstored _ rfl)]
      exact hstatus
    rw [Publishing.next, heq]
    exact ⟨fun _ _ => hvalue, h.final_append (Or.inl hstatus), fun _ => hvalue,
      fun hdialed => absurd hdialed hloop⟩
  | publishConnected =>
    have hnone : ¬s.ShutDown := h.dialed ha
    exact ⟨fun _ => nofun, h.final_append (Or.inr hnone),
      fun hsh => absurd ((shutDown_append (by decide)).mp hsh) hnone, nofun⟩
  | leaveShutdown => exact hbusy nofun nofun rfl
  | leaveChannelClosed => exact hbusy nofun nofun rfl
  | checkShutdown reason =>
    refine hkeep (by split <;> nofun) fun hquiet hconnect => ?_
    by_cases hcancelled : s.cancelled = true
    · exact h.dismissed ht hconnect (hordered hcancelled)
    · rw [if_neg hcancelled] at hquiet
      rcases hquiet with hloop | hloop <;> cases hloop
  | checkClosed reason =>
    refine hkeep (by split <;> nofun) fun hquiet hconnect => ?_
    by_cases hdropped : s.dropped = true
    · exact h.dismissed ht hconnect (hordered hdropped)
    · rw [if_neg hdropped] at hquiet
      rcases hquiet with hloop | hloop <;> cases hloop
  | wake => exact hbusy nofun nofun rfl
  | dial connected =>
    cases connected with
    | true => exact ⟨fun _ => nofun, h.final, h.shutDown, fun _ => hordered rfl⟩
    | false => exact hbusy nofun nofun rfl
  | resumed => exact hbusy nofun nofun rfl
  | exit =>
    have hcleaning : s.loop = .cleaning := ha
    exact hkeep nofun fun _ hconnect => h.word hconnect (Or.inr (by rw [hcleaning]; rfl))
  | _ => exact ⟨h.word, h.final, h.shutDown, h.dialed⟩

/-- Announcing a dial after `shutdown` has published. -/
theorem dishonest_of_publishConnected (hloop : s.loop = .dialed) (hsh : s.ShutDown) :
    system.Valid s [.publishConnected] ∧ ¬(system.exec s [.publishConnected]).Honest := by
  refine ⟨⟨hloop, trivial⟩, fun hhonest => ?_⟩
  obtain ⟨p, hp, hauthor⟩ := hsh
  obtain ⟨past, rest, hlog⟩ := List.append_of_mem hp
  have hlog' : s.log ++ [(.loop, .connected)] =
      past ++ (.shutdown, p.2) :: (rest ++ [(.loop, .connected)]) := by
    rw [hlog, List.append_assoc, List.cons_append, ← hauthor]
  exact hhonest.2 past p.2 _ hlog' _ (List.mem_append_right _ List.mem_cons_self) rfl

/-- A step out of order makes `Connected` the last word on a dead connection, at once or when
`connect` returns, or makes the loop announce a connection after `shutdown` has published. -/
theorem dishonest_of_disorder (he : Early s) (ht : Telling s) (hordered : ¬Ordered s a)
    (ha : Enabled s a) : ∃ bs, bs ∈ [[], [.connectReturn], [.publishConnected]] ∧
      system.Valid (next s a) bs ∧ ¬(system.exec (next s a) bs).Honest := by
  cases a with
  | connectPublish =>
    refine ⟨[.connectReturn], by simp, ⟨rfl, trivial⟩, fun hhonest => ?_⟩
    have hquiet : s.loop = .backoff ∨ s.loop.isOver = true := by
      by_contra hno
      rw [not_or, Bool.not_eq_true] at hno
      exact hordered hno
    exact hhonest.1 rfl hquiet rfl
  | dial connected =>
    obtain ⟨rfl, hsh⟩ := Classical.not_imp.mp hordered
    exact ⟨[.publishConnected], by simp, dishonest_of_publishConnected rfl (not_not.mp hsh)⟩
  | publishShutdown k =>
    have hloop : s.loop = .dialed := not_not.mp hordered
    exact ⟨[.publishConnected], by simp, dishonest_of_publishConnected hloop
      ⟨_, List.mem_append_right _ List.mem_cons_self, rfl⟩⟩
  | checkShutdown reason =>
    obtain ⟨hcancelled, hno⟩ := Classical.not_imp.mp hordered
    have hreturned := he.cancelled hcancelled
    refine ⟨[], by simp, trivial, fun hhonest => ?_⟩
    refine hhonest.1 hreturned (Or.inr ?_) (ht.connected_of_not_dismissed ?_ ?_ hno)
    · change (if s.cancelled then Loop.cleaning else .checked reason).isOver = true
      rw [if_pos hcancelled]
      rfl
    · rw [hreturned]
      nofun
    · rw [show s.loop = .left reason from ha]
      nofun
  | checkClosed reason =>
    obtain ⟨hdropped, hno⟩ := Classical.not_imp.mp hordered
    have hreturned := he.dropped hdropped
    refine ⟨[], by simp, trivial, fun hhonest => ?_⟩
    refine hhonest.1 hreturned (Or.inr ?_) (ht.connected_of_not_dismissed ?_ ?_ hno)
    · change (if s.dropped then Loop.cleaning else .deciding reason).isOver = true
      rw [if_pos hdropped]
      rfl
    · rw [hreturned]
      nofun
    · rw [show s.loop = .checked reason from ha]
      nofun
  | _ => exact absurd trivial hordered

end

/-- **`Connected` is not the last word on a dead connection, as long as the parties act in a good
order.** In every run in which every status is stored and every step is in order, the last word on a
loop that backs off or is over is not `Connected`, and `Connected` is not published after `shutdown`
has published. After a step out of order one of the two fails, at once or with the next step of
`connect` or of the loop. -/
theorem connected_not_last (max : Option ℕ) (as : List Action) (hv : system.Valid (init max) as)
    (hstored : system.Along Stored (init max) as) :
    (system.Along Ordered (init max) as → (system.exec (init max) as).Honest) ∧
      ∀ a, Enabled (system.exec (init max) as) a → ¬Ordered (system.exec (init max) as) a →
        ∃ bs, bs ∈ [[], [.connectReturn], [.publishConnected]] ∧
          system.Valid (next (system.exec (init max) as) a) bs ∧
          ¬(system.exec (next (system.exec (init max) as) a) bs).Honest := by
  have htelling : Telling (system.exec (init max) as) :=
    Transition.System.invariant_along (fun _ _ h hC ha => h.next hC ha) (telling_init max) hstored
      hv
  refine ⟨fun hordered => ?_, fun a ha hnot =>
    dishonest_of_disorder (exec_early hv) htelling hnot ha⟩
  have hearly := Transition.System.along_of_reachable (S := system) (R := Early)
    (fun _ hpast => exec_early hpast) hv
  have hcalm : Calm (system.exec (init max) as) ∧ Telling (system.exec (init max) as) :=
    Transition.System.invariant_along (I := fun s => Calm s ∧ Telling s)
      (fun _ _ h hC ha => ⟨h.1.next hC.2.2 h.2 hC.1 hC.2.1 ha, h.2.next hC.1 ha⟩)
      ⟨calm_init max, telling_init max⟩ (hstored.and (hordered.and hearly)) hv
  refine ⟨fun hreturned hquiet => hcalm.1.word ?_ hquiet, hcalm.1.final⟩
  rw [hreturned]
  nofun

/-- Somebody listens, the owner shuts down while the connection is served, and the loop is over
after the publication. -/
def orderlyShutdown : List Action :=
  [.connectPublish, .connectReturn, .subscribe, .shutdown, .cancel 0, .publishShutdown 0,
    .leaveShutdown, .checkShutdown "Client shutdown", .exit]

theorem connected_not_last_orderlyShutdown :
    (system.exec (init none) orderlyShutdown).loop = .exited ∧
      (system.exec (init none) orderlyShutdown).Honest := by
  have hstored : system.Along Stored (init none) orderlyShutdown := by
    refine ⟨nofun, nofun, nofun, nofun, nofun, fun _ _ => ?_, nofun, nofun, nofun, trivial⟩
    decide
  have hordered : system.Along Ordered (init none) orderlyShutdown := by
    refine ⟨⟨?_, ?_⟩, trivial, trivial, trivial, trivial, ?_, trivial, fun _ => ?_, trivial,
      trivial⟩
    · decide
    · decide
    · exact show Loop.serving ≠ .dialed by decide
    · exact Or.inl ⟨(.shutdown, .disconnected "Client shutdown"), by decide, rfl⟩
  exact ⟨by decide, (connected_not_last none orderlyShutdown (by decide) hstored).1 hordered⟩

/-- Somebody listens, the connection is lost, and the owner shuts down while the loop backs off. The
loop dials, connects and announces it, and only then looks at the token. -/
def lateDial : List Action :=
  [.connectPublish, .connectReturn, .subscribe, .lose .pongTimeout, .checkShutdown "Pong timeout",
    .checkClosed "Pong timeout", .announce "Pong timeout", .shutdown, .cancel 0, .publishShutdown 0,
    .wake, .dial true, .publishConnected, .resumed, .leaveShutdown,
    .checkShutdown "Client shutdown", .exit]

/-- **`Connected` after `shutdown`.** The loop is over, and the last word is `Connected`, published
after the `Disconnected` of `shutdown`. -/
theorem connected_after_shutdown :
    system.Valid (init none) lateDial ∧ system.Along Stored (init none) lateDial ∧
      (system.exec (init none) lateDial).loop = .exited ∧
      (system.exec (init none) lateDial).state = .connected ∧
      ¬(system.exec (init none) lateDial).Honest := by
  have hstored : system.Along Stored (init none) lateDial := by
    refine ⟨nofun, nofun, nofun, fun _ _ => ?_, nofun, nofun, fun _ _ => ?_, nofun, nofun,
      fun _ _ => ?_, nofun, nofun, fun _ _ => ?_, nofun, nofun, nofun, nofun, trivial⟩
    · decide
    · decide
    · decide
    · decide
  refine ⟨by decide, hstored, by decide, by decide, fun hhonest => ?_⟩
  exact hhonest.1 (by decide) (Or.inr (by decide)) (by decide)

end Publishing

end TitanClient
