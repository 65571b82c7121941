import TitanClient.Backpressure

/-!
# Backpressure and dropping

The adapter of a dropped stream takes no more frames once it has one in its hands: it fails to pass
it on, and then removes the entry of its stream from the map, for which it needs the write lock. If
the loop holds the read lock meanwhile, because it waits for room in the raw channel of that same
stream, neither ever moves again.

The raw channel must be full for that. So a drop is safe unless the loop is already waiting for the
stream with a frame in the hands of its adapter, and afterwards unless one more frame is read for it
before its adapter has removed the entry.

## Main results

* `drop_wedges_behind_backlog` — dropping a handle that the loop is waiting for blocks both
* `drop_not_wedged` — otherwise the two never wait for each other, and until the cleanup of a
  dropped handle is over somebody can always move
-/

namespace TitanClient

namespace Lifecycle

/-! ## Waiting for each other -/

/-- The loop waits for room in the raw channel of the dropped stream `i`, and its adapter waits for
the lock that the loop holds. -/
def Wedged (s : State) (i : ℕ) : Prop :=
  (s.streams i).handle = .dropped ∧ (∃ r payload, s.loop = .sending r i payload) ∧
    capacity ≤ (s.streams i).raw.length ∧ ∃ id, (s.streams i).adapter = .unregistering id

/-- **The wedge is for ever.** A loop and an adapter that wait for each other are still there after
any step of anybody. -/
theorem wedged_next {s : State} (hw : Wired s) {i : ℕ} (h : Wedged s i) {a : Action}
    (ha : Enabled s a) : Wedged (next s a) i := by
  obtain ⟨hdropped, ⟨r, payload, hloop⟩, hraw, id, hid⟩ := h
  have hdone := hw.inLoop i (by rw [hloop]; exact List.mem_cons_self)
  have hlt := hw.lt_of_done hdone
  have hlocked : s.loop.isUnlocked ≠ true := by
    rw [hloop]
    exact Bool.noConfusion
  have hl : (next s a).loop = .sending r i payload := by
    have hc := loopChange ha
    generalize (next s a).loop = l at hc
    cases hc with
    | same => exact hloop
    | sent hsent =>
      cases hloop.symm.trans hsent
      rcases ha.2 with hexit | hroom
      · cases hid.symm.trans hexit
      · exact absurd hroom (Nat.not_lt.mpr hraw)
    | _ hother => cases hloop.symm.trans hother
  have hc := change ha i
  refine ⟨hc.dropped_stays hdone hlt hdropped, ⟨r, payload, hl⟩, ?_⟩
  generalize (next s a).streams i = v at hc
  cases hc with
  | begun hcount => omega
  | registered h => cases hdone.symm.trans h
  | adapterTook h => cases hid.symm.trans h
  | adapterSkipped h => cases hid.symm.trans h
  | adapterForwarded h => cases hid.symm.trans h
  | adapterFailed h => cases hid.symm.trans h
  | adapterLoaded h => cases hid.symm.trans h
  | adapterUnregistered => exact absurd ha.2 hlocked
  | adapterEnded h => cases hid.symm.trans h
  | sentRaw _ _ hroom => exact absurd hroom (Nat.not_lt.mpr hraw)
  | _ => exact ⟨hraw, id, hid⟩

/-- The owner of stream `0` drops its handle, and the adapter fails to pass on what it holds. -/
def dropRun : List Action := [.drop 0 true, .adapterFail 0 32, .adapterLoad 0]

set_option maxRecDepth 20000 in
/-- The owner drops a stream behind a backlog of 66 quotes: the loop waits for room in its raw
channel, and its adapter for the lock that the loop holds. -/
theorem drop_wedges_behind_backlog :
    system.Valid init (backlogRun ++ dropRun) ∧
      ∃ i, Wedged (system.exec init (backlogRun ++ dropRun)) i := by
  refine ⟨by decide +kernel, 0, ?_, ⟨.serving, .quotes 65, ?_⟩, ?_, 7, ?_⟩
  all_goals decide +kernel

/-- The adapter has a frame in its hands or has failed to pass it on. -/
def Adapter.isLeaving : Adapter → Bool
  | .holding _ => true
  | .failing => true
  | .unregistering _ => true
  | _ => false

/-- The raw channel of stream `i` is full and its adapter has a frame in its hands already. -/
def Lagging (s : State) (i : ℕ) : Prop :=
  capacity ≤ (s.streams i).raw.length ∧ (s.streams i).adapter.isLeaving = true

instance (s : State) (i : ℕ) : Decidable (Lagging s i) := inferInstanceAs (Decidable (_ ∧ _))

/-- The stream whose raw channel the loop waits for. -/
def Loop.sendsTo : Loop → Option ℕ
  | .sending _ i _ => some i
  | _ => none

/-- The stream whose handle is dropped. -/
def Action.dropped : Action → Option ℕ
  | .drop i _ => some i
  | _ => none

/-- No handle is dropped while the loop waits for its stream and that is lagging, and no frame is
read for a dropped stream that is lagging. -/
def DropsInTime (s : State) (a : Action) : Prop :=
  (∀ i ∈ a.dropped, s.loop.sendsTo = some i → ¬Lagging s i) ∧
    ∀ id ∈ a.dataId, ∀ i ∈ s.resumable.lookup id,
      (s.streams i).handle = .dropped → ¬Lagging s i

instance (s : State) (a : Action) : Decidable (DropsInTime s a) :=
  inferInstanceAs (Decidable (_ ∧ _))

/-- While the loop waits for room in the raw channel of a dropped stream, it will get it. -/
def Draining (s : State) : Prop :=
  ∀ i, s.loop.sendsTo = some i → (s.streams i).handle = .dropped → ¬Lagging s i

theorem Loop.sendsTo_eq_some {l : Loop} {i : ℕ} (h : l.sendsTo = some i) :
    ∃ r payload, l = .sending r i payload := by
  cases l with
  | sending r j payload =>
    cases h
    exact ⟨r, payload, rfl⟩
  | _ => cases h

/-- A stream comes to lag behind only when the loop adds a frame. -/
theorem Change.lagging {s : State} {a : Action} {i : ℕ} {v : Stream} (hc : Change s i a v)
    (ha : ∀ r payload, a ≠ .sendRaw r i payload) (hb : Bounded s)
    (hraw : capacity ≤ v.raw.length) (hleaving : v.adapter.isLeaving = true) : Lagging s i := by
  have hle := hb.raw i
  cases hc with
  | begun => cases hleaving
  | registered => cases hleaving
  | adapterTook _ hcons =>
    rw [hcons, List.length_cons] at hle
    exact absurd (le_trans hle hraw) (Nat.not_succ_le_self _)
  | adapterSkipped hv =>
    have hleaving' : (s.streams i).adapter.isLeaving = true := hleaving
    rw [hv] at hleaving'
    cases hleaving'
  | adapterForwarded => cases hleaving
  | adapterFailed hv => exact ⟨hraw, by rw [hv]; rfl⟩
  | adapterLoaded hv => exact ⟨hraw, by rw [hv]; rfl⟩
  | adapterUnregistered => cases hleaving
  | adapterEnded => cases hleaving
  | sentRaw => exact absurd rfl (ha _ _)
  | _ => exact ⟨hraw, hleaving⟩

/-- A handle is dropped because it was before or because the owner has just dropped it. -/
theorem Change.dropped_from {s : State} {a : Action} {i : ℕ} {v : Stream} (hc : Change s i a v)
    (hv : v.handle = .dropped) : (s.streams i).handle = .dropped ∨ a.dropped = some i := by
  cases hc with
  | begun => cases hv
  | registered => cases hv
  | stopped => cases hv
  | stopReturned => cases hv
  | dropped => exact Or.inr rfl
  | droppedOutside => exact Or.inr rfl
  | droppedStopped => exact Or.inr rfl
  | _ => exact Or.inl hv

theorem Draining.next {s : State} (h : Draining s) (hb : Bounded s) {a : Action}
    (hC : DropsInTime s a) (ha : Enabled s a) : Draining (next s a) := by
  intro i hi hdropped hlag
  obtain ⟨r, payload, hloop⟩ := Loop.sendsTo_eq_some hi
  have hc := change ha i
  have hnosend : ∀ r' p', a ≠ .sendRaw r' i p' := by
    rintro r' p' rfl
    have hcl := loopChange ha
    generalize (Lifecycle.next s (.sendRaw r' i p')).loop = l at hcl hloop
    cases hcl with
    | same hstill => cases hstill
    | sent => cases hloop
  have hlagged : Lagging s i := hc.lagging hnosend hb hlag.1 hlag.2
  rcases (loopChange ha).sending hloop with hold | ⟨id, rfl, hlook⟩
  · have hsends : s.loop.sendsTo = some i := by
      rw [hold]
      rfl
    rcases hc.dropped_from hdropped with hd | hd
    · exact h i hsends hd hlagged
    · exact hC.1 i hd hsends hlagged
  · rcases hc.dropped_from hdropped with hd | hd
    · exact hC.2 id rfl i hlook hd hlagged
    · cases hd

theorem Draining.not_wedged {s : State} (h : Draining s) (i : ℕ) : ¬Wedged s i := by
  rintro ⟨hdropped, ⟨r, payload, hloop⟩, hraw, id, hid⟩
  exact h i (by rw [hloop]; rfl) hdropped ⟨hraw, by rw [hid]; rfl⟩

theorem draining_init : Draining init := by
  intro i h
  cases h

/-! ## Somebody can move -/

/-- The steps that the parties take by themselves, which leaves out new calls of the owners, what
the server sends unasked, and the loss of the connection; the loop gives a connection up once it is
lost. -/
def Action.isOwn (s : State) : Action → Bool
  | .begin _ => false
  | .stop _ => false
  | .drop _ _ => false
  | .shutdown _ => false
  | .lose => false
  | .serverSend _ => false
  | .leave => !s.alive
  | .resumeLost _ _ _ _ => !s.alive
  | _ => true

/-- Some party can move. -/
def CanMove (s : State) : Prop := ∃ a : Action, a.isOwn s = true ∧ Enabled s a

/-- What all reachable states of the runs considered have in common. -/
structure Live (s : State) : Prop where
  wired : Wired s
  posted : Posted s
  bounded : Bounded s
  flowing : Flowing s
  draining : Draining s

namespace Live

variable {s : State}

/-- The owner of a clogged stream can take a quote, or is about to return from its call. -/
private theorem canMove_of_clogged (h : Live s) {r : Reading} {i : ℕ} {payload : Payload}
    (hloop : s.loop = .sending r i payload) (hhandle : (s.streams i).handle ≠ .dropped)
    (hclogged : (s.streams i).Clogged) : CanMove s := by
  have hdone := h.wired.inLoop i (by rw [hloop]; exact List.mem_cons_self)
  have hidle : ¬InCall s (s.streams i).owner := fun hcall =>
    absurd hclogged.undelivered (Nat.not_lt.mpr (h.flowing r i payload hloop hhandle hcall))
  rw [InCall] at hidle
  cases htask : s.tasks (s.streams i).owner with
  | idle =>
    have hnotstopping : (s.streams i).handle ≠ .stopping := by
      intro hs
      cases htask.symm.trans (h.wired.caller i hs)
    have hquotes : (s.streams i).quotes ≠ [] := by
      intro hnil
      have hfull := hclogged.quotes
      rw [hnil] at hfull
      exact absurd hfull (by decide)
    refine ⟨.recv i, rfl, ?_, htask, hquotes⟩
    cases hh : (s.streams i).handle with
    | none => exact absurd hh ((h.wired.ok i).registered hdone).2
    | live => exact Or.inl rfl
    | stopping => exact absurd hh hnotstopping
    | stopped => exact Or.inr rfl
    | dropped => exact absurd hh hhandle
  | cancelling => exact ⟨.cancel (s.streams i).owner, rfl, htask⟩
  | stopping j =>
    rw [htask] at hidle
    obtain ⟨hj, howner⟩ := h.wired.stopping _ j htask
    by_cases hrel : (s.streams j).stopper = .releasing
    · exact ⟨.stopRelease j, rfl, hrel⟩
    · have hover : (s.streams j).stopper = .done := by
        by_contra hnot
        exact hidle ⟨hrel, hnot⟩
      exact ⟨.stopReturn j, rfl, hj, by rw [howner, htask], hover⟩
  | _ =>
    rw [htask] at hidle
    exact absurd trivial hidle

/-- The loop does not keep its lock for ever. -/
theorem canMove_of_locked (h : Live s) (hlocked : s.loop.isUnlocked = false) : CanMove s := by
  cases hloop : s.loop with
  | storing i newId rest => exact ⟨.store i newId rest, rfl, hloop⟩
  | inserting i newId rest => exact ⟨.insert i newId rest, rfl, hloop⟩
  | sending r i payload =>
    have hdone := h.wired.inLoop i (by rw [hloop]; exact List.mem_cons_self)
    by_cases hroom : (s.streams i).raw.length < capacity
    · exact ⟨.sendRaw r i payload, rfl, hloop, Or.inr hroom⟩
    · have hfull := Nat.not_lt.mp hroom
      have hnotleaving : (s.streams i).handle = .dropped →
          (s.streams i).adapter.isLeaving ≠ true := fun hd hl =>
        h.draining i (by rw [hloop]; rfl) hd ⟨hfull, hl⟩
      cases hadapter : (s.streams i).adapter with
      | none => exact absurd hadapter ((h.wired.ok i).registered hdone).1
      | receiving =>
        refine ⟨.adapterRecv i, rfl, hadapter, ?_⟩
        intro hnil
        rw [hnil] at hfull
        exact absurd hfull (by decide)
      | holding q =>
        have hhandle : (s.streams i).handle ≠ .dropped :=
          fun hd => hnotleaving hd (by rw [hadapter]; rfl)
        by_cases hq : (s.streams i).quotes.length < capacity
        · exact ⟨.adapterForward i q, rfl, hadapter, hhandle, hq⟩
        · exact h.canMove_of_clogged hloop hhandle ⟨hfull, ⟨q, hadapter⟩, Nat.not_lt.mp hq⟩
      | failing =>
        exact absurd (by rw [hadapter]; rfl) (hnotleaving ((h.wired.ok i).failing hadapter))
      | unregistering id =>
        exact absurd (by rw [hadapter]; rfl)
          (hnotleaving ((h.wired.ok i).unregistering id hadapter))
      | exited => exact ⟨.sendRaw r i payload, rfl, hloop, Or.inl hadapter⟩
  | _ =>
    rw [hloop] at hlocked
    cases hlocked

/-- An outstanding request is answered by the server, or its answer is read. -/
private theorem canMove_of_outstanding {r : Reading} {ticket : ℕ} (hloop : s.loop = .reading r)
    (halive : s.alive = true) (h : s.mail.Outstanding ticket) : CanMove s := by
  rcases h with ⟨req, hreq⟩ | ⟨m, hm, -⟩
  · exact ⟨.carryOut ticket req true, rfl, halive, hreq⟩
  · have hm' : m ∈ s.wire := hm
    cases hwire : s.wire with
    | nil =>
      rw [hwire] at hm'
      cases hm'
    | cons f rest => exact ⟨.read r f, rfl, hloop, by rw [hwire]; rfl⟩

/-- A loop with something to do does it, or waits for an answer of the server. -/
theorem canMove_of_loop (h : Live s) (hexit : s.loop ≠ .exited)
    (hserving : s.loop = .reading .serving → s.channel ≠ [] ∨ s.pending ≠ []) : CanMove s := by
  cases hloop : s.loop with
  | reading r =>
    cases r with
    | serving =>
      rcases hserving hloop with hchannel | hpending
      · exact ⟨.dequeue true, rfl, hloop, hchannel⟩
      · obtain ⟨t, ht⟩ := List.exists_mem_of_ne_nil _ hpending
        cases halive : s.alive with
        | true =>
          exact canMove_of_outstanding hloop halive (h.posted.outstanding halive t ht)
        | false => exact ⟨.leave, by simp [Action.isOwn, halive], hloop⟩
    | resuming oldId i ticket rest =>
      cases halive : s.alive with
      | true =>
        refine canMove_of_outstanding hloop halive
          (h.posted.resuming halive oldId i ticket rest ?_)
        rw [hloop]
        rfl
      | false =>
        exact ⟨.resumeLost oldId i ticket rest, by simp [Action.isOwn, halive], hloop⟩
  | down => exact ⟨.decide false, rfl, hloop⟩
  | backoff => exact ⟨.dial true, rfl, hloop⟩
  | snapshotting =>
    exact ⟨.snapshot (s.resumable.entries.map fun e => (e.1, e.2)), rfl, hloop, List.Perm.refl _⟩
  | resuming rest =>
    cases rest with
    | nil => exact ⟨.resumed, rfl, hloop⟩
    | cons e rest => exact ⟨.resume e.1 e.2 rest true, rfl, hloop⟩
  | cleaning => exact ⟨.cleanup, rfl, hloop⟩
  | exited => exact absurd hloop hexit
  | _ => exact h.canMove_of_locked (by rw [hloop]; rfl)

/-- Whoever waits for an answer waits for somebody who can move. -/
theorem canMove_of_awaits (h : Live s) {ticket : ℕ} (hawaits : s.Awaits ticket)
    (hnone : s.answers ticket = none) : CanMove s := by
  have hwhere : ticket ∈ s.channel.map (·.1) ∨ ticket ∈ s.pending :=
    (h.posted.awaited ticket hawaits).resolve_left fun hne => hne hnone
  have hne : s.channel ≠ [] ∨ s.pending ≠ [] := by
    rcases hwhere with hmem | hmem
    · left
      rintro hnil
      rw [hnil] at hmem
      cases hmem
    · exact Or.inr (List.ne_nil_of_mem hmem)
  refine h.canMove_of_loop (fun hexit => ?_) fun _ => hne
  have hpending : s.pending = [] := h.posted.pending_eq_nil (by rw [hexit]; exact nofun)
  rcases hne with hne | hne
  · exact hne (h.posted.exited hexit).2
  · exact hne hpending

/-- Whoever waits for room in the request channel waits for somebody who can move. -/
theorem canMove_of_full (h : Live s) (hopen : s.closed = false) (hfull : ¬s.HasRoom) :
    CanMove s := by
  have hlength : ¬s.channel.length < capacity := fun hlt => hfull ⟨hopen, hlt⟩
  refine h.canMove_of_loop (fun hexit => ?_) fun _ => Or.inl ?_
  · cases hopen.symm.trans (h.posted.exited hexit).1
  · intro hnil
    rw [hnil] at hlength
    exact hlength (by decide)

/-- Until the cleanup of a dropped handle is over, somebody can move. -/
theorem canMove_of_stopper (h : Live s) {i : ℕ} (hidle : (s.streams i).stopper ≠ .idle)
    (hover : (s.streams i).stopper ≠ .done) : CanMove s := by
  have hok := h.wired.ok i
  cases hstopper : (s.streams i).stopper with
  | idle => exact absurd hstopper hidle
  | loading => exact ⟨.stopLoad i, rfl, hstopper⟩
  | loaded first => exact ⟨.stopReload i first, rfl, hstopper⟩
  | requesting ids =>
    cases ids with
    | nil => exact absurd hstopper hok.requesting
    | cons id ids =>
      by_cases hroom : s.HasRoom
      · exact ⟨.stopRequest i id ids, rfl, hstopper, hroom⟩
      · cases hclosed : s.closed with
        | true => exact ⟨.stopRefused i id ids, rfl, hstopper, Or.inr hclosed⟩
        | false => exact h.canMove_of_full hclosed hroom
  | awaiting ticket ids =>
    cases hanswer : s.answers ticket with
    | none => exact h.canMove_of_awaits (Or.inr (Or.inl ⟨i, ids, hstopper⟩)) hanswer
    | some answer =>
      exact ⟨.stopReceive i ticket ids, rfl, hstopper, by rw [hanswer]; exact nofun⟩
  | unregistering ids =>
    cases ids with
    | nil => exact absurd hstopper hok.removing
    | cons id ids =>
      cases hlock : s.loop.isUnlocked with
      | true => exact ⟨.stopUnregister i id ids, rfl, hstopper, hlock⟩
      | false => exact h.canMove_of_locked hlock
  | releasing => exact ⟨.stopRelease i, rfl, hstopper⟩
  | done => exact absurd hstopper hover

/-- Until the adapter of a dropped stream has removed its entry, somebody can move. -/
theorem canMove_of_adapter (h : Live s) {i : ℕ} (hdropped : (s.streams i).handle = .dropped)
    (hleaving : (s.streams i).adapter.isLeaving = true) : CanMove s := by
  cases hadapter : (s.streams i).adapter with
  | holding q => exact ⟨.adapterFail i q, rfl, hadapter, hdropped⟩
  | failing => exact ⟨.adapterLoad i, rfl, hadapter⟩
  | unregistering id =>
    cases hlock : s.loop.isUnlocked with
    | true => exact ⟨.adapterUnregister i id, rfl, hadapter, hlock⟩
    | false => exact h.canMove_of_locked hlock
  | _ =>
    rw [hadapter] at hleaving
    cases hleaving

end Live

theorem exec_draining {as : List Action} (hv : system.Valid init as)
    (hdrop : system.Along DropsInTime init as) :
    Bounded (system.exec init as) ∧ Draining (system.exec init as) :=
  Transition.System.invariant_along (I := fun s => Bounded s ∧ Draining s)
    (fun _ _ h hC ha => ⟨h.1.next ha, h.2.next h.1 hC ha⟩) ⟨bounded_init, draining_init⟩ hdrop hv

theorem exec_live {as : List Action} (hv : system.Valid init as)
    (hstop : system.Along StopsInTime init as) (hdrop : system.Along DropsInTime init as) :
    Live (system.exec init as) := by
  have hflow : Wired (system.exec init as) ∧ Flowing (system.exec init as) :=
    Transition.System.invariant_along (I := fun s => Wired s ∧ Flowing s)
      (fun _ _ h hC ha => ⟨h.1.next ha, h.2.next h.1 hC ha⟩) ⟨wired_init, flowing_init⟩ hstop hv
  obtain ⟨hb, hdraining⟩ := exec_draining hv hdrop
  exact ⟨hflow.1, exec_posted hv, hb, hflow.2, hdraining⟩

/-- The stream is dropped, and its cleanup task or its adapter has yet to remove its entry. -/
def CleaningUp (s : State) (i : ℕ) : Prop :=
  (s.streams i).handle = .dropped ∧
    ((s.streams i).stopper ≠ .idle ∧ (s.streams i).stopper ≠ .done ∨
      (s.streams i).adapter.isLeaving = true)

/-- **A drop in time does not wedge the connection.** In a run in which no handle is dropped while
the loop waits for its lagging stream, and no frame is read for a dropped stream that is lagging,
the loop and the adapter of a dropped stream never wait for each other. If no stop comes too late
either, then until the stream is cleaned up somebody can move. -/
theorem drop_not_wedged {as : List Action} (hv : system.Valid init as)
    (hdrop : system.Along DropsInTime init as) (i : ℕ) :
    ¬Wedged (system.exec init as) i ∧
      (system.Along StopsInTime init as → CleaningUp (system.exec init as) i →
        CanMove (system.exec init as)) := by
  have hdraining := (exec_draining hv hdrop).2
  refine ⟨hdraining.not_wedged i, fun hstop => ?_⟩
  have h := exec_live hv hstop hdrop
  rintro ⟨hdropped, ⟨hidle, hover⟩ | hleaving⟩
  · exact h.canMove_of_stopper hidle hover
  · exact h.canMove_of_adapter hdropped hleaving

set_option maxRecDepth 20000 in
/-- With both channels full, but no frame at the loop, a drop leaves the way free. -/
theorem drop_not_wedged_fullRun :
    ¬Wedged (system.exec init (fullRun ++ dropRun)) 0 ∧
      (system.Along StopsInTime init (fullRun ++ dropRun) →
        CleaningUp (system.exec init (fullRun ++ dropRun)) 0 →
          CanMove (system.exec init (fullRun ++ dropRun))) :=
  drop_not_wedged (by decide +kernel) (by decide +kernel) 0

end Lifecycle

end TitanClient
