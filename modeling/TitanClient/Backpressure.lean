import TitanClient.LifecycleKeys
import TitanClient.LifecycleMail

/-!
# Backpressure and stopping

The loop waits for room in the raw channel of the stream a frame is for, and holds the read lock of
the map while it does. Room comes from the adapter, which waits for room in the quotes channel,
which comes from the owner. An owner who is in a call of `stop()` or `shutdown` takes no quotes, and
both calls wait for answers that only the loop can deliver and for the lock that the loop holds.

Between the loop and the owner there is room for `2 * capacity` frames and the one in the hands of
the adapter. So a call that begins while the loop waits behind that many frames never returns, and
neither does one during which such a frame is read.

## Main results

* `deadlocked_next` — a caller and a loop that wait for each other do so for ever
* `stop_not_deadlocked` — as long as the backlog is no longer than that, no caller comes to wait for
  a loop that waits for it
* `stop_deadlocks_behind_backlog` — one frame more, and `stop()` does
-/

namespace TitanClient

namespace Lifecycle

/-! ## The backlog of a stream -/

/-- The number of frames in the hands of the adapter. -/
def Adapter.held : Adapter → ℕ
  | .holding _ => 1
  | _ => 0

/-- The frames and quotes between the loop and the owner. -/
def Stream.undelivered (v : Stream) : ℕ := v.raw.length + v.adapter.held + v.quotes.length

/-- Nothing moves between the loop and the owner until the owner takes a quote or drops the
handle. -/
structure Stream.Clogged (v : Stream) : Prop where
  raw : capacity ≤ v.raw.length
  adapter : ∃ q, v.adapter = .holding q
  quotes : capacity ≤ v.quotes.length

theorem Stream.Clogged.undelivered {v : Stream} (h : v.Clogged) :
    2 * capacity < v.undelivered := by
  obtain ⟨q, hq⟩ := h.adapter
  have hraw := h.raw
  have hquotes := h.quotes
  rw [Stream.undelivered, hq, Adapter.held]
  omega

/-- The channels of all streams are within their capacity. -/
structure Bounded (s : State) : Prop where
  raw : ∀ i, (s.streams i).raw.length ≤ capacity
  quotes : ∀ i, (s.streams i).quotes.length ≤ capacity

theorem Bounded.next {s : State} (h : Bounded s) {a : Action} (ha : Enabled s a) :
    Bounded (next s a) := by
  constructor
  · intro i
    have hraw := h.raw i
    have hc := change ha i
    generalize (Lifecycle.next s a).streams i = v at hc
    cases hc with
    | begun => exact Nat.zero_le _
    | registered => exact Nat.zero_le _
    | adapterTook _ hcons =>
      rw [hcons, List.length_cons] at hraw
      exact Nat.le_of_succ_le hraw
    | adapterSkipped _ hcons =>
      rw [hcons, List.length_cons] at hraw
      exact Nat.le_of_succ_le hraw
    | sentRaw _ _ hroom =>
      rw [List.length_append, List.length_singleton]
      exact hroom
    | _ => exact hraw
  · intro i
    have hquotes := h.quotes i
    have hc := change ha i
    generalize (Lifecycle.next s a).streams i = v at hc
    cases hc with
    | begun => exact Nat.zero_le _
    | registered => exact Nat.zero_le _
    | received _ hcons =>
      rw [hcons, List.length_cons] at hquotes
      exact Nat.le_of_succ_le hquotes
    | adapterForwarded _ _ hroom =>
      rw [List.length_append, List.length_singleton]
      exact hroom
    | _ => exact hquotes

theorem bounded_init : Bounded init where
  raw _ := Nat.zero_le _
  quotes _ := Nat.zero_le _

/-- Only the loop adds to what is undelivered. -/
theorem Change.undelivered {s : State} {a : Action} {i : ℕ} {v : Stream} (hc : Change s i a v)
    (ha : ∀ r payload, a ≠ .sendRaw r i payload) :
    v.undelivered ≤ (s.streams i).undelivered := by
  cases hc with
  | begun => exact Nat.zero_le _
  | registered => exact Nat.zero_le _
  | received _ hcons =>
    simp only [Stream.undelivered, hcons, List.length_cons]
    omega
  | adapterTook hv hcons =>
    simp only [Stream.undelivered, Adapter.held, hv, hcons, List.length_cons]
    omega
  | adapterSkipped hv hcons =>
    simp only [Stream.undelivered, hcons, List.length_cons]
    omega
  | adapterForwarded hv =>
    simp only [Stream.undelivered, Adapter.held, hv, List.length_append, List.length_singleton]
    omega
  | adapterFailed hv =>
    simp only [Stream.undelivered, Adapter.held, hv]
    omega
  | adapterLoaded hv =>
    simp only [Stream.undelivered, Adapter.held]
    omega
  | adapterUnregistered hv =>
    simp only [Stream.undelivered, Adapter.held]
    omega
  | adapterEnded hv =>
    simp only [Stream.undelivered, Adapter.held]
    omega
  | sentRaw => exact absurd rfl (ha _ _)
  | _ => exact le_refl _

/-! ## Callers -/

/-- The task `t` is in a call of `stop()` or `shutdown` that still has to wait: for room in the
request channel, for an answer or for the lock of the map. -/
def InCall (s : State) (t : ℕ) : Prop :=
  match s.tasks t with
  | .idle => False
  | .cancelling => False
  | .stopping i => (s.streams i).stopper ≠ .releasing ∧ (s.streams i).stopper ≠ .done
  | _ => True

instance (s : State) (t : ℕ) : Decidable (InCall s t) :=
  match h : s.tasks t with
  | .idle => isFalse (by simp [InCall, h])
  | .cancelling => isFalse (by simp [InCall, h])
  | .stopping i =>
    decidable_of_iff ((s.streams i).stopper ≠ .releasing ∧ (s.streams i).stopper ≠ .done)
      (by simp [InCall, h])
  | .collecting => isTrue (by simp [InCall, h])
  | .requesting _ => isTrue (by simp [InCall, h])
  | .awaiting _ _ => isTrue (by simp [InCall, h])
  | .clearing => isTrue (by simp [InCall, h])

/-- The task `t` waits for the answer to a `StopStream` request, in `stop()` or in `shutdown`. -/
def AwaitsStop (s : State) (t : ℕ) : Prop :=
  ∃ ticket, s.answers ticket = none ∧
    ((∃ i ids, s.tasks t = .stopping i ∧ (s.streams i).stopper = .awaiting ticket ids) ∨
      ∃ ids, s.tasks t = .awaiting ticket ids)

/-- The loop waits for room that only the task `t` can make, by taking a quote. -/
def NeedsRecv (s : State) (t : ℕ) : Prop :=
  ∃ r i payload, s.loop = .sending r i payload ∧ (s.streams i).owner = t ∧
    (s.streams i).handle ≠ .dropped ∧ (s.streams i).Clogged

theorem AwaitsStop.inCall {s : State} {t : ℕ} (h : AwaitsStop s t) : InCall s t := by
  obtain ⟨ticket, -, ⟨i, ids, ht, hi⟩ | ⟨ids, ht⟩⟩ := h
  · simp [InCall, ht, hi]
  · simp [InCall, ht]

/-- A stop sequence that has nothing more to wait for comes to its end. -/
theorem Change.over {s : State} {a : Action} {i : ℕ} {v : Stream} (hc : Change s i a v)
    (hover : (s.streams i).stopper = .releasing ∨
      (s.streams i).stopper = .done) (hhandle : (s.streams i).handle ≠ .live)
    (hlt : i < s.streamCount) : v.stopper = .releasing ∨ v.stopper = .done := by
  have hne : ∀ {p : Stopper}, (s.streams i).stopper = p → p ≠ .releasing → p ≠ .done → False := by
    intro p hp hrel hdone
    rcases hover with hover | hover
    · exact hrel (hp.symm.trans hover)
    · exact hdone (hp.symm.trans hover)
  cases hc with
  | begun hcount => omega
  | stopped h => exact absurd h hhandle
  | dropped h => exact absurd h hhandle
  | loaded h => exact (hne h Stopper.noConfusion Stopper.noConfusion).elim
  | reloaded h => exact (hne h Stopper.noConfusion Stopper.noConfusion).elim
  | stopRequested h => exact (hne h Stopper.noConfusion Stopper.noConfusion).elim
  | stopRefused h => exact (hne h Stopper.noConfusion Stopper.noConfusion).elim
  | stopReceived h => exact (hne h Stopper.noConfusion Stopper.noConfusion).elim
  | stopUnregistered h => exact (hne h Stopper.noConfusion Stopper.noConfusion).elim
  | stopReleased => exact Or.inr rfl
  | _ => exact hover

/-- A task is in a call because it was before or because it has just begun one. -/
theorem inCall_next {s : State} (hw : Wired s) {a : Action} (ha : Enabled s a) {t : ℕ}
    (h : InCall (next s a) t) :
    InCall s t ∨ a = .shutdown t ∨ ∃ i, a = .stop i ∧ (s.streams i).owner = t := by
  have hc := taskChange ha t
  rw [InCall] at h
  generalize (next s a).tasks t = p at h hc
  cases hc with
  | same =>
    left
    rw [InCall]
    cases htask : s.tasks t with
    | idle =>
      rw [htask] at h
      exact h
    | cancelling =>
      rw [htask] at h
      exact h
    | stopping i =>
      rw [htask] at h
      have hhandle := (hw.stopping t i htask).1
      have hlt := hw.lt_of_done ((hw.ok i).start_done
        (Or.inr (Or.inl (by rw [hhandle]; exact Handle.noConfusion))))
      have hover := fun hover => (change ha i).over hover (by simp [hhandle]) hlt
      refine ⟨fun hrel => ?_, fun hdone => ?_⟩
      · exact (hover (Or.inl hrel)).elim h.1 h.2
      · exact (hover (Or.inr hdone)).elim h.1 h.2
    | _ => trivial
  | stopping howner => exact Or.inr (Or.inr ⟨_, rfl, howner⟩)
  | shutdown => exact Or.inr (Or.inl rfl)
  | returned => exact h.elim
  | cancelled => exact h.elim
  | cleared hold =>
    left
    simp [InCall, hold]
  | collected hold =>
    left
    simp [InCall, hold]
  | requested hold =>
    left
    simp [InCall, hold]
  | refused hold =>
    left
    simp [InCall, hold]
  | received hold =>
    left
    simp [InCall, hold]

/-! ## A backlog of one frame too many -/

/-- The server sends a quote and the loop passes it on to the adapter of stream `0`. -/
def quoteRun (q : ℕ) : List Action :=
  [.serverSend (.data 7 (.quotes q)), .read .serving (.data 7 (.quotes q)),
    .sendRaw .serving 0 (.quotes q)]

/-- The quotes with the given numbers reach the quotes channel. -/
def forwardRun (qs : List ℕ) : List Action :=
  qs.flatMap fun q => quoteRun q ++ [.adapterRecv 0, .adapterForward 0 q]

/-- Both channels of stream `0` are full and the adapter holds a quote. -/
def fullRun : List Action :=
  startRun ++ forwardRun (List.range 32) ++ quoteRun 32 ++ [.adapterRecv 0] ++
    (List.range' 33 32).flatMap quoteRun

/-- One quote more is read by the loop. -/
def backlogRun : List Action :=
  fullRun ++ [.serverSend (.data 7 (.quotes 65)), .read .serving (.data 7 (.quotes 65))]

/-- The owner of stream `0` calls `stop()`, which sends its first request. -/
def stopRun : List Action := [.stop 0, .stopLoad 0, .stopReload 0 7, .stopRequest 0 7 []]

set_option maxRecDepth 20000 in
/-- The owner stops a stream behind a backlog of 66 quotes: it waits for its `StopStream` response,
and the loop waits for room that only the owner can make. -/
theorem stop_deadlocks_behind_backlog :
    system.Valid init (backlogRun ++ stopRun) ∧
      ∃ t, AwaitsStop (system.exec init (backlogRun ++ stopRun)) t ∧
        NeedsRecv (system.exec init (backlogRun ++ stopRun)) t := by
  refine ⟨by decide +kernel, 0, ⟨1, by decide +kernel, Or.inl ⟨0, [7], ?_, ?_⟩⟩,
    .serving, 0, .quotes 65, ?_, ?_, ?_, ?_, ⟨32, ?_⟩, ?_⟩
  all_goals decide +kernel

/-! ## No deadlock while the backlog fits -/

/-- The loop waits behind more than `2 * capacity` frames that only the task `t` can take. -/
def Backlogged (s : State) (t : ℕ) : Prop :=
  match s.loop with
  | .sending _ i _ => (s.streams i).owner = t ∧ (s.streams i).handle ≠ .dropped ∧
      2 * capacity < (s.streams i).undelivered
  | _ => False

instance (s : State) (t : ℕ) : Decidable (Backlogged s t) :=
  match h : s.loop with
  | .sending _ i _ =>
    decidable_of_iff ((s.streams i).owner = t ∧ (s.streams i).handle ≠ .dropped ∧
      2 * capacity < (s.streams i).undelivered) (by simp [Backlogged, h])
  | .reading _ => isFalse (by simp [Backlogged, h])
  | .down => isFalse (by simp [Backlogged, h])
  | .backoff => isFalse (by simp [Backlogged, h])
  | .snapshotting => isFalse (by simp [Backlogged, h])
  | .resuming _ => isFalse (by simp [Backlogged, h])
  | .storing _ _ _ => isFalse (by simp [Backlogged, h])
  | .inserting _ _ _ => isFalse (by simp [Backlogged, h])
  | .cleaning => isFalse (by simp [Backlogged, h])
  | .exited => isFalse (by simp [Backlogged, h])

/-- The task that begins a call of `stop()` or `shutdown`. -/
def Action.caller (s : State) : Action → Option ℕ
  | .stop i => some (s.streams i).owner
  | .shutdown t => some t
  | _ => none

/-- The stream id of the data frame that the loop reads. -/
def Action.dataId : Action → Option ℕ
  | .read _ (.data id _) => some id
  | _ => none

/-- No call begins while the loop waits behind such a backlog, and no frame is read for a stream
with such a backlog while its owner is in a call. -/
def StopsInTime (s : State) (a : Action) : Prop :=
  (∀ t ∈ a.caller s, ¬Backlogged s t) ∧
    ∀ id ∈ a.dataId, ∀ i ∈ s.resumable.lookup id, (s.streams i).handle ≠ .dropped →
      InCall s (s.streams i).owner → (s.streams i).undelivered ≤ 2 * capacity

instance (s : State) (a : Action) : Decidable (StopsInTime s a) :=
  inferInstanceAs (Decidable (_ ∧ _))

/-- While the loop waits for room in the raw channel of a stream whose owner is in a call, the
backlog of the stream leaves some room. -/
def Flowing (s : State) : Prop :=
  ∀ r i payload, s.loop = .sending r i payload → (s.streams i).handle ≠ .dropped →
    InCall s (s.streams i).owner → (s.streams i).undelivered ≤ 2 * capacity

/-- A dropped handle stays dropped. -/
theorem Change.dropped_stays {s : State} {a : Action} {i : ℕ} {v : Stream} (hc : Change s i a v)
    (hdone : (s.streams i).start = .done) (hlt : i < s.streamCount)
    (hi : (s.streams i).handle = .dropped) : v.handle = .dropped := by
  cases hc with
  | begun hcount => omega
  | registered h => cases hdone.symm.trans h
  | stopped h => cases hi.symm.trans h
  | dropped => rfl
  | droppedOutside => rfl
  | droppedStopped => rfl
  | stopReturned h => cases hi.symm.trans h
  | _ => exact hi

theorem Flowing.next {s : State} (h : Flowing s) (hw : Wired s) {a : Action}
    (hC : StopsInTime s a) (ha : Enabled s a) : Flowing (next s a) := by
  intro r i payload hloop hhandle hcall
  rcases (loopChange ha).sending hloop with hold | ⟨id, rfl, hlook⟩
  · -- The loop waits already, so the backlog has not grown; the call may be new.
    have hdone := hw.inLoop i (by rw [hold]; exact List.mem_cons_self)
    have hlt := hw.lt_of_done hdone
    have hc := change ha i
    have hnodrop : (s.streams i).handle ≠ .dropped :=
      fun hd => hhandle (hc.dropped_stays hdone hlt hd)
    have hsend : ∀ r' p', a ≠ .sendRaw r' i p' := by
      rintro r' p' rfl
      have hcl := loopChange ha
      generalize (Lifecycle.next s (.sendRaw r' i p')).loop = l at hcl hloop
      cases hcl with
      | same hstill => cases hstill
      | sent => cases hloop
    have hbacklog : ∀ {t}, (s.streams i).owner = t → ¬Backlogged s t →
        (s.streams i).undelivered ≤ 2 * capacity := by
      intro t howner hnot
      rw [Backlogged, hold] at hnot
      by_contra hlong
      exact hnot ⟨howner, hnodrop, Nat.not_le.mp hlong⟩
    rw [hc.owner hlt] at hcall
    refine le_trans (hc.undelivered hsend) ?_
    rcases inCall_next hw ha hcall with hin | rfl | ⟨j, rfl, howner⟩
    · exact h r i payload hold hnodrop hin
    · exact hbacklog rfl (hC.1 _ rfl)
    · exact hbacklog howner.symm (hC.1 _ rfl)
  · have hlt := hw.lt_of_done (hw.mapped id i hlook)
    have hdone := hw.mapped id i hlook
    have hc := change ha i
    have hnodrop : (s.streams i).handle ≠ .dropped :=
      fun hd => hhandle (hc.dropped_stays hdone hlt hd)
    rw [hc.owner hlt] at hcall
    refine le_trans (hc.undelivered nofun) ?_
    rcases inCall_next hw ha hcall with hin | hbegin | ⟨j, hbegin, -⟩
    · exact hC.2 id rfl i hlook hnodrop hin
    · cases hbegin
    · cases hbegin

/-- No caller waits while the loop waits for room that only the caller can make. -/
theorem Flowing.not_deadlocked {s : State} (h : Flowing s) (t : ℕ) :
    ¬(InCall s t ∧ NeedsRecv s t) := by
  rintro ⟨hcall, r, i, payload, hloop, howner, hhandle, hclogged⟩
  have hle := h r i payload hloop hhandle (howner.symm ▸ hcall)
  exact absurd hclogged.undelivered (Nat.not_lt.mpr hle)

theorem flowing_init : Flowing init := by
  intro r i payload h
  cases h

/-- **An orderly stop does not deadlock while the backlog fits.** In a run in which no call begins
behind more than `2 * capacity` undelivered frames and none is overtaken by such a backlog, no
caller waits for its answer while the loop waits for room that only the caller can make. -/
theorem stop_not_deadlocked {as : List Action} (hv : system.Valid init as)
    (hC : system.Along StopsInTime init as) (t : ℕ) :
    ¬(AwaitsStop (system.exec init as) t ∧ NeedsRecv (system.exec init as) t) ∧
      ¬(InCall (system.exec init as) t ∧ NeedsRecv (system.exec init as) t) := by
  have hinv : Wired (system.exec init as) ∧ Flowing (system.exec init as) :=
    Transition.System.invariant_along (I := fun s => Wired s ∧ Flowing s)
      (fun _ _ h hC ha => ⟨h.1.next ha, h.2.next h.1 hC ha⟩) ⟨wired_init, flowing_init⟩ hC hv
  have hnot := hinv.2.not_deadlocked t
  exact ⟨fun h => hnot ⟨h.1.inCall, h.2⟩, hnot⟩

set_option maxRecDepth 20000 in
/-- With both channels full, but no frame at the loop, the owner waits for its answer alone. -/
theorem stop_not_deadlocked_fullRun :
    ¬(AwaitsStop (system.exec init (fullRun ++ stopRun)) 0 ∧
      NeedsRecv (system.exec init (fullRun ++ stopRun)) 0) :=
  (stop_not_deadlocked (by decide +kernel) (by decide +kernel) 0).1

/-! ## The deadlock -/

/-- The loop keeps waiting for a clogged stream whose owner is in a call. -/
private theorem needsRecv_next {s : State} (hw : Wired s) {t : ℕ} (hcall : InCall s t)
    (h : NeedsRecv s t) {a : Action} (ha : Enabled s a) : NeedsRecv (next s a) t := by
  obtain ⟨r, i, payload, hloop, rfl, hhandle, hclogged⟩ := h
  obtain ⟨q, hq⟩ := hclogged.adapter
  have hbusy : s.tasks (s.streams i).owner ≠ .idle := by
    intro hidle
    rw [InCall, hidle] at hcall
    exact hcall
  have hdone := hw.inLoop i (by rw [hloop]; exact List.mem_cons_self)
  have hlt := hw.lt_of_done hdone
  have hraw : ¬(s.streams i).raw.length < capacity := Nat.not_lt.mpr hclogged.raw
  have hl : (next s a).loop = .sending r i payload := by
    have hc := loopChange ha
    generalize (next s a).loop = l at hc
    cases hc with
    | same => exact hloop
    | sent hsent =>
      cases hloop.symm.trans hsent
      rcases ha.2 with hexit | hroom
      · cases hq.symm.trans hexit
      · exact absurd hroom hraw
    | _ hother => cases hloop.symm.trans hother
  have hc := change ha i
  refine ⟨r, i, payload, hl, hc.owner hlt, ?_⟩
  generalize (next s a).streams i = v at hc
  cases hc with
  | same => exact ⟨hhandle, hclogged⟩
  | ended => exact ⟨hhandle, hclogged.raw, hclogged.adapter, hclogged.quotes⟩
  | begun hcount => omega
  | requested h => cases hdone.symm.trans h
  | startRefused h => cases hdone.symm.trans h
  | answered h => cases hdone.symm.trans h
  | denied h => cases hdone.symm.trans h
  | registered h => cases hdone.symm.trans h
  | failed h => cases hdone.symm.trans h
  | received => exact absurd ha.2.1 hbusy
  | stopped => exact absurd ha.2 hbusy
  | dropped => exact absurd ha.2 hbusy
  | droppedOutside => exact absurd ha.2 hbusy
  | droppedStopped => exact absurd ha.2 hbusy
  | stopReturned =>
    exact ⟨Handle.noConfusion, hclogged.raw, hclogged.adapter, hclogged.quotes⟩
  | adapterTook h => cases hq.symm.trans h
  | adapterSkipped h => cases hq.symm.trans h
  | adapterForwarded _ _ hroom => exact absurd hroom (Nat.not_lt.mpr hclogged.quotes)
  | adapterFailed _ h => exact absurd h hhandle
  | adapterLoaded h => cases hq.symm.trans h
  | adapterUnregistered h => cases hq.symm.trans h
  | adapterEnded h => cases hq.symm.trans h
  | sentRaw _ _ hroom => exact absurd hroom hraw
  | stored h => cases hloop.symm.trans h
  | _ => exact ⟨hhandle, hclogged.raw, hclogged.adapter, hclogged.quotes⟩

/-- A caller stays in its call while the loop holds the lock of a map that is not empty. -/
private theorem inCall_stays {s : State} {t : ℕ} (hcall : InCall s t)
    {r : Reading} {i : ℕ} {payload : Payload} (hloop : s.loop = .sending r i payload)
    {id : ℕ} (hlook : s.resumable.lookup id = some i) {a : Action} (ha : Enabled s a) :
    InCall (next s a) t := by
  have hlocked : s.loop.isUnlocked ≠ true := by
    rw [hloop]
    exact Bool.noConfusion
  have hc := taskChange ha t
  rw [InCall] at hcall ⊢
  generalize (next s a).tasks t = p at hc
  cases hc with
  | same =>
    cases htask : s.tasks t with
    | stopping j =>
      rw [htask] at hcall
      have hcj := change ha j
      change ((next s a).streams j).stopper ≠ _ ∧ ((next s a).streams j).stopper ≠ _
      generalize (next s a).streams j = v at hcj
      cases hcj with
      | stopReleased h => exact absurd h hcall.1
      | stopUnregistered => exact absurd ha.2 hlocked
      | begun => exact ⟨Stopper.noConfusion, Stopper.noConfusion⟩
      | stopped => exact ⟨Stopper.noConfusion, Stopper.noConfusion⟩
      | dropped => exact ⟨Stopper.noConfusion, Stopper.noConfusion⟩
      | loaded => exact ⟨Stopper.noConfusion, Stopper.noConfusion⟩
      | reloaded => exact ⟨Stopper.noConfusion, Stopper.noConfusion⟩
      | stopRequested => exact ⟨Stopper.noConfusion, Stopper.noConfusion⟩
      | stopRefused => exact ⟨Stopper.noConfusion, Stopper.noConfusion⟩
      | stopReceived => exact ⟨Stopper.noConfusion, Stopper.noConfusion⟩
      | _ => exact hcall
    | idle =>
      rw [htask] at hcall
      exact hcall
    | cancelling =>
      rw [htask] at hcall
      exact hcall
    | _ => trivial
  | stopping h hidle =>
    rw [hidle] at hcall
    exact hcall.elim
  | @returned j howner h =>
    rw [h] at hcall
    exact absurd ha.2.2 hcall.2
  | shutdown hidle =>
    rw [hidle] at hcall
    exact hcall.elim
  | @collected ids h hperm =>
    cases ids with
    | nil =>
      -- The map is not empty, so neither are the ids collected from it.
      have hmem : id ∈ s.resumable.keys :=
        AList.mem_keys.mpr (AList.lookup_isSome.mp (by rw [hlook]; rfl))
      rw [← hperm.mem_iff] at hmem
      cases hmem
    | cons k ids => trivial
  | requested => trivial
  | @refused k ids => cases ids <;> trivial
  | @received ticket ids => cases ids <;> trivial
  | cleared => exact absurd ha.2 hlocked
  | cancelled h =>
    rw [h] at hcall
    exact hcall.elim

/-- **The deadlock is for ever.** A caller who waits for the loop, and a loop that waits for the
caller, are still there after any step of anybody. -/
theorem deadlocked_next {s : State} (hw : Wired s) (hlocated : Located s) {t : ℕ}
    (h : InCall s t ∧ NeedsRecv s t) {a : Action} (ha : Enabled s a) :
    InCall (next s a) t ∧ NeedsRecv (next s a) t := by
  obtain ⟨hcall, hneeds⟩ := h
  obtain ⟨r, i, payload, hloop, -⟩ := id hneeds
  obtain ⟨id, hlook⟩ := hlocated r i payload hloop
  exact ⟨inCall_stays hcall hloop hlook ha, needsRecv_next hw hcall hneeds ha⟩

end Lifecycle

end TitanClient
