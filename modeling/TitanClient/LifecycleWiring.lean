import TitanClient.LifecycleChanges

/-!
# What holds of every stream

The facts about a single stream that hold in every reachable state: it has channels, an adapter and
a handle once it is registered and not before, its stop sequence runs only once its owner has
stopped or dropped it, and its slot is not given back while it is in use. With them goes that only
registered streams are in the map or in the hands of the loop.

## Main results

* `Stream.Ok` — the facts about one stream
* `Wired`, `exec_wired` — they hold of all streams in every reachable state
-/

namespace TitanClient

namespace Lifecycle

/-! ## One stream -/

/-- What holds of every stream: nothing of it is there before it is registered; its adapter fails
only once the handle was dropped; its stop sequence has something to do until it is done, and runs
only for a handle that was stopped or dropped; its slot is given back only once it is stopped. -/
structure Stream.Ok (v : Stream) : Prop where
  unregistered : v.start ≠ .done → v.adapter = .none ∧ v.handle = .none ∧ v.stopper = .idle ∧
    v.raw = [] ∧ v.quotes = [] ∧ v.received = [] ∧ v.stopped = false
  registered : v.start = .done → v.adapter ≠ .none ∧ v.handle ≠ .none
  claimed : v.start ≠ .failed → v.slotReleased = true → v.stopped = true
  failing : v.adapter = .failing → v.handle = .dropped
  unregistering : ∀ id, v.adapter = .unregistering id → v.handle = .dropped
  requesting : v.stopper ≠ .requesting []
  awaiting : ∀ ticket, v.stopper ≠ .awaiting ticket []
  removing : v.stopper ≠ .unregistering []
  live : v.handle = .live → v.stopper = .idle
  given : v.handle ≠ .none → v.handle ≠ .live → v.stopped = true
  returned : v.handle = .stopped → v.stopper = .done
  released : v.stopper = .done → v.slotReleased = true

theorem stopNextId_ne (ids : List ℕ) : stopNextId ids ≠ .requesting [] := by
  cases ids with
  | nil => exact Stopper.noConfusion
  | cons id ids => simp [stopNextId]

/-- A stream that nothing has happened to. -/
theorem ok_fresh (t : ℕ) : ({ owner := t } : Stream).Ok where
  unregistered _ := ⟨rfl, rfl, rfl, rfl, rfl, rfl, rfl⟩
  registered := Start.noConfusion
  claimed _ := Bool.noConfusion
  failing := Adapter.noConfusion
  unregistering _ := Adapter.noConfusion
  requesting := Stopper.noConfusion
  awaiting _ := Stopper.noConfusion
  removing := Stopper.noConfusion
  live := Handle.noConfusion
  given h := absurd rfl h
  returned := Handle.noConfusion
  released := Stopper.noConfusion

namespace Stream.Ok

variable {v : Stream}

/-- A stream with an adapter, a handle or a stop sequence is registered. -/
theorem start_done (h : v.Ok) (hne : v.adapter ≠ .none ∨ v.handle ≠ .none ∨ v.stopper ≠ .idle) :
    v.start = .done := by
  by_contra hstart
  obtain ⟨ha, hh, hs, -⟩ := h.unregistered hstart
  rcases hne with hne | hne | hne
  · exact hne ha
  · exact hne hh
  · exact hne hs

/-- A stream with something in its channels is registered. -/
theorem start_done_of_raw (h : v.Ok) (hne : v.raw ≠ [] ∨ v.quotes ≠ []) : v.start = .done := by
  by_contra hstart
  obtain ⟨-, -, -, hr, hq, -⟩ := h.unregistered hstart
  rcases hne with hne | hne
  · exact hne hr
  · exact hne hq

/-- A start that has not come to its end moves on. -/
theorem setStart (h : v.Ok) (hv : v.start ≠ .done) {p : Start} (hp : p ≠ .done) (n : ℕ)
    {b : Bool} (hb : p ≠ .failed → b = false) :
    { v with start := p, since := n, slotReleased := b }.Ok :=
  { h with
    unregistered := fun _ => h.unregistered hv
    registered := fun hd => absurd hd hp
    claimed := fun hf hrel => by
      have hrel' : b = true := hrel
      rw [hb hf] at hrel'
      cases hrel'
    released := fun hd => by
      have hidle := (h.unregistered hv).2.2.1
      have hd' : v.stopper = .done := hd
      rw [hidle] at hd'
      cases hd' }

/-- The stop sequence moves on. -/
theorem setStopper (h : v.Ok) (hv : v.stopper ≠ .idle) (hdone : v.stopper ≠ .done) {p : Stopper}
    (hreq : p ≠ .requesting []) (hawait : ∀ ticket, p ≠ .awaiting ticket [])
    (hrem : p ≠ .unregistering []) (hp : p ≠ .done) : { v with stopper := p }.Ok :=
  { h with
    unregistered := fun hne => absurd (h.start_done (Or.inr (Or.inr hv))) hne
    requesting := hreq
    awaiting := hawait
    removing := hrem
    live := fun hl => absurd (h.live hl) hv
    returned := fun hs => absurd (h.returned hs) hdone
    released := fun hd => absurd hd hp }

/-- The adapter moves on. -/
theorem setAdapter (h : v.Ok) (hv : v.adapter ≠ .none) {p : Adapter} (hp : p ≠ .none)
    (hfail : p = .failing → v.handle = .dropped)
    (hunreg : ∀ id, p = .unregistering id → v.handle = .dropped) (raw : List Payload)
    (quotes : List ℕ) : { v with adapter := p, raw := raw, quotes := quotes }.Ok :=
  { h with
    unregistered := fun hne => absurd (h.start_done (Or.inl hv)) hne
    registered := fun hd => ⟨hp, (h.registered hd).2⟩
    failing := hfail
    unregistering := hunreg }

/-- The owner stops or drops its handle. -/
theorem setHandle (h : v.Ok) (hv : v.handle = .live) {p : Handle} (hp : p ≠ .none)
    (hlive : p ≠ .live) (hstopped : p ≠ .stopped) {g : Stopper} (hg : g = .idle ∨ g = .loading)
    (b : Bool) : { v with stopped := true, handle := p, stopper := g, slotReleased := b }.Ok where
  unregistered hne :=
    absurd (h.start_done (Or.inr (Or.inl (by rw [hv]; exact Handle.noConfusion)))) hne
  registered hd := ⟨(h.registered hd).1, hp⟩
  claimed _ _ := rfl
  failing ha := by
    rw [h.failing ha] at hv
    cases hv
  unregistering id ha := by
    rw [h.unregistering id ha] at hv
    cases hv
  requesting := by rcases hg with rfl | rfl <;> exact Stopper.noConfusion
  awaiting := by rcases hg with rfl | rfl <;> exact fun _ => Stopper.noConfusion
  removing := by rcases hg with rfl | rfl <;> exact Stopper.noConfusion
  live hl := absurd hl hlive
  given _ _ := rfl
  returned hs := absurd hs hstopped
  released hd := by rcases hg with rfl | rfl <;> cases hd

/-- The loop ends the stream. -/
theorem ended (h : v.Ok) (hv : v.start = .done) : v.ended.Ok :=
  { h with
    unregistered := fun hne => absurd hv hne
    claimed := fun _ _ => rfl
    given := fun _ _ => rfl
    released := fun _ => rfl }

/-- Whatever a step does to a stream leaves it in order. -/
theorem change {s : State} {i : ℕ} {a : Action} (h : (s.streams i).Ok)
    (hmapped : ∀ id, s.resumable.lookup id = some i → (s.streams i).start = .done)
    (hloop : ∀ j ∈ s.loop.streams, j = i → (s.streams i).start = .done)
    (hc : Change s i a v) : v.Ok := by
  have hslot : (s.streams i).start ≠ .done → (s.streams i).start ≠ .failed →
      (s.streams i).slotReleased = false := by
    intro hd hf
    have hstopped := (h.unregistered hd).2.2.2.2.2.2
    by_contra hrel
    rw [h.claimed hf (Bool.not_eq_false _ ▸ hrel)] at hstopped
    cases hstopped
  cases hc with
  | same => exact h
  | ended hlook => exact h.ended (hmapped _ hlook)
  | @begun t =>
    exact (ok_fresh t).setStart Start.noConfusion (p := .requesting) Start.noConfusion 0
      (fun _ => rfl)
  | requested hv =>
    have hne : (s.streams i).start ≠ .done := by simp [hv]
    exact h.setStart hne Start.noConfusion _ fun _ => hslot hne (by simp [hv])
  | startRefused hv =>
    have hne : (s.streams i).start ≠ .done := by simp [hv]
    exact h.setStart hne Start.noConfusion _ fun _ => hslot hne (by simp [hv])
  | answered hv =>
    have hne : (s.streams i).start ≠ .done := by simp [hv]
    exact h.setStart hne Start.noConfusion _ fun _ => hslot hne (by simp [hv])
  | denied hv =>
    have hne : (s.streams i).start ≠ .done := by simp [hv]
    exact h.setStart hne Start.noConfusion _ fun _ => hslot hne (by simp [hv])
  | registered hv =>
    have hne : (s.streams i).start ≠ .done := by simp [hv]
    have hidle := (h.unregistered hne).2.2.1
    have hunrel := hslot hne (by simp [hv])
    exact { h with
      unregistered := fun hne => absurd rfl hne
      registered := fun _ => ⟨Adapter.noConfusion, Handle.noConfusion⟩
      claimed := fun _ hrel => by
        have hrel' : (s.streams i).slotReleased = true := hrel
        rw [hunrel] at hrel'
        cases hrel'
      failing := Adapter.noConfusion
      unregistering := fun _ => Adapter.noConfusion
      live := fun _ => hidle
      given := fun _ hl => absurd rfl hl
      returned := Handle.noConfusion }
  | failed hv =>
    have hne : (s.streams i).start ≠ .done := by simp [hv]
    exact h.setStart hne Start.noConfusion _ fun hf => absurd rfl hf
  | received hhandle hq =>
    have hdone := h.start_done_of_raw (Or.inr (by simp [hq]))
    exact { h with unregistered := fun hne => absurd hdone hne }
  | stopped hv =>
    exact h.setHandle hv Handle.noConfusion Handle.noConfusion Handle.noConfusion (Or.inr rfl) _
  | dropped hv =>
    exact h.setHandle hv Handle.noConfusion Handle.noConfusion Handle.noConfusion (Or.inr rfl) _
  | droppedOutside hv =>
    have := h.setHandle hv (p := .dropped) Handle.noConfusion Handle.noConfusion
      Handle.noConfusion (Or.inl rfl) true
    rwa [← h.live hv] at this
  | droppedStopped hv =>
    have hdone := h.start_done (Or.inr (Or.inl (by rw [hv]; exact Handle.noConfusion)))
    exact { h with
      unregistered := fun hne => absurd hdone hne
      registered := fun hd => ⟨(h.registered hd).1, Handle.noConfusion⟩
      failing := fun _ => rfl
      unregistering := fun _ _ => rfl
      live := Handle.noConfusion
      given := fun _ _ => h.given (by simp [hv]) (by simp [hv])
      returned := Handle.noConfusion }
  | loaded hv =>
    exact h.setStopper (by simp [hv]) (by simp [hv]) Stopper.noConfusion
      (fun _ => Stopper.noConfusion) Stopper.noConfusion Stopper.noConfusion
  | reloaded hv =>
    exact h.setStopper (by simp [hv]) (by simp [hv]) (by simp [stopIds])
      (fun _ => Stopper.noConfusion) Stopper.noConfusion Stopper.noConfusion
  | stopRequested hv =>
    exact h.setStopper (by simp [hv]) (by simp [hv]) Stopper.noConfusion (by simp)
      Stopper.noConfusion Stopper.noConfusion
  | stopRefused hv =>
    exact h.setStopper (by simp [hv]) (by simp [hv]) Stopper.noConfusion
      (fun _ => Stopper.noConfusion) (by simp) Stopper.noConfusion
  | @stopReceived ticket ids hv =>
    refine h.setStopper (by simp [hv]) (by simp [hv]) Stopper.noConfusion
      (fun _ => Stopper.noConfusion) ?_ Stopper.noConfusion
    intro hnil
    exact h.awaiting ticket (by rw [hv, Stopper.unregistering.inj hnil])
  | @stopUnregistered id ids hv =>
    refine h.setStopper (by simp [hv]) (by simp [hv]) (stopNextId_ne ids) ?_ ?_ ?_
    · cases ids <;> exact fun _ => Stopper.noConfusion
    · cases ids <;> exact Stopper.noConfusion
    · cases ids <;> exact Stopper.noConfusion
  | stopReleased hv =>
    have hne : (s.streams i).handle ≠ .live := by
      intro hl
      rw [h.live hl] at hv
      cases hv
    have hdone := h.start_done (Or.inr (Or.inr (by simp [hv])))
    exact { h with
      unregistered := fun hne => absurd hdone hne
      claimed := fun _ _ => h.given (h.registered hdone).2 hne
      requesting := Stopper.noConfusion
      awaiting := fun _ => Stopper.noConfusion
      removing := Stopper.noConfusion
      live := fun hl => absurd hl hne
      returned := fun _ => rfl
      released := fun _ => rfl }
  | stopReturned hv hdone =>
    have hstart := h.start_done (Or.inr (Or.inl (by rw [hv]; exact Handle.noConfusion)))
    exact { h with
      unregistered := fun hne => absurd hstart hne
      registered := fun hd => ⟨(h.registered hd).1, Handle.noConfusion⟩
      failing := fun hf => by
        have := h.failing hf
        rw [hv] at this
        cases this
      unregistering := fun id hf => by
        have := h.unregistering id hf
        rw [hv] at this
        cases this
      live := Handle.noConfusion
      given := fun _ _ => h.given (by simp [hv]) (by simp [hv])
      returned := fun _ => hdone }
  | adapterTook hv =>
    exact h.setAdapter (by simp [hv]) Adapter.noConfusion Adapter.noConfusion
      (fun _ => Adapter.noConfusion) _ _
  | adapterSkipped hv =>
    exact h.setAdapter (by simp [hv]) (by simp [hv]) h.failing h.unregistering _ _
  | adapterForwarded hv =>
    exact h.setAdapter (by simp [hv]) Adapter.noConfusion Adapter.noConfusion
      (fun _ => Adapter.noConfusion) _ _
  | adapterFailed hv hhandle =>
    exact h.setAdapter (by simp [hv]) Adapter.noConfusion (fun _ => hhandle)
      (fun _ => Adapter.noConfusion) _ _
  | adapterLoaded hv =>
    exact h.setAdapter (by simp [hv]) Adapter.noConfusion Adapter.noConfusion
      (fun _ _ => h.failing hv) _ _
  | adapterUnregistered hv =>
    exact h.setAdapter (by simp [hv]) Adapter.noConfusion Adapter.noConfusion
      (fun _ => Adapter.noConfusion) _ _
  | adapterEnded hv =>
    exact h.setAdapter (by simp [hv]) Adapter.noConfusion Adapter.noConfusion
      (fun _ => Adapter.noConfusion) _ _
  | sentRaw hs =>
    have hdone := hloop i (by rw [hs]; exact List.mem_cons_self) rfl
    exact { h with unregistered := fun hne => absurd hdone hne }
  | stored hs =>
    have hdone := hloop i (by rw [hs]; exact List.mem_cons_self) rfl
    exact { h with unregistered := fun hne => absurd hdone hne }

end Stream.Ok

/-! ## All streams -/

/-- What holds of all streams in every reachable state. -/
structure Wired (s : State) : Prop where
  ok : ∀ i, (s.streams i).Ok
  mapped : ∀ id i, s.resumable.lookup id = some i → (s.streams i).start = .done
  inLoop : ∀ i ∈ s.loop.streams, (s.streams i).start = .done
  unused : ∀ i, s.streamCount ≤ i → s.streams i = {}
  stopping : ∀ t i, s.tasks t = .stopping i →
    (s.streams i).handle = .stopping ∧ (s.streams i).owner = t
  caller : ∀ i, (s.streams i).handle = .stopping → s.tasks (s.streams i).owner = .stopping i

/-- A start that has come to its end stays there. -/
theorem Change.done {s : State} {a : Action} {i : ℕ} {v : Stream} (hc : Change s i a v)
    (hlt : i < s.streamCount) (hi : (s.streams i).start = .done) : v.start = .done := by
  cases hc with
  | begun hcount => omega
  | requested h => simp [h] at hi
  | startRefused h => simp [h] at hi
  | answered h => simp [h] at hi
  | denied h => simp [h] at hi
  | registered => rfl
  | failed h => simp [h] at hi
  | _ => exact hi

/-- A stream keeps its owner. -/
theorem Change.owner {s : State} {a : Action} {i : ℕ} {v : Stream} (hc : Change s i a v)
    (hlt : i < s.streamCount) : v.owner = (s.streams i).owner := by
  cases hc with
  | begun hcount => omega
  | _ => rfl

/-- The handle is in the hands of `stop()` until that returns. -/
theorem Change.stopping {s : State} {a : Action} {i : ℕ} {v : Stream} (hc : Change s i a v)
    (hlt : i < s.streamCount) (hi : (s.streams i).handle = .stopping) (ha : a ≠ .stopReturn i)
    (hok : (s.streams i).Ok) : v.handle = .stopping := by
  have hdone : (s.streams i).start = .done :=
    hok.start_done (Or.inr (Or.inl (by rw [hi]; exact Handle.noConfusion)))
  cases hc with
  | begun hcount => omega
  | registered h => simp [hdone] at h
  | stopped h => simp [hi] at h
  | dropped h => simp [hi] at h
  | droppedOutside h => simp [hi] at h
  | droppedStopped h => simp [hi] at h
  | stopReturned => exact absurd rfl ha
  | _ => exact hi

/-- A handle is in the hands of `stop()` because the owner has just called it or because it was
before. -/
theorem Change.stopping_from {s : State} {a : Action} {i : ℕ} {v : Stream} (hc : Change s i a v)
    (hv : v.handle = .stopping) :
    a = .stop i ∨ (s.streams i).handle = .stopping := by
  cases hc with
  | stopped => exact Or.inl rfl
  | begun => cases hv
  | registered => cases hv
  | dropped => cases hv
  | droppedOutside => cases hv
  | droppedStopped => cases hv
  | stopReturned => cases hv
  | _ => exact Or.inr hv

/-- Nothing happens to a stream that has not begun. -/
theorem Change.unused {s : State} {a : Action} {i : ℕ} {v : Stream} (hc : Change s i a v)
    (hi : s.streams i = {}) (hmapped : ∀ id, s.resumable.lookup id ≠ some i)
    (hloop : i ∉ s.loop.streams) (hbegin : ∀ t, a ≠ .begin t) : v = {} := by
  cases hc with
  | same => exact hi
  | ended hlook => exact absurd hlook (hmapped _)
  | begun => exact absurd rfl (hbegin _)
  | sentRaw h => exact absurd (by rw [h]; exact List.mem_cons_self) hloop
  | stored h => exact absurd (by rw [h]; exact List.mem_cons_self) hloop
  | received _ h => simp [hi] at h
  | _ h => simp [hi] at h

/-- A task stops a stream because it did before or because it has just begun to. -/
theorem stopping_next {s : State} {a : Action} (ha : Enabled s a) {t i : ℕ}
    (h : (next s a).tasks t = .stopping i) :
    s.tasks t = .stopping i ∨ a = .stop i ∧ (s.streams i).owner = t := by
  have hc := taskChange ha t
  generalize (next s a).tasks t = p at h hc
  cases hc with
  | same => exact Or.inl h
  | stopping howner =>
    cases h
    exact Or.inr ⟨rfl, howner⟩
  | @collected ids => cases ids <;> cases h
  | @refused _ ids => cases ids <;> cases h
  | @received _ ids => cases ids <;> cases h
  | _ => cases h

theorem streamCount_next {s : State} {a : Action} (ha : ∀ t, a ≠ .begin t) :
    (next s a).streamCount = s.streamCount := by
  cases a with
  | begin t => exact absurd rfl (ha t)
  | receive i ticket a =>
    rw [next, receiveNext]
    split <;> rfl
  | fail i => rw [next, State.release_eq, State.setStream]
  | drop i runtime =>
    rw [next, dropNext]
    split
    · split
      · rfl
      · rw [State.release_eq, State.setStream]
    · rfl
  | stopRelease i => rw [next, State.release_eq, State.setStream]
  | adapterRecv i =>
    rw [next, adapterRecvNext]
    split <;> rfl
  | clear t => rw [next, State.endAll_eq, State.setTask]
  | dequeue sent =>
    rw [next, dequeueNext]
    split
    · rfl
    · split <;> rfl
  | read r m =>
    have ht := takeStep (s.taken m) r m
    rw [next]
    generalize (s.taken m).take r m = s' at ht
    cases ht with
    | answered =>
      rw [State.complete]
      split <;> rfl
    | refused =>
      rw [State.complete]
      split <;> rfl
    | ended => rw [State.removeAndEnd_eq, State.taken]
    | spent => rw [State.onEnd_eq, State.unregister, State.taken]
    | gaveUp => rw [State.giveUp, State.removeAndEnd_eq, State.taken]
    | _ => rfl
  | sendRaw r i payload =>
    rw [next]
    split <;> rfl
  | dial connected => cases connected <;> rfl
  | resume oldId i rest sent =>
    rw [next, resumeNext]
    split
    · rw [State.giveUp, State.removeAndEnd_eq]
    · split
      · rfl
      · rw [State.giveUp, State.removeAndEnd_eq]
  | cleanup => rw [next, State.endAll_eq, State.failAll, State.disconnected]
  | _ => rfl

namespace Wired

variable {s : State}

theorem lt_of_done (h : Wired s) {i : ℕ} (hi : (s.streams i).start = .done) :
    i < s.streamCount := by
  by_contra hlt
  rw [h.unused i (Nat.le_of_not_lt hlt)] at hi
  cases hi

theorem next (h : Wired s) {a : Action} (ha : Enabled s a) : Wired (next s a) := by
  have hdone : ∀ i, (s.streams i).start = .done → ((Lifecycle.next s a).streams i).start = .done :=
    fun i hi => (change ha i).done (h.lt_of_done hi) hi
  refine ⟨fun i => (h.ok i).change (fun id => h.mapped id i) (fun j hj hji => hji ▸ h.inLoop j hj)
    (change ha i), fun id i hlook => ?_, fun i hi => ?_, fun i hle => ?_, fun t i hti => ?_,
    fun i hi => ?_⟩
  · rcases lookup_next hlook with hlook | rfl | ⟨rest, rfl⟩
    · exact hdone i (h.mapped id i hlook)
    · simp [Lifecycle.next, registerNext]
    · have hi : i ∈ s.loop.streams := by
        rw [show s.loop = .inserting i id rest from ha]
        exact List.mem_cons_self
      exact hdone i (h.inLoop i hi)
  · rcases (loopChange ha).streams hi with hi | ⟨id, hlook⟩
    · exact hdone i (h.inLoop i hi)
    · exact hdone i (h.mapped id i hlook)
  · by_cases hbegin : ∃ t, a = .begin t
    · obtain ⟨t, rfl⟩ := hbegin
      have hle' : s.streamCount + 1 ≤ i := hle
      exact (State.setStream_streams_of_ne s (by omega) _).trans (h.unused i (by omega))
    · rw [streamCount_next fun t ht => hbegin ⟨t, ht⟩] at hle
      refine (change ha i).unused (h.unused i hle) (fun id hlook => ?_) (fun hi => ?_)
        fun t ht => hbegin ⟨t, ht⟩
      · have := h.lt_of_done (h.mapped id i hlook)
        omega
      · have := h.lt_of_done (h.inLoop i hi)
        omega
  · by_cases hreturn : a = .stopReturn i
    · subst hreturn
      by_cases ht : t = (s.streams i).owner
      · subst ht
        have hidle : (Lifecycle.next s (.stopReturn i)).tasks (s.streams i).owner = .idle :=
          Function.update_self ..
        rw [hidle] at hti
        cases hti
      · have hsame : (Lifecycle.next s (.stopReturn i)).tasks t = s.tasks t :=
          Function.update_of_ne ht ..
        rw [hsame] at hti
        exact absurd (h.stopping t i hti).2.symm ht
    · have hc := change ha i
      rcases stopping_next ha hti with hti | ⟨rfl, rfl⟩
      · obtain ⟨hhandle, howner⟩ := h.stopping t i hti
        have hlt := h.lt_of_done ((h.ok i).start_done
          (Or.inr (Or.inl (by rw [hhandle]; exact Handle.noConfusion))))
        exact ⟨hc.stopping hlt hhandle hreturn (h.ok i), (hc.owner hlt).trans howner⟩
      · simp [Lifecycle.next, State.setTask]
  · rcases (change ha i).stopping_from hi with rfl | hold
    · simp [Lifecycle.next, State.setTask]
    · have hreturn : a ≠ .stopReturn i := by
        rintro rfl
        simp [Lifecycle.next, State.setTask] at hi
      have hlt := h.lt_of_done ((h.ok i).start_done
        (Or.inr (Or.inl (by rw [hold]; exact Handle.noConfusion))))
      rw [(change ha i).owner hlt]
      have hc := taskChange ha (s.streams i).owner
      have htask := h.caller i hold
      generalize (Lifecycle.next s a).tasks (s.streams i).owner = p at hc
      cases hc with
      | same => exact htask
      | @returned j howner hj =>
        rw [htask, Task.stopping.injEq] at hj
        exact absurd (by rw [hj]) hreturn
      | stopping howner hidle => cases htask.symm.trans hidle
      | shutdown hidle => cases htask.symm.trans hidle
      | collected hcol => cases htask.symm.trans hcol
      | requested hreq => cases htask.symm.trans hreq
      | refused hreq => cases htask.symm.trans hreq
      | received hreq => cases htask.symm.trans hreq
      | cleared hreq => cases htask.symm.trans hreq
      | cancelled hreq => cases htask.symm.trans hreq

end Wired

theorem wired_init : Wired init where
  ok _ := ok_fresh 0
  mapped _ _ h := by cases h
  inLoop _ h := by cases h
  unused _ _ := rfl
  stopping _ _ h := by cases h
  caller _ h := by cases h

theorem exec_wired {as : List Action} (hv : system.Valid init as) : Wired (system.exec init as) :=
  Transition.System.invariant (fun _ _ h ha => h.next ha) wired_init hv

end Lifecycle

end TitanClient
