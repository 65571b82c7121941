import TitanClient.Neighbours

/-!
# Stopping a stream while its id changes

A stop sequence reads the current id of its stream twice and then takes out of the map whatever is
under the ids it has read and under the original id. `resume_streams` looks at the `stopped` flag,
stores the new id and puts the entry back under it. If both loads fall between the look at the flag
and the store, the stop sequence does not know the new id, and the entry stays.

If not, whatever the order of the steps: at the second load the entry is under an id on the list, or
the loop holds it and puts it back under one of them, and the stop sequence waits for the lock.

## Main results

* `stop_misses_new_id` — the entry that stays
* `late_loads_miss_new_id` — how it comes about
* `stop_unregisters` — otherwise no entry is left of a stream whose stop sequence is over
-/

namespace TitanClient

namespace Lifecycle

/-! ## What the stop sequence has yet to take out -/

/-- The ids under which a stop sequence has yet to take out the entry, once it has read them. -/
def Stopper.left : Stopper → Option (List ℕ)
  | .idle => none
  | .loading => none
  | .loaded _ => none
  | .requesting ids => some ids
  | .awaiting _ ids => some ids
  | .unregistering ids => some ids
  | .releasing => some []
  | .done => some []

/-- The second load of a stop sequence, with the stream and the result of the first. -/
def Action.reloads : Action → Option (ℕ × ℕ)
  | .stopReload i first => some (i, first)
  | _ => none

/-- No stop sequence reads the id of its stream for the second time while `resume_streams` is about
to store a new one that it does not get to know. -/
def LoadsInTime (s : State) (a : Action) : Prop :=
  ∀ e ∈ a.reloads, ∀ n ∈ s.loop.moving, n.1 = e.1 →
    n.2 ∈ stopIds e.2 (s.streams e.1).effectiveId (s.streams e.1).streamId

instance (s : State) (a : Action) : Decidable (LoadsInTime s a) :=
  inferInstanceAs (Decidable (∀ _ ∈ _, ∀ _ ∈ _, _ → _))

theorem Stopper.left_stopNextId (ids : List ℕ) : (stopNextId ids).left = some ids := by
  cases ids <;> rfl

theorem mem_stopIds_effectiveId (first current original : ℕ) :
    current ∈ stopIds first current original := by
  rw [mem_stopIds]
  exact List.mem_cons_of_mem _ List.mem_cons_self

/-- Once a stop sequence has read the ids of its stream, the entry is under one that it has yet to
deal with, or is about to be put back under one. -/
structure Caught (s : State) : Prop where
  mapped : ∀ i ids, (s.streams i).stopper.left = some ids →
    ∀ id, s.resumable.lookup id = some i → id ∈ ids
  moving : ∀ i ids, (s.streams i).stopper.left = some ids →
    ∀ n, s.loop.moving = some (i, n) → n ∈ ids

section

variable {s : State} {a : Action}

/-- A stream whose stop sequence has begun was stopped or dropped. -/
theorem Wired.isEnded_of_left (hw : Wired s) {i : ℕ} {ids : List ℕ}
    (h : (s.streams i).stopper.left = some ids) :
    (s.streams i).start = .done ∧ s.isEnded i = true := by
  have hne : (s.streams i).stopper ≠ .idle := by
    intro hidle
    rw [hidle] at h
    cases h
  have hdone := (hw.ok i).start_done (Or.inr (Or.inr hne))
  refine ⟨hdone, ?_⟩
  by_contra hkept
  have hlive := hw.live_of_kept hdone (Bool.eq_false_iff.mpr hkept)
  exact hne ((hw.ok i).live hlive)

/-- What a stop sequence has yet to take out was on its list before, unless it has just read the
ids; only the id it has just dealt with is off the list. -/
theorem left_next (ha : Enabled s a) {i : ℕ} {ids : List ℕ}
    (h : ((next s a).streams i).stopper.left = some ids) :
    (∃ ids', (s.streams i).stopper.left = some ids' ∧
      (ids' = ids ∨ ∃ id, a = .stopUnregister i id ids ∧ ids' = id :: ids)) ∨
      ∃ first, a = .stopReload i first ∧
        ids = stopIds first (s.streams i).effectiveId (s.streams i).streamId := by
  have hsame : ∀ {p : Stopper}, (s.streams i).stopper = p → p.left = some ids →
      (∃ ids', (s.streams i).stopper.left = some ids' ∧
        (ids' = ids ∨ ∃ id, a = .stopUnregister i id ids ∧ ids' = id :: ids)) ∨
        ∃ first, a = .stopReload i first ∧
          ids = stopIds first (s.streams i).effectiveId (s.streams i).streamId := by
    rintro p rfl hp
    exact Or.inl ⟨ids, hp, Or.inl rfl⟩
  have hc := change ha i
  generalize (next s a).streams i = v at h hc
  cases hc with
  | begun => cases h
  | stopped => cases h
  | dropped => cases h
  | loaded => cases h
  | @reloaded first =>
    cases h
    exact Or.inr ⟨first, rfl, rfl⟩
  | stopRequested hs => exact hsame hs h
  | stopRefused hs => exact hsame hs h
  | stopReceived hs => exact hsame hs h
  | @stopUnregistered id ids' hs =>
    have hleft : ({ s.streams i with stopper := stopNextId ids' } : Stream).stopper.left =
        some ids' := Stopper.left_stopNextId ids'
    rw [hleft, Option.some.injEq] at h
    subst h
    left
    rw [hs]
    exact ⟨_, rfl, Or.inr ⟨id, rfl, rfl⟩⟩
  | stopReleased hs => exact hsame hs h
  | stopReturned hs hdone =>
    exact Or.inl ⟨ids, h, Or.inl rfl⟩
  | _ => exact Or.inl ⟨ids, h, Or.inl rfl⟩

namespace Caught

theorem next (h : Caught s) (hw : Wired s) (hk : Keyed s) (hC : LoadsInTime s a)
    (ha : Enabled s a) : Caught (Lifecycle.next s a) := by
  -- What is under an id or about to be, before the step, is on the list after it.
  have hmapped : ∀ i ids, ((Lifecycle.next s a).streams i).stopper.left = some ids →
      ∀ id, s.resumable.lookup id = some i → id ∈ ids ∨ a = .stopUnregister i id ids := by
    intro i ids hleft id hlook
    rcases left_next ha hleft with ⟨ids', hold, rfl | ⟨id', rfl, rfl⟩⟩ | ⟨first, rfl, rfl⟩
    · exact Or.inl (h.mapped i ids' hold id hlook)
    · rcases List.mem_cons.mp (h.mapped i _ hold id hlook) with rfl | hmem
      · exact Or.inr rfl
      · exact Or.inl hmem
    · rw [← hk.keys id i hlook]
      exact Or.inl (mem_stopIds_effectiveId ..)
  have hmoving : ∀ i ids, ((Lifecycle.next s a).streams i).stopper.left = some ids →
      ∀ n, s.loop.moving = some (i, n) → n ∈ ids := by
    intro i ids hleft n hm
    rcases left_next ha hleft with ⟨ids', hold, rfl | ⟨id', rfl, rfl⟩⟩ | ⟨first, rfl, rfl⟩
    · exact h.moving i ids' hold n hm
    · have hunlocked : s.loop.isUnlocked = true := ha.2
      rw [Loop.moving_eq_none hunlocked] at hm
      cases hm
    · exact hC (i, first) rfl (i, n) hm rfl
  refine ⟨fun i ids hleft id hlook => ?_, fun i ids hleft n hm => ?_⟩
  · rcases lookup_next hlook with hold | rfl | ⟨rest, rfl⟩
    · rcases hmapped i ids hleft id hold with hmem | rfl
      · exact hmem
      · have herase : (s.resumable.erase id).lookup id = some i := hlook
        rw [AList.lookup_erase] at herase
        cases herase
    · have hstart := ha.1
      rcases left_next ha hleft with ⟨ids', hold, -⟩ | ⟨first, hr, -⟩
      · rw [(hw.isEnded_of_left hold).1] at hstart
        cases hstart
      · cases hr
    · have hl : s.loop = .inserting i id rest := ha
      exact hmoving i ids hleft id (by rw [hl]; rfl)
  · rcases (loopChange ha).moving hm with hold | ⟨oldId, j, ticket, rest, -, rfl, -, -, hkept⟩
    · exact hmoving i ids hleft n hold
    · rcases left_next ha hleft with ⟨ids', hold, -⟩ | ⟨first, hr, -⟩
      · rw [(hw.isEnded_of_left hold).2] at hkept
        cases hkept
      · cases hr

end Caught

end

theorem caught_init : Caught init where
  mapped _ _ _ _ h := by cases h
  moving _ _ _ _ h := by cases h

theorem exec_caught {as : List Action} (hv : system.Valid init as)
    (hC : system.Along LoadsInTime init as) : Caught (system.exec init as) :=
  (Transition.System.invariant_along (I := fun s => (Wired s ∧ Keyed s) ∧ Caught s)
    (fun _ _ h hC ha => ⟨⟨h.1.1.next ha, h.1.2.next h.1.1 ha⟩, h.2.next h.1.1 h.1.2 hC ha⟩)
    ⟨⟨wired_init, keyed_init⟩, caught_init⟩ hC hv).2

/-! ## Loads that come too late -/

/-- Stream `0` is to be resumed under `8`. The loop has looked at the `stopped` flag and is about to
store the new id when the owner calls `stop()`, which reads the old id twice. -/
def lateLoadRun : List Action :=
  startRun ++ [.leave, .decide false, .dial true, .snapshot [(7, 0)], .resume 7 0 [] true,
    .accept 1 0 8, .read (.resuming 7 0 1 []) (.response 1 (some 8)), .stop 0, .stopLoad 0,
    .stopReload 0 7, .store 0 8 [], .insert 0 8 [], .resumed, .stopRequest 0 7 [], .dequeue true,
    .carryOut 2 (.stopStream 7) true, .read .serving (.response 2 none), .stopReceive 0 2 [7],
    .stopUnregister 0 7 [], .stopRelease 0, .stopReturn 0]

set_option maxRecDepth 20000 in
/-- **The entry that stays.** `stop()` has returned and the loop is done with the resumption, and
the stream is still registered under its new id, and open under it on the server. -/
theorem stop_misses_new_id :
    system.Valid init lateLoadRun ∧
      ((system.exec init lateLoadRun).streams 0).handle = .stopped ∧
      (system.exec init lateLoadRun).loop = .reading .serving ∧
      (system.exec init lateLoadRun).resumable.lookup 8 = some 0 ∧
      (system.exec init lateLoadRun).openStreams = [(8, 0)] :=
  ⟨by decide, by decide, by decide, by decide, by decide⟩

/-- Whenever the second load falls into the gap, the entry is put back under an id that is not on
the list of the stop sequence. -/
theorem late_loads_miss_new_id {s : State} {i first newId : ℕ} {rest : List (ℕ × ℕ)}
    (hload : (s.streams i).stopper = .loaded first) (hl : s.loop = .storing i newId rest)
    (hmiss : newId ∉ stopIds first (s.streams i).effectiveId (s.streams i).streamId) :
    system.Valid s [.stopReload i first, .store i newId rest, .insert i newId rest] ∧
      ∃ ids, ((system.exec s [.stopReload i first, .store i newId rest,
          .insert i newId rest]).streams i).stopper = .requesting ids ∧
        (system.exec s [.stopReload i first, .store i newId rest,
          .insert i newId rest]).resumable.lookup newId = some i ∧ newId ∉ ids := by
  refine ⟨⟨hload, hl, rfl, trivial⟩, _, ?_, ?_, hmiss⟩
  · simp [system, next]
  · simp [system, next]

/-! ## Loads in time -/

/-- **A stopped stream is unregistered.** In every run in which no stop sequence reads the id of its
stream for the second time between the look at the `stopped` flag and the store of a new id that it
does not get to know, in every reachable state: once the stop sequence of a stream, run by `stop()`
or by the cleanup task of a dropped handle, is over, the stream has no entry, under whichever id,
and the loop is not about to put one back. -/
theorem stop_unregisters {as : List Action} (hv : system.Valid init as)
    (hC : system.Along LoadsInTime init as) {i : ℕ}
    (hdone : ((system.exec init as).streams i).stopper = .done) :
    (∀ id, (system.exec init as).resumable.lookup id ≠ some i) ∧
      ∀ newId, (system.exec init as).loop.moving ≠ some (i, newId) := by
  have h := exec_caught hv hC
  have hleft : ((system.exec init as).streams i).stopper.left = some [] := by
    rw [hdone]
    rfl
  refine ⟨fun id hlook => ?_, fun newId hm => ?_⟩
  · cases h.mapped i [] hleft id hlook
  · cases h.moving i [] hleft newId hm

/-- The stop sequence begins while the loop is about to store the new id, and its loads come after
the store. -/
def timelyRun : List Action :=
  startRun ++ [.leave, .decide false, .dial true, .snapshot [(7, 0)], .resume 7 0 [] true,
    .accept 1 0 8, .read (.resuming 7 0 1 []) (.response 1 (some 8)), .stop 0, .stopLoad 0,
    .store 0 8 [], .stopReload 0 7, .insert 0 8 [], .resumed, .stopRequest 0 7 [8], .dequeue true,
    .carryOut 2 (.stopStream 7) true, .read .serving (.response 2 none), .stopReceive 0 2 [7, 8],
    .stopUnregister 0 7 [8], .stopRequest 0 8 [], .dequeue true, .carryOut 3 (.stopStream 8) true,
    .read .serving (.response 3 none), .stopReceive 0 3 [8], .stopUnregister 0 8 [],
    .stopRelease 0, .stopReturn 0]

set_option maxRecDepth 20000 in
theorem stop_unregisters_timelyRun :
    ((system.exec init timelyRun).streams 0).stopper = .done ∧
      ((∀ id, (system.exec init timelyRun).resumable.lookup id ≠ some 0) ∧
        ∀ newId, (system.exec init timelyRun).loop.moving ≠ some (0, newId)) :=
  ⟨by decide, stop_unregisters (by decide) (by decide) (by decide)⟩

end Lifecycle

end TitanClient
