import TitanClient.LifecycleSlots
import TitanClient.Neighbours

/-!
# Streams the connection gives up on

The entry of a stream leaves the map in many ways: with a `StreamEnd`, with a resumption that fails
or comes too late, with the drained map of `stop_all_streams` or of the final cleanup, and with
`unregister_stream`. All of them but the last call `on_end` and so give the slot back; the last is
for the stop sequence of the stream and for the adapter of a dropped handle.

`unregister_stream` takes an id. So does everything else, and an entry put under an id replaces the
one that was there. The slot of a stream would be lost if another stream got at its entry, and what
rules that out is that the server never hands out an id a second time.

## Main results

* `State.Holds`, `Unreused` — the ids that have ever been a stream's, which no two streams share
* `entry_next` — the ways in which an entry leaves the map
* `given_up_returns_slot` — a stream without entry has given its slot back, unless its owner has
  stopped or dropped it
-/

namespace TitanClient

namespace Lifecycle

/-! ## Ids -/

/-- The stream id that the server hands out with a frame. -/
def Message.announced : Message → Option ℕ
  | .response _ stream => stream
  | _ => none

/-- The stream id that the server hands out in a step. -/
def Action.announced : Action → Option ℕ
  | .accept _ _ id => some id
  | .serverSend m => m.announced
  | _ => none

/-- The id has come to stream `i`: its start is about to register it, the loop moves its entry to
it, it is its current or its original id, or its stop sequence or its adapter holds on to it. -/
inductive State.Holds (s : State) (i id : ℕ) : Prop
  | starting (h : s.gapId i = some id)
  | moving (h : s.loop.moving = some (i, id))
  | current (hdone : (s.streams i).start = .done) (h : (s.streams i).effectiveId = id)
  | stopping (h : id ∈ (s.streams i).toStop)
  | unregistering (h : (s.streams i).adapter = .unregistering id)

section

variable {s : State} {a : Action} {m : Mail}

/-- A registered stream has another current id than before only if it has just been registered under
it or resumed. -/
theorem current_next (ha : Enabled s a) {i : ℕ} (hdone : ((next s a).streams i).start = .done) :
    (s.streams i).start = .done ∧
        ((next s a).streams i).effectiveId = (s.streams i).effectiveId ∨
      a = .register i ((next s a).streams i).effectiveId ∨
        ∃ rest, a = .store i ((next s a).streams i).effectiveId rest := by
  have hc := change ha i
  generalize (next s a).streams i = v at hdone hc
  cases hc with
  | begun => cases hdone
  | requested => cases hdone
  | startRefused => cases hdone
  | answered => cases hdone
  | denied => cases hdone
  | registered => exact Or.inr (Or.inl rfl)
  | failed => cases hdone
  | stored => exact Or.inr (Or.inr ⟨_, rfl⟩)
  | _ => exact Or.inl ⟨hdone, rfl⟩

/-- An adapter is about to unregister an id because it was before, or because it has just read
it. -/
theorem unregistering_next (ha : Enabled s a) {i id : ℕ}
    (h : ((next s a).streams i).adapter = .unregistering id) :
    (s.streams i).adapter = .unregistering id ∨
      (s.streams i).adapter = .failing ∧ (s.streams i).effectiveId = id := by
  have hc := change ha i
  generalize (next s a).streams i = v at h hc
  cases hc with
  | begun => cases h
  | registered => cases h
  | adapterTook => cases h
  | adapterForwarded => cases h
  | adapterFailed => cases h
  | adapterLoaded hfail =>
    cases h
    exact Or.inr ⟨hfail, rfl⟩
  | adapterUnregistered => cases h
  | adapterEnded => cases h
  | _ => exact Or.inl h

/-- An id has come to a stream before, or with the response that has just been read. -/
theorem holds_next (hw : Wired s) (hp : Posted s) (hk : Keyed s) (ho : Orderly s)
    (hapart : ∀ i j id, s.Holds i id → s.Holds j id → i = j) (ha : Enabled s a) {i id : ℕ}
    (h : (next s a).Holds i id) :
    s.Holds i id ∨
      ∃ r ticket, a = .read r (.response ticket (some id)) ∧ s.Opening i ticket := by
  have hregister : a = .register i id → s.Holds i id := by
    rintro rfl
    refine .starting ?_
    rw [State.gapId, ha.1]
  have hstore : ∀ {rest}, a = .store i id rest → s.Holds i id := by
    rintro rest rfl
    refine .moving ?_
    rw [show s.loop = .storing i id rest from ha]
    rfl
  rcases h with hgap | hm | ⟨hdone, hid⟩ | hstop | hunreg
  · rcases gapId_next hp ha hgap with hold | ⟨r, ticket, rfl, hstart, hans⟩
    · exact Or.inl (.starting hold)
    · exact Or.inr ⟨r, ticket, rfl, Or.inl ⟨hstart, hans⟩⟩
  · rcases (loopChange ha).moving hm with hold | ⟨oldId, j, ticket, rest, hl, rfl, -, hlook, -⟩
    · exact Or.inl (.moving hold)
    · -- The stream whose turn it is still has the old id, and so has the one that was found under
      -- it.
      have hturn : s.loop.turn = some (oldId, j, ticket) := by
        rw [hl]
        rfl
      have hj := Loop.mem_snapshot_of_turn hturn
      have hij : i = j := by
        refine hapart i j oldId (.current (hw.mapped oldId i hlook) (hk.keys oldId i hlook)) ?_
        exact .current (hw.inLoop j (Loop.mem_streams_of_turn hturn)) (ho.ids (oldId, j) hj)
      rw [hij]
      exact Or.inr ⟨_, ticket, rfl, Or.inr (Loop.turn_map.mpr ⟨oldId, hturn⟩)⟩
  · left
    subst hid
    rcases current_next ha hdone with ⟨hold, hid⟩ | hr | ⟨rest, hr⟩
    · exact .current hold hid.symm
    · exact hregister hr
    · exact hstore hr
  · left
    rcases toStop_next hw ha hstop with hold | hr | ⟨rest, hr⟩
    · exact .stopping hold
    · exact hregister hr
    · exact hstore hr
  · left
    rcases unregistering_next ha hunreg with hold | ⟨hfail, hid⟩
    · exact .unregistering hold
    · refine .current ((hw.ok i).start_done (Or.inl ?_)) hid
      rw [hfail]
      exact Adapter.noConfusion

/-- The ids on the wire were there before, some of them may be gone, and the one just handed out
comes last. -/
theorem MailChange.announced (hc : MailChange s a m) :
    ∃ l, l.Sublist (s.wire.filterMap Message.announced) ∧
      m.wire.filterMap Message.announced = l ++ a.announced.toList := by
  have hsame : a.announced = none → m.wire = s.wire → ∃ l,
      l.Sublist (s.wire.filterMap Message.announced) ∧
        m.wire.filterMap Message.announced = l ++ a.announced.toList := by
    intro hnone hwire
    refine ⟨_, List.Sublist.refl _, ?_⟩
    rw [hnone, hwire, Option.toList_none, List.append_nil]
  have htail : ∃ l, l.Sublist (s.wire.filterMap Message.announced) ∧
      s.wire.tail.filterMap Message.announced = l ++ [] :=
    ⟨_, (List.tail_sublist _).filterMap _, (List.append_nil _).symm⟩
  have hempty : ∃ l, l.Sublist (s.wire.filterMap Message.announced) ∧
      ([] : List Message).filterMap Message.announced = l ++ [] := ⟨[], List.nil_sublist _, rfl⟩
  have hsent : ∀ f : Message, f.announced = a.announced → m.wire = s.wire ++ [f] → ∃ l,
      l.Sublist (s.wire.filterMap Message.announced) ∧
        m.wire.filterMap Message.announced = l ++ a.announced.toList := by
    intro f hf hwire
    refine ⟨_, List.Sublist.refl _, ?_⟩
    rw [hwire, List.filterMap_append, ← hf]
    rfl
  cases hc with
  | same hstill =>
    refine hsame ?_ rfl
    cases a with
    | accept => cases hstill
    | serverSend => cases hstill
    | _ => rfl
  | pushed hpushed =>
    refine hsame ?_ rfl
    cases a with
    | accept => cases hpushed
    | serverSend => cases hpushed
    | _ => rfl
  | taken => exact htail
  | completed => exact htail
  | dialled => exact hempty
  | resumeLost => exact hempty
  | cleaned => exact hempty
  | accepted => exact hsent _ rfl rfl
  | @carriedOut ticket r ok =>
    refine hsent (if ok then .response ticket none else .error ticket) ?_ rfl
    cases ok <;> rfl
  | serverSent => exact hsent _ rfl rfl
  | _ => exact hsame rfl rfl

/-- A frame that is read leaves the wire. -/
theorem MailChange.read {r : Reading} {f : Message} (hc : MailChange s (.read r f) m) :
    s.wire = f :: m.wire := by
  cases hc with
  | same hstill => cases hstill
  | pushed hpushed => cases hpushed
  | taken hl hhead => exact List.eq_cons_of_mem_head? hhead
  | completed hl hhead => exact List.eq_cons_of_mem_head? hhead

end

/-- With `ids` handed out so far: those on the wire are different, no stream has one of them yet,
and no two streams share one. -/
structure Unreused (ids : List ℕ) (s : State) : Prop where
  sent : ∀ id ∈ s.wire.filterMap Message.announced, id ∈ ids
  held : ∀ i id, s.Holds i id → id ∈ ids
  nodup : (s.wire.filterMap Message.announced).Nodup
  fresh : ∀ i id, s.Holds i id → id ∉ s.wire.filterMap Message.announced
  apart : ∀ i j id, s.Holds i id → s.Holds j id → i = j

/-- What the invariant of the ids rests on. -/
structure Sound (s : State) : Prop where
  wired : Wired s
  posted : Posted s
  keyed : Keyed s
  orderly : Orderly s
  ticketed : Ticketed s

theorem Sound.next {s : State} (h : Sound s) {a : Action} (ha : Enabled s a) :
    Sound (next s a) where
  wired := h.wired.next ha
  posted := h.posted.next ha
  keyed := h.keyed.next h.wired ha
  orderly := h.orderly.next h.wired h.keyed ha
  ticketed := h.ticketed.next h.posted ha

theorem sound_init : Sound init :=
  ⟨wired_init, posted_init, keyed_init, orderly_init, ticketed_init⟩

/-- A server that hands out an id for the first time keeps the ids apart. -/
theorem Unreused.next {ids : List ℕ} {s : State} (h : Unreused ids s) (hs : Sound s) {a : Action}
    (hnew : ∀ id ∈ a.announced, id ∉ ids) (ha : Enabled s a) :
    Unreused (ids ++ a.announced.toList) (next s a) := by
  obtain ⟨l, hl, hwire⟩ := (mailChange ha).announced
  change (Lifecycle.next s a).wire.filterMap Message.announced = _ at hwire
  have hheld : ∀ {i id}, (Lifecycle.next s a).Holds i id → s.Holds i id ∨
      ∃ r ticket, a = .read r (.response ticket (some id)) ∧ s.Opening i ticket :=
    fun hi => holds_next hs.wired hs.posted hs.keyed hs.orderly h.apart ha hi
  have hread : ∀ {r ticket id}, a = .read r (.response ticket (some id)) →
      s.wire.filterMap Message.announced =
        id :: (Lifecycle.next s a).wire.filterMap Message.announced := by
    rintro r ticket id rfl
    have hcons : s.wire = _ := (mailChange ha).read
    rw [hcons]
    rfl
  refine ⟨fun id hid => ?_, fun i id hi => ?_, ?_, fun i id hi hid => ?_,
    fun i j id hi hj => ?_⟩
  · rw [hwire] at hid
    rcases List.mem_append.mp hid with hid | hid
    · exact List.mem_append_left _ (h.sent id (hl.subset hid))
    · exact List.mem_append_right _ hid
  · rcases hheld hi with hold | ⟨r, ticket, hr, -⟩
    · exact List.mem_append_left _ (h.held i id hold)
    · refine List.mem_append_left _ (h.sent id ?_)
      rw [hread hr]
      exact List.mem_cons_self
  · rw [hwire, List.nodup_append]
    refine ⟨h.nodup.sublist hl, ?_, fun id hid id' hid' => ?_⟩
    · cases a.announced with
      | none => exact List.nodup_nil
      | some id => exact List.nodup_singleton id
    · rintro rfl
      exact hnew id (Option.mem_toList.mp hid') (h.sent id (hl.subset hid))
  · rcases hheld hi with hold | ⟨r, ticket, hr, -⟩
    · rw [hwire] at hid
      rcases List.mem_append.mp hid with hid | hid
      · exact h.fresh i id hold (hl.subset hid)
      · exact hnew id (Option.mem_toList.mp hid) (h.held i id hold)
    · have hnodup := h.nodup
      rw [hread hr, List.nodup_cons] at hnodup
      exact hnodup.1 hid
  · have hother : ∀ {k : ℕ}, s.Holds k id → ∀ {r ticket},
        a ≠ .read r (.response ticket (some id)) := by
      intro k hk r ticket hr
      refine h.fresh k id hk ?_
      rw [hread hr]
      exact List.mem_cons_self
    rcases hheld hi with hi | ⟨r, ticket, hr, hi⟩
    · rcases hheld hj with hj | ⟨r, ticket, hr, -⟩
      · exact h.apart i j id hi hj
      · exact absurd hr (hother hi)
    · rcases hheld hj with hj | ⟨r', ticket', hr', hj⟩
      · exact absurd hr (hother hj)
      · rw [hr] at hr'
        cases hr'
        exact hs.ticketed.unique i j ticket hi hj

theorem unreused_init : Unreused [] init := by
  have hnone : ∀ i id, ¬init.Holds i id := by
    rintro i id (h | h | h | h | h)
    · cases h
    · cases h
    · cases h
    · cases h
    · cases h
  exact ⟨fun _ h => (List.not_mem_nil h).elim, fun i id h => absurd h (hnone i id), List.nodup_nil,
    fun i id h => absurd h (hnone i id), fun i j id h => absurd h (hnone i id)⟩

/-! ## Entries -/

/-- Removing an id with its `on_end` leaves every other entry. -/
theorem State.removeAndEnd_entry {s : State} {id i : ℕ} (h : s.resumable.lookup id = some i)
    (k : ℕ) : (s.removeAndEnd k).resumable.lookup id = some i ∨
      ((s.removeAndEnd k).streams i).slotReleased = true := by
  rw [State.removeAndEnd_eq]
  by_cases hk : id = k
  · subst hk
    right
    change (if s.resumable.lookup id = some i then (s.streams i).ended
      else s.streams i).slotReleased = true
    rw [if_pos h]
    rfl
  · left
    change (s.resumable.erase k).lookup id = some i
    rwa [AList.lookup_erase_ne hk]

/-- Draining the map gives back the slot of everything in it. -/
theorem State.endAll_entry {s : State} {id i : ℕ} (h : s.resumable.lookup id = some i) :
    (s.endAll.streams i).slotReleased = true := by
  rw [State.endAll_eq]
  change (if i ∈ s.resumable.entries.map (·.2) then (s.streams i).ended
    else s.streams i).slotReleased = true
  have hmem : i ∈ s.resumable.entries.map (·.2) :=
    List.mem_map.mpr ⟨⟨id, i⟩, AList.mem_lookup_iff.mp h, rfl⟩
  rw [if_pos hmem]
  rfl

/-- The steps that put another entry in the place of the one under `id`. -/
def Action.puts (id : ℕ) : Action → Option ℕ
  | .register i k => if k = id then some i else none
  | .insert i k _ => if k = id then some i else none
  | _ => none

/-- The steps that take the entry under `id` out without its `on_end`. -/
def Action.unregisters (id : ℕ) : Action → Option ℕ
  | .stopUnregister i k _ => if k = id then some i else none
  | .adapterUnregister i k => if k = id then some i else none
  | _ => none

theorem Action.puts_eq_some {a : Action} {id i : ℕ} :
    a.puts id = some i ↔ a = .register i id ∨ ∃ rest, a = .insert i id rest := by
  constructor
  · intro h
    cases a with
    | register j k =>
      by_cases hk : k = id
      · simp only [puts, if_pos hk, Option.some.injEq] at h
        exact Or.inl (by rw [hk, h])
      · simp only [puts, if_neg hk] at h
        cases h
    | insert j k rest =>
      by_cases hk : k = id
      · simp only [puts, if_pos hk, Option.some.injEq] at h
        exact Or.inr ⟨rest, by rw [hk, h]⟩
      · simp only [puts, if_neg hk] at h
        cases h
    | _ => cases h
  · rintro (rfl | ⟨rest, rfl⟩)
    · exact if_pos rfl
    · exact if_pos rfl

theorem Action.unregisters_eq_some {a : Action} {id i : ℕ} :
    a.unregisters id = some i ↔
      (∃ ids, a = .stopUnregister i id ids) ∨ a = .adapterUnregister i id := by
  constructor
  · intro h
    cases a with
    | stopUnregister j k ids =>
      by_cases hk : k = id
      · simp only [unregisters, if_pos hk, Option.some.injEq] at h
        exact Or.inl ⟨ids, by rw [hk, h]⟩
      · simp only [unregisters, if_neg hk] at h
        cases h
    | adapterUnregister j k =>
      by_cases hk : k = id
      · simp only [unregisters, if_pos hk, Option.some.injEq] at h
        exact Or.inr (by rw [hk, h])
      · simp only [unregisters, if_neg hk] at h
        cases h
    | _ => cases h
  · rintro (⟨ids, rfl⟩ | rfl)
    · exact if_pos rfl
    · exact if_pos rfl

/-- What becomes of an entry: it stays, or its slot is given back with it, or the loop moves it, or
another takes its place, or it is unregistered. -/
theorem entry_next {s : State} {a : Action} (ha : Enabled s a) {id i : ℕ}
    (h : s.resumable.lookup id = some i) :
    ((next s a).resumable.lookup id = some i ∨ ((next s a).streams i).slotReleased = true) ∨
      (∃ n, (next s a).loop.moving = some (i, n)) ∨ (∃ j, a.puts id = some j) ∨
        ∃ j, a.unregisters id = some j := by
  have herase : ∀ {k : ℕ}, id ≠ k → (s.resumable.erase k).lookup id = some i := by
    intro k hk
    rwa [AList.lookup_erase_ne hk]
  cases a with
  | receive j ticket a =>
    rw [next, receiveNext]
    split <;> exact Or.inl (Or.inl h)
  | register j k =>
    by_cases hk : k = id
    · exact Or.inr (Or.inr (Or.inl ⟨j, if_pos hk⟩))
    · refine Or.inl (Or.inl ?_)
      rwa [next, registerNext, AList.lookup_insert_ne (Ne.symm hk)]
  | fail j => exact Or.inl (Or.inl (by rwa [next, State.release_resumable]))
  | drop j runtime =>
    rw [next, dropNext]
    split
    · split
      · exact Or.inl (Or.inl h)
      · exact Or.inl (Or.inl (by rwa [State.release_resumable]))
    · exact Or.inl (Or.inl h)
  | stopUnregister j k ids =>
    by_cases hk : k = id
    · exact Or.inr (Or.inr (Or.inr ⟨j, if_pos hk⟩))
    · exact Or.inl (Or.inl (herase (Ne.symm hk)))
  | stopRelease j => exact Or.inl (Or.inl (by rwa [next, State.release_resumable]))
  | adapterRecv j =>
    rw [next, adapterRecvNext]
    split <;> exact Or.inl (Or.inl h)
  | adapterUnregister j k =>
    by_cases hk : k = id
    · exact Or.inr (Or.inr (Or.inr ⟨j, if_pos hk⟩))
    · exact Or.inl (Or.inl (herase (Ne.symm hk)))
  | clear t => exact Or.inl (Or.inr (State.endAll_entry h))
  | dequeue sent =>
    rw [next, dequeueNext]
    split
    · exact Or.inl (Or.inl h)
    · split <;> exact Or.inl (Or.inl h)
  | read r m =>
    have htaken : (s.taken m).resumable.lookup id = some i := h
    have ht := takeStep (s.taken m) r m
    rw [next]
    generalize (s.taken m).take r m = s' at ht
    cases ht with
    | answered => exact Or.inl (Or.inl (by rwa [State.complete_resumable]))
    | refused => exact Or.inl (Or.inl (by rwa [State.complete_resumable]))
    | ended => exact Or.inl (State.removeAndEnd_entry htaken _)
    | @spent oldId _ _ _ j _ _ hlook =>
      left
      have hout := State.removeAndEnd_entry htaken oldId
      rwa [State.removeAndEnd, hlook] at hout
    | @moved oldId _ _ newId j _ _ hlook =>
      by_cases hk : id = oldId
      · subst hk
        have hij : s.resumable.lookup id = some j := hlook
        cases h.symm.trans hij
        exact Or.inr (Or.inl ⟨newId, rfl⟩)
      · exact Or.inl (Or.inl (herase hk))
    | @gaveUp oldId => exact Or.inl (State.removeAndEnd_entry htaken oldId)
    | _ => exact Or.inl (Or.inl h)
  | sendRaw r j payload =>
    rw [next]
    split <;> exact Or.inl (Or.inl h)
  | dial connected => cases connected <;> exact Or.inl (Or.inl h)
  | resume oldId j rest sent =>
    rw [next, resumeNext]
    split
    · exact Or.inl (State.removeAndEnd_entry h oldId)
    · split
      · exact Or.inl (Or.inl h)
      · exact Or.inl (State.removeAndEnd_entry h oldId)
  | insert j k rest =>
    by_cases hk : k = id
    · exact Or.inr (Or.inr (Or.inl ⟨j, if_pos hk⟩))
    · exact Or.inl (Or.inl (by rwa [next, AList.lookup_insert_ne (Ne.symm hk)]))
  | cleanup => exact Or.inl (Or.inr (State.endAll_entry h))
  | _ => exact Or.inl (Or.inl h)

/-! ## Slots -/

/-- The stream is in the hands of its owner and holds its slot. -/
structure Stream.Held (v : Stream) : Prop where
  registered : v.start = .done
  live : v.handle = .live
  unreleased : v.slotReleased = false

/-- A stream is held because it has just been registered or because it was before. -/
theorem held_next {s : State} {a : Action} (ha : Enabled s a) {i : ℕ}
    (h : ((next s a).streams i).Held) : (∃ id, a = .register i id) ∨ (s.streams i).Held := by
  have hc := change ha i
  generalize (next s a).streams i = v at h hc
  obtain ⟨hdone, hlive, hrel⟩ := h
  cases hc with
  | ended => cases hrel
  | begun => cases hdone
  | requested => cases hdone
  | startRefused => cases hdone
  | answered => cases hdone
  | denied => cases hdone
  | registered => exact Or.inl ⟨_, rfl⟩
  | failed => cases hdone
  | stopped => cases hlive
  | dropped => cases hlive
  | droppedOutside => cases hlive
  | droppedStopped => cases hlive
  | stopReleased => cases hrel
  | stopReturned => cases hlive
  | _ => exact Or.inr ⟨hdone, hlive, hrel⟩

/-- A stream that is held has its entry, or the loop is moving it; and once its adapter has gone it
is not held any more. -/
structure Backed (s : State) : Prop where
  entry : ∀ i, (s.streams i).Held →
    (∃ id, s.resumable.lookup id = some i) ∨ ∃ n, s.loop.moving = some (i, n)
  adapter : ∀ i, (s.streams i).Held → (s.streams i).adapter ≠ .exited

section

variable {s : State} {a : Action}

/-- Nobody else gets at the entry of a stream. -/
theorem own_entry {ids : List ℕ} (hu : Unreused ids s) (hs : Sound s) (ha : Enabled s a)
    {i j id : ℕ} (hlook : s.resumable.lookup id = some i)
    (hj : a.puts id = some j ∨ a.unregisters id = some j) : j = i := by
  have hi : s.Holds i id := .current (hs.wired.mapped id i hlook) (hs.keyed.keys id i hlook)
  refine hu.apart j i id ?_ hi
  rcases hj with hj | hj
  · rcases Action.puts_eq_some.mp hj with rfl | ⟨rest, rfl⟩
    · refine .starting ?_
      rw [State.gapId, ha.1]
    · refine .moving ?_
      rw [show s.loop = .inserting j id rest from ha]
      rfl
  · rcases Action.unregisters_eq_some.mp hj with ⟨ids, rfl⟩ | rfl
    · refine .stopping ?_
      rw [Stream.toStop, ha.1]
      exact List.mem_cons_self
    · exact .unregistering ha.1

/-- The owner of a stream that is unregistered has stopped or dropped it. -/
theorem unregisters_not_live (hw : Wired s) (ha : Enabled s a) {i id : ℕ}
    (h : a.unregisters id = some i) : (s.streams i).handle ≠ .live := by
  intro hlive
  rcases Action.unregisters_eq_some.mp h with ⟨ids, rfl⟩ | rfl
  · cases ((hw.ok i).live hlive).symm.trans ha.1
  · cases ((hw.ok i).unregistering id ha.1).symm.trans hlive

/-- An entry that is being moved is put back. -/
theorem moving_next (ha : Enabled s a) {i n : ℕ} (h : s.loop.moving = some (i, n)) :
    (next s a).loop.moving = some (i, n) ∨ ∃ rest, a = .insert i n rest := by
  have hc := loopChange ha
  generalize (next s a).loop = l at hc
  cases hc with
  | same => exact Or.inl h
  | stored hl =>
    rw [hl] at h
    exact Or.inl h
  | inserted hl =>
    rw [hl] at h
    cases h
    exact Or.inr ⟨_, rfl⟩
  | _ hl =>
    rw [hl] at h
    cases h

namespace Backed

private theorem next_entry (h : Backed s) {ids : List ℕ} (hu : Unreused ids s) (hs : Sound s)
    (ha : Enabled s a) (i : ℕ) (hheld : ((next s a).streams i).Held) :
    (∃ id, (Lifecycle.next s a).resumable.lookup id = some i) ∨
      ∃ n, (Lifecycle.next s a).loop.moving = some (i, n) := by
  have hput : ∀ {id}, a.puts id = some i →
      (Lifecycle.next s a).resumable.lookup id = some i := by
    intro id hput
    rcases Action.puts_eq_some.mp hput with rfl | ⟨rest, rfl⟩
    · rw [Lifecycle.next, registerNext]
      exact AList.lookup_insert _
    · rw [Lifecycle.next]
      exact AList.lookup_insert _
  rcases held_next ha hheld with ⟨id, rfl⟩ | hold
  · exact Or.inl ⟨id, hput (if_pos rfl)⟩
  · rcases h.entry i hold with ⟨id, hlook⟩ | ⟨n, hm⟩
    · rcases entry_next ha hlook with (hkept | hrel) | ⟨n, hm⟩ | ⟨j, hj⟩ | ⟨j, hj⟩
      · exact Or.inl ⟨id, hkept⟩
      · rw [hheld.unreleased] at hrel
        cases hrel
      · exact Or.inr ⟨n, hm⟩
      · rw [own_entry hu hs ha hlook (Or.inl hj)] at hj
        exact Or.inl ⟨id, hput hj⟩
      · rw [own_entry hu hs ha hlook (Or.inr hj)] at hj
        exact absurd hold.live (unregisters_not_live hs.wired ha hj)
    · rcases moving_next ha hm with hm | ⟨rest, rfl⟩
      · exact Or.inr ⟨n, hm⟩
      · exact Or.inl ⟨n, hput (if_pos rfl)⟩

/-- Some sender of a stream that is held is left. -/
theorem senderHeld (h : Backed s) {i : ℕ} (hheld : (s.streams i).Held) :
    s.senderHeld i = true := by
  rw [State.senderHeld, Bool.or_eq_true]
  rcases h.entry i hheld with ⟨id, hlook⟩ | ⟨n, hm⟩
  · left
    exact List.any_eq_true.mpr ⟨⟨id, i⟩, AList.mem_lookup_iff.mp hlook, beq_self_eq_true i⟩
  · right
    match hl : s.loop with
    | .storing j newId rest =>
      rw [hl] at hm
      cases hm
      simp [Loop.holds]
    | .inserting j newId rest =>
      rw [hl] at hm
      cases hm
      simp [Loop.holds]
    | .reading _ | .sending _ _ _ | .down | .backoff | .snapshotting | .resuming _ | .cleaning
    | .exited =>
      rw [hl] at hm
      cases hm

private theorem next_adapter (h : Backed s) (hw : Wired s) (ha : Enabled s a) (i : ℕ)
    (hheld : ((next s a).streams i).Held) : ((next s a).streams i).adapter ≠ .exited := by
  intro hexited
  rcases held_next ha hheld with ⟨id, rfl⟩ | hold
  · rw [Lifecycle.next, registerNext, State.setStream_streams_self] at hexited
    cases hexited
  · have hne := h.adapter i hold
    have hc := change ha i
    generalize (Lifecycle.next s a).streams i = v at hexited hc
    cases hc with
    | begun => cases hexited
    | registered => cases hexited
    | adapterTook => cases hexited
    | adapterForwarded => cases hexited
    | adapterFailed => cases hexited
    | adapterLoaded => cases hexited
    | adapterUnregistered hun => cases ((hw.ok i).unregistering _ hun).symm.trans hold.live
    | adapterEnded => cases (h.senderHeld hold).symm.trans ha.2.2
    | _ => exact hne hexited

theorem next (h : Backed s) {ids : List ℕ} (hu : Unreused ids s) (hs : Sound s)
    (ha : Enabled s a) : Backed (Lifecycle.next s a) :=
  ⟨h.next_entry hu hs ha, h.next_adapter hs.wired ha⟩

end Backed

end

theorem backed_init : Backed init where
  entry _ h := by cases h.registered
  adapter _ h := by cases h.registered

theorem exec_backed {as : List Action} (hv : system.Valid init as)
    (hids : (as.filterMap Action.announced).Nodup) :
    Sound (system.exec init as) ∧ Backed (system.exec init as) := by
  have hinv : Sound (system.exec init as) ∧ ((as.filterMap Action.announced).Nodup →
      Unreused (as.filterMap Action.announced) (system.exec init as) ∧
        Backed (system.exec init as)) := by
    refine Transition.System.history
      (J := fun past s => Sound s ∧ ((past.filterMap Action.announced).Nodup →
        Unreused (past.filterMap Action.announced) s ∧ Backed s))
      (fun past s a ⟨hs, h⟩ ha => ⟨hs.next ha, fun hnodup => ?_⟩)
      ⟨sound_init, fun _ => ⟨unreused_init, backed_init⟩⟩ hv
    have hsplit : (past ++ [a]).filterMap Action.announced =
        past.filterMap Action.announced ++ a.announced.toList := by
      rw [List.filterMap_append]
      rfl
    rw [hsplit, List.nodup_append] at hnodup
    obtain ⟨hpast, -, hnew⟩ := hnodup
    obtain ⟨hu, hb⟩ := h hpast
    rw [hsplit]
    refine ⟨hu.next hs (fun id hid hmem => ?_) ha, hb.next hu hs ha⟩
    exact hnew id hmem id (Option.mem_toList.mpr hid) rfl
  exact ⟨hinv.1, (hinv.2 hids).2⟩

/-- The owner has begun `stop()` or dropped the handle. -/
def Handle.isOver : Handle → Bool
  | .stopping => true
  | .stopped => true
  | .dropped => true
  | _ => false

/-- `recv()` returns `None`: the adapter has dropped its sender, and no quote is left. -/
structure Stream.RecvEnds (v : Stream) : Prop where
  adapter : v.adapter = .exited
  quotes : v.quotes = []

/-- **A stream the connection gives up on gives its slot back.** In every run in which the server
hands out no stream id twice, in every reachable state: a stream that has been registered and has no
entry, while the loop is not in the middle of moving one, has its slot given back and is flagged as
stopped, or its owner has begun to stop it or has dropped it; and if `recv()` returns `None` to an
owner who has not, the slot has been given back, so that `active_count` does not count it. -/
theorem given_up_returns_slot {as : List Action} (hv : system.Valid init as)
    (hids : (as.filterMap Action.announced).Nodup) :
    (∀ i, ((system.exec init as).streams i).start = .done →
      (system.exec init as).loop.isUnlocked = true →
      (∀ id, (system.exec init as).resumable.lookup id ≠ some i) →
        (((system.exec init as).streams i).slotReleased = true ∧
          ((system.exec init as).streams i).stopped = true) ∨
        ((system.exec init as).streams i).handle.isOver = true) ∧
      (∀ i, ((system.exec init as).streams i).handle = .live →
        ((system.exec init as).streams i).RecvEnds →
          ((system.exec init as).streams i).slotReleased = true) ∧
      (system.exec init as).activeCount = (system.exec init as).unreleased := by
  obtain ⟨hs, hb⟩ := exec_backed hv hids
  refine ⟨fun i hdone hunlocked hnone => ?_, fun i hlive hend => ?_, exec_counted hv⟩
  · by_cases hlive : ((system.exec init as).streams i).handle = .live
    · left
      have hrel : ((system.exec init as).streams i).slotReleased = true := by
        by_contra hrel
        rcases hb.entry i ⟨hdone, hlive, Bool.eq_false_iff.mpr hrel⟩ with ⟨id, hlook⟩ | ⟨n, hm⟩
        · exact hnone id hlook
        · rw [Loop.moving_eq_none hunlocked] at hm
          cases hm
      refine ⟨hrel, (hs.wired.ok i).claimed ?_ hrel⟩
      rw [hdone]
      exact Start.noConfusion
    · right
      have hhandle := ((hs.wired.ok i).registered hdone).2
      cases hh : ((system.exec init as).streams i).handle with
      | none => exact absurd hh hhandle
      | live => exact absurd hh hlive
      | _ => rfl
  · by_contra hrel
    have hdone := (hs.wired.ok i).start_done
      (Or.inr (Or.inl (by rw [hlive]; exact Handle.noConfusion)))
    exact hb.adapter i ⟨hdone, hlive, Bool.eq_false_iff.mpr hrel⟩ hend.adapter

/-- The connection is lost, the server refuses to resume stream `0`, and the adapter comes to its
end. -/
def refusedRun : List Action :=
  startRun ++ [.leave, .decide false, .dial true, .snapshot [(7, 0)], .resume 7 0 [] true,
    .carryOut 1 (.newStream 0) false, .read (.resuming 7 0 1 []) (.error 1), .resumed,
    .adapterEnd 0]

set_option maxRecDepth 20000 in
theorem given_up_returns_slot_refusedRun :
    ((system.exec init refusedRun).streams 0).start = .done ∧
      ((system.exec init refusedRun).streams 0).handle = .live ∧
      ((system.exec init refusedRun).streams 0).slotReleased = true ∧
      (system.exec init refusedRun).activeCount = (system.exec init refusedRun).unreleased :=
  ⟨by decide, by decide,
    (@given_up_returns_slot refusedRun (by decide) (by decide)).2.1 0 (by decide)
      ⟨by decide, by decide⟩,
    (@given_up_returns_slot refusedRun (by decide) (by decide)).2.2⟩

end Lifecycle

end TitanClient
