import TitanClient.LifecycleGap
import TitanClient.LifecycleTransit
import TitanClient.LifecycleTurns

/-!
# Stopping one stream and the others

A stop sequence asks the server to stop, and takes out of the map, whatever is under the current and
under the original id of its stream. After a reconnect the original id is free for the server to
give to another stream, and then the stop sequence of the one stops the other.

That is the only way: as long as the server hands out no id that another stream still goes by, the
stop sequence of a stream has no effect on any other. A stop request is looked at when it is put
into the channel and when it is written, and after that as long as its sender waits for the answer.
If the loop leaves the socket before the answer comes, the request may still be on its way once its
sender has gone on; what becomes of it then is up to the server.

## Ids in use

A stream goes by an id when a response with it is on the way, while its start is in the gap, while
the loop moves its entry to it or resumes it under it, and as long as its stop sequence, which may
yet begin, deals with it. An id that is still open on the server is not handed out either; that is
the server's side of it (`Honest`). So no two streams ever claim one id (`Distinct.apart`).

## Main results

* `State.GoesBy`, `UnusedIds` — the ids a stream goes by; the server hands out no others
* `stop_hits_reused_id` — a stop request for the open stream of another
* `stop_lists_reused_id` — what leads there
* `stop_leaves_others_alone` — without reuse, stopping a stream leaves every other alone
-/

namespace TitanClient

namespace Lifecycle

/-! ## The ids of a stop sequence -/

/-- The ids that a stop sequence in the given position has yet to deal with, for a stream with the
given handle, current and original id; in `idle`, those it would have to deal with if it began
now. -/
def Stopper.ids (h : Handle) (current original : ℕ) : Stopper → List ℕ
  | .idle => if h = .live then [current, original] else []
  | .loading => [current, original]
  | .loaded first => [first, current, original]
  | .requesting ids => ids
  | .awaiting _ ids => ids
  | .unregistering ids => ids
  | .releasing => []
  | .done => []

/-- The ids that the stop sequence of a stream has yet to deal with. -/
def Stream.toStop (v : Stream) : List ℕ := v.stopper.ids v.handle v.effectiveId v.streamId

theorem mem_stopIds {id first second original : ℕ} :
    id ∈ stopIds first second original ↔ id ∈ [first, second, original] := by
  simp only [stopIds, List.mem_append, List.mem_cons, List.not_mem_nil, or_false]
  by_cases h : second = first
  · by_cases h' : original = first
    · simp [h, h']
    · simp [h, h']
  · by_cases h' : original = first
    · simp only [h, h', ne_eq, not_false_eq_true, if_true, List.mem_singleton, not_true_eq_false,
        false_and, if_false, List.not_mem_nil, or_false]
      tauto
    · by_cases h'' : original = second
      · simp [h, h'']
      · simp [h, h', h'', or_assoc]

theorem Stream.live_of_mem_toStop {v : Stream} {id : ℕ} (h : id ∈ v.toStop)
    (hidle : v.stopper = .idle) :
    v.handle = .live ∧ id ∈ [v.effectiveId, v.streamId] := by
  rw [toStop, hidle] at h
  change id ∈ if v.handle = .live then _ else _ at h
  split at h
  · exact ⟨‹_›, h⟩
  · cases h

theorem Stream.Ok.mem_toStop {v : Stream} (hok : v.Ok) (hlive : v.handle = .live) {id : ℕ}
    (hid : id ∈ [v.effectiveId, v.streamId]) : id ∈ v.toStop := by
  rw [toStop, hok.live hlive]
  change id ∈ if v.handle = .live then _ else _
  rwa [if_pos hlive]

theorem Stopper.mem_ids_of_current {p : Stopper} {h : Handle} {id current current' original : ℕ}
    (hmem : id ∈ p.ids h current' original) (hne : id ≠ current') :
    id ∈ p.ids h current original := by
  have hsame : ∀ {l : List ℕ}, id ∈ current' :: l → id ∈ current :: l :=
    fun hmem => List.mem_cons_of_mem _ ((List.mem_cons.mp hmem).resolve_left hne)
  cases p with
  | idle =>
    change id ∈ if h = .live then _ else _ at hmem
    change id ∈ if h = .live then _ else _
    split at hmem
    · rw [if_pos ‹_›]
      exact hsame hmem
    · cases hmem
  | loading => exact hsame hmem
  | loaded first =>
    rcases List.mem_cons.mp hmem with rfl | hmem
    · exact List.mem_cons_self
    · exact List.mem_cons_of_mem _ (hsame hmem)
  | _ => exact hmem

/-- A stop sequence has an id to deal with because it had before, because the stream has just been
registered under it, or because it is the new id of the stream. -/
theorem toStop_next {s : State} (hw : Wired s) {a : Action} (ha : Enabled s a) {i id : ℕ}
    (h : id ∈ ((next s a).streams i).toStop) :
    id ∈ (s.streams i).toStop ∨ a = .register i id ∨ ∃ rest, a = .store i id rest := by
  have hok := hw.ok i
  have hbefore : ∀ {p : Stopper}, (s.streams i).stopper = p →
      id ∈ p.ids (s.streams i).handle (s.streams i).effectiveId (s.streams i).streamId →
        id ∈ (s.streams i).toStop := by
    rintro p rfl hmem
    exact hmem
  have hc := change ha i
  generalize (next s a).streams i = v at h hc
  cases hc with
  | begun => cases (Stream.live_of_mem_toStop h rfl).1
  | @registered id' hs =>
    have hidle := (hok.unregistered (by rw [hs]; exact Start.noConfusion)).2.2.1
    have hid := List.mem_pair.mp (Stream.live_of_mem_toStop h hidle).2
    exact Or.inr (Or.inl (by rw [hid.elim (fun h => h) fun h => h]))
  | stopped hl => exact Or.inl (hok.mem_toStop hl h)
  | dropped hl => exact Or.inl (hok.mem_toStop hl h)
  | droppedOutside hl => cases (Stream.live_of_mem_toStop h (hok.live hl)).1
  | droppedStopped hs => exact Or.inl (hbefore (hok.returned hs) (by
      rw [Stream.toStop, hok.returned hs] at h
      exact h))
  | loaded hs =>
    refine Or.inl (hbefore hs ?_)
    rcases List.mem_cons.mp h with rfl | h
    · exact List.mem_cons_self
    · exact h
  | reloaded hs => exact Or.inl (hbefore hs (mem_stopIds.mp h))
  | stopRequested hs => exact Or.inl (hbefore hs h)
  | stopRefused hs => exact Or.inl (hbefore hs h)
  | stopReceived hs => exact Or.inl (hbefore hs h)
  | @stopUnregistered id' ids hs =>
    refine Or.inl (hbefore hs ?_)
    cases ids with
    | nil => cases h
    | cons id'' ids => exact List.mem_cons_of_mem _ h
  | stopReleased => cases h
  | stopReturned hs hdone =>
    rw [Stream.toStop, hdone] at h
    cases h
  | @stored newId rest hl =>
    by_cases hid : id = newId
    · subst hid
      exact Or.inr (Or.inr ⟨rest, rfl⟩)
    · exact Or.inl (Stopper.mem_ids_of_current h hid)
  | _ => exact Or.inl h

/-! ## The ids a stream goes by -/

/-- Stream `i` goes by `id`: a response with it is on the way, its start is in the gap, the loop
moves its entry to it or awaits the answer for its entry under it, or its stop sequence has it yet
to deal with. -/
inductive State.GoesBy (s : State) (i id : ℕ) : Prop
  | answered {ticket : ℕ} (h : .response ticket (some id) ∈ s.wire) (ho : s.Opening i ticket)
  | starting (h : s.gapId i = some id)
  | moving (h : s.loop.moving = some (i, id))
  | resuming {ticket : ℕ} (h : s.loop.turn = some (id, i, ticket))
  | held (h : id ∈ (s.streams i).toStop)

/-- The ticket of a response with the given id. -/
def Message.opens (id : ℕ) : Message → Option ℕ
  | .response ticket stream => if stream = some id then some ticket else none
  | _ => none

theorem Message.opens_eq_some {id ticket : ℕ} {f : Message} :
    f.opens id = some ticket ↔ f = .response ticket (some id) := by
  cases f with
  | response t stream =>
    by_cases h : stream = some id
    · simp [opens, h]
    · simp [opens, h]
  | _ => simp [opens]

theorem goesBy_iff {s : State} {i id : ℕ} : s.GoesBy i id ↔
    (∃ f ∈ s.wire, ∃ ticket ∈ f.opens id, s.Opening i ticket) ∨ s.gapId i = some id ∨
      s.loop.moving = some (i, id) ∨ (s.loop.turn.map fun e => (e.1, e.2.1)) = some (id, i) ∨
        id ∈ (s.streams i).toStop := by
  constructor
  · rintro (⟨h, ho⟩ | h | h | h | h)
    · exact Or.inl ⟨_, h, _, Message.opens_eq_some.mpr rfl, ho⟩
    · exact Or.inr (Or.inl h)
    · exact Or.inr (Or.inr (Or.inl h))
    · exact Or.inr (Or.inr (Or.inr (Or.inl (by rw [h]; rfl))))
    · exact Or.inr (Or.inr (Or.inr (Or.inr h)))
  · rintro (⟨f, hf, ticket, ht, ho⟩ | h | h | h | h)
    · rw [Message.opens_eq_some.mp ht] at hf
      exact .answered hf ho
    · exact .starting h
    · exact .moving h
    · obtain ⟨⟨oldId, j, ticket⟩, hturn, he⟩ := Option.map_eq_some_iff.mp h
      cases he
      exact .resuming hturn
    · exact .held h

instance (s : State) (i id : ℕ) : Decidable (s.GoesBy i id) := decidable_of_iff _ goesBy_iff.symm

/-- The stream that the server opens, with its id. -/
def Action.accepted : Action → Option (ℕ × ℕ)
  | .accept _ i id => some (i, id)
  | _ => none

/-- The server gives no two of the streams that are open at a time the same id, and answers only
what it is asked. -/
def Honest (s : State) (a : Action) : Prop :=
  (∀ e ∈ a.accepted, ∀ e' ∈ s.openStreams, e'.1 ≠ e.2) ∧ Unasked s a

instance (s : State) (a : Action) : Decidable (Honest s a) :=
  inferInstanceAs (Decidable ((∀ _ ∈ _, ∀ _ ∈ _, _) ∧ _))

/-- The server opens a stream under no id that another stream goes by. -/
def UnusedIds (s : State) (a : Action) : Prop :=
  ∀ e ∈ a.accepted, ∀ j < s.streamCount, j ≠ e.1 → ¬s.GoesBy j e.2

instance (s : State) (a : Action) : Decidable (UnusedIds s a) :=
  inferInstanceAs (Decidable (∀ _ ∈ _, ∀ _ < _, _ → _))

theorem goesBy_lt {s : State} (hw : Wired s) {i id : ℕ} (h : s.GoesBy i id) :
    i < s.streamCount := by
  have hloop : i ∈ s.loop.streams → i < s.streamCount := fun hi => hw.lt_of_done (hw.inLoop i hi)
  have hturn : ∀ {oldId ticket : ℕ}, s.loop.turn = some (oldId, i, ticket) → i < s.streamCount :=
    fun ht => hloop (Loop.mem_streams_of_turn ht)
  cases h with
  | answered _ ho =>
    rcases ho with ⟨hstart, -⟩ | ho
    · by_contra hle
      rw [hw.unused i (Nat.not_lt.mp hle)] at hstart
      cases hstart
    · obtain ⟨oldId, ht⟩ := Loop.turn_map.mp ho
      exact hturn ht
  | starting hgap => exact gapId_lt hw hgap
  | moving hm => exact hloop (Loop.mem_streams_of_moving hm)
  | resuming ht => exact hturn ht
  | held hmem =>
    by_contra hle
    rw [hw.unused i (Nat.not_lt.mp hle)] at hmem
    cases hmem

/-! ## No two streams claim one id -/

/-- Stream `i` claims `id`: it is open under it on the server, or goes by it. -/
def State.Claims (s : State) (i id : ℕ) : Prop := (id, i) ∈ s.openStreams ∨ s.GoesBy i id

/-- No two streams claim one id; the entry under which a stream is resumed is its own; and no other
stream has an entry under an id that a stop sequence has yet to deal with, unless the loop is about
to put the entry of the stopped one in its place. -/
structure Distinct (s : State) : Prop where
  apart : ∀ i j id, s.Claims i id → s.Claims j id → i = j
  turn : ∀ oldId i ticket, s.loop.turn = some (oldId, i, ticket) →
    ∀ j, s.resumable.lookup oldId = some j → j = i
  unshadowed : ∀ id i j, s.resumable.lookup id = some j → id ∈ (s.streams i).toStop →
    i = j ∨ ∃ rest, s.loop = .inserting i id rest

section

variable {s : State} {a : Action}

/-- A response on the wire for somebody who waits was there before, unless the server has just sent
it. -/
theorem answered_next (ht : Transit s) (hC : Unasked s a) (ha : Enabled s a) {i id ticket : ℕ}
    (hf : .response ticket (some id) ∈ (next s a).wire) (ho : (next s a).Opening i ticket) :
    s.GoesBy i id ∨ a = .accept ticket i id := by
  have hmail := (mailChange ha).arrived (f := .response ticket (some id)) hf
  rcases opening_next ha ho with hold | ⟨rfl, hr⟩
  · rcases hmail with hwire | ⟨t, j, id', rfl, hmem, hsent⟩ | ⟨t, r, ok, rfl, hsent⟩ | rfl
    · exact Or.inl (.answered hwire hold)
    · cases hsent
      have hans := ht.tied.unanswered hold
      rw [ht.tied.unique i j ticket hold (ht.tied.opening ticket j hmem hans)]
      exact Or.inr rfl
    · cases ok <;> cases hsent
    · cases hC _ rfl
  · -- Nothing on the wire has a ticket that has not been given out.
    rcases hmail with hwire | ⟨t, j, id', rfl, -, -⟩ | ⟨t, r, ok, rfl, -⟩ | rfl
    · have hfresh := ht.apart.fresh _ (List.mem_append_right _ (Tied.mem_written_wire hwire rfl))
      exact absurd hfresh (lt_irrefl _)
    · rcases hr with hr | ⟨_, _, hr⟩ <;> cases hr
    · rcases hr with hr | ⟨_, _, hr⟩ <;> cases hr
    · rcases hr with hr | ⟨_, _, hr⟩ <;> cases hr

/-- A stream claims an id because it did before, or because the server has just opened it under that
id. -/
theorem claims_next (ht : Transit s) (ho : Orderly s) (hd : Distinct s) (hC : Unasked s a)
    (ha : Enabled s a) {i id : ℕ} (h : (next s a).Claims i id) :
    s.Claims i id ∨ ∃ ticket, a = .accept ticket i id := by
  rcases h with hopen | ⟨hf, hopening⟩ | hgap | hm | hturn | hheld
  · rcases (mailChange ha).opened hopen with hold | ⟨ticket, hr, -⟩
    · exact Or.inl (Or.inl hold)
    · exact Or.inr ⟨ticket, hr⟩
  · exact (answered_next ht hC ha hf hopening).imp Or.inr fun hr => ⟨_, hr⟩
  · left
    rcases gapId_next ht.posted ha hgap with hold | ⟨r, ticket, rfl, hstart, hans⟩
    · exact Or.inr (.starting hold)
    · exact Or.inr (.answered (List.mem_of_mem_head? ha.2) (Or.inl ⟨hstart, hans⟩))
  · left
    rcases (loopChange ha).moving hm with hold | ⟨oldId, j, ticket, rest, hl, rfl, -, hlook, -⟩
    · exact Or.inr (.moving hold)
    · -- The entry taken out is the one that was to be resumed.
      have hturn : s.loop.turn = some (oldId, j, ticket) := by
        rw [hl]
        rfl
      rw [hd.turn oldId j ticket hturn i hlook]
      exact Or.inr (.answered (List.mem_of_mem_head? ha.2)
        (Or.inr (Loop.turn_map.mpr ⟨oldId, hturn⟩)))
  · left
    rcases turn_next ha hturn with hold | ⟨-, hkept, rest, rfl⟩
    · exact Or.inr (.resuming hold)
    · have hl : s.loop = .resuming ((id, i) :: rest) := ha
      have hmem : (id, i) ∈ s.loop.snapshot := by
        rw [hl]
        exact List.mem_cons_self
      have hdone := ht.wired.inLoop i (Loop.mem_streams_of_snapshot hmem)
      refine Or.inr (.held ((ht.wired.ok i).mem_toStop (ht.wired.live_of_kept hdone hkept) ?_))
      rw [show (s.streams i).effectiveId = id from ho.ids (id, i) hmem]
      exact List.mem_cons_self
  · left
    rcases toStop_next ht.wired ha hheld with hold | rfl | ⟨rest, rfl⟩
    · exact Or.inr (.held hold)
    · refine Or.inr (.starting ?_)
      rw [State.gapId, ha.1]
    · have hl : s.loop = .storing i id rest := ha
      refine Or.inr (.moving ?_)
      rw [hl]
      rfl

namespace Distinct

private theorem next_apart (hd : Distinct s) (ht : Transit s) (ho : Orderly s) (hC : Honest s a)
    (hU : UnusedIds s a) (ha : Enabled s a) (i j id : ℕ) (hi : (next s a).Claims i id)
    (hj : (next s a).Claims j id) : i = j := by
  -- What is handed out to one stream is not in use by another.
  have hnew : ∀ {k l ticket : ℕ}, a = .accept ticket k id → s.Claims l id → l = k := by
    rintro k l ticket rfl hl
    by_contra hne
    rcases hl with hopen | hgoes
    · exact hC.1 _ rfl _ hopen rfl
    · exact hU _ rfl l (goesBy_lt ht.wired hgoes) hne hgoes
  rcases claims_next ht ho hd hC.2 ha hi with hi | ⟨ticket, hai⟩
  · rcases claims_next ht ho hd hC.2 ha hj with hj | ⟨ticket, haj⟩
    · exact hd.apart i j id hi hj
    · exact hnew haj hi
  · rcases claims_next ht ho hd hC.2 ha hj with hj | ⟨ticket, haj⟩
    · exact (hnew hai hj).symm
    · rw [hai] at haj
      cases haj
      rfl

private theorem next_turn (hd : Distinct s) (ht : Transit s) (ho : Orderly s) (ha : Enabled s a)
    (oldId i ticket : ℕ) (hturn : (next s a).loop.turn = some (oldId, i, ticket)) (j : ℕ)
    (hlook : (next s a).resumable.lookup oldId = some j) : j = i := by
  rcases turn_next ha hturn with hold | ⟨-, hkept, rest, rfl⟩
  · rcases lookup_next hlook with hlook | rfl | ⟨rest, rfl⟩
    · exact hd.turn oldId i ticket hold j hlook
    · refine hd.apart j i oldId (Or.inr (.starting ?_)) (Or.inr (.resuming hold))
      rw [State.gapId, ha.1]
    · have hl : s.loop = .inserting j oldId rest := ha
      rw [hl] at hold
      cases hold
  · have hl : s.loop = .resuming ((oldId, i) :: rest) := ha
    have hmem : (oldId, i) ∈ s.loop.snapshot := by
      rw [hl]
      exact List.mem_cons_self
    have hdone := ht.wired.inLoop i (Loop.mem_streams_of_snapshot hmem)
    have hheld : oldId ∈ (s.streams i).toStop := by
      refine (ht.wired.ok i).mem_toStop (ht.wired.live_of_kept hdone hkept) ?_
      rw [show (s.streams i).effectiveId = oldId from ho.ids (oldId, i) hmem]
      exact List.mem_cons_self
    rcases lookup_next hlook with hlook | hr | ⟨_, hr⟩
    · rcases hd.unshadowed oldId i j hlook hheld with hij | ⟨rest', hl'⟩
      · exact hij.symm
      · cases hl.symm.trans hl'
    · cases hr
    · cases hr

private theorem next_unshadowed (hd : Distinct s) (ht : Transit s) (ha : Enabled s a)
    (id i j : ℕ) (hlook : (next s a).resumable.lookup id = some j)
    (hheld : id ∈ ((next s a).streams i).toStop) :
    i = j ∨ ∃ rest, (next s a).loop = .inserting i id rest := by
  rcases toStop_next ht.wired ha hheld with hold | rfl | ⟨rest, rfl⟩
  · rcases lookup_next hlook with hlook' | rfl | ⟨rest, rfl⟩
    · rcases hd.unshadowed id i j hlook' hold with hij | ⟨rest, hl⟩
      · exact Or.inl hij
      · have hc := loopChange ha
        generalize hl' : (Lifecycle.next s a).loop = l at hc
        cases hc with
        | same => exact Or.inr ⟨rest, hl⟩
        | inserted hl'' =>
          cases hl.symm.trans hl''
          left
          have hin : (s.resumable.insert id i).lookup id = some j := hlook
          rw [AList.lookup_insert, Option.some.injEq] at hin
          exact hin
        | _ hl'' => cases hl.symm.trans hl''
    · refine Or.inl (hd.apart i j id (Or.inr (.held hold)) (Or.inr (.starting ?_)))
      rw [State.gapId, ha.1]
    · have hl : s.loop = .inserting j id rest := ha
      refine Or.inl (hd.apart i j id (Or.inr (.held hold)) (Or.inr (.moving ?_)))
      rw [hl]
      rfl
  · left
    have hin : (s.resumable.insert id i).lookup id = some j := hlook
    rw [AList.lookup_insert, Option.some.injEq] at hin
    exact hin
  · exact Or.inr ⟨rest, rfl⟩

theorem next (hd : Distinct s) (ht : Transit s) (ho : Orderly s) (hC : Honest s a)
    (hU : UnusedIds s a) (ha : Enabled s a) : Distinct (Lifecycle.next s a) where
  apart := next_apart hd ht ho hC hU ha
  turn := next_turn hd ht ho ha
  unshadowed := next_unshadowed hd ht ha

end Distinct

end

theorem distinct_init : Distinct init where
  apart i j id hi := by
    rcases hi with hi | ⟨hi, -⟩ | hi | hi | hi | hi
    · cases hi
    · cases hi
    · cases hi
    · cases hi
    · cases hi
    · cases hi
  turn _ _ _ h := by cases h
  unshadowed _ _ _ h := by cases h

theorem exec_distinct {as : List Action} (hv : system.Valid init as)
    (hserver : system.Along Honest init as) (hC : system.Along UnusedIds init as) :
    Transit (system.exec init as) ∧ Distinct (system.exec init as) := by
  have hinv : (Transit (system.exec init as) ∧ Keyed (system.exec init as) ∧
      Orderly (system.exec init as)) ∧ Distinct (system.exec init as) :=
    Transition.System.invariant_along
      (I := fun s => (Transit s ∧ Keyed s ∧ Orderly s) ∧ Distinct s)
      (fun s a ⟨⟨ht, hk, ho⟩, hd⟩ hC ha => ⟨⟨ht.next hC.1.2 ha, hk.next ht.wired ha,
        ho.next ht.wired hk ha⟩, hd.next ht ho hC.1 hC.2 ha⟩)
      ⟨⟨transit_init, keyed_init, orderly_init⟩, distinct_init⟩ (hserver.and hC) hv
  exact ⟨hinv.1.1, hinv.2⟩

/-! ## A reused id -/

/-- Stream `0` is resumed under `8`, and then the server starts stream `1` under `7`, the original
id of stream `0`, whose owner calls `stop()`. -/
def reuseRun : List Action :=
  startRun ++ [.leave, .decide false, .dial true, .snapshot [(7, 0)], .resume 7 0 [] true,
    .accept 1 0 8, .read (.resuming 7 0 1 []) (.response 1 (some 8)), .store 0 8 [],
    .insert 0 8 [], .resumed, .begin 1, .request 1, .dequeue true, .accept 2 1 7,
    .read .serving (.response 2 (some 7)), .receive 1 2 ⟨.ok (some 7), 3⟩, .register 1 7,
    .stop 0, .stopLoad 0, .stopReload 0 8, .stopRequest 0 8 [7], .dequeue true,
    .carryOut 3 (.stopStream 8) true, .read .serving (.response 3 none), .stopReceive 0 3 [8, 7],
    .stopUnregister 0 8 [7], .stopRequest 0 7 [], .dequeue true]

/-- The rest of the call: the answer to the second stop request, and the removal of the entry. -/
def reuseRest : List Action :=
  [.carryOut 4 (.stopStream 7) true, .read .serving (.response 4 none), .stopReceive 0 4 [7],
    .stopUnregister 0 7 []]

set_option maxRecDepth 20000 in
/-- **One stream's stop request names the open stream of another.** Ids are distinct among the
streams open at a time, but the second request of the stop sequence of stream `0` is for the id of
stream `1`, which is open and has its entry under it; carried out, it ends stream `1` on the server,
and then its entry is taken out. -/
theorem stop_hits_reused_id :
    system.Valid init (reuseRun ++ reuseRest) ∧ system.Along Honest init (reuseRun ++ reuseRest) ∧
      (4, .stopStream 7) ∈ (system.exec init reuseRun).toServer ∧
      (system.exec init reuseRun).Stopping 0 4 7 ∧
      (7, 1) ∈ (system.exec init reuseRun).openStreams ∧
      (system.exec init reuseRun).resumable.lookup 7 = some 1 ∧
      (system.exec init (reuseRun ++ reuseRest)).openStreams = [] ∧
      (system.exec init (reuseRun ++ reuseRest)).resumable.lookup 7 = none :=
  ⟨by decide, by decide, by decide, ⟨[], by decide⟩, by decide, by decide, by decide, by decide⟩

/-- Whatever is a stream's current or original id when its owner stops it, whosever it is by now,
gets onto the list of ids to stop. -/
theorem stop_lists_reused_id {s : State} {i id : ℕ} (hlive : (s.streams i).handle = .live)
    (hidle : s.tasks (s.streams i).owner = .idle)
    (hid : id = (s.streams i).effectiveId ∨ id = (s.streams i).streamId) :
    system.Valid s [.stop i, .stopLoad i, .stopReload i (s.streams i).effectiveId] ∧
      ∃ ids, ((system.exec s [.stop i, .stopLoad i,
          .stopReload i (s.streams i).effectiveId]).streams i).stopper = .requesting ids ∧
        id ∈ ids := by
  refine ⟨⟨⟨hlive, hidle⟩, ?_, ?_, trivial⟩,
    stopIds (s.streams i).effectiveId (s.streams i).effectiveId (s.streams i).streamId, ?_,
    mem_stopIds.mpr ?_⟩
  · simp [system, Enabled, next, State.setTask]
  · simp [system, Enabled, next, State.setTask]
  · simp [system, next, State.setTask]
  · rcases hid with rfl | rfl
    · exact List.mem_cons_self
    · exact List.mem_cons_of_mem _ (List.mem_cons_of_mem _ List.mem_cons_self)

/-! ## Without reuse -/

/-- The stream that is stopped, for the steps of `stop()`, of dropping a handle and of its cleanup
task. -/
def Action.stopOf : Action → Option ℕ
  | .stop i => some i
  | .drop i _ => some i
  | .stopLoad i => some i
  | .stopReload i _ => some i
  | .stopRequest i _ _ => some i
  | .stopRefused i _ _ => some i
  | .stopReceive i _ _ => some i
  | .stopUnregister i _ _ => some i
  | .stopRelease i => some i
  | .stopReturn i => some i
  | _ => none

/-- They touch no cell of another stream. -/
theorem stop_streams {s : State} {a : Action} {i j : ℕ} (hstop : a.stopOf = some i)
    (hij : i ≠ j) : (next s a).streams j = s.streams j := by
  have hset : ∀ v, (s.setStream i v).streams j = s.streams j :=
    fun v => State.setStream_streams_of_ne s hij.symm v
  have hrelease : ∀ v, ((s.setStream i v).release i).streams j = s.streams j := by
    intro v
    rw [State.release_eq]
    change Function.update _ i _ j = _
    rw [Function.update_of_ne hij.symm]
    exact hset v
  cases a with
  | drop k runtime =>
    cases hstop
    rw [next, dropNext]
    split
    · split
      · exact hset _
      · exact hrelease _
    · exact hset _
  | stopRelease k =>
    cases hstop
    exact hrelease _
  | stop k | stopLoad k | stopReload k | stopRequest k | stopRefused k | stopReceive k
  | stopUnregister k | stopReturn k =>
    cases hstop
    exact hset _
  | _ => cases hstop

/-- They take an entry out only under an id that the stop sequence has to deal with. -/
theorem stop_resumable {s : State} {a : Action} (ha : Enabled s a) {i : ℕ}
    (hstop : a.stopOf = some i) :
    (next s a).resumable = s.resumable ∨
      ∃ id, (next s a).resumable = s.resumable.erase id ∧ id ∈ (s.streams i).toStop ∧
        s.loop.isUnlocked = true := by
  cases a with
  | drop k runtime =>
    left
    rw [next, dropNext]
    split
    · split
      · rfl
      · rw [State.release_resumable]
        rfl
    · rfl
  | stopUnregister k id ids =>
    cases hstop
    refine Or.inr ⟨id, rfl, ?_, ha.2⟩
    rw [Stream.toStop, ha.1]
    exact List.mem_cons_self
  | stopRelease k =>
    left
    rw [next, State.release_resumable]
    rfl
  | stop | stopLoad | stopReload | stopRequest | stopRefused | stopReceive | stopReturn =>
    exact Or.inl rfl
  | _ => cases hstop

/-- **Stopping one stream leaves every other alone.** In a run in which the server hands out no id
that another stream goes by, a stop request for the id of an open stream is that stream's own or
comes with the shutdown of the client, when it is put into the channel, while it is there, when it
is written, and as long as its sender waits for the answer; and no step of stopping a stream changes
an entry or a cell of another. -/
theorem stop_leaves_others_alone {as : List Action} (hv : system.Valid init as)
    (hserver : system.Along Honest init as) (hC : system.Along UnusedIds init as) {i j : ℕ}
    (hij : i ≠ j) :
    (∀ ticket id, (ticket, .stopStream id) ∈ (system.exec init as).channel ∨
        (ticket, .stopStream id) ∈ (system.exec init as).toServer ∧
          (system.exec init as).answers ticket = none →
      (id, j) ∈ (system.exec init as).openStreams →
        ¬(system.exec init as).Stopping i ticket id ∧
          ((system.exec init as).Stopping j ticket id ∨
            (system.exec init as).ShuttingDown ticket)) ∧
      ∀ a, a.stopOf = some i → system.Enabled (system.exec init as) a →
        (∀ id, a.pushed = some (.stopStream id) → (id, j) ∉ (system.exec init as).openStreams) ∧
          (∀ id, (system.next (system.exec init as) a).resumable.lookup id = some j ↔
            (system.exec init as).resumable.lookup id = some j) ∧
          (system.next (system.exec init as) a).streams j = (system.exec init as).streams j := by
  obtain ⟨ht, hd⟩ := exec_distinct hv hserver hC
  generalize system.exec init as = s at ht hd ⊢
  have hstopping : ∀ {k ticket id : ℕ}, s.Stopping k ticket id → (id, j) ∈ s.openStreams →
      k = j := by
    rintro k ticket id ⟨ids, hk⟩ hopen
    refine hd.apart k j id (Or.inr (.held ?_)) (Or.inl hopen)
    rw [Stream.toStop, hk]
    exact List.mem_cons_self
  refine ⟨fun ticket id hmem hopen => ⟨fun hi => hij (hstopping hi hopen), ?_⟩,
    fun a hstop ha => ⟨fun id hpushed hopen => ?_, fun id => ?_, stop_streams hstop hij⟩⟩
  · have htied : (∃ k, s.Stopping k ticket id) ∨ s.ShuttingDown ticket := by
      rcases hmem with hchannel | ⟨hserver, hans⟩
      · refine ht.tied.stopping ticket id (List.mem_append_left _ hchannel) ?_
        refine ht.posted.unanswered ticket (List.mem_append_left _ ?_)
        exact List.mem_map_of_mem (f := Prod.fst) hchannel
      · exact ht.tied.stopping ticket id (List.mem_append_right _ hserver) hans
    rcases htied with ⟨k, hk⟩ | hshut
    · rw [hstopping hk hopen] at hk
      exact Or.inl hk
    · exact Or.inr hshut
  · cases a with
    | stopRequest k id' ids =>
      cases hstop
      cases hpushed
      refine hij (hd.apart i j id (Or.inr (.held ?_)) (Or.inl hopen))
      rw [Stream.toStop, show (s.streams i).stopper = .requesting (id :: ids) from ha.1]
      exact List.mem_cons_self
    | shutdownRequest => cases hstop
    | _ => cases hpushed
  · change (next s a).resumable.lookup id = some j ↔ _
    rcases stop_resumable ha hstop with hsame | ⟨id', herase, hheld, hunlocked⟩
    · rw [hsame]
    · rw [herase]
      refine ⟨Table.lookup_of_lookup_erase, fun hlook => ?_⟩
      by_cases hid : id = id'
      · subst hid
        rcases hd.unshadowed id i j hlook hheld with h | ⟨rest, hl⟩
        · exact absurd h hij
        · rw [hl] at hunlocked
          cases hunlocked
      · rwa [AList.lookup_erase_ne hid]

/-- Two streams are resumed under new ids, and the first is stopped: its first stop request is on
its way. -/
def resumedRun : List Action :=
  startRun ++ [.begin 1, .request 1, .dequeue true, .accept 1 1 9,
    .read .serving (.response 1 (some 9)), .receive 1 1 ⟨.ok (some 9), 2⟩, .register 1 9,
    .leave, .decide false, .dial true, .snapshot [(7, 0), (9, 1)], .resume 7 0 [(9, 1)] true,
    .accept 2 0 8, .stop 0, .stopLoad 0, .read (.resuming 7 0 2 [(9, 1)]) (.response 2 (some 8)),
    .resume 9 1 [] true, .accept 3 1 5, .read (.resuming 9 1 3 []) (.response 3 (some 5)),
    .store 1 5 [], .insert 1 5 [], .resumed, .stopReload 0 7, .stopRequest 0 7 [], .dequeue true]

set_option maxRecDepth 20000 in
theorem stop_leaves_others_alone_resumedRun :
    (∀ ticket id, (ticket, .stopStream id) ∈ (system.exec init resumedRun).channel ∨
        (ticket, .stopStream id) ∈ (system.exec init resumedRun).toServer ∧
          (system.exec init resumedRun).answers ticket = none →
      (id, 1) ∈ (system.exec init resumedRun).openStreams →
        ¬(system.exec init resumedRun).Stopping 0 ticket id ∧
          ((system.exec init resumedRun).Stopping 1 ticket id ∨
            (system.exec init resumedRun).ShuttingDown ticket)) ∧
      ∀ a, a.stopOf = some 0 → system.Enabled (system.exec init resumedRun) a →
        (∀ id, a.pushed = some (.stopStream id) →
            (id, 1) ∉ (system.exec init resumedRun).openStreams) ∧
          (∀ id, (system.next (system.exec init resumedRun) a).resumable.lookup id = some 1 ↔
            (system.exec init resumedRun).resumable.lookup id = some 1) ∧
          (system.next (system.exec init resumedRun) a).streams 1 =
            (system.exec init resumedRun).streams 1 :=
  stop_leaves_others_alone (by decide) (by decide) (by decide) (by decide)

end Lifecycle

end TitanClient
