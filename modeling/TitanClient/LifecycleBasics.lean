import TitanClient.Lifecycle

/-!
# What one step can do

Each operation as one record update, and one lemma that says what a step can do to the map of
registered streams, and one for the position of the loop. The invariants of later modules follow
from these and do not look into `next` for the steps that do not concern them.

## Main results

* `TakeStep`, `takeStep` — what a frame taken up by the loop leads to
* `lookup_next` — where an entry of the map comes from
* `LoopChange`, `loopChange` — all that a step can do to the position of the loop
-/

namespace TitanClient

namespace Lifecycle

/-! ## Operations -/

/-- A stream after its `on_end`. -/
def Stream.ended (v : Stream) : Stream := { v with stopped := true, slotReleased := true }

namespace State

variable (s : State)

@[simp] theorem setStream_streams_self (i : ℕ) (v : Stream) :
    (s.setStream i v).streams i = v := Function.update_self ..

theorem setStream_streams_of_ne {i j : ℕ} (h : j ≠ i) (v : Stream) :
    (s.setStream i v).streams j = s.streams j := Function.update_of_ne h ..

/-- Giving a slot back changes the slot guard and the counter. -/
theorem release_eq (i : ℕ) :
    s.release i =
      { s with
        streams := Function.update s.streams i { s.streams i with slotReleased := true }
        activeCount :=
          if (s.streams i).slotReleased then s.activeCount else s.activeCount - 1 } := by
  rw [release]
  by_cases h : (s.streams i).slotReleased = true
  · rw [if_pos h, if_pos h]
    have : { s.streams i with slotReleased := true } = s.streams i := by rw [← h]
    rw [this, Function.update_eq_self]
  · rw [if_neg h, if_neg h]
    rfl

/-- `on_end` changes the stopped flag, the slot guard and the counter. -/
theorem onEnd_eq (i : ℕ) :
    s.onEnd i =
      { s with
        streams := Function.update s.streams i (s.streams i).ended
        activeCount :=
          if (s.streams i).slotReleased then s.activeCount else s.activeCount - 1 } := by
  rw [onEnd, release_eq]
  simp [setStream, Stream.ended]

theorem onEnd_streams (i j : ℕ) :
    (s.onEnd i).streams j = if j = i then (s.streams j).ended else s.streams j := by
  rw [onEnd_eq]
  by_cases h : j = i
  · subst h
    rw [if_pos rfl]
    exact Function.update_self ..
  · rw [if_neg h]
    exact Function.update_of_ne h ..

/-- Removing an id ends the stream that is registered under it. -/
theorem removeAndEnd_eq (id : ℕ) :
    s.removeAndEnd id =
      { s with
        resumable := s.resumable.erase id
        streams := fun j =>
          if s.resumable.lookup id = some j then (s.streams j).ended else s.streams j
        activeCount := (s.removeAndEnd id).activeCount } := by
  rw [removeAndEnd]
  cases h : s.resumable.lookup id with
  | none => simp [Table.erase_of_lookup_eq_none h]
  | some i =>
    simp only [onEnd_eq, unregister, Option.some.injEq]
    congr 1
    funext j
    by_cases hj : j = i
    · subst hj
      rw [Function.update_self, if_pos rfl]
    · rw [Function.update_of_ne hj, if_neg (Ne.symm hj)]

private theorem foldl_onEnd (es : List (Sigma fun _ : ℕ => ℕ)) :
    ∃ n, es.foldl (fun u e => u.onEnd e.2) s =
      { s with
        streams := fun j => if j ∈ es.map (·.2) then (s.streams j).ended else s.streams j
        activeCount := n } := by
  induction es generalizing s with
  | nil => exact ⟨s.activeCount, by simp⟩
  | cons e es ih =>
    obtain ⟨n, hn⟩ := ih (s.onEnd e.2)
    refine ⟨n, ?_⟩
    have hstreams : (fun j => if j ∈ es.map (·.2) then ((s.onEnd e.2).streams j).ended
        else (s.onEnd e.2).streams j) =
        fun j => if j ∈ (e :: es).map (·.2) then (s.streams j).ended else s.streams j := by
      funext j
      by_cases hj : j = e.2
      · simp only [onEnd_streams, hj, List.map_cons, List.mem_cons, true_or, if_true]
        split <;> rfl
      · simp only [onEnd_streams, hj, List.map_cons, List.mem_cons, false_or, if_false]
    rw [List.foldl_cons, hn, hstreams, onEnd_eq]

/-- Draining the map ends every stream in it. -/
theorem endAll_eq :
    s.endAll =
      { s with
        resumable := ∅
        streams := fun j =>
          if j ∈ s.resumable.entries.map (·.2) then (s.streams j).ended else s.streams j
        activeCount := s.endAll.activeCount } := by
  obtain ⟨n, hn⟩ := foldl_onEnd { s with resumable := ∅ } s.resumable.entries
  rw [endAll, hn]

end State

/-! ## Frames -/

/-- What a frame taken up in position `r` leads to. -/
inductive TakeStep (s : State) (r : Reading) : Message → State → Prop
  | answered {ticket : ℕ} {stream : Option ℕ}
      (hother : ∀ oldId i t rest, r = .resuming oldId i t rest → ticket ≠ t) :
      TakeStep s r (.response ticket stream) (s.complete ticket (.ok stream))
  | refused {ticket : ℕ} (hother : ∀ oldId i t rest, r = .resuming oldId i t rest → ticket ≠ t) :
      TakeStep s r (.error ticket) (s.complete ticket .failed)
  | found {id i : ℕ} {payload : Payload} (hlook : s.resumable.lookup id = some i) :
      TakeStep s r (.data id payload) { s with loop := .sending r i payload }
  | unknown {id : ℕ} {payload : Payload} (hlook : s.resumable.lookup id = none) :
      TakeStep s r (.data id payload) s
  | ended {id : ℕ} : TakeStep s r (.ended id) (s.removeAndEnd id)
  | skipped : TakeStep s r .noise s
  | missing {oldId i ticket newId : ℕ} {rest : List (ℕ × ℕ)}
      (hr : r = .resuming oldId i ticket rest) (hlook : s.resumable.lookup oldId = none) :
      TakeStep s r (.response ticket (some newId)) { s with loop := .resuming rest }
  | spent {oldId i ticket newId j : ℕ} {rest : List (ℕ × ℕ)}
      (hr : r = .resuming oldId i ticket rest) (hlook : s.resumable.lookup oldId = some j)
      (hover : s.isEnded j = true) :
      TakeStep s r (.response ticket (some newId))
        { (s.unregister oldId).onEnd j with loop := .resuming rest }
  | moved {oldId i ticket newId j : ℕ} {rest : List (ℕ × ℕ)}
      (hr : r = .resuming oldId i ticket rest) (hlook : s.resumable.lookup oldId = some j)
      (hkept : s.isEnded j = false) :
      TakeStep s r (.response ticket (some newId))
        { s.unregister oldId with loop := .storing j newId rest }
  | gaveUp {oldId i ticket : ℕ} {rest : List (ℕ × ℕ)} {m : Message}
      (hr : r = .resuming oldId i ticket rest)
      (hm : m = .response ticket none ∨ m = .error ticket) :
      TakeStep s r m (s.giveUp oldId rest)

private theorem takeStep_handle (s : State) (r : Reading) (m : Message)
    (hresp : ∀ ticket stream, m = .response ticket stream →
      ∀ oldId i t rest, r = .resuming oldId i t rest → ticket ≠ t)
    (herr : ∀ ticket, m = .error ticket →
      ∀ oldId i t rest, r = .resuming oldId i t rest → ticket ≠ t) :
    TakeStep s r m (s.handleServerMessage r m) := by
  cases m with
  | response ticket stream => exact .answered (hresp ticket stream rfl)
  | error ticket => exact .refused (herr ticket rfl)
  | data id payload =>
    rw [State.handleServerMessage]
    split
    · exact .found ‹_›
    · exact .unknown ‹_›
  | ended id => exact .ended
  | noise => exact .skipped

private theorem takeStep_takeOut (s : State) (oldId i ticket newId : ℕ) (rest : List (ℕ × ℕ)) :
    TakeStep s (.resuming oldId i ticket rest) (.response ticket (some newId))
      (s.takeOut oldId newId rest) := by
  rw [State.takeOut]
  split
  · split
    · exact .spent rfl ‹_› ‹_›
    · exact .moved rfl ‹_› (Bool.eq_false_iff.mpr ‹_›)
  · exact .missing rfl ‹_›

/-- All that a frame can lead to. -/
theorem takeStep (s : State) (r : Reading) (m : Message) : TakeStep s r m (s.take r m) := by
  cases r with
  | serving =>
    exact takeStep_handle s .serving m (fun _ _ _ _ _ _ _ h => Reading.noConfusion h)
      (fun _ _ _ _ _ _ h => Reading.noConfusion h)
  | resuming oldId i ticket rest =>
    have hother : ∀ {t : ℕ}, t ≠ ticket → ∀ oldId' i' t' rest',
        Reading.resuming oldId i ticket rest = .resuming oldId' i' t' rest' → t ≠ t' := by
      rintro t ht _ _ _ _ ⟨⟩
      exact ht
    cases m with
    | response t stream =>
      rw [State.take]
      by_cases ht : t = ticket
      · subst ht
        rw [if_pos rfl]
        cases stream with
        | none => exact .gaveUp rfl (Or.inl rfl)
        | some newId => exact takeStep_takeOut s oldId i t newId rest
      · rw [if_neg ht]
        exact .answered (hother ht)
    | error t =>
      rw [State.take]
      by_cases ht : t = ticket
      · subst ht
        rw [if_pos rfl]
        exact .gaveUp rfl (Or.inr rfl)
      · rw [if_neg ht]
        exact .refused (hother ht)
    | data id payload =>
      exact takeStep_handle s _ _ (fun _ _ h => Message.noConfusion h)
        (fun _ h => Message.noConfusion h)
    | ended id => exact .ended
    | noise => exact .skipped

/-! ## Fields the operations leave alone -/

namespace State

variable (s : State)

@[simp] theorem release_loop (i : ℕ) : (s.release i).loop = s.loop := by rw [release_eq]

@[simp] theorem release_resumable (i : ℕ) : (s.release i).resumable = s.resumable := by
  rw [release_eq]

@[simp] theorem onEnd_resumable (i : ℕ) : (s.onEnd i).resumable = s.resumable := by rw [onEnd_eq]

@[simp] theorem removeAndEnd_loop (id : ℕ) : (s.removeAndEnd id).loop = s.loop := by
  rw [removeAndEnd_eq]

@[simp] theorem removeAndEnd_resumable (id : ℕ) :
    (s.removeAndEnd id).resumable = s.resumable.erase id := by rw [removeAndEnd_eq]

@[simp] theorem endAll_loop : s.endAll.loop = s.loop := by rw [endAll_eq]

@[simp] theorem endAll_resumable : s.endAll.resumable = ∅ := by rw [endAll_eq]

@[simp] theorem complete_loop (ticket : ℕ) (reply : Reply) :
    (s.complete ticket reply).loop = s.loop := by
  rw [complete]
  split <;> rfl

@[simp] theorem complete_resumable (ticket : ℕ) (reply : Reply) :
    (s.complete ticket reply).resumable = s.resumable := by
  rw [complete]
  split <;> rfl

end State

/-! ## The map -/

/-- An entry of the map was there before, or has been put in by this step. -/
theorem lookup_next {s : State} {a : Action} {id i : ℕ}
    (h : (next s a).resumable.lookup id = some i) :
    s.resumable.lookup id = some i ∨ a = .register i id ∨ ∃ rest, a = .insert i id rest := by
  have herase : ∀ {k : ℕ}, (s.resumable.erase k).lookup id = some i →
      s.resumable.lookup id = some i := fun h => Table.lookup_of_lookup_erase h
  cases a with
  | register j k =>
    by_cases hk : id = k
    · subst hk
      rw [next, registerNext] at h
      simp only [AList.lookup_insert, Option.some.injEq] at h
      exact Or.inr (Or.inl (by rw [h]))
    · exact Or.inl (by rwa [next, registerNext, AList.lookup_insert_ne hk] at h)
  | insert j k rest =>
    by_cases hk : id = k
    · subst hk
      simp only [next, AList.lookup_insert, Option.some.injEq] at h
      exact Or.inr (Or.inr ⟨rest, by rw [h]⟩)
    · exact Or.inl (by rwa [next, AList.lookup_insert_ne hk] at h)
  | receive j ticket a =>
    rw [next, receiveNext] at h
    split at h <;> exact Or.inl h
  | fail j => exact Or.inl (by rwa [next, State.release_resumable] at h)
  | drop j runtime =>
    rw [next, dropNext] at h
    split at h
    · split at h
      · exact Or.inl h
      · exact Or.inl (by rwa [State.release_resumable] at h)
    · exact Or.inl h
  | stopUnregister j k ids => exact Or.inl (herase h)
  | stopRelease j => exact Or.inl (by rwa [next, State.release_resumable] at h)
  | adapterRecv j =>
    rw [next, adapterRecvNext] at h
    split at h <;> exact Or.inl h
  | adapterUnregister j k => exact Or.inl (herase h)
  | clear t =>
    rw [next, State.setTask, State.endAll_resumable] at h
    cases h
  | dequeue sent =>
    rw [next, dequeueNext] at h
    split at h
    · exact Or.inl h
    · split at h <;> exact Or.inl h
  | read r m =>
    have ht := takeStep (s.taken m) r m
    rw [next] at h
    generalize (s.taken m).take r m = s' at h ht
    cases ht with
    | answered => exact Or.inl (by rwa [State.complete_resumable] at h)
    | refused => exact Or.inl (by rwa [State.complete_resumable] at h)
    | ended => exact Or.inl (herase (by rwa [State.removeAndEnd_resumable] at h))
    | spent => exact Or.inl (herase (by rwa [State.onEnd_resumable] at h))
    | moved => exact Or.inl (herase h)
    | gaveUp =>
      rw [State.giveUp, State.removeAndEnd_resumable] at h
      exact Or.inl (herase h)
    | _ => exact Or.inl h
  | sendRaw r j payload =>
    rw [next] at h
    split at h <;> exact Or.inl h
  | dial connected => cases connected <;> exact Or.inl h
  | resume oldId j rest sent =>
    have hgive : ((s.giveUp oldId rest).resumable).lookup id = some i →
        s.resumable.lookup id = some i := by
      rw [State.giveUp, State.removeAndEnd_resumable]
      exact herase
    rw [next, resumeNext] at h
    split at h
    · exact Or.inl (hgive h)
    · split at h
      · exact Or.inl h
      · exact Or.inl (hgive h)
  | cleanup =>
    rw [next, State.failAll, State.endAll_resumable] at h
    cases h
  | _ => exact Or.inl h

/-- A `StreamEnd` leaves no entry under its id. -/
theorem lookup_ended (s : State) (r : Reading) (id : ℕ) :
    (next s (.read r (.ended id))).resumable.lookup id = none := by
  have ht := takeStep (s.taken (.ended id)) r (.ended id)
  rw [next]
  generalize (s.taken (.ended id)).take r (.ended id) = s' at ht
  cases ht with
  | ended =>
    rw [State.removeAndEnd_resumable]
    exact AList.lookup_erase ..
  | gaveUp hr hm => rcases hm with hm | hm <;> cases hm

/-! ## The loop -/

/-- The streams the loop deals with in its position. -/
def Reading.streams : Reading → List ℕ
  | .serving => []
  | .resuming _ i _ rest => i :: rest.map (·.2)

/-- The streams the loop deals with. -/
def Loop.streams : Loop → List ℕ
  | .reading r => r.streams
  | .sending r i _ => i :: r.streams
  | .resuming rest => rest.map (·.2)
  | .storing i _ rest => i :: rest.map (·.2)
  | .inserting i _ rest => i :: rest.map (·.2)
  | _ => []

/-- The request a frame answers, and how. -/
def Message.answer : Message → Option (ℕ × Reply)
  | .response ticket stream => some (ticket, .ok stream)
  | .error ticket => some (ticket, .failed)
  | _ => none

/-- The steps that move the loop whenever they are taken. -/
def Action.movesLoop : Action → Bool
  | .sendRaw _ _ _ => true
  | .leave => true
  | .decide _ => true
  | .dial _ => true
  | .snapshot _ => true
  | .resume _ _ _ _ => true
  | .resumeLost _ _ _ _ => true
  | .store _ _ _ => true
  | .insert _ _ _ => true
  | .resumed => true
  | .cleanup => true
  | _ => false

/-- All that a step can do to the position of the loop. -/
inductive LoopChange (s : State) : Action → Loop → Prop
  | same {a : Action} (hstill : a.movesLoop = false) (hother : ∀ oldId i ticket rest m reply,
      a = .read (.resuming oldId i ticket rest) m → m.answer ≠ some (ticket, reply)) :
      LoopChange s a s.loop
  | found {r : Reading} {id i : ℕ} {payload : Payload} (h : s.loop = .reading r)
      (hlook : s.resumable.lookup id = some i) :
      LoopChange s (.read r (.data id payload)) (.sending r i payload)
  | moved {oldId i ticket newId j : ℕ} {rest : List (ℕ × ℕ)}
      (h : s.loop = .reading (.resuming oldId i ticket rest))
      (hlook : s.resumable.lookup oldId = some j) (hkept : s.isEnded j = false) :
      LoopChange s (.read (.resuming oldId i ticket rest) (.response ticket (some newId)))
        (.storing j newId rest)
  | answered {oldId i ticket : ℕ} {rest : List (ℕ × ℕ)} {m : Message} {reply : Reply}
      (h : s.loop = .reading (.resuming oldId i ticket rest))
      (hm : m.answer = some (ticket, reply)) :
      LoopChange s (.read (.resuming oldId i ticket rest) m) (.resuming rest)
  | sent {r : Reading} {i : ℕ} {payload : Payload} (h : s.loop = .sending r i payload) :
      LoopChange s (.sendRaw r i payload) (.reading r)
  | left (h : s.loop = .reading .serving) : LoopChange s .leave .down
  | finished {stop : Bool} (h : s.loop = .down) : LoopChange s (.decide stop) .cleaning
  | retried {stop : Bool} (h : s.loop = .down) : LoopChange s (.decide stop) .backoff
  | dialled (h : s.loop = .backoff) : LoopChange s (.dial true) .snapshotting
  | dialFailed (h : s.loop = .backoff) : LoopChange s (.dial false) (.reading .serving)
  | snapshot {order : List (ℕ × ℕ)} (h : s.loop = .snapshotting)
      (horder : order.Perm (s.resumable.entries.map fun e => (e.1, e.2))) :
      LoopChange s (.snapshot order) (.resuming order)
  | resumeSent {oldId i : ℕ} {rest : List (ℕ × ℕ)} (h : s.loop = .resuming ((oldId, i) :: rest))
      (hkept : s.isEnded i = false) :
      LoopChange s (.resume oldId i rest true) (.reading (.resuming oldId i s.nextTicket rest))
  | resumeGaveUp {oldId i : ℕ} {rest : List (ℕ × ℕ)} {sent : Bool}
      (h : s.loop = .resuming ((oldId, i) :: rest)) :
      LoopChange s (.resume oldId i rest sent) (.resuming rest)
  | resumeLost {oldId i ticket : ℕ} {rest : List (ℕ × ℕ)}
      (h : s.loop = .reading (.resuming oldId i ticket rest)) :
      LoopChange s (.resumeLost oldId i ticket rest) (.resuming rest)
  | stored {i newId : ℕ} {rest : List (ℕ × ℕ)} (h : s.loop = .storing i newId rest) :
      LoopChange s (.store i newId rest) (.inserting i newId rest)
  | inserted {i newId : ℕ} {rest : List (ℕ × ℕ)} (h : s.loop = .inserting i newId rest) :
      LoopChange s (.insert i newId rest) (.resuming rest)
  | resumed (h : s.loop = .resuming []) : LoopChange s .resumed (.reading .serving)
  | cleaned (h : s.loop = .cleaning) : LoopChange s .cleanup .exited

private theorem loopChange_read {s : State} {r : Reading} {m : Message}
    (hr : s.loop = .reading r) : LoopChange s (.read r m) ((s.taken m).take r m).loop := by
  have hsame : (∀ oldId i ticket rest reply, r = .resuming oldId i ticket rest →
      m.answer ≠ some (ticket, reply)) → LoopChange s (.read r m) s.loop := by
    intro hother
    refine .same rfl ?_
    rintro oldId i ticket rest m' reply ⟨⟩
    exact hother oldId i ticket rest reply rfl
  have ht := takeStep (s.taken m) r m
  generalize (s.taken m).take r m = s' at ht
  cases ht with
  | answered hother =>
    rw [State.complete_loop]
    refine hsame fun oldId i t rest reply hres hm => ?_
    cases hm
    exact hother oldId i _ rest hres rfl
  | refused hother =>
    rw [State.complete_loop]
    refine hsame fun oldId i t rest reply hres hm => ?_
    cases hm
    exact hother oldId i _ rest hres rfl
  | found hlook => exact .found hr hlook
  | unknown => exact hsame (by rintro _ _ _ _ _ - ⟨⟩)
  | ended =>
    rw [State.removeAndEnd_loop]
    exact hsame (by rintro _ _ _ _ _ - ⟨⟩)
  | skipped => exact hsame (by rintro _ _ _ _ _ - ⟨⟩)
  | missing hres =>
    subst hres
    exact .answered hr rfl
  | spent hres =>
    subst hres
    exact .answered hr rfl
  | moved hres hlook hkept =>
    subst hres
    exact .moved hr hlook hkept
  | gaveUp hres hm =>
    subst hres
    rcases hm with rfl | rfl
    · exact .answered hr rfl
    · exact .answered hr rfl

/-- Each step moves the loop in one of these ways, or not at all. -/
theorem loopChange {s : State} {a : Action} (ha : Enabled s a) :
    LoopChange s a (next s a).loop := by
  have hsame : ∀ {l : Loop}, l = s.loop → a.movesLoop = false → (∀ r m, a ≠ .read r m) →
      LoopChange s a l := by
    intro l hl hstill hread
    rw [hl]
    exact .same hstill fun _ _ _ _ _ _ h => absurd h (hread _ _)
  cases a with
  | receive i ticket a =>
    rw [next, receiveNext]
    split <;> exact hsame rfl rfl nofun
  | fail i => exact hsame (State.release_loop ..) rfl nofun
  | drop i runtime =>
    rw [next, dropNext]
    split
    · split
      · exact hsame rfl rfl nofun
      · exact hsame (State.release_loop ..) rfl nofun
    · exact hsame rfl rfl nofun
  | stopRelease i => exact hsame (State.release_loop ..) rfl nofun
  | adapterRecv i =>
    rw [next, adapterRecvNext]
    split <;> exact hsame rfl rfl nofun
  | clear t => exact hsame (State.endAll_loop s) rfl nofun
  | dequeue sent =>
    rw [next, dequeueNext]
    split
    · exact hsame rfl rfl nofun
    · split <;> exact hsame rfl rfl nofun
  | read r m => exact loopChange_read ha.1
  | sendRaw r i payload =>
    rw [next]
    split <;> exact .sent ha.1
  | leave => exact .left ha
  | decide stop =>
    change LoopChange s _ (if _ then Loop.cleaning else Loop.backoff)
    split
    · exact .finished ha
    · exact .retried ha
  | dial connected =>
    cases connected with
    | true => exact .dialled ha
    | false => exact .dialFailed ha
  | snapshot order => exact .snapshot ha.1 ha.2
  | resume oldId i rest sent =>
    rw [next, resumeNext]
    split
    · exact .resumeGaveUp ha
    · split
      · subst sent
        exact .resumeSent ha (Bool.eq_false_iff.mpr ‹_›)
      · exact .resumeGaveUp ha
  | resumeLost oldId i ticket rest => exact .resumeLost ha
  | store i newId rest => exact .stored ha
  | insert i newId rest => exact .inserted ha
  | resumed => exact .resumed ha
  | cleanup => exact .cleaned ha
  | _ => exact hsame rfl rfl nofun

/-- The answer to a resume request leaves no entry under the old id. -/
theorem lookup_answered (s : State) {oldId i ticket : ℕ} {rest : List (ℕ × ℕ)} {m : Message}
    {reply : Reply} (hm : m.answer = some (ticket, reply)) :
    (next s (.read (.resuming oldId i ticket rest) m)).resumable.lookup oldId = none := by
  have ht := takeStep (s.taken m) (.resuming oldId i ticket rest) m
  rw [next]
  generalize (s.taken m).take (.resuming oldId i ticket rest) m = s' at ht
  cases ht with
  | answered hother =>
    cases hm
    exact absurd rfl (hother _ _ _ _ rfl)
  | refused hother =>
    cases hm
    exact absurd rfl (hother _ _ _ _ rfl)
  | missing hr hlook =>
    cases hr
    exact hlook
  | spent hr =>
    cases hr
    rw [show ∀ u : State, ∀ l : Loop, ({ u with loop := l } : State).resumable = u.resumable
      from fun _ _ => rfl, State.onEnd_resumable]
    exact AList.lookup_erase ..
  | moved hr =>
    cases hr
    exact AList.lookup_erase ..
  | gaveUp hr =>
    cases hr
    rw [State.giveUp, State.removeAndEnd_resumable]
    exact AList.lookup_erase ..
  | _ => cases hm

/-- Giving up on an entry leaves none under its id. -/
theorem lookup_resumeGaveUp {s : State} {oldId i : ℕ} {rest : List (ℕ × ℕ)} {sent : Bool}
    (h : (next s (.resume oldId i rest sent)).loop = .resuming rest) :
    (next s (.resume oldId i rest sent)).resumable.lookup oldId = none := by
  have hgive : (s.giveUp oldId rest).resumable.lookup oldId = none := by
    rw [State.giveUp, State.removeAndEnd_resumable]
    exact AList.lookup_erase ..
  rw [next, resumeNext] at h ⊢
  split
  · exact hgive
  · split
    · rw [if_neg ‹_›, if_pos ‹_›] at h
      cases h
    · exact hgive

/-- The loop deals with a stream because it did before or because it has found it in the map. -/
theorem LoopChange.streams {s : State} {a : Action} {l : Loop} (hc : LoopChange s a l) {i : ℕ}
    (hi : i ∈ l.streams) : i ∈ s.loop.streams ∨ ∃ id, s.resumable.lookup id = some i := by
  cases hc with
  | same => exact Or.inl hi
  | found h hlook =>
    rcases List.mem_cons.mp hi with rfl | hi
    · exact Or.inr ⟨_, hlook⟩
    · exact Or.inl (by rw [h]; exact hi)
  | moved h hlook =>
    rcases List.mem_cons.mp hi with rfl | hi
    · exact Or.inr ⟨_, hlook⟩
    · exact Or.inl (by rw [h]; exact List.mem_cons_of_mem _ hi)
  | answered h => exact Or.inl (by rw [h]; exact List.mem_cons_of_mem _ hi)
  | sent h => exact Or.inl (by rw [h]; exact List.mem_cons_of_mem _ hi)
  | snapshot h horder =>
    obtain ⟨e, he, rfl⟩ := List.mem_map.mp hi
    obtain ⟨⟨k, j⟩, hmem, rfl⟩ := List.mem_map.mp (horder.mem_iff.mp he)
    exact Or.inr ⟨k, AList.mem_lookup_iff.mpr hmem⟩
  | resumeSent h => exact Or.inl (by rw [h]; exact hi)
  | resumeGaveUp h => exact Or.inl (by rw [h]; exact List.mem_cons_of_mem _ hi)
  | resumeLost h => exact Or.inl (by rw [h]; exact List.mem_cons_of_mem _ hi)
  | stored h => exact Or.inl (by rw [h]; exact hi)
  | inserted h => exact Or.inl (by rw [h]; exact List.mem_cons_of_mem _ hi)
  | _ => cases hi

/-- The loop waits for room in a raw channel because it did before or because a frame for the stream
has come. -/
theorem LoopChange.sending {s : State} {a : Action} {r : Reading} {i : ℕ} {payload : Payload}
    {l : Loop} (hc : LoopChange s a l) (hl : l = .sending r i payload) :
    s.loop = .sending r i payload ∨
      ∃ id, a = .read r (.data id payload) ∧ s.resumable.lookup id = some i := by
  cases hc with
  | same => exact Or.inl hl
  | found h hlook =>
    cases hl
    exact Or.inr ⟨_, rfl, hlook⟩
  | _ => cases hl

end Lifecycle

end TitanClient
