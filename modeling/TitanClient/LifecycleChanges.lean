import TitanClient.LifecycleBasics

/-!
# What one step can do to a stream or a task

A step changes few streams and at most one task, and each of them in one of finitely many ways. An
invariant that speaks about single streams is a case analysis over these ways, with no look at the
rest of the state.

## The shape of the relations

`Change s i a v` says what a step `a` from the state `s` can make of stream `i`. It is indexed by
the action, so that a case that does not fit the action at hand goes away by itself, and each
constructor carries what the step found: the position it was enabled in, and the entry under which a
stream was ended. Two constructors fit every action. `same` is the frame: most steps leave most
streams alone. `ended` is the `on_end` callback, which the loop, the final cleanup and
`stop_all_streams` call for streams that are not their own.

`TaskChange` is the same for the tasks. No step of the loop moves a task.

## What is left out

What a step does to the map, to the loop, and to the requests and frames on their way is said
elsewhere: in `lookup_next` and `LoopChange` (`LifecycleBasics`), and in `MailChange`
(`LifecycleMail`). All of this is about one step from any state at all; what holds of reachable
states only, such as `Wired`, comes after it.

## Main results

* `Change`, `change` — all that a step can do to one stream
* `TaskChange`, `taskChange` — all that a step can do to one task
-/

namespace TitanClient

namespace Lifecycle

/-! ## Streams -/

/-- All that a step can do to stream `i`. -/
inductive Change (s : State) (i : ℕ) : Action → Stream → Prop
  | same {a : Action} : Change s i a (s.streams i)
  | ended {a : Action} {id : ℕ} (hlook : s.resumable.lookup id = some i) :
      Change s i a (s.streams i).ended
  | begun {t : ℕ} (hi : i = s.streamCount) :
      Change s i (.begin t) { owner := t, start := .requesting }
  | requested (h : (s.streams i).start = .requesting) :
      Change s i (.request i) { s.streams i with start := .awaiting s.nextTicket }
  | startRefused (h : (s.streams i).start = .requesting) :
      Change s i (.refused i) { s.streams i with start := .failing }
  | answered {ticket id seen : ℕ} (h : (s.streams i).start = .awaiting ticket)
      (ha : s.answers ticket = some ⟨.ok (some id), seen⟩) :
      Change s i (.receive i ticket ⟨.ok (some id), seen⟩)
        { s.streams i with start := .registering id, since := seen }
  | denied {ticket : ℕ} {a : Answer} (h : (s.streams i).start = .awaiting ticket)
      (hstream : ∀ id, a.reply ≠ .ok (some id)) :
      Change s i (.receive i ticket a) { s.streams i with start := .failing }
  | registered {id : ℕ} (h : (s.streams i).start = .registering id) :
      Change s i (.register i id)
        { s.streams i with
          start := .done
          streamId := id
          effectiveId := id
          raw := []
          adapter := .receiving
          quotes := []
          received := []
          handle := .live }
  | failed (h : (s.streams i).start = .failing) :
      Change s i (.fail i) { s.streams i with start := .failed, slotReleased := true }
  | received {q : ℕ} {quotes : List ℕ} (hhandle : (s.streams i).handle = .live ∨
      (s.streams i).handle = .stopped) (h : (s.streams i).quotes = q :: quotes) :
      Change s i (.recv i)
        { s.streams i with quotes := quotes, received := (s.streams i).received ++ [q] }
  | stopped (h : (s.streams i).handle = .live) :
      Change s i (.stop i)
        { s.streams i with stopped := true, handle := .stopping, stopper := .loading }
  | dropped (h : (s.streams i).handle = .live) :
      Change s i (.drop i true)
        { s.streams i with stopped := true, handle := .dropped, stopper := .loading }
  | droppedOutside (h : (s.streams i).handle = .live) :
      Change s i (.drop i false)
        { s.streams i with stopped := true, handle := .dropped, slotReleased := true }
  | droppedStopped {runtime : Bool} (h : (s.streams i).handle = .stopped) :
      Change s i (.drop i runtime) { s.streams i with handle := .dropped }
  | loaded (h : (s.streams i).stopper = .loading) :
      Change s i (.stopLoad i)
        { s.streams i with stopper := .loaded (s.streams i).effectiveId }
  | reloaded {first : ℕ} (h : (s.streams i).stopper = .loaded first) :
      Change s i (.stopReload i first)
        { s.streams i with
          stopper :=
            .requesting (stopIds first (s.streams i).effectiveId (s.streams i).streamId) }
  | stopRequested {id : ℕ} {ids : List ℕ} (h : (s.streams i).stopper = .requesting (id :: ids)) :
      Change s i (.stopRequest i id ids)
        { s.streams i with stopper := .awaiting s.nextTicket (id :: ids) }
  | stopRefused {id : ℕ} {ids : List ℕ} (h : (s.streams i).stopper = .requesting (id :: ids)) :
      Change s i (.stopRefused i id ids)
        { s.streams i with stopper := .unregistering (id :: ids) }
  | stopReceived {ticket : ℕ} {ids : List ℕ}
      (h : (s.streams i).stopper = .awaiting ticket ids) :
      Change s i (.stopReceive i ticket ids) { s.streams i with stopper := .unregistering ids }
  | stopUnregistered {id : ℕ} {ids : List ℕ}
      (h : (s.streams i).stopper = .unregistering (id :: ids)) :
      Change s i (.stopUnregister i id ids) { s.streams i with stopper := stopNextId ids }
  | stopReleased (h : (s.streams i).stopper = .releasing) :
      Change s i (.stopRelease i) { s.streams i with stopper := .done, slotReleased := true }
  | stopReturned (h : (s.streams i).handle = .stopping) (hdone : (s.streams i).stopper = .done) :
      Change s i (.stopReturn i) { s.streams i with handle := .stopped }
  | adapterTook {q : ℕ} {rest : List Payload} (h : (s.streams i).adapter = .receiving)
      (hraw : (s.streams i).raw = .quotes q :: rest) :
      Change s i (.adapterRecv i) { s.streams i with raw := rest, adapter := .holding q }
  | adapterSkipped {rest : List Payload} (h : (s.streams i).adapter = .receiving)
      (hraw : (s.streams i).raw = .other :: rest) :
      Change s i (.adapterRecv i) { s.streams i with raw := rest }
  | adapterForwarded {q : ℕ} (h : (s.streams i).adapter = .holding q)
      (hhandle : (s.streams i).handle ≠ .dropped) (hroom : (s.streams i).quotes.length < capacity) :
      Change s i (.adapterForward i q)
        { s.streams i with adapter := .receiving, quotes := (s.streams i).quotes ++ [q] }
  | adapterFailed {q : ℕ} (h : (s.streams i).adapter = .holding q)
      (hhandle : (s.streams i).handle = .dropped) :
      Change s i (.adapterFail i q) { s.streams i with adapter := .failing }
  | adapterLoaded (h : (s.streams i).adapter = .failing) :
      Change s i (.adapterLoad i)
        { s.streams i with adapter := .unregistering (s.streams i).effectiveId }
  | adapterUnregistered {id : ℕ} (h : (s.streams i).adapter = .unregistering id) :
      Change s i (.adapterUnregister i id) { s.streams i with adapter := .exited }
  | adapterEnded (h : (s.streams i).adapter = .receiving) (hraw : (s.streams i).raw = []) :
      Change s i (.adapterEnd i) { s.streams i with adapter := .exited }
  | sentRaw {r : Reading} {payload : Payload} (h : s.loop = .sending r i payload)
      (hlive : (s.streams i).adapter ≠ .exited) (hroom : (s.streams i).raw.length < capacity) :
      Change s i (.sendRaw r i payload)
        { s.streams i with raw := (s.streams i).raw ++ [payload] }
  | stored {newId : ℕ} {rest : List (ℕ × ℕ)} (h : s.loop = .storing i newId rest) :
      Change s i (.store i newId rest) { s.streams i with effectiveId := newId }

private theorem change_setStream {s : State} {a : Action} {j : ℕ} {v : Stream}
    (hv : Change s j a v) (i : ℕ) : Change s i a ((s.setStream j v).streams i) := by
  by_cases hj : i = j
  · subst hj
    rwa [State.setStream_streams_self]
  · rw [State.setStream_streams_of_ne s hj]
    exact .same

private theorem change_release {s : State} {a : Action} {j : ℕ} {v : Stream}
    (hv : Change s j a { v with slotReleased := true }) (i : ℕ) :
    Change s i a (((s.setStream j v).release j).streams i) := by
  rw [State.release_eq]
  by_cases hj : i = j
  · subst hj
    simp only [Function.update_self, State.setStream_streams_self]
    exact hv
  · simp only [Function.update_of_ne hj, State.setStream_streams_of_ne s hj]
    exact .same

private theorem change_removeAndEnd (s : State) (a : Action) (id i : ℕ) :
    Change s i a ((s.removeAndEnd id).streams i) := by
  rw [State.removeAndEnd_eq]
  change Change s i a (if s.resumable.lookup id = some i then (s.streams i).ended else s.streams i)
  split
  · exact .ended ‹_›
  · exact .same

private theorem change_endAll (s : State) (a : Action) (i : ℕ) :
    Change s i a (s.endAll.streams i) := by
  rw [State.endAll_eq]
  change Change s i a (if i ∈ s.resumable.entries.map (·.2) then (s.streams i).ended
    else s.streams i)
  split
  · rename_i hmem
    obtain ⟨⟨k, j⟩, he, rfl⟩ := List.mem_map.mp hmem
    exact .ended (AList.mem_lookup_iff.mpr he)
  · exact .same

private theorem change_read (s : State) (r : Reading) (m : Message) (i : ℕ) :
    Change s i (.read r m) (((s.taken m).take r m).streams i) := by
  have hcomplete : ∀ ticket reply,
      Change s i (.read r m) (((s.taken m).complete ticket reply).streams i) := by
    intro ticket reply
    rw [State.complete]
    split <;> exact .same
  have hremove : ∀ id, Change s i (.read r m) (((s.taken m).removeAndEnd id).streams i) := by
    intro id
    rw [State.removeAndEnd_eq]
    change Change s i _ (if s.resumable.lookup id = some i then (s.streams i).ended
      else s.streams i)
    split
    · exact .ended ‹_›
    · exact .same
  have ht := takeStep (s.taken m) r m
  generalize (s.taken m).take r m = s' at ht
  cases ht with
  | answered => exact hcomplete ..
  | refused => exact hcomplete ..
  | ended => exact hremove _
  | @spent oldId _ _ _ j _ _ hlook _ =>
    change Change s i _ ((((s.taken _).unregister oldId).onEnd j).streams i)
    rw [State.onEnd_streams]
    split
    · rename_i hij
      exact .ended (hij ▸ hlook)
    · exact .same
  | gaveUp => exact hremove _
  | _ => exact .same

/-- Each step changes a stream in one of these ways, or not at all. -/
theorem change {s : State} {a : Action} (ha : Enabled s a) (i : ℕ) :
    Change s i a ((next s a).streams i) := by
  cases a with
  | begin t => exact change_setStream (.begun rfl) i
  | request j => exact change_setStream (.requested ha.1) i
  | refused j => exact change_setStream (.startRefused ha.1) i
  | receive j ticket a =>
    obtain ⟨reply, seen⟩ := a
    match reply with
    | .ok (some id) => exact change_setStream (.answered ha.1 ha.2) i
    | .ok none => exact change_setStream (.denied ha.1 (by simp)) i
    | .failed => exact change_setStream (.denied ha.1 (by simp)) i
  | register j id => exact change_setStream (.registered ha.1) i
  | fail j => exact change_release (.failed ha) i
  | recv j =>
    obtain ⟨q, quotes, hq⟩ := List.exists_cons_of_ne_nil ha.2.2
    refine change_setStream ?_ i
    rw [hq]
    exact .received ha.1 hq
  | stop j => exact change_setStream (.stopped ha.1) i
  | drop j runtime =>
    rw [next, dropNext]
    rcases ha.1 with hj | hj
    · rw [hj]
      cases runtime with
      | true => exact change_setStream (.dropped hj) i
      | false => exact change_release (.droppedOutside hj) i
    · rw [hj]
      exact change_setStream (.droppedStopped hj) i
  | stopLoad j => exact change_setStream (.loaded ha) i
  | stopReload j first => exact change_setStream (.reloaded ha) i
  | stopRequest j id ids => exact change_setStream (.stopRequested ha.1) i
  | stopRefused j id ids => exact change_setStream (.stopRefused ha.1) i
  | stopReceive j ticket ids => exact change_setStream (.stopReceived ha.1) i
  | stopUnregister j id ids => exact change_setStream (.stopUnregistered ha.1) i
  | stopRelease j => exact change_release (.stopReleased ha) i
  | stopReturn j => exact change_setStream (.stopReturned ha.1 ha.2.2) i
  | adapterRecv j =>
    rw [next, adapterRecvNext]
    split
    · exact change_setStream (.adapterTook ha.1 ‹_›) i
    · exact change_setStream (.adapterSkipped ha.1 ‹_›) i
    · exact .same
  | adapterForward j q => exact change_setStream (.adapterForwarded ha.1 ha.2.1 ha.2.2) i
  | adapterFail j q => exact change_setStream (.adapterFailed ha.1 ha.2) i
  | adapterLoad j => exact change_setStream (.adapterLoaded ha) i
  | adapterUnregister j id => exact change_setStream (.adapterUnregistered ha.1) i
  | adapterEnd j => exact change_setStream (.adapterEnded ha.1 ha.2.1) i
  | clear t => exact change_endAll s _ i
  | dequeue sent =>
    rw [next, dequeueNext]
    split
    · exact .same
    · split <;> exact .same
  | read r m => exact change_read s r m i
  | sendRaw r j payload =>
    rw [next]
    split
    · exact .same
    · exact change_setStream (.sentRaw ha.1 ‹_› (ha.2.resolve_left ‹_›)) i
  | dial connected => cases connected <;> exact .same
  | resume oldId j rest sent =>
    rw [next, resumeNext]
    split
    · exact change_removeAndEnd s _ oldId i
    · split
      · exact .same
      · exact change_removeAndEnd s _ oldId i
  | store j newId rest => exact change_setStream (.stored ha) i
  | cleanup => exact change_endAll s _ i
  | _ => exact .same

/-! ## Tasks -/

/-- All that a step can do to the task `t`. -/
inductive TaskChange (s : State) (t : ℕ) : Action → Task → Prop
  | same {a : Action} : TaskChange s t a (s.tasks t)
  | stopping {i : ℕ} (howner : (s.streams i).owner = t) (h : s.tasks t = .idle) :
      TaskChange s t (.stop i) (.stopping i)
  | returned {i : ℕ} (howner : (s.streams i).owner = t) (h : s.tasks t = .stopping i) :
      TaskChange s t (.stopReturn i) .idle
  | shutdown (h : s.tasks t = .idle) : TaskChange s t (.shutdown t) .collecting
  | collected {ids : List ℕ} (h : s.tasks t = .collecting) (hids : ids.Perm s.resumable.keys) :
      TaskChange s t (.collect t ids) (collectNext ids)
  | requested {id : ℕ} {ids : List ℕ} (h : s.tasks t = .requesting (id :: ids)) :
      TaskChange s t (.shutdownRequest t id ids) (.awaiting s.nextTicket ids)
  | refused {id : ℕ} {ids : List ℕ} (h : s.tasks t = .requesting (id :: ids)) :
      TaskChange s t (.shutdownRefused t id ids) (shutdownNextId ids)
  | received {ticket : ℕ} {ids : List ℕ} (h : s.tasks t = .awaiting ticket ids) :
      TaskChange s t (.shutdownReceive t ticket ids) (shutdownNextId ids)
  | cleared (h : s.tasks t = .clearing) : TaskChange s t (.clear t) .cancelling
  | cancelled (h : s.tasks t = .cancelling) : TaskChange s t (.cancel t) .idle

private theorem taskChange_setTask {s u : State} {a : Action} {t' : ℕ} {p : Task}
    (hu : u.tasks = s.tasks) (hp : TaskChange s t' a p) (t : ℕ) :
    TaskChange s t a ((u.setTask t' p).tasks t) := by
  by_cases ht : t = t'
  · subst ht
    have hself : (u.setTask t p).tasks t = p := Function.update_self ..
    rwa [hself]
  · simp only [State.setTask, Function.update_of_ne ht, hu]
    exact .same

@[simp] theorem State.release_tasks (s : State) (i : ℕ) : (s.release i).tasks = s.tasks := by
  rw [State.release_eq]

@[simp] theorem State.removeAndEnd_tasks (s : State) (id : ℕ) :
    (s.removeAndEnd id).tasks = s.tasks := by
  rw [State.removeAndEnd_eq]

@[simp] theorem State.endAll_tasks (s : State) : s.endAll.tasks = s.tasks := by
  rw [State.endAll_eq]

/-- A frame moves no task. -/
theorem State.take_tasks (s : State) (r : Reading) (m : Message) :
    (s.take r m).tasks = s.tasks := by
  have ht := takeStep s r m
  generalize s.take r m = s' at ht
  cases ht with
  | answered =>
    rw [State.complete]
    split <;> rfl
  | refused =>
    rw [State.complete]
    split <;> rfl
  | ended => rw [State.removeAndEnd_eq]
  | spent => rw [State.onEnd_eq, State.unregister]
  | gaveUp => rw [State.giveUp, State.removeAndEnd_eq]
  | _ => rfl

/-- Each step moves a task in one of these ways, or not at all. -/
theorem taskChange {s : State} {a : Action} (ha : Enabled s a) (t : ℕ) :
    TaskChange s t a ((next s a).tasks t) := by
  have hsame : ∀ {u : State}, u.tasks = s.tasks → TaskChange s t a (u.tasks t) := by
    intro u hu
    rw [hu]
    exact .same
  cases a with
  | receive i ticket a =>
    rw [next, receiveNext]
    split <;> exact .same
  | fail i => exact hsame (State.release_tasks ..)
  | stop i => exact taskChange_setTask (by rfl) (.stopping rfl ha.2) t
  | drop i runtime =>
    rw [next, dropNext]
    split
    · split
      · exact .same
      · exact hsame (State.release_tasks ..)
    · exact .same
  | stopRelease i => exact hsame (State.release_tasks ..)
  | stopReturn i => exact taskChange_setTask (by rfl) (.returned rfl ha.2.1) t
  | adapterRecv i =>
    rw [next, adapterRecvNext]
    split <;> exact .same
  | shutdown t' => exact taskChange_setTask rfl (.shutdown ha) t
  | collect t' ids => exact taskChange_setTask rfl (.collected ha.1 ha.2.2) t
  | shutdownRequest t' id ids => exact taskChange_setTask rfl (.requested ha.1) t
  | shutdownRefused t' id ids => exact taskChange_setTask rfl (.refused ha.1) t
  | shutdownReceive t' ticket ids => exact taskChange_setTask rfl (.received ha.1) t
  | clear t' => exact taskChange_setTask (State.endAll_tasks s) (.cleared ha.1) t
  | cancel t' => exact taskChange_setTask rfl (.cancelled ha) t
  | dequeue sent =>
    rw [next, dequeueNext]
    split
    · exact .same
    · split <;> exact .same
  | read r m => exact hsame (State.take_tasks (s.taken m) r m)
  | sendRaw r i payload =>
    rw [next]
    split <;> exact .same
  | dial connected => cases connected <;> exact .same
  | resume oldId i rest sent =>
    rw [next, resumeNext]
    split
    · exact hsame (State.removeAndEnd_tasks s oldId)
    · split
      · exact .same
      · exact hsame (State.removeAndEnd_tasks s oldId)
  | cleanup => exact hsame (State.endAll_tasks s)
  | _ => exact .same

end Lifecycle

end TitanClient
