import TitanClient.Backpressure
import TitanClient.Budget
import TitanClient.LifecycleKeys

/-!
# What the streams have begun

Each step that the tasks of the client take by themselves brings something nearer to its end: a
start, a stop sequence, a quote on its way to the owner, a shutdown, a resumption, a frame that has
arrived. So there are no long runs of such steps, and only the owners, the server or a new
connection give the client more to do.

A shutdown and a resumption go through all entries of the map. No stream is under two keys, so
there are no more of them than streams.

## Main results

* `State.effort` — how many internal steps there can still be
* `entries_length_le` — how many entries the map can have
* `pays_next` — each internal step is paid for
-/

namespace TitanClient

namespace Lifecycle

open Budget

/-! ## Own steps -/

/-- The steps that the tasks of the client take by themselves. -/
def Action.isInternal (s : State) : Action → Bool
  | .begin _ => false
  | .recv _ => false
  | .stop _ => false
  | .drop _ _ => false
  | .shutdown _ => false
  | .leave => s.shutdown
  | .dial _ => false
  | .resumeLost _ _ _ _ => false
  | .lose => false
  | .accept _ _ _ => false
  | .carryOut _ _ _ => false
  | .serverSend _ => false
  | _ => true

/-! ## Costs -/

/-- What a start still costs, its request in the channel and the end of its adapter included. -/
def Start.cost : Start → ℕ
  | .requesting => 6
  | .awaiting _ => 4
  | .registering _ => 3
  | .failing => 1
  | _ => 0

/-- What a stop sequence still costs. For each id there is a request, its answer and an entry. -/
def Stopper.cost : Stopper → ℕ
  | .loading => 17
  | .loaded _ => 16
  | .requesting ids => 4 * ids.length + 3
  | .awaiting _ ids => 4 * ids.length + 1
  | .unregistering ids => 4 * ids.length
  | .releasing => 1
  | _ => 0

/-- What an adapter still costs with `n` frames in its raw channel. -/
def Adapter.cost (n : ℕ) : Adapter → ℕ
  | .receiving => 2 * n + 2
  | .holding _ => 2 * n + 3
  | .failing => 2
  | .unregistering _ => 1
  | _ => 0

/-- What a stream still costs. -/
def Stream.cost (v : Stream) : ℕ :=
  v.start.cost + v.stopper.cost + v.adapter.cost v.raw.length

/-- What a task still costs, with up to `n` entries in the map. -/
def Task.cost (n : ℕ) : Task → ℕ
  | .idle => 0
  | .stopping _ => 1
  | .collecting => 3 * n + 3
  | .requesting ids => 3 * ids.length + 2
  | .awaiting _ ids => 3 * ids.length + 3
  | .clearing => 2
  | .cancelling => 1

/-- What reading still costs, apart from the frames. -/
def Reading.cost : Reading → ℕ
  | .serving => 3
  | .resuming _ _ _ rest => rest.length + 4

/-- What the loop still costs, with up to `n` entries in the map. -/
def Loop.cost (n : ℕ) : Loop → ℕ
  | .reading r => r.cost
  | .sending r _ _ => r.cost + 3
  | .down => 2
  | .snapshotting => n + 5
  | .resuming rest => rest.length + 4
  | .storing _ _ rest => rest.length + 6
  | .inserting _ _ rest => rest.length + 5
  | .cleaning => 1
  | _ => 0

namespace State

variable (s : State)

/-- What the streams still cost. -/
def streamsCost : ℕ := weigh Stream.cost s.streams s.streamCount

/-- What the first `n` tasks still cost. -/
def tasksCost (n : ℕ) : ℕ := weigh (Task.cost s.streamCount) s.tasks n

/-- What the loop still costs, with the requests and the frames it has to deal with. -/
def loopCost : ℕ := s.channel.length + 5 * s.wire.length + s.loop.cost s.streamCount

/-- How many internal steps there can still be, if only the first `n` tasks are doing anything. -/
def effort (n : ℕ) : ℕ := s.streamsCost + s.tasksCost n + s.loopCost

end State

/-! ## The map -/

/-- There are no more entries in the map than streams. -/
theorem entries_length_le {s : State} (hw : Wired s) (hk : Keyed s) :
    s.resumable.entries.length ≤ s.streamCount := by
  have hlook : ∀ e ∈ s.resumable.entries, s.resumable.lookup e.1 = some e.2 :=
    fun e he => AList.mem_lookup_iff.mpr he
  have hnodup : (s.resumable.entries.map (·.2)).Nodup := by
    refine List.Nodup.map_on ?_ s.resumable.nodupKeys.nodup
    rintro ⟨id, i⟩ hi ⟨id', j⟩ hj hij
    cases hij
    have hid : id = id' := hk.unique (hlook ⟨id, i⟩ hi) (hlook ⟨id', i⟩ hj)
    rw [hid]
  have hlt : (s.resumable.entries.map (·.2)).toFinset ⊆ Finset.range s.streamCount := by
    intro i hi
    obtain ⟨e, he, rfl⟩ := List.mem_map.mp (List.mem_toFinset.mp hi)
    exact Finset.mem_range.mpr (hw.lt_of_done (hw.mapped e.1 e.2 (hlook e he)))
  have hcard := Finset.card_le_card hlt
  rwa [List.toFinset_card_of_nodup hnodup, List.length_map, Finset.card_range] at hcard

/-! ## What the operations cost -/

section

variable {s u : State} {i : ℕ} {v : Stream}

/-- The flags and the slot cost nothing. -/
theorem streamsCost_congr (hcount : u.streamCount = s.streamCount)
    (h : ∀ j, (u.streams j).cost = (s.streams j).cost) : u.streamsCost = s.streamsCost := by
  rw [State.streamsCost, State.streamsCost, hcount]
  exact weigh_congr fun j _ => h j

theorem streamsCost_setStream (hi : i < s.streamCount) :
    (s.setStream i v).streamsCost + (s.streams i).cost = s.streamsCost + v.cost :=
  weigh_update Stream.cost s.streams hi v

/-- A change of stream `i` that costs nothing. -/
theorem streamsCost_update (hv : v.cost = (s.streams i).cost) :
    (s.setStream i v).streamsCost = s.streamsCost := by
  refine streamsCost_congr rfl fun j => ?_
  by_cases hj : j = i
  · rw [hj, State.setStream_streams_self, hv]
  · rw [State.setStream_streams_of_ne s hj]

theorem streamsCost_release (s : State) (i : ℕ) : (s.release i).streamsCost = s.streamsCost := by
  rw [State.release_eq]
  exact streamsCost_update (v := { s.streams i with slotReleased := true }) rfl

theorem streamsCost_onEnd (s : State) (i : ℕ) : (s.onEnd i).streamsCost = s.streamsCost := by
  refine streamsCost_congr (by rw [State.onEnd_eq]) fun j => ?_
  rw [State.onEnd_streams]
  split <;> rfl

theorem streamsCost_removeAndEnd (s : State) (id : ℕ) :
    (s.removeAndEnd id).streamsCost = s.streamsCost := by
  rw [State.removeAndEnd_eq]
  refine streamsCost_congr rfl fun j => ?_
  dsimp only
  split <;> rfl

theorem streamsCost_endAll (s : State) : s.endAll.streamsCost = s.streamsCost := by
  rw [State.endAll_eq]
  refine streamsCost_congr rfl fun j => ?_
  dsimp only
  split <;> rfl

theorem tasksCost_setTask {n t : ℕ} (ht : t < n) (p : Task) :
    (s.setTask t p).tasksCost n + (s.tasks t).cost s.streamCount =
      s.tasksCost n + p.cost s.streamCount :=
  weigh_update (Task.cost s.streamCount) s.tasks ht p

theorem tasksCost_release (s : State) (n i : ℕ) : (s.release i).tasksCost n = s.tasksCost n := by
  rw [State.release_eq]
  rfl

theorem tasksCost_onEnd (s : State) (n i : ℕ) : (s.onEnd i).tasksCost n = s.tasksCost n := by
  rw [State.onEnd_eq]
  rfl

theorem tasksCost_removeAndEnd (s : State) (n id : ℕ) :
    (s.removeAndEnd id).tasksCost n = s.tasksCost n := by
  rw [State.removeAndEnd_eq]
  rfl

theorem tasksCost_endAll (s : State) (n : ℕ) : s.endAll.tasksCost n = s.tasksCost n := by
  rw [State.endAll_eq]
  rfl

theorem loopCost_release (s : State) (i : ℕ) : (s.release i).loopCost = s.loopCost := by
  rw [State.release_eq]
  rfl

theorem loopCost_removeAndEnd (s : State) (id : ℕ) :
    (s.removeAndEnd id).loopCost = s.loopCost := by
  rw [State.removeAndEnd_eq]
  rfl

theorem loopCost_endAll (s : State) : s.endAll.loopCost = s.loopCost := by
  rw [State.endAll_eq]
  rfl

end

/-! ## Steps of the streams -/

section

variable {s u : State} {n i : ℕ} {v : Stream}

/-- What has something to do has begun. -/
theorem Wired.lt_of_cost (hw : Wired s) (h : 0 < (s.streams i).cost) : i < s.streamCount := by
  by_contra hlt
  rw [hw.unused i (Nat.le_of_not_lt hlt)] at h
  exact absurd h (by decide)

/-- A step of stream `i` that leaves the loop alone. -/
theorem effort_lt_of_stream (hw : Wired s)
    (hstreams : u.streamsCost = (s.setStream i v).streamsCost)
    (htasks : u.tasksCost n = s.tasksCost n) (hloop : u.loopCost = s.loopCost)
    (hpaid : v.cost < (s.streams i).cost) : u.effort n < s.effort n := by
  have hchange := streamsCost_setStream (v := v) (hw.lt_of_cost (Nat.zero_lt_of_lt hpaid))
  rw [State.effort, State.effort, hstreams, htasks, hloop]
  omega

/-- A step of stream `i` that puts a request into the channel. -/
theorem effort_lt_of_push (hw : Wired s) {r : Request}
    (hpaid : v.cost + 1 < (s.streams i).cost) :
    ((s.setStream i v).push r).effort n < s.effort n := by
  have hchange := streamsCost_setStream (v := v) (hw.lt_of_cost (Nat.zero_lt_of_lt hpaid))
  have hloop : ((s.setStream i v).push r).loopCost = s.loopCost + 1 := by
    simp only [State.loopCost, State.push, State.setStream, List.length_append,
      List.length_singleton]
    omega
  have hstreams : ((s.setStream i v).push r).streamsCost = (s.setStream i v).streamsCost := rfl
  have htasks : ((s.setStream i v).push r).tasksCost n = s.tasksCost n := rfl
  rw [State.effort, State.effort, hstreams, htasks, hloop]
  omega

theorem cost_lt_of_start {v w : Stream} (k : ℕ) (h : v.start.cost + k < w.start.cost)
    (hstopper : v.stopper = w.stopper) (hadapter : v.adapter = w.adapter) (hraw : v.raw = w.raw) :
    v.cost + k < w.cost := by
  rw [Stream.cost, Stream.cost, hstopper, hadapter, hraw]
  omega

theorem cost_lt_of_stopper {v w : Stream} (k : ℕ) (h : v.stopper.cost + k < w.stopper.cost)
    (hstart : v.start = w.start) (hadapter : v.adapter = w.adapter) (hraw : v.raw = w.raw) :
    v.cost + k < w.cost := by
  rw [Stream.cost, Stream.cost, hstart, hadapter, hraw]
  omega

theorem cost_lt_of_adapter {v w : Stream}
    (h : v.adapter.cost v.raw.length < w.adapter.cost w.raw.length)
    (hstart : v.start = w.start) (hstopper : v.stopper = w.stopper) : v.cost < w.cost := by
  rw [Stream.cost, Stream.cost, hstart, hstopper]
  omega

theorem cost_stopNextId (ids : List ℕ) : (stopNextId ids).cost < 4 * (ids.length + 1) := by
  cases ids with
  | nil => decide
  | cons id ids =>
    simp only [stopNextId, Stopper.cost, List.length_cons]
    omega

/-- There are at most three ids to be stopped. -/
theorem stopIds_length (first second original : ℕ) :
    (stopIds first second original).length ≤ 3 := by
  simp only [stopIds, List.length_append, List.length_singleton]
  split <;> split <;> simp

/-- The steps of starts. -/
def Action.isStarts : Action → Bool
  | .request _ => true
  | .refused _ => true
  | .receive _ _ _ => true
  | .register _ _ => true
  | .fail _ => true
  | _ => false

/-- The steps of stop sequences. -/
def Action.isStoppers : Action → Bool
  | .stopLoad _ => true
  | .stopReload _ _ => true
  | .stopRequest _ _ _ => true
  | .stopRefused _ _ _ => true
  | .stopReceive _ _ _ => true
  | .stopUnregister _ _ _ => true
  | .stopRelease _ => true
  | _ => false

/-- The steps of adapters. -/
def Action.isAdapters : Action → Bool
  | .adapterRecv _ => true
  | .adapterForward _ _ => true
  | .adapterFail _ _ => true
  | .adapterLoad _ => true
  | .adapterUnregister _ _ => true
  | .adapterEnd _ => true
  | _ => false

theorem pays_starts (hw : Wired s) {a : Action} (ha : Enabled s a) (hof : a.isStarts = true) :
    (next s a).effort n < s.effort n := by
  cases a with
  | request i =>
    have hstart := ha.1
    exact effort_lt_of_push hw
      (cost_lt_of_start 1 (by simp [hstart, Start.cost]) rfl rfl rfl)
  | refused i =>
    have hstart := ha.1
    exact effort_lt_of_stream hw rfl rfl rfl
      (cost_lt_of_start 0 (by simp [hstart, Start.cost]) rfl rfl rfl)
  | receive i ticket a =>
    have hstart := ha.1
    rw [next, receiveNext]
    split <;> exact effort_lt_of_stream hw rfl rfl rfl
      (cost_lt_of_start 0 (by simp [hstart, Start.cost]) rfl rfl rfl)
  | register i id =>
    have hstart := ha.1
    have hne : (s.streams i).start ≠ .done := by rw [hstart]; exact Start.noConfusion
    -- The start pays for the end of the adapter.
    refine effort_lt_of_stream hw rfl rfl rfl ?_
    simp only [Stream.cost, hstart, ((hw.ok i).unregistered hne).1, Start.cost, Adapter.cost,
      List.length_nil]
    omega
  | fail i =>
    have hstart : (s.streams i).start = .failing := ha
    exact effort_lt_of_stream hw (streamsCost_release ..) (tasksCost_release ..)
      (loopCost_release ..)
      (cost_lt_of_start 0 (by simp [hstart, Start.cost]) rfl rfl rfl)
  | _ => cases hof

theorem pays_stoppers (hw : Wired s) {a : Action} (ha : Enabled s a)
    (hof : a.isStoppers = true) : (next s a).effort n < s.effort n := by
  cases a with
  | stopLoad i =>
    have hstopper : (s.streams i).stopper = .loading := ha
    exact effort_lt_of_stream hw rfl rfl rfl
      (cost_lt_of_stopper 0 (by simp [hstopper, Stopper.cost]) rfl rfl rfl)
  | stopReload i first =>
    have hstopper : (s.streams i).stopper = .loaded first := ha
    have hlength := stopIds_length first (s.streams i).effectiveId (s.streams i).streamId
    refine effort_lt_of_stream hw rfl rfl rfl (cost_lt_of_stopper 0 ?_ rfl rfl rfl)
    simp only [hstopper, Stopper.cost]
    omega
  | stopRequest i id ids =>
    have hstopper := ha.1
    exact effort_lt_of_push hw
      (cost_lt_of_stopper 1 (by simp [hstopper, Stopper.cost]) rfl rfl rfl)
  | stopRefused i id ids =>
    have hstopper := ha.1
    exact effort_lt_of_stream hw rfl rfl rfl
      (cost_lt_of_stopper 0 (by simp [hstopper, Stopper.cost]) rfl rfl rfl)
  | stopReceive i ticket ids =>
    have hstopper := ha.1
    exact effort_lt_of_stream hw rfl rfl rfl
      (cost_lt_of_stopper 0 (by simp [hstopper, Stopper.cost]) rfl rfl rfl)
  | stopUnregister i id ids =>
    have hstopper := ha.1
    refine effort_lt_of_stream hw rfl rfl rfl (cost_lt_of_stopper 0 ?_ rfl rfl rfl)
    rw [hstopper]
    exact cost_stopNextId ids
  | stopRelease i =>
    have hstopper : (s.streams i).stopper = .releasing := ha
    exact effort_lt_of_stream hw (streamsCost_release ..) (tasksCost_release ..)
      (loopCost_release ..)
      (cost_lt_of_stopper 0 (by simp [hstopper, Stopper.cost]) rfl rfl rfl)
  | _ => cases hof

theorem pays_adapters (hw : Wired s) {a : Action} (ha : Enabled s a)
    (hof : a.isAdapters = true) : (next s a).effort n < s.effort n := by
  cases a with
  | adapterRecv i =>
    have hadapter := ha.1
    rw [next, adapterRecvNext]
    split
    case h_3 hraw => exact absurd hraw ha.2
    all_goals
      rename_i hraw
      refine effort_lt_of_stream hw rfl rfl rfl (cost_lt_of_adapter ?_ rfl rfl)
      simp only [hadapter, hraw, Adapter.cost, List.length_cons]
      omega
  | adapterForward i q =>
    have hadapter := ha.1
    exact effort_lt_of_stream hw rfl rfl rfl
      (cost_lt_of_adapter (by simp [hadapter, Adapter.cost]) rfl rfl)
  | adapterFail i q =>
    have hadapter := ha.1
    refine effort_lt_of_stream hw rfl rfl rfl (cost_lt_of_adapter ?_ rfl rfl)
    simp only [hadapter, Adapter.cost]
    omega
  | adapterLoad i =>
    have hadapter : (s.streams i).adapter = .failing := ha
    exact effort_lt_of_stream hw rfl rfl rfl
      (cost_lt_of_adapter (by simp [hadapter, Adapter.cost]) rfl rfl)
  | adapterUnregister i id =>
    have hadapter := ha.1
    exact effort_lt_of_stream hw rfl rfl rfl
      (cost_lt_of_adapter (by simp [hadapter, Adapter.cost]) rfl rfl)
  | adapterEnd i =>
    have hadapter := ha.1
    exact effort_lt_of_stream hw rfl rfl rfl
      (cost_lt_of_adapter (by simp [hadapter, Adapter.cost]) rfl rfl)
  | _ => cases hof

end

/-! ## Steps of the tasks -/

section

variable {s u : State} {n t : ℕ} {p : Task}

/-- The first `n` tasks are all that are doing anything. -/
def State.BusyBelow (s : State) (n : ℕ) : Prop := ∀ t, n ≤ t → s.tasks t = .idle

theorem State.BusyBelow.lt (hn : s.BusyBelow n) (h : s.tasks t ≠ .idle) : t < n := by
  by_contra hlt
  exact h (hn t (Nat.le_of_not_lt hlt))

/-- A step of task `t`, which may put a request into the channel. -/
theorem effort_lt_of_task (hn : s.BusyBelow n) (ht : s.tasks t ≠ .idle)
    (hstreams : u.streamsCost = s.streamsCost)
    (htasks : u.tasksCost n = (s.setTask t p).tasksCost n)
    (hpaid : p.cost s.streamCount + u.loopCost < (s.tasks t).cost s.streamCount + s.loopCost) :
    u.effort n < s.effort n := by
  have hchange := tasksCost_setTask (s := s) (hn.lt ht) p
  rw [State.effort, State.effort, hstreams, htasks]
  omega

theorem cost_shutdownNextId (m : ℕ) (ids : List ℕ) :
    (shutdownNextId ids).cost m ≤ 3 * ids.length + 2 := by
  cases ids with
  | nil => exact le_refl 2
  | cons id ids => exact le_refl _

theorem cost_collectNext {m : ℕ} {ids : List ℕ} (h : ids.length ≤ m) :
    (collectNext ids).cost m < 3 * m + 3 := by
  cases ids with
  | nil =>
    simp only [collectNext, Task.cost]
    omega
  | cons id ids =>
    simp only [collectNext, Task.cost]
    omega

/-- The steps of tasks. -/
def Action.isTasks : Action → Bool
  | .stopReturn _ => true
  | .collect _ _ => true
  | .shutdownRequest _ _ _ => true
  | .shutdownRefused _ _ _ => true
  | .shutdownReceive _ _ _ => true
  | .clear _ => true
  | .cancel _ => true
  | _ => false

theorem pays_tasks (hw : Wired s) (hk : Keyed s) (hn : s.BusyBelow n) {a : Action}
    (ha : Enabled s a) (hof : a.isTasks = true) : (next s a).effort n < s.effort n := by
  cases a with
  | stopReturn i =>
    have htask := ha.2.1
    refine effort_lt_of_task hn (by rw [htask]; exact Task.noConfusion)
      (streamsCost_update (v := { s.streams i with handle := .stopped }) rfl) rfl ?_
    rw [htask]
    exact Nat.add_lt_add_right Nat.zero_lt_one _
  | collect t ids =>
    have htask := ha.1
    refine effort_lt_of_task hn (by rw [htask]; exact Task.noConfusion) rfl rfl ?_
    have hlength : ids.length ≤ s.streamCount := by
      rw [ha.2.2.length_eq, AList.keys, List.keys, List.length_map]
      exact entries_length_le hw hk
    rw [htask]
    exact Nat.add_lt_add_right (cost_collectNext hlength) _
  | shutdownRequest t id ids =>
    have htask := ha.1
    refine effort_lt_of_task hn (by rw [htask]; exact Task.noConfusion) rfl rfl ?_
    simp only [htask, Task.cost, next, State.loopCost, State.push, State.setTask,
      List.length_append, List.length_cons, List.length_nil]
    omega
  | shutdownRefused t id ids =>
    have htask := ha.1
    refine effort_lt_of_task hn (by rw [htask]; exact Task.noConfusion) rfl rfl ?_
    have hcost := cost_shutdownNextId s.streamCount ids
    rw [htask]
    refine Nat.add_lt_add_right (lt_of_le_of_lt hcost ?_) _
    simp only [Task.cost, List.length_cons]
    omega
  | shutdownReceive t ticket ids =>
    have htask := ha.1
    refine effort_lt_of_task hn (by rw [htask]; exact Task.noConfusion) rfl rfl ?_
    rw [htask]
    exact Nat.add_lt_add_right (Nat.lt_succ_of_le (cost_shutdownNextId s.streamCount ids)) _
  | clear t =>
    have htask := ha.1
    refine effort_lt_of_task (p := .cancelling) hn (by rw [htask]; exact Task.noConfusion)
      (streamsCost_endAll s) ?_ ?_
    · rw [next, State.endAll_eq]
      rfl
    · have hloop : (next s (.clear t)).loopCost = s.loopCost := loopCost_endAll s
      rw [htask, hloop]
      exact Nat.add_lt_add_right Nat.one_lt_two _
  | cancel t =>
    have htask : s.tasks t = .cancelling := ha
    refine effort_lt_of_task hn (by rw [htask]; exact Task.noConfusion) rfl rfl ?_
    rw [htask]
    exact Nat.add_lt_add_right Nat.zero_lt_one _
  | _ => cases hof

end

/-! ## Steps of the loop -/

section

variable {s u : State} {n : ℕ}

/-- A step of the loop that costs the streams and the tasks nothing. -/
theorem effort_lt_of_loop (hstreams : u.streamsCost = s.streamsCost)
    (htasks : u.tasksCost n = s.tasksCost n) (hpaid : u.loopCost < s.loopCost) :
    u.effort n < s.effort n := by
  rw [State.effort, State.effort, hstreams, htasks]
  omega

/-- What a frame leads to costs less than the frame. -/
theorem take_cost {r : Reading} {m : Message} (hloop : s.loop = .reading r) :
    (s.take r m).streamsCost = s.streamsCost ∧ (s.take r m).tasksCost n = s.tasksCost n ∧
      (s.take r m).loopCost ≤ s.loopCost + 3 := by
  have ht := takeStep s r m
  generalize s.take r m = t at ht
  cases ht with
  | answered =>
    rw [State.complete]
    split <;> exact ⟨rfl, rfl, Nat.le_add_right ..⟩
  | refused =>
    rw [State.complete]
    split <;> exact ⟨rfl, rfl, Nat.le_add_right ..⟩
  | found => exact ⟨rfl, rfl, by simp [State.loopCost, hloop, Loop.cost]; omega⟩
  | unknown => exact ⟨rfl, rfl, Nat.le_add_right ..⟩
  | @ended id =>
    exact ⟨streamsCost_removeAndEnd s id, tasksCost_removeAndEnd s n id,
      (loopCost_removeAndEnd s id).le.trans (Nat.le_add_right ..)⟩
  | skipped => exact ⟨rfl, rfl, Nat.le_add_right ..⟩
  | missing hr =>
    refine ⟨rfl, rfl, ?_⟩
    simp [State.loopCost, hloop, hr, Loop.cost, Reading.cost]
  | @spent oldId _ _ _ j _ hr =>
    refine ⟨streamsCost_onEnd (s.unregister oldId) j, tasksCost_onEnd (s.unregister oldId) n j, ?_⟩
    rw [State.onEnd_eq]
    simp [State.loopCost, hloop, hr, Loop.cost, Reading.cost, State.unregister]
  | moved hr =>
    refine ⟨rfl, rfl, ?_⟩
    simp only [State.loopCost, hloop, hr, Loop.cost, Reading.cost, State.unregister]
    omega
  | @gaveUp oldId _ _ _ _ hr =>
    refine ⟨streamsCost_removeAndEnd s oldId, tasksCost_removeAndEnd s n oldId, ?_⟩
    rw [State.giveUp, State.removeAndEnd_eq]
    simp [State.loopCost, hloop, hr, Loop.cost, Reading.cost]

/-- A frame in the raw channel costs the adapter two steps. -/
theorem cost_raw (v : Stream) (payload : Payload) :
    ({ v with raw := v.raw ++ [payload] } : Stream).cost ≤ v.cost + 2 := by
  have hadapter : v.adapter.cost (v.raw.length + 1) ≤ v.adapter.cost v.raw.length + 2 := by
    cases v.adapter <;> simp only [Adapter.cost] <;> omega
  simp only [Stream.cost, List.length_append, List.length_singleton]
  omega

theorem pays_loop (hw : Wired s) (hk : Keyed s) {a : Action} (ha : Enabled s a)
    (hin : a.isInternal s = true) (hof : a.movesLoop = true ∨ (∃ sent, a = .dequeue sent) ∨
      ∃ r m, a = .read r m) : (next s a).effort n < s.effort n := by
  cases a with
  | dequeue sent =>
    have hloop := ha.1
    cases hchannel : s.channel with
    | nil => exact absurd hchannel ha.2
    | cons e rest =>
      rw [next, dequeueNext, hchannel]
      cases sent <;>
        exact effort_lt_of_loop rfl rfl (by simp [State.loopCost, State.failAll, hchannel])
  | read r m =>
    have hloop := ha.1
    have hhead := ha.2
    have htake := take_cost (n := n) (m := m) (s := s.taken m) hloop
    have htaken : (s.taken m).loopCost + 5 = s.loopCost := by
      cases hwire : s.wire with
      | nil =>
        rw [hwire] at hhead
        cases hhead
      | cons f rest =>
        simp only [State.loopCost, State.taken, hwire, List.tail_cons, List.length_cons]
        omega
    refine effort_lt_of_loop htake.1 htake.2.1 ?_
    have hle := htake.2.2
    change (State.take (s.taken m) r m).loopCost < _
    omega
  | sendRaw r i payload =>
    have hloop := ha.1
    rw [next]
    split
    · exact effort_lt_of_loop rfl rfl (by simp [State.loopCost, hloop, Loop.cost])
    · have hdone := hw.inLoop i (by rw [hloop]; exact List.mem_cons_self)
      generalize hv : ({ s.streams i with raw := (s.streams i).raw ++ [payload] } : Stream) = v
      have hchange := streamsCost_setStream (v := v) (hw.lt_of_done hdone)
      have hraw : v.cost ≤ (s.streams i).cost + 2 := hv ▸ cost_raw (s.streams i) payload
      have hpaid : s.channel.length + 5 * s.wire.length + r.cost + 3 = s.loopCost := by
        rw [State.loopCost, hloop, Loop.cost, Nat.add_assoc]
      -- The handing on pays for what the adapter will do with the frame.
      change (s.setStream i v).streamsCost + s.tasksCost n +
        (s.channel.length + 5 * s.wire.length + r.cost) < s.streamsCost + s.tasksCost n + s.loopCost
      omega
  | leave =>
    have hloop : s.loop = .reading .serving := ha
    refine effort_lt_of_loop rfl rfl ?_
    simp only [next, State.loopCost, State.failAll, hloop, Loop.cost, Reading.cost]
    omega
  | decide giveUp =>
    have hloop : s.loop = .down := ha
    refine effort_lt_of_loop rfl rfl ?_
    rw [next]
    simp only [State.loopCost, hloop]
    split <;> simp [Loop.cost]
  | snapshot order =>
    have hloop := ha.1
    have hlength : order.length ≤ s.streamCount := by
      rw [ha.2.length_eq, List.length_map]
      exact entries_length_le hw hk
    refine effort_lt_of_loop rfl rfl ?_
    simp only [next, State.loopCost, hloop, Loop.cost]
    omega
  | resume oldId i rest sent =>
    have hloop : s.loop = .resuming ((oldId, i) :: rest) := ha
    have hgiveUp : (s.giveUp oldId rest).effort n < s.effort n := by
      refine effort_lt_of_loop (streamsCost_removeAndEnd s oldId)
        (tasksCost_removeAndEnd s n oldId) ?_
      rw [State.giveUp, State.removeAndEnd_eq]
      simp [State.loopCost, hloop, Loop.cost]
    rw [next, resumeNext]
    split
    · exact hgiveUp
    · split
      · exact effort_lt_of_loop rfl rfl (by simp [State.loopCost, hloop, Loop.cost, Reading.cost])
      · exact hgiveUp
  | store i newId rest =>
    have hloop : s.loop = .storing i newId rest := ha
    refine effort_lt_of_loop
      (streamsCost_update (v := { s.streams i with effectiveId := newId }) rfl) rfl ?_
    simp [next, State.loopCost, State.setStream, hloop, Loop.cost]
  | insert i newId rest =>
    have hloop : s.loop = .inserting i newId rest := ha
    exact effort_lt_of_loop rfl rfl (by simp [next, State.loopCost, hloop, Loop.cost])
  | resumed =>
    have hloop : s.loop = .resuming [] := ha
    exact effort_lt_of_loop rfl rfl
      (by simp [next, State.loopCost, hloop, Loop.cost, Reading.cost])
  | cleanup =>
    have hloop : s.loop = .cleaning := ha
    refine effort_lt_of_loop (streamsCost_endAll s) (tasksCost_endAll s n) ?_
    rw [next, State.endAll_eq]
    simp only [State.loopCost, hloop, Loop.cost, List.length_nil]
    omega
  | dial connected => cases hin
  | resumeLost oldId i ticket rest => cases hin
  | _ => simp [Action.movesLoop] at hof

end

/-! ## Every step is paid for -/

section

variable {s : State} {n : ℕ} {a : Action}

theorem pays_next (hw : Wired s) (hk : Keyed s) (hn : s.BusyBelow n) (ha : Enabled s a)
    (hin : a.isInternal s = true) : (next s a).effort n < s.effort n := by
  cases a with
  | request i => exact pays_starts hw ha rfl
  | refused i => exact pays_starts hw ha rfl
  | receive i ticket a => exact pays_starts hw ha rfl
  | register i id => exact pays_starts hw ha rfl
  | fail i => exact pays_starts hw ha rfl
  | stopLoad i => exact pays_stoppers hw ha rfl
  | stopReload i first => exact pays_stoppers hw ha rfl
  | stopRequest i id ids => exact pays_stoppers hw ha rfl
  | stopRefused i id ids => exact pays_stoppers hw ha rfl
  | stopReceive i ticket ids => exact pays_stoppers hw ha rfl
  | stopUnregister i id ids => exact pays_stoppers hw ha rfl
  | stopRelease i => exact pays_stoppers hw ha rfl
  | adapterRecv i => exact pays_adapters hw ha rfl
  | adapterForward i q => exact pays_adapters hw ha rfl
  | adapterFail i q => exact pays_adapters hw ha rfl
  | adapterLoad i => exact pays_adapters hw ha rfl
  | adapterUnregister i id => exact pays_adapters hw ha rfl
  | adapterEnd i => exact pays_adapters hw ha rfl
  | stopReturn i => exact pays_tasks hw hk hn ha rfl
  | collect t ids => exact pays_tasks hw hk hn ha rfl
  | shutdownRequest t id ids => exact pays_tasks hw hk hn ha rfl
  | shutdownRefused t id ids => exact pays_tasks hw hk hn ha rfl
  | shutdownReceive t ticket ids => exact pays_tasks hw hk hn ha rfl
  | clear t => exact pays_tasks hw hk hn ha rfl
  | cancel t => exact pays_tasks hw hk hn ha rfl
  | dequeue sent => exact pays_loop hw hk ha hin (Or.inr (Or.inl ⟨sent, rfl⟩))
  | read r m => exact pays_loop hw hk ha hin (Or.inr (Or.inr ⟨r, m, rfl⟩))
  | begin t => cases hin
  | recv i => cases hin
  | stop i => cases hin
  | drop i runtime => cases hin
  | shutdown t => cases hin
  | lose => cases hin
  | accept ticket i id => cases hin
  | carryOut ticket r ok => cases hin
  | serverSend m => cases hin
  | _ => exact pays_loop hw hk ha hin (Or.inl rfl)

/-- A task begins something only when it is called. -/
theorem task_stays_idle {t : ℕ} (hidle : s.tasks t = .idle) (ha : Enabled s a)
    (hcall : a.caller s ≠ some t) : (next s a).tasks t = .idle := by
  have hc := taskChange ha t
  generalize (next s a).tasks t = p at hc
  cases hc with
  | same => exact hidle
  | stopping howner => exact absurd (congrArg some howner) hcall
  | shutdown => exact absurd rfl hcall
  | returned => rfl
  | cancelled => rfl
  | collected h => cases hidle.symm.trans h
  | requested h => cases hidle.symm.trans h
  | refused h => cases hidle.symm.trans h
  | received h => cases hidle.symm.trans h
  | cleared h => cases hidle.symm.trans h

theorem State.BusyBelow.next (hn : s.BusyBelow n) (ha : Enabled s a)
    (hin : a.isInternal s = true) : (Lifecycle.next s a).BusyBelow n := by
  refine fun t ht => task_stays_idle (hn t ht) ha ?_
  cases a with
  | stop i => cases hin
  | shutdown t => cases hin
  | _ => exact nofun

/-- Only finitely many tasks have ever been called. -/
theorem exec_busyBelow {as : List Action} (hv : system.Valid init as) :
    ∃ n, (system.exec init as).BusyBelow n := by
  refine Transition.System.invariant (I := fun s => ∃ n, s.BusyBelow n) ?_ ⟨0, fun _ _ => rfl⟩ hv
  rintro s a ⟨n, hn⟩ ha
  refine ⟨max n ((a.caller s).getD 0 + 1), fun t ht => ?_⟩
  refine task_stays_idle (hn t (le_of_max_le_left ht)) ha fun hcall => ?_
  have hlt := le_of_max_le_right ht
  rw [hcall] at hlt
  exact Nat.not_succ_le_self t hlt

end

end Lifecycle

end TitanClient
