import TitanClient.LifecycleWiring
import TitanClient.Tally

/-!
# Slots and streams

The counter of the manager, read against the streams: it is the number of streams that have begun
and whose slot has not been given back. A slot is given back in one step here; that the counter
follows the guard when it takes two is shown in `SlotAccounting`.

## Main results

* `Releases`, `released_next` — who gives a slot back
* `State.unreleased` — the number of streams that hold a slot
* `exec_counted` — `active_count` is that number, in every reachable state
-/

namespace TitanClient

namespace Lifecycle

/-! ## Who gives a slot back -/

/-- The steps that give back the slot of stream `i`. -/
inductive Releases (s : State) (i : ℕ) : Action → Prop
  | failed (h : (s.streams i).start = .failing) : Releases s i (.fail i)
  | dropped : Releases s i (.drop i false)
  | stopped (h : (s.streams i).stopper = .releasing) : Releases s i (.stopRelease i)
  | ended {r : Reading} {id : ℕ} (hlook : s.resumable.lookup id = some i) :
      Releases s i (.read r (.ended id))
  | answered {oldId j ticket : ℕ} {rest : List (ℕ × ℕ)} {m : Message} {reply : Reply}
      (hlook : s.resumable.lookup oldId = some i) (hm : m.answer = some (ticket, reply)) :
      Releases s i (.read (.resuming oldId j ticket rest) m)
  | resumed {oldId j : ℕ} {rest : List (ℕ × ℕ)} {sent : Bool}
      (hlook : s.resumable.lookup oldId = some i) : Releases s i (.resume oldId j rest sent)
  | cleared {t : ℕ} : Releases s i (.clear t)
  | cleaned : Releases s i .cleanup

section

variable {s : State} {a : Action} {i : ℕ}

private theorem released_setStream {j : ℕ} {v : Stream}
    (h : ((s.setStream j v).streams i).slotReleased = true)
    (hv : v.slotReleased = (s.streams j).slotReleased) :
    (s.streams i).slotReleased = true := by
  by_cases hij : i = j
  · subst hij
    rw [State.setStream_streams_self] at h
    exact hv.symm.trans h
  · rwa [State.setStream_streams_of_ne s hij] at h

private theorem released_release {j : ℕ} {v : Stream}
    (h : (((s.setStream j v).release j).streams i).slotReleased = true) :
    (s.streams i).slotReleased = true ∨ i = j := by
  by_cases hij : i = j
  · exact Or.inr hij
  · rw [State.release_eq] at h
    simp only [Function.update_of_ne hij, State.setStream_streams_of_ne s hij] at h
    exact Or.inl h

private theorem released_removeAndEnd {id : ℕ}
    (h : ((s.removeAndEnd id).streams i).slotReleased = true) :
    (s.streams i).slotReleased = true ∨ s.resumable.lookup id = some i := by
  by_cases hlook : s.resumable.lookup id = some i
  · exact Or.inr hlook
  · rw [State.removeAndEnd_eq] at h
    simp only [if_neg hlook] at h
    exact Or.inl h

private theorem released_read {r : Reading} {m : Message}
    (h : (((s.taken m).take r m).streams i).slotReleased = true) :
    (s.streams i).slotReleased = true ∨ Releases s i (.read r m) := by
  have hcomplete : ∀ {ticket reply},
      (((s.taken m).complete ticket reply).streams i).slotReleased = true →
        (s.streams i).slotReleased = true := by
    intro ticket reply h
    rw [State.complete] at h
    split at h <;> exact h
  have ht := takeStep (s.taken m) r m
  generalize (s.taken m).take r m = s' at h ht
  cases ht with
  | answered => exact Or.inl (hcomplete h)
  | refused => exact Or.inl (hcomplete h)
  | ended => exact (released_removeAndEnd h).imp_right fun hlook => .ended hlook
  | @spent oldId _ _ _ j _ hr hlook =>
    subst hr
    change ((((s.taken _).unregister oldId).onEnd j).streams i).slotReleased = true at h
    rw [State.onEnd_streams] at h
    split at h
    · rename_i hij
      exact Or.inr (.answered (hij ▸ hlook) rfl)
    · exact Or.inl h
  | gaveUp hr hm =>
    subst hr
    rcases released_removeAndEnd h with hold | hlook
    · exact Or.inl hold
    · rcases hm with rfl | rfl
      · exact Or.inr (.answered hlook rfl)
      · exact Or.inr (.answered hlook rfl)
  | _ => exact Or.inl h

/-- A slot was given back before, or by one of these steps. -/
theorem released_next (ha : Enabled s a) (h : ((next s a).streams i).slotReleased = true) :
    (s.streams i).slotReleased = true ∨ Releases s i a := by
  cases a with
  | begin t =>
    by_cases hi : i = s.streamCount
    · subst hi
      change ((s.setStream _ _).streams _).slotReleased = true at h
      rw [State.setStream_streams_self] at h
      cases h
    · change ((s.setStream _ _).streams _).slotReleased = true at h
      rw [State.setStream_streams_of_ne s hi] at h
      exact Or.inl h
  | receive j ticket a =>
    rw [next, receiveNext] at h
    split at h <;> exact Or.inl (released_setStream h rfl)
  | fail j =>
    rcases released_release h with hold | rfl
    · exact Or.inl hold
    · exact Or.inr (.failed ha)
  | drop j runtime =>
    rw [next, dropNext] at h
    split at h
    · cases runtime with
      | true => exact Or.inl (released_setStream h rfl)
      | false =>
        rcases released_release h with hold | rfl
        · exact Or.inl hold
        · exact Or.inr .dropped
    · exact Or.inl (released_setStream h rfl)
  | stopRelease j =>
    rcases released_release h with hold | rfl
    · exact Or.inl hold
    · exact Or.inr (.stopped ha)
  | adapterRecv j =>
    rw [next, adapterRecvNext] at h
    split at h
    · exact Or.inl (released_setStream h rfl)
    · exact Or.inl (released_setStream h rfl)
    · exact Or.inl h
  | clear t => exact Or.inr .cleared
  | dequeue sent =>
    rw [next, dequeueNext] at h
    split at h
    · exact Or.inl h
    · split at h <;> exact Or.inl h
  | read r m => exact released_read h
  | sendRaw r j payload =>
    rw [next] at h
    split at h
    · exact Or.inl h
    · exact Or.inl (released_setStream h rfl)
  | dial connected => cases connected <;> exact Or.inl h
  | resume oldId j rest sent =>
    rw [next, resumeNext] at h
    split at h
    · exact (released_removeAndEnd h).imp_right fun hlook => .resumed hlook
    · split at h
      · exact Or.inl h
      · exact (released_removeAndEnd h).imp_right fun hlook => .resumed hlook
  | cleanup => exact Or.inr .cleaned
  | request j | refused j | register j | recv j | stop j | stopLoad j | stopReload j | stopRequest j
  | stopRefused j | stopReceive j | stopUnregister j | stopReturn j | adapterForward j
  | adapterFail j | adapterLoad j | adapterUnregister j | adapterEnd j | store j =>
    exact Or.inl (released_setStream h rfl)
  | _ => exact Or.inl h

end

/-! ## How many slots are held -/

/-- The number of streams that hold a slot. -/
def State.unreleased (s : State) : ℕ :=
  Nat.count (fun i => (s.streams i).slotReleased = false) s.streamCount

/-- The counter is the number of streams that hold a slot. -/
def Counted (s : State) : Prop := s.activeCount = s.unreleased

namespace Counted

variable {s : State}

/-- Nothing changes as long as no slot is given back. -/
theorem congr {u : State} (h : Counted s) (hcount : u.streamCount = s.streamCount)
    (hactive : u.activeCount = s.activeCount)
    (hslot : ∀ i, (u.streams i).slotReleased = (s.streams i).slotReleased) : Counted u := by
  rw [Counted, State.unreleased, hcount, hactive, h, State.unreleased]
  exact Tally.count_congr fun i _ => by rw [hslot i]

theorem setStream (h : Counted s) {i : ℕ} {v : Stream}
    (hv : v.slotReleased = (s.streams i).slotReleased) : Counted (s.setStream i v) := by
  refine h.congr rfl rfl fun j => ?_
  by_cases hj : j = i
  · subst hj
    rw [State.setStream_streams_self, hv]
  · rw [State.setStream_streams_of_ne s hj]

/-- Giving a slot back counts it no longer. -/
theorem release (h : Counted s) {i : ℕ} (hi : i < s.streamCount) : Counted (s.release i) := by
  rw [State.release]
  by_cases hrel : (s.streams i).slotReleased = true
  · rwa [if_pos hrel]
  · rw [if_neg hrel]
    have hgain : s.unreleased = Nat.count (fun j =>
        ((s.setStream i { s.streams i with slotReleased := true }).streams j).slotReleased = false)
          s.streamCount + 1 := by
      refine Tally.count_gain hi ?_ (Bool.eq_false_iff.mpr hrel) fun j _ hj => ?_
      · rw [State.setStream_streams_self]
        exact Bool.noConfusion
      · rw [State.setStream_streams_of_ne s hj]
    change s.activeCount - 1 = _
    rw [h, hgain]
    rfl

theorem setStream_release (h : Counted s) {i : ℕ} (hi : i < s.streamCount) {v : Stream}
    (hv : v.slotReleased = (s.streams i).slotReleased) : Counted ((s.setStream i v).release i) := by
  have hset : Counted (s.setStream i v) := h.setStream hv
  exact hset.release hi

theorem onEnd (h : Counted s) {i : ℕ} (hi : i < s.streamCount) : Counted (s.onEnd i) :=
  h.setStream_release hi rfl

theorem unregister (h : Counted s) (id : ℕ) : Counted (s.unregister id) := h

theorem removeAndEnd (h : Counted s) {id : ℕ}
    (hlt : ∀ i, s.resumable.lookup id = some i → i < s.streamCount) :
    Counted (s.removeAndEnd id) := by
  rw [State.removeAndEnd]
  split
  · exact (h.unregister id).onEnd (hlt _ ‹_›)
  · exact h

theorem foldl_onEnd (es : List (Sigma fun _ : ℕ => ℕ)) (h : Counted s)
    (hlt : ∀ e ∈ es, e.2 < s.streamCount) : Counted (es.foldl (fun u e => u.onEnd e.2) s) := by
  induction es generalizing s with
  | nil => exact h
  | cons e es ih =>
    refine ih (h.onEnd (hlt e List.mem_cons_self)) fun e' he' => ?_
    simp only [State.onEnd_eq]
    exact hlt e' (List.mem_cons_of_mem _ he')

theorem endAll (h : Counted s) (hlt : ∀ id i, s.resumable.lookup id = some i → i < s.streamCount) :
    Counted s.endAll := by
  have hempty : Counted { s with resumable := ∅ } := h
  refine hempty.foldl_onEnd _ fun e he => ?_
  exact hlt e.1 e.2 (AList.mem_lookup_iff.mpr he)

private theorem next_read (h : Counted s) (hw : Wired s) (r : Reading) (m : Message) :
    Counted ((s.taken m).take r m) := by
  have htaken : Counted (s.taken m) := h
  have hlt : ∀ id i, s.resumable.lookup id = some i → i < s.streamCount :=
    fun id i hlook => hw.lt_of_done (hw.mapped id i hlook)
  have hcomplete : ∀ ticket reply, Counted ((s.taken m).complete ticket reply) := by
    intro ticket reply
    rw [State.complete]
    split <;> exact htaken
  have ht := takeStep (s.taken m) r m
  generalize (s.taken m).take r m = s' at ht
  cases ht with
  | answered => exact hcomplete ..
  | refused => exact hcomplete ..
  | ended => exact htaken.removeAndEnd (hlt _)
  | spent _ hlook => exact (htaken.unregister _).onEnd (hlt _ _ hlook)
  | gaveUp => exact htaken.removeAndEnd (hlt _)
  | _ => exact htaken

theorem next (h : Counted s) (hw : Wired s) {a : Action} (ha : Enabled s a) :
    Counted (next s a) := by
  have hlt : ∀ id i, s.resumable.lookup id = some i → i < s.streamCount :=
    fun id i hlook => hw.lt_of_done (hw.mapped id i hlook)
  have hbegun : ∀ {i : ℕ}, s.streams i ≠ {} → i < s.streamCount := by
    intro i hi
    by_contra hle
    exact hi (hw.unused i (Nat.not_lt.mp hle))
  cases a with
  | begin t =>
    have hfresh : ∀ i < s.streamCount, i ≠ s.streamCount := fun i hi => Nat.ne_of_lt hi
    change s.activeCount + 1 = Nat.count (fun i =>
      ((s.setStream s.streamCount { owner := t, start := .requesting }).streams i).slotReleased
        = false) (s.streamCount + 1)
    rw [Nat.count_succ, State.setStream_streams_self, if_pos rfl, h]
    congr 1
    exact Tally.count_congr fun i hi => by rw [State.setStream_streams_of_ne s (hfresh i hi)]
  | receive i ticket a =>
    rw [Lifecycle.next, receiveNext]
    split <;> exact h.setStream rfl
  | fail i =>
    refine h.setStream_release (hbegun fun hi => ?_) rfl
    rw [Enabled, hi] at ha
    cases ha
  | drop i runtime =>
    rw [Lifecycle.next, dropNext]
    split
    · split
      · exact h.setStream rfl
      · refine h.setStream_release (hbegun fun hi => ?_) rfl
        rename_i hlive _
        rw [hi] at hlive
        cases hlive
    · exact h.setStream rfl
  | stopRelease i =>
    refine h.setStream_release (hbegun fun hi => ?_) rfl
    rw [Enabled, hi] at ha
    cases ha
  | adapterRecv i =>
    rw [Lifecycle.next, adapterRecvNext]
    split
    · exact h.setStream rfl
    · exact h.setStream rfl
    · exact h
  | clear t => exact h.endAll hlt
  | dequeue sent =>
    rw [Lifecycle.next, dequeueNext]
    split
    · exact h
    · split <;> exact h
  | read r m => exact h.next_read hw r m
  | sendRaw r i payload =>
    rw [Lifecycle.next]
    split
    · exact h
    · exact h.setStream rfl
  | dial connected => cases connected <;> exact h
  | resume oldId i rest sent =>
    rw [Lifecycle.next, resumeNext]
    split
    · exact h.removeAndEnd (hlt oldId)
    · split
      · exact h
      · exact h.removeAndEnd (hlt oldId)
  | cleanup => exact h.endAll hlt
  | request i | refused i | register i | recv i | stop i | stopLoad i | stopReload i | stopRequest i
  | stopRefused i | stopReceive i | stopUnregister i | stopReturn i | adapterForward i
  | adapterFail i | adapterLoad i | adapterUnregister i | adapterEnd i | store i =>
    exact h.setStream rfl
  | _ => exact h

end Counted

theorem exec_counted {as : List Action} (hv : system.Valid init as) :
    Counted (system.exec init as) :=
  (Transition.System.invariant (I := fun s => Wired s ∧ Counted s)
    (fun _ _ h ha => ⟨h.1.next ha, h.2.next h.1 ha⟩) ⟨wired_init, rfl⟩ hv).2

end Lifecycle

end TitanClient
