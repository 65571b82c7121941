import TitanClient.SessionSenders

/-!
# What the map of the pending requests says about the socket

A sender is put into the map before its request is encoded and written, and the map is emptied
before `run_single_connection` begins anew. So a sender that is found there belongs to a request
that has been written in the current run, or is in the hands of the loop and about to be written.

Nothing bounds the number of requests here. Ids may wrap, and the entry under an id may be that of a
later request than the first with the id; what is written is told by the id and the call together.

## Main results

* `WrittenNow` — the request has been written in this run
* `Sent` — what is in the map has been written in this run, or is being written
* `exec_sent` — it is so in every run
-/

namespace TitanClient

namespace Session

open Requests (PendingRequest)

variable {ρ β : Type}

/-- The frame of the request has been written in the current run of `run_single_connection`. -/
def WrittenNow (r : Requests.State ρ β) (id i : ℕ) : Prop :=
  ∃ w ∈ r.written, w.run = r.run ∧ w.id = id ∧ w.call = some i

/-- What is in the map has been written in this run, or is in the hands of the loop. -/
def Sent (r : Requests.State ρ β) : Prop :=
  ∀ id i, r.pending.lookup id = some i →
    WrittenNow r id i ∨ ∃ p, r.loop.current = some p ∧ p.request.id = id

theorem sent_of_empty {r : Requests.State ρ β} (h : r.pending = ∅) : Sent r := by
  intro id i hi
  rw [h] at hi
  cases hi

section

variable {r t : Requests.State ρ β}

/-- Nothing new is in the map, and what was in the hands of the loop still is or has left it. -/
theorem Sent.keep (h : Sent r)
    (hpending : ∀ id i, t.pending.lookup id = some i → r.pending.lookup id = some i)
    (hwritten : r.written ⊆ t.written) (hrun : t.run = r.run)
    (hcurrent : ∀ p, r.loop.current = some p →
      t.loop.current = some p ∨ t.pending.lookup p.request.id = none) : Sent t := by
  intro id i hi
  rcases h id i (hpending id i hi) with ⟨w, hw, hwrun, hid, hcall⟩ | ⟨p, hp, rfl⟩
  · exact Or.inl ⟨w, hwritten hw, hwrun.trans hrun.symm, hid, hcall⟩
  · rcases hcurrent p hp with hkeep | hgone
    · exact Or.inr ⟨p, hkeep, rfl⟩
    · cases hgone.symm.trans hi

theorem Sent.completePending (h : Sent r) (id : ℕ) (x : Requests.Answer β) :
    Sent (r.completePending id x) := by
  rw [Requests.State.completePending_eq]
  exact h.keep (fun _ _ hi => Table.lookup_of_lookup_erase hi) (List.Subset.refl _) rfl
    fun _ hp => Or.inl hp

theorem Sent.handleServerMessage (h : Sent r) (msg : Requests.ServerMessage β) :
    Sent (r.handleServerMessage msg) := by
  rcases r.handleServerMessage_eq msg with heq | ⟨id, result, -, -, heq⟩
  · rwa [heq]
  · rw [heq]
    exact h.completePending id _

/-- The loop gives up what it has in its hands. -/
theorem Sent.giveUp (h : Sent r) {p : PendingRequest ρ} (hp : r.loop.current = some p)
    (x : Requests.Answer β) (l : Requests.Loop ρ) :
    Sent { r.completePending p.request.id x with loop := l } := by
  rw [Requests.State.completePending_eq]
  refine h.keep (fun _ _ hi => Table.lookup_of_lookup_erase hi) (List.Subset.refl _) rfl
    fun q hq => Or.inr ?_
  rw [hp] at hq
  cases hq
  exact AList.lookup_erase ..

/-- Steps other than putting a request into the map and deciding. -/
theorem Sent.step (h : Sent r) (hphases : Requests.Phases r) {b : Requests.Action ρ β}
    (hb : Requests.Enabled r b) (hinsert : ∀ p, b ≠ .insert p) (hdecide : b ≠ .decide) :
    Sent (Requests.next r b) := by
  have hsame : ∀ {t : Requests.State ρ β}, t.pending = r.pending → t.written = r.written →
      t.run = r.run → t.loop = r.loop → Sent t := by
    intro t hpending hwritten hrun hloop
    refine h.keep (fun _ _ hi => hpending ▸ hi) (by rw [hwritten]; exact List.Subset.refl _) hrun
      fun p hp => Or.inl (hloop ▸ hp)
  have hfree : ∀ {t : Requests.State ρ β}, r.loop.current = none → t.pending = r.pending →
      t.written = r.written → t.run = r.run → Sent t := by
    intro t hnone hpending hwritten hrun
    refine h.keep (fun _ _ hi => hpending ▸ hi) (by rw [hwritten]; exact List.Subset.refl _) hrun
      fun p hp => ?_
    cases hnone.symm.trans hp
  cases b with
  | call data => exact hsame rfl rfl rfl rfl
  | check i data =>
    rw [Requests.next]
    split <;> exact hsame rfl rfl rfl rfl
  | allocate i data => exact hsame rfl rfl rfl rfl
  | enqueue i request =>
    rw [Requests.next]
    split <;> exact hsame rfl rfl rfl rfl
  | receive i => exact hsame rfl rfl rfl rfl
  | abandon i => exact hsame rfl rfl rfl rfl
  | cancel => exact hsame rfl rfl rfl rfl
  | dropConnection => exact hsame rfl rfl rfl rfl
  | dequeue =>
    change Sent (Requests.dequeueNext r)
    rw [Requests.dequeueNext]
    split
    · exact h
    · exact hfree (by rw [hb.1]; rfl) rfl rfl rfl
  | insert p => exact absurd rfl (hinsert p)
  | encode p error =>
    have hp : r.loop.current = some p := by
      rw [show r.loop = .encoding p from hb]
      rfl
    cases error with
    | none =>
      refine h.keep (fun _ _ hi => hi) (List.Subset.refl _) rfl fun q hq => Or.inl ?_
      cases hp.symm.trans hq
      rfl
    | some e => exact h.giveUp hp _ _
  | write p error =>
    have hp : r.loop.current = some p := by
      rw [show r.loop = .writing p from hb]
      rfl
    cases error with
    | none =>
      intro id i hi
      left
      rcases h id i hi with ⟨w, hw, hrest⟩ | ⟨q, hq, rfl⟩
      · exact ⟨w, List.mem_append_left _ hw, hrest⟩
      · cases hp.symm.trans hq
        have hlook : some p.responseTx = some i := (hphases.current p hp).symm.trans hi
        exact ⟨_, List.mem_append_right _ (List.mem_singleton.mpr rfl), rfl, rfl, hlook⟩
    | some e => exact h.giveUp hp _ _
  | read msg => exact h.handleServerMessage msg
  | leaveShutdown => exact hfree (by rw [hb.1]; rfl) rfl rfl rfl
  | leaveChannelClosed => exact hfree (by rw [hb.1]; rfl) rfl rfl rfl
  | leaveLost reason =>
    exact hfree (by rw [show r.loop = .serving from hb]; rfl) rfl rfl rfl
  | failPending reason =>
    refine sent_of_empty ?_
    rw [Requests.next, Requests.State.failPendingRequests_eq]
  | decide => exact absurd rfl hdecide
  | dial connected =>
    have hempty : r.pending = ∅ := hphases.drained (by rw [show r.loop = .backoff from hb]; rfl)
    cases connected <;> exact sent_of_empty hempty
  | resumeWrite error =>
    refine h.keep (fun _ _ hi => hi) ?_ rfl fun _ hp => Or.inl hp
    change r.written ⊆ if error.isNone then _ else _
    split
    · exact List.subset_append_left _ _
    · exact List.Subset.refl _
  | resumeRead msg => exact h.handleServerMessage msg
  | resumed =>
    exact sent_of_empty (hphases.drained (by rw [show r.loop = .resuming from hb]; rfl))
  | cleanup =>
    refine sent_of_empty ?_
    rw [Requests.next, Requests.State.failPendingRequests_eq]
  | exit =>
    exact sent_of_empty (hphases.drained (by rw [show r.loop = .exiting from hb]; rfl))

theorem Changes.sent (hc : Changes r t) (h : Sent r) (hphases : Requests.Phases r) : Sent t := by
  cases hc with
  | still => exact h
  | step b hb hinsert hdecide => exact h.step hphases hb hinsert hdecide
  | insert p hp =>
    rw [insertNext_eq]
    intro id i hi
    change (r.pending.insert p.request.id p.responseTx).lookup id = some i at hi
    by_cases hid : p.request.id = id
    · exact Or.inr ⟨p, rfl, hid⟩
    · rw [AList.lookup_insert_ne (Ne.symm hid)] at hi
      rcases h id i hi with hwritten | ⟨q, hq, -⟩
      · exact Or.inl hwritten
      · rw [hp] at hq
        cases hq
  | decided attempt l hr _ => exact sent_of_empty (hphases.drained (by rw [hr]; rfl))

end

theorem exec_sent {max : Option ℕ} {as : List (Action ρ β)}
    (hv : (system ρ β).Valid (init max) as) : Sent ((system ρ β).exec (init max) as).reqs :=
  (Transition.System.invariant (S := system ρ β) (I := fun s => Sound s ∧ Sent s.reqs)
    (fun _ _ h ha => ⟨h.1.next ha, (reqs_changes ha).sent h.2 h.1.phases⟩)
    ⟨sound_init max, sent_of_empty rfl⟩ hv).2

end Session

end TitanClient
