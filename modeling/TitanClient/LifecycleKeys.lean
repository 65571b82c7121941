import TitanClient.LifecycleWiring

/-!
# Keys and ids

The id of a stream is kept twice, as its key in the map and in the cell it shares with its handle.
The two agree whenever the lock of the map is free, because only the loop changes the cell, and it
takes the entry out before and puts it back under the new id afterwards.

## Main results

* `Located` — the loop waits for room only in the raw channel of a registered stream
* `Keyed`, `exec_keyed` — an entry is under the id in the cell of its stream, in every reachable
  state
* `keys_agree` — so it is whatever ids the server hands out, and whenever its frames arrive
-/

namespace TitanClient

namespace Lifecycle

/-! ## The entry the loop holds on to -/

/-- The stream whose frame the loop holds is in the map, which nobody can change meanwhile. -/
def Located (s : State) : Prop :=
  ∀ r i payload, s.loop = .sending r i payload → ∃ id, s.resumable.lookup id = some i

/-- Nobody takes an entry out of the map while the loop holds its lock. -/
theorem lookup_stays {s : State} {a : Action} (ha : Enabled s a) {r : Reading} {i : ℕ}
    {payload : Payload} (hloop : s.loop = .sending r i payload) :
    (next s a).resumable = s.resumable := by
  have hlocked : s.loop.isUnlocked = false := by rw [hloop]; rfl
  have hfree : s.loop.isUnlocked = true → (next s a).resumable = s.resumable := by
    intro hunlocked
    cases hlocked.symm.trans hunlocked
  cases a with
  | receive j ticket a =>
    rw [next, receiveNext]
    split <;> rfl
  | register j id => exact hfree ha.2
  | fail j => rw [next, State.release_resumable]; rfl
  | drop j runtime =>
    rw [next, dropNext]
    split
    · split
      · rfl
      · rw [State.release_resumable]; rfl
    · rfl
  | stopUnregister j id ids => exact hfree ha.2
  | stopRelease j => rw [next, State.release_resumable]; rfl
  | adapterRecv j =>
    rw [next, adapterRecvNext]
    split <;> rfl
  | adapterUnregister j id => exact hfree ha.2
  | clear t => exact hfree ha.2
  | dequeue sent => cases hloop.symm.trans ha.1
  | read r' m => cases hloop.symm.trans ha.1
  | sendRaw r' j payload' =>
    rw [next]
    split <;> rfl
  | dial connected => cases hloop.symm.trans ha
  | resume oldId j rest sent => cases hloop.symm.trans ha
  | insert j newId rest => cases hloop.symm.trans ha
  | cleanup => cases hloop.symm.trans ha
  | _ => rfl

theorem Located.next {s : State} (h : Located s) {a : Action} (ha : Enabled s a) :
    Located (next s a) := by
  intro r i payload hloop
  rcases (loopChange ha).sending hloop with hold | ⟨id, rfl, hlook⟩
  · rw [lookup_stays ha hold]
    exact h r i payload hold
  · refine ⟨id, ?_⟩
    have ht : Lifecycle.next s (.read r (.data id payload)) = { s.taken (.data id payload) with
        loop := .sending r i payload } := by
      have hlook' : (s.taken (.data id payload)).resumable.lookup id = some i := hlook
      cases r <;> simp [Lifecycle.next, State.take, State.handleServerMessage, hlook']
    rw [ht]
    exact hlook

theorem located_init : Located init := by
  intro r i payload h
  cases h

/-! ## Keys -/

/-- A registered stream gets another id only from the loop. -/
theorem Change.effectiveId {s : State} {a : Action} {i : ℕ} {v : Stream} (hc : Change s i a v)
    (hlt : i < s.streamCount) (hi : (s.streams i).start = .done)
    (ha : ∀ newId rest, a ≠ .store i newId rest) :
    v.effectiveId = (s.streams i).effectiveId := by
  cases hc with
  | begun hcount => omega
  | registered h => cases hi.symm.trans h
  | stored => exact absurd rfl (ha _ _)
  | _ => rfl

/-- Every entry is under the id in the cell of its stream; the stream whose id the loop is changing
is under no key. -/
structure Keyed (s : State) : Prop where
  keys : ∀ id i, s.resumable.lookup id = some i → (s.streams i).effectiveId = id
  storing : ∀ i newId rest, s.loop = .storing i newId rest →
    ∀ id, s.resumable.lookup id ≠ some i
  inserting : ∀ i newId rest, s.loop = .inserting i newId rest →
    (s.streams i).effectiveId = newId ∧ ∀ id, s.resumable.lookup id ≠ some i

namespace Keyed

variable {s : State}

/-- No stream is under two keys. -/
theorem unique (h : Keyed s) {id id' i : ℕ} (hi : s.resumable.lookup id = some i)
    (hi' : s.resumable.lookup id' = some i) : id = id' :=
  (h.keys id i hi).symm.trans (h.keys id' i hi')

theorem next (h : Keyed s) (hw : Wired s) {a : Action} (ha : Enabled s a) :
    Keyed (next s a) := by
  have hid : ∀ i, (s.streams i).start = .done → (∀ newId rest, a ≠ .store i newId rest) →
      ((Lifecycle.next s a).streams i).effectiveId = (s.streams i).effectiveId :=
    fun i hi => (change ha i).effectiveId (hw.lt_of_done hi) hi
  refine ⟨fun id i hlook => ?_, fun i newId rest hl id hlook => ?_, fun i newId rest hl => ?_⟩
  · rcases lookup_next hlook with hold | rfl | ⟨rest, rfl⟩
    · rw [hid i (hw.mapped id i hold), h.keys id i hold]
      rintro newId rest rfl
      exact h.storing i newId rest ha id hold
    · simp [Lifecycle.next, registerNext]
    · exact (h.inserting i id rest ha).1
  · have hc := loopChange ha
    generalize (Lifecycle.next s a).loop = l at hl hc
    cases hc with
    | same hstill =>
      rcases lookup_next hlook with hold | rfl | ⟨rest', rfl⟩
      · exact h.storing i newId rest hl id hold
      · have hunlocked := ha.2
        rw [hl] at hunlocked
        cases hunlocked
      · cases hstill
    | @moved oldId j ticket newId' k rest' hloop hlook' =>
      cases hl
      rcases lookup_next hlook with hold | hr | ⟨rest', hr⟩
      · rw [h.unique hold hlook'] at hlook
        cases (lookup_answered s rfl).symm.trans hlook
      · cases hr
      · cases hr
    | _ => cases hl
  · have hc := loopChange ha
    generalize (Lifecycle.next s a).loop = l at hl hc
    cases hc with
    | same hstill =>
      obtain ⟨hkey, hnot⟩ := h.inserting i newId rest hl
      have hdone := hw.inLoop i (by rw [hl]; exact List.mem_cons_self)
      refine ⟨(hid i hdone ?_).trans hkey, fun id hlook => ?_⟩
      · rintro newId' rest' rfl
        cases hstill
      · rcases lookup_next hlook with hold | rfl | ⟨rest', rfl⟩
        · exact hnot id hold
        · have hunlocked := ha.2
          rw [hl] at hunlocked
          cases hunlocked
        · cases hstill
    | stored hloop =>
      cases hl
      exact ⟨by simp [Lifecycle.next], h.storing i newId rest hloop⟩
    | _ => cases hl

end Keyed

theorem keyed_init : Keyed init where
  keys _ _ h := by cases h
  storing _ _ _ h := by cases h
  inserting _ _ _ h := by cases h

theorem exec_keyed {as : List Action} (hv : system.Valid init as) :
    Keyed (system.exec init as) :=
  (Transition.System.invariant (I := fun s => Wired s ∧ Keyed s)
    (fun _ _ h ha => ⟨h.1.next ha, h.2.next h.1 ha⟩) ⟨wired_init, keyed_init⟩ hv).2

/-! ## Frames at any time -/

/-- The server sends something, asked or unasked. -/
def Action.isServerSend : Action → Bool
  | .serverSend _ => true
  | _ => false

/-- The client and a socket that also yields frames once the loop has given it up, when it goes back
to it after a failed dial. -/
def lingering : Transition.System State Action :=
  ⟨fun s a => Enabled s a ∨ a.isServerSend = true, next⟩

instance (s : State) (a : Action) : Decidable (lingering.Enabled s a) :=
  inferInstanceAs (Decidable (Enabled s a ∨ _))

/-- What is on its way from the server makes no difference to map and cells. -/
theorem lingering_next {s : State} {a : Action} (hw : Wired s) (hk : Keyed s)
    (ha : lingering.Enabled s a) : Wired (lingering.next s a) ∧ Keyed (lingering.next s a) := by
  rcases ha with ha | ha
  · exact ⟨hw.next ha, hk.next hw ha⟩
  · cases a with
    | serverSend m =>
      exact ⟨⟨hw.ok, hw.mapped, hw.inLoop, hw.unused, hw.stopping, hw.caller⟩,
        hk.keys, hk.storing, hk.inserting⟩
    | _ => cases ha

/-- **The map and the cells agree.** Whatever ids the server hands out, in every reachable state
every entry is under the id in the cell of its stream, and no stream is under two ids. That holds
while the lock of the map is free, and also while the loop has it: it takes the entry out before it
changes the cell. -/
theorem keys_agree {as : List Action} (hv : lingering.Valid init as) :
    (∀ id i, (lingering.exec init as).resumable.lookup id = some i →
      ((lingering.exec init as).streams i).effectiveId = id) ∧
      ∀ id id' i, (lingering.exec init as).resumable.lookup id = some i →
        (lingering.exec init as).resumable.lookup id' = some i → id = id' := by
  have h : Keyed (lingering.exec init as) :=
    (Transition.System.invariant (I := fun s => Wired s ∧ Keyed s)
      (fun _ _ h ha => lingering_next h.1 h.2 ha) ⟨wired_init, keyed_init⟩ hv).2
  exact ⟨h.keys, fun _ _ _ hi hi' => h.unique hi hi'⟩

/-- Streams `0` and `1` are registered under `7` and `8`, and on the next connection the server
gives each of them the id of the other. -/
def crossedRun : List Action :=
  startRun ++ [.begin 0, .request 1, .dequeue true, .accept 1 1 8,
    .read .serving (.response 1 (some 8)), .receive 1 1 ⟨.ok (some 8), 2⟩, .register 1 8,
    .leave, .decide false, .dial true, .snapshot [(7, 0), (8, 1)], .resume 7 0 [(8, 1)] true,
    .accept 2 0 8, .read (.resuming 7 0 2 [(8, 1)]) (.response 2 (some 8)), .store 0 8 [(8, 1)],
    .insert 0 8 [(8, 1)], .resume 8 1 [] true, .accept 3 1 7,
    .read (.resuming 8 1 3 []) (.response 3 (some 7)), .store 0 7 [], .insert 0 7 [], .resumed]

set_option maxRecDepth 20000 in
theorem keys_agree_crossedRun :
    (lingering.exec init crossedRun).resumable.lookup 7 = some 0 ∧
      (∀ id i, (lingering.exec init crossedRun).resumable.lookup id = some i →
        ((lingering.exec init crossedRun).streams i).effectiveId = id) ∧
        ∀ id id' i, (lingering.exec init crossedRun).resumable.lookup id = some i →
          (lingering.exec init crossedRun).resumable.lookup id' = some i → id = id' :=
  ⟨by decide, keys_agree (by decide)⟩

end Lifecycle

end TitanClient
