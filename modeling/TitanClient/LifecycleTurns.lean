import TitanClient.LifecycleKeys
import TitanClient.LifecycleTransit

/-!
# The snapshot of a reconnect

`resume_streams` works through a snapshot of the map while the map goes on changing. What stays true
of the snapshot is that its entries are different streams under different ids, that each still has
the id it had when the snapshot was taken, and that the stream whose entry is being moved is not one
of those that come later.

## Main results

* `Loop.snapshot`, `Loop.moving` — the entries still to be dealt with, and the one that is moved
* `Orderly`, `exec_orderly` — what holds of them, in every reachable state
-/

namespace TitanClient

namespace Lifecycle

/-- The entries of the snapshot that `resume_streams` has not finished with, the current one
first. -/
def Reading.snapshot : Reading → List (ℕ × ℕ)
  | .serving => []
  | .resuming oldId i _ rest => (oldId, i) :: rest

/-- The entries of the snapshot that `resume_streams` has not finished with. -/
def Loop.snapshot : Loop → List (ℕ × ℕ)
  | .reading r => r.snapshot
  | .sending r _ _ => r.snapshot
  | .resuming rest => rest
  | .storing _ _ rest => rest
  | .inserting _ _ rest => rest
  | _ => []

/-- The stream whose entry has been taken out for its new id, with that id. -/
def Loop.moving : Loop → Option (ℕ × ℕ)
  | .storing i newId _ => some (i, newId)
  | .inserting i newId _ => some (i, newId)
  | _ => none

theorem Loop.mem_streams_of_snapshot {l : Loop} {e : ℕ × ℕ} (he : e ∈ l.snapshot) :
    e.2 ∈ l.streams := by
  have hread : ∀ {r : Reading}, e ∈ r.snapshot → e.2 ∈ r.streams := by
    intro r hr
    match r with
    | .resuming _ _ _ _ =>
      rcases List.mem_cons.mp hr with rfl | hr
      · exact List.mem_cons_self
      · exact List.mem_cons_of_mem _ (List.mem_map_of_mem hr)
  match l with
  | .reading r => exact hread he
  | .sending r _ _ => exact List.mem_cons_of_mem _ (hread he)
  | .resuming rest => exact List.mem_map_of_mem he
  | .storing _ _ rest => exact List.mem_cons_of_mem _ (List.mem_map_of_mem he)
  | .inserting _ _ rest => exact List.mem_cons_of_mem _ (List.mem_map_of_mem he)

/-- The turn whose answer is awaited is the current one. -/
theorem Loop.mem_snapshot_of_turn {l : Loop} {oldId i ticket : ℕ}
    (h : l.turn = some (oldId, i, ticket)) : (oldId, i) ∈ l.snapshot := by
  match l with
  | .reading (.resuming _ _ _ _) =>
    cases h
    exact List.mem_cons_self
  | .sending (.resuming _ _ _ _) _ _ =>
    cases h
    exact List.mem_cons_self

theorem Loop.mem_streams_of_turn {l : Loop} {oldId i ticket : ℕ}
    (h : l.turn = some (oldId, i, ticket)) : i ∈ l.streams :=
  Loop.mem_streams_of_snapshot (Loop.mem_snapshot_of_turn h)

theorem Loop.mem_streams_of_moving {l : Loop} {i newId : ℕ} (h : l.moving = some (i, newId)) :
    i ∈ l.streams := by
  match l with
  | .storing _ _ _ =>
    cases h
    exact List.mem_cons_self
  | .inserting _ _ _ =>
    cases h
    exact List.mem_cons_self

/-- While an answer is awaited no entry is being moved. -/
theorem Loop.moving_of_turn {l : Loop} {e : ℕ × ℕ × ℕ} (h : l.turn = some e) : l.moving = none := by
  cases l with
  | storing => cases h
  | inserting => cases h
  | _ => rfl

/-- Nobody who needs the lock gets it while an entry is being moved. -/
theorem Loop.moving_eq_none {l : Loop} (h : l.isUnlocked = true) : l.moving = none := by
  cases l with
  | storing => cases h
  | inserting => cases h
  | _ => rfl

/-- A stream that is not ended when its entry is looked at is in the hands of its owner. -/
theorem Wired.live_of_kept {s : State} (hw : Wired s) {i : ℕ} (hdone : (s.streams i).start = .done)
    (hkept : s.isEnded i = false) : (s.streams i).handle = .live := by
  by_contra hlive
  have hstopped := (hw.ok i).given ((hw.ok i).registered hdone).2 hlive
  rw [State.isEnded, hstopped] at hkept
  cases hkept

/-- What is left of the snapshot was left before, unless it has just been taken. -/
theorem LoopChange.snapshot_sublist {s : State} {a : Action} {l : Loop} (hc : LoopChange s a l)
    (ha : ∀ order, a ≠ .snapshot order) : l.snapshot.Sublist s.loop.snapshot := by
  cases hc with
  | same => exact List.Sublist.refl _
  | found h =>
    rw [h]
    exact List.Sublist.refl _
  | moved h =>
    rw [h]
    exact List.sublist_cons_self _ _
  | answered h =>
    rw [h]
    exact List.sublist_cons_self _ _
  | sent h =>
    rw [h]
    exact List.Sublist.refl _
  | snapshot => exact absurd rfl (ha _)
  | resumeSent h =>
    rw [h]
    exact List.Sublist.refl _
  | resumeGaveUp h =>
    rw [h]
    exact List.sublist_cons_self _ _
  | resumeLost h =>
    rw [h]
    exact List.sublist_cons_self _ _
  | stored h =>
    rw [h]
    exact List.Sublist.refl _
  | inserted h =>
    rw [h]
    exact List.Sublist.refl _
  | _ => exact List.nil_sublist _

/-- An entry is being moved because it was before, or because the answer to a resume request has
been read, which found it under the old id. -/
theorem LoopChange.moving {s : State} {a : Action} {l : Loop} (hc : LoopChange s a l) {i newId : ℕ}
    (h : l.moving = some (i, newId)) :
    s.loop.moving = some (i, newId) ∨
      ∃ oldId j ticket rest, s.loop = .reading (.resuming oldId j ticket rest) ∧
        a = .read (.resuming oldId j ticket rest) (.response ticket (some newId)) ∧
          l = .storing i newId rest ∧ s.resumable.lookup oldId = some i ∧ s.isEnded i = false := by
  cases hc with
  | same => exact Or.inl h
  | moved hl hlook hkept =>
    cases h
    exact Or.inr ⟨_, _, _, _, hl, rfl, rfl, hlook, hkept⟩
  | stored hl =>
    left
    rw [hl]
    exact h
  | _ => cases h

/-- The entries of the snapshot are different streams under different ids, which are still theirs;
the stream whose entry is being moved is none of them. -/
structure Orderly (s : State) : Prop where
  ids : ∀ e ∈ s.loop.snapshot, (s.streams e.2).effectiveId = e.1
  keys : (s.loop.snapshot.map Prod.fst).Nodup
  streams : (s.loop.snapshot.map Prod.snd).Nodup
  moving : ∀ i newId, s.loop.moving = some (i, newId) → i ∉ s.loop.snapshot.map Prod.snd

namespace Orderly

variable {s : State}

/-- A stream is in the snapshot once. -/
theorem unique (h : Orderly s) {e e' : ℕ × ℕ} (he : e ∈ s.loop.snapshot)
    (he' : e' ∈ s.loop.snapshot) (hij : e.2 = e'.2) : e = e' :=
  List.inj_on_of_nodup_map h.streams he he' hij

private theorem snapshot_next (hk : Keyed s) {order : List (ℕ × ℕ)}
    (horder : order.Perm (s.resumable.entries.map fun e => (e.1, e.2))) :
    (∀ e ∈ order, (s.streams e.2).effectiveId = e.1) ∧ (order.map Prod.fst).Nodup ∧
      (order.map Prod.snd).Nodup := by
  have hlook : ∀ e ∈ order, s.resumable.lookup e.1 = some e.2 := by
    intro e he
    obtain ⟨e', hmem, rfl⟩ := List.mem_map.mp (horder.mem_iff.mp he)
    exact AList.mem_lookup_iff.mpr hmem
  have hkeys : (order.map Prod.fst).Nodup := by
    rw [(horder.map Prod.fst).nodup_iff, List.map_map]
    exact s.resumable.nodupKeys
  refine ⟨fun e he => hk.keys e.1 e.2 (hlook e he), hkeys, ?_⟩
  refine List.Nodup.map_on (fun e he e' he' hij => ?_) (List.Nodup.of_map Prod.fst hkeys)
  exact Prod.ext (hk.unique (hlook e he) (by rw [hij]; exact hlook e' he')) hij

theorem next (h : Orderly s) (hw : Wired s) (hk : Keyed s) {a : Action} (ha : Enabled s a) :
    Orderly (next s a) := by
  have hc := loopChange ha
  have hid : ∀ e ∈ s.loop.snapshot, ((Lifecycle.next s a).streams e.2).effectiveId =
      (s.streams e.2).effectiveId := by
    intro e he
    have hdone := hw.inLoop e.2 (Loop.mem_streams_of_snapshot he)
    refine (change ha e.2).effectiveId (hw.lt_of_done hdone) hdone ?_
    rintro newId rest rfl
    have hloop : s.loop = .storing e.2 newId rest := ha
    exact h.moving e.2 newId (by rw [hloop]; rfl) (List.mem_map_of_mem he)
  by_cases hsnap : ∃ order, a = .snapshot order
  · obtain ⟨order, rfl⟩ := hsnap
    obtain ⟨hids, hkeys, hstreams⟩ := snapshot_next hk ha.2
    exact ⟨hids, hkeys, hstreams, nofun⟩
  · have hsub := hc.snapshot_sublist fun order ho => hsnap ⟨order, ho⟩
    refine ⟨fun e he => ?_, h.keys.sublist (hsub.map _), h.streams.sublist (hsub.map _),
      fun i newId hm hmem => ?_⟩
    · rw [hid e (hsub.subset he)]
      exact h.ids e (hsub.subset he)
    · rcases hc.moving hm with hold | ⟨oldId, j, ticket, rest, hloop, rfl, hl, hlook, -⟩
      · exact h.moving i newId hold ((hsub.map _).subset hmem)
      · -- Of two entries with the current id of the stream only one is in the snapshot.
        rw [hl] at hmem
        obtain ⟨e, he, rfl⟩ := List.mem_map.mp hmem
        have hrest : e ∈ rest := he
        have hsnapshot : s.loop.snapshot = (oldId, j) :: rest := by rw [hloop]; rfl
        have hold : e ∈ s.loop.snapshot := by
          rw [hsnapshot]
          exact List.mem_cons_of_mem _ hrest
        have hkey : e.1 = oldId := (h.ids e hold).symm.trans (hk.keys oldId e.2 hlook)
        have hnodup := h.keys
        rw [hsnapshot, List.map_cons, List.nodup_cons] at hnodup
        rw [← hkey] at hnodup
        exact hnodup.1 (List.mem_map.mpr ⟨e, hrest, rfl⟩)

end Orderly

theorem orderly_init : Orderly init where
  ids _ h := by cases h
  keys := List.nodup_nil
  streams := List.nodup_nil
  moving _ _ h := by cases h

theorem exec_orderly {as : List Action} (hv : system.Valid init as) :
    Orderly (system.exec init as) :=
  (Transition.System.invariant (I := fun s => Wired s ∧ Keyed s ∧ Orderly s)
    (fun _ _ h ha => ⟨h.1.next ha, h.2.1.next h.1 ha, h.2.2.next h.1 h.2.1 ha⟩)
    ⟨wired_init, keyed_init, orderly_init⟩ hv).2.2

end Lifecycle

end TitanClient
