import TitanClient.LifecycleGap
import TitanClient.LifecycleTurns

/-!
# Entries that nobody ends

A start registers its stream some time after the loop has handed it the response. What the loop does
in between, it does without the stream: a `StreamEnd` for its id finds no entry, a snapshot of the
map does not contain it, and the final cleanup does not drain it. The entry that is registered
afterwards stands for a stream that has ended already, was opened on a socket that is gone, or has
no loop any more.

These three are the only ways: in a run in which no start is in that gap at those moments, every
entry stands for a stream of the socket in use or waits to be resumed, no entry stands for a stream
that has ended, and nothing is left once the loop has exited.

The socket in use is the one the loop reads from or has read from last. It changes with a successful
dial only; so an entry waits to be resumed from then until `resume_streams` has come to it, or until
the next successful dial if `resume_streams` finds its connection gone before.

## Main results

* `registers_after_streamEnd` — a `StreamEnd` in the gap leaves an entry under an ended id
* `no_zombie_streams` — without a start in the gap at the wrong moment there is none, and `recv()`
  returns `None` after the last buffered quote once the loop has exited
-/

namespace TitanClient

namespace Lifecycle

/-! ## What becomes of an entry -/

/-- The ids of the entries that `resume_streams` has yet to deal with. -/
def Reading.waiting : Reading → List ℕ
  | .serving => []
  | .resuming oldId _ _ rest => oldId :: rest.map (·.1)

/-- The ids of the entries that `resume_streams` has yet to deal with. -/
def Loop.waiting : Loop → List ℕ
  | .reading r => r.waiting
  | .sending r _ _ => r.waiting
  | .resuming rest => rest.map (·.1)
  | .storing _ _ rest => rest.map (·.1)
  | .inserting _ _ rest => rest.map (·.1)
  | _ => []

/-- The entry under `id` waits to be resumed: the loop has a new socket and has yet to take the
snapshot or to come to the entry, or that socket was gone before the resumption was through. -/
def Recovering (s : State) (id : ℕ) : Prop :=
  s.cutShort = true ∨ s.loop = .snapshotting ∨ id ∈ s.loop.waiting

/-- An entry that waits to be resumed goes on waiting until its turn, which removes it. -/
theorem waiting_next {s : State} {a : Action} (ha : Enabled s a) {id i : ℕ}
    (hwait : id ∈ s.loop.waiting) (hlook : (next s a).resumable.lookup id = some i) :
    Recovering (next s a) id := by
  have hc := loopChange ha
  rw [Recovering]
  generalize hl : (next s a).loop = l at hc
  have hrest : ∀ {oldId : ℕ} {rest : List (ℕ × ℕ)},
      (next s a).resumable.lookup oldId = none → id ∈ oldId :: rest.map (·.1) →
        id ∈ rest.map (·.1) := by
    intro oldId rest hnone hmem
    rcases List.mem_cons.mp hmem with rfl | hmem
    · cases hnone.symm.trans hlook
    · exact hmem
  cases hc with
  | same => exact Or.inr (Or.inr hwait)
  | found h =>
    rw [h] at hwait
    exact Or.inr (Or.inr hwait)
  | moved h =>
    rw [h] at hwait
    exact Or.inr (Or.inr (hrest (lookup_answered s rfl) hwait))
  | answered h hm =>
    rw [h] at hwait
    exact Or.inr (Or.inr (hrest (lookup_answered s hm) hwait))
  | sent h =>
    rw [h] at hwait
    exact Or.inr (Or.inr hwait)
  | resumeSent h =>
    rw [h] at hwait
    exact Or.inr (Or.inr hwait)
  | resumeGaveUp h =>
    rw [h] at hwait
    exact Or.inr (Or.inr (hrest (lookup_resumeGaveUp hl) hwait))
  | resumeLost h => exact Or.inl rfl
  | stored h =>
    rw [h] at hwait
    exact Or.inr (Or.inr hwait)
  | inserted h =>
    rw [h] at hwait
    exact Or.inr (Or.inr hwait)
  | _ h =>
    rw [h] at hwait
    cases hwait

/-- The stream whose `StreamEnd` the loop reads. -/
def Action.endedId : Action → Option ℕ
  | .read _ (.ended id) => some id
  | _ => none

/-- No entry is left under an id whose `StreamEnd` has just been read. -/
theorem endedId_ne_of_lookup {s : State} {a : Action} {id i : ℕ}
    (hlook : (next s a).resumable.lookup id = some i) : a.endedId ≠ some id := by
  intro hended
  cases a with
  | read r m =>
    cases m with
    | ended id' =>
      cases hended
      cases (lookup_ended s r id).symm.trans hlook
    | _ => cases hended
  | _ => cases hended

/-- An id stays live until its `StreamEnd` is read or another socket is in use. -/
theorem liveIds_next {s : State} {a : Action} (ha : Enabled s a) {id : ℕ} (h : id ∈ s.liveIds)
    (hended : a.endedId ≠ some id) (hdial : a ≠ .dial true) : id ∈ (next s a).liveIds := by
  have htaken : ∀ {r m}, a = .read r m → id ∈ m.liveIds s.liveIds := by
    rintro r m rfl
    cases m with
    | response ticket stream =>
      cases stream with
      | some newId => exact List.mem_cons_of_mem _ h
      | none => exact h
    | ended id' =>
      refine List.mem_filter.mpr ⟨h, ?_⟩
      rw [decide_eq_true_iff]
      rintro rfl
      exact hended rfl
    | _ => exact h
  have hc := mailChange ha
  change id ∈ (next s a).mail.liveIds
  generalize (next s a).mail = m at hc
  cases hc with
  | taken => exact htaken rfl
  | completed => exact htaken rfl
  | dialled => exact absurd rfl hdial
  | _ => exact h

/-- A resumption that was cut short is made up for once another socket is in use. -/
theorem cutShort_next {s : State} {a : Action} (ha : Enabled s a) (h : s.cutShort = true)
    (hdial : a ≠ .dial true) : (next s a).cutShort = true := by
  have hc := mailChange ha
  change (next s a).mail.cutShort = true
  generalize (next s a).mail = m at hc
  cases hc with
  | resumeLost => rfl
  | dialled => exact absurd rfl hdial
  | _ => exact h

/-! ## Runs without a start in the gap at the wrong moment -/

/-- The steps that deal with all entries of the map at once: the snapshot and the final cleanup. -/
def Action.surveys : Action → Bool
  | .snapshot _ => true
  | .cleanup => true
  | _ => false

/-- No `StreamEnd` is read for the id of a start in the gap, and no start is in the gap when the
snapshot is taken or the final cleanup runs. -/
def GapFree (s : State) (a : Action) : Prop :=
  (∀ id ∈ a.endedId, ∀ i < s.streamCount, s.gapId i ≠ some id) ∧
    (a.surveys = true → ∀ i < s.streamCount, s.gapId i = none)

instance (s : State) (a : Action) : Decidable (GapFree s a) :=
  inferInstanceAs (Decidable ((∀ _ ∈ _, ∀ _ < _, _) ∧ (_ → ∀ _ < _, _)))

/-- Every entry and every start in the gap belongs to the socket in use or waits to be resumed. -/
structure Current (s : State) : Prop where
  entries : ∀ id i, s.resumable.lookup id = some i → id ∈ s.liveIds ∨ Recovering s id
  gaps : ∀ i id, s.gapId i = some id →
    id ∈ s.liveIds ∨ s.cutShort = true ∨ s.loop = .snapshotting
  moving : ∀ i newId rest, s.loop = .storing i newId rest ∨ s.loop = .inserting i newId rest →
    newId ∈ s.liveIds
  exited : s.loop = .exited →
    (∀ id, s.resumable.lookup id = none) ∧ ∀ i, s.gapId i = none

namespace Current

variable {s : State} {a : Action}

private theorem next_gaps (h : Current s) (hw : Wired s) (hp : Posted s) (hC : GapFree s a)
    (ha : Enabled s a) (i id : ℕ) (hgap : (next s a).gapId i = some id) :
    id ∈ (next s a).liveIds ∨ (next s a).cutShort = true ∨ (next s a).loop = .snapshotting := by
  by_cases hdial : a = .dial true
  · subst hdial
    exact Or.inr (Or.inr rfl)
  · rcases gapId_next hp ha hgap with hold | ⟨r, ticket, rfl, -⟩
    · have hlt := gapId_lt hw hold
      rcases h.gaps i id hold with hlive | hlost | hsnap
      · exact Or.inl (liveIds_next ha hlive (fun hended => hC.1 id hended i hlt hold) hdial)
      · exact Or.inr (Or.inl (cutShort_next ha hlost hdial))
      · refine Or.inr (Or.inr ?_)
        have hc := loopChange ha
        generalize (Lifecycle.next s a).loop = l at hc
        cases hc with
        | same => exact hsnap
        | snapshot =>
          have hnone := hC.2 rfl i hlt
          cases hnone.symm.trans hold
        | _ hl => cases hsnap.symm.trans hl
    · left
      have hc := mailChange ha
      change id ∈ (Lifecycle.next s (.read r (.response ticket (some id)))).mail.liveIds
      generalize (Lifecycle.next s (.read r (.response ticket (some id)))).mail = m at hc
      cases hc with
      | same hstill => cases hstill
      | pushed hpushed => cases hpushed
      | taken => exact List.mem_cons_self
      | completed => exact List.mem_cons_self

private theorem next_entries (h : Current s) (ha : Enabled s a) (id i : ℕ)
    (hlook : (next s a).resumable.lookup id = some i) :
    id ∈ (next s a).liveIds ∨ Recovering (next s a) id := by
  by_cases hdial : a = .dial true
  · subst hdial
    exact Or.inr (Or.inr (Or.inl rfl))
  · rcases lookup_next hlook with hold | rfl | ⟨rest, rfl⟩
    · have hended : a.endedId ≠ some id := endedId_ne_of_lookup hlook
      rcases h.entries id i hold with hlive | hlost | hsnap | hwait
      · exact Or.inl (liveIds_next ha hlive hended hdial)
      · exact Or.inr (Or.inl (cutShort_next ha hlost hdial))
      · right
        have hc := loopChange ha
        rw [Recovering]
        generalize (Lifecycle.next s a).loop = l at hc
        cases hc with
        | same => exact Or.inr (Or.inl hsnap)
        | snapshot hl horder =>
          refine Or.inr (Or.inr ?_)
          have hmem := horder.mem_iff.mpr
            (List.mem_map_of_mem (f := fun e => (e.1, e.2)) (AList.mem_lookup_iff.mp hold))
          exact List.mem_map_of_mem (f := Prod.fst) hmem
        | _ hl => cases hsnap.symm.trans hl
      · exact Or.inr (waiting_next ha hwait hlook)
    · -- A start registers its stream; nothing else moves.
      have hgap : s.gapId i = some id := by
        rw [State.gapId, ha.1]
      rcases h.gaps i id hgap with hlive | hlost | hsnap
      · exact Or.inl hlive
      · exact Or.inr (Or.inl hlost)
      · exact Or.inr (Or.inr (Or.inl hsnap))
    · exact Or.inl (h.moving i id rest (Or.inr ha))

private theorem next_moving (h : Current s) (ha : Enabled s a) (i newId : ℕ)
    (rest : List (ℕ × ℕ))
    (hl : (next s a).loop = .storing i newId rest ∨ (next s a).loop = .inserting i newId rest) :
    newId ∈ (next s a).liveIds := by
  have hc := loopChange ha
  generalize (Lifecycle.next s a).loop = l at hl hc
  cases hc with
  | same hstill =>
    refine liveIds_next ha (h.moving i newId rest hl) (fun hended => ?_) ?_
    · cases a with
      | read r m =>
        rcases hl with hl | hl <;> cases hl.symm.trans ha.1
      | _ => cases hended
    · rintro rfl
      cases hstill
  | @moved oldId j ticket newId' k rest' hloop =>
    have hm := mailChange ha
    have hnew : newId = newId' := by
      rcases hl with hl | hl
      · cases hl
        rfl
      · cases hl
    subst hnew
    change newId ∈ (Lifecycle.next s _).mail.liveIds
    generalize (Lifecycle.next s _).mail = m at hm
    cases hm with
    | same hstill => cases hstill
    | pushed hpushed => cases hpushed
    | taken => exact List.mem_cons_self
    | completed => exact List.mem_cons_self
  | stored hloop =>
    have hnew : newId ∈ s.liveIds := by
      rcases hl with hl | hl
      · cases hl
      · cases hl
        exact h.moving i newId rest (Or.inl hloop)
    exact liveIds_next ha hnew nofun Action.noConfusion
  | _ => rcases hl with hl | hl <;> cases hl

private theorem next_exited (h : Current s) (hw : Wired s) (hp : Posted s) (hC : GapFree s a)
    (ha : Enabled s a) (hl : (next s a).loop = .exited) :
    (∀ id, (next s a).resumable.lookup id = none) ∧ ∀ i, (next s a).gapId i = none := by
  have hc := loopChange ha
  generalize (Lifecycle.next s a).loop = l at hl hc
  cases hc with
  | same hstill =>
    obtain ⟨hempty, hnogap⟩ := h.exited hl
    refine ⟨fun id => ?_, fun i => ?_⟩
    · by_contra hne
      obtain ⟨i, hlook⟩ := Option.ne_none_iff_exists'.mp hne
      rcases lookup_next hlook with hold | rfl | ⟨rest, rfl⟩
      · cases (hempty id).symm.trans hold
      · have hgap : s.gapId i = some id := by
          rw [State.gapId, ha.1]
        cases (hnogap i).symm.trans hgap
      · cases hstill
    · by_contra hne
      obtain ⟨id, hgap⟩ := Option.ne_none_iff_exists'.mp hne
      rcases gapId_next hp ha hgap with hold | ⟨r, ticket, rfl, -⟩
      · cases (hnogap i).symm.trans hold
      · cases hl.symm.trans ha.1
  | cleaned =>
    refine ⟨fun id => ?_, fun i => ?_⟩
    · rw [Lifecycle.next, State.failAll, State.endAll_resumable]
      rfl
    · by_contra hne
      obtain ⟨id, hgap⟩ := Option.ne_none_iff_exists'.mp hne
      rcases gapId_next hp ha hgap with hold | ⟨r, ticket, hr, -⟩
      · cases (hC.2 rfl i (gapId_lt hw hold)).symm.trans hold
      · cases hr
  | _ => cases hl

theorem next (h : Current s) (hw : Wired s) (hp : Posted s) (hC : GapFree s a)
    (ha : Enabled s a) : Current (next s a) :=
  ⟨h.next_entries ha, h.next_gaps hw hp hC ha, h.next_moving ha, h.next_exited hw hp hC ha⟩

end Current

theorem current_init : Current init where
  entries _ _ h := by cases h
  gaps _ _ h := by cases h
  moving _ _ _ h := by rcases h with h | h <;> cases h
  exited h := by cases h

theorem exec_current {as : List Action} (hv : system.Valid init as)
    (hC : system.Along GapFree init as) : Current (system.exec init as) :=
  (Transition.System.invariant_along (I := fun s => (Wired s ∧ Posted s) ∧ Current s)
    (fun _ _ h hC ha => ⟨⟨h.1.1.next ha, h.1.2.next ha⟩, h.2.next h.1.1 h.1.2 hC ha⟩)
    ⟨⟨wired_init, posted_init⟩, current_init⟩ hC hv).2

/-! ## No id of an entry has ended -/

/-- The loop has read a response with the id, on whatever socket, and no `StreamEnd` for it
since. -/
def State.Unended (s : State) (id : ℕ) : Prop :=
  ∃ before ticket after, s.consumed = before ++ Message.response ticket (some id) :: after ∧
    .ended id ∉ after

section

variable {s : State} {a : Action} {id : ℕ}

theorem unended_next (ha : Enabled s a) (h : s.Unended id) (hended : a.endedId ≠ some id) :
    (next s a).Unended id := by
  obtain ⟨before, ticket, after, hconsumed, hafter⟩ := h
  have hframes : .ended id ∉ a.frames := by
    intro hmem
    cases a with
    | read r m =>
      rw [← List.mem_singleton.mp hmem] at hended
      exact hended rfl
    | _ => cases hmem
  refine ⟨before, ticket, after ++ a.frames, ?_, fun hmem => ?_⟩
  · rw [consumed_next ha, hconsumed, List.append_assoc, List.cons_append]
  · exact (List.mem_append.mp hmem).elim hafter hframes

/-- The response that has just been read is the last frame about its id. -/
theorem unended_read {r : Reading} {ticket : ℕ}
    (ha : Enabled s (.read r (.response ticket (some id)))) :
    (next s (.read r (.response ticket (some id)))).Unended id :=
  ⟨s.consumed, ticket, [], consumed_next ha, List.not_mem_nil⟩

/-- No entry, no start in the gap and no entry in the hands of the loop has an id that has ended. -/
structure Unspent (s : State) : Prop where
  entries : ∀ id i, s.resumable.lookup id = some i → s.Unended id
  gaps : ∀ i id, s.gapId i = some id → s.Unended id
  moving : ∀ i newId, s.loop.moving = some (i, newId) → s.Unended newId

namespace Unspent

private theorem next_entries (h : Unspent s) (ha : Enabled s a) (id i : ℕ)
    (hlook : (next s a).resumable.lookup id = some i) : (next s a).Unended id := by
  have hended : a.endedId ≠ some id := endedId_ne_of_lookup hlook
  rcases lookup_next hlook with hold | rfl | ⟨rest, rfl⟩
  · exact unended_next ha (h.entries id i hold) hended
  · refine unended_next ha (h.gaps i id ?_) hended
    rw [State.gapId, ha.1]
  · refine unended_next ha (h.moving i id ?_) hended
    rw [show s.loop = .inserting i id rest from ha]
    rfl

private theorem next_gaps (h : Unspent s) (hw : Wired s) (hp : Posted s) (hC : GapFree s a)
    (ha : Enabled s a) (i id : ℕ) (hgap : (next s a).gapId i = some id) :
    (next s a).Unended id := by
  rcases gapId_next hp ha hgap with hold | ⟨r, ticket, rfl, -⟩
  · exact unended_next ha (h.gaps i id hold) fun hended => hC.1 id hended i (gapId_lt hw hold) hold
  · exact unended_read ha

private theorem next_moving (h : Unspent s) (ha : Enabled s a) (i newId : ℕ)
    (hm : (next s a).loop.moving = some (i, newId)) : (next s a).Unended newId := by
  rcases (loopChange ha).moving hm with hold | ⟨oldId, j, ticket, rest, -, rfl, -⟩
  · refine unended_next ha (h.moving i newId hold) fun hended => ?_
    cases a with
    | read r m =>
      rw [ha.1] at hold
      cases hold
    | _ => cases hended
  · exact unended_read ha

theorem next (h : Unspent s) (hw : Wired s) (hp : Posted s) (hC : GapFree s a) (ha : Enabled s a) :
    Unspent (next s a) :=
  ⟨h.next_entries ha, h.next_gaps hw hp hC ha, h.next_moving ha⟩

end Unspent

end

theorem unspent_init : Unspent init where
  entries _ _ h := by cases h
  gaps _ _ h := by cases h
  moving _ _ h := by cases h

theorem exec_unspent {as : List Action} (hv : system.Valid init as)
    (hC : system.Along GapFree init as) : Unspent (system.exec init as) :=
  (Transition.System.invariant_along (I := fun s => (Wired s ∧ Posted s) ∧ Unspent s)
    (fun _ _ h hC ha => ⟨⟨h.1.1.next ha, h.1.2.next ha⟩, h.2.next h.1.1 h.1.2 hC ha⟩)
    ⟨⟨wired_init, posted_init⟩, unspent_init⟩ hC hv).2

/-! ## The end of a stream -/

/-- The stream whose adapter takes the step. -/
def Action.adapterOf : Action → Option ℕ
  | .adapterRecv i => some i
  | .adapterForward i _ => some i
  | .adapterFail i _ => some i
  | .adapterLoad i => some i
  | .adapterUnregister i _ => some i
  | .adapterEnd i => some i
  | _ => none

/-- The steps an adapter is away from its end. -/
def Adapter.stepsLeft : Adapter → ℕ
  | .none => 0
  | .receiving => 1
  | .holding _ => 3
  | .failing => 2
  | .unregistering _ => 1
  | .exited => 0

/-- A bound on the steps the adapter of a stream takes if no more frames come. -/
def Stream.remaining (v : Stream) : ℕ := 3 * v.raw.length + v.adapter.stepsLeft

/-- Nobody but the loop takes an adapter further away from its end. -/
theorem Change.remaining {s : State} {a : Action} {i : ℕ} {v : Stream} (hc : Change s i a v)
    (hlt : i < s.streamCount) (hi : (s.streams i).start = .done)
    (hsend : ∀ r payload, a ≠ .sendRaw r i payload) :
    v.remaining ≤ (s.streams i).remaining := by
  cases hc with
  | begun hcount => omega
  | registered h => cases hi.symm.trans h
  | adapterTook h hraw =>
    simp only [Stream.remaining, h, hraw, Adapter.stepsLeft, List.length_cons]
    omega
  | adapterSkipped h hraw =>
    simp only [Stream.remaining, hraw, List.length_cons]
    omega
  | adapterForwarded h =>
    simp only [Stream.remaining, h, Adapter.stepsLeft]
    omega
  | adapterFailed h =>
    simp only [Stream.remaining, h, Adapter.stepsLeft]
    omega
  | adapterLoaded h =>
    simp only [Stream.remaining, h, Adapter.stepsLeft]
    omega
  | adapterUnregistered h =>
    simp only [Stream.remaining, h, Adapter.stepsLeft]
    omega
  | adapterEnded h =>
    simp only [Stream.remaining, h, Adapter.stepsLeft]
    omega
  | sentRaw => exact absurd rfl (hsend _ _)
  | _ => exact le_refl _

/-- An adapter comes nearer to its end with each step. -/
theorem remaining_lt {s : State} {i : ℕ} {a : Action} (ha : Enabled s a)
    (hof : a.adapterOf = some i) :
    ((next s a).streams i).remaining < (s.streams i).remaining := by
  cases a with
  | adapterRecv j =>
    cases hof
    obtain ⟨hv, hraw⟩ := ha
    rw [next, adapterRecvNext]
    split
    · rename_i hcons
      rw [State.setStream_streams_self]
      simp only [Stream.remaining, hv, hcons, Adapter.stepsLeft, List.length_cons]
      omega
    · rename_i hcons
      rw [State.setStream_streams_self]
      simp only [Stream.remaining, hcons, List.length_cons]
      omega
    · exact absurd ‹_› hraw
  | adapterForward j q =>
    cases hof
    rw [next, State.setStream_streams_self]
    simp only [Stream.remaining, ha.1, Adapter.stepsLeft]
    omega
  | adapterFail j q =>
    cases hof
    rw [next, State.setStream_streams_self]
    simp only [Stream.remaining, ha.1, Adapter.stepsLeft]
    omega
  | adapterLoad j =>
    cases hof
    rw [next, State.setStream_streams_self]
    simp only [Stream.remaining, show (s.streams i).adapter = .failing from ha,
      Adapter.stepsLeft]
    omega
  | adapterUnregister j id =>
    cases hof
    change ((s.setStream i { s.streams i with adapter := .exited }).streams i).remaining < _
    rw [State.setStream_streams_self]
    simp only [Stream.remaining, ha.1, Adapter.stepsLeft]
    omega
  | adapterEnd j =>
    cases hof
    rw [next, State.setStream_streams_self]
    simp only [Stream.remaining, ha.1, Adapter.stepsLeft]
    omega
  | _ => cases hof

/-- `recv()` on stream `i` does not hang: with the buffered quotes taken, the adapter has exited, so
that `recv()` returns `None`, or it can go on, and only finitely often. -/
def Ends (s : State) (i : ℕ) : Prop :=
  (s.streams i).quotes = [] → (s.streams i).adapter = .exited ∨
    ∃ a : Action, a.adapterOf = some i ∧ Enabled s a ∧
      ((next s a).streams i).remaining < (s.streams i).remaining

/-- An adapter whose stream is in no map and in no hands of the loop can go on to its end. -/
theorem ends_of_exited {s : State} (hw : Wired s) (hl : s.loop = .exited)
    (hempty : s.resumable = ∅) {i : ℕ} (hi : (s.streams i).start = .done) : Ends s i := by
  intro hquotes
  have hunlocked : s.loop.isUnlocked = true := by
    rw [hl]
    rfl
  have hgo : ∀ a : Action, a.adapterOf = some i → Enabled s a →
      (s.streams i).adapter = .exited ∨ ∃ a : Action, a.adapterOf = some i ∧ Enabled s a ∧
        ((next s a).streams i).remaining < (s.streams i).remaining :=
    fun a hof ha => Or.inr ⟨a, hof, ha, remaining_lt ha hof⟩
  cases hadapter : (s.streams i).adapter with
  | none => exact absurd hadapter ((hw.ok i).registered hi).1
  | receiving =>
    rw [← hadapter]
    by_cases hraw : (s.streams i).raw = []
    · refine hgo (.adapterEnd i) rfl ⟨hadapter, hraw, ?_⟩
      rw [State.senderHeld, hempty, hl]
      rfl
    · exact hgo (.adapterRecv i) rfl ⟨hadapter, hraw⟩
  | holding q =>
    rw [← hadapter]
    by_cases hdropped : (s.streams i).handle = .dropped
    · exact hgo (.adapterFail i q) rfl ⟨hadapter, hdropped⟩
    · exact hgo (.adapterForward i q) rfl ⟨hadapter, hdropped, by rw [hquotes]; decide⟩
  | failing =>
    rw [← hadapter]
    exact hgo (.adapterLoad i) rfl hadapter
  | unregistering id =>
    rw [← hadapter]
    exact hgo (.adapterUnregister i id) rfl ⟨hadapter, hunlocked⟩
  | exited => exact Or.inl rfl

/-! ## A StreamEnd in the gap -/

/-- The start of stream `0` has been answered with the id `7`, which the server ends at once; then
the stream is registered. -/
def endedRun : List Action :=
  [.begin 0, .request 0, .dequeue true, .accept 0 0 7, .read .serving (.response 0 (some 7)),
    .serverSend (.ended 7), .read .serving (.ended 7), .receive 0 0 ⟨.ok (some 7), 1⟩,
    .register 0 7]

/-- No start is in progress. -/
def State.NoStart (s : State) : Prop :=
  ∀ i, (s.streams i).start = .idle ∨ (s.streams i).start = .done ∨ (s.streams i).start = .failed

/-- The loop reads the `StreamEnd` before the stream is registered: the entry stays under an id that
has ended, on a socket that is up. -/
theorem registers_after_streamEnd :
    system.Valid init endedRun ∧ (system.exec init endedRun).NoStart ∧
      (system.exec init endedRun).consumed = [.response 0 (some 7), .ended 7] ∧
      ∃ i, (system.exec init endedRun).resumable.lookup 7 = some i ∧
        7 ∉ (system.exec init endedRun).liveIds ∧
        ¬Recovering (system.exec init endedRun) 7 := by
  have hv : system.Valid init endedRun := by decide
  refine ⟨hv, fun i => ?_, by decide, 0, by decide, by decide, ?_⟩
  · by_cases hi : i = 0
    · subst hi
      exact Or.inr (Or.inl (by decide))
    · left
      have hcount : (system.exec init endedRun).streamCount = 1 := by decide
      rw [(exec_wired hv).unused i (by omega)]
  · rintro (hlost | hsnap | hwait)
    · exact absurd hlost (by decide)
    · exact absurd hsnap (by decide)
    · exact absurd hwait (by decide)

/-- **No zombie streams.** In a run in which no `StreamEnd` is read for the id of a start in the
gap, and no start is in the gap when a snapshot is taken or the final cleanup runs, every entry is
under an id of the socket in use or waits to be resumed, and in either case the loop has read no
`StreamEnd` for its id since the response that came with it; and once the loop has exited no entry
is left and no `recv()` hangs. -/
theorem no_zombie_streams {as : List Action} (hv : system.Valid init as)
    (hC : system.Along GapFree init as) :
    (∀ id i, (system.exec init as).resumable.lookup id = some i →
      (id ∈ (system.exec init as).liveIds ∨ Recovering (system.exec init as) id) ∧
        (system.exec init as).Unended id) ∧
    ((system.exec init as).loop = .exited → (system.exec init as).resumable = ∅ ∧
      ∀ i, ((system.exec init as).streams i).start = .done → Ends (system.exec init as) i) := by
  have h := exec_current hv hC
  refine ⟨fun id i hlook => ⟨h.entries id i hlook, (exec_unspent hv hC).entries id i hlook⟩,
    fun hl => ?_⟩
  have hempty : (system.exec init as).resumable = ∅ :=
    Table.eq_empty_of_lookup (h.exited hl).1
  exact ⟨hempty, fun i hi => ends_of_exited (exec_wired hv) hl hempty hi⟩

/-- A stream is registered and ended, and then the client loses its connection and gives up. -/
def endRun : List Action :=
  startRun ++ [.serverSend (.ended 7), .read .serving (.ended 7), .lose, .leave, .decide true,
    .cleanup]

theorem no_zombie_streams_endRun :
    (∀ id i, (system.exec init endRun).resumable.lookup id = some i →
      (id ∈ (system.exec init endRun).liveIds ∨ Recovering (system.exec init endRun) id) ∧
        (system.exec init endRun).Unended id) ∧
    ((system.exec init endRun).loop = .exited → (system.exec init endRun).resumable = ∅ ∧
      ∀ i, ((system.exec init endRun).streams i).start = .done →
        Ends (system.exec init endRun) i) :=
  no_zombie_streams (by decide) (by decide)

end Lifecycle

end TitanClient
