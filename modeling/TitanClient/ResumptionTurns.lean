import TitanClient.Resumption

/-!
# One turn of the resumption loop

The turn of an entry has an outcome: its request is not encoded, not written, answered in one of
three ways, or the connection is lost while the answer is awaited. Around the outcome anything may
happen that neither answers the request nor ends the wait: other tasks act, and frames pass that end
no stream. `Schedule` says what does, and `Schedule.Within` that no task does more than what a given
set allows. Owners may do anything at any time, but a write to the map comes from a task that was
under way when the connection was lost, and the set says which of them there are.

## Main results

* `Drift.task` — what the other tasks can do to an entry: take it out if it is theirs or if they
  write under its id, and put in what they register
* `resumeTurn_spec` — a turn drifts along with its schedule and then does one of three things to the
  map: remove the old id, remap it, or leave it
-/

namespace TitanClient

namespace Resumption

open Requests (ClientRequest)

variable {ρ : Type}

/-! ## Outcomes and schedules -/

/-- The three ways in which reading reports that the connection is gone. -/
inductive Loss
  | close
  | failed
  | eof
  deriving DecidableEq

/-- What reading yields then. -/
def Loss.frame : Loss → Incoming
  | .close => .close
  | .failed => .failed
  | .eof => .eof

/-- How the turn of an entry ends, if its stream has not been stopped or closed before. -/
inductive Outcome
  | encodeError
  | sendError
  | answered (newId : ℕ)
  | noStream
  | refused
  | lost (loss : Loss)
  deriving DecidableEq

/-- The id the stream should be registered under after a turn that began under `oldId`. -/
def Outcome.place (oldId : ℕ) : Outcome → Option ℕ
  | .answered newId => some newId
  | .lost _ => some oldId
  | _ => none

/-- The server declined to open the stream again. -/
def Outcome.declined : Outcome → Bool
  | .noStream => true
  | .refused => true
  | _ => false

/-- No resume request of this turn reaches the socket. -/
def Outcome.unsent : Outcome → Bool
  | .encodeError => true
  | .sendError => true
  | _ => false

/-- After this turn the connection is known to be gone. -/
def Outcome.disconnected : Outcome → Bool
  | .sendError => true
  | .lost _ => true
  | _ => false

/-- A frame that does not end the wait for the answer to `requestId`, and ends no stream. -/
def Incoming.Passing (requestId : ℕ) : Incoming → Prop
  | .response id _ => id ≠ requestId
  | .error id => id ≠ requestId
  | .streamEnd _ => False
  | .close => False
  | .failed => False
  | .eof => False
  | _ => True

/-- An event that does not end the wait. -/
def Event.Passing (requestId : ℕ) : Event ρ → Prop
  | .task _ => True
  | .frame f => f.Passing requestId

/-- For each entry, named by its old id, what happens before its turn and while its answer is
awaited. -/
structure Schedule (ρ : Type) where
  /-- What other tasks do before the turn. -/
  before : ℕ → List (TaskEvent ρ)
  /-- What happens while the answer to the given request id is awaited. -/
  waiting : ℕ → ℕ → List (Event ρ)
  /-- None of it ends the wait. -/
  passing : ∀ oldId requestId, ∀ ev ∈ waiting oldId requestId, ev.Passing requestId

/-- Other tasks do nothing but what is in `tasks`. -/
structure Schedule.Within (w : Schedule ρ) (tasks : Set (TaskEvent ρ)) : Prop where
  before : ∀ oldId, ∀ ev ∈ w.before oldId, ev ∈ tasks
  waiting : ∀ oldId requestId ev, .task ev ∈ w.waiting oldId requestId → ev ∈ tasks

/-- The schedule in which the tasks act once, before the turn of one entry, and nothing else
happens. -/
def Schedule.strike (oldId : ℕ) (evs : List (TaskEvent ρ)) : Schedule ρ :=
  ⟨fun id => if id = oldId then evs else [], fun _ _ => [], by simp⟩

/-- The schedule in which they act once, while the answer for one entry is awaited. -/
def Schedule.interject (oldId : ℕ) (evs : List (TaskEvent ρ)) : Schedule ρ where
  before _ := []
  waiting id _ := if id = oldId then evs.map .task else []
  passing id requestId ev hev := by
    split at hev
    · obtain ⟨ev', -, rfl⟩ := List.mem_map.mp hev
      trivial
    · exact absurd hev List.not_mem_nil

/-- The schedule in which nothing else happens. -/
def Schedule.quiet : Schedule ρ := ⟨fun _ => [], fun _ _ => [], by simp⟩

theorem Schedule.quiet_within (tasks : Set (TaskEvent ρ)) : Schedule.quiet.Within tasks :=
  ⟨fun _ _ hev => absurd hev List.not_mem_nil, fun _ _ _ hev => absurd hev List.not_mem_nil⟩

theorem Schedule.strike_within {tasks : Set (TaskEvent ρ)} {evs : List (TaskEvent ρ)}
    (h : ∀ ev ∈ evs, ev ∈ tasks) (oldId : ℕ) : (Schedule.strike oldId evs).Within tasks := by
  refine ⟨fun id ev hev => ?_, fun _ _ _ hev => absurd hev List.not_mem_nil⟩
  rw [strike] at hev
  dsimp only at hev
  split at hev
  · exact h ev hev
  · exact absurd hev List.not_mem_nil

theorem Schedule.interject_within {tasks : Set (TaskEvent ρ)} {evs : List (TaskEvent ρ)}
    (h : ∀ ev ∈ evs, ev ∈ tasks) (oldId : ℕ) : (Schedule.interject oldId evs).Within tasks := by
  refine ⟨fun _ _ hev => absurd hev List.not_mem_nil, fun id requestId ev hev => ?_⟩
  rw [interject] at hev
  dsimp only at hev
  split at hev
  · obtain ⟨ev', hev', heq⟩ := List.mem_map.mp hev
    cases heq
    exact h ev hev'
  · exact absurd hev List.not_mem_nil

/-- The turn with the given outcome, under a schedule. -/
def Outcome.turn (w : Schedule ρ) (oldId : ℕ) : Outcome → Turn ρ
  | .encodeError => { before := w.before oldId, encoded := false }
  | .sendError => { before := w.before oldId, sent := false }
  | .answered newId =>
    { before := w.before oldId
      events := fun rid => w.waiting oldId rid ++ [.frame (.response rid (some newId))] }
  | .noStream =>
    { before := w.before oldId
      events := fun rid => w.waiting oldId rid ++ [.frame (.response rid none)] }
  | .refused =>
    { before := w.before oldId
      events := fun rid => w.waiting oldId rid ++ [.frame (.error rid)] }
  | .lost loss =>
    { before := w.before oldId
      events := fun rid => w.waiting oldId rid ++ [.frame loss.frame] }

/-- `resume_streams` with the given outcomes, under a schedule. -/
def resumeWith (s : State ρ) (order : List (Entry ρ)) (outcome : ℕ → Outcome) (w : Schedule ρ) :
    Option (State ρ) :=
  resumeStreams s order fun oldId => (outcome oldId).turn w oldId

/-! ## Drifting -/

/-- The event writes the map under `k`. -/
def TaskEvent.Writes (k : ℕ) : TaskEvent ρ → Prop
  | .owner _ => False
  | .registers id _ => id = k
  | .unregisters _ id => id = k
  | .stopsAll => True

/-- The event may give up stream `i`. -/
def TaskEvent.GivesUp (i : ℕ) : TaskEvent ρ → Prop
  | .owner e => e.stream = i
  | .registers _ _ => False
  | .unregisters j _ => j = i
  | .stopsAll => True

/-- Whatever the tasks write under `k` gives up stream `i`. -/
def Undisputed (tasks : Set (TaskEvent ρ)) (i k : ℕ) : Prop :=
  ∀ ev ∈ tasks, ev.Writes k → ev.GivesUp i

/-- `t` is `s` after tasks acted and frames passed: the ids are as before, new entries are those
that were registered, an entry whose id no other stream's task has written under is still there
unless its stream was given up, logs may have grown, and only streams given up have ended. -/
structure Drift (tasks : Set (TaskEvent ρ)) (s t : State ρ) : Prop where
  origin : ∀ k r, t.streams.lookup k = some r →
    s.streams.lookup k = some r ∨ .registers k r ∈ tasks
  kept : ∀ k r, s.streams.lookup k = some r → Undisputed tasks r.stream k →
    t.streams.lookup k = some r ∨ (∃ ev ∈ tasks, ev.Writes k) ∧ t.abandoned r.stream = true
  effectiveId : t.effectiveId = s.effectiveId
  held : ∀ i, t.abandoned i = false → Held s t i
  written : s.written ⊆ t.written
  granted : s.granted ⊆ t.granted
  ended_mono : ∀ i, s.isEnded i = true → t.isEnded i = true
  ended_of : ∀ i, t.isEnded i = true → s.isEnded i = true ∨ t.abandoned i = true
  abandoned_mono : ∀ i, s.abandoned i = true → t.abandoned i = true
  abandoned_of : ∀ i, t.abandoned i = true → s.abandoned i = true ∨ ∃ ev ∈ tasks, ev.GivesUp i

section Drift

variable {tasks : Set (TaskEvent ρ)} {s t u : State ρ}

theorem Drift.not_abandoned (h : Drift tasks s t) {i : ℕ} (hi : t.abandoned i = false) :
    s.abandoned i = false := by
  by_contra hne
  rw [h.abandoned_mono i (by simpa using hne)] at hi
  cases hi

/-- A step that leaves the map and the flags alone and only adds to the logs drifts. -/
theorem Drift.of_eq (hstreams : t.streams = s.streams)
    (heff : t.effectiveId = s.effectiveId) (hslot : t.slotReleased = s.slotReleased)
    (hcalls : t.onEndCalls = s.onEndCalls) (hw : s.written ⊆ t.written)
    (hg : s.granted ⊆ t.granted) (hstop : t.stopped = s.stopped) (hclosed : t.closed = s.closed)
    (hab : t.abandoned = s.abandoned) : Drift tasks s t := by
  have hended : ∀ i, t.isEnded i = s.isEnded i := by
    intro i
    rw [State.isEnded, State.isEnded, hstop, hclosed]
  refine ⟨fun k r hk => ?_, fun k r hk _ => ?_, heff, fun i _ => ?_, hw, hg, fun i hi => ?_,
    fun i hi => ?_, fun i hi => ?_, fun i hi => ?_⟩
  · exact Or.inl (by rwa [hstreams] at hk)
  · exact Or.inl (by rwa [hstreams])
  · exact ⟨congrFun hslot i, congrFun hcalls i⟩
  · rwa [hended i]
  · exact Or.inl (by rwa [hended i] at hi)
  · rwa [hab]
  · exact Or.inl (by rwa [hab] at hi)

theorem Drift.refl (s : State ρ) : Drift tasks s s :=
  Drift.of_eq rfl rfl rfl rfl (List.Subset.refl _) (List.Subset.refl _) rfl rfl rfl

theorem Drift.trans (h : Drift tasks s t) (h' : Drift tasks t u) : Drift tasks s u where
  origin k r hk := by
    rcases h'.origin k r hk with hk | hreg
    · exact h.origin k r hk
    · exact Or.inr hreg
  kept k r hk hown := by
    rcases h.kept k r hk hown with hk | ⟨hev, hab⟩
    · exact h'.kept k r hk hown
    · exact Or.inr ⟨hev, h'.abandoned_mono _ hab⟩
  effectiveId := h'.effectiveId.trans h.effectiveId
  held i hi := by
    obtain ⟨hslot, hcalls⟩ := h.held i (h'.not_abandoned hi)
    obtain ⟨hslot', hcalls'⟩ := h'.held i hi
    exact ⟨hslot'.trans hslot, hcalls'.trans hcalls⟩
  written := List.Subset.trans h.written h'.written
  granted := List.Subset.trans h.granted h'.granted
  ended_mono i hi := h'.ended_mono i (h.ended_mono i hi)
  ended_of i hi := by
    rcases h'.ended_of i hi with hi | hi
    · rcases h.ended_of i hi with hi | hi
      · exact Or.inl hi
      · exact Or.inr (h'.abandoned_mono i hi)
    · exact Or.inr hi
  abandoned_mono i hi := h'.abandoned_mono i (h.abandoned_mono i hi)
  abandoned_of i hi := by
    rcases h'.abandoned_of i hi with hi | hev
    · exact h.abandoned_of i hi
    · exact Or.inr hev

/-- A step that gives up the streams of which `P` holds, and leaves ids, slots of the others and the
logs alone, drifts if it writes the map as it may. -/
theorem Drift.of_givesUp {ev : TaskEvent ρ} (hev : ev ∈ tasks) {P : ℕ → Prop}
    (hP : ∀ i, P i → ev.GivesUp i)
    (hended : ∀ i, t.isEnded i = true ↔ s.isEnded i = true ∨ P i)
    (hab : ∀ i, t.abandoned i = true ↔ s.abandoned i = true ∨ P i)
    (horigin : ∀ k r, t.streams.lookup k = some r →
      s.streams.lookup k = some r ∨ .registers k r ∈ tasks)
    (hkept : ∀ k r, s.streams.lookup k = some r → (ev.Writes k → ev.GivesUp r.stream) →
      t.streams.lookup k = some r ∨ ev.Writes k ∧ P r.stream)
    (heff : t.effectiveId = s.effectiveId) (hheld : ∀ i, ¬P i → Held s t i)
    (hw : t.written = s.written) (hg : t.granted = s.granted) : Drift tasks s t where
  origin := horigin
  kept k r hk hown := by
    rcases hkept k r hk (hown ev hev) with hk | ⟨hwrites, hp⟩
    · exact Or.inl hk
    · exact Or.inr ⟨⟨ev, hev, hwrites⟩, (hab _).mpr (Or.inr hp)⟩
  effectiveId := heff
  held i hi := by
    refine hheld i fun hp => ?_
    rw [(hab i).mpr (Or.inr hp)] at hi
    cases hi
  written := hw ▸ List.Subset.refl _
  granted := hg ▸ List.Subset.refl _
  ended_mono i hi := (hended i).mpr (Or.inl hi)
  ended_of i hi := ((hended i).mp hi).imp_right fun hp => (hab i).mpr (Or.inr hp)
  abandoned_mono i hi := (hab i).mpr (Or.inl hi)
  abandoned_of i hi := ((hab i).mp hi).imp_right fun hp => ⟨ev, hev, hP i hp⟩

/-- What another task does. -/
theorem Drift.task {ev : TaskEvent ρ} (hev : ev ∈ tasks) (s : State ρ) :
    Drift tasks s (s.task ev) := by
  cases ev with
  | owner e =>
    refine Drift.of_givesUp hev (P := fun i => e.stream = i) (fun _ h => h)
      (fun _ => s.owner_isEnded e) (fun _ => s.owner_abandoned e) (fun k r hk => ?_)
      (fun k r hk _ => ?_) ?_ (fun i _ => ?_) ?_ ?_
    · cases e <;> exact Or.inl hk
    · cases e <;> exact Or.inl hk
    · cases e <;> rfl
    · cases e <;> exact ⟨rfl, rfl⟩
    · cases e <;> rfl
    · cases e <;> rfl
  | registers id r =>
    refine Drift.of_givesUp hev (P := fun _ => False) (fun _ h => h.elim)
      (fun _ => (iff_of_eq (or_false _)).symm) (fun _ => (iff_of_eq (or_false _)).symm)
      (fun k r' hk => ?_) (fun k r' hk hown => ?_) rfl (fun _ _ => ⟨rfl, rfl⟩) rfl rfl
    · by_cases hid : k = id
      · subst hid
        have hk : (s.streams.insert k r).lookup k = some r' := hk
        rw [AList.lookup_insert, Option.some.injEq] at hk
        rw [hk] at hev
        exact Or.inr hev
      · have hk : (s.streams.insert id r).lookup k = some r' := hk
        rw [AList.lookup_insert_ne hid] at hk
        exact Or.inl hk
    · have hid : k ≠ id := fun heq => hown heq.symm
      refine Or.inl ?_
      change (s.streams.insert id r).lookup k = some r'
      rw [AList.lookup_insert_ne hid, hk]
  | unregisters i id =>
    refine Drift.of_givesUp hev (P := fun j => i = j) (fun _ h => h)
      (fun _ => s.owner_isEnded (.stops i)) (fun _ => s.owner_abandoned (.stops i))
      (fun k r hk => ?_) (fun k r hk hown => ?_) rfl (fun _ _ => ⟨rfl, rfl⟩) rfl rfl
    · exact Or.inl (Table.lookup_of_lookup_erase hk)
    · by_cases hid : k = id
      · exact Or.inr ⟨hid.symm, hown hid.symm⟩
      · refine Or.inl ?_
        change (s.streams.erase id).lookup k = some r
        rw [AList.lookup_erase_ne hid, hk]
  | stopsAll =>
    obtain ⟨t, ht, hstreams, heff, hw, hg, hab, hended, hheld⟩ :=
      State.foldl_onEnd s.streams.entries
        { s with
          streams := ∅
          abandoned := fun i => s.abandoned i || s.streams.entries.any fun e => e.2.stream == i }
    rw [State.task, State.stopAllStreams, ht]
    refine Drift.of_givesUp hev (P := fun i => ∃ e ∈ s.streams.entries, e.2.stream = i)
      (fun _ _ => trivial) hended (fun i => ?_) (fun k r hk => ?_) (fun k r hk _ => ?_) heff
      (fun i hi => hheld i fun e he heq => hi ⟨e, he, heq⟩) hw hg
    · rw [hab]
      simp only [Bool.or_eq_true, List.any_eq_true, beq_iff_eq]
    · rw [hstreams] at hk
      cases hk
    · exact Or.inr ⟨trivial, ⟨k, r⟩, AList.mem_lookup_iff.mp hk, rfl⟩

theorem Drift.foldl_task {es : List (TaskEvent ρ)} (hes : ∀ ev ∈ es, ev ∈ tasks) (s : State ρ) :
    Drift tasks s (es.foldl State.task s) := by
  induction es generalizing s with
  | nil => exact Drift.refl s
  | cons e es ih =>
    exact (Drift.task (hes e List.mem_cons_self) s).trans
      (ih (fun ev h => hes ev (List.mem_cons_of_mem _ h)) (s.task e))

/-- A passing frame leaves the state as it is, up to the log of routed frames. -/
theorem Drift.passing {f : Incoming} {requestId : ℕ} (hf : f.Passing requestId) (s : State ρ) :
    Drift tasks s (s.handleServerMessage f) := by
  cases f with
  | streamData id =>
    rw [State.handleServerMessage]
    cases s.streams.lookup id with
    | none => exact Drift.refl s
    | some r =>
      exact Drift.of_eq rfl rfl rfl rfl (List.Subset.refl _) (List.Subset.refl _) rfl rfl rfl
  | streamEnd id => exact hf.elim
  | _ => exact Drift.refl s

/-- The inner loop drifts through passing events and is then where it was. -/
theorem awaitResponse_passing (oldId : ℕ) {requestId : ℕ} {ws : List (Event ρ)}
    (hws : ∀ ev ∈ ws, ev.Passing requestId) (htasks : ∀ ev, .task ev ∈ ws → ev ∈ tasks)
    (s : State ρ) :
    ∃ t, Drift tasks s t ∧
      ∀ es, awaitResponse oldId requestId s (ws ++ es) = awaitResponse oldId requestId t es := by
  induction ws generalizing s with
  | nil => exact ⟨s, Drift.refl s, fun _ => rfl⟩
  | cons ev ws ih =>
    have hev := hws ev List.mem_cons_self
    have ih := ih (fun ev h => hws ev (List.mem_cons_of_mem _ h))
      fun ev h => htasks ev (List.mem_cons_of_mem _ h)
    have next : ∀ u : State ρ, Drift tasks s u →
        (∀ es, awaitResponse oldId requestId s (ev :: es) = awaitResponse oldId requestId u es) →
        ∃ t, Drift tasks s t ∧ ∀ es,
          awaitResponse oldId requestId s (ev :: ws ++ es) =
            awaitResponse oldId requestId t es := by
      intro u hu hstep
      obtain ⟨t, ht, h⟩ := ih u
      refine ⟨t, hu.trans ht, fun es => ?_⟩
      rw [List.cons_append, hstep, h]
    cases ev with
    | task e => exact next (s.task e) (Drift.task (htasks e List.mem_cons_self) s) fun _ => rfl
    | frame f =>
      cases f with
      | response id stream =>
        refine next s (Drift.refl s) fun es => ?_
        have hid : id ≠ requestId := hev
        exact if_pos hid
      | error id =>
        refine next s (Drift.refl s) fun es => ?_
        have hid : id ≠ requestId := hev
        exact if_pos hid
      | streamData id =>
        have hid : (Incoming.streamData id).Passing requestId := hev
        exact next _ (Drift.passing hid s) fun _ => rfl
      | streamEnd id => exact hev.elim
      | close => exact hev.elim
      | failed => exact hev.elim
      | eof => exact hev.elim
      | _ => exact next s (Drift.refl s) fun _ => rfl

end Drift

/-! ## What a turn does -/

/-- What the turn of `e` with outcome `o` does to the state it has drifted to. -/
inductive Turned (e : Entry ρ) (o : Outcome) (s : State ρ) : State ρ → Prop
  | removed (h : s.isEnded e.2.stream = true ∨ o.place e.1 = none) :
    Turned e o s (s.removeAndEnd e.1)
  | remapped {newId requestId : ℕ} (h : o = .answered newId)
    (hw : ⟨requestId, e.2.request⟩ ∈ s.written) (hg : (requestId, newId) ∈ s.granted) :
    Turned e o s (s.remap e.1 newId)
  | left {loss : Loss} (h : o = .lost loss) : Turned e o s s

/-- **One turn.** It drifts with its schedule and then does what its outcome says, unless the stream
has ended before. -/
theorem resumeTurn_spec {tasks : Set (TaskEvent ρ)} (s : State ρ) (e : Entry ρ) (o : Outcome)
    {w : Schedule ρ} (hw : w.Within tasks) :
    ∃ s' t, resumeTurn s e (o.turn w e.1) = some t ∧ Drift tasks s s' ∧ Turned e o s' t ∧
      (s.isEnded e.2.stream = true → t = s'.removeAndEnd e.1) := by
  have hbefore : (o.turn w e.1).before = w.before e.1 := by cases o <;> rfl
  rw [resumeTurn, hbefore]
  have hd := Drift.foldl_task (hw.before e.1) s
  generalize (w.before e.1).foldl State.task s = s₁ at hd ⊢
  by_cases hend : s₁.isEnded e.2.stream = true
  · exact ⟨s₁, _, if_pos hend, hd, .removed (Or.inl hend), fun _ => rfl⟩
  have hlive : ¬s.isEnded e.2.stream = true := fun h => hend (hd.ended_mono _ h)
  have hs₂ : Drift tasks s₁ { s₁ with requestIdCounter := wrap32 (s₁.requestIdCounter + 1) } :=
    Drift.of_eq rfl rfl rfl rfl (List.Subset.refl _) (List.Subset.refl _) rfl rfl rfl
  dsimp only
  rw [if_neg hend]
  generalize hr : s₁.requestIdCounter = rid at hs₂ ⊢
  -- the state in which the answer is awaited, and where the passing events take it
  have hs₃ : Drift tasks s₁ { s₁ with
      requestIdCounter := wrap32 (rid + 1)
      written := s₁.written ++ [⟨rid, e.2.request⟩] } :=
    Drift.of_eq rfl rfl rfl rfl (List.subset_append_left _ _) (List.Subset.refl _) rfl rfl rfl
  obtain ⟨s₄, hs₄, hawait⟩ := awaitResponse_passing e.1 (w.passing e.1 rid)
    (hw.waiting e.1 rid)
    { s₁ with
      requestIdCounter := wrap32 (rid + 1)
      written := s₁.written ++ [⟨rid, e.2.request⟩] }
  have hd₄ : Drift tasks s s₄ := hd.trans (hs₃.trans hs₄)
  have hw₄ : (⟨rid, e.2.request⟩ : ClientRequest ρ) ∈ s₄.written :=
    hs₄.written (List.mem_append_right _ List.mem_cons_self)
  cases o with
  | encodeError =>
    exact ⟨_, _, rfl, hd.trans hs₂, .removed (Or.inr rfl), fun h => absurd h hlive⟩
  | sendError =>
    exact ⟨_, _, rfl, hd.trans hs₂, .removed (Or.inr rfl), fun h => absurd h hlive⟩
  | answered newId =>
    refine ⟨{ s₄ with granted := s₄.granted ++ [(rid, newId)] }, _, ?_, ?_,
      .remapped rfl hw₄ (List.mem_append_right _ List.mem_cons_self), fun h => absurd h hlive⟩
    · change awaitResponse _ _ _ (w.waiting e.1 rid ++ _) = _
      rw [hawait, awaitResponse, if_neg (not_not.mpr rfl)]
    · exact hd₄.trans (Drift.of_eq rfl rfl rfl rfl (List.Subset.refl _)
        (List.subset_append_left _ _) rfl rfl rfl)
  | noStream =>
    refine ⟨s₄, _, ?_, hd₄, .removed (Or.inr rfl), fun h => absurd h hlive⟩
    change awaitResponse _ _ _ (w.waiting e.1 rid ++ _) = _
    rw [hawait, awaitResponse, if_neg (not_not.mpr rfl)]
  | refused =>
    refine ⟨s₄, _, ?_, hd₄, .removed (Or.inr rfl), fun h => absurd h hlive⟩
    change awaitResponse _ _ _ (w.waiting e.1 rid ++ _) = _
    rw [hawait, awaitResponse, if_neg (not_not.mpr rfl)]
  | lost loss =>
    refine ⟨s₄, _, ?_, hd₄, .left rfl, fun h => absurd h hlive⟩
    change awaitResponse _ _ _ (w.waiting e.1 rid ++ _) = _
    rw [hawait]
    cases loss <;> rfl

/-- What the tasks do before the turn may as well be done to the state. -/
theorem resumeTurn_strike (s : State ρ) (e : Entry ρ) (o : Outcome) (evs : List (TaskEvent ρ)) :
    resumeTurn s e (o.turn (.strike e.1 evs) e.1) =
      resumeTurn (evs.foldl State.task s) e (o.turn .quiet e.1) := by
  have hbefore : (Schedule.strike e.1 evs).before e.1 = evs := if_pos rfl
  cases o <;> simp only [Outcome.turn, hbefore] <;> rfl

/-- What they do while the answer is awaited is done to the state in which the request has been
written. -/
theorem resumeTurn_interject {s : State ρ} {e : Entry ρ} (h : s.isEnded e.2.stream = false)
    (newId : ℕ) (evs : List (TaskEvent ρ)) :
    resumeTurn s e ((Outcome.answered newId).turn (.interject e.1 evs) e.1) =
      let t := evs.foldl State.task (s.request e)
      some ({ t with granted := t.granted ++ [(s.requestIdCounter, newId)] }.remap e.1 newId) := by
  have htasks : ∀ (evs : List (TaskEvent ρ)) (t : State ρ) (es : List (Event ρ)),
      awaitResponse e.1 s.requestIdCounter t (evs.map .task ++ es) =
        awaitResponse e.1 s.requestIdCounter (evs.foldl State.task t) es := by
    intro evs
    induction evs with
    | nil => exact fun _ _ => rfl
    | cons ev evs ih => exact fun t es => ih (t.task ev) es
  have hwaiting : ∀ rid, (Schedule.interject e.1 evs).waiting e.1 rid = evs.map .task :=
    fun _ => if_pos rfl
  rw [resumeTurn]
  simp only [Outcome.turn, hwaiting]
  change (if s.isEnded e.2.stream then _ else awaitResponse e.1 s.requestIdCounter (s.request e)
    (evs.map .task ++ [.frame (.response s.requestIdCounter (some newId))])) = _
  rw [h, htasks]
  exact if_neg (not_not.mpr rfl)

/-- The other turns are quiet. -/
theorem turn_interject_of_ne {oldId oldId' : ℕ} (h : oldId ≠ oldId') (o : Outcome)
    (evs : List (TaskEvent ρ)) : o.turn (.interject oldId' evs) oldId = o.turn .quiet oldId := by
  have hwaiting : (Schedule.interject oldId' evs).waiting oldId = fun _ => [] :=
    funext fun _ => if_neg h
  cases o <;> simp only [Outcome.turn, hwaiting] <;> rfl

end Resumption

end TitanClient
