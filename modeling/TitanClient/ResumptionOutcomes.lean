import TitanClient.ResumptionTurns

/-!
# What becomes of each stream during resumption

Two questions about the streams that nobody gives up while `resume_streams` runs. Which of them are
still registered when it returns, with their slots? And is each of those registered under the id the
server gave out for its own request?

Both have the same answer. The loop writes new ids into the map while later entries of the snapshot
still stand there under their old ids, and other tasks write the map at the same time, under ids of
the old connection. So what has to be excluded is an entry that cannot be sent, a new id that is
still in use, as the old id of an entry whose turn is yet to come or as a new id given out before,
and a task of another stream that writes under an id at which an entry waits or has been put.

## Main results

* `Progress` — the invariant of the loop while nothing of that kind happens
* `Progress.resumeLoop` — under every schedule, such a run ends with it
-/

namespace TitanClient

namespace Resumption

variable {ρ : Type}

/-! ## The properties -/

/-- Each stream of the map has one entry. -/
def State.Registered (s : State ρ) : Prop := (s.streams.entries.map (·.2.stream)).Nodup

instance (s : State ρ) : Decidable s.Registered := inferInstanceAs (Decidable (List.Nodup _))

/-- A stream is registered by the start that made it and never again, so that what other tasks
register is not in the snapshot. -/
def RegistersNew (order : List (Entry ρ)) (tasks : Set (TaskEvent ρ)) : Prop :=
  ∀ id r, .registers id r ∈ tasks → ∀ e ∈ order, r.stream ≠ e.2.stream

/-- Every stream that has not been given up and the server has not declined is still registered,
with its slot. -/
def Kept (s t : State ρ) (order : List (Entry ρ)) (outcome : ℕ → Outcome) : Prop :=
  ∀ e ∈ order, t.abandoned e.2.stream = false → (outcome e.1).declined = false →
    (∃ k, t.streams.lookup k = some e.2) ∧ Held s t e.2.stream

/-- The resume request of `e` was written, and answered with `newId`. -/
def Answered (t : State ρ) (e : Entry ρ) (newId : ℕ) : Prop :=
  ∃ requestId, ⟨requestId, e.2.request⟩ ∈ t.written ∧ (requestId, newId) ∈ t.granted

/-- Every stream that has not been given up is registered exactly once, under the id that answered
its own request. Data under an id that answered the request of a stream goes to no other stream, and
that stream gets no other data. -/
structure Tied (s t : State ρ) (order : List (Entry ρ)) (assign : ℕ → ℕ) : Prop where
  registered : ∀ e ∈ order, t.abandoned e.2.stream = false →
    t.streams.lookup (assign e.1) = some e.2 ∧
    (∀ k r, t.streams.lookup k = some r → r.stream = e.2.stream → k = assign e.1) ∧
    t.effectiveId e.2.stream = assign e.1
  answered : ∀ e ∈ order, t.abandoned e.2.stream = false → Answered t e (assign e.1)
  delivers : ∀ id i, (t.handleServerMessage (.streamData id)).routed = t.routed ++ [(id, i)] →
    ∀ e ∈ order, s.isEnded e.2.stream = false → Answered t e (assign e.1) →
      (assign e.1 = id ↔ e.2.stream = i)

/-- Writing to a socket that is gone fails. -/
def LossIsFinal (s : State ρ) (order : List (Entry ρ)) (outcome : ℕ → Outcome) : Prop :=
  order.Pairwise fun e e' =>
    s.isEnded e.2.stream = false → (outcome e.1).disconnected = true →
      s.isEnded e'.2.stream = false → (outcome e'.1).unsent = true

/-- Every resume request gets out, and no other stream's task writes under the old id of an entry
that the server does not decline. A new id is neither the old id of an entry yet to come nor a new
id given out later, and no other stream's task writes under it while there are entries to come.
Entries whose streams have ended do not count: nothing is sent for them. -/
structure Undisturbed (s : State ρ) (order : List (Entry ρ)) (outcome : ℕ → Outcome)
    (tasks : Set (TaskEvent ρ)) : Prop where
  sent : ∀ e ∈ order, s.isEnded e.2.stream = false → (outcome e.1).unsent = false
  own : ∀ e ∈ order, s.isEnded e.2.stream = false → (outcome e.1).declined = false →
    Undisputed tasks e.2.stream e.1
  apart : order.Pairwise fun e e' =>
    s.isEnded e.2.stream = false → ∀ newId, outcome e.1 = .answered newId →
      newId ≠ e'.1 ∧ (s.isEnded e'.2.stream = false → outcome e'.1 ≠ .answered newId) ∧
        Undisputed tasks e.2.stream newId

/-! ## The invariant of an undisturbed run -/

/-- How far the loop has come: `done` have had their turn, `rest` have not. -/
structure Progress (tasks : Set (TaskEvent ρ)) (s₀ : State ρ) (outcome : ℕ → Outcome)
    (done rest : List (Entry ρ)) (s : State ρ) : Prop where
  waiting : ∀ e ∈ rest, s.abandoned e.2.stream = false → (outcome e.1).declined = false →
    s.streams.lookup e.1 = some e.2
  settled : ∀ e ∈ done, s.abandoned e.2.stream = false → ∀ k,
    (outcome e.1).place e.1 = some k → s.streams.lookup k = some e.2
  remapped : ∀ e ∈ done, s.abandoned e.2.stream = false → ∀ newId,
    outcome e.1 = .answered newId → s.effectiveId e.2.stream = newId ∧ Answered s e newId
  origin : ∀ k r, s.streams.lookup k = some r → ⟨k, r⟩ ∈ rest ∨
    (∃ e ∈ done, s₀.isEnded e.2.stream = false ∧ (outcome e.1).place e.1 = some k ∧ r = e.2) ∨
      .registers k r ∈ tasks
  heldWaiting : ∀ e ∈ rest, s.abandoned e.2.stream = false → Held s₀ s e.2.stream
  heldSettled : ∀ e ∈ done, s.abandoned e.2.stream = false → (outcome e.1).place e.1 ≠ none →
    Held s₀ s e.2.stream
  ended : ∀ e ∈ rest, s.isEnded e.2.stream = true → s.abandoned e.2.stream = true
  ended_mono : ∀ i, s₀.isEnded i = true → s.isEnded i = true
  abandoned : ∀ i, s₀.isEnded i = true → s.abandoned i = true

variable {tasks : Set (TaskEvent ρ)} {s₀ : State ρ} {outcome : ℕ → Outcome}
  {done rest : List (Entry ρ)} {s t : State ρ}

theorem Held.trans {u : State ρ} {i : ℕ} (h : Held s t i) (h' : Held t u i) : Held s u i :=
  ⟨h'.1.trans h.1, h'.2.trans h.2⟩

theorem Progress.live (h : Progress tasks s₀ outcome done rest s) {i : ℕ}
    (hi : s.abandoned i = false) : s₀.isEnded i = false := by
  by_contra hne
  rw [h.abandoned i (by simpa using hne)] at hi
  cases hi

/-- Entries at which no other stream's task writes stay where they are. -/
theorem Progress.drift (h : Progress tasks s₀ outcome done rest s) (hd : Drift tasks s t)
    (hwaiting : ∀ e ∈ rest, s₀.isEnded e.2.stream = false → (outcome e.1).declined = false →
      Undisputed tasks e.2.stream e.1)
    (hsettled : ∀ e ∈ done, s₀.isEnded e.2.stream = false → ∀ k,
      (outcome e.1).place e.1 = some k → Undisputed tasks e.2.stream k) :
    Progress tasks s₀ outcome done rest t where
  waiting e he hab hdec := by
    have hab' := hd.not_abandoned hab
    rcases hd.kept _ _ (h.waiting e he hab' hdec) (hwaiting e he (h.live hab') hdec) with
      hk | ⟨-, hgone⟩
    · exact hk
    · rw [hgone] at hab
      cases hab
  settled e he hab k hk := by
    have hab' := hd.not_abandoned hab
    rcases hd.kept _ _ (h.settled e he hab' k hk) (hsettled e he (h.live hab') k hk) with
      hk | ⟨-, hgone⟩
    · exact hk
    · rw [hgone] at hab
      cases hab
  remapped e he hab newId ho := by
    obtain ⟨heff, rid, hw, hg⟩ := h.remapped e he (hd.not_abandoned hab) newId ho
    exact ⟨by rwa [hd.effectiveId], rid, hd.written hw, hd.granted hg⟩
  origin k r hk := by
    rcases hd.origin k r hk with hk | hreg
    · exact h.origin k r hk
    · exact Or.inr (Or.inr hreg)
  heldWaiting e he hab := (h.heldWaiting e he (hd.not_abandoned hab)).trans (hd.held _ hab)
  heldSettled e he hab hplace :=
    (h.heldSettled e he (hd.not_abandoned hab) hplace).trans (hd.held _ hab)
  ended e he hend := by
    rcases hd.ended_of _ hend with hend | hab
    · exact hd.abandoned_mono _ (h.ended e he hend)
    · exact hab
  ended_mono i hi := hd.ended_mono i (h.ended_mono i hi)
  abandoned i hi := hd.abandoned_mono i (h.abandoned i hi)

section Turn

variable {e : Entry ρ} (h : Progress tasks s₀ outcome done (e :: rest) s)
  (hkeys : ∀ e' ∈ rest, e'.1 ≠ e.1) (hrest : ∀ e' ∈ rest, e'.2.stream ≠ e.2.stream)
  (hdone : ∀ e' ∈ done, e'.2.stream ≠ e.2.stream)
  (hplace : ∀ e' ∈ done, s₀.isEnded e'.2.stream = false → ∀ k,
    (outcome e'.1).place e'.1 = some k →
      k ≠ e.1 ∧ (s₀.isEnded e.2.stream = false → outcome e.1 ≠ .answered k))

include h hkeys hplace

/-- What stands under the old id of the entry is the entry, or has been registered there. -/
theorem Progress.head {r : ResumableStream ρ} (hl : s.streams.lookup e.1 = some r) :
    r = e.2 ∨ .registers e.1 r ∈ tasks := by
  rcases h.origin e.1 r hl with hmem | ⟨e', he', hlive, hk, -⟩ | hreg
  · rcases List.mem_cons.mp hmem with heq | hmem
    · rw [← heq]
      exact Or.inl rfl
    · exact absurd rfl (hkeys ⟨e.1, r⟩ hmem)
  · exact absurd rfl (hplace e' he' hlive _ hk).1
  · exact Or.inr hreg

include hrest hdone

/-- The entry is taken out: its stream has been given up, or it has no place any more. -/
theorem Progress.removed (hnew : RegistersNew (done ++ e :: rest) tasks)
    (hgone : s.abandoned e.2.stream = true ∨ (outcome e.1).place e.1 = none) :
    Progress tasks s₀ outcome (done ++ [e]) rest (s.removeAndEnd e.1) := by
  have hrefuse : s.abandoned e.2.stream = false → (outcome e.1).place e.1 = none := by
    intro hab
    rcases hgone with hgone | hnone
    · rw [hgone] at hab
      cases hab
    · exact hnone
  have habandoned : (s.removeAndEnd e.1).abandoned = s.abandoned := by
    rw [State.removeAndEnd]
    cases s.streams.lookup e.1 <;> rfl
  have hlog : (s.removeAndEnd e.1).written = s.written ∧
      (s.removeAndEnd e.1).granted = s.granted := by
    rw [State.removeAndEnd]
    cases s.streams.lookup e.1 <;> exact ⟨rfl, rfl⟩
  -- the stream that is ended is none of the others
  have hother : ∀ e' ∈ done ++ rest, ∀ r, s.streams.lookup e.1 = some r →
      r.stream ≠ e'.2.stream := by
    intro e' he' r hl
    rcases h.head hkeys hplace hl with rfl | hreg
    · rcases List.mem_append.mp he' with he' | he'
      · exact (hdone e' he').symm
      · exact (hrest e' he').symm
    · refine hnew _ _ hreg e' ?_
      rcases List.mem_append.mp he' with he' | he'
      · exact List.mem_append_left _ he'
      · exact List.mem_append_right _ (List.mem_cons_of_mem _ he')
  have hapartRest := fun e' he' =>
    s.removeAndEnd_apart (hother e' (List.mem_append_right done he'))
  have hapartDone := fun e' he' =>
    s.removeAndEnd_apart (hother e' (List.mem_append_left rest he'))
  refine ⟨fun e' he' hab hdec => ?_, fun e' he' hab k hk => ?_, fun e' he' hab newId ho => ?_,
    fun k r hkr => ?_, fun e' he' hab => ?_, fun e' he' hab hk => ?_, fun e' he' hend => ?_,
    fun i hi => s.isEnded_removeAndEnd (h.ended_mono i hi), fun i hi => ?_⟩
  · rw [habandoned] at hab
    rw [State.removeAndEnd_streams, AList.lookup_erase_ne (hkeys e' he')]
    exact h.waiting e' (List.mem_cons_of_mem _ he') hab hdec
  · rw [habandoned] at hab
    rcases List.mem_append.mp he' with he' | he'
    · have hne := (hplace e' he' (h.live hab) k hk).1
      rw [State.removeAndEnd_streams, AList.lookup_erase_ne hne]
      exact h.settled e' he' hab k hk
    · rw [List.mem_singleton.mp he'] at hab hk
      rw [hrefuse hab] at hk
      cases hk
  · rw [habandoned] at hab
    rcases List.mem_append.mp he' with he' | he'
    · rw [(hapartDone e' he').2.1, Answered, hlog.1, hlog.2]
      exact h.remapped e' he' hab newId ho
    · rw [List.mem_singleton.mp he'] at hab ho
      have := hrefuse hab
      rw [ho] at this
      cases this
  · rw [State.removeAndEnd_streams] at hkr
    have hne : k ≠ e.1 := by
      rintro rfl
      rw [AList.lookup_erase] at hkr
      cases hkr
    rw [AList.lookup_erase_ne hne] at hkr
    rcases h.origin k r hkr with hmem | ⟨e', he', hk⟩ | hreg
    · rcases List.mem_cons.mp hmem with heq | hmem
      · exact absurd (congrArg Sigma.fst heq) hne
      · exact Or.inl hmem
    · exact Or.inr (Or.inl ⟨e', List.mem_append_left _ he', hk⟩)
    · exact Or.inr (Or.inr hreg)
  · rw [habandoned] at hab
    exact (h.heldWaiting e' (List.mem_cons_of_mem _ he') hab).trans (hapartRest e' he').2.2
  · rw [habandoned] at hab
    rcases List.mem_append.mp he' with he' | he'
    · exact (h.heldSettled e' he' hab hk).trans (hapartDone e' he').2.2
    · rw [List.mem_singleton.mp he'] at hab hk
      exact absurd (hrefuse hab) hk
  · rw [(hapartRest e' he').1] at hend
    rw [habandoned]
    exact h.ended e' (List.mem_cons_of_mem _ he') hend
  · rw [habandoned]
    exact h.abandoned i hi

omit hrest in
/-- The entry moves to the new id. -/
theorem Progress.moved {newId requestId : ℕ} (ho : outcome e.1 = .answered newId)
    (hlook : s.streams.lookup e.1 = some e.2)
    (hend : s.isEnded e.2.stream = false) (hw : ⟨requestId, e.2.request⟩ ∈ s.written)
    (hg : (requestId, newId) ∈ s.granted) (hnew : ∀ e' ∈ rest, e'.1 ≠ newId) :
    Progress tasks s₀ outcome (done ++ [e]) rest (s.remap e.1 newId) := by
  have hlive : s₀.isEnded e.2.stream = false := by
    by_contra hne
    rw [h.ended_mono _ (by simpa using hne)] at hend
    cases hend
  rw [State.remap_of_lookup s hlook hend]
  refine ⟨fun e' he' hab hdec => ?_, fun e' he' hab k hk => ?_, fun e' he' hab id ho' => ?_,
    fun k r hkr => ?_, fun e' he' => h.heldWaiting e' (List.mem_cons_of_mem _ he'),
    fun e' he' hab hk => ?_, fun e' he' => h.ended e' (List.mem_cons_of_mem _ he'),
    h.ended_mono, h.abandoned⟩
  · change ((s.streams.erase e.1).insert newId e.2).lookup e'.1 = _
    rw [AList.lookup_insert_ne (hnew e' he'), AList.lookup_erase_ne (hkeys e' he')]
    exact h.waiting e' (List.mem_cons_of_mem _ he') hab hdec
  · change ((s.streams.erase e.1).insert newId e.2).lookup k = _
    rcases List.mem_append.mp he' with he' | he'
    · obtain ⟨hne, hnew'⟩ := hplace e' he' (h.live hab) k hk
      have hk' : k ≠ newId := by
        rintro rfl
        exact hnew' hlive ho
      rw [AList.lookup_insert_ne hk', AList.lookup_erase_ne hne]
      exact h.settled e' he' hab k hk
    · rw [List.mem_singleton.mp he', ho] at hk
      rw [List.mem_singleton.mp he', ← Option.some.inj hk, AList.lookup_insert]
  · rcases List.mem_append.mp he' with he' | he'
    · obtain ⟨heff, hlog⟩ := h.remapped e' he' hab id ho'
      exact ⟨(Function.update_of_ne (hdone e' he') ..).trans heff, hlog⟩
    · rw [List.mem_singleton.mp he', ho] at ho'
      rw [List.mem_singleton.mp he', ← Outcome.answered.inj ho']
      exact ⟨Function.update_self .., requestId, hw, hg⟩
  · have hkr : ((s.streams.erase e.1).insert newId e.2).lookup k = some r := hkr
    by_cases hk : k = newId
    · subst hk
      rw [AList.lookup_insert, Option.some.injEq] at hkr
      refine Or.inr (Or.inl ⟨e, List.mem_append_right _ List.mem_cons_self, hlive, ?_, hkr.symm⟩)
      rw [ho]
      rfl
    · rw [AList.lookup_insert_ne hk] at hkr
      have hne : k ≠ e.1 := by
        rintro rfl
        rw [AList.lookup_erase] at hkr
        cases hkr
      rw [AList.lookup_erase_ne hne] at hkr
      rcases h.origin k r hkr with hmem | ⟨e', he', hk'⟩ | hreg
      · rcases List.mem_cons.mp hmem with heq | hmem
        · exact absurd (congrArg Sigma.fst heq) hne
        · exact Or.inl hmem
      · exact Or.inr (Or.inl ⟨e', List.mem_append_left _ he', hk'⟩)
      · exact Or.inr (Or.inr hreg)
  · rcases List.mem_append.mp he' with he' | he'
    · exact h.heldSettled e' he' hab hk
    · rw [List.mem_singleton.mp he'] at hab ⊢
      exact h.heldWaiting e List.mem_cons_self hab

omit hkeys hrest hdone hplace in
/-- The connection is lost: the entry stays under its old id. -/
theorem Progress.left {loss : Loss} (ho : outcome e.1 = .lost loss)
    (hlive : s₀.isEnded e.2.stream = false) :
    Progress tasks s₀ outcome (done ++ [e]) rest s where
  waiting e' he' := h.waiting e' (List.mem_cons_of_mem _ he')
  settled e' he' hab k hk := by
    rcases List.mem_append.mp he' with he' | he'
    · exact h.settled e' he' hab k hk
    · rw [List.mem_singleton.mp he'] at hab hk ⊢
      rw [ho] at hk
      rw [← Option.some.inj hk]
      exact h.waiting e List.mem_cons_self hab (by rw [ho]; rfl)
  remapped e' he' hab newId ho' := by
    rcases List.mem_append.mp he' with he' | he'
    · exact h.remapped e' he' hab newId ho'
    · rw [List.mem_singleton.mp he', ho] at ho'
      cases ho'
  origin k r hkr := by
    rcases h.origin k r hkr with hmem | ⟨e', he', hk⟩ | hreg
    · rcases List.mem_cons.mp hmem with heq | hmem
      · refine Or.inr (Or.inl ⟨e, List.mem_append_right _ List.mem_cons_self, hlive, ?_, ?_⟩)
        · rw [ho, ← heq]
          rfl
        · rw [← heq]
      · exact Or.inl hmem
    · exact Or.inr (Or.inl ⟨e', List.mem_append_left _ he', hk⟩)
    · exact Or.inr (Or.inr hreg)
  heldWaiting e' he' := h.heldWaiting e' (List.mem_cons_of_mem _ he')
  heldSettled e' he' hab hk := by
    rcases List.mem_append.mp he' with he' | he'
    · exact h.heldSettled e' he' hab hk
    · rw [List.mem_singleton.mp he'] at hab ⊢
      exact h.heldWaiting e List.mem_cons_self hab
  ended e' he' := h.ended e' (List.mem_cons_of_mem _ he')
  ended_mono := h.ended_mono
  abandoned := h.abandoned

end Turn

/-! ## Undisturbed runs -/

/-- What two entries of the snapshot, the first with its turn before the second, must not do to each
other, and other tasks not to the first. -/
structure Apart (tasks : Set (TaskEvent ρ)) (s₀ : State ρ) (outcome : ℕ → Outcome)
    (e e' : Entry ρ) : Prop where
  key : e'.1 ≠ e.1
  stream : e'.2.stream ≠ e.2.stream
  newId : s₀.isEnded e.2.stream = false → ∀ newId, outcome e.1 = .answered newId →
    newId ≠ e'.1 ∧ (s₀.isEnded e'.2.stream = false → outcome e'.1 ≠ .answered newId) ∧
      Undisputed tasks e.2.stream newId
  lost : s₀.isEnded e.2.stream = false → (outcome e.1).disconnected = true →
    s₀.isEnded e'.2.stream = false → (outcome e'.1).unsent = true

/-- An entry that has its place does not lose it in the turn of a later one. -/
theorem Apart.place {e e' : Entry ρ} (h : Apart tasks s₀ outcome e e')
    (hlive : s₀.isEnded e.2.stream = false) {k : ℕ} (hk : (outcome e.1).place e.1 = some k) :
    k ≠ e'.1 ∧ (s₀.isEnded e'.2.stream = false → outcome e'.1 ≠ .answered k) := by
  cases ho : outcome e.1 with
  | answered newId =>
    rw [ho, Outcome.place, Option.some.injEq] at hk
    rw [← hk]
    obtain ⟨hkey, hdiff, -⟩ := h.newId hlive newId ho
    exact ⟨hkey, hdiff⟩
  | lost loss =>
    rw [ho, Outcome.place, Option.some.injEq] at hk
    rw [← hk]
    refine ⟨h.key.symm, fun hlive' ho' => ?_⟩
    have := h.lost hlive (by rw [ho]; rfl) hlive'
    rw [ho'] at this
    cases this
  | _ =>
    rw [ho] at hk
    cases hk

/-- Nor does another task write at its place. -/
theorem Apart.undisputed {e e' : Entry ρ} (h : Apart tasks s₀ outcome e e')
    (hown : s₀.isEnded e.2.stream = false → (outcome e.1).declined = false →
      Undisputed tasks e.2.stream e.1)
    (hlive : s₀.isEnded e.2.stream = false) {k : ℕ} (hk : (outcome e.1).place e.1 = some k) :
    Undisputed tasks e.2.stream k := by
  cases ho : outcome e.1 with
  | answered newId =>
    rw [ho, Outcome.place, Option.some.injEq] at hk
    rw [← hk]
    exact (h.newId hlive newId ho).2.2
  | lost loss =>
    rw [ho, Outcome.place, Option.some.injEq] at hk
    rw [← hk]
    exact hown hlive (by rw [ho]; rfl)
  | _ =>
    rw [ho] at hk
    cases hk

/-- **Undisturbed turns.** -/
theorem Progress.turned {e : Entry ρ} {s' : State ρ}
    (h : Progress tasks s₀ outcome done (e :: rest) s)
    (hapart : (done ++ e :: rest).Pairwise (Apart tasks s₀ outcome))
    (hown : ∀ e' ∈ done ++ e :: rest, s₀.isEnded e'.2.stream = false →
      (outcome e'.1).declined = false → Undisputed tasks e'.2.stream e'.1)
    (hnew : RegistersNew (done ++ e :: rest) tasks) (hd : Drift tasks s s')
    (ht : Turned e (outcome e.1) s' t)
    (hdead : s.isEnded e.2.stream = true → t = s'.removeAndEnd e.1) :
    Progress tasks s₀ outcome (done ++ [e]) rest t := by
  obtain ⟨-, hpair, hcross⟩ := List.pairwise_append.mp hapart
  obtain ⟨hhead, -⟩ := List.pairwise_cons.mp hpair
  have hkeys : ∀ e' ∈ rest, e'.1 ≠ e.1 := fun e' he' => (hhead e' he').key
  have hrest : ∀ e' ∈ rest, e'.2.stream ≠ e.2.stream := fun e' he' => (hhead e' he').stream
  have hdone : ∀ e' ∈ done, e'.2.stream ≠ e.2.stream :=
    fun e' he' => (hcross e' he' e List.mem_cons_self).stream.symm
  have hplace := fun e' he' hlive k => (hcross e' he' e List.mem_cons_self).place hlive (k := k)
  have h' : Progress tasks s₀ outcome done (e :: rest) s' :=
    h.drift hd (fun e' he' => hown e' (List.mem_append_right _ he')) fun e' he' hlive k hk =>
      (hcross e' he' e List.mem_cons_self).undisputed (hown e' (List.mem_append_left _ he'))
        hlive hk
  by_cases hlive : s₀.isEnded e.2.stream = true
  · rw [hdead (h.ended_mono _ hlive)]
    exact h'.removed hkeys hrest hdone hplace hnew (Or.inl (h'.abandoned _ hlive))
  have hlive : s₀.isEnded e.2.stream = false := by simpa using hlive
  cases ht with
  | removed hgone =>
    exact h'.removed hkeys hrest hdone hplace hnew
      (hgone.imp_left (h'.ended e List.mem_cons_self))
  | @remapped newId requestId ho hw hg =>
    have hdec : (outcome e.1).declined = false := by rw [ho]; rfl
    cases hl : s'.streams.lookup e.1 with
    | none =>
      -- its own tasks have taken it out
      have hgone : s'.abandoned e.2.stream = true := by
        by_contra hne
        have := h'.waiting e List.mem_cons_self (by simpa using hne) hdec
        rw [hl] at this
        cases this
      have hsame : s'.remap e.1 newId = s'.removeAndEnd e.1 := by
        rw [State.remap_of_lookup_eq_none s' hl, State.removeAndEnd, hl]
      rw [hsame]
      exact h'.removed hkeys hrest hdone hplace hnew (Or.inl hgone)
    | some r =>
      have hr : r = e.2 := by
        rcases h'.head hkeys hplace hl with hr | hreg
        · exact hr
        · exact (hown e (List.mem_append_right _ List.mem_cons_self) hlive hdec _ hreg rfl).elim
      subst hr
      by_cases hend : s'.isEnded e.2.stream = true
      · rw [State.remap_of_isEnded s' hl hend]
        exact h'.removed hkeys hrest hdone hplace hnew
          (Or.inl (h'.ended e List.mem_cons_self hend))
      · exact h'.moved hkeys hdone hplace ho hl (by simpa using hend) hw hg
          fun e' he' => ((hhead e' he').newId hlive _ ho).1.symm
  | left ho => exact h'.left ho hlive

/-- **Undisturbed runs.** Whatever the schedule, the loop comes to its end with its invariant. -/
theorem Progress.resumeLoop {w : Schedule ρ} (hw : w.Within tasks)
    (h : Progress tasks s₀ outcome done rest s)
    (hapart : (done ++ rest).Pairwise (Apart tasks s₀ outcome))
    (hown : ∀ e ∈ done ++ rest, s₀.isEnded e.2.stream = false →
      (outcome e.1).declined = false → Undisputed tasks e.2.stream e.1)
    (hnew : RegistersNew (done ++ rest) tasks) :
    ∃ t, resumeLoop (fun k => (outcome k).turn w k) s rest = some t ∧
      Progress tasks s₀ outcome (done ++ rest) [] t := by
  induction rest generalizing done s with
  | nil => exact ⟨s, rfl, by rwa [List.append_nil]⟩
  | cons e rest ih =>
    obtain ⟨s', t, hturn, hdrift, hturned, hdead⟩ := resumeTurn_spec s e (outcome e.1) hw
    have hnext := h.turned hapart hown hnew hdrift hturned hdead
    have hsplit : done ++ e :: rest = done ++ [e] ++ rest := by simp
    rw [hsplit] at hapart hown hnew ⊢
    obtain ⟨u, hu, hprog⟩ := ih hnext hapart hown hnew
    refine ⟨u, ?_, hprog⟩
    rw [Resumption.resumeLoop, hturn]
    exact hu

end Resumption

end TitanClient
