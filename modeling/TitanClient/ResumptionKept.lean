import TitanClient.ResumptionOutcomes

/-!
# Which streams survive resumption

The converse of what `Progress` gives. In a run in which other tasks do nothing and no other frames
arrive, an entry whose turn is yet to come is under its old id or nowhere, and a stream that is
nowhere never comes back. So a clash of ids costs some stream its entry, and so does a resume
request that cannot be sent. The same happens in a run that is quiet but for a single write of
another task, if it comes when the entry stands under the id that is written.

## Main results

* `resume_streams_kept_iff` — which streams are left when the connection is lost on the way
* `resume_streams_tied_iff` — when each stream ends up with the id of its own request
-/

namespace TitanClient

namespace Resumption

variable {ρ : Type}

/-! ## Quiet runs -/

/-- Stream `i` has no entry. -/
def Absent (s : State ρ) (i : ℕ) : Prop := ∀ k r, s.streams.lookup k = some r → r.stream ≠ i

/-- Stream `i` has no entry but under `k`. -/
def OnlyAt (s : State ρ) (i k : ℕ) : Prop :=
  ∀ k' r, s.streams.lookup k' = some r → r.stream = i → k' = k

variable {e : Entry ρ} {o : Outcome} {s t u : State ρ} {outcome : ℕ → Outcome}
  {rest : List (Entry ρ)} {dead : ℕ → Bool} {tasks : Set (TaskEvent ρ)} {w : Schedule ρ}

/-- An entry of the map was there before the turn, or was moved by it. -/
theorem Turned.origin (h : Turned e o s t) {k : ℕ} {r : ResumableStream ρ}
    (hk : t.streams.lookup k = some r) :
    (s.streams.lookup k = some r ∧ (k = e.1 → ∃ loss, o = .lost loss)) ∨
      (o = .answered k ∧ s.streams.lookup e.1 = some r) := by
  have herase : ∀ m : AList fun _ : ℕ => ResumableStream ρ, m = s.streams.erase e.1 →
      m.lookup k = some r → s.streams.lookup k = some r ∧ (k = e.1 → ∃ loss, o = .lost loss) := by
    rintro m rfl hm
    refine ⟨Table.lookup_of_lookup_erase hm, ?_⟩
    rintro rfl
    rw [AList.lookup_erase] at hm
    cases hm
  cases h with
  | removed => exact Or.inl (herase _ (State.removeAndEnd_streams s e.1) hk)
  | @remapped newId requestId ho =>
    cases hl : s.streams.lookup e.1 with
    | none =>
      rw [State.remap_of_lookup_eq_none s hl] at hk
      refine Or.inl ⟨hk, ?_⟩
      rintro rfl
      rw [hl] at hk
      cases hk
    | some r' =>
      by_cases hend : s.isEnded r'.stream = true
      · rw [State.remap_of_isEnded s hl hend] at hk
        exact Or.inl (herase _ (State.removeAndEnd_streams s e.1) hk)
      · rw [State.remap_of_lookup s hl (by simpa using hend)] at hk
        have hk : ((s.streams.erase e.1).insert newId r').lookup k = some r := hk
        by_cases hkn : k = newId
        · subst hkn
          rw [AList.lookup_insert] at hk
          exact Or.inr ⟨ho, hk⟩
        · rw [AList.lookup_insert_ne hkn] at hk
          exact Or.inl (herase _ rfl hk)
  | left ho => exact Or.inl ⟨hk, fun _ => ⟨_, ho⟩⟩

theorem Turned.ended_mono (h : Turned e o s t) {i : ℕ} (hi : s.isEnded i = true) :
    t.isEnded i = true := by
  cases h with
  | removed => exact s.isEnded_removeAndEnd hi
  | remapped =>
    cases hl : s.streams.lookup e.1 with
    | none => rwa [State.remap_of_lookup_eq_none s hl]
    | some r =>
      by_cases hend : s.isEnded r.stream = true
      · rw [State.remap_of_isEnded s hl hend]
        exact s.isEnded_removeAndEnd hi
      · rw [State.remap_of_lookup s hl (by simpa using hend)]
        exact hi
  | left => exact hi

theorem Turned.log (h : Turned e o s t) : t.written = s.written ∧ t.granted = s.granted := by
  have hremoved : (s.removeAndEnd e.1).written = s.written ∧
      (s.removeAndEnd e.1).granted = s.granted := by
    rw [State.removeAndEnd]
    cases s.streams.lookup e.1 <;> exact ⟨rfl, rfl⟩
  cases h with
  | removed => exact hremoved
  | @remapped newId =>
    rw [State.remap]
    cases hl : s.streams.lookup e.1 with
    | none => exact ⟨rfl, rfl⟩
    | some r =>
      dsimp only
      split <;> exact ⟨rfl, rfl⟩
  | left => exact ⟨rfl, rfl⟩

/-- A turn does not change the flags of a stream it leaves in the map, and gives none up. -/
theorem Turned.flags (h : Turned e o s t) :
    t.abandoned = s.abandoned ∧ ∀ i, t.isEnded i = true → s.isEnded i = true ∨
      ∃ r, s.streams.lookup e.1 = some r ∧ r.stream = i ∧ t.streams = s.streams.erase e.1 := by
  have hremoved : ∀ u : State ρ, u = s.removeAndEnd e.1 →
      u.abandoned = s.abandoned ∧ ∀ i, u.isEnded i = true → s.isEnded i = true ∨
        ∃ r, s.streams.lookup e.1 = some r ∧ r.stream = i ∧ u.streams = s.streams.erase e.1 := by
    rintro u rfl
    cases hl : s.streams.lookup e.1 with
    | none =>
      rw [State.removeAndEnd, hl]
      exact ⟨rfl, fun i hi => Or.inl hi⟩
    | some r =>
      refine ⟨by rw [State.removeAndEnd_of_lookup s hl]; rfl, fun i hi => ?_⟩
      by_cases hir : i = r.stream
      · exact Or.inr ⟨r, rfl, hir.symm, State.removeAndEnd_streams s e.1⟩
      · rw [State.removeAndEnd_of_lookup s hl, State.onEnd_isEnded_of_ne _ hir] at hi
        exact Or.inl hi
  cases h with
  | removed => exact hremoved _ rfl
  | remapped =>
    cases hl : s.streams.lookup e.1 with
    | none =>
      rw [State.remap_of_lookup_eq_none s hl]
      exact ⟨rfl, fun i hi => Or.inl hi⟩
    | some r =>
      by_cases hend : s.isEnded r.stream = true
      · rw [State.remap_of_isEnded s hl hend]
        rw [← hl]
        exact hremoved _ rfl
      · rw [State.remap_of_lookup s hl (by simpa using hend)]
        exact ⟨rfl, fun i hi => Or.inl hi⟩
  | left => exact ⟨rfl, fun i hi => Or.inl hi⟩

theorem Drift.abandoned_eq (h : Drift tasks s t) {i : ℕ} (hi : ∀ ev ∈ tasks, ¬ev.GivesUp i) :
    t.abandoned i = s.abandoned i := by
  rw [Bool.eq_iff_iff]
  refine ⟨fun hab => ?_, h.abandoned_mono i⟩
  rcases h.abandoned_of i hab with hab | ⟨ev, hev, hgives⟩
  · exact hab
  · exact absurd hgives (hi ev hev)

/-- What stands in the map stays there if no task writes under its id. -/
theorem Drift.lookup (h : Drift tasks s t) {k : ℕ} {r : ResumableStream ρ}
    (hk : s.streams.lookup k = some r) (hno : ∀ ev ∈ tasks, ¬ev.Writes k) :
    t.streams.lookup k = some r := by
  rcases h.kept k r hk fun ev hev hwrites => absurd hwrites (hno ev hev) with
    hk | ⟨⟨ev, hev, hwrites⟩, -⟩
  · exact hk
  · exact absurd hwrites (hno ev hev)

theorem registers_not_mem_empty {i : ℕ} (k : ℕ) (r : ResumableStream ρ)
    (hreg : .registers k r ∈ (∅ : Set (TaskEvent ρ))) : r.stream ≠ i :=
  absurd hreg (Set.notMem_empty _)

theorem Absent.drift {i : ℕ} (h : Absent s i) (hd : Drift tasks s t)
    (hi : ∀ k r, .registers k r ∈ tasks → r.stream ≠ i) : Absent t i := by
  intro k r hk
  rcases hd.origin k r hk with hk | hreg
  · exact h k r hk
  · exact hi k r hreg

theorem OnlyAt.drift {i k : ℕ} (h : OnlyAt s i k) (hd : Drift tasks s t)
    (hi : ∀ k r, .registers k r ∈ tasks → r.stream ≠ i) : OnlyAt t i k := by
  intro k' r hk hr
  rcases hd.origin k' r hk with hk | hreg
  · exact h k' r hk hr
  · exact absurd hr (hi k' r hreg)

/-- A stream that is nowhere never comes back. -/
theorem Absent.turned {i : ℕ} (h : Absent s i) (ht : Turned e o s t) : Absent t i := by
  intro k r hk
  rcases ht.origin hk with ⟨hk, -⟩ | ⟨-, hk⟩
  · exact h k r hk
  · exact h _ r hk

/-- The turn of an entry moves nothing that stands under another id. -/
theorem OnlyAt.turned {i k : ℕ} (h : OnlyAt s i k) (hne : k ≠ e.1) (ht : Turned e o s t) :
    OnlyAt t i k := by
  intro k' r hk hr
  rcases ht.origin hk with ⟨hk, -⟩ | ⟨-, hk⟩
  · exact h k' r hk hr
  · exact absurd (h _ r hk hr).symm hne

/-- The turn of an entry that stands only under its old id can move it to the new one. -/
theorem OnlyAt.answered {i newId : ℕ} (h : OnlyAt s i e.1) (ho : o = .answered newId)
    (ht : Turned e o s t) : OnlyAt t i newId := by
  intro k r hk hr
  rcases ht.origin hk with ⟨hk, hlost⟩ | ⟨ho', -⟩
  · obtain ⟨loss, hloss⟩ := hlost (h k r hk hr)
    rw [ho] at hloss
    cases hloss
  · exact (Outcome.answered.inj (ho.symm.trans ho')).symm

/-- What stands only under an id is gone when another task writes there. -/
theorem OnlyAt.absent_task {i k : ℕ} (h : OnlyAt s i k) {ev : TaskEvent ρ} (hwrites : ev.Writes k)
    (hother : ¬ev.GivesUp i) (hnew : ∀ id r, ev = .registers id r → r.stream ≠ i) :
    Absent (s.task ev) i := by
  intro k' r hk hr
  cases ev with
  | owner o => exact hwrites
  | registers id r' =>
    have hid : id = k := hwrites
    have hk : (s.streams.insert id r').lookup k' = some r := hk
    by_cases hk' : k' = id
    · rw [hk', AList.lookup_insert, Option.some.injEq] at hk
      exact hnew id r' rfl (by rw [hk, hr])
    · rw [AList.lookup_insert_ne hk'] at hk
      exact hk' ((h k' r hk hr).trans hid.symm)
  | unregisters j id =>
    have hid : id = k := hwrites
    have hk : (s.streams.erase id).lookup k' = some r := hk
    have hk' := h k' r (Table.lookup_of_lookup_erase hk) hr
    rw [hk', hid, AList.lookup_erase] at hk
    cases hk
  | stopsAll => exact hother trivial

/-- What stands only under the old id is gone when the turn takes that id out. -/
theorem OnlyAt.absent_removeAndEnd {i k : ℕ} (h : OnlyAt s i k) : Absent (s.removeAndEnd k) i := by
  intro k' r hk hr
  rw [State.removeAndEnd_streams] at hk
  have hk' := h k' r (Table.lookup_of_lookup_erase hk) hr
  rw [hk', AList.lookup_erase] at hk
  cases hk

/-- What holds between the turns of a quiet run. `dead` are the streams that had ended before it. -/
structure Calm (dead : ℕ → Bool) (rest : List (Entry ρ)) (s : State ρ) : Prop where
  waiting : ∀ e ∈ rest, OnlyAt s e.2.stream e.1
  unique : ∀ k k' r r', s.streams.lookup k = some r → s.streams.lookup k' = some r' →
    r.stream = r'.stream → k = k'
  live : ∀ k r, s.streams.lookup k = some r → s.isEnded r.stream = true → dead r.stream = true
  ended : ∀ i, dead i = true → s.isEnded i = true
  abandoned : s.abandoned = dead

/-- Two entries of a snapshot have different ids and belong to different streams. -/
def Distinct (e e' : Entry ρ) : Prop := e'.1 ≠ e.1 ∧ e'.2.stream ≠ e.2.stream

theorem Calm.drift (h : Calm dead rest s) (hd : Drift ∅ s t) : Calm dead rest t := by
  have hstreams : ∀ k r, t.streams.lookup k = some r → s.streams.lookup k = some r :=
    fun k r hk => (hd.origin k r hk).resolve_right (Set.notMem_empty _)
  have hab : t.abandoned = s.abandoned :=
    funext fun i => hd.abandoned_eq fun _ hev => absurd hev (Set.notMem_empty _)
  refine ⟨fun e he => (h.waiting e he).drift hd registers_not_mem_empty,
    fun k k' r r' hk hk' => h.unique k k' r r' (hstreams k r hk) (hstreams k' r' hk'),
    fun k r hk hend => ?_, fun i hi => hd.ended_mono i (h.ended i hi), hab.trans h.abandoned⟩
  rcases hd.ended_of _ hend with hend | hgone
  · exact h.live k r (hstreams k r hk) hend
  · rwa [hab, h.abandoned] at hgone

theorem Calm.turned (h : Calm dead (e :: rest) s) (hkeys : ∀ e' ∈ rest, Distinct e e')
    (ht : Turned e o s t) :
    Calm dead rest t where
  waiting e' he' := (h.waiting e' (List.mem_cons_of_mem _ he')).turned (hkeys e' he').1 ht
  unique k k' r r' hk hk' hr := by
    rcases ht.origin hk with ⟨hk, hne⟩ | ⟨ho, hk⟩
    · rcases ht.origin hk' with ⟨hk', -⟩ | ⟨ho', hk'⟩
      · exact h.unique k k' r r' hk hk' hr
      · obtain ⟨loss, ho⟩ := hne (h.unique k e.1 r r' hk hk' hr)
        rw [ho] at ho'
        cases ho'
    · rcases ht.origin hk' with ⟨hk', hne'⟩ | ⟨ho', -⟩
      · obtain ⟨loss, ho'⟩ := hne' (h.unique e.1 k' r r' hk hk' hr).symm
        rw [ho] at ho'
        cases ho'
      · exact Outcome.answered.inj (ho.symm.trans ho')
  live k r hk hend := by
    rcases ht.flags.2 _ hend with hend | ⟨r', hl, hr', herase⟩
    · rcases ht.origin hk with ⟨hk, -⟩ | ⟨-, hk⟩
      · exact h.live k r hk hend
      · exact h.live _ r hk hend
    · rw [herase] at hk
      have hke := h.unique k e.1 r r' (Table.lookup_of_lookup_erase hk) hl hr'.symm
      rw [hke, AList.lookup_erase] at hk
      cases hk
  ended i hi := ht.ended_mono (h.ended i hi)
  abandoned := ht.flags.1.trans h.abandoned

/-! ## Runs -/

/-- The turns of a run with the given outcomes, under a schedule. -/
def scheduled (outcome : ℕ → Outcome) (w : Schedule ρ) (oldId : ℕ) : Turn ρ :=
  (outcome oldId).turn w oldId

/-- A run that comes to its end has a next turn as long as it is not through. -/
theorem resumeLoop_scheduled (hw : w.Within tasks)
    (h : resumeLoop (scheduled outcome w) s (e :: rest) = some u) :
    ∃ s' t, Drift tasks s s' ∧ Turned e (outcome e.1) s' t ∧
      (s.isEnded e.2.stream = true → t = s'.removeAndEnd e.1) ∧
      resumeLoop (scheduled outcome w) t rest = some u := by
  obtain ⟨s', t, hturn, hd, hturned, hend⟩ := resumeTurn_spec s e (outcome e.1) hw
  refine ⟨s', t, hd, hturned, hend, ?_⟩
  rw [resumeLoop, scheduled, hturn] at h
  exact h

/-- No stream is given up but by a task that may do so. -/
theorem abandoned_of_resumeLoop (hw : w.Within tasks) {i : ℕ} (hi : ∀ ev ∈ tasks, ¬ev.GivesUp i)
    (hu : resumeLoop (scheduled outcome w) s rest = some u) : u.abandoned i = s.abandoned i := by
  induction rest generalizing s with
  | nil => rw [← Option.some.inj hu]
  | cons e rest ih =>
    obtain ⟨s', t, hd, ht, -, hu⟩ := resumeLoop_scheduled hw hu
    rw [ih hu, ht.flags.1, hd.abandoned_eq hi]

theorem isEnded_of_resumeLoop (hw : w.Within tasks) {i : ℕ} (hi : s.isEnded i = true)
    (hu : resumeLoop (scheduled outcome w) s rest = some u) : u.isEnded i = true := by
  induction rest generalizing s with
  | nil => rwa [← Option.some.inj hu]
  | cons e rest ih =>
    obtain ⟨s', t, hd, ht, -, hu⟩ := resumeLoop_scheduled hw hu
    exact ih (ht.ended_mono (hd.ended_mono i hi)) hu

/-- What has been answered stays answered. -/
theorem Answered.resumeLoop (hw : w.Within tasks) {x : Entry ρ} {newId : ℕ}
    (h : Answered s x newId) (hu : resumeLoop (scheduled outcome w) s rest = some u) :
    Answered u x newId := by
  induction rest generalizing s with
  | nil => rwa [← Option.some.inj hu]
  | cons e rest ih =>
    obtain ⟨s', t, hd, ht, -, hu⟩ := resumeLoop_scheduled hw hu
    obtain ⟨requestId, hwritten, hgranted⟩ := h
    refine ih ⟨requestId, ?_, ?_⟩ hu
    · rw [ht.log.1]
      exact hd.written hwritten
    · rw [ht.log.2]
      exact hd.granted hgranted

theorem Absent.resumeLoop (hw : w.Within tasks) {i : ℕ} (h : Absent s i)
    (hi : ∀ k r, .registers k r ∈ tasks → r.stream ≠ i)
    (hu : resumeLoop (scheduled outcome w) s rest = some u) : Absent u i := by
  induction rest generalizing s with
  | nil =>
    rw [← Option.some.inj hu]
    exact h
  | cons e rest ih =>
    obtain ⟨s', t, hd, ht, -, hu⟩ := resumeLoop_scheduled hw hu
    exact ih ((h.drift hd hi).turned ht) hu

theorem OnlyAt.resumeLoop (hw : w.Within tasks) {i k : ℕ} (h : OnlyAt s i k)
    (hi : ∀ k r, .registers k r ∈ tasks → r.stream ≠ i) (hkeys : ∀ e ∈ rest, k ≠ e.1)
    (hu : resumeLoop (scheduled outcome w) s rest = some u) : OnlyAt u i k := by
  induction rest generalizing s with
  | nil =>
    rw [← Option.some.inj hu]
    exact h
  | cons e rest ih =>
    obtain ⟨s', t, hd, ht, -, hu⟩ := resumeLoop_scheduled hw hu
    exact ih ((h.drift hd hi).turned (hkeys e List.mem_cons_self) ht)
      (fun e' he' => hkeys e' (List.mem_cons_of_mem _ he')) hu

theorem Absent.quiet {i : ℕ} (h : Absent s i)
    (hu : Resumption.resumeLoop (scheduled outcome .quiet) s rest = some u) : Absent u i :=
  h.resumeLoop (Schedule.quiet_within ∅) registers_not_mem_empty hu

/-- In a quiet run an entry stays that no turn takes out or writes over. -/
theorem lookup_of_quiet {k : ℕ} {r : ResumableStream ρ} (hk : s.streams.lookup k = some r)
    (hkeys : ∀ e ∈ rest, k ≠ e.1 ∧
      (s.isEnded e.2.stream = true ∨ outcome e.1 ≠ .answered k))
    (hu : resumeLoop (scheduled outcome .quiet) s rest = some u) :
    u.streams.lookup k = some r := by
  induction rest generalizing s with
  | nil => rwa [← Option.some.inj hu]
  | cons e rest ih =>
    obtain ⟨s', t, hd, ht, hdead, hu⟩ := resumeLoop_scheduled (Schedule.quiet_within ∅) hu
    obtain ⟨hne, hor⟩ := hkeys e List.mem_cons_self
    have hk' : s'.streams.lookup k = some r :=
      hd.lookup hk fun _ hev => absurd hev (Set.notMem_empty _)
    have hremoved : (s'.removeAndEnd e.1).streams.lookup k = some r := by
      rw [State.removeAndEnd_streams, AList.lookup_erase_ne hne, hk']
    refine ih ?_ (fun e' he' => ?_) hu
    · cases ht with
      | removed => exact hremoved
      | remapped ho =>
        rcases hor with hend | hnot
        · rw [hdead hend]
          exact hremoved
        · rw [s'.remap_lookup_of_ne hne fun heq => hnot (by rw [ho, heq]), hk']
      | left => exact hk'
    · obtain ⟨hne', hor'⟩ := hkeys e' (List.mem_cons_of_mem _ he')
      exact ⟨hne', hor'.imp_left fun hend => ht.ended_mono (hd.ended_mono _ hend)⟩

/-- A run is the run of a first part of the snapshot and then of the rest. -/
theorem resumeLoop_append {env : ℕ → Turn ρ} {l l' : List (Entry ρ)}
    (hu : resumeLoop env s (l ++ l') = some u) :
    ∃ v, resumeLoop env s l = some v ∧ resumeLoop env v l' = some u := by
  induction l generalizing s with
  | nil => exact ⟨s, rfl, hu⟩
  | cons e l ih =>
    rw [List.cons_append, resumeLoop] at hu
    cases hturn : resumeTurn s e (env e.1) with
    | none =>
      rw [hturn] at hu
      cases hu
    | some t =>
      rw [hturn] at hu
      obtain ⟨v, hv, hvu⟩ := ih hu
      refine ⟨v, ?_, hvu⟩
      rw [resumeLoop, hturn]
      exact hv

/-- Where the tasks strike, they do so before the turn, which is then quiet. -/
theorem resumeLoop_strike {evs : List (TaskEvent ρ)}
    (hu : resumeLoop (scheduled outcome (.strike e.1 evs)) s (e :: rest) = some u) :
    ∃ s' t, Drift ∅ (evs.foldl State.task s) s' ∧ Turned e (outcome e.1) s' t ∧
      ((evs.foldl State.task s).isEnded e.2.stream = true → t = s'.removeAndEnd e.1) ∧
      resumeLoop (scheduled outcome (.strike e.1 evs)) t rest = some u := by
  obtain ⟨s', t, hturn, hd, hturned, hend⟩ := resumeTurn_spec (evs.foldl State.task s) e
    (outcome e.1) (Schedule.quiet_within ∅)
  refine ⟨s', t, hd, hturned, hend, ?_⟩
  rw [resumeLoop, scheduled, resumeTurn_strike, hturn] at hu
  exact hu

/-- The turns of the entries for which the tasks do not interject are quiet. -/
theorem resumeLoop_interject {oldId : ℕ} {evs : List (TaskEvent ρ)}
    (h : ∀ e ∈ rest, e.1 ≠ oldId) :
    resumeLoop (scheduled outcome (.interject oldId evs)) s rest =
      resumeLoop (scheduled outcome .quiet) s rest := by
  induction rest generalizing s with
  | nil => rfl
  | cons e rest ih =>
    rw [resumeLoop, resumeLoop, scheduled, scheduled,
      turn_interject_of_ne (h e List.mem_cons_self)]
    exact congrArg _ (funext fun t => ih fun e' he' => h e' (List.mem_cons_of_mem _ he'))

/-- **A strike.** A task of another stream that writes under the id at which a stream stands costs
it its entry. -/
theorem OnlyAt.struck {i k : ℕ} {ev : TaskEvent ρ} (h : OnlyAt s i k)
    {pre post : List (Entry ρ)} (hpre : ∀ e' ∈ pre, k ≠ e'.1) (hwrites : ev.Writes k)
    (hother : ¬ev.GivesUp i) (hnew : ∀ id r, ev = .registers id r → r.stream ≠ i)
    (hu : Resumption.resumeLoop (scheduled outcome (.strike e.1 [ev])) s (pre ++ e :: post) =
      some u) : Absent u i := by
  have hw : (Schedule.strike e.1 [ev]).Within {ev} :=
    Schedule.strike_within (fun _ hev => List.mem_singleton.mp hev) e.1
  have hreg : ∀ id r, .registers id r ∈ ({ev} : Set (TaskEvent ρ)) → r.stream ≠ i :=
    fun id r hmem => hnew id r (Set.mem_singleton_iff.mp hmem).symm
  obtain ⟨v, hv, hu⟩ := resumeLoop_append hu
  obtain ⟨s', t, hd, ht, -, hu⟩ := resumeLoop_strike hu
  have habsent : Absent (v.task ev) i :=
    (h.resumeLoop hw hreg hpre hv).absent_task hwrites hother hnew
  exact Absent.resumeLoop hw ((habsent.drift hd registers_not_mem_empty).turned ht) hreg hu

theorem Calm.resumeLoop {pre : List (Entry ρ)} (h : Calm dead (pre ++ rest) s)
    (hdistinct : (pre ++ rest).Pairwise Distinct)
    (hu : Resumption.resumeLoop (scheduled outcome .quiet) s pre = some u) : Calm dead rest u := by
  induction pre generalizing s with
  | nil => rwa [← Option.some.inj hu]
  | cons e pre ih =>
    obtain ⟨s', t, hd, ht, -, hu⟩ := resumeLoop_scheduled (Schedule.quiet_within ∅) hu
    obtain ⟨hhead, htail⟩ := List.pairwise_cons.mp hdistinct
    exact ih ((h.drift hd).turned hhead ht) htail hu

/-! ## What a clash costs -/

/-- A stream that stands only under the old id of an entry that is going to be taken out goes with
it. -/
theorem OnlyAt.evicted {i : ℕ} {e' : Entry ρ} (h : OnlyAt s i e'.1) (hcalm : Calm dead rest s)
    (hdistinct : rest.Pairwise Distinct) (he' : e' ∈ rest)
    (hout : dead e'.2.stream = true ∨ (outcome e'.1).declined = true)
    (hu : Resumption.resumeLoop (scheduled outcome .quiet) s rest = some u) : Absent u i := by
  induction rest generalizing s with
  | nil => cases he'
  | cons e rest ih =>
    obtain ⟨s', t, hd, ht, hend, hu'⟩ :=
      resumeLoop_scheduled (Schedule.quiet_within ∅) hu
    obtain ⟨hhead, htail⟩ := List.pairwise_cons.mp hdistinct
    rcases List.mem_cons.mp he' with rfl | he'
    · have hremoved : t = s'.removeAndEnd e'.1 := by
        rcases hout with hdead | hdeclined
        · exact hend (hcalm.ended _ hdead)
        · cases ht with
          | removed => rfl
          | remapped ho =>
            rw [ho] at hdeclined
            cases hdeclined
          | left ho =>
            rw [ho] at hdeclined
            cases hdeclined
      rw [hremoved] at hu'
      exact ((h.drift hd registers_not_mem_empty).absent_removeAndEnd).quiet hu'
    · have hne : e'.1 ≠ e.1 := (hhead e' he').1
      exact ih ((h.drift hd registers_not_mem_empty).turned hne ht)
        ((hcalm.drift hd).turned hhead ht) htail he' hu'

/-- A stream that still has its entry when its turn comes has it under its old id, and has not
ended. -/
theorem Calm.lookup_head (h : Calm dead (e :: rest) s) (hlive : dead e.2.stream = false)
    (hpresent : ¬Absent s e.2.stream) :
    ∃ r, s.streams.lookup e.1 = some r ∧ r.stream = e.2.stream ∧ s.isEnded r.stream = false := by
  simp only [Absent, not_forall, not_not] at hpresent
  obtain ⟨k, r, hk, hr⟩ := hpresent
  have hke := h.waiting e List.mem_cons_self k r hk hr
  refine ⟨r, by rwa [← hke], hr, ?_⟩
  by_contra hend
  have := h.live k r hk (by simpa using hend)
  rw [hr, hlive] at this
  cases this

/-- Two streams cannot both end up under one new id. -/
theorem OnlyAt.overwritten {i newId : ℕ} {e' : Entry ρ} (h : OnlyAt s i newId)
    (hcalm : Calm dead rest s) (hdistinct : rest.Pairwise Distinct)
    (hkeys : ∀ e ∈ rest, newId ≠ e.1) (he' : e' ∈ rest) (hne : i ≠ e'.2.stream)
    (hlive : dead e'.2.stream = false) (ho' : outcome e'.1 = .answered newId)
    (hu : Resumption.resumeLoop (scheduled outcome .quiet) s rest = some u)
    (hkept : ¬Absent u e'.2.stream) : Absent u i := by
  induction rest generalizing s with
  | nil => cases he'
  | cons e rest ih =>
    obtain ⟨s', t, hd, ht, -, hu'⟩ := resumeLoop_scheduled (Schedule.quiet_within ∅) hu
    obtain ⟨hhead, htail⟩ := List.pairwise_cons.mp hdistinct
    have hcalm' := hcalm.drift hd
    have hnew : newId ≠ e.1 := hkeys e List.mem_cons_self
    have honly := h.drift hd registers_not_mem_empty
    rcases List.mem_cons.mp he' with rfl | he'
    · obtain ⟨r, hl, hr, hrend⟩ := hcalm'.lookup_head hlive
        fun habs => hkept ((habs.turned ht).quiet hu')
      have habsent : Absent t i := by
        cases ht with
        | removed hgone =>
          rcases hgone with hgone | hgone
          · rw [← hr, hrend] at hgone
            cases hgone
          · rw [ho'] at hgone
            cases hgone
        | @remapped id rid ho =>
          intro k r' hk hri
          have hid : id = newId := Outcome.answered.inj (ho.symm.trans ho')
          rw [State.remap_of_lookup s' hl hrend] at hk
          have hk : ((s'.streams.erase e'.1).insert id r).lookup k = some r' := hk
          by_cases hkid : k = id
          · subst hkid
            rw [AList.lookup_insert, Option.some.injEq] at hk
            exact hne (by rw [← hri, ← hk, hr])
          · rw [AList.lookup_insert_ne hkid] at hk
            exact hkid ((honly k r' (Table.lookup_of_lookup_erase hk) hri).trans hid.symm)
        | left ho =>
          rw [ho'] at ho
          cases ho
      exact habsent.quiet hu'
    · exact ih (honly.turned hnew ht) (hcalm'.turned hhead ht) htail
        (fun e'' he'' => hkeys e'' (List.mem_cons_of_mem _ he'')) he' hu'

/-- **What a quiet run needs.** If it leaves every stream its entry that the server does not
decline, then every resume request got out and no ids clashed. -/
theorem Calm.undisturbed (hcalm : Calm dead rest s) (hdistinct : rest.Pairwise Distinct)
    (hu : Resumption.resumeLoop (scheduled outcome .quiet) s rest = some u)
    (hkept : ∀ e ∈ rest, dead e.2.stream = false → (outcome e.1).declined = false →
      ¬Absent u e.2.stream) :
    (∀ e ∈ rest, dead e.2.stream = false → (outcome e.1).unsent = false) ∧
      rest.Pairwise fun e e' => dead e.2.stream = false → ∀ newId,
        outcome e.1 = .answered newId →
          newId ≠ e'.1 ∧ (dead e'.2.stream = false → outcome e'.1 ≠ .answered newId) := by
  induction rest generalizing s with
  | nil => exact ⟨by simp, List.Pairwise.nil⟩
  | cons e rest ih =>
    obtain ⟨s', t, hd, ht, -, hu'⟩ := resumeLoop_scheduled (Schedule.quiet_within ∅) hu
    obtain ⟨hhead, htail⟩ := List.pairwise_cons.mp hdistinct
    have hcalm' := hcalm.drift hd
    have hcalmt := hcalm'.turned hhead ht
    have hkept' := fun e' he' => hkept e' (List.mem_cons_of_mem _ he')
    obtain ⟨hsent, hpair⟩ := ih hcalmt htail hu' hkept'
    -- the head entry is where it belongs, since otherwise its stream would be nowhere in the end
    have hhere : dead e.2.stream = false → (outcome e.1).declined = false →
        ∃ r, s'.streams.lookup e.1 = some r ∧ r.stream = e.2.stream ∧
          s'.isEnded r.stream = false := fun hlive hdec =>
      hcalm'.lookup_head hlive fun habs =>
        hkept e List.mem_cons_self hlive hdec ((habs.turned ht).quiet hu')
    refine ⟨?_, List.pairwise_cons.mpr ⟨fun e' he' hlive newId ho => ?_, hpair⟩⟩
    · intro e' he' hlive
      rcases List.mem_cons.mp he' with rfl | he'
      · by_contra hunsent
        have hunsent : (outcome e'.1).unsent = true := by simpa using hunsent
        have hdec : (outcome e'.1).declined = false := by
          cases ho : outcome e'.1 <;> rw [ho] at hunsent <;> first | rfl | cases hunsent
        refine hkept e' List.mem_cons_self hlive hdec (Absent.quiet ?_ hu')
        cases ht with
        | removed => exact (hcalm'.waiting e' List.mem_cons_self).absent_removeAndEnd
        | remapped ho =>
          rw [ho] at hunsent
          cases hunsent
        | left ho =>
          rw [ho] at hunsent
          cases hunsent
      · exact hsent e' he' hlive
    · have hdec : (outcome e.1).declined = false := by rw [ho]; rfl
      obtain ⟨r, hl, hr, hrend⟩ := hhere hlive hdec
      have hfinal : ¬Absent u e.2.stream := hkept e List.mem_cons_self hlive hdec
      -- after its turn the stream stands under the new id and nowhere else
      have hmoved : t.streams.lookup newId = some r ∧ OnlyAt t e.2.stream newId := by
        cases ht with
        | removed hgone =>
          rcases hgone with hgone | hgone
          · rw [← hr, hrend] at hgone
            cases hgone
          · rw [ho] at hgone
            cases hgone
        | @remapped id rid ho' =>
          have hid : id = newId := Outcome.answered.inj (ho'.symm.trans ho)
          rw [State.remap_of_lookup s' hl hrend, hid]
          refine ⟨AList.lookup_insert _, fun k r' hk hr' => ?_⟩
          have hk : ((s'.streams.erase e.1).insert newId r).lookup k = some r' := hk
          by_contra hne
          rw [AList.lookup_insert_ne hne] at hk
          have hke := hcalm'.waiting e List.mem_cons_self k r' (Table.lookup_of_lookup_erase hk) hr'
          rw [hke, AList.lookup_erase] at hk
          cases hk
        | left ho' =>
          rw [ho] at ho'
          cases ho'
      have hclash : ∀ e'' ∈ rest, newId ≠ e''.1 := by
        rintro e'' he'' rfl
        -- the waiting entry was overwritten, so its stream is nowhere; and when its turn comes,
        -- what is taken out is the stream that overwrote it
        have hover : Absent t e''.2.stream := by
          intro k r' hk hr'
          have hke := hcalmt.waiting e'' he'' k r' hk hr'
          rw [hke, hmoved.1, Option.some.injEq] at hk
          exact (hhead e'' he'').2 (by rw [← hr', ← hk, hr])
        by_cases hout : dead e''.2.stream = true ∨ (outcome e''.1).declined = true
        · exact hfinal (hmoved.2.evicted hcalmt htail he'' hout hu')
        · simp only [not_or, Bool.not_eq_true] at hout
          exact hkept' e'' he'' hout.1 hout.2 (hover.quiet hu')
      refine ⟨hclash e' he', fun hlive' ho' => ?_⟩
      have hdec' : (outcome e'.1).declined = false := by rw [ho']; rfl
      exact hfinal (hmoved.2.overwritten hcalmt htail hclash he' (hhead e' he').2.symm hlive' ho'
        hu' (hkept' e' he' hlive' hdec'))

/-! ## Where the loop starts -/

section Start

variable {order : List (Entry ρ)}

theorem State.Registered.distinct (hs : s.Registered) (horder : order.Perm s.streams.entries) :
    order.Pairwise Distinct := by
  have hkeys : order.Pairwise fun e e' => e'.1 ≠ e.1 := by
    have := (List.Perm.map Sigma.fst horder).nodup_iff.mpr s.streams.nodupKeys
    exact (List.pairwise_map.mp this).imp fun h => h.symm
  have hstreams : order.Pairwise fun e e' => e'.2.stream ≠ e.2.stream := by
    have := (List.Perm.map (fun e : Entry ρ => e.2.stream) horder).nodup_iff.mpr hs
    exact (List.pairwise_map.mp this).imp fun h => h.symm
  exact hkeys.and hstreams

/-- The entry of a stream is determined by the stream. -/
theorem State.Registered.entry_eq (hs : s.Registered) {k k' : ℕ} {r r' : ResumableStream ρ}
    (hk : s.streams.lookup k = some r) (hk' : s.streams.lookup k' = some r')
    (hr : r.stream = r'.stream) : k = k' := by
  have hmem : (⟨k, r⟩ : Entry ρ) ∈ s.streams.entries := AList.mem_lookup_iff.mp hk
  have hmem' : (⟨k', r'⟩ : Entry ρ) ∈ s.streams.entries := AList.mem_lookup_iff.mp hk'
  exact congrArg Sigma.fst (List.inj_on_of_nodup_map hs hmem hmem' hr)

theorem Progress.start (horder : order.Perm s.streams.entries) :
    Progress tasks s outcome [] order { s with abandoned := s.isEnded } where
  waiting _ he _ _ := AList.mem_lookup_iff.mpr (horder.mem_iff.mp he)
  settled _ he := by cases he
  remapped _ he := by cases he
  origin _ _ hk := Or.inl (horder.mem_iff.mpr (AList.mem_lookup_iff.mp hk))
  heldWaiting _ _ _ := ⟨rfl, rfl⟩
  heldSettled _ he := by cases he
  ended _ _ hend := hend
  ended_mono _ hi := hi
  abandoned _ hi := hi

theorem Calm.start (hs : s.Registered) (horder : order.Perm s.streams.entries) :
    Calm s.isEnded order { s with abandoned := s.isEnded } where
  waiting _ he _ _ hk hr :=
    hs.entry_eq hk (AList.mem_lookup_iff.mpr (horder.mem_iff.mp he)) hr
  unique _ _ _ _ hk hk' hr := hs.entry_eq hk hk' hr
  live _ _ _ hend := hend
  ended _ hi := hi
  abandoned := rfl

theorem Undisturbed.pairwise_apart (h : Undisturbed s order outcome tasks)
    (hdistinct : order.Pairwise Distinct) (hloss : LossIsFinal s order outcome) :
    order.Pairwise (Apart tasks s outcome) :=
  ((hdistinct.and h.apart).and hloss).imp fun ⟨⟨hd, hnew⟩, hl⟩ => ⟨hd.1, hd.2, hnew, hl⟩

/-- Every run leaves every stream its entry that is not given up and that the server does not
decline. -/
def Keeps (s : State ρ) (order : List (Entry ρ)) (outcome : ℕ → Outcome)
    (tasks : Set (TaskEvent ρ)) : Prop :=
  ∀ w : Schedule ρ, w.Within tasks → ∃ u, resumeWith s order outcome w = some u ∧
    ∀ e ∈ order, u.abandoned e.2.stream = false → (outcome e.1).declined = false →
      ∃ k, u.streams.lookup k = some e.2

/-- In particular the run in which a task strikes once. -/
theorem Keeps.strike (h : Keeps s order outcome tasks) {ev : TaskEvent ρ} (hev : ev ∈ tasks)
    (oldId : ℕ) (he : e ∈ order) (hlive : s.isEnded e.2.stream = false)
    (hdec : (outcome e.1).declined = false) (hother : ¬ev.GivesUp e.2.stream) :
    ∃ u, resumeLoop (scheduled outcome (.strike oldId [ev])) { s with abandoned := s.isEnded }
      order = some u ∧ ¬Absent u e.2.stream := by
  have hwithin : ∀ tasks' : Set (TaskEvent ρ), ev ∈ tasks' →
      (Schedule.strike oldId [ev]).Within tasks' := fun tasks' hmem =>
    Schedule.strike_within (fun ev' hev' => by rwa [List.mem_singleton.mp hev']) oldId
  obtain ⟨u, hu, hkept⟩ := h _ (hwithin tasks hev)
  refine ⟨u, hu, fun habs => ?_⟩
  have hab : u.abandoned e.2.stream = s.isEnded e.2.stream := by
    refine abandoned_of_resumeLoop (hwithin {ev} rfl) (fun ev' hev' => ?_) hu
    rwa [Set.mem_singleton_iff.mp hev']
  obtain ⟨k, hk⟩ := hkept e he (hab.trans hlive) hdec
  exact habs k e.2 hk rfl

/-- If every run keeps the streams, then nothing was amiss. -/
theorem Keeps.undisturbed (h : Keeps s order outcome tasks) (hs : s.Registered)
    (horder : order.Perm s.streams.entries) (hnew : RegistersNew order tasks) :
    Undisturbed s order outcome tasks := by
  have hdistinct := hs.distinct horder
  have hstart := Calm.start hs horder
  obtain ⟨u, hu, hkept⟩ := h .quiet (Schedule.quiet_within tasks)
  obtain ⟨hsent, hpair⟩ := hstart.undisturbed hdistinct hu fun e he hlive hdec habs => by
    have hab : u.abandoned e.2.stream = s.isEnded e.2.stream :=
      abandoned_of_resumeLoop (Schedule.quiet_within ∅)
        (fun ev hev => absurd hev (Set.notMem_empty _)) hu
    obtain ⟨k, hk⟩ := hkept e he (hab.trans hlive) hdec
    exact habs k e.2 hk rfl
  refine ⟨hsent, fun e he hlive hdec ev hev hwrites => ?_,
    List.pairwise_iff_forall_sublist.mpr fun {e e'} hsub hlive newId ho =>
      ⟨(hpair.forall_sublist hsub hlive newId ho).1, (hpair.forall_sublist hsub hlive newId ho).2,
        fun ev hev hwrites => ?_⟩⟩
  · -- the task strikes just before the turn of the entry
    by_contra hother
    obtain ⟨u, hu, hpresent⟩ := h.strike hev e.1 he hlive hdec hother
    obtain ⟨pre, post, rfl⟩ := List.append_of_mem he
    obtain ⟨-, -, hcross⟩ := List.pairwise_append.mp hdistinct
    exact hpresent ((hstart.waiting e he).struck
      (fun x hx => (hcross x hx e List.mem_cons_self).1) hwrites hother
      (fun id r heq => hnew id r (heq ▸ hev) e he) hu)
  · -- the task strikes just before the later turn, when the stream has been put under its new id
    by_contra hother
    have he : e ∈ order := hsub.subset List.mem_cons_self
    have hdec : (outcome e.1).declined = false := by rw [ho]; rfl
    obtain ⟨u, hu, hpresent⟩ := h.strike hev e'.1 he hlive hdec hother
    obtain ⟨l, l', rfl, hl, hl'⟩ := List.cons_sublist_iff.mp hsub
    obtain ⟨pre, mid, rfl⟩ := List.append_of_mem hl
    obtain ⟨mid', post, rfl⟩ := List.append_of_mem (List.singleton_sublist.mp hl')
    have hsplit : pre ++ e :: mid ++ (mid' ++ e' :: post) =
        pre ++ e :: ((mid ++ mid') ++ e' :: post) := by simp
    have hstart := hstart.waiting e he
    rw [hsplit] at hu hdistinct hpair hnew
    obtain ⟨-, hrest, hcross⟩ := List.pairwise_append.mp hdistinct
    have hfresh := (List.pairwise_cons.mp (List.pairwise_append.mp hpair).2.1).1
    have hw : (Schedule.strike e'.1 [ev]).Within {ev} :=
      Schedule.strike_within (fun _ hev => List.mem_singleton.mp hev) e'.1
    have hreg : ∀ id r, .registers id r ∈ ({ev} : Set (TaskEvent ρ)) → r.stream ≠ e.2.stream :=
      fun id r hmem => hnew id r (Set.mem_singleton_iff.mp hmem ▸ hev) e
        (List.mem_append_right _ List.mem_cons_self)
    obtain ⟨v, hv, hu⟩ := resumeLoop_append hu
    have hwaits : OnlyAt v e.2.stream e.1 :=
      hstart.resumeLoop hw hreg (fun x hx => (hcross x hx e List.mem_cons_self).1) hv
    obtain ⟨s', t, hd, ht, -, hu⟩ := resumeLoop_scheduled hw hu
    have hmoved : OnlyAt t e.2.stream newId := (hwaits.drift hd hreg).answered ho ht
    exact hpresent (hmoved.struck
      (fun x hx => (hfresh x (List.mem_append_left _ hx) hlive newId ho).1) hwrites hother
      (fun id r heq => hreg id r (Set.mem_singleton_iff.mpr heq.symm)) hu)

end Start

/-- An entry that is sent and not declined has a place after its turn. -/
theorem Outcome.exists_place {o : Outcome} {oldId : ℕ} (hsent : o.unsent = false)
    (hdec : o.declined = false) : ∃ k, o.place oldId = some k := by
  cases o with
  | answered newId => exact ⟨newId, rfl⟩
  | lost loss => exact ⟨oldId, rfl⟩
  | encodeError => cases hsent
  | sendError => cases hsent
  | noStream => cases hdec
  | refused => cases hdec

/-! ## The connection is lost on the way -/

/-- **Losing the connection during resumption.** `tasks` is what other tasks may do in the meantime.
Whatever they do of it, and whatever frames pass, every stream that is not given up and not declined
is left registered with its slot, if and only if every resume request of a live stream got out, no
ids clashed, and no other stream's task writes where a live stream stands. -/
theorem resume_streams_kept_iff (s : State ρ) (hs : s.Registered) (order : List (Entry ρ))
    (horder : order.Perm s.streams.entries) (outcome : ℕ → Outcome)
    (hloss : LossIsFinal s order outcome) (tasks : Set (TaskEvent ρ))
    (hnew : RegistersNew order tasks) :
    (∀ w : Schedule ρ, w.Within tasks →
      ∃ t, resumeWith s order outcome w = some t ∧ Kept s t order outcome) ↔
      Undisturbed s order outcome tasks := by
  constructor
  · intro h
    refine Keeps.undisturbed (fun w hw => ?_) hs horder hnew
    obtain ⟨u, hu, hkept⟩ := h w hw
    exact ⟨u, hu, fun e he hab hdec => (hkept e he hab hdec).1⟩
  · intro h w hw
    obtain ⟨t, ht, hprog⟩ := (Progress.start horder).resumeLoop hw
      (h.pairwise_apart (hs.distinct horder) hloss) h.own hnew
    refine ⟨t, ht, fun e he hab hdec => ?_⟩
    obtain ⟨k, hk⟩ := @Outcome.exists_place _ e.1 (h.sent e he (hprog.live hab)) hdec
    refine ⟨⟨k, hprog.settled e he hab k hk⟩, hprog.heldSettled e he hab ?_⟩
    rw [hk]
    exact Option.some_ne_none k

/-- Two streams, registered under 1 and 2. -/
def twoStreams : State ℕ :=
  { streams := (AList.insert 1 ⟨10, 0⟩ ∅ : AList fun _ : ℕ => ResumableStream ℕ).insert 2 ⟨20, 1⟩ }

/-- The snapshot of `twoStreams` in the order of the ids. -/
def oneThenTwo : List (Entry ℕ) := [⟨1, 10, 0⟩, ⟨2, 20, 1⟩]

/-- The socket closes while the first answer is awaited, so that the second request cannot be
written. -/
def closedAtFirst : ℕ → Outcome
  | 1 => .lost .close
  | _ => .sendError

/-- The second stream is ended although its owner kept it and the server was never asked. -/
theorem resume_streams_drops_kept_stream :
    twoStreams.Registered ∧ oneThenTwo.Perm twoStreams.streams.entries ∧
      LossIsFinal twoStreams oneThenTwo closedAtFirst ∧
      ¬∃ t, resumeWith twoStreams oneThenTwo closedAtFirst Schedule.quiet = some t ∧
        Kept twoStreams t oneThenTwo closedAtFirst := by
  refine ⟨by decide, List.Perm.swap _ _ _, ?_, ?_⟩
  · exact List.pairwise_cons.mpr ⟨fun e' he' _ _ _ => by
      rw [List.mem_singleton.mp he']; rfl, List.pairwise_singleton _ _⟩
  · rintro ⟨t, ht, hkept⟩
    have hcalls : (resumeWith twoStreams oneThenTwo closedAtFirst Schedule.quiet).map
        (fun t => (t.onEndCalls 1, t.abandoned 1)) = some (1, false) := rfl
    rw [ht, Option.map_some, Option.some.injEq, Prod.mk.injEq] at hcalls
    have := (hkept ⟨2, 20, 1⟩ (by decide) hcalls.2 rfl).2.2
    rw [hcalls.1] at this
    cases this

/-- The server answers both requests, with ids it has not used before. -/
def answeredAfresh : ℕ → Outcome
  | 1 => .answered 3
  | _ => .answered 4

/-- Owners may stop their streams. A third stream, whose start was answered with 5 before the
connection was lost, may be registered, and the adapter of the first stream may take out the id it
has loaded. -/
def latecomers : Set (TaskEvent ℕ) :=
  {ev | (∃ i, ev = .owner (.stops i)) ∨ ev = .registers 5 ⟨30, 2⟩ ∨ ev = .unregisters 0 1}

theorem latecomers_registersNew : RegistersNew oneThenTwo latecomers := by
  intro id r hmem e he
  rcases hmem with ⟨i, hi⟩ | hreg | hunreg
  · cases hi
  · cases hreg
    rcases List.mem_cons.mp he with rfl | he
    · decide
    · rw [List.mem_singleton.mp he]
      decide
  · cases hunreg

/-- They leave alone every id but 5, and the first stream's own. -/
theorem latecomers_undisputed {i k : ℕ} (hk : k ≠ 5) (hi : k = 1 → i = 0) :
    Undisputed latecomers i k := by
  rintro ev (⟨j, rfl⟩ | rfl | rfl) hwrites
  · exact hwrites.elim
  · exact absurd (show 5 = k from hwrites).symm hk
  · exact (hi (show 1 = k from hwrites).symm).symm

theorem latecomers_own {e : Entry ℕ} (he : e ∈ oneThenTwo) :
    Undisputed latecomers e.2.stream e.1 := by
  rcases List.mem_cons.mp he with rfl | he
  · exact latecomers_undisputed (by decide) fun _ => rfl
  · rw [List.mem_singleton.mp he]
    exact latecomers_undisputed (by decide) fun h => absurd h (by decide)

theorem latecomers_allowed :
    ∀ ev ∈ [.registers 5 ⟨30, 2⟩, .unregisters 0 1], ev ∈ latecomers := by
  intro ev hev
  rcases List.mem_cons.mp hev with rfl | hev
  · exact Or.inr (Or.inl rfl)
  · rw [List.mem_singleton.mp hev]
    exact Or.inr (Or.inr rfl)

theorem resume_streams_keeps_answered :
    ∃ t, resumeWith twoStreams oneThenTwo answeredAfresh
        (.strike 2 [.registers 5 ⟨30, 2⟩, .unregisters 0 1]) = some t ∧
      Kept twoStreams t oneThenTwo answeredAfresh := by
  refine (resume_streams_kept_iff twoStreams (by decide) oneThenTwo (List.Perm.swap _ _ _)
    answeredAfresh ?_ latecomers latecomers_registersNew).mpr ⟨?_, ?_, ?_⟩ _
      (Schedule.strike_within ?_ 2)
  · refine List.pairwise_cons.mpr ⟨?_, List.pairwise_singleton _ _⟩
    intro _ _ _ hlost
    cases hlost
  · intro e he _
    rcases List.mem_cons.mp he with rfl | he
    · rfl
    · rw [List.mem_singleton.mp he]
      rfl
  · exact fun e he _ _ => latecomers_own he
  · refine List.pairwise_cons.mpr ⟨fun e' he' _ newId ho => ?_, List.pairwise_singleton _ _⟩
    rw [List.mem_singleton.mp he', ← Outcome.answered.inj ho]
    exact ⟨by decide, fun _ => by decide,
      latecomers_undisputed (by decide) fun h => absurd h (by decide)⟩
  · exact latecomers_allowed

/-! ## Every request is answered with a new id -/

/-- No other stream's task writes under the old id of a live entry. What is registered goes under no
id that a live stream is assigned. Such an id is the old id of no entry to come, and no other
stream's task writes under it while there are entries to come. -/
structure Uncrossed (s : State ρ) (order : List (Entry ρ)) (assign : ℕ → ℕ)
    (tasks : Set (TaskEvent ρ)) : Prop where
  own : ∀ e ∈ order, s.isEnded e.2.stream = false → Undisputed tasks e.2.stream e.1
  fresh : ∀ e ∈ order, s.isEnded e.2.stream = false → ∀ r, .registers (assign e.1) r ∉ tasks
  later : order.Pairwise fun e e' => s.isEnded e.2.stream = false →
    assign e.1 ≠ e'.1 ∧ Undisputed tasks e.2.stream (assign e.1)

section Assigned

variable {order : List (Entry ρ)} {assign : ℕ → ℕ}

/-- New ids are pairwise distinct. Entries whose streams have ended get none. -/
def AssignsDistinct (s : State ρ) (order : List (Entry ρ)) (assign : ℕ → ℕ) : Prop :=
  order.Pairwise fun e e' => s.isEnded e.2.stream = false → s.isEnded e'.2.stream = false →
    assign e.1 ≠ assign e'.1

theorem AssignsDistinct.eq (h : AssignsDistinct s order assign) {e e' : Entry ρ} (he : e ∈ order)
    (he' : e' ∈ order) (hlive : s.isEnded e.2.stream = false)
    (hlive' : s.isEnded e'.2.stream = false) (heq : assign e.1 = assign e'.1) : e = e' := by
  by_contra hne
  obtain ⟨l, l', rfl⟩ := List.append_of_mem he
  obtain ⟨-, hpair, hcross⟩ := List.pairwise_append.mp h
  rcases List.mem_append.mp he' with he' | he'
  · exact hcross e' he' e List.mem_cons_self hlive' hlive heq.symm
  · rcases List.mem_cons.mp he' with rfl | he'
    · exact hne rfl
    · exact (List.pairwise_cons.mp hpair).1 e' he' hlive hlive' heq

/-- A stream is registered under `a` while the answer for `e` with that id is awaited, and the owner
of `e` stops it. Then the loop takes the entry out and does not write `a`. -/
theorem resumeTurn_overtaken {a : ℕ} {r r' : ResumableStream ρ}
    (hl : s.streams.lookup e.1 = some r') (hr' : r'.stream = e.2.stream)
    (hend : s.isEnded e.2.stream = false) (hold : e.1 ≠ a) :
    ∃ t, resumeTurn s e ((Outcome.answered a).turn
        (.interject e.1 [.registers a r, .owner (.stops e.2.stream)]) e.1) = some t ∧
      t.streams.lookup a = some r ∧ Answered t e a ∧
      ∀ i, s.isEnded i = true → t.isEnded i = true := by
  rw [resumeTurn_interject hend]
  dsimp only [List.foldl_cons, List.foldl_nil]
  generalize hx : ((s.request e).task (.registers a r)).task (.owner (.stops e.2.stream)) = x
  have hstreams : x.streams = s.streams.insert a r := by rw [← hx]; rfl
  have hwritten : ⟨s.requestIdCounter, e.2.request⟩ ∈ x.written := by
    rw [← hx]
    exact List.mem_append_right _ List.mem_cons_self
  have hended : ∀ i, s.isEnded i = true ∨ e.2.stream = i → x.isEnded i = true := by
    rw [← hx]
    exact fun i => ((s.registerStream a r).owner_isEnded (.stops e.2.stream)).mpr
  generalize hy : ({ x with granted := x.granted ++ [(s.requestIdCounter, a)] } : State ρ) = y
  have hlook : y.streams.lookup e.1 = some r' := by
    rw [← hy, ← hl, hstreams]
    exact AList.lookup_insert_ne hold
  have hstopped : ∀ i, s.isEnded i = true ∨ e.2.stream = i → y.isEnded i = true := by
    rw [← hy]
    exact hended
  refine ⟨y.removeAndEnd e.1, ?_, ?_, ⟨s.requestIdCounter, ?_⟩,
    fun i hi => y.isEnded_removeAndEnd (hstopped i (Or.inl hi))⟩
  · rw [y.remap_of_isEnded hlook (hstopped _ (Or.inr hr'.symm))]
  · rw [State.removeAndEnd_streams, AList.lookup_erase_ne hold.symm, ← hy]
    exact hstreams ▸ AList.lookup_insert s.streams
  · rw [State.removeAndEnd_of_lookup y hlook, ← hy]
    exact ⟨hwritten, List.mem_append_right _ List.mem_cons_self⟩

/-- **Misdelivery.** If a stream may be registered under the id that is assigned to another one,
then it may get the other one's data: it is registered while the answer with that id is awaited, and
the owner of the other one stops that, so that the loop does not write the id. -/
theorem Undisturbed.fresh_of_tied (hun : Undisturbed s order (fun k => .answered (assign k)) tasks)
    (hs : s.Registered) (horder : order.Perm s.streams.entries)
    (hassign : AssignsDistinct s order assign) (hnew : RegistersNew order tasks)
    (hstops : ∀ i, .owner (.stops i) ∈ tasks)
    (h : ∀ w : Schedule ρ, w.Within tasks →
      ∃ t, resumeWith s order (fun k => .answered (assign k)) w = some t ∧ Tied s t order assign)
    (he : e ∈ order) (hlive : s.isEnded e.2.stream = false) (r : ResumableStream ρ) :
    .registers (assign e.1) r ∉ tasks := by
  intro hreg
  have hold : e.1 ≠ assign e.1 := fun heq => hun.own e he hlive rfl _ hreg heq.symm
  have hevs : ∀ ev ∈ [.registers (assign e.1) r, .owner (.stops e.2.stream)], ev ∈ tasks := by
    intro ev hev
    rcases List.mem_cons.mp hev with rfl | hev
    · exact hreg
    · rw [List.mem_singleton.mp hev]
      exact hstops _
  have hw := Schedule.interject_within hevs e.1
  obtain ⟨q, hq, hquiet⟩ := h _ (Schedule.quiet_within tasks)
  obtain ⟨u, hu, htied⟩ := h _ hw
  suffices hfinal : u.streams.lookup (assign e.1) = some r ∧ Answered u e (assign e.1) by
    have hne : r.stream ≠ e.2.stream := hnew _ _ hreg e he
    refine hne ((htied.delivers (assign e.1) r.stream ?_ e he hlive hfinal.2).mp rfl).symm
    rw [State.handleServerMessage, hfinal.1]
  have hpresent : ¬Absent q e.2.stream := by
    have hab : q.abandoned e.2.stream = s.isEnded e.2.stream :=
      abandoned_of_resumeLoop (Schedule.quiet_within ∅)
        (fun ev hev => absurd hev (Set.notMem_empty _)) hq
    exact fun habs => habs _ _ (hquiet.registered e he (hab.trans hlive)).1 rfl
  have hdistinct := hs.distinct horder
  have hcalm := Calm.start hs horder
  obtain ⟨pre, post, rfl⟩ := List.append_of_mem he
  obtain ⟨-, hrest, hcross⟩ := List.pairwise_append.mp hdistinct
  obtain ⟨hhead, -⟩ := List.pairwise_cons.mp hrest
  obtain ⟨-, hapart, -⟩ := List.pairwise_append.mp hun.apart
  obtain ⟨-, hdiff, -⟩ := List.pairwise_append.mp hassign
  -- up to the turn of the entry the run is quiet, so that the entry is where it was
  obtain ⟨v, hv, hu⟩ := @resumeLoop_append _ _ _
    (scheduled (fun k => .answered (assign k)) (.interject e.1 _)) _ _ hu
  rw [resumeLoop_interject fun x hx => (hcross x hx e List.mem_cons_self).1.symm] at hv
  obtain ⟨v', hv', hq⟩ := @resumeLoop_append _ _ _
    (scheduled (fun k => .answered (assign k)) .quiet) _ _ hq
  cases Option.some.inj (hv'.symm.trans hv)
  obtain ⟨r', hl, hr', hend⟩ := (hcalm.resumeLoop hdistinct hv).lookup_head hlive
    fun habs => hpresent (habs.quiet hq)
  rw [hr'] at hend
  -- the entry is taken out in its turn, and the other stream stays under the new id to the end
  obtain ⟨t, hturn, hput, hanswered, hmono⟩ :=
    resumeTurn_overtaken (a := assign e.1) (r := r) hl hr' hend hold
  rw [resumeLoop, scheduled, hturn, Option.bind_some] at hu
  refine ⟨lookup_of_quiet hput (fun x hx => ⟨?_, ?_⟩) (resumeLoop_interject (fun x hx =>
    (hhead x hx).1) ▸ hu), hanswered.resumeLoop hw hu⟩
  · exact ((List.pairwise_cons.mp hapart).1 x hx hlive _ rfl).1
  · by_cases hx' : s.isEnded x.2.stream = true
    · exact Or.inl (hmono _ (isEnded_of_resumeLoop (s := { s with abandoned := s.isEnded })
        (Schedule.quiet_within ∅) hx' hv))
    · refine Or.inr fun heq => ?_
      exact (List.pairwise_cons.mp hdiff).1 x hx hlive (by simpa using hx')
        (Outcome.answered.inj heq).symm

theorem Uncrossed.undisturbed (h : Uncrossed s order assign tasks)
    (hassign : AssignsDistinct s order assign) :
    Undisturbed s order (fun k => .answered (assign k)) tasks := by
  refine ⟨fun _ _ _ => rfl, fun e he hlive _ => h.own e he hlive, (h.later.and hassign).imp ?_⟩
  rintro e e' ⟨hlater, hdiff⟩ hlive newId ho
  rw [← Outcome.answered.inj ho]
  exact ⟨(hlater hlive).1,
    fun hlive' heq => hdiff hlive hlive' (Outcome.answered.inj heq).symm, (hlater hlive).2⟩

/-- What the invariant says in the end, when every request was answered with a new id. -/
theorem Progress.tied {t : State ρ} (hs : s.Registered) (horder : order.Perm s.streams.entries)
    (hassign : AssignsDistinct s order assign) (hnew : RegistersNew order tasks)
    (hfresh : ∀ e ∈ order, s.isEnded e.2.stream = false → ∀ r, .registers (assign e.1) r ∉ tasks)
    (h : Progress tasks s (fun k => .answered (assign k)) order [] t) : Tied s t order assign := by
  have hlook : ∀ e ∈ order, s.streams.lookup e.1 = some e.2 :=
    fun e he => AList.mem_lookup_iff.mpr (horder.mem_iff.mp he)
  have horigin : ∀ k r, t.streams.lookup k = some r →
      (∃ e ∈ order, s.isEnded e.2.stream = false ∧ k = assign e.1 ∧ r = e.2) ∨
        .registers k r ∈ tasks := by
    intro k r hk
    rcases h.origin k r hk with hmem | ⟨e, he, hlive, hplace, hr⟩ | hreg
    · cases hmem
    · exact Or.inl ⟨e, he, hlive, (Option.some.inj hplace).symm, hr⟩
    · exact Or.inr hreg
  -- a stream of the snapshot stands under the id assigned to it and nowhere else
  have hself : ∀ e ∈ order, ∀ k r, t.streams.lookup k = some r → r.stream = e.2.stream →
      k = assign e.1 := by
    intro e he k r hk hr
    rcases horigin k r hk with ⟨e', he', -, hk', hr'⟩ | hreg
    · rw [hk', hs.entry_eq (hlook e' he') (hlook e he) (by rw [← hr', hr])]
    · exact absurd hr (hnew _ _ hreg e he)
  refine ⟨fun e he hab => ⟨h.settled e he hab _ rfl, hself e he, (h.remapped e he hab _ rfl).1⟩,
    fun e he hab => (h.remapped e he hab _ rfl).2, fun id i hrouted e he hlive _ => ?_⟩
  cases hl : t.streams.lookup id with
  | none =>
    rw [State.handleServerMessage, hl] at hrouted
    exact absurd hrouted (by simp)
  | some r =>
    rw [State.handleServerMessage, hl] at hrouted
    have hri : r.stream = i := by simpa using hrouted
    constructor
    · rintro rfl
      rcases horigin _ r hl with ⟨e', he', hlive', hid, hr⟩ | hreg
      · rw [hassign.eq he he' hlive hlive' hid, ← hr, hri]
      · exact absurd hreg (hfresh e he hlive r)
    · intro hi
      exact (hself e he id r hl (hri.trans hi.symm)).symm

/-- **Each stream keeps its own request.** With every request answered, and with new ids that are
pairwise distinct, each stream that is not given up ends up under the id of its own request,
whatever other tasks do of what they may and whatever frames pass, if and only if no new id is the
old id of an entry whose turn comes later and no other stream's task writes where a live stream
stands, or registers a stream under an assigned id. -/
theorem resume_streams_tied_iff (s : State ρ) (hs : s.Registered) (order : List (Entry ρ))
    (horder : order.Perm s.streams.entries) (assign : ℕ → ℕ)
    (hassign : AssignsDistinct s order assign) (tasks : Set (TaskEvent ρ))
    (hnew : RegistersNew order tasks) (hstops : ∀ i, .owner (.stops i) ∈ tasks) :
    (∀ w : Schedule ρ, w.Within tasks →
      ∃ t, resumeWith s order (fun k => .answered (assign k)) w = some t ∧
        Tied s t order assign) ↔ Uncrossed s order assign tasks := by
  constructor
  · intro h
    have hun : Undisturbed s order (fun k => .answered (assign k)) tasks := by
      refine Keeps.undisturbed (fun w hw => ?_) hs horder hnew
      obtain ⟨u, hu, htied⟩ := h w hw
      exact ⟨u, hu, fun e he hab _ => ⟨assign e.1, (htied.registered e he hab).1⟩⟩
    refine ⟨fun e he hlive => hun.own e he hlive rfl,
      fun e he hlive => hun.fresh_of_tied hs horder hassign hnew hstops h he hlive,
      hun.apart.imp fun {e e'} hapart hlive => ?_⟩
    obtain ⟨hkey, -, hundisputed⟩ := hapart hlive _ rfl
    exact ⟨hkey, hundisputed⟩
  · intro h w hw
    have hun := h.undisturbed hassign
    have hloss : LossIsFinal s order fun k => .answered (assign k) := by
      refine h.later.imp ?_
      intro _ _ _ _ hlost
      cases hlost
    obtain ⟨t, ht, hprog⟩ := (Progress.start horder).resumeLoop hw
      (hun.pairwise_apart (hs.distinct horder) hloss) hun.own hnew
    exact ⟨t, ht, hprog.tied hs horder hassign hnew h.fresh⟩

end Assigned

/-- The server hands out the old ids again, crosswise. -/
def crossed : ℕ → ℕ
  | 1 => 2
  | _ => 1

/-- The first stream ends up under the id of the second one's request, and the second nowhere. -/
theorem resume_streams_crosses_streams :
    twoStreams.Registered ∧ oneThenTwo.Perm twoStreams.streams.entries ∧
      AssignsDistinct twoStreams oneThenTwo crossed ∧
      ¬∃ t, resumeWith twoStreams oneThenTwo (fun k => .answered (crossed k)) Schedule.quiet =
        some t ∧ Tied twoStreams t oneThenTwo crossed := by
  refine ⟨by decide, List.Perm.swap _ _ _, ?_, ?_⟩
  · exact List.pairwise_cons.mpr ⟨fun e' he' _ _ => by
      rw [List.mem_singleton.mp he']; decide, List.pairwise_singleton _ _⟩
  rintro ⟨t, ht, htied⟩
  have hlook : (resumeWith twoStreams oneThenTwo (fun k => .answered (crossed k))
      Schedule.quiet).map (fun t => (t.streams.lookup 2, t.abandoned 0)) =
      some (none, false) := rfl
  rw [ht, Option.map_some, Option.some.injEq, Prod.mk.injEq] at hlook
  have := (htied.registered ⟨1, 10, 0⟩ (by decide) hlook.2).1
  rw [show crossed (⟨1, 10, 0⟩ : Entry ℕ).1 = 2 from rfl, hlook.1] at this
  cases this

/-- The server answers with 3 and 4. A stream is registered under 5 and the first one taken out
before the turn of the second. -/
theorem resume_streams_tied_afresh :
    ∃ t, resumeWith twoStreams oneThenTwo (fun k => .answered (k + 2))
        (.strike 2 [.registers 5 ⟨30, 2⟩, .unregisters 0 1]) = some t ∧
      Tied twoStreams t oneThenTwo (· + 2) := by
  refine (resume_streams_tied_iff twoStreams (by decide) oneThenTwo (List.Perm.swap _ _ _) (· + 2)
    ?_ latecomers latecomers_registersNew fun i => Or.inl ⟨i, rfl⟩).mpr ⟨?_, ?_, ?_⟩ _
      (Schedule.strike_within ?_ 2)
  · exact List.pairwise_cons.mpr ⟨fun e' he' _ _ => by
      rw [List.mem_singleton.mp he']; decide, List.pairwise_singleton _ _⟩
  · exact fun e he _ => latecomers_own he
  · intro e he _ r hmem
    rcases hmem with ⟨i, hi⟩ | hreg | hunreg
    · cases hi
    · rcases List.mem_cons.mp he with rfl | he
      · cases hreg
      · rw [List.mem_singleton.mp he] at hreg
        cases hreg
    · cases hunreg
  · refine List.pairwise_cons.mpr ⟨fun e' he' _ => ?_, List.pairwise_singleton _ _⟩
    rw [List.mem_singleton.mp he']
    exact ⟨by decide, latecomers_undisputed (by decide) fun h => absurd h (by decide)⟩
  · exact latecomers_allowed

end Resumption

end TitanClient
