import TitanClient.LifecycleMail
import TitanClient.Queueing

/-!
# The lock agrees with the client

A party has two legs, and a step moves one of them: the client's steps move positions, the lock's
steps move phases. `Keeping` is what they owe each other. The lock has down for each party what its
phase says (`Serves`); a party that holds the lock or waits for it needs it, in that mode; the loop
holds it wherever `Lifecycle` has it keep the lock; and whoever has been admitted has a request to
send.

What makes this an invariant is that nobody else moves a position: what a party needs, and what it
has to send, stays as it is until the party takes its own step.

## Main results

* `need_stays`, `sends_stays` — only a party's own steps change what it needs
* `critical_use` — the loop comes to keep the lock with a step under the lock
* `Keeping`, `exec_keeping` — the invariant, in every reachable state
-/

namespace TitanClient

namespace Queueing

open FairLock (Lock Mode Serves)

/-! ## What only a party's own steps change -/

section

variable {s : Lifecycle.State} {a : Lifecycle.Action} {i t : ℕ} {v : Lifecycle.Stream}
  {pos : Lifecycle.Task} {m : Mode} {q : Party}

theorem start_stays (hc : Lifecycle.Change s i a v) (hlt : i < s.streamCount)
    (hother : party a ≠ some (.start i)) : v.start = (s.streams i).start := by
  cases hc with
  | begun hcount => omega
  | requested => exact absurd rfl hother
  | startRefused => exact absurd rfl hother
  | answered => exact absurd rfl hother
  | denied => exact absurd rfl hother
  | registered => exact absurd rfl hother
  | failed => exact absurd rfl hother
  | _ => rfl

/-- A stop sequence in progress goes on by itself. -/
theorem stopper_stays (hc : Lifecycle.Change s i a v) (hlt : i < s.streamCount)
    (hok : (s.streams i).Ok) (hbusy : (s.streams i).stopper ≠ .idle)
    (hother : party a ≠ some (.stopper i)) : v.stopper = (s.streams i).stopper := by
  cases hc with
  | begun hcount => omega
  | stopped hlive => exact absurd (hok.live hlive) hbusy
  | dropped hlive => exact absurd (hok.live hlive) hbusy
  | loaded => exact absurd rfl hother
  | reloaded => exact absurd rfl hother
  | stopRequested => exact absurd rfl hother
  | stopRefused => exact absurd rfl hother
  | stopReceived => exact absurd rfl hother
  | stopUnregistered => exact absurd rfl hother
  | stopReleased => exact absurd rfl hother
  | _ => rfl

/-- An adapter that has been spawned goes on by itself. -/
theorem adapter_stays (hc : Lifecycle.Change s i a v) (hlt : i < s.streamCount)
    (hok : (s.streams i).Ok) (hspawned : (s.streams i).adapter ≠ .none)
    (hother : party a ≠ some (.adapter i)) : v.adapter = (s.streams i).adapter := by
  cases hc with
  | begun hcount => omega
  | registered hstart =>
    refine absurd (hok.unregistered ?_).1 hspawned
    rw [hstart]
    exact Lifecycle.Start.noConfusion
  | adapterTook => exact absurd rfl hother
  | adapterSkipped => exact absurd rfl hother
  | adapterForwarded => exact absurd rfl hother
  | adapterFailed => exact absurd rfl hother
  | adapterLoaded => exact absurd rfl hother
  | adapterUnregistered => exact absurd rfl hother
  | adapterEnded => exact absurd rfl hother
  | _ => rfl

/-- A task that is shutting down goes on by itself. -/
theorem task_stays (hc : Lifecycle.TaskChange s t a pos) (hidle : s.tasks t ≠ .idle)
    (hstop : ∀ i, s.tasks t ≠ .stopping i) (hother : party a ≠ some (.task t)) :
    pos = s.tasks t := by
  cases hc with
  | same => rfl
  | stopping _ h => exact absurd h hidle
  | returned _ h => exact absurd h (hstop _)
  | shutdown h => exact absurd h hidle
  | collected => exact absurd rfl hother
  | requested => exact absurd rfl hother
  | refused => exact absurd rfl hother
  | received => exact absurd rfl hother
  | cleared => exact absurd rfl hother
  | cancelled => exact absurd rfl hother

theorem loop_stays (ha : Lifecycle.Enabled s a) (hother : party a ≠ some .loop) :
    (Lifecycle.next s a).loop = s.loop := by
  have hc := Lifecycle.loopChange ha
  generalize (Lifecycle.next s a).loop = l at hc
  cases hc with
  | same => rfl
  | _ => exact absurd rfl hother

/-- The frames that have arrived wait for the loop. -/
theorem wire_stays (ha : Lifecycle.Enabled s a) (hother : party a ≠ some .loop) :
    ∃ later, (Lifecycle.next s a).wire = s.wire ++ later := by
  have hc := Lifecycle.mailChange ha
  change ∃ later, (Lifecycle.next s a).mail.wire = s.wire ++ later
  generalize (Lifecycle.next s a).mail = mail at hc
  cases hc with
  | same => exact ⟨[], (List.append_nil _).symm⟩
  | pushed => exact ⟨[], (List.append_nil _).symm⟩
  | shutDown => exact ⟨[], (List.append_nil _).symm⟩
  | lost => exact ⟨[], (List.append_nil _).symm⟩
  | accepted => exact ⟨_, rfl⟩
  | carriedOut => exact ⟨_, rfl⟩
  | serverSent => exact ⟨_, rfl⟩
  | _ => exact absurd rfl hother

theorem loopNeeds_append {wire later : List Lifecycle.Message} {l : Lifecycle.Loop}
    (h : loopNeeds wire l = some m) : loopNeeds (wire ++ later) l = some m := by
  cases l with
  | reading r =>
    cases wire with
    | nil => cases h
    | cons f wire => exact h
  | resuming rest => cases rest <;> exact h
  | _ => exact h

/-- What a party needs it needs until it has taken its step. -/
theorem need_stays (hw : Lifecycle.Wired s) (ha : Lifecycle.Enabled s a)
    (hother : party a ≠ some q) (h : need s q = some m) :
    need (Lifecycle.next s a) q = some m := by
  have hlt : ∀ {i}, s.streams i ≠ {} → i < s.streamCount := fun hne => by
    by_contra hle
    exact hne (hw.unused _ (Nat.le_of_not_lt hle))
  cases q with
  | loop =>
    obtain ⟨later, hwire⟩ := wire_stays ha hother
    rw [need, loop_stays ha hother, hwire]
    exact loopNeeds_append h
  | start i =>
    rw [need, start_stays (Lifecycle.change ha i) (hlt fun hempty => ?_) hother]
    · exact h
    · rw [need, hempty] at h
      cases h
  | stopper i =>
    rw [need, stopper_stays (Lifecycle.change ha i) (hlt fun hempty => ?_) (hw.ok i)
      (fun hidle => ?_) hother]
    · exact h
    · rw [need, hempty] at h
      cases h
    · rw [need, hidle] at h
      cases h
  | adapter i =>
    rw [need, adapter_stays (Lifecycle.change ha i) (hlt fun hempty => ?_) (hw.ok i)
      (fun hnone => ?_) hother]
    · exact h
    · rw [need, hempty] at h
      cases h
    · rw [need, hnone] at h
      cases h
  | task t =>
    rw [need, task_stays (Lifecycle.taskChange ha t) (fun hidle => ?_) (fun i hstop => ?_) hother]
    · exact h
    · rw [need, hidle] at h
      cases h
    · rw [need, hstop] at h
      cases h

/-- A party that has a request to send has it until it has taken its step. -/
theorem sends_stays (hw : Lifecycle.Wired s) (ha : Lifecycle.Enabled s a)
    (hother : party a ≠ some q) (h : Sends s q) : Sends (Lifecycle.next s a) q := by
  have hlt : ∀ {i}, s.streams i ≠ {} → i < s.streamCount := fun hne => by
    by_contra hle
    exact hne (hw.unused _ (Nat.le_of_not_lt hle))
  cases q with
  | loop => exact h
  | start i =>
    rw [Sends, start_stays (Lifecycle.change ha i) (hlt fun hempty => ?_) hother]
    · exact h
    · rw [Sends, hempty] at h
      cases h
  | stopper i =>
    obtain ⟨ids, hids⟩ := h
    refine ⟨ids, (stopper_stays (Lifecycle.change ha i) (hlt fun hempty => ?_) (hw.ok i) ?_
      hother).trans hids⟩
    · rw [hempty] at hids
      cases hids
    · rw [hids]
      exact Lifecycle.Stopper.noConfusion
  | adapter i => exact h
  | task t =>
    obtain ⟨ids, hids⟩ := h
    refine ⟨ids, (task_stays (Lifecycle.taskChange ha t) ?_ (fun i => ?_) hother).trans hids⟩
    · rw [hids]
      exact Lifecycle.Task.noConfusion
    · rw [hids]
      exact Lifecycle.Task.noConfusion

/-- The loop comes to keep the lock, or goes on keeping it, with a step under the lock. -/
theorem critical_use (ha : Lifecycle.Enabled s a) (hloop : party a = some .loop)
    (hkept : (Lifecycle.next s a).loop.isUnlocked = false) :
    use s a = .lock ∧ need (Lifecycle.next s a) .loop = need s .loop := by
  have hread : ∀ {r f}, a = .read r f → s.wire.head? = some f ∧ s.loop = .reading r := by
    rintro r f rfl
    exact ⟨ha.2, ha.1⟩
  have hc := Lifecycle.loopChange ha
  rw [need, need]
  generalize (Lifecycle.next s a).wire = wire
  generalize (Lifecycle.next s a).loop = l at hc hkept
  cases hc with
  | same hstill =>
    cases a with
    | dequeue sent =>
      rw [show s.loop = .reading .serving from ha.1] at hkept
      cases hkept
    | read r f =>
      rw [show s.loop = .reading r from ha.1] at hkept
      cases hkept
    | sendRaw => cases hstill
    | leave => cases hstill
    | decide => cases hstill
    | dial => cases hstill
    | snapshot => cases hstill
    | resume => cases hstill
    | resumeLost => cases hstill
    | store => cases hstill
    | insert => cases hstill
    | resumed => cases hstill
    | cleanup => cases hstill
    | _ => cases hloop
  | found hs =>
    refine ⟨rfl, ?_⟩
    rw [hs, loopNeeds, loopNeeds, (hread rfl).1]
    rfl
  | moved hs =>
    have hneeds : ∀ {oldId i ticket newId : ℕ} {rest : List (ℕ × ℕ)}, frameNeeds
        (.resuming oldId i ticket rest) (.response ticket (some newId)) = some .write :=
      if_pos rfl
    refine ⟨by rw [use, if_neg (by rw [hneeds]; exact Option.some_ne_none _)], ?_⟩
    rw [hs, loopNeeds, loopNeeds, (hread rfl).1, Option.bind_some, hneeds]
  | stored hs =>
    refine ⟨rfl, ?_⟩
    rw [hs]
    rfl
  | _ => cases hkept

end

/-! ## The lock agrees with the client -/

/-- Who holds the lock or waits for it needs it in that mode, the loop holds it wherever it keeps
it, and who has been admitted has a request to send. -/
structure Keeping (s : State) : Prop where
  serves : Serves s.lock (fun p => (s.phases p).holds) fun p => (s.phases p).waits
  needs : ∀ p m, (s.phases p).holds = some m ∨ (s.phases p).waits = some m →
    need s.client p = some m
  kept : s.client.loop.isUnlocked = false → (s.phases .loop).holds ≠ none
  sends : ∀ p, s.phases p = .admitted → Sends s.client p

theorem keeping_init : Keeping init where
  serves := FairLock.Serves.init
  needs p m h := by rcases h with h | h <;> cases h
  kept h := by cases h
  sends p h := by cases h

section

variable {s : State} {p q : Party} {m : Mode} {ph : Phase}

theorem setPhase_phases_self : (s.setPhase p ph).phases p = ph := Function.update_self ..

theorem setPhase_phases_of_ne (h : q ≠ p) : (s.setPhase p ph).phases q = s.phases q :=
  Function.update_of_ne h ..

theorem holds_setPhase : (fun q => ((s.setPhase p ph).phases q).holds) =
    Function.update (fun q => (s.phases q).holds) p ph.holds :=
  funext (Function.apply_update (fun _ => Phase.holds) s.phases p ph)

theorem waits_setPhase : (fun q => ((s.setPhase p ph).phases q).waits) =
    Function.update (fun q => (s.phases q).waits) p ph.waits :=
  funext (Function.apply_update (fun _ => Phase.waits) s.phases p ph)

theorem leave_phases : (s.leave p).phases = Function.update s.phases p .free := by
  rw [State.leave]
  split <;> rfl

theorem leave_serves
    (h : Serves s.lock (fun p => (s.phases p).holds) fun p => (s.phases p).waits)
    (hwaits : (s.phases p).waits = none) :
    Serves (s.leave p).lock (fun q => ((s.leave p).phases q).holds)
      fun q => ((s.leave p).phases q).waits := by
  have hphases : (s.leave p).phases = (s.setPhase p .free).phases := leave_phases
  have hstill : Function.update (fun q => (s.phases q).waits) p none =
      fun q => (s.phases q).waits := by
    rw [← hwaits]
    exact Function.update_eq_self ..
  rw [hphases, holds_setPhase, waits_setPhase]
  change Serves _ _ (Function.update _ p none)
  rw [hstill, State.leave]
  split
  · rename_i m hm
    exact h.release (by rw [hm]; rfl)
  · rename_i hm
    have hholds : Phase.free.holds = (s.phases p).holds := by
      cases hp : s.phases p with
      | holding m => exact absurd hp (hm m)
      | _ => rfl
    rw [hholds, Function.update_eq_self]
    exact h

end

namespace Keeping

variable {s : State} {p : Party} {m : Mode} {a : Lifecycle.Action}

/-- Who is ready for a step waits for no lock. -/
theorem waits_of_ready {u : Use} (h : s.Ready p u) : (s.phases p).waits = none := by
  cases hp : s.phases p with
  | waiting m =>
    cases u with
    | nothing => cases hp.symm.trans h
    | lock =>
      rw [State.Ready, hp] at h
      exact absurd rfl h
    | request => cases hp.symm.trans h
    | refusal => rcases h with ⟨h, -⟩ | ⟨h, -⟩ <;> cases hp.symm.trans h
  | _ => rfl

/-- A step that is nobody's. -/
theorem step_nobody (h : Keeping s) (hw : Lifecycle.Wired s.client)
    (ha : Lifecycle.Enabled s.client a) (hparty : party a = none) : Keeping (s.step a) := by
  have hstep : s.step a = { s with client := Lifecycle.next s.client a } := by
    rw [State.step, hparty]
  have hother : ∀ q, party a ≠ some q := fun q => by
    rw [hparty]
    rintro ⟨⟩
  rw [hstep]
  refine ⟨h.serves, fun q m hq => need_stays hw ha (hother q) (h.needs q m hq), fun hlocked => ?_,
    fun q hq => sends_stays hw ha (hother q) (h.sends q hq)⟩
  rw [loop_stays ha (hother .loop)] at hlocked
  exact h.kept hlocked

/-- The loop goes on under the lock. -/
theorem step_kept (h : Keeping s) (hw : Lifecycle.Wired s.client)
    (ha : Lifecycle.Enabled s.client a) (hready : s.Ready .loop (use s.client a))
    (hparty : party a = some .loop)
    (hkept : (Lifecycle.next s.client a).loop.isUnlocked = false) : Keeping (s.step a) := by
  have hstep : s.step a = { s with client := Lifecycle.next s.client a } := by
    rw [State.step, hparty]
    exact if_pos (by rw [keeps, hkept]; rfl)
  have hother : ∀ {q}, q ≠ .loop → party a ≠ some q := fun hq heq =>
    hq (Option.some.inj (heq.symm.trans hparty))
  obtain ⟨huse, hneed⟩ := critical_use ha hparty hkept
  rw [huse] at hready
  rw [hstep]
  refine ⟨h.serves, fun q m hq => ?_, fun _ => hready, fun q hq => ?_⟩
  · by_cases hloop : q = .loop
    · subst hloop
      exact hneed.trans (h.needs .loop m hq)
    · exact need_stays hw ha (hother hloop) (h.needs q m hq)
  · by_cases hloop : q = .loop
    · subst hloop
      exact (h.sends .loop hq).elim
    · exact sends_stays hw ha (hother hloop) (h.sends q hq)

/-- A party is done with the lock and with its request. -/
theorem step_left (h : Keeping s) (hw : Lifecycle.Wired s.client)
    (ha : Lifecycle.Enabled s.client a) (hready : s.Ready p (use s.client a))
    (hparty : party a = some p) (hdone : keeps (Lifecycle.next s.client a) p = false) :
    Keeping (s.step a) := by
  have hstep : s.step a = ({ s with client := Lifecycle.next s.client a } : State).leave p := by
    rw [State.step, hparty]
    exact if_neg (by rw [hdone]; exact Bool.false_ne_true)
  have hother : ∀ {q}, q ≠ p → party a ≠ some q := fun hq heq =>
    hq (Option.some.inj (heq.symm.trans hparty))
  have hfree : ∀ {q}, q = p → (s.step a).phases q = .free := by
    rintro q rfl
    rw [hstep, leave_phases, Function.update_self]
  have hsame : ∀ {q}, q ≠ p → (s.step a).phases q = s.phases q := fun hq => by
    rw [hstep, leave_phases, Function.update_of_ne hq]
  refine ⟨?_, fun q m hq => ?_, fun hlocked => ?_, fun q hq => ?_⟩
  · rw [hstep]
    exact leave_serves (s := { s with client := Lifecycle.next s.client a }) h.serves
      (waits_of_ready (s := s) hready)
  · by_cases hqp : q = p
    · rw [hfree hqp] at hq
      rcases hq with hq | hq <;> cases hq
    · rw [hsame hqp] at hq
      rw [State.step_client]
      exact need_stays hw ha (hother hqp) (h.needs q m hq)
  · rw [State.step_client] at hlocked
    have hne : Party.loop ≠ p := by
      rintro rfl
      rw [keeps, hlocked] at hdone
      cases hdone
    rw [hsame hne]
    rw [loop_stays ha (hother hne)] at hlocked
    exact h.kept hlocked
  · by_cases hqp : q = p
    · cases (hfree hqp).symm.trans hq
    · rw [hsame hqp] at hq
      rw [State.step_client]
      exact sends_stays hw ha (hother hqp) (h.sends q hq)

/-- A step of the lock, or the look at the token. -/
theorem move (h : Keeping s) {l : Lock Party} {ph : Phase} (hfree : (s.phases p).holds = none)
    (hserves : Serves l (Function.update (fun q => (s.phases q).holds) p ph.holds)
      (Function.update (fun q => (s.phases q).waits) p ph.waits))
    (hneeds : ∀ m, ph.holds = some m ∨ ph.waits = some m → need s.client p = some m)
    (hsends : ph = .admitted → Sends s.client p) :
    Keeping { s.setPhase p ph with lock := l } := by
  have hself : (s.setPhase p ph).phases p = ph := setPhase_phases_self
  refine ⟨?_, fun q m hq => ?_, fun hlocked => ?_, fun q hq => ?_⟩
  · change Serves l (fun q => ((s.setPhase p ph).phases q).holds) _
    rw [holds_setPhase]
    change Serves l _ (fun q => ((s.setPhase p ph).phases q).waits)
    rw [waits_setPhase]
    exact hserves
  · change ((s.setPhase p ph).phases q).holds = _ ∨ ((s.setPhase p ph).phases q).waits = _ at hq
    by_cases hqp : q = p
    · subst hqp
      rw [hself] at hq
      exact hneeds m hq
    · rw [setPhase_phases_of_ne hqp] at hq
      exact h.needs q m hq
  · have hne : Party.loop ≠ p := by
      rintro rfl
      exact h.kept hlocked hfree
    change ((s.setPhase p ph).phases .loop).holds ≠ none
    rw [setPhase_phases_of_ne hne]
    exact h.kept hlocked
  · change (s.setPhase p ph).phases q = _ at hq
    by_cases hqp : q = p
    · subst hqp
      rw [hself] at hq
      exact hsends hq
    · rw [setPhase_phases_of_ne hqp] at hq
      exact h.sends q hq

/-- **One step.** -/
theorem next (h : Keeping s) (hw : Lifecycle.Wired s.client) {b : Action} (hb : Enabled s b) :
    Keeping (Queueing.next s b) := by
  cases b with
  | step a =>
    obtain ⟨ha, hready⟩ := hb
    cases hparty : party a with
    | none => exact h.step_nobody hw ha hparty
    | some p =>
      have hready := hready p hparty
      cases hdone : keeps (Lifecycle.next s.client a) p with
      | false => exact h.step_left hw ha hready hparty hdone
      | true =>
        cases p with
        | loop =>
          refine h.step_kept hw ha hready hparty ?_
          rw [keeps] at hdone
          exact Bool.not_eq_true' _ ▸ hdone
        | _ => cases hdone
  | ask p m =>
    obtain ⟨hneed, hfree⟩ := hb
    have hholds : Phase.holds (.waiting m) = (s.phases p).holds := by rw [hfree]; rfl
    refine h.move (by rw [hfree]; rfl) ?_ (fun m' hm => ?_) Phase.noConfusion
    · rw [hholds, Function.update_eq_self]
      exact h.serves.enqueue (by rw [hfree]; rfl) m
    · rcases hm with hm | hm
      · cases hm
      · cases hm
        exact hneed
  | grant p m =>
    obtain ⟨hhead, hadmits⟩ := hb
    have hwaits : (s.phases p).waits = some m :=
      (h.serves.queue p m).mp (List.mem_of_mem_head? hhead)
    have hfree : (s.phases p).holds = none := by
      cases hp : s.phases p with
      | waiting m' => rfl
      | _ =>
        rw [hp] at hwaits
        cases hwaits
    refine h.move hfree (h.serves.grant hhead hadmits hfree) (fun m' hm => ?_) Phase.noConfusion
    rcases hm with hm | hm
    · cases hm
      exact h.needs p m (Or.inr hwaits)
    · cases hm
  | look p =>
    obtain ⟨hsends, hfree, -⟩ := hb
    have hholds : Phase.holds .admitted = (s.phases p).holds := by rw [hfree]; rfl
    have hwaits : Phase.waits .admitted = (s.phases p).waits := by rw [hfree]; rfl
    refine h.move (l := s.lock) (by rw [hfree]; rfl) ?_ (fun m hm => ?_) fun _ => hsends
    · rw [hholds, hwaits, Function.update_eq_self, Function.update_eq_self]
      exact h.serves
    · rcases hm with hm | hm <;> cases hm

end Keeping

theorem exec_keeping {as : List Action} (hv : system.Valid init as) :
    Keeping (system.exec init as) := by
  have hwired := Transition.System.along_of_reachable (S := system)
    (R := fun s => Lifecycle.Wired s.client)
    (fun past hpast => by
      obtain ⟨bs, hbs, hexec⟩ := exec_client hpast
      rw [hexec]
      exact Lifecycle.exec_wired hbs) hv
  exact Transition.System.invariant_along (fun _ _ h hw ha => h.next hw ha) keeping_init hwired hv

end Queueing

end TitanClient
