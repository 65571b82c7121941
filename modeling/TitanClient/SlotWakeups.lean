import TitanClient.SlotAccounting
import TitanClient.SlotChanges

/-!
# Waking the queue worker

A worker that finds `active_count` at the limit waits for `slot_available`. A release notifies with
`notify_one`, which stores a permit when nobody waits; `set_max_concurrent` notifies with
`notify_waiters`, which wakes those that wait already and is lost on a worker that has read the old
limit and is yet to wait.

## Main results

* `State.Sleepless` — no worker sleeps through a free slot
* `Timely` — the steps after which none will
* `worker_sleepless` — runs of timely steps are sleepless, and no other step is safe
* `slept_through` — a limit raised between the check and the wait is slept through
-/

namespace TitanClient

namespace Slots

/-- Somebody will look at the counter again, or there is nothing to see: a permit is stored, a
release or a limit change has yet to notify, or there is no free slot. -/
def State.Covered (s : State) : Prop :=
  s.permit = true ∨ (∃ r, (s.releases r).stage = .notifying) ∨ 0 < s.limitNotices ∨
    s.maxConcurrent ≤ s.activeCount

/-- A worker that waits with no permit stored, and no release or limit change about to notify, waits
for good reason. -/
def State.Sleepless (s : State) : Prop :=
  ∀ w, s.workers w = .parked → s.permit = false →
    (∀ r, (s.releases r).stage ≠ .notifying) → s.limitNotices = 0 →
      s.maxConcurrent ≤ s.activeCount

/-- The step does not lose a wake-up. The worker decides to wait for the limit it has loaded; if
that has been raised since, a wake-up has to be on its way. And a limit change that notifies while
the worker is between this decision and its wait must not be the last to do so, unless there is no
free slot. -/
def Timely (s : State) : Action → Prop
  | .workerLoadCount _ max => max ≤ s.activeCount → s.Covered
  | .noticeMax => (∃ w, s.workers w = .parking) →
      s.permit = true ∨ (∃ r, (s.releases r).stage = .notifying) ∨ 1 < s.limitNotices ∨
        s.maxConcurrent ≤ s.activeCount
  | _ => True

/-! ## Gauges -/

/-- What a worker goes by, and what wakes it. -/
structure Gauges where
  maxConcurrent : ℕ
  activeCount : ℕ
  permit : Bool
  limitNotices : ℕ

/-- The gauges of a state. -/
def State.gauges (s : State) : Gauges :=
  ⟨s.maxConcurrent, s.activeCount, s.permit, s.limitNotices⟩

/-- All that a step can do to the gauges. -/
inductive GaugesChange (s : State) : Action → Gauges → Prop
  | same {a : Action} : GaugesChange s a s.gauges
  | claimed {a : Action} :
      GaugesChange s a { s.gauges with activeCount := s.activeCount + 1 }
  | subtracted {r : ℕ} (h : (s.releases r).stage = .subtracting) :
      GaugesChange s (.subtract r) { s.gauges with activeCount := wrapPred32 s.activeCount }
  | consumed {w : ℕ} : GaugesChange s (.park w) { s.gauges with permit := false }
  | stored {r : ℕ} : GaugesChange s (.notify r none) { s.gauges with permit := true }
  | limited {max : UInt32} :
      GaugesChange s (.setMax max)
        { s.gauges with maxConcurrent := max.toNat, limitNotices := s.limitNotices + 1 }
  | noticed : GaugesChange s .noticeMax { s.gauges with limitNotices := s.limitNotices - 1 }

section

variable {s : State} {a : Action}

/-- Each step changes the gauges in one of these ways, or not at all. -/
theorem gaugesChange (ha : Enabled s a) : GaugesChange s a (next s a).gauges := by
  cases a with
  | claim i current =>
    rw [next]
    split
    · rename_i heq
      subst heq
      exact .claimed
    · exact .same
  | flagWorker i =>
    rw [next]
    split <;> exact .same
  | receive i =>
    rw [next]
    split <;> exact .same
  | abandonWait i =>
    rw [next, abandonWaitNext, foldl_dropResult_eq]
    exact .same
  | park w =>
    rw [next]
    split
    · exact .consumed
    · exact .same
  | pop w current =>
    rw [next]
    split <;> exact .same
  | reflag w =>
    rw [next]
    split <;> exact .same
  | workerClaim w i current =>
    rw [next]
    split
    · rename_i heq
      subst heq
      exact .claimed
    · exact .same
  | deliver w c i result =>
    rw [next, deliverNext_eq]
    exact .same
  | respond c reply => cases reply <;> exact .same
  | swap r =>
    rw [next, swapNext]
    split <;> exact .same
  | subtract r => exact .subtracted ha
  | notify r woken =>
    cases woken with
    | none => exact .stored
    | some w => exact .same
  | stop c =>
    rw [next, stopNext]
    split <;> exact .same
  | dropHandle c runtime =>
    rw [next, State.dropHandle]
    split
    · split <;> exact .same
    · exact .same
    · exact .same
    · exact .same
  | setMax max => exact .limited
  | noticeMax => exact .noticed
  | _ => exact .same

/-! ## Who looks again -/

/-- A release that is about to notify does so in a step of its own. -/
theorem notifying_next (ha : Enabled s a) {r : ℕ} (hr : (s.releases r).stage = .notifying)
    (hknown : r < s.releaseCount) (hnot : ∀ woken, a ≠ .notify r woken) :
    ((next s a).releases r).stage = .notifying := by
  have hc := releaseChange ha r
  generalize (next s a).releases r = v at hc
  cases hc with
  | same => exact hr
  | begun hnew => exact absurd hknown (by rw [hnew]; exact lt_irrefl _)
  | lost h => cases h.symm.trans hr
  | taken h => cases h.symm.trans hr
  | subtracted => rfl
  | notified => exact absurd rfl (hnot _)

/-- Somebody will look again until a worker is woken, or takes the permit. -/
theorem covered_next (hk : ∀ r, (s.releases r).stage ≠ .done → r < s.releaseCount)
    (ha : Enabled s a) (h : s.Covered) (hpark : ∀ w, a ≠ .park w)
    (hnotify : ∀ r w, a ≠ .notify r (some w)) (hnotice : a ≠ .noticeMax) :
    (next s a).Covered := by
  have hg := gaugesChange ha
  change (next s a).gauges.permit = true ∨ _ ∨ 0 < (next s a).gauges.limitNotices ∨
    (next s a).gauges.maxConcurrent ≤ (next s a).gauges.activeCount
  generalize hgauges : (next s a).gauges = g at hg
  cases hg with
  | stored => exact Or.inl rfl
  | limited => exact Or.inr (Or.inr (Or.inl (Nat.succ_pos _)))
  | noticed => exact absurd rfl hnotice
  | consumed => exact absurd rfl (hpark _)
  | @subtracted r hr =>
    refine Or.inr (Or.inl ⟨r, ?_⟩)
    have hself : (next s (.subtract r)).releases r = { s.releases r with stage := .notifying } :=
      Function.update_self ..
    rw [hself]
  | _ =>
    rcases h with hpermit | ⟨r, hr⟩ | hnotices | hfull
    · exact Or.inl hpermit
    · by_cases hstored : ∃ q, a = .notify q none
      · obtain ⟨q, rfl⟩ := hstored
        exact Or.inl (congrArg Gauges.permit hgauges.symm)
      · refine Or.inr (Or.inl ⟨r, notifying_next ha hr (hk r (by rw [hr]; nofun)) ?_⟩)
        rintro woken rfl
        cases woken with
        | none => exact hstored ⟨r, rfl⟩
        | some w => exact hnotify r w rfl
    · exact Or.inr (Or.inr (Or.inl hnotices))
    · exact Or.inr (Or.inr (Or.inr (by simp only [State.gauges]; omega)))

end

/-! ## Waiting workers -/

/-- The worker has decided to wait, or waits. -/
def Worker.IsWaiting (p : Worker) : Prop := p = .parking ∨ p = .parked

/-- Whoever waits will be woken, or there is no free slot. -/
def State.Alert (s : State) : Prop := ∀ w, (s.workers w).IsWaiting → s.Covered

section

variable {s : State} {a : Action}

theorem Worker.IsWaiting.isRunning {p : Worker} (h : p.IsWaiting) : p.isRunning = true := by
  rcases h with rfl | rfl <;> rfl

/-- A notification of a limit change that is timely leaves the worker covered that is about to wait;
the others are woken. -/
theorem alert_notice {w : ℕ} (ht : Timely s .noticeMax)
    (hw : ((next s .noticeMax).workers w).IsWaiting) : (next s .noticeMax).Covered := by
  have hparking : s.workers w = .parking := by
    change (if s.workers w = .parked then Worker.loading else s.workers w).IsWaiting at hw
    split at hw
    · rcases hw with hw | hw <;> cases hw
    · exact hw.resolve_right ‹_›
  rcases ht ⟨w, hparking⟩ with hpermit | hnotifying | hnotices | hfull
  · exact Or.inl hpermit
  · exact Or.inr (Or.inl hnotifying)
  · have hleft : 0 < s.limitNotices - 1 := by omega
    exact Or.inr (Or.inr (Or.inl hleft))
  · exact Or.inr (Or.inr (Or.inr hfull))

theorem alert_next (hs : Handoff.Sound (handoff s))
    (hk : ∀ r, (s.releases r).stage ≠ .done → r < s.releaseCount) (h : s.Alert)
    (ht : Timely s a) (ha : Enabled s a) : (next s a).Alert := by
  intro w hw
  by_cases hnotice : a = .noticeMax
  · subst hnotice
    exact alert_notice ht hw
  have hc := workerChange ha w
  generalize hp : (next s a).workers w = p at hw hc
  cases hc with
  | same =>
    -- Whoever takes the permit or is woken would be this worker, and it would not wait any more.
    have hunique : ∀ {v}, (s.workers v).IsWaiting → v = w :=
      fun hv => running_unique hs hv.isRunning hw.isRunning
    refine covered_next hk ha (h w hw) ?_ ?_ hnotice
    · rintro v rfl
      obtain rfl := hunique (Or.inl ha)
      have hmoved : (next s (.park v)).workers v ≠ .parking := by
        rw [next]
        split
        · simp [State.setWorker]
        · simp [State.setWorker]
      exact hmoved (hp.trans ha)
    · rintro r v rfl
      obtain rfl := hunique (Or.inr ha.2)
      have hmoved : (next s (.notify r (some v))).workers v = .loading := Function.update_self ..
      cases hmoved.symm.trans (hp.trans ha.2)
  | full hload hle => exact covered_next hk ha (ht hle) (by simp) (by simp) hnotice
  | parked hload hpermit =>
    have hcovered := h w (Or.inl hload)
    rw [next, if_neg (by rw [hpermit]; simp)]
    exact hcovered
  | rechecked _ hq => rcases hq with rfl | rfl <;> rcases hw with hw | hw <;> cases hw
  | reflagged _ hq => rcases hq with rfl | rfl <;> rcases hw with hw | hw <;> cases hw
  | _ => rcases hw with hw | hw <;> cases hw

theorem State.Alert.sleepless (h : s.Alert) : s.Sleepless := by
  intro w hw hpermit hnotifying hnotices
  rcases h w (Or.inr hw) with hstored | ⟨r, hr⟩ | hleft | hfull
  · cases hpermit.symm.trans hstored
  · exact absurd hr (hnotifying r)
  · omega
  · exact hfull

/-- A step that is not timely leaves a worker behind that is about to fall asleep. -/
theorem asleep_of_not_timely (ha : Enabled s a) (ht : ¬Timely s a) :
    ∃ w, Enabled (next s a) (.park w) ∧ ¬(next (next s a) (.park w)).Sleepless := by
  -- It is enough to find a worker that is about to wait in a state where it would be asleep.
  have key : ∀ {u : State} {w : ℕ}, u.workers w = .parking → ¬u.Covered →
      ¬(next u (.park w)).Sleepless := by
    intro u w hw hnot hsleepless
    have hpermit : u.permit = false := Bool.eq_false_iff.mpr fun h => hnot (Or.inl h)
    have hnext : next u (.park w) = u.setWorker w .parked := by
      rw [next, if_neg (by rw [hpermit]; simp)]
    rw [hnext] at hsleepless
    refine hnot (Or.inr (Or.inr (Or.inr ?_)))
    refine hsleepless w (Function.update_self ..) hpermit (fun r hr => ?_) ?_
    · exact hnot (Or.inr (Or.inl ⟨r, hr⟩))
    · exact Nat.eq_zero_of_not_pos fun h => hnot (Or.inr (Or.inr (Or.inl h)))
  cases a with
  | workerLoadCount w max =>
    obtain ⟨hfull, hnot⟩ := Classical.not_imp.mp ht
    have hparking : (next s (.workerLoadCount w max)).workers w = .parking := by
      rw [next, if_neg (Nat.not_lt.mpr hfull)]
      exact Function.update_self ..
    exact ⟨w, hparking, key hparking hnot⟩
  | noticeMax =>
    obtain ⟨⟨w, hw⟩, hnot⟩ := Classical.not_imp.mp ht
    have hparking : (next s .noticeMax).workers w = .parking := by
      change (if s.workers w = .parked then Worker.loading else s.workers w) = .parking
      rw [if_neg (by rw [hw]; simp), hw]
    refine ⟨w, hparking, key hparking fun hcovered => hnot ?_⟩
    rcases hcovered with hpermit | hnotifying | hnotices | hfull
    · exact Or.inl hpermit
    · exact Or.inr (Or.inl hnotifying)
    · have hmore : 0 < s.limitNotices - 1 := hnotices
      exact Or.inr (Or.inr (Or.inl (by omega)))
    · exact Or.inr (Or.inr (Or.inr hfull))
  | _ => exact absurd trivial ht

end

/-- **The worker does not sleep through a free slot, as long as no wake-up is lost.** In every state
of a run whose steps are all timely, a worker that waits, with no permit stored and nobody about to
notify, waits because the limit is reached. A step that is not timely is followed, as soon as the
worker goes on, by a state in which it sleeps through a free slot. -/
theorem worker_sleepless (max : UInt32) (as : List Action) (hv : system.Valid (init max) as) :
    (system.Along Timely (init max) as → (system.exec (init max) as).Sleepless) ∧
      ∀ a, Enabled (system.exec (init max) as) a → ¬Timely (system.exec (init max) as) a →
        ∃ w, Enabled (next (system.exec (init max) as) a) (.park w) ∧
          ¬(next (next (system.exec (init max) as) a) (.park w)).Sleepless := by
  refine ⟨fun ht => State.Alert.sleepless ?_, fun a => asleep_of_not_timely⟩
  have hsound := Transition.System.along_of_reachable (S := system)
    (R := fun s => Handoff.Sound (handoff s) ∧
      ∀ r, (s.releases r).stage ≠ .done → r < s.releaseCount)
    (fun past hpast => ⟨exec_handoff hpast, fun r hr => ((balanced_run hpast).known r hr).1⟩) hv
  refine Transition.System.invariant_along (C := fun s a => Timely s a ∧
    Handoff.Sound (handoff s) ∧ ∀ r, (s.releases r).stage ≠ .done → r < s.releaseCount)
    (fun s a h hC ha => alert_next hC.2.1 hC.2.2 h hC.1 ha) ?_ (ht.and hsound) hv
  intro w hw
  rcases hw with hw | hw <;> cases hw

/-- One slot, which the first call has taken. The second call queues its request, and its worker
finds the counter at the limit; a release wakes it. -/
def wokenByRelease : List Action :=
  [.call, .loadMax 0, .loadCount 0 1, .claim 0 0, .call, .loadMax 1, .loadCount 1 1, .push 1,
    .flagWorker 1, .spawn 1, .workerLoadMax 0, .workerLoadCount 0 1, .respond 0 (.failed "gone"),
    .swap 0, .subtract 0, .park 0, .notify 0 (some 0), .workerLoadMax 0]

/-- A third call overtakes the woken worker and takes the slot, so that the worker waits again. -/
def overtaken : List Action :=
  wokenByRelease ++
    [.call, .loadMax 2, .loadCount 2 1, .claim 2 0, .workerLoadCount 0 1, .park 0]

set_option maxRecDepth 20000 in
theorem worker_sleepless_overtaken :
    (system.exec (init 1) overtaken).workers 0 = .parked ∧
      (system.exec (init 1) overtaken).permit = false ∧
      (system.exec (init 1) overtaken).Sleepless :=
  have hlimit : (1 : ℕ) ≤ 1 := le_refl 1
  have htimely : system.Along Timely (init 1) overtaken :=
    ⟨trivial, trivial, trivial, trivial, trivial, trivial, trivial, trivial, trivial, trivial,
      trivial, fun _ => Or.inr (Or.inr (Or.inr hlimit)), trivial, trivial, trivial, trivial,
      trivial, trivial, trivial, trivial, trivial, trivial,
      fun _ => Or.inr (Or.inr (Or.inr hlimit)), trivial, trivial⟩
  ⟨by decide, by decide, (worker_sleepless 1 overtaken (by decide)).1 htimely⟩

/-- The worker has found the counter at the limit of one, and then the limit is raised to two. The
notification comes before the worker waits. -/
def raisedLimit : List Action :=
  [.call, .loadMax 0, .loadCount 0 1, .claim 0 0, .call, .loadMax 1, .loadCount 1 1, .push 1,
    .flagWorker 1, .spawn 1, .workerLoadMax 0, .workerLoadCount 0 1, .setMax 2, .noticeMax, .park 0]

/-- **A raised limit is slept through.** The worker waits for a slot, nobody is about to wake it,
and only one of two slots is taken. -/
theorem slept_through :
    system.Valid (init 1) raisedLimit ∧ ¬(system.exec (init 1) raisedLimit).Sleepless := by
  refine ⟨by decide, fun h => ?_⟩
  have hnone : ∀ r, ((system.exec (init 1) raisedLimit).releases r).stage ≠ .notifying :=
    fun _ => (nofun : Stage.done ≠ .notifying)
  exact absurd (h 0 (by decide) (by decide) hnone (by decide)) (by decide)

end Slots

end TitanClient
