import TitanClient.Cancellation
import TitanClient.SlotBudget
import TitanClient.SlotWakeups

/-!
# The stream manager at rest

Left alone, the manager comes to rest after so many steps. No call is then left on its way: each has
returned, or waits with its request in the queue; and if there is one that waits, the limit is
reached. The slots that are taken are those of live handles in the hands of callers.

The first needs that no wake-up is lost on the way, the second that no cancellation has left a slot
behind; both conditions are about the steps taken, and each step of the manager alone meets the
second.

## Main results

* `Idle` — the manager can do nothing by itself
* `State.AtRest` — what that means for all that is on its way
* `timely_of_unchanged` — no wake-up is lost while the limit stays as it is
* `manager_settles` — the queue is served as far as the limit allows
* `slots_come_back` — what is taken is in somebody's hands
-/

namespace TitanClient

namespace Slots

/-- Nothing that has been begun can go on. -/
def Idle (s : State) : Prop := ∀ b, b.isInternal = true → ¬Enabled s b

/-! ## Starts that are looked after -/

/-- The start has come to its end, or goes on by itself. -/
def Start.isUnderway : Start → Bool
  | .none => false
  | .cancelled => false
  | _ => true

/-- Whoever runs a start finds it under way; whoever waits for a result has queued his request, and
takes it from the channel when it is there; and nobody waits for a slot while a permit is there. -/
structure Awaited (s : State) : Prop where
  caller : ∀ i c, s.calls i = .starting c → (s.claims c).start.isUnderway = true
  worker : ∀ w c i, s.workers w = .starting c i → (s.claims c).start.isUnderway = true
  listens : ∀ i, (s.calls i).listens = true → i ∈ s.pushed
  inbox : ∀ i, s.inbox i ≠ [] → (s.calls i).listens = true
  parked : ∀ w, s.workers w = .parked → s.permit = false

section

variable {s : State} {a : Action}

/-- A start under way stays so, unless the call that runs it is cancelled. -/
theorem underway_next (ha : Enabled s a) {c : ℕ} (hc : c < s.claimCount)
    (h : (s.claims c).start.isUnderway = true) (hcall : ∀ i, a ≠ .abandonStart i c) :
    ((next s a).claims c).start.isUnderway = true := by
  have hchange := claimChange ha c
  generalize (next s a).claims c = v at hchange
  cases hchange with
  | made hnew => exact absurd hc (by rw [hnew]; exact lt_irrefl _)
  | madeByWorker hnew => exact absurd hc (by rw [hnew]; exact lt_irrefl _)
  | denied => rfl
  | answered => rfl
  | registered => rfl
  | failed => rfl
  | startAbandoned => exact absurd rfl (hcall _)
  | _ => exact h

/-- The start of a new claim is about to send its request. -/
theorem underway_newClaim (s : State) (i current : ℕ) :
    ((s.newClaim i current).claims s.claimCount).start.isUnderway = true := by
  have hself : (s.newClaim i current).claims s.claimCount = { call := i, start := .sending } :=
    Function.update_self ..
  rw [hself]
  rfl

/-- A call that runs a start has not queued its request. -/
theorem not_pushed_of_starting (ht : Traced s) {i c : ℕ} (hi : s.calls i = .starting c) :
    i ∉ s.pushed := by
  intro hmem
  have hqueued := ht.queued i hmem
  rw [hi] at hqueued
  cases hqueued

theorem Awaited.next_caller (h : Awaited s) (ht : Traced s) (ha : Enabled s a) (i c : ℕ)
    (hi : (next s a).calls i = .starting c) : ((next s a).claims c).start.isUnderway = true := by
  have hc := callChange ha i
  generalize hp : (next s a).calls i = p at hi hc
  cases hc with
  | same =>
    obtain ⟨hlt, hcall⟩ := ht.caller i c hi
    refine underway_next ha hlt (h.caller i c hi) ?_
    rintro j rfl
    -- Only the call itself runs this start, and it is cancelled.
    obtain rfl : j = i := (ht.caller j c ha.1).2.symm.trans hcall
    have hgone : (next s (.abandonStart j c)).calls j = .cancelled := Function.update_self ..
    cases (hgone.symm.trans hp).trans hi
  | @claimed current hcl heq =>
    cases hi
    rw [next, if_pos heq]
    exact underway_newClaim s i current
  | _ => cases hi

theorem Awaited.next_worker (h : Awaited s) (ht : Traced s) (ha : Enabled s a) (w c i : ℕ)
    (hw : (next s a).workers w = .starting c i) :
    ((next s a).claims c).start.isUnderway = true := by
  by_cases hold : s.workers w = .starting c i
  · obtain ⟨hlt, hcall, hmem, -⟩ := ht.worker w c i hold
    refine underway_next ha hlt (h.worker w c i hold) ?_
    rintro j rfl
    obtain rfl : j = i := (ht.caller j c ha.1).2.symm.trans hcall
    exact not_pushed_of_starting ht ha.1 hmem
  · obtain ⟨current, rfl, heq, -, rfl⟩ := started_by_claim ha hw hold
    rw [next, if_pos heq]
    exact underway_newClaim s i current

theorem Awaited.next_listens (h : Awaited s) (ha : Enabled s a) (i : ℕ)
    (hi : ((next s a).calls i).listens = true) : i ∈ (next s a).pushed := by
  have hold : (s.calls i).listens = true → i ∈ (next s a).pushed :=
    fun hl => Traced.mem_pushed_next ha (h.listens i hl)
  have hc := callChange ha i
  generalize (next s a).calls i = p at hi hc
  cases hc with
  | same => exact hold hi
  | pushed hpushing => exact List.mem_append_right _ (List.mem_singleton.mpr rfl)
  | flagged hflagging => exact hold (by rw [hflagging]; rfl)
  | spawning hflagging => exact hold (by rw [hflagging]; rfl)
  | spawned hspawning => exact hold (by rw [hspawning]; rfl)
  | _ => cases hi

/-- Results are put into the channel of a call that listens. -/
theorem listens_of_delivered (ha : Enabled s a) {i : ℕ} (hempty : s.inbox i = [])
    (hi : (next s a).inbox i ≠ []) : ((next s a).calls i).listens = true := by
  have hcleared : ∀ j, Function.update s.inbox j [] i = [] := by
    intro j
    by_cases hij : i = j
    · subst hij
      exact Function.update_self ..
    · rw [Function.update_of_ne hij, hempty]
  have hc := booksChange ha
  have hi : (next s a).books.inbox i ≠ [] := hi
  generalize (next s a).books = b at hi hc
  cases hc with
  | @delivered w c j result hw hstart hlisten =>
    change Function.update s.inbox j (s.inbox j ++ [result]) i ≠ [] at hi
    by_cases hij : i = j
    · subst hij
      have hcalls : (next s (.deliver w c i result)).calls = s.calls :=
        (sameRoster_deliverNext s i result).1
      rwa [hcalls]
    · rw [Function.update_of_ne hij] at hi
      exact absurd hempty hi
  | received => exact absurd (hcleared _) hi
  | abandoned => exact absurd (hcleared _) hi
  | _ => exact absurd hempty hi

theorem Awaited.next_inbox (h : Awaited s) (hr : Roster s) (ha : Enabled s a) (i : ℕ)
    (hi : (next s a).inbox i ≠ []) : ((next s a).calls i).listens = true := by
  by_cases hempty : s.inbox i = []
  · exact listens_of_delivered ha hempty hi
  · have hlistens := h.inbox i hempty
    have hnot : ∀ {p : Caller}, s.calls i = p → p.listens = false → False := by
      rintro p rfl hp
      cases hlistens.symm.trans hp
    have hc := callChange ha i
    generalize (next s a).calls i = p at hc
    cases hc with
    | same => exact hlistens
    | entered hcount => exact (hnot (hr.calls i (le_of_eq hcount.symm)) rfl).elim
    | loadedMax hp => exact (hnot hp rfl).elim
    | below hp => exact (hnot hp rfl).elim
    | full hp => exact (hnot hp rfl).elim
    | claimed hp => exact (hnot hp rfl).elim
    | lost hp => exact (hnot hp rfl).elim
    | finished hp => exact (hnot hp rfl).elim
    | startAbandoned hp => exact (hnot hp rfl).elim
    | received hp hinbox =>
      refine absurd ?_ hi
      rw [next, hinbox]
      exact Function.update_self ..
    | waitAbandoned =>
      refine absurd ?_ hi
      rw [next, abandonWaitNext, foldl_dropResult_eq]
      exact Function.update_self ..
    | _ => rfl

theorem Awaited.next_parked (h : Awaited s) (hr : Roster s) (ha : Enabled s a) (w : ℕ)
    (hw : (next s a).workers w = .parked) : (next s a).permit = false := by
  have hc := workerChange ha w
  generalize hp : (next s a).workers w = p at hw hc
  cases hc with
  | same =>
    have hpermit := h.parked w hw
    have hg := gaugesChange ha
    change (next s a).gauges.permit = false
    generalize hgauges : (next s a).gauges = g at hg
    cases hg with
    | stored => exact absurd hw (ha.2 w (hr.lt_of_worker hw (by simp)))
    | consumed => rfl
    | _ => exact hpermit
  | parked hparking hpermit =>
    rw [next, if_neg (by rw [hpermit]; simp)]
    exact hpermit
  | rechecked _ hq => rcases hq with rfl | rfl <;> cases hw
  | reflagged _ hq => rcases hq with rfl | rfl <;> cases hw
  | _ => cases hw

theorem Awaited.next (h : Awaited s) (hr : Roster s) (ht : Traced s) (ha : Enabled s a) :
    Awaited (next s a) :=
  ⟨h.next_caller ht ha, h.next_worker ht ha, h.next_listens ha, h.next_inbox hr ha,
    h.next_parked hr ha⟩

end

theorem awaited_init (max : UInt32) : Awaited (init max) where
  caller _ _ hi := by cases hi
  worker _ _ _ hw := by cases hw
  listens _ hi := by cases hi
  inbox _ hi := absurd rfl hi
  parked _ _ := rfl

theorem exec_awaited {max : UInt32} {as : List Action} (hv : system.Valid (init max) as) :
    Awaited (system.exec (init max) as) :=
  Transition.System.invariant_along (C := fun u _ => Known u)
    (fun _ _ h hk ha => h.next hk.roster hk.traced ha) (awaited_init max)
    (Transition.System.along_of_reachable (fun _ hpast => exec_known hpast) hv) hv

/-! ## At rest -/

/-- Nothing is on its way. -/
structure State.AtRest (s : State) : Prop where
  calls : ∀ i, s.calls i = .idle ∨ (s.calls i).isOver = true ∨
    s.calls i = .waiting ∧ s.inbox i = []
  workers : ∀ w, s.workers w = .unborn ∨ s.workers w = .exited ∨ s.workers w = .parked
  handles : ∀ c, (s.claims c).handle ≠ .stopping ∧ (s.claims c).handle ≠ .dropping
  releases : ∀ r, (s.releases r).stage = .done
  notices : s.limitNotices = 0

section

variable {s : State}

/-- A release that is not done can go on; whoever it wakes, if anybody, is a worker that waits. -/
theorem Idle.releases (h : Idle s) (r : ℕ) : (s.releases r).stage = .done := by
  cases hr : (s.releases r).stage with
  | swapping => exact absurd hr (h (.swap r) rfl)
  | subtracting => exact absurd hr (h (.subtract r) rfl)
  | notifying =>
    by_cases hparked : ∃ w, s.workers w = .parked
    · obtain ⟨w, hw⟩ := hparked
      exact absurd ⟨hr, hw⟩ (h (.notify r (some w)) rfl)
    · exact absurd ⟨hr, fun w _ hw => hparked ⟨w, hw⟩⟩ (h (.notify r none) rfl)
  | done => rfl

/-- A start under way has come to its end. -/
theorem Idle.start (h : Idle s) {c : ℕ} (hc : (s.claims c).start.isUnderway = true) :
    ∃ result, (s.claims c).start = .done result := by
  cases hs : (s.claims c).start with
  | none =>
    rw [hs] at hc
    cases hc
  | sending => exact absurd hs (h (.respond c .noStream) rfl)
  | failing e r => exact absurd ⟨hs, h.releases r⟩ (h (.failStart c e r) rfl)
  | registering id => exact absurd hs (h (.register c id) rfl)
  | done result => exact ⟨result, rfl⟩
  | cancelled =>
    rw [hs] at hc
    cases hc

theorem Idle.calls (h : Idle s) (ht : Awaited s) (i : ℕ) :
    s.calls i = .idle ∨ (s.calls i).isOver = true ∨ s.calls i = .waiting ∧ s.inbox i = [] := by
  cases hi : s.calls i with
  | idle => exact Or.inl rfl
  | entered => exact absurd hi (h (.loadMax i) rfl)
  | loadedMax max => exact absurd hi (h (.loadCount i max) rfl)
  | claiming current => exact absurd hi (h (.claim i current) rfl)
  | starting c =>
    obtain ⟨result, hdone⟩ := h.start (ht.caller i c hi)
    exact absurd ⟨hi, hdone⟩ (h (.finish i c result) rfl)
  | pushing => exact absurd hi (h (.push i) rfl)
  | flagging => exact absurd hi (h (.flagWorker i) rfl)
  | spawning => exact absurd hi (h (.spawn i) rfl)
  | waiting =>
    by_cases hinbox : s.inbox i = []
    · exact Or.inr (Or.inr ⟨rfl, hinbox⟩)
    · exact absurd ⟨hi, hinbox⟩ (h (.receive i) rfl)
  | returned result => exact Or.inr (Or.inl rfl)
  | cancelled => exact Or.inr (Or.inl rfl)

theorem Idle.workers (h : Idle s) (ht : Awaited s) (w : ℕ) :
    s.workers w = .unborn ∨ s.workers w = .exited ∨ s.workers w = .parked := by
  cases hw : s.workers w with
  | unborn => exact Or.inl rfl
  | loading => exact absurd hw (h (.workerLoadMax w) rfl)
  | loadedMax max => exact absurd hw (h (.workerLoadCount w max) rfl)
  | parking => exact absurd hw (h (.park w) rfl)
  | parked => exact Or.inr (Or.inr rfl)
  | popping current => exact absurd hw (h (.pop w current) rfl)
  | idling => exact absurd hw (h (.idle w) rfl)
  | rechecking => exact absurd hw (h (.recheck w) rfl)
  | reflagging => exact absurd hw (h (.reflag w) rfl)
  | claiming i current => exact absurd hw (h (.workerClaim w i current) rfl)
  | requeueing i => exact absurd hw (h (.requeue w i) rfl)
  | starting c i =>
    obtain ⟨result, hdone⟩ := h.start (ht.worker w c i hw)
    exact absurd ⟨hw, hdone⟩ (h (.deliver w c i result) rfl)
  | exited => exact Or.inr (Or.inl rfl)

/-- **At rest nothing is on its way.** -/
theorem Idle.atRest (h : Idle s) (ht : Awaited s) : s.AtRest where
  calls := h.calls ht
  workers := h.workers ht
  handles c := ⟨h (.stopSent c) rfl, h (.dropSent c) rfl⟩
  releases := h.releases
  notices := Nat.eq_zero_of_not_pos (h .noticeMax rfl)

/-- At rest no worker has anything in its hands. -/
theorem State.AtRest.worker_away (h : s.AtRest) {w : ℕ} {p : Worker} (hw : s.workers w = p)
    (hunborn : p ≠ .unborn) (hexited : p ≠ .exited) : p = .parked := by
  rcases h.workers w with hw' | hw' | hw'
  · exact absurd (hw.symm.trans hw') hunborn
  · exact absurd (hw.symm.trans hw') hexited
  · exact hw.symm.trans hw'

/-- A call that waits at rest waits for its request to be taken from the queue. -/
theorem State.AtRest.queued (h : s.AtRest) (ht : Awaited s) (htr : Traced s)
    (hs : Handoff.Sound (handoff s)) {i : ℕ} (hi : s.calls i = .waiting)
    (hinbox : s.inbox i = []) : i ∈ s.queue := by
  have hpushed : i ∈ s.pushed := ht.listens i (by rw [hi]; rfl)
  rcases hs.ordered.mem_pushed.mp hpushed with hpopped | ⟨w, hw⟩ | hqueue
  · rcases htr.answered i hpopped with ⟨w, c, hw⟩ | ⟨result, -, hone | hret | hcancelled⟩
    · cases h.worker_away hw (by simp) (by simp)
    · cases hinbox.symm.trans hone
    · cases hi.symm.trans hret
    · cases hi.symm.trans hcancelled
  · obtain ⟨v, ⟨current, hv⟩ | hv⟩ := inHand_of_holding hw
    · cases h.worker_away hv (by simp) (by simp)
    · cases h.worker_away hv (by simp) (by simp)
  · exact hqueue

/-- With requests in the queue a worker waits for a slot. -/
theorem State.AtRest.attended (h : s.AtRest) (hs : Handoff.Sound (handoff s))
    (hqueue : s.queue ≠ []) : ∃ w, s.workers w = .parked := by
  rcases hs.attended hqueue with hactive | ⟨w, hw⟩ | ⟨i, hi⟩
  · obtain ⟨i | w, hx⟩ := hs.exclusive.active.mp hactive
    · have hspawning : s.calls i = .spawning := holdsFlag_iff.mpr hx
      rcases h.calls i with hi | hi | ⟨hi, -⟩
      · cases hspawning.symm.trans hi
      · rw [hspawning] at hi
        cases hi
      · cases hspawning.symm.trans hi
    · have hrunning : (s.workers w).isRunning = true := holdsFlag_iff.mpr hx
      rcases h.workers w with hw | hw | hw
      · rw [hw] at hrunning
        cases hrunning
      · rw [hw] at hrunning
        cases hrunning
      · exact ⟨w, hw⟩
  · have hleaving : (s.workers w).consumer.IsLeaving := hw
    rcases h.workers w with hw | hw | hw
    · rw [hw] at hleaving
      exact hleaving.elim
    · rw [hw] at hleaving
      exact hleaving.elim
    · rw [hw] at hleaving
      exact hleaving.elim
  · have hflagging : (s.calls i).producer = .flagging := hi
    rcases h.calls i with hi | hi | ⟨hi, -⟩
    · rw [hi] at hflagging
      cases hflagging
    · generalize s.calls i = p at hi hflagging
      cases p with
      | returned => cases hflagging
      | cancelled => cases hflagging
      | _ => cases hi
    · rw [hi] at hflagging
      cases hflagging

end

/-! ## A limit that stays as it is -/

/-- The step changes the limit. -/
def Action.setsMax : Action → Bool
  | .setMax _ => true
  | _ => false

/-- The limit is `m`, nobody is about to notify of another, and no worker has read another. -/
structure Unchanged (m : ℕ) (s : State) : Prop where
  max : s.maxConcurrent = m
  notices : s.limitNotices = 0
  loaded : ∀ w max, s.workers w = .loadedMax max → max = m

section

variable {s : State} {a : Action} {m : ℕ}

theorem Unchanged.next (h : Unchanged m s) (ha : Enabled s a) (hset : a.setsMax = false) :
    Unchanged m (Slots.next s a) := by
  have hgauges : (Slots.next s a).gauges.maxConcurrent = m ∧
      (Slots.next s a).gauges.limitNotices = 0 := by
    have hg := gaugesChange ha
    generalize (Slots.next s a).gauges = g at hg
    cases hg with
    | limited => cases hset
    | noticed => exact absurd h.notices (Nat.ne_of_gt ha)
    | _ => exact ⟨h.max, h.notices⟩
  refine ⟨hgauges.1, hgauges.2, fun w max hw => ?_⟩
  have hc := workerChange ha w
  generalize (Slots.next s a).workers w = p at hw hc
  cases hc with
  | same => exact h.loaded w max hw
  | loadedMax =>
    cases hw
    exact h.max
  | rechecked _ hp => rcases hp with rfl | rfl <;> cases hw
  | reflagged _ hp => rcases hp with rfl | rfl <;> cases hw
  | _ => cases hw

/-- A worker that finds the limit reached has read the limit that is in force. -/
theorem Unchanged.timely (h : Unchanged m s) (ha : Enabled s a) : Timely s a := by
  cases a with
  | workerLoadCount w max =>
    intro hfull
    have hmax : max = m := h.loaded w max ha
    exact Or.inr (Or.inr (Or.inr (h.max.trans_le (hmax ▸ hfull))))
  | noticeMax => exact absurd h.notices (Nat.ne_of_gt ha)
  | _ => trivial

end

theorem unchanged_init (max : UInt32) : Unchanged max.toNat (init max) where
  max := rfl
  notices := rfl
  loaded _ _ hw := by cases hw

theorem exec_unchanged {max : UInt32} {as : List Action} (hv : system.Valid (init max) as)
    (hset : ∀ a ∈ as, a.setsMax = false) : Unchanged max.toNat (system.exec (init max) as) :=
  Transition.System.invariant_along (fun _ _ h hset ha => h.next ha hset) (unchanged_init max)
    (Transition.System.along_of_forall_mem (C := fun a => Action.setsMax a = false) hset) hv

/-- **No wake-up is lost while the limit stays as it is.** -/
theorem timely_of_unchanged {max : UInt32} {as : List Action} (hv : system.Valid (init max) as)
    (hset : ∀ a ∈ as, a.setsMax = false) : system.Along Timely (init max) as :=
  Transition.System.along_of_invariant (I := Unchanged max.toNat)
    (fun _ _ h hset ha => h.next ha hset) (fun _ _ h _ ha => h.timely ha) (unchanged_init max)
    (Transition.System.along_of_forall_mem (C := fun a => Action.setsMax a = false) hset) hv

/-! ## Main results -/

/-- The queue has been served as far as the limit allows: a call in progress waits with its request
in the queue, and then every slot is taken. The counter is the number of slots taken. -/
structure State.Served (s : State) : Prop where
  calls : ∀ i, s.calls i = .idle ∨ (s.calls i).isOver = true ∨
    s.calls i = .waiting ∧ i ∈ s.queue
  full : s.queue ≠ [] → s.maxConcurrent ≤ s.activeCount ∧ ∃ w, s.workers w = .parked
  counter : s.activeCount = s.unreleased

theorem exec_alert {max : UInt32} {as : List Action} (hv : system.Valid (init max) as)
    (ht : system.Along Timely (init max) as) : (system.exec (init max) as).Alert := by
  have hsound := Transition.System.along_of_reachable (S := system)
    (R := fun s => Handoff.Sound (handoff s) ∧ Known s)
    (fun past hpast => ⟨exec_handoff hpast, exec_known hpast⟩) hv
  refine Transition.System.invariant_along (C := fun s a => Timely s a ∧
    Handoff.Sound (handoff s) ∧ Known s)
    (fun s a h hC ha => alert_next hC.2.1 (fun r hr => (hC.2.2.releases r hr).1) h hC.1 ha) ?_
    (ht.and hsound) hv
  rintro w (hw | hw) <;> cases hw

theorem exec_leakFree {max : UInt32} {as : List Action} (hv : system.Valid (init max) as)
    (hsafe : system.Along Safe (init max) as) : (system.exec (init max) as).LeakFree := by
  have hknown := Transition.System.along_of_reachable (S := system)
    (R := fun s => Known s ∧ Settled s)
    (fun past hpast => ⟨exec_known hpast, exec_settled hpast⟩) hv
  refine Transition.System.invariant_along (C := fun s a => Safe s a ∧ Known s ∧ Settled s)
    (fun s a h hC ha => leakFree_next hC.2.1 hC.2.2 h hC.1 ha) ?_ (hsafe.and hknown) hv
  exact fun c hc => absurd hc (Nat.not_lt_zero c)

/-- At rest no release is between its two steps. -/
theorem State.AtRest.counter {max : UInt32} {as : List Action}
    (h : (system.exec (init max) as).AtRest) (hv : system.Valid (init max) as) :
    (system.exec (init max) as).activeCount = (system.exec (init max) as).unreleased := by
  have htotal : (system.exec (init max) as).activeCount =
      (system.exec (init max) as).unreleased + (system.exec (init max) as).midRelease :=
    (balanced_run hv).total
  have hnone : (system.exec (init max) as).midRelease = 0 := by
    rw [State.midRelease, Nat.count_iff_forall_not]
    intro r _ hr
    cases (h.releases r).symm.trans hr
  rw [htotal, hnone, Nat.add_zero]

theorem State.AtRest.served {max : UInt32} {as : List Action}
    (h : (system.exec (init max) as).AtRest) (hv : system.Valid (init max) as)
    (ht : system.Along Timely (init max) as) : (system.exec (init max) as).Served where
  calls i := by
    rcases h.calls i with hi | hi | ⟨hi, hinbox⟩
    · exact Or.inl hi
    · exact Or.inr (Or.inl hi)
    · exact Or.inr (Or.inr ⟨hi, h.queued (exec_awaited hv) (exec_traced hv) (exec_handoff hv) hi
        hinbox⟩)
  full hqueue := by
    obtain ⟨w, hw⟩ := h.attended (exec_handoff hv) hqueue
    refine ⟨?_, w, hw⟩
    refine (exec_alert hv ht).sleepless w hw ((exec_awaited hv).parked w hw) (fun r => ?_) h.notices
    rw [h.releases r]
    simp
  counter := h.counter hv

/-- **The manager settles.** From every reachable state the work that has been begun comes to an end
within a number of steps that can be read off the state, whatever the order and whatever the
connection answers. If no wake-up was lost, every call then has its result, or the limit is reached
and its request is in the queue. -/
theorem manager_settles (max : UInt32) (as bs : List Action) (hv : system.Valid (init max) as)
    (hbs : system.Valid (system.exec (init max) as) bs) (hin : ∀ b ∈ bs, b.isInternal = true) :
    bs.length ≤ (system.exec (init max) as).patience ∧
      (Idle (system.exec (init max) (as ++ bs)) → system.Along Timely (init max) (as ++ bs) →
        (system.exec (init max) (as ++ bs)).Served) := by
  have hvalid : system.Valid (init max) (as ++ bs) :=
    (Transition.System.valid_append _).mpr ⟨hv, hbs⟩
  exact ⟨internal_length_le hv hbs hin, fun hidle =>
    (hidle.atRest (exec_awaited hvalid)).served hvalid⟩

/-- Where nothing costs anything any more, but for calls that wait, the manager is idle. -/
theorem idle_of_costs {s : State} (hk : Known s)
    (hcalls : ∀ i < s.callCount, (s.calls i).cost = 0 ∨ s.calls i = .waiting ∧ s.inbox i = [])
    (hworkers : ∀ w < s.workerCount, s.workers w = .exited ∨ s.workers w = .parked)
    (hclaims : ∀ c < s.claimCount, (s.claims c).cost = 0)
    (hreleases : ∀ r < s.releaseCount, (s.releases r).cost = 0) (hnotices : s.limitNotices = 0) :
    Idle s := by
  have hcall : ∀ {i : ℕ} {p : Caller}, s.calls i = p → p.cost ≠ 0 →
      p = .waiting ∧ s.inbox i = [] := by
    rintro i p rfl hcost
    refine (hcalls i (hk.roster.lt_of_call rfl fun hidle => hcost ?_)).resolve_left hcost
    rw [hidle]
    rfl
  have hworker : ∀ {w : ℕ} {p : Worker}, s.workers w = p → p ≠ .unborn →
      p = .exited ∨ p = .parked := by
    rintro w p rfl hne
    exact hworkers w (hk.roster.lt_of_worker rfl hne)
  have hstart : ∀ c, (s.claims c).start.cost = 0 := by
    intro c
    by_cases hc : c < s.claimCount
    · exact (Nat.add_eq_zero_iff.mp (hclaims c hc)).1
    · have hnone : (s.claims c).start = .none := by
        by_contra hne
        exact hc (hk.positions.born c (Or.inl hne))
      rw [hnone]
      rfl
  have hhandle : ∀ c, (s.claims c).handle.cost = 0 := by
    intro c
    by_cases hc : c < s.claimCount
    · exact (Nat.add_eq_zero_iff.mp (hclaims c hc)).2
    · have hnone : (s.claims c).handle = .none := by
        by_contra hne
        exact hc (hk.positions.born c (Or.inr hne))
      rw [hnone]
      rfl
  have hrelease : ∀ r, (s.releases r).stage = .done := by
    intro r
    by_contra hne
    have hcost : (s.releases r).stage.cost = 0 := hreleases r (hk.releases r hne).1
    generalize (s.releases r).stage = g at hne hcost
    cases g with
    | done => exact hne rfl
    | _ => cases hcost
  intro b hb ha
  cases b with
  | loadMax i => cases (hcall ha (by simp [Caller.cost])).1
  | loadCount i max => cases (hcall ha (by simp [Caller.cost])).1
  | claim i current => cases (hcall ha (by simp [Caller.cost])).1
  | push i => cases (hcall ha (by simp [Caller.cost])).1
  | flagWorker i => cases (hcall ha (by simp [Caller.cost])).1
  | spawn i => cases (hcall ha (by simp [Caller.cost])).1
  | finish i c result => cases (hcall ha.1 (by simp [Caller.cost])).1
  | receive i => exact ha.2 (hcall ha.1 (by simp [Caller.cost])).2
  | workerLoadMax w => rcases hworker ha (by simp) with hw | hw <;> cases hw
  | workerLoadCount w max => rcases hworker ha (by simp) with hw | hw <;> cases hw
  | park w => rcases hworker ha (by simp) with hw | hw <;> cases hw
  | pop w current => rcases hworker ha (by simp) with hw | hw <;> cases hw
  | idle w => rcases hworker ha (by simp) with hw | hw <;> cases hw
  | recheck w => rcases hworker ha (by simp) with hw | hw <;> cases hw
  | reflag w => rcases hworker ha (by simp) with hw | hw <;> cases hw
  | workerClaim w i current => rcases hworker ha (by simp) with hw | hw <;> cases hw
  | requeue w i => rcases hworker ha (by simp) with hw | hw <;> cases hw
  | deliver w c i result => rcases hworker ha.1 (by simp) with hw | hw <;> cases hw
  | respond c reply =>
    have hcost := hstart c
    rw [show (s.claims c).start = .sending from ha] at hcost
    cases hcost
  | register c id =>
    have hcost := hstart c
    rw [show (s.claims c).start = .registering id from ha] at hcost
    cases hcost
  | failStart c e r =>
    have hcost := hstart c
    rw [ha.1] at hcost
    cases hcost
  | swap r => cases (hrelease r).symm.trans ha
  | subtract r => cases (hrelease r).symm.trans ha
  | notify r woken =>
    cases woken with
    | none => cases (hrelease r).symm.trans ha.1
    | some w => cases (hrelease r).symm.trans ha.1
  | stopSent c =>
    have hcost := hhandle c
    rw [show (s.claims c).handle = .stopping from ha] at hcost
    cases hcost
  | stopReturn c r =>
    have hcost := hhandle c
    rw [ha.1] at hcost
    cases hcost
  | dropSent c =>
    have hcost := hhandle c
    rw [show (s.claims c).handle = .dropping from ha] at hcost
    cases hcost
  | noticeMax => exact absurd hnotices (Nat.ne_of_gt ha)
  | _ => cases hb

/-- The worker starts the queued request, and the first call gets its error. -/
def settling : List Action :=
  [.workerLoadCount 0 1, .pop 0 0, .workerClaim 0 1 0, .failStart 0 (.request "gone") 0,
    .finish 0 0 (.error (.request "gone")), .respond 1 (.stream 5), .register 1 5,
    .deliver 0 1 1 (.ok 1), .receive 1, .workerLoadMax 0, .workerLoadCount 0 1, .park 0]

set_option maxRecDepth 40000 in
theorem manager_settles_settling :
    settling.length ≤ (system.exec (init 1) wokenByRelease).patience ∧
      (system.exec (init 1) (wokenByRelease ++ settling)).Served := by
  have hv : system.Valid (init 1) (wokenByRelease ++ settling) := by decide +kernel
  have hparts := (Transition.System.valid_append system).mp hv
  have hidle := idle_of_costs (exec_known hv) (by decide +kernel) (by decide +kernel)
    (by decide +kernel) (by decide +kernel) (by decide +kernel)
  have hsettles := manager_settles 1 wokenByRelease settling hparts.1 hparts.2 (by decide)
  have htimely := timely_of_unchanged hv (by decide)
  exact ⟨hsettles.1, hsettles.2 hidle htimely⟩

/-- At rest no start has anybody who runs it. -/
theorem State.AtRest.not_started {s : State} (h : s.AtRest) (c : ℕ) : ¬s.StartedBySomebody c := by
  rintro (⟨i, hi⟩ | ⟨w, i, hw⟩)
  · rcases h.calls i with hi' | hi' | ⟨hi', -⟩
    · cases hi.symm.trans hi'
    · rw [hi] at hi'
      cases hi'
    · cases hi.symm.trans hi'
  · cases h.worker_away hw (by simp) (by simp)

/-- At rest every result has been taken. -/
theorem State.AtRest.inbox {s : State} (h : s.AtRest) (hw : Awaited s) (i : ℕ) :
    s.inbox i = [] := by
  by_contra hne
  have hlistens := hw.inbox i hne
  rcases h.calls i with hi | hi | ⟨-, hempty⟩
  · rw [hi] at hlistens
    cases hlistens
  · generalize s.calls i = p at hi hlistens
    cases p with
    | returned => cases hlistens
    | cancelled => cases hlistens
    | _ => cases hi
  · exact hne hempty

/-- At rest a slot that somebody will give back belongs to a live handle that its caller has. -/
theorem State.AtRest.live {s : State} (h : s.AtRest) (hw : Awaited s) {c : ℕ} (hc : s.Tended c) :
    (s.claims c).handle = .live ∧ ∃ i, s.calls i = .returned (.ok c) := by
  cases hc with
  | starting _ hby => exact absurd hby (h.not_started c)
  | live hlive ho =>
    rcases ho with hby | ⟨i, hi⟩ | hret
    · exact absurd hby (h.not_started c)
    · rw [h.inbox hw i] at hi
      cases hi
    · exact ⟨hlive, hret⟩
  | stopping hstopping => exact absurd hstopping (h.handles c).1
  | cleaning hcleaning => exact absurd hcleaning (h.handles c).2
  | @releasing r hr =>
    have hdone := h.releases r
    rw [hr] at hdone
    cases hdone

/-- **Slots come back.** If no cancellation has left one behind, each slot that is taken when the
manager is at rest belongs to a live handle that its caller has. Once the handles are gone, no slot
is taken; and if also no wake-up was lost and there are slots at all, no request is left waiting. -/
theorem slots_come_back (max : UInt32) (as : List Action) (hv : system.Valid (init max) as)
    (hidle : Idle (system.exec (init max) as)) (hsafe : system.Along Safe (init max) as) :
    let s := system.exec (init max) as
    (∀ c < s.claimCount, (s.claims c).released = false →
      (s.claims c).handle = .live ∧ ∃ i, s.calls i = .returned (.ok c)) ∧
    ((∀ c, (s.claims c).handle ≠ .live) → s.activeCount = 0 ∧
      (system.Along Timely (init max) as → 0 < s.maxConcurrent → s.queue = [] ∧
        ∀ i, s.calls i = .idle ∨ (s.calls i).isOver = true)) := by
  intro s
  have hrest : s.AtRest := hidle.atRest (exec_awaited hv)
  have hlive : ∀ c < s.claimCount, (s.claims c).released = false →
      (s.claims c).handle = .live ∧ ∃ i, s.calls i = .returned (.ok c) :=
    fun c hc hunreleased => hrest.live (exec_awaited hv) (exec_leakFree hv hsafe c hc hunreleased)
  refine ⟨hlive, fun hgone => ?_⟩
  have hzero : s.activeCount = 0 := by
    have hnone : s.unreleased = 0 := by
      rw [State.unreleased, Nat.count_iff_forall_not]
      exact fun c hc hunreleased => hgone c (hlive c hc hunreleased).1
    exact (hrest.counter hv).trans hnone
  refine ⟨hzero, fun htimely hmax => ?_⟩
  have hserved := hrest.served hv htimely
  have hqueue : s.queue = [] := by
    by_contra hne
    have hfull := (hserved.full hne).1
    exact absurd hmax (Nat.not_lt.mpr (hfull.trans (Nat.le_of_eq hzero)))
  refine ⟨hqueue, fun i => ?_⟩
  rcases hserved.calls i with hi | hi | ⟨-, hmem⟩
  · exact Or.inl hi
  · exact Or.inr hi
  · have hmem : i ∈ s.queue := hmem
    rw [hqueue] at hmem
    cases hmem

/-- The handle is dropped, and the worker that waits for its slot finds nothing to do. -/
def handedBack : List Action :=
  [.dropHandle 1 true, .dropSent 1, .swap 1, .subtract 1, .notify 1 (some 0), .workerLoadMax 0,
    .workerLoadCount 0 1, .pop 0 0, .idle 0, .recheck 0]

set_option maxRecDepth 40000 in
theorem slots_come_back_handedBack :
    (system.exec (init 1) (wokenByRelease ++ settling ++ handedBack)).activeCount = 0 ∧
      (system.exec (init 1) (wokenByRelease ++ settling ++ handedBack)).queue = [] := by
  have hv : system.Valid (init 1) (wokenByRelease ++ settling ++ handedBack) := by decide +kernel
  have hidle := idle_of_costs (exec_known hv) (by decide +kernel) (by decide +kernel)
    (by decide +kernel) (by decide +kernel) (by decide +kernel)
  have hsafe : system.Along Safe (init 1) (wokenByRelease ++ settling ++ handedBack) := by
    simp [wokenByRelease, settling, handedBack, Transition.System.Along, Safe]
  have htimely := timely_of_unchanged hv (by decide)
  have hgone : ∀ c, ((system.exec (init 1) (wokenByRelease ++ settling ++ handedBack)).claims
      c).handle ≠ .live := by
    intro c hlive
    have hnone : ∀ c < 2, ((system.exec (init 1) (wokenByRelease ++ settling ++
        handedBack)).claims c).handle ≠ .live := by decide +kernel
    exact hnone c ((exec_known hv).positions.lt_of_handle hlive (by simp)) hlive
  have hback := (slots_come_back 1 _ hv hidle hsafe).2 hgone
  exact ⟨hback.1, (hback.2 htimely (by decide +kernel)).1⟩

end Slots

end TitanClient
