import TitanClient.SlotAccounting
import TitanClient.SlotOrder

/-!
# Cancelled calls

The future of a call can be dropped at any of its awaits, and with it the handle it owns. A slot is
not lost as long as somebody is left who will give it back: a start in progress, the owner of a live
handle, a `stop()` in progress, a cleanup task, or a release under way.

Of the functions of the API, `get_swap_price` is the one that starts a stream, reads from it and
stops it within one future. What `Safe` means for its caller is spelled out at the end: which of its
awaits may be cut off.

## Main results

* `State.Tended` — somebody is left who will give the slot of a claim back
* `Safe` — the cancellations that leave no slot behind
* `no_slot_leaks` — along safe runs every slot that is taken is tended, and no other cancellation is
  safe
* `swapPrice_cancel_safe` — the awaits at which `get_swap_price` can be cancelled: what `Safe`, the
  condition of `no_slot_leaks`, asks of its caller
* `cancelled_call_leaks` — the two ways to lose a slot
-/

namespace TitanClient

namespace Slots

/-! ## Who gives a slot back -/

/-- A start with this claim is in progress, or has yet to hand over its result. -/
def State.StartedBySomebody (s : State) (c : ℕ) : Prop :=
  (∃ i, s.calls i = .starting c) ∨ ∃ w i, s.workers w = .starting c i

/-- The handle of claim `c` is with the task that has started it, in a result channel, or with the
caller. -/
def State.Owned (s : State) (c : ℕ) : Prop :=
  s.StartedBySomebody c ∨ (∃ i, .ok c ∈ s.inbox i) ∨ ∃ i, s.calls i = .returned (.ok c)

/-- Somebody is left who will give the slot of claim `c` back. -/
inductive State.Tended (s : State) (c : ℕ) : Prop
  | starting (hstart : (s.claims c).start.isAwaiting = true) (h : s.StartedBySomebody c)
  | live (hlive : (s.claims c).handle = .live) (h : s.Owned c)
  | stopping (h : (s.claims c).handle = .stopping)
  | cleaning (h : (s.claims c).handle = .dropping)
  | releasing {r : ℕ} (h : s.releases r = ⟨c, .swapping⟩)

/-- No slot is lost: whoever has taken one and not given it back is tended. -/
def State.LeakFree (s : State) : Prop :=
  ∀ c < s.claimCount, (s.claims c).released = false → s.Tended c

/-- A cancellation that leaves no slot behind: none of a start that a call runs by itself, and none
of a `stop()`, unless the slot has been given back by then, or is about to be. -/
def Safe (s : State) : Action → Prop
  | .abandonStart _ _ => False
  | .abandonStop c => (s.claims c).released = true ∨ ∃ r, s.releases r = ⟨c, .swapping⟩
  | _ => True

/-! ## Starts and handles -/

/-- What is known of calls, claims and releases from the accounts of slots and of the queue. -/
structure Known (s : State) : Prop where
  roster : Roster s
  positions : Positions s
  traced : Traced s
  releases : ∀ r, (s.releases r).stage ≠ .done →
    r < s.releaseCount ∧ (s.releases r).claim < s.claimCount

theorem exec_known {max : UInt32} {as : List Action} (hv : system.Valid (init max) as) :
    Known (system.exec (init max) as) where
  roster := Transition.System.invariant (fun _ _ h ha => h.next ha) (roster_init max) hv
  positions := Transition.System.invariant (fun _ _ h ha => h.next ha) (positions_init max) hv
  traced := exec_traced hv
  releases := (balanced_run hv).known

/-- A claim has a handle only after its start, and nothing is released before. -/
structure Settled (s : State) : Prop where
  handle : ∀ c, (s.claims c).handle ≠ .none → (s.claims c).start = .done (.ok c)
  awaiting : ∀ c, (s.claims c).start.isAwaiting = true →
    (s.claims c).released = false ∧ ∀ r, (s.releases r).stage ≠ .done → (s.releases r).claim ≠ c

section

variable {s : State} {a : Action}

theorem Settled.handle_eq_none (h : Settled s) {c : ℕ}
    (hstart : (s.claims c).start.isAwaiting = true) : (s.claims c).handle = .none := by
  by_contra hhandle
  rw [h.handle c hhandle] at hstart
  cases hstart

theorem isAwaiting_of_eq {c : ℕ} {p : Start} (h : (s.claims c).start = p)
    (hp : p.isAwaiting = true) : (s.claims c).start.isAwaiting = true := by
  rw [h]
  exact hp

private theorem settled_handle (h : Settled s) (ha : Enabled s a) (c : ℕ)
    (hc : ((next s a).claims c).handle ≠ .none) :
    ((next s a).claims c).start = .done (.ok c) := by
  have hnone : ∀ {p : Start}, (s.claims c).start = p → p.isAwaiting = true →
      (s.claims c).handle = .none := fun hp hawait => h.handle_eq_none (isAwaiting_of_eq hp hawait)
  have hchange := claimChange ha c
  generalize (next s a).claims c = v at hc hchange
  cases hchange with
  | same => exact h.handle c hc
  | made => exact absurd rfl hc
  | madeByWorker => exact absurd rfl hc
  | denied hstart => exact absurd (hnone hstart rfl) hc
  | answered hstart => exact absurd (hnone hstart rfl) hc
  | registered => rfl
  | failed hstart =>
    have hdone := h.handle c hc
    cases hstart.symm.trans hdone
  | startAbandoned _ hstart => exact absurd (hnone rfl hstart) hc
  | swapped => exact h.handle c hc
  | subtracted => exact h.handle c hc
  | stopped hhandle => exact h.handle c (by rw [hhandle]; nofun)
  | stopSent hhandle => exact h.handle c (by rw [hhandle]; nofun)
  | stopReturned hhandle => exact h.handle c (by rw [hhandle]; nofun)
  | stopAbandoned hhandle => exact h.handle c (by rw [hhandle]; nofun)
  | dropped hhandle => exact h.handle c (by rw [hhandle]; nofun)
  | droppedOutside hhandle => exact h.handle c (by rw [hhandle]; nofun)
  | droppedAfter hhandle =>
    rcases hhandle with hhandle | hhandle
    · exact h.handle c (by rw [hhandle]; nofun)
    · exact h.handle c (by rw [hhandle]; nofun)
  | dropSent hhandle => exact h.handle c (by rw [hhandle]; nofun)
  | ended => exact h.handle c hc

/-- A release of a claim whose start is still in progress has not been begun in this step. -/
private theorem settled_releases (ha : Enabled s a) {c : ℕ}
    (hold : ∀ r, (s.releases r).stage ≠ .done → (s.releases r).claim ≠ c)
    (hnone : (s.claims c).handle = .none)
    (hstart : ((next s a).claims c).start.isAwaiting = true) (r : ℕ)
    (hr : ((next s a).releases r).stage ≠ .done) : ((next s a).releases r).claim ≠ c := by
  have hchange := releaseChange ha r
  generalize (next s a).releases r = v at hr hchange
  cases hchange with
  | same => exact hold r hr
  | @begun _ d hnew hd =>
    rintro rfl
    rcases hd with hover | hhandle
    · cases hover.symm.trans hstart
    · exact hhandle hnone
  | lost hstage => exact hold r (by rw [hstage]; nofun)
  | taken hstage => exact hold r (by rw [hstage]; nofun)
  | subtracted hstage => exact hold r (by rw [hstage]; nofun)
  | notified hstage => exact hold r (by rw [hstage]; nofun)

private theorem settled_awaiting (hk : Known s) (h : Settled s) (ha : Enabled s a) (c : ℕ)
    (hc : ((next s a).claims c).start.isAwaiting = true) :
    ((next s a).claims c).released = false ∧
      ∀ r, ((next s a).releases r).stage ≠ .done → ((next s a).releases r).claim ≠ c := by
  have hold : (s.claims c).start.isAwaiting = true →
      ((next s a).claims c).released = (s.claims c).released →
      ((next s a).claims c).released = false ∧
        ∀ r, ((next s a).releases r).stage ≠ .done → ((next s a).releases r).claim ≠ c := by
    intro hstart hsame
    obtain ⟨hreleased, hreleases⟩ := h.awaiting c hstart
    exact ⟨hsame.trans hreleased, settled_releases ha hreleases (h.handle_eq_none hstart) hc⟩
  have hnew : c = s.claimCount → ((next s a).claims c).released = false →
      ((next s a).claims c).released = false ∧
        ∀ r, ((next s a).releases r).stage ≠ .done → ((next s a).releases r).claim ≠ c := by
    intro hcount hreleased
    refine ⟨hreleased, settled_releases ha (fun r hr => ?_) ?_ hc⟩
    · rw [hcount]
      exact Nat.ne_of_lt (hk.releases r hr).2
    · by_contra hhandle
      exact absurd (hk.positions.born c (Or.inr hhandle)) (by rw [hcount]; exact lt_irrefl _)
  have hchange := claimChange ha c
  generalize hv : (next s a).claims c = v at hc hold hnew hchange
  cases hchange with
  | same => exact hold hc rfl
  | made hcount => exact hnew hcount rfl
  | madeByWorker hcount => exact hnew hcount rfl
  | denied => cases hc
  | answered hstart => exact hold (isAwaiting_of_eq hstart rfl) rfl
  | registered => cases hc
  | failed => cases hc
  | startAbandoned => cases hc
  | @swapped r hstage hclaim =>
    exact absurd hclaim ((h.awaiting c hc).2 r (by rw [hstage]; nofun))
  | subtracted => exact hold hc rfl
  | stopped => exact hold hc rfl
  | stopSent => exact hold hc rfl
  | stopReturned => exact hold hc rfl
  | stopAbandoned => exact hold hc rfl
  | dropped => exact hold hc rfl
  | droppedOutside => exact hold hc rfl
  | droppedAfter => exact hold hc rfl
  | dropSent => exact hold hc rfl
  | ended => exact hold hc rfl

theorem Settled.next (hk : Known s) (h : Settled s) (ha : Enabled s a) : Settled (next s a) where
  handle := settled_handle h ha
  awaiting := settled_awaiting hk h ha

/-! ## One step -/

/-- A slot guard that is taken stays taken. -/
theorem released_next (ha : Enabled s a) {c : ℕ} (hc : c < s.claimCount)
    (h : (s.claims c).released = true) : ((next s a).claims c).released = true := by
  have hchange := claimChange ha c
  generalize (next s a).claims c = v at hchange
  cases hchange with
  | made hnew => exact absurd hc (by rw [hnew]; exact lt_irrefl _)
  | madeByWorker hnew => exact absurd hc (by rw [hnew]; exact lt_irrefl _)
  | swapped => rfl
  | _ => exact h

/-- Who has begun a start stays with it while it is in progress, unless it is cancelled. -/
theorem startedBySomebody_next (hk : Known s) (ha : Enabled s a) (hsafe : Safe s a) {c : ℕ}
    (hstart : (s.claims c).start.isAwaiting = true) (h : s.StartedBySomebody c) :
    (next s a).StartedBySomebody c := by
  have hnot : ∀ {result : Result}, (s.claims c).start ≠ .done result := by
    intro result hdone
    rw [hdone] at hstart
    cases hstart
  rcases h with ⟨i, hi⟩ | ⟨w, i, hw⟩
  · rcases caller_starting_next hk.roster ha hi with hsame | rfl | ⟨result, hdone, -⟩
    · exact Or.inl ⟨i, hsame⟩
    · exact hsafe.elim
    · exact absurd hdone hnot
  · rcases starting_next hk.roster ha hw with hsame | ⟨result, -, hdone⟩
    · exact Or.inr ⟨w, i, hsame⟩
    · exact absurd hdone hnot

/-- A handle that is live after the step is with somebody then, if it was before. -/
theorem owned_next (hk : Known s) (ha : Enabled s a) {c : ℕ}
    (hstart : (s.claims c).start = .done (.ok c)) (h : s.Owned c)
    (hlive : ((next s a).claims c).handle = .live) : (next s a).Owned c := by
  have hdropped : ∀ v : Claim, v.drop.handle ≠ .live := by
    intro v
    rw [Claim.drop]
    split <;> simp_all
  rcases h with (⟨i, hi⟩ | ⟨w, i, hw⟩) | ⟨i, hi⟩ | ⟨i, hi⟩
  · rcases caller_starting_next hk.roster ha hi with hsame | rfl | ⟨result, hdone, hret⟩
    · exact Or.inl (Or.inl ⟨i, hsame⟩)
    · have hawait := ha.2
      rw [hstart] at hawait
      cases hawait
    · cases hstart.symm.trans hdone
      exact Or.inr (Or.inr ⟨i, hret⟩)
  · rcases starting_next hk.roster ha hw with hsame | ⟨result, rfl, hdone⟩
    · exact Or.inl (Or.inr ⟨w, i, hsame⟩)
    · cases hstart.symm.trans hdone
      right; left
      refine ⟨i, ?_⟩
      change .ok c ∈ (deliverNext s i (.ok c)).inbox i
      change ((deliverNext s i (.ok c)).claims c).handle = .live at hlive
      rw [deliverNext_eq] at hlive ⊢
      by_cases hlisten : (s.calls i).listens = true
      · simp [hlisten]
      · -- Nobody waits for the result, so the handle in it is dropped.
        simp only [Bool.eq_false_iff.mpr hlisten, true_and, if_true] at hlive
        exact absurd hlive (hdropped _)
  · have hc := inboxChange ha i
    generalize hb : (next s a).inbox i = results at hc
    cases hc with
    | same =>
      right; left
      exact ⟨i, hb ▸ hi⟩
    | delivered =>
      right; left
      exact ⟨i, hb ▸ List.mem_append_left _ hi⟩
    | received hcons =>
      right; right
      refine ⟨i, ?_⟩
      rcases hk.traced.inbox i with hnil | ⟨result, hone, -⟩
      · rw [hnil] at hi
        cases hi
      · rw [hone] at hi
        rw [next, hone, List.mem_singleton.mp hi]
        exact Function.update_self ..
    | abandoned =>
      rw [next, abandonWaitNext, foldl_dropResult_eq] at hlive
      have hdrop : (if Result.ok c ∈ s.inbox i then (s.claims c).drop else s.claims c).handle =
          .live := hlive
      rw [if_pos hi] at hdrop
      exact absurd hdrop (hdropped _)
  · have hover := (callChange ha i).isOver hk.roster (by rw [hi]; rfl)
    exact Or.inr (Or.inr ⟨i, hover.trans hi⟩)

/-- A release that is about to take the guard has taken it after this step, or is still about to. -/
theorem releasing_next (hk : Known s) (ha : Enabled s a) {c r : ℕ}
    (h : s.releases r = ⟨c, .swapping⟩) (hunreleased : ((next s a).claims c).released = false) :
    (next s a).releases r = ⟨c, .swapping⟩ := by
  have hstage : (s.releases r).stage = .swapping := congrArg Release.stage h
  obtain ⟨hr, hc⟩ := hk.releases r (by rw [hstage]; nofun)
  rw [h] at hc
  have hchange := releaseChange ha r
  generalize hv : (next s a).releases r = v at hchange
  cases hchange with
  | same => exact h
  | begun hnew => exact absurd hr (by rw [hnew]; exact lt_irrefl _)
  | lost _ hreleased =>
    rw [h] at hreleased
    cases hunreleased.symm.trans (released_next ha hc hreleased)
  | taken =>
    have hfree : (s.claims c).released = false := by
      by_contra hreleased
      rw [Bool.not_eq_false] at hreleased
      cases hunreleased.symm.trans (released_next ha hc hreleased)
    rw [next, swapNext, h] at hunreleased
    simp [hfree, State.setClaim, State.setStage] at hunreleased
  | subtracted hstage' => cases hstage.symm.trans hstage'
  | notified hstage' => cases hstage.symm.trans hstage'

/-- A start in progress goes on, fails and gives its slot back, or ends with a live handle. -/
private theorem starting_tended (hk : Known s) (ha : Enabled s a) (hsafe : Safe s a) {c : ℕ}
    (hc : c < s.claimCount) (hstart : (s.claims c).start.isAwaiting = true)
    (hby : s.StartedBySomebody c) (hunreleased : ((next s a).claims c).released = false) :
    (next s a).Tended c := by
  have hby' := startedBySomebody_next hk ha hsafe hstart hby
  have hsame : ((next s a).claims c).start = (s.claims c).start → (next s a).Tended c :=
    fun h => .starting (isAwaiting_of_eq h hstart) hby'
  have hchange := claimChange ha c
  generalize hv : (next s a).claims c = v at hunreleased hsame hchange
  cases hchange with
  | made hnew => exact absurd hc (by rw [hnew]; exact lt_irrefl _)
  | madeByWorker hnew => exact absurd hc (by rw [hnew]; exact lt_irrefl _)
  | @denied reply e =>
    cases reply with
    | failed text => exact .releasing (Function.update_self ..)
    | noStream => exact .releasing (Function.update_self ..)
    | stream id =>
      have hself : (next s (.respond c (.stream id))).claims c =
          { s.claims c with start := .registering id } := Function.update_self ..
      cases congrArg Claim.start (hself.symm.trans hv)
  | answered => exact .starting (by rw [hv]; rfl) hby'
  | registered => exact .live (by rw [hv]) (Or.inl hby')
  | failed hfailing =>
    rw [hfailing] at hstart
    cases hstart
  | startAbandoned => exact hsafe.elim
  | swapped => cases hunreleased
  | _ => exact hsame rfl

/-- A live handle stays with somebody, is stopped, or is dropped and cleaned up after. -/
private theorem live_tended (hk : Known s) (hs : Settled s) (ha : Enabled s a) {c : ℕ}
    (hlive : (s.claims c).handle = .live) (ho : s.Owned c)
    (hunreleased : ((next s a).claims c).released = false) : (next s a).Tended c := by
  have hstart := hs.handle c (by rw [hlive]; nofun)
  have hborn : c < s.claimCount := hk.positions.born c (Or.inr (by rw [hlive]; nofun))
  have hsame : ((next s a).claims c).handle = .live → (next s a).Tended c :=
    fun h => .live h (owned_next hk ha hstart ho h)
  have hchange := claimChange ha c
  generalize hv : (next s a).claims c = v at hunreleased hsame hchange
  cases hchange with
  | made hnew => exact absurd hborn (by rw [hnew]; exact lt_irrefl _)
  | madeByWorker hnew => exact absurd hborn (by rw [hnew]; exact lt_irrefl _)
  | registered => exact hsame rfl
  | swapped => cases hunreleased
  | stopped => exact .stopping (by rw [hv])
  | stopSent h => cases hlive.symm.trans h
  | stopReturned h => cases hlive.symm.trans h
  | stopAbandoned h => cases hlive.symm.trans h
  | dropped => exact .cleaning (by rw [hv])
  | droppedOutside =>
    refine .releasing (r := s.releaseCount) ?_
    rw [next, State.dropHandle, hlive]
    exact Function.update_self ..
  | droppedAfter h => rcases h with h | h <;> cases hlive.symm.trans h
  | dropSent h => cases hlive.symm.trans h
  | _ => exact hsame hlive

/-- A `stop()` in progress goes on to its release, unless it is cancelled. -/
private theorem stopping_tended (hk : Known s) (hs : Settled s) (ha : Enabled s a)
    (hsafe : Safe s a) {c : ℕ} (hstopping : (s.claims c).handle = .stopping)
    (hunreleased : ((next s a).claims c).released = false) : (next s a).Tended c := by
  have hborn : c < s.claimCount := hk.positions.born c (Or.inr (by rw [hstopping]; nofun))
  have hchange := claimChange ha c
  generalize hv : (next s a).claims c = v at hunreleased hchange
  cases hchange with
  | made hnew => exact absurd hborn (by rw [hnew]; exact lt_irrefl _)
  | madeByWorker hnew => exact absurd hborn (by rw [hnew]; exact lt_irrefl _)
  | registered h => cases (hs.handle c (by rw [hstopping]; nofun)).symm.trans h
  | stopped h => cases hstopping.symm.trans h
  | stopSent => exact .releasing (Function.update_self ..)
  | stopReturned h => cases hstopping.symm.trans h
  | stopAbandoned =>
    rcases hsafe with hreleased | ⟨r, hr⟩
    · cases hunreleased.symm.trans hreleased
    · exact .releasing hr
  | dropped h => cases hstopping.symm.trans h
  | droppedOutside h => cases hstopping.symm.trans h
  | droppedAfter h => rcases h with h | h <;> cases hstopping.symm.trans h
  | dropSent h => cases hstopping.symm.trans h
  | _ => exact .stopping (by rw [hv]; exact hstopping)

/-- A cleanup task goes on to its release. -/
private theorem cleaning_tended (hk : Known s) (hs : Settled s) (ha : Enabled s a) {c : ℕ}
    (hcleaning : (s.claims c).handle = .dropping) : (next s a).Tended c := by
  have hborn : c < s.claimCount := hk.positions.born c (Or.inr (by rw [hcleaning]; nofun))
  have hchange := claimChange ha c
  generalize hv : (next s a).claims c = v at hchange
  cases hchange with
  | made hnew => exact absurd hborn (by rw [hnew]; exact lt_irrefl _)
  | madeByWorker hnew => exact absurd hborn (by rw [hnew]; exact lt_irrefl _)
  | registered h => cases (hs.handle c (by rw [hcleaning]; nofun)).symm.trans h
  | stopped h => cases hcleaning.symm.trans h
  | stopSent h => cases hcleaning.symm.trans h
  | stopReturned h => cases hcleaning.symm.trans h
  | stopAbandoned h => cases hcleaning.symm.trans h
  | dropped h => cases hcleaning.symm.trans h
  | droppedOutside h => cases hcleaning.symm.trans h
  | droppedAfter h => rcases h with h | h <;> cases hcleaning.symm.trans h
  | dropSent => exact .releasing (Function.update_self ..)
  | _ => exact .cleaning (by rw [hv]; exact hcleaning)

/-- A slot that has just been taken is tended by the start it was taken for. -/
private theorem new_tended (ha : Enabled s a)
    (hcount : (next s a).claimCount = s.claimCount + 1) : (next s a).Tended s.claimCount := by
  have hnew : ∀ i current,
      ((s.newClaim i current).claims s.claimCount).start.isAwaiting = true := by
    intro i current
    have hself : (s.newClaim i current).claims s.claimCount = { call := i, start := .sending } :=
      Function.update_self ..
    rw [hself]
    rfl
  have hc := booksChange ha
  generalize hb : (next s a).books = b at hc
  have hcount' : b.claimCount = s.claimCount + 1 := by
    rw [← hb]
    exact hcount
  cases hc with
  | @claimed i current hi heq =>
    rw [next, if_pos heq]
    exact .starting (hnew i current) (Or.inl ⟨i, Function.update_self ..⟩)
  | @started w i current hw heq =>
    rw [next, if_pos heq]
    exact .starting (hnew i current) (Or.inr ⟨w, i, Function.update_self ..⟩)
  | _ => exact absurd hcount' (Nat.ne_of_lt (Nat.lt_succ_self _))

theorem leakFree_next (hk : Known s) (hs : Settled s) (h : s.LeakFree) (hsafe : Safe s a)
    (ha : Enabled s a) : (next s a).LeakFree := by
  have hold : ∀ c < s.claimCount, ((next s a).claims c).released = false →
      (next s a).Tended c := by
    intro c hc hunreleased
    have hbefore : (s.claims c).released = false := by
      by_contra hreleased
      rw [Bool.not_eq_false] at hreleased
      cases hunreleased.symm.trans (released_next ha hc hreleased)
    cases h c hc hbefore with
    | starting hstart hby => exact starting_tended hk ha hsafe hc hstart hby hunreleased
    | live hlive ho => exact live_tended hk hs ha hlive ho hunreleased
    | stopping hstopping => exact stopping_tended hk hs ha hsafe hstopping hunreleased
    | cleaning hcleaning => exact cleaning_tended hk hs ha hcleaning
    | releasing hr => exact .releasing (releasing_next hk ha hr hunreleased)
  intro c hc hunreleased
  rcases starts_next ha with ⟨hcount, -⟩ | ⟨hcount, -⟩
  · exact hold c (hcount ▸ hc) hunreleased
  · by_cases hlt : c < s.claimCount
    · exact hold c hlt hunreleased
    · obtain rfl : c = s.claimCount := by omega
      exact new_tended ha hcount

/-- A cancellation that is not safe leaves a slot behind that nobody will give back. -/
theorem leaks_of_not_safe (hk : Known s) (hs : Settled s) (ha : Enabled s a) (hsafe : ¬Safe s a) :
    ¬(next s a).LeakFree := by
  intro hfree
  cases a with
  | abandonStart i c =>
    obtain ⟨hi, hstart⟩ := ha
    obtain ⟨hreleased, hreleases⟩ := hs.awaiting c hstart
    have hself : (next s (.abandonStart i c)).claims c = { s.claims c with start := .cancelled } :=
      Function.update_self ..
    have hnone : ((next s (.abandonStart i c)).claims c).handle = .none := by
      rw [hself]
      exact hs.handle_eq_none hstart
    have hc : c < s.claimCount := (hk.traced.caller i c hi).1
    cases hfree c hc (by rw [hself]; exact hreleased) with
    | starting hawait =>
      rw [hself] at hawait
      cases hawait
    | live h => cases hnone.symm.trans h
    | stopping h => cases hnone.symm.trans h
    | cleaning h => cases hnone.symm.trans h
    | @releasing r h =>
      have hr : s.releases r = ⟨c, .swapping⟩ := h
      exact hreleases r (by rw [hr]; nofun) (by rw [hr])
  | abandonStop c =>
    have hstopping : (s.claims c).handle = .stopping := ha
    have hself : (next s (.abandonStop c)).claims c = { s.claims c with handle := .abandoned } :=
      Function.update_self ..
    have hreleased : (s.claims c).released = false :=
      Bool.eq_false_iff.mpr fun h => hsafe (Or.inl h)
    have hc : c < s.claimCount := hk.positions.born c (Or.inr (by rw [hstopping]; nofun))
    have hhandle : ((next s (.abandonStop c)).claims c).handle = .abandoned := by rw [hself]
    cases hfree c hc (by rw [hself]; exact hreleased) with
    | starting hawait =>
      have hdone := hs.handle c (by rw [hstopping]; nofun)
      have hstart : (s.claims c).start.isAwaiting = true := by
        rw [hself] at hawait
        exact hawait
      rw [hdone] at hstart
      cases hstart
    | live h => cases hhandle.symm.trans h
    | stopping h => cases hhandle.symm.trans h
    | cleaning h => cases hhandle.symm.trans h
    | @releasing r h => exact hsafe (Or.inr ⟨r, h⟩)
  | _ => exact hsafe trivial

end

/-! ## Runs -/

theorem settled_init (max : UInt32) : Settled (init max) where
  handle _ h := absurd rfl h
  awaiting _ h := by cases h

theorem exec_settled {max : UInt32} {as : List Action} (hv : system.Valid (init max) as) :
    Settled (system.exec (init max) as) :=
  Transition.System.invariant_along (fun _ _ h hk ha => h.next hk ha) (settled_init max)
    (Transition.System.along_of_reachable (fun _ hpast => exec_known hpast) hv) hv

/-- **Cancelling a call that waits in the queue, or drops its handle, leaks no slot.** In every
state of a run whose cancellations are all safe, each slot that is taken belongs to a start in
progress, to a live handle that somebody holds, to a `stop()` in progress, to a cleanup task, or to
a release under way. A cancellation that is not safe leaves a slot to nobody at once. -/
theorem no_slot_leaks (max : UInt32) (as : List Action) (hv : system.Valid (init max) as) :
    (system.Along Safe (init max) as → (system.exec (init max) as).LeakFree) ∧
      ∀ a, Enabled (system.exec (init max) as) a → ¬Safe (system.exec (init max) as) a →
        ¬(next (system.exec (init max) as) a).LeakFree := by
  refine ⟨fun hsafe => ?_, fun a => leaks_of_not_safe (exec_known hv) (exec_settled hv)⟩
  have hknown := Transition.System.along_of_reachable (S := system)
    (R := fun s => Known s ∧ Settled s)
    (fun past hpast => ⟨exec_known hpast, exec_settled hpast⟩) hv
  exact Transition.System.invariant_along
    (C := fun s a => Safe s a ∧ Known s ∧ Settled s)
    (fun s a h hC ha => leakFree_next hC.2.1 hC.2.2 h hC.1 ha) nofun (hsafe.and hknown) hv

/-- One call takes the only slot; another one waits in the queue and is cancelled. The slot goes to
the worker, whose stream has nobody to go to: its handle is dropped. -/
def cancelledWait : List Action :=
  [.call, .loadMax 0, .loadCount 0 1, .claim 0 0, .call, .loadMax 1, .loadCount 1 1, .push 1,
    .flagWorker 1, .spawn 1, .abandonWait 1, .respond 0 (.failed "gone"), .swap 0, .subtract 0,
    .notify 0 none, .workerLoadMax 0, .workerLoadCount 0 1, .pop 0 0, .workerClaim 0 1 0,
    .respond 1 (.stream 5), .register 1 5, .deliver 0 1 1 (.ok 1)]

set_option maxRecDepth 20000 in
theorem no_slot_leaks_cancelledWait :
    ((system.exec (init 1) cancelledWait).claims 1).handle = .dropping ∧
      (system.exec (init 1) cancelledWait).LeakFree := by
  have hsafe : system.Along Safe (init 1) cancelledWait := by
    simp [cancelledWait, Transition.System.Along, Safe]
  exact ⟨by decide, (no_slot_leaks 1 cancelledWait (by decide)).1 hsafe⟩

/-- Where a call of `get_swap_price` waits: in `request_stream`, for its own start or in the queue,
in `recv`, or in `stop()`. -/
inductive SwapPrice
  | starting (i c : ℕ)
  | waiting (i : ℕ)
  | receiving (c : ℕ)
  | stopping (c : ℕ)

/-- Dropping the future of `get_swap_price` drops the future it waits for, and then the handle it
owns. -/
def SwapPrice.cancel : SwapPrice → List Action
  | .starting i c => [.abandonStart i c]
  | .waiting i => [.abandonWait i]
  | .receiving c => [.dropHandle c true]
  | .stopping c => [.abandonStop c, .dropHandle c true]

/-- `get_swap_price` can be cancelled in the queue and in `recv`, and in `stop()` once the slot is
as good as given back. -/
theorem swapPrice_cancel_safe {s : State} {p : SwapPrice} :
    system.Along Safe s p.cancel ↔ (∃ i, p = .waiting i) ∨ (∃ c, p = .receiving c) ∨
      ∃ c, p = .stopping c ∧
        ((s.claims c).released = true ∨ ∃ r, s.releases r = ⟨c, .swapping⟩) := by
  cases p with
  | starting i c => simp [SwapPrice.cancel, Transition.System.Along, Safe]
  | waiting i => simp [SwapPrice.cancel, Transition.System.Along, Safe]
  | receiving c => simp [SwapPrice.cancel, Transition.System.Along, Safe]
  | stopping c => simp [SwapPrice.cancel, Transition.System.Along, Safe]

/-- A call is cancelled while its own start waits for the answer. -/
def cancelledStart : List Action :=
  [.call, .loadMax 0, .loadCount 0 1, .claim 0 0, .abandonStart 0 0]

/-- A `stop()` is cancelled while it waits for an answer; then the handle is dropped. -/
def cancelledStop : List Action :=
  [.call, .loadMax 0, .loadCount 0 1, .claim 0 0, .respond 0 (.stream 5), .register 0 5,
    .finish 0 0 (.ok 0), .stop 0, .abandonStop 0, .dropHandle 0 true]

theorem not_leakFree {s : State} {c : ℕ} (hc : c < s.claimCount)
    (hreleased : (s.claims c).released = false) (hstart : (s.claims c).start.isAwaiting = false)
    (hlive : (s.claims c).handle ≠ .live) (hstopping : (s.claims c).handle ≠ .stopping)
    (hcleaning : (s.claims c).handle ≠ .dropping)
    (hreleases : ∀ r, (s.releases r).stage ≠ .swapping) : ¬s.LeakFree := by
  intro hfree
  cases hfree c hc hreleased with
  | starting h => cases hstart.symm.trans h
  | live h => exact hlive h
  | stopping h => exact hstopping h
  | cleaning h => exact hcleaning h
  | releasing h => exact hreleases _ (congrArg Release.stage h)

/-- **Two ways to lose a slot.** The slot is taken, and nobody is left who would give it back. -/
theorem cancelled_call_leaks :
    (system.Valid (init 1) cancelledStart ∧ ¬(system.exec (init 1) cancelledStart).LeakFree) ∧
      system.Valid (init 1) cancelledStop ∧ ¬(system.exec (init 1) cancelledStop).LeakFree := by
  have hnone : ∀ r : ℕ, ((init 1).releases r).stage ≠ .swapping := fun _ => nofun
  refine ⟨⟨by decide, ?_⟩, by decide, ?_⟩
  · exact not_leakFree (c := 0) (by decide) (by decide) (by decide) (by decide) (by decide)
      (by decide) hnone
  · exact not_leakFree (c := 0) (by decide) (by decide) (by decide) (by decide) (by decide)
      (by decide) hnone

end Slots

end TitanClient
