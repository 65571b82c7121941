import TitanClient.Semaphore
import TitanClient.SlotRest

/-!
# The stream manager is a semaphore

What `StreamManager` is for: its slots are the tickets of a `Semaphore`. A claim is a ticket, held
until its guard `slot_released` is taken; who waits is who has pushed a request that has yet to be
started. Seen in that way each step of the manager is a step of the semaphore or none, and at rest,
if no wake-up was lost, somebody waits only when the limit in force is reached.

A ticket is held from the compare-and-swap on `active_count` to the one on the guard, so the tickets
that are held are at most what the counter says: the guard is taken before the `fetch_sub`.

## Main results

* `semaphore` — the semaphore that is seen in a state
* `semaphore_next` — each step is a step of it, or is not seen
* `manager_refines_semaphore` — the whole run
-/

namespace TitanClient

namespace Slots

/-- The claims whose guard has not been taken. -/
def Ledger.held (l : Ledger) : Finset ℕ :=
  (Finset.range l.claimCount).filter fun c => l.released c = false

theorem Ledger.mem_held {l : Ledger} {c : ℕ} :
    c ∈ l.held ↔ c < l.claimCount ∧ l.released c = false := by
  rw [held, Finset.mem_filter, Finset.mem_range]

theorem Ledger.card_held (l : Ledger) : l.held.card = l.unreleased :=
  (Nat.count_eq_card_filter_range ..).symm

/-- A new claim is one more. -/
theorem Ledger.held_claim (l : Ledger) : (l.next .claim).held = insert l.claimCount l.held := by
  ext c
  rw [mem_held, Finset.mem_insert, mem_held]
  change c < l.claimCount + 1 ∧ Function.update l.released l.claimCount false c = false ↔ _
  by_cases hc : c = l.claimCount
  · subst hc
    simp
  · rw [Function.update_of_ne hc]
    exact ⟨fun h => Or.inr ⟨by omega, h.2⟩,
      fun h => (h.resolve_left hc).imp_left Nat.lt_succ_of_lt⟩

/-- Who takes a guard gives the ticket back; who finds it taken does not. -/
theorem Ledger.held_swap (l : Ledger) (r : ℕ) :
    (l.next (.swap r)).held = l.held.erase (l.releases r).claim := by
  ext c
  rw [mem_held, Finset.mem_erase, mem_held, Ledger.next]
  by_cases htaken : l.released (l.releases r).claim = true
  · rw [if_pos htaken]
    change c < l.claimCount ∧ l.released c = false ↔ _
    refine ⟨fun h => ⟨fun hc => ?_, h⟩, And.right⟩
    rw [← hc, h.2] at htaken
    cases htaken
  · rw [if_neg htaken]
    change c < l.claimCount ∧ Function.update l.released _ true c = false ↔ _
    by_cases hc : c = (l.releases r).claim
    · subst hc
      simp
    · rw [Function.update_of_ne hc]
      exact ⟨fun h => ⟨hc, h⟩, And.right⟩

/-- The semaphore that is seen in a state of the manager. -/
def semaphore (s : State) : Semaphore.State ℕ where
  limits := s.limits
  waiting := s.pushed.drop s.popped.length
  admitted := s.starts
  held := (view s).held

section

variable {s : State} {a : Action}

theorem length_starts (s : State) : s.starts.length = s.claimCount := by
  rw [State.starts, List.length_map, List.length_range]

/-- A claim that succeeds was made below a limit, and so are the tickets that are held. -/
theorem hasRoom_semaphore (hb : (view s).Balanced) {limit : ℕ} (hlimit : limit ∈ s.limits)
    (hlt : s.activeCount < limit) : (semaphore s).HasRoom := by
  refine ⟨limit, hlimit, ?_⟩
  change (view s).held.card < limit
  rw [Ledger.card_held]
  have htotal : s.activeCount = (view s).unreleased + (view s).owed := hb.total
  omega

/-- A step that makes no claim and pushes no request leaves the queue as the semaphore sees it. -/
theorem books_next (ha : Enabled s a) :
    (next s a).pushed = s.pushed ∧ (next s a).popped = s.popped ∧
        (next s a).claimCount = s.claimCount ∨
      (∃ i, a = .push i) ∨ (∃ i, a = .claim i s.activeCount) ∨
        ∃ w i, a = .workerClaim w i s.activeCount := by
  have hc := booksChange ha
  change (next s a).books.pushed = _ ∧ (next s a).books.popped = _ ∧
    (next s a).books.claimCount = _ ∨ _
  generalize (next s a).books = b at hc
  cases hc with
  | @pushed i => exact Or.inr (Or.inl ⟨i, rfl⟩)
  | @claimed i current _ heq => exact Or.inr (Or.inr (Or.inl ⟨i, heq ▸ rfl⟩))
  | @started w i current _ heq => exact Or.inr (Or.inr (Or.inr ⟨w, i, heq ▸ rfl⟩))
  | _ => exact Or.inl ⟨rfl, rfl, rfl⟩

/-- The semaphore after a successful claim, but for the queue. -/
theorem starts_newClaim (i current : ℕ) : (s.newClaim i current).starts = s.starts ++ [i] := by
  rw [State.starts, State.starts]
  change (List.range (s.claimCount + 1)).map _ = _
  rw [List.range_succ, List.map_append]
  congr 1
  · refine List.map_congr_left fun c hc => ?_
    change (Function.update s.claims s.claimCount _ c).call = _
    rw [Function.update_of_ne (Nat.ne_of_lt (List.mem_range.mp hc))]
  · change [(Function.update s.claims s.claimCount _ s.claimCount).call] = _
    rw [Function.update_self]

/-- A successful claim hands out a ticket. -/
theorem semaphore_newClaim (i : ℕ) :
    semaphore (s.newClaim i s.activeCount) = (semaphore s).hand i := by
  have hheld : (view (s.newClaim i s.activeCount)).held =
      insert (semaphore s).admitted.length (view s).held := by
    change _ = insert s.starts.length (view s).held
    rw [view_newClaim rfl, Ledger.held_claim, length_starts]
    rfl
  rw [semaphore, starts_newClaim, hheld]
  rfl

/-- **Refinement.** Each step of the manager is a step of the semaphore, or is not seen. -/
theorem semaphore_next (hp : Positions s) (hb : (view s).Balanced)
    (ho : Handoff.Ordered (handoff s)) (ha : Enabled s a) :
    semaphore (next s a) = semaphore s ∨
      ∃ b, Semaphore.Enabled (semaphore s) b ∧
        semaphore (next s a) = Semaphore.next (semaphore s) b := by
  rcases books_next ha with ⟨hpushed, hpopped, hcount⟩ | ⟨i, rfl⟩ | ⟨i, rfl⟩ | ⟨w, i, rfl⟩
  · have hstarts : (next s a).starts = s.starts := by
      rcases starts_next ha with ⟨-, hstarts⟩ | ⟨hmore, -⟩
      · exact hstarts
      · omega
    have hkeep : ∀ l : Ledger, view (next s a) = l → semaphore (next s a) =
        { semaphore s with limits := l.limits, held := l.held } := by
      rintro l rfl
      rw [semaphore, hpushed, hpopped, hstarts]
      rfl
    rcases next_refines hp ha with hsame | ⟨e, he, hnext⟩
    · exact Or.inl (hkeep _ hsame)
    · rw [hkeep _ hnext]
      cases e with
      | claim =>
        have hclaims := congrArg Ledger.claimCount hnext
        change (next s a).claimCount = s.claimCount + 1 at hclaims
        omega
      | attempt c => exact Or.inl rfl
      | swap r =>
        have hlimits : ((view s).next (.swap r)).limits = s.limits := by
          rw [Ledger.next]
          split <;> rfl
        rw [hlimits, Ledger.held_swap]
        by_cases hmem : ((view s).releases r).claim ∈ (view s).held
        · exact Or.inr ⟨.leave _, hmem, rfl⟩
        · rw [Finset.erase_eq_of_notMem hmem]
          exact Or.inl rfl
      | subtract r => exact Or.inl rfl
      | close r => exact Or.inl rfl
      | limit max => exact Or.inr ⟨.setLimit max.toNat, trivial, rfl⟩
  · refine Or.inr ⟨.wait i, trivial, ?_⟩
    have hle : s.popped.length ≤ s.pushed.length := ho.served_prefix.length_le
    change Semaphore.State.mk _ ((s.pushed ++ [i]).drop s.popped.length) _ _ = _
    rw [List.drop_append_of_le_length hle]
    rfl
  · have hfits := hp.calls i
    rw [show s.calls i = .claiming s.activeCount from ha] at hfits
    obtain ⟨limit, hlimit, hlt⟩ := hfits
    refine Or.inr ⟨.enter i, hasRoom_semaphore hb hlimit hlt, ?_⟩
    rw [next, if_pos rfl, Semaphore.next, ← semaphore_newClaim]
    rfl
  · have hw : s.workers w = .claiming i s.activeCount := ha
    have hfits := hp.workers w
    rw [hw] at hfits
    obtain ⟨limit, hlimit, hlt⟩ := hfits
    have hqueue : s.pushed = s.popped ++ i :: s.queue := by
      refine ho.held w i ?_
      change (s.workers w).consumer = _
      rw [hw]
      rfl
    have hwaiting : (semaphore s).waiting = i :: s.queue := by
      change s.pushed.drop s.popped.length = _
      rw [hqueue, List.drop_left]
    refine Or.inr ⟨.serve i, ⟨by rw [hwaiting]; rfl, hasRoom_semaphore hb hlimit hlt⟩, ?_⟩
    have hrest : s.pushed.drop (s.popped ++ [i]).length = s.queue := by
      rw [hqueue, List.append_cons s.popped i s.queue, List.drop_left]
    rw [next, if_pos rfl, Semaphore.next, hwaiting, ← semaphore_newClaim, List.tail_cons, ← hrest]
    rfl

/-- At rest nobody has a request in hand: who waits is in the queue. -/
theorem State.AtRest.waiting (h : s.AtRest) (ho : Handoff.Ordered (handoff s)) :
    (semaphore s).waiting = s.queue := by
  have hfree : s.pushed = s.popped ++ s.queue := by
    refine ho.free fun w i hw => ?_
    change (s.workers w).consumer = _ at hw
    rcases h.workers w with hw' | hw' | hw' <;>
    · rw [hw'] at hw
      cases hw
  change s.pushed.drop s.popped.length = _
  rw [hfree, List.drop_left]

end

/-- **The stream manager is a semaphore.** Every run is a run of a semaphore: tickets are handed out
below a limit and in the order in which requests were queued, but for callers who find room at once,
and given back once. At rest, if no wake-up was lost, nobody waits while the limit in force is not
reached. -/
theorem manager_refines_semaphore (max : UInt32) (as : List Action)
    (hv : system.Valid (init max) as) :
    (∃ bs, Semaphore.system.Valid (Semaphore.init max.toNat) bs ∧
      Semaphore.system.exec (Semaphore.init max.toNat) bs =
        semaphore (system.exec (init max) as)) ∧
    Semaphore.Sound (semaphore (system.exec (init max) as)) ∧
    (Idle (system.exec (init max) as) → system.Along Timely (init max) as →
      (semaphore (system.exec (init max) as)).waiting ≠ [] →
        (system.exec (init max) as).maxConcurrent ≤
          (semaphore (system.exec (init max) as)).held.card) := by
  have hrefines : ∃ bs, Semaphore.system.Valid (Semaphore.init max.toNat) bs ∧
      Semaphore.system.exec (Semaphore.init max.toNat) bs =
        semaphore (system.exec (init max) as) := by
    change ∃ bs, Semaphore.system.Valid (semaphore (init max)) bs ∧
      Semaphore.system.exec (semaphore (init max)) bs = _
    refine Transition.System.refines (A := Semaphore.system)
      (I := fun u => ∃ past, system.Valid (init max) past ∧ system.exec (init max) past = u)
      ?_ ?_ ⟨[], trivial, rfl⟩ hv
    · rintro u a ⟨past, hpast, rfl⟩ ha
      exact ⟨past ++ [a], (Transition.System.valid_append _).mpr ⟨hpast, ha, trivial⟩,
        Transition.System.exec_append ..⟩
    · rintro u a ⟨past, hpast, rfl⟩ ha
      exact semaphore_next (Transition.System.invariant (fun _ _ h ha => h.next ha)
        (positions_init max) hpast) (balanced_run hpast) (exec_handoff hpast).ordered ha
  refine ⟨hrefines, ?_, fun hidle ht hwaiting => ?_⟩
  · obtain ⟨bs, hbs, hexec⟩ := hrefines
    rw [← hexec]
    exact Semaphore.exec_sound hbs
  · have hrest : (system.exec (init max) as).AtRest := hidle.atRest (exec_awaited hv)
    have hserved := hrest.served hv ht
    rw [hrest.waiting (exec_handoff hv).ordered] at hwaiting
    change _ ≤ (view (system.exec (init max) as)).held.card
    rw [Ledger.card_held]
    exact (hserved.full hwaiting).1.trans (Nat.le_of_eq hserved.counter)

/-- One call has the only slot, and the worker waits for it with the request of another. -/
def oneWaits : List Action :=
  [.call, .loadMax 0, .loadCount 0 1, .claim 0 0, .respond 0 (.stream 5), .register 0 5,
    .finish 0 0 (.ok 0), .call, .loadMax 1, .loadCount 1 1, .push 1, .flagWorker 1, .spawn 1,
    .workerLoadMax 0, .workerLoadCount 0 1, .park 0]

set_option maxRecDepth 20000 in
theorem manager_refines_semaphore_oneWaits :
    (∃ bs, Semaphore.system.Valid (Semaphore.init 1) bs ∧
      Semaphore.system.exec (Semaphore.init 1) bs =
        semaphore (system.exec (init 1) oneWaits)) ∧
    (semaphore (system.exec (init 1) oneWaits)).waiting = [1] ∧
    (system.exec (init 1) oneWaits).maxConcurrent ≤
      (semaphore (system.exec (init 1) oneWaits)).held.card := by
  have hv : system.Valid (init 1) oneWaits := by decide +kernel
  have hidle := idle_of_costs (exec_known hv) (by decide +kernel) (by decide +kernel)
    (by decide +kernel) (by decide +kernel) (by decide +kernel)
  have hwaiting : (semaphore (system.exec (init 1) oneWaits)).waiting = [1] := by decide +kernel
  obtain ⟨hrefines, -, hfull⟩ := manager_refines_semaphore 1 oneWaits hv
  exact ⟨hrefines, hwaiting, hfull hidle (timely_of_unchanged hv (by decide)) (by
    rw [hwaiting]
    exact List.cons_ne_nil 1 [])⟩

end Slots

end TitanClient
