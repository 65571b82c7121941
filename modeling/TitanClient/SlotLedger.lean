import TitanClient.Slots
import TitanClient.Tally
import TitanClient.Transition

/-!
# The slot ledger

What slot accounting is about, without the tasks that do it: a counter, the guards of the claims,
and attempts to give a slot back, each of which first tries to take the guard and, if it got it,
subtracts one from the counter later. A claim is only entered below some limit.

## Why a ledger

In `queue.rs` and `stream.rs` a slot is claimed in two places and given back in six, and the guard
and the counter are two atomics that nothing updates together. But each of these places does one of
six things to the two of them, and those are the entries of the ledger. `Slots` is the manager with
its calls, workers and handles; `SlotAccounting` shows that each of its steps makes at most one
entry here, so that what is shown of the ledger is shown of the manager.

An attempt is a number, and so is a claim. Both only grow: a claim keeps its guard for ever, and an
attempt that is over stays `done`.

## What is deliberately absent

* Who makes an attempt, and when. Any claim that has been entered can be attempted any number of
  times; that the guard lets only one through is the point.
* The limit in force. `limits` has every limit there has been, since a claim compares with the one
  it has loaded, which may be an old one.
* Cancelled calls: an attempt that nobody makes is no entry.

The counter is an `AtomicU32`, so subtracting is `wrapPred32`. `Balanced` is what keeps it from
wrapping.

## Main results

* `Balanced` — the counter is the number of open claims plus the number of subtractions still owed
* `balanced_exec` — it is so along every run
-/

namespace TitanClient

namespace Slots

/-- The part of the state that slot accounting is about. -/
structure Ledger where
  activeCount : ℕ
  released : ℕ → Bool
  givenBack : ℕ → ℕ
  claimCount : ℕ
  releases : ℕ → Release
  releaseCount : ℕ
  limits : List ℕ

namespace Ledger

/-- The entries of the ledger. -/
inductive Entry
  | claim
  | attempt (c : ℕ)
  | swap (r : ℕ)
  | subtract (r : ℕ)
  | close (r : ℕ)
  | limit (max : UInt32)

/-- When an entry can be made. -/
def Enabled (l : Ledger) : Entry → Prop
  | .claim => ∃ m ∈ l.limits, l.activeCount < m
  | .attempt c => c < l.claimCount
  | .swap r => (l.releases r).stage = .swapping
  | .subtract r => (l.releases r).stage = .subtracting
  | .close r => (l.releases r).stage = .notifying
  | .limit _ => True

/-- Move a release to another stage. -/
def setStage (l : Ledger) (r : ℕ) (g : Stage) : Ledger :=
  { l with releases := Function.update l.releases r { l.releases r with stage := g } }

theorem releases_setStage_self (l : Ledger) (r : ℕ) (g : Stage) :
    (l.setStage r g).releases r = { l.releases r with stage := g } := Function.update_self ..

theorem releases_setStage_of_ne (l : Ledger) {r k : ℕ} (g : Stage) (h : k ≠ r) :
    (l.setStage r g).releases k = l.releases k := Function.update_of_ne h ..

/-- The ledger after an entry. -/
def next (l : Ledger) : Entry → Ledger
  | .claim =>
    { l with
      activeCount := l.activeCount + 1
      released := Function.update l.released l.claimCount false
      givenBack := Function.update l.givenBack l.claimCount 0
      claimCount := l.claimCount + 1 }
  | .attempt c =>
    { l with
      releases := Function.update l.releases l.releaseCount ⟨c, .swapping⟩
      releaseCount := l.releaseCount + 1 }
  | .swap r =>
    let c := (l.releases r).claim
    if l.released c then l.setStage r .done
    else { l.setStage r .subtracting with released := Function.update l.released c true }
  | .subtract r =>
    let c := (l.releases r).claim
    { l.setStage r .notifying with
      activeCount := wrapPred32 l.activeCount
      givenBack := Function.update l.givenBack c (l.givenBack c + 1) }
  | .close r => l.setStage r .done
  | .limit max => { l with limits := l.limits ++ [max.toNat] }

/-- The ledger as a system. -/
def system : Transition.System Ledger Entry := ⟨Enabled, next⟩

variable (l : Ledger)

/-- The number of claims whose guard has not been taken. -/
def unreleased : ℕ := Nat.count (fun c => l.released c = false) l.claimCount

/-- Release `r` has taken the guard of its claim and has yet to subtract. -/
def Owes (r : ℕ) : Prop := (l.releases r).stage = .subtracting

instance : DecidablePred l.Owes := fun _ => inferInstanceAs (Decidable (_ = _))

/-- The number of subtractions still owed. -/
def owed : ℕ := Nat.count l.Owes l.releaseCount

/-- Release `r` owes a subtraction for claim `c`. -/
def OwesFor (c r : ℕ) : Prop := l.Owes r ∧ (l.releases r).claim = c

instance (c : ℕ) : DecidablePred (l.OwesFor c) := fun _ => inferInstanceAs (Decidable (_ ∧ _))

/-- The number of subtractions still owed for claim `c`. -/
def owedFor (c : ℕ) : ℕ := Nat.count (l.OwesFor c) l.releaseCount

/-- The books are in order. -/
structure Balanced : Prop where
  total : l.activeCount = l.unreleased + l.owed
  each : ∀ c < l.claimCount, l.givenBack c + l.owedFor c = (l.released c).toNat
  bounded : ∃ m ∈ l.limits, l.activeCount ≤ m
  limits : ∀ m ∈ l.limits, m < 2 ^ 32
  known : ∀ r, (l.releases r).stage ≠ .done →
    r < l.releaseCount ∧ (l.releases r).claim < l.claimCount

variable {l}

/-- Moving a release that owes nothing to a stage where it owes nothing. -/
theorem owes_setStage {r : ℕ} {g : Stage} (hr : ¬l.Owes r) (hg : g ≠ .subtracting) (k : ℕ) :
    (l.setStage r g).Owes k ↔ l.Owes k := by
  by_cases hk : k = r
  · subst hk
    refine ⟨fun h => absurd ?_ hg, fun h => absurd h hr⟩
    rwa [Owes, releases_setStage_self] at h
  · rw [Owes, Owes, releases_setStage_of_ne l g hk]

theorem claim_setStage {r : ℕ} {g : Stage} (k : ℕ) :
    ((l.setStage r g).releases k).claim = (l.releases k).claim := by
  by_cases hk : k = r
  · subst hk
    rw [releases_setStage_self]
  · rw [releases_setStage_of_ne l g hk]

theorem known_setStage {r : ℕ} {g : Stage} (h : Balanced l) (hr : (l.releases r).stage ≠ .done)
    (k : ℕ) (hk : ((l.setStage r g).releases k).stage ≠ .done) :
    k < l.releaseCount ∧ ((l.setStage r g).releases k).claim < l.claimCount := by
  rw [claim_setStage]
  by_cases hkr : k = r
  · rw [hkr]
    exact h.known r hr
  · rw [releases_setStage_of_ne l g hkr] at hk
    exact h.known k hk

/-- A release ends without having taken a guard, or after its subtraction. -/
theorem Balanced.setStage {r : ℕ} {g : Stage} (h : Balanced l)
    (hr : (l.releases r).stage ≠ .done) (howes : ¬l.Owes r) (hg : g ≠ .subtracting) :
    Balanced (l.setStage r g) where
  total := by
    rw [show (l.setStage r g).owed = l.owed from
      Tally.count_congr fun k _ => owes_setStage howes hg k]
    exact h.total
  each c hc := by
    rw [show (l.setStage r g).owedFor c = l.owedFor c from
      Tally.count_congr fun k _ => by
        rw [OwesFor, OwesFor, owes_setStage howes hg, claim_setStage]]
    exact h.each c hc
  bounded := h.bounded
  limits := h.limits
  known := known_setStage h hr

theorem Balanced.claim (h : Balanced l) (hlt : ∃ m ∈ l.limits, l.activeCount < m) :
    Balanced (l.next .claim) where
  total := by
    have hnew : (l.next .claim).unreleased = l.unreleased + 1 := by
      rw [unreleased, unreleased]
      change Nat.count (fun c => Function.update l.released l.claimCount false c = false)
        (l.claimCount + 1) = _
      rw [Nat.count_succ, if_pos (Function.update_self ..)]
      refine congrArg (· + 1) (Tally.count_congr fun k hk => ?_)
      rw [Function.update_of_ne (Nat.ne_of_lt hk)]
    rw [hnew]
    change l.activeCount + 1 = l.unreleased + 1 + l.owed
    rw [h.total]
    omega
  each c hc := by
    have hc : c < l.claimCount + 1 := hc
    change Function.update l.givenBack l.claimCount 0 c + l.owedFor c =
      (Function.update l.released l.claimCount false c).toNat
    by_cases hcc : c = l.claimCount
    · -- nobody has a release for a claim that is not there yet
      have hzero : l.owedFor c = 0 := by
        rw [owedFor, Nat.count_iff_forall_not]
        rintro r - ⟨howes, hclaim⟩
        have := (h.known r (by rw [howes]; decide)).2
        omega
      rw [hzero, hcc, Function.update_self, Function.update_self]
      rfl
    · rw [Function.update_of_ne hcc, Function.update_of_ne hcc]
      exact h.each c (by omega)
  bounded := hlt
  limits := h.limits
  known r hr := ⟨(h.known r hr).1, Nat.lt_succ_of_lt (h.known r hr).2⟩

theorem Balanced.attempt {c : ℕ} (h : Balanced l) (hc : c < l.claimCount) :
    Balanced (l.next (.attempt c)) := by
  have hself : ((l.next (.attempt c)).releases l.releaseCount) = ⟨c, .swapping⟩ :=
    Function.update_self ..
  have hne : ∀ k, k ≠ l.releaseCount → (l.next (.attempt c)).releases k = l.releases k :=
    fun k hk => Function.update_of_ne hk ..
  have howes : ∀ k < l.releaseCount, (l.next (.attempt c)).Owes k ↔ l.Owes k := by
    intro k hk
    rw [Owes, Owes, hne k (Nat.ne_of_lt hk)]
  have hnew : ¬(l.next (.attempt c)).Owes l.releaseCount := by
    rw [Owes, hself]
    exact Stage.noConfusion
  refine ⟨?_, fun d hd => ?_, h.bounded, h.limits, fun r hr => ?_⟩
  · have : (l.next (.attempt c)).owed = l.owed := by
      change Nat.count _ (l.releaseCount + 1) = _
      rw [Nat.count_succ, if_neg hnew]
      exact Tally.count_congr howes
    rw [this]
    exact h.total
  · have : (l.next (.attempt c)).owedFor d = l.owedFor d := by
      change Nat.count _ (l.releaseCount + 1) = _
      rw [Nat.count_succ, if_neg fun h => hnew h.1]
      refine Tally.count_congr fun k hk => ?_
      rw [OwesFor, OwesFor, howes k hk, hne k (Nat.ne_of_lt hk)]
    rw [this]
    exact h.each d hd
  · by_cases hrc : r = l.releaseCount
    · subst hrc
      rw [hself]
      exact ⟨Nat.lt_succ_self _, hc⟩
    · rw [hne r hrc] at hr ⊢
      exact ⟨Nat.lt_succ_of_lt (h.known r hr).1, (h.known r hr).2⟩

/-- The guard is taken: an open claim becomes a subtraction owed. -/
theorem Balanced.take {r : ℕ} (h : Balanced l) (hr : (l.releases r).stage = .swapping)
    (hfree : l.released (l.releases r).claim = false) :
    Balanced { l.setStage r .subtracting with
      released := Function.update l.released (l.releases r).claim true } := by
  obtain ⟨hrlt, hclt⟩ := h.known r (by rw [hr]; decide)
  generalize hc : (l.releases r).claim = c at hfree hclt ⊢
  have hself : (l.setStage r .subtracting).Owes r := by rw [Owes, releases_setStage_self]
  have hbefore : ¬l.Owes r := by rw [Owes, hr]; decide
  have hne : ∀ k, k ≠ r → ((l.setStage r .subtracting).Owes k ↔ l.Owes k) := by
    intro k hk
    rw [Owes, Owes, releases_setStage_of_ne l _ hk]
  refine ⟨?_, fun d hd => ?_, h.bounded, h.limits, known_setStage h (by rw [hr]; decide)⟩
  · have howed : (l.setStage r .subtracting).owed = l.owed + 1 :=
      Tally.count_gain hrlt hbefore hself fun k _ hk => (hne k hk).symm
    have hunreleased : l.unreleased =
        Nat.count (fun d => Function.update l.released c true d = false) l.claimCount + 1 := by
      refine Tally.count_gain hclt ?_ hfree fun k _ hk => ?_
      · rw [Function.update_self]
        decide
      · rw [Function.update_of_ne hk]
    change l.activeCount =
      Nat.count (fun d => Function.update l.released c true d = false) l.claimCount +
        (l.setStage r .subtracting).owed
    have := h.total
    omega
  · change l.givenBack d + (l.setStage r .subtracting).owedFor d =
      (Function.update l.released c true d).toNat
    have hd := h.each d hd
    by_cases hdc : d = c
    · have : (l.setStage r .subtracting).owedFor d = l.owedFor d + 1 := by
        refine Tally.count_gain hrlt (fun h => hbefore h.1) ⟨hself, ?_⟩ fun k _ hk => ?_
        · rw [claim_setStage, hc, hdc]
        · rw [OwesFor, OwesFor, hne k hk, claim_setStage]
      rw [hdc, hfree] at hd
      rw [this, hdc, Function.update_self]
      change _ = 1
      change _ = 0 at hd
      omega
    · have : (l.setStage r .subtracting).owedFor d = l.owedFor d := by
        refine Tally.count_congr fun k _ => ?_
        rw [OwesFor, OwesFor, claim_setStage]
        by_cases hk : k = r
        · rw [hk, hc]
          exact ⟨fun h => absurd h.2.symm hdc, fun h => absurd h.2.symm hdc⟩
        · rw [hne k hk]
      rw [this, Function.update_of_ne hdc]
      exact hd

/-- Whoever owes a subtraction finds something to subtract from. -/
theorem Balanced.activeCount_pos {r : ℕ} (h : Balanced l) (hr : l.Owes r) : 0 < l.activeCount := by
  have howed : 0 < l.owed := Tally.count_pos (h.known r (by rw [hr]; decide)).1 hr
  have := h.total
  omega

/-- The subtraction is done. -/
theorem Balanced.subtract {r : ℕ} (h : Balanced l) (hr : (l.releases r).stage = .subtracting) :
    Balanced (l.next (.subtract r)) := by
  obtain ⟨hrlt, hclt⟩ := h.known r (by rw [hr]; decide)
  have hpred := wrapPred32_add_one (h.activeCount_pos hr)
  have hbefore : l.Owes r := hr
  have hafter : ¬(l.setStage r .notifying).Owes r := by
    rw [Owes, releases_setStage_self]
    exact Stage.noConfusion
  have hne : ∀ k, k ≠ r → ((l.setStage r .notifying).Owes k ↔ l.Owes k) := by
    intro k hk
    rw [Owes, Owes, releases_setStage_of_ne l _ hk]
  rw [Ledger.next]
  generalize wrapPred32 l.activeCount = n at hpred ⊢
  refine ⟨?_, fun d hd => ?_, ?_, h.limits, known_setStage h (by rw [hr]; decide)⟩
  · have howed : l.owed = (l.setStage r .notifying).owed + 1 :=
      Tally.count_gain hrlt hafter hbefore fun k _ hk => hne k hk
    change n = l.unreleased + (l.setStage r .notifying).owed
    have := h.total
    omega
  · change Function.update l.givenBack (l.releases r).claim _ d +
      (l.setStage r .notifying).owedFor d = (l.released d).toNat
    have hd := h.each d hd
    by_cases hdc : d = (l.releases r).claim
    · have : l.owedFor d = (l.setStage r .notifying).owedFor d + 1 := by
        refine Tally.count_gain hrlt (fun h => hafter h.1) ⟨hr, hdc.symm⟩ fun k _ hk => ?_
        rw [OwesFor, OwesFor, hne k hk, claim_setStage]
      rw [hdc, Function.update_self, ← hdc]
      omega
    · have : (l.setStage r .notifying).owedFor d = l.owedFor d := by
        refine Tally.count_congr fun k _ => ?_
        rw [OwesFor, OwesFor, claim_setStage]
        by_cases hk : k = r
        · rw [hk]
          exact ⟨fun h => absurd h.2.symm hdc, fun h => absurd h.2.symm hdc⟩
        · rw [hne k hk]
      rw [this, Function.update_of_ne hdc]
      exact hd
  · obtain ⟨m, hm, hle⟩ := h.bounded
    refine ⟨m, hm, ?_⟩
    change n ≤ m
    omega

theorem Balanced.limit (h : Balanced l) (max : UInt32) : Balanced (l.next (.limit max)) where
  total := h.total
  each := h.each
  bounded := by
    obtain ⟨m, hm, hle⟩ := h.bounded
    exact ⟨m, List.mem_append_left _ hm, hle⟩
  limits m hm := by
    rcases List.mem_append.mp hm with hm | hm
    · exact h.limits m hm
    · rw [List.mem_singleton.mp hm]
      exact max.toNat_lt
  known := h.known

/-- One entry keeps the books in order. -/
theorem Balanced.next (h : Balanced l) {e : Entry} (he : l.Enabled e) : Balanced (l.next e) := by
  cases e with
  | claim => exact h.claim he
  | attempt c => exact h.attempt he
  | swap r =>
    have hr : (l.releases r).stage = .swapping := he
    rw [Ledger.next]
    by_cases hfree : l.released (l.releases r).claim = true
    · rw [if_pos hfree]
      exact h.setStage (by rw [hr]; decide) (by rw [Owes, hr]; decide) (by decide)
    · rw [if_neg hfree]
      exact h.take hr (by simpa using hfree)
  | subtract r => exact h.subtract he
  | close r =>
    have hr : (l.releases r).stage = .notifying := he
    exact h.setStage (by rw [hr]; decide) (by rw [Owes, hr]; decide) (by decide)
  | limit max => exact h.limit max

/-- **The books stay in order.** -/
theorem balanced_exec (h : Balanced l) {es : List Entry} (hv : system.Valid l es) :
    Balanced (system.exec l es) :=
  Transition.System.invariant (fun _ _ h he => h.next he) h hv

end Ledger

end Slots

end TitanClient
