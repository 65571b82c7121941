import Mathlib.Algebra.BigOperators.Group.Finset.Basic
import Mathlib.Algebra.Order.Ring.Nat
import TitanClient.Transition

/-!
# Runs on a budget

A system whose steps use up a budget has no long runs. The budget is a sum of costs over the things
in its state; a step that changes one of them changes the sum by the difference. Where a step can go
round in a circle that only others can break, the budget has a second digit: it may be refilled, up
to some bound, by a step that pays with the first.

## Main results

* `weigh_update` — the sum after one of the things has changed
* `System.restrict` — fewer actions
* `System.length_le_of_rank` — the length of a run with a budget of two digits
* `System.exists_maximal_run` — where runs are short, some run goes on until nothing is enabled
-/

namespace Budget

universe u

variable {α : Type u}

/-- The cost of the first `n` things. -/
def weigh (cost : α → ℕ) (f : ℕ → α) (n : ℕ) : ℕ := ∑ k ∈ Finset.range n, cost (f k)

variable {cost : α → ℕ} {f g : ℕ → α} {n i : ℕ}

theorem weigh_succ : weigh cost f (n + 1) = weigh cost f n + cost (f n) :=
  Finset.sum_range_succ _ _

theorem weigh_congr (h : ∀ k < n, cost (f k) = cost (g k)) : weigh cost f n = weigh cost g n :=
  Finset.sum_congr rfl fun k hk => h k (Finset.mem_range.mp hk)

/-- The new thing is paid for, the old one is not any more. -/
theorem weigh_update (cost : α → ℕ) (f : ℕ → α) (hi : i < n) (v : α) :
    weigh cost (Function.update f i v) n + cost (f i) = weigh cost f n + cost v := by
  have hmem : i ∈ Finset.range n := Finset.mem_range.mpr hi
  have hrest : ∑ k ∈ (Finset.range n).erase i, cost (Function.update f i v k) =
      ∑ k ∈ (Finset.range n).erase i, cost (f k) := by
    refine Finset.sum_congr rfl fun k hk => ?_
    rw [Function.update_of_ne (Finset.ne_of_mem_erase hk)]
  have hnew := Finset.sum_erase_add (Finset.range n) (fun k => cost (Function.update f i v k)) hmem
  have hold := Finset.sum_erase_add (Finset.range n) (fun k => cost (f k)) hmem
  simp only [Function.update_self] at hnew
  rw [weigh, weigh, ← hnew, ← hold, hrest]
  omega

/-- One more thing is paid for. -/
theorem weigh_update_last (cost : α → ℕ) (f : ℕ → α) (v : α) :
    weigh cost (Function.update f n v) (n + 1) = weigh cost f n + cost v := by
  rw [weigh_succ, Function.update_self]
  congr 1
  exact weigh_congr fun k hk => by rw [Function.update_of_ne (Nat.ne_of_lt hk)]

theorem weigh_le {b : ℕ} (h : ∀ k < n, cost (f k) ≤ b) : weigh cost f n ≤ b * n := by
  induction n with
  | zero => exact le_refl 0
  | succ n ih =>
    rw [weigh_succ, Nat.mul_succ]
    exact Nat.add_le_add (ih fun k hk => h k (Nat.lt_succ_of_lt hk)) (h n (Nat.lt_succ_self n))

end Budget

namespace Transition.System

universe u v

variable {σ : Type u} {α : Type v} {S : System σ α} {I : σ → Prop} {C : α → Prop} {b : ℕ}

/-- The system without the actions that do not meet `C`. -/
def restrict (S : System σ α) (C : α → Prop) : System σ α where
  Enabled s a := S.Enabled s a ∧ C a
  next := S.next

theorem restrict_valid {s : σ} {as : List α} :
    (S.restrict C).Valid s as ↔ S.Valid s as ∧ ∀ a ∈ as, C a := by
  induction as generalizing s with
  | nil => simp
  | cons a as ih =>
    rw [valid_cons, valid_cons, List.forall_mem_cons]
    change (S.Enabled s a ∧ C a) ∧ (S.restrict C).Valid (S.next s a) as ↔ _
    rw [ih]
    exact and_and_and_comm

/-- What each action of a list meets is met along the run. -/
theorem along_of_forall_mem {s : σ} {as : List α} (h : ∀ a ∈ as, C a) :
    S.Along (fun _ a => C a) s as := by
  induction as generalizing s with
  | nil => trivial
  | cons a as ih => exact ⟨h a List.mem_cons_self, ih fun b hb => h b (List.mem_cons_of_mem a hb)⟩

/-- **Runs on a budget are short.** Each step pays one of the major part, and may then have a minor
part up to `b`, or leaves the major part alone and pays one of the minor. -/
theorem length_le_of_rank (major minor : σ → ℕ)
    (hstep : ∀ s a, I s → C a → S.Enabled s a → I (S.next s a) ∧
      (major (S.next s a) < major s ∧ minor (S.next s a) ≤ b ∨
        major (S.next s a) = major s ∧ minor (S.next s a) < minor s))
    {s : σ} {as : List α} (hs : I s) (hC : ∀ a ∈ as, C a) (hv : S.Valid s as) :
    as.length ≤ major s * (b + 1) + minor s := by
  induction as generalizing s with
  | nil => exact Nat.zero_le _
  | cons a as ih =>
    obtain ⟨hnext, hpaid⟩ := hstep s a hs (hC a List.mem_cons_self) hv.1
    have hrest := ih hnext (fun c hc => hC c (List.mem_cons_of_mem a hc)) hv.2
    rw [List.length_cons]
    rcases hpaid with ⟨hmajor, hminor⟩ | ⟨hmajor, hminor⟩
    · -- One of the major part buys the whole minor part, and the step.
      have hbuys : (major (S.next s a) + 1) * (b + 1) ≤ major s * (b + 1) :=
        Nat.mul_le_mul_right _ hmajor
      rw [Nat.add_mul, Nat.one_mul] at hbuys
      omega
    · rw [hmajor] at hrest
      omega

/-- Where no run is longer than `b`, one of them cannot be continued. -/
theorem exists_maximal_run {s : σ} (h : ∀ as, S.Valid s as → as.length ≤ b) :
    ∃ as, S.Valid s as ∧ ∀ a, ¬S.Enabled (S.exec s as) a := by
  induction b generalizing s with
  | zero =>
    refine ⟨[], trivial, fun a ha => ?_⟩
    have hlength := h [a] ⟨ha, trivial⟩
    exact Nat.not_succ_le_zero 0 hlength
  | succ b ih =>
    by_cases hstop : ∀ a, ¬S.Enabled s a
    · exact ⟨[], trivial, hstop⟩
    · obtain ⟨a, ha⟩ := not_forall.mp hstop
      have ha := not_not.mp ha
      obtain ⟨as, has, hmax⟩ := ih fun as has => Nat.le_of_succ_le_succ (h (a :: as) ⟨ha, has⟩)
      exact ⟨a :: as, ⟨ha, has⟩, hmax⟩

end Transition.System
