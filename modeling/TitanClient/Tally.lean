import Mathlib.Data.Nat.Count

/-!
# Counting below a bound

`Nat.count p n` is the number of `k < n` with `p k`. What a system needs to know about it is how it
changes when one of the things counted changes.
-/

namespace Tally

variable {p q : ℕ → Prop} [DecidablePred p] [DecidablePred q] {n i : ℕ}

theorem count_congr (h : ∀ k < n, p k ↔ q k) : Nat.count p n = Nat.count q n :=
  Nat.le_antisymm (Nat.count_mono_left fun k hk => (h k hk).mp)
    (Nat.count_mono_left fun k hk => (h k hk).mpr)

/-- One more thing is counted. -/
theorem count_gain (hi : i < n) (hp : ¬p i) (hq : q i) (h : ∀ k < n, k ≠ i → (p k ↔ q k)) :
    Nat.count q n = Nat.count p n + 1 := by
  induction n with
  | zero => cases hi
  | succ n ih =>
    rw [Nat.count_succ, Nat.count_succ]
    by_cases hin : i = n
    · subst hin
      rw [if_pos hq, if_neg hp,
        count_congr fun k hk => h k (Nat.lt_succ_of_lt hk) (Nat.ne_of_lt hk)]
    · have hlt : i < n := Nat.lt_of_le_of_ne (Nat.le_of_lt_succ hi) hin
      rw [ih hlt fun k hk => h k (Nat.lt_succ_of_lt hk), Nat.add_right_comm]
      by_cases hn : p n
      · rw [if_pos hn, if_pos ((h n (Nat.lt_succ_self n) (Ne.symm hin)).mp hn)]
      · rw [if_neg hn, if_neg (mt (h n (Nat.lt_succ_self n) (Ne.symm hin)).mpr hn)]

/-- Different things below the bound are counted one by one. -/
theorem length_le_count {l : List ℕ} (hl : l.Nodup) (h : ∀ k ∈ l, k < n ∧ p k) :
    l.length ≤ Nat.count p n := by
  rw [Nat.count_eq_card_filter_range, ← List.toFinset_card_of_nodup hl]
  refine Finset.card_le_card fun k hk => ?_
  obtain ⟨hlt, hp⟩ := h k (List.mem_toFinset.mp hk)
  exact Finset.mem_filter.mpr ⟨Finset.mem_range.mpr hlt, hp⟩

/-- What is counted is there to be counted. -/
theorem count_pos (hi : i < n) (hp : p i) : 0 < Nat.count p n :=
  Nat.pos_of_ne_zero (Nat.count_ne_iff_exists.mpr ⟨i, hi, hp⟩)

end Tally
