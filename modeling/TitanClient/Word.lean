import Mathlib.Algebra.Order.Ring.Nat
import Mathlib.Order.MinMax

/-!
# Unsigned machine arithmetic

Arithmetic on words of `w` bits, with the words as natural numbers. What a plain operator does when
its result does not fit depends on how the program was compiled: with overflow checks it panics,
without them it keeps the low bits. The saturating operators do neither.

Everything here is about an arbitrary width.
-/

namespace Word

/-- What becomes of a result that does not fit. -/
inductive Overflow
  | panics
  | wraps
  deriving DecidableEq

variable (w : ℕ)

/-- The result of a plain operator whose value is `n`; `none` is a panic. -/
def fit (o : Overflow) (n : ℕ) : Option ℕ :=
  if n < 2 ^ w then some n
  else
    match o with
    | .panics => none
    | .wraps => some (n % 2 ^ w)

/-- The operator `+`. -/
def add (o : Overflow) (a b : ℕ) : Option ℕ := fit w o (a + b)

/-- The operator `*`. -/
def mul (o : Overflow) (a b : ℕ) : Option ℕ := fit w o (a * b)

/-- `saturating_pow`. -/
def saturatingPow (b n : ℕ) : ℕ := min (b ^ n) (2 ^ w - 1)

/-- `saturating_sub`. -/
def saturatingSub (a b : ℕ) : ℕ := a - b

variable {w} {o : Overflow} {n : ℕ}

theorem fit_of_lt (h : n < 2 ^ w) : fit w o n = some n := if_pos h

theorem fit_panics (h : 2 ^ w ≤ n) : fit w .panics n = none := if_neg (Nat.not_lt.mpr h)

theorem fit_wraps : fit w .wraps n = some (n % 2 ^ w) := by
  rw [fit]
  split
  · rw [Nat.mod_eq_of_lt ‹_›]
  · rfl

theorem saturatingPow_of_lt {b : ℕ} (h : b ^ n < 2 ^ w) : saturatingPow w b n = b ^ n :=
  min_eq_left (Nat.le_sub_one_of_lt h)

theorem saturatingPow_of_le {b : ℕ} (h : 2 ^ w ≤ b ^ n) : saturatingPow w b n = 2 ^ w - 1 :=
  min_eq_right (Nat.le_trans (Nat.sub_le _ _) h)

theorem saturatingPow_mono {b m : ℕ} (hb : 0 < b) (h : n ≤ m) :
    saturatingPow w b n ≤ saturatingPow w b m :=
  min_le_min_right _ (Nat.pow_le_pow_right hb h)

end Word
