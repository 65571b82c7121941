import Mathlib.Data.List.Basic

/-!
# Reading a cell that keeps the latest value

A cell holds one value, and a new one takes the place of the old. A reader who is told of changes
writes down what is there when it comes to look. It misses values and may see one twice: once
because the value came in between being told of the one before and looking, and then because it is
told of it.

So the lines are read off the list in which every value stands twice, with the last value as often
as the reader is not yet due to look again. Who has seen the last value and looked has it as its
last line.

Everything here is about an arbitrary type of values.

## Main results

* `Sound` — the lines are in the order of the values, each of which is there at most twice
* `Sound.next` — every step keeps to that
* `patience_next` — the reader rests after a few steps of its own
-/

namespace Latest

universe u

/-- The cell with its reader. `earlier` are the values there have been, `unseen` says that the
reader has not been told of the current one, and `looking` that it is about to write down what is
there. -/
structure State (α : Type u) where
  earlier : List α := []
  current : α
  unseen : Bool := false
  looking : Bool := true
  lines : List α := []

/-- A new value, and the two steps of the reader. -/
inductive Action (α : Type u)
  | store (v : α)
  | notice
  | look

variable {α : Type u}

/-- When a step can be taken. -/
def Enabled (s : State α) : Action α → Prop
  | .store _ => True
  | .notice => s.unseen = true ∧ s.looking = false
  | .look => s.looking = true

/-- The state after a step. -/
def next (s : State α) : Action α → State α
  | .store v => { s with earlier := s.earlier ++ [s.current], current := v, unseen := true }
  | .notice => { s with unseen := false, looking := true }
  | .look => { s with looking := false, lines := s.lines ++ [s.current] }

/-- The reader begins with the value that is there. -/
def init (v : α) : State α := { current := v }

/-- How often the reader is still due to look. -/
def State.due (s : State α) : ℕ := s.looking.toNat + s.unseen.toNat

/-- The values as often as they can have been written down. -/
def State.readable (s : State α) : List α :=
  s.earlier.flatMap (fun v => [v, v]) ++ List.replicate (2 - s.due) s.current

/-- The lines follow the values, and the last line of who rests is the current value. -/
structure Sound (s : State α) : Prop where
  sublist : s.lines.Sublist s.readable
  last : s.looking = false → s.unseen = false → s.lines.getLast? = some s.current

theorem sound_init (v : α) : Sound (init v) where
  sublist := List.nil_sublist _
  last h := by cases h

section

variable {s : State α}

/-- A value that has passed may have been written down twice. -/
theorem Sound.lines_sublist (h : Sound s) :
    s.lines.Sublist ((s.earlier ++ [s.current]).flatMap fun v => [v, v]) := by
  refine h.sublist.trans ?_
  rw [List.flatMap_append, State.readable]
  have htwice : List.replicate 2 s.current = [s.current].flatMap fun v => [v, v] := rfl
  rw [← htwice]
  exact ((List.replicate_sublist_replicate _).mpr (Nat.sub_le 2 s.due)).append_left _

theorem Sound.store (h : Sound s) (v : α) : Sound (next s (.store v)) where
  sublist := h.lines_sublist.trans (List.sublist_append_left _ _)
  last _ hunseen := by cases hunseen

theorem Sound.notice (h : Sound s) (ha : Enabled s .notice) : Sound (next s .notice) where
  sublist := by
    have hdue : s.due = (next s .notice).due := by
      rw [State.due, State.due, ha.1, ha.2]
      rfl
    have hlines := h.sublist
    rw [State.readable, hdue] at hlines
    exact hlines
  last hlooking := by cases hlooking

theorem Sound.look (h : Sound s) (ha : Enabled s .look) : Sound (next s .look) where
  sublist := by
    have hlooking : s.looking = true := ha
    have hlines := h.sublist.append (List.Sublist.refl [s.current])
    have hone : 2 - s.due + 1 = 2 - (next s .look).due := by
      change 2 - (s.looking.toNat + s.unseen.toNat) + 1 = 2 - (0 + s.unseen.toNat)
      rw [hlooking]
      cases s.unseen <;> rfl
    rw [State.readable, List.append_assoc, ← List.replicate_succ', hone] at hlines
    exact hlines
  last _ _ := List.getLast?_concat

theorem Sound.next (h : Sound s) {a : Action α} (ha : Enabled s a) : Sound (Latest.next s a) := by
  cases a with
  | store v => exact h.store v
  | notice => exact h.notice ha
  | look => exact h.look ha

/-- The number of steps the reader takes until it rests. -/
def State.patience (s : State α) : ℕ := s.looking.toNat + 2 * s.unseen.toNat

theorem patience_le (s : State α) : s.patience ≤ 3 := by
  have hlooking := Bool.toNat_le s.looking
  have hunseen := Bool.toNat_le s.unseen
  rw [State.patience]
  omega

/-- A step of the reader uses up one of them. -/
theorem patience_next {a : Action α} (ha : Enabled s a) (hown : ∀ v, a ≠ .store v) :
    (next s a).patience + 1 = s.patience := by
  cases a with
  | store v => exact absurd rfl (hown v)
  | notice =>
    rw [State.patience, State.patience, ha.1, ha.2]
    rfl
  | look =>
    have hlooking : s.looking = true := ha
    rw [State.patience, State.patience, hlooking]
    change 0 + 2 * s.unseen.toNat + 1 = 1 + 2 * s.unseen.toNat
    omega

end

end Latest
