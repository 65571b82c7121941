import Mathlib.Data.List.Basic

/-!
# The order of arrival

A channel or a log is a list that grows at its end and is read at its front. Of two of its entries
one came before the other, and what is put in or taken out changes that only for the entry
concerned.

Everything here is about lists over an arbitrary type.

## Main results

* `append_singleton_eq_append_cons` — where an entry of a grown list stands
* `After`, `Before` — every occurrence of an entry comes after, or before, something else
-/

namespace Arrival

universe u

variable {α : Type u} {P Q : α → Prop} {x y : α} {l : List α}

/-- An entry of a list that has grown by one is the new one, or stood where it stands. -/
theorem append_singleton_eq_append_cons {past rest : List α} :
    l ++ [y] = past ++ x :: rest ↔
      (rest = [] ∧ l = past ∧ y = x) ∨ ∃ rest', rest = rest' ++ [y] ∧ l = past ++ x :: rest' := by
  constructor
  · intro h
    rcases List.eq_nil_or_concat rest with rfl | ⟨rest', z, rfl⟩
    · obtain ⟨hlog, hxy⟩ := List.append_inj' h rfl
      exact Or.inl ⟨rfl, hlog, (List.cons.inj hxy).1⟩
    · have h' : l ++ [y] = (past ++ x :: rest') ++ [z] := by
        rw [h, List.concat_eq_append, List.append_assoc, List.cons_append]
      obtain ⟨hlog, hyz⟩ := List.append_inj' h' rfl
      refine Or.inr ⟨rest', ?_, hlog⟩
      rw [List.concat_eq_append, (List.cons.inj hyz).1]
  · rintro (⟨rfl, rfl, rfl⟩ | ⟨rest', rfl, rfl⟩)
    · rfl
    · rw [List.append_assoc, List.cons_append]

/-- Every `x` in the list comes after something with `P`. -/
def After (P : α → Prop) (x : α) (l : List α) : Prop :=
  ∀ past rest, l = past ++ x :: rest → ∃ y ∈ past, P y

/-- Every `x` in the list comes before something with `P`. -/
def Before (P : α → Prop) (x : α) (l : List α) : Prop :=
  ∀ past rest, l = past ++ x :: rest → ∃ y ∈ rest, P y

namespace After

theorem of_not_mem (h : x ∉ l) : After P x l := by
  rintro past rest rfl
  exact absurd (List.mem_append_right _ List.mem_cons_self) h

theorem mono (h : After P x l) (hPQ : ∀ z ∈ l, P z → Q z) : After Q x l := by
  rintro past rest rfl
  obtain ⟨z, hz, hP⟩ := h past rest rfl
  exact ⟨z, hz, hPQ z (List.mem_append_left _ hz) hP⟩

/-- Something is put in at the end. -/
theorem append (h : After P x l) (hy : y = x → ∃ z ∈ l, P z) : After P x (l ++ [y]) := by
  intro past rest hl
  rcases append_singleton_eq_append_cons.mp hl with ⟨-, rfl, rfl⟩ | ⟨rest', -, hold⟩
  · exact hy rfl
  · exact h past rest' hold

/-- Something else is taken out at the front. -/
theorem of_cons (h : After P x (y :: l)) (hy : ¬P y) : After P x l := by
  rintro past rest rfl
  obtain ⟨z, hz, hP⟩ := h (y :: past) rest rfl
  rcases List.mem_cons.mp hz with rfl | hz
  · exact absurd hP hy
  · exact ⟨z, hz, hP⟩

/-- Nothing stands before the front. -/
theorem head_ne (h : After P x (y :: l)) : y ≠ x := by
  rintro rfl
  obtain ⟨z, hz, -⟩ := h [] l rfl
  cases hz

end After

namespace Before

theorem of_not_mem (h : x ∉ l) : Before P x l := by
  rintro past rest rfl
  exact absurd (List.mem_append_right _ List.mem_cons_self) h

theorem mono (h : Before P x l) (hPQ : ∀ z ∈ l, P z → Q z) : Before Q x l := by
  rintro past rest rfl
  obtain ⟨z, hz, hP⟩ := h past rest rfl
  exact ⟨z, hz, hPQ z (List.mem_append_right _ (List.mem_cons_of_mem _ hz)) hP⟩

/-- Something else is put in at the end. -/
theorem append (h : Before P x l) (hy : y ≠ x) : Before P x (l ++ [y]) := by
  intro past rest hl
  rcases append_singleton_eq_append_cons.mp hl with ⟨-, -, hx⟩ | ⟨rest', rfl, hold⟩
  · exact absurd hx hy
  · obtain ⟨z, hz, hP⟩ := h past rest' hold
    exact ⟨z, List.mem_append_left _ hz, hP⟩

/-- What is put in at the end comes after all the rest. -/
theorem append_self (hP : P y) (hy : y ≠ x) : Before P x (l ++ [y]) := by
  intro past rest hl
  rcases append_singleton_eq_append_cons.mp hl with ⟨-, -, hx⟩ | ⟨rest', rfl, -⟩
  · exact absurd hx hy
  · exact ⟨y, List.mem_append_right _ List.mem_cons_self, hP⟩

/-- Something is taken out at the front. -/
theorem of_cons (h : Before P x (y :: l)) : Before P x l := by
  rintro past rest rfl
  exact h (y :: past) rest rfl

end Before

end Arrival
