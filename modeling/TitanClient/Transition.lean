import Mathlib.Data.List.Basic
import Mathlib.Logic.Relation

/-!
# Guarded transition systems

A system says of each action when it is enabled and which state it leads to. All nondeterminism is
in the choice of the action, so a run is a list of actions: `Valid` says that each is enabled when
its turn comes, `exec` computes the state they lead to.

Everything here is about an arbitrary state type and an arbitrary action type.

## Main results

* `System.invariant` — what every step preserves, every run preserves
* `System.invariant_along` — the same for runs whose steps all meet a condition
* `System.along_of_invariant` — what each step of such a run then does
* `System.along_of_reachable` — invariants as a condition for further invariants
* `System.along_of_bounded` — the same for what holds below a bound
* `System.iff_along` — a property that a run has exactly when its steps all meet a condition
* `System.history` — invariants that also speak about the actions taken so far
* `System.observe` — an observer who takes no part
* `System.project` — the part that one of several systems has in a run
* `System.refines` — a system whose steps are seen as steps of another, or not at all, has runs that
  are seen as runs of the other
-/

namespace Transition

universe u v

/-- A guarded transition system. `next` is total; it means something only where `Enabled`. -/
structure System (σ : Type u) (α : Type v) where
  /-- The action can be taken. -/
  Enabled : σ → α → Prop
  /-- The state after taking it. -/
  next : σ → α → σ

namespace System

variable {σ : Type u} {α : Type v} (S : System σ α)

/-- The state after a list of actions. -/
def exec (s : σ) (as : List α) : σ := as.foldl S.next s

/-- Each action of the list is enabled when its turn comes. -/
def Valid : σ → List α → Prop
  | _, [] => True
  | s, a :: as => S.Enabled s a ∧ Valid (S.next s a) as

/-- Each step of the run along the list meets `C`, which looks at the state before the step and at
the action. -/
def Along (C : σ → α → Prop) : σ → List α → Prop
  | _, [] => True
  | s, a :: as => C s a ∧ Along C (S.next s a) as

@[simp] theorem exec_nil (s : σ) : S.exec s [] = s := rfl

@[simp] theorem exec_cons (s : σ) (a : α) (as : List α) :
    S.exec s (a :: as) = S.exec (S.next s a) as := rfl

theorem exec_append (s : σ) (as bs : List α) : S.exec s (as ++ bs) = S.exec (S.exec s as) bs :=
  List.foldl_append

@[simp] theorem valid_nil (s : σ) : S.Valid s [] := trivial

@[simp] theorem valid_cons {s : σ} {a : α} {as : List α} :
    S.Valid s (a :: as) ↔ S.Enabled s a ∧ S.Valid (S.next s a) as := Iff.rfl

theorem valid_append {s : σ} {as bs : List α} :
    S.Valid s (as ++ bs) ↔ S.Valid s as ∧ S.Valid (S.exec s as) bs := by
  induction as generalizing s with
  | nil => simp
  | cons a as ih => simp [ih, and_assoc]

/-- Runs can be checked by evaluation where the guards can. -/
def decidableValid [h : ∀ s a, Decidable (S.Enabled s a)] :
    (s : σ) → (as : List α) → Decidable (S.Valid s as)
  | _, [] => isTrue trivial
  | s, a :: as =>
    match h s a, decidableValid (S.next s a) as with
    | isTrue ha, isTrue has => isTrue ⟨ha, has⟩
    | isFalse ha, _ => isFalse fun hv => ha hv.1
    | _, isFalse has => isFalse fun hv => has hv.2

instance [∀ s a, Decidable (S.Enabled s a)] (s : σ) (as : List α) : Decidable (S.Valid s as) :=
  S.decidableValid s as

/-- So can conditions on the steps. -/
def decidableAlong {C : σ → α → Prop} [h : ∀ s a, Decidable (C s a)] :
    (s : σ) → (as : List α) → Decidable (S.Along C s as)
  | _, [] => isTrue trivial
  | s, a :: as =>
    match h s a, decidableAlong (S.next s a) as with
    | isTrue ha, isTrue has => isTrue ⟨ha, has⟩
    | isFalse ha, _ => isFalse fun hc => ha hc.1
    | _, isFalse has => isFalse fun hc => has hc.2

instance {C : σ → α → Prop} [∀ s a, Decidable (C s a)] (s : σ) (as : List α) :
    Decidable (S.Along C s as) :=
  S.decidableAlong s as

variable {S} {C : σ → α → Prop}

/-- Conditions on the steps of a run add up. -/
theorem Along.and {D : σ → α → Prop} {s : σ} {as : List α} (hC : S.Along C s as)
    (hD : S.Along D s as) : S.Along (fun s a => C s a ∧ D s a) s as := by
  induction as generalizing s with
  | nil => trivial
  | cons a as ih => exact ⟨⟨hC.1, hD.1⟩, ih hC.2 hD.2⟩

/-- A condition on the steps of a run is one on each of them, in the state before it. -/
theorem along_iff {s : σ} {as : List α} : S.Along C s as ↔
    ∀ past a future, as = past ++ a :: future → C (S.exec s past) a := by
  induction as generalizing s with
  | nil => exact iff_of_true trivial fun past a future h => by cases past <;> cases h
  | cons b as ih =>
    constructor
    · rintro ⟨hb, has⟩ past a future h
      cases past with
      | nil =>
        rw [List.nil_append, List.cons.injEq] at h
        rw [← h.1]
        exact hb
      | cons c past =>
        rw [List.cons_append, List.cons.injEq] at h
        rw [← h.1]
        exact ih.mp has past a future h.2
    · intro h
      exact ⟨h [] b as rfl, ih.mpr fun past a future heq => h (b :: past) a future (heq ▸ rfl)⟩

/-- **Invariants.** What one step preserves, a whole run preserves. -/
theorem invariant {I : σ → Prop} (hstep : ∀ s a, I s → S.Enabled s a → I (S.next s a))
    {s : σ} {as : List α} (hs : I s) (hv : S.Valid s as) : I (S.exec s as) := by
  induction as generalizing s with
  | nil => exact hs
  | cons a as ih => exact ih (hstep s a hs hv.1) hv.2

/-- **Conditional invariants.** A run whose steps all meet `C` preserves what one step meeting
`C` preserves. -/
theorem invariant_along {I : σ → Prop}
    (hstep : ∀ s a, I s → C s a → S.Enabled s a → I (S.next s a))
    {s : σ} {as : List α} (hs : I s) (hC : S.Along C s as) (hv : S.Valid s as) :
    I (S.exec s as) := by
  induction as generalizing s with
  | nil => exact hs
  | cons a as ih => exact ih (hstep s a hs hC.1 hv.1) hC.2 hv.2

/-- A conditional invariant says what each step of such a run does. -/
theorem along_of_invariant {I : σ → Prop} {P : σ → α → Prop}
    (hstep : ∀ s a, I s → C s a → S.Enabled s a → I (S.next s a))
    (hP : ∀ s a, I s → C s a → S.Enabled s a → P s a) {s : σ} {as : List α} (hs : I s)
    (hC : S.Along C s as) (hv : S.Valid s as) : S.Along P s as := by
  induction as generalizing s with
  | nil => trivial
  | cons a as ih => exact ⟨hP s a hs hC.1 hv.1, ih (hstep s a hs hC.1 hv.1) hC.2 hv.2⟩

/-- What holds of every state that can be reached is a condition that every run meets, so that the
step of a further invariant may use it. -/
theorem along_of_reachable {R : σ → Prop} {s : σ} {as : List α}
    (hreach : ∀ past, S.Valid s past → R (S.exec s past)) (hv : S.Valid s as) :
    S.Along (fun u _ => R u) s as := by
  induction as generalizing s with
  | nil => trivial
  | cons a as ih =>
    have hnext : ∀ past, S.Valid (S.next s a) past → R (S.exec (S.next s a) past) :=
      fun past hpast => hreach (a :: past) ⟨hv.1, hpast⟩
    exact ⟨hreach [] trivial, ih hnext hv.2⟩

/-- What is preserved below a bound that is never passed back under, is a condition that a run below
the bound meets. -/
theorem along_of_bounded {B R : σ → Prop} (hback : ∀ s a, S.Enabled s a → B (S.next s a) → B s)
    (hstep : ∀ s a, R s → S.Enabled s a → B (S.next s a) → R (S.next s a)) {s : σ} {as : List α}
    (hs : R s) (hv : S.Valid s as) (hend : B (S.exec s as)) : S.Along (fun u _ => R u) s as := by
  have hbefore : ∀ {u : σ} {bs : List α}, S.Valid u bs → B (S.exec u bs) → B u := by
    intro u bs hu hB
    induction bs generalizing u with
    | nil => exact hB
    | cons b bs ih => exact hback u b hu.1 (ih hu.2 hB)
  induction as generalizing s with
  | nil => trivial
  | cons a as ih => exact ⟨hs, ih (hstep s a hs hv.1 (hbefore hv.2 hend)) hv.2 hend⟩

/-- **Exact conditions.** If a step keeps `P` just when it meets `C`, a run does when all its steps
meet `C`. -/
theorem iff_along {P R : σ → Prop}
    (hstep : ∀ s a, R s → S.Enabled s a → (P (S.next s a) ↔ P s ∧ C s a)) {s : σ} {as : List α}
    (hR : S.Along (fun u _ => R u) s as) (hv : S.Valid s as) :
    P (S.exec s as) ↔ P s ∧ S.Along C s as := by
  induction as generalizing s with
  | nil => exact ⟨fun h => ⟨h, trivial⟩, And.left⟩
  | cons a as ih =>
    rw [exec_cons, ih hR.2 hv.2, hstep s a hR.1 hv.1, and_assoc]
    exact Iff.rfl

/-- **History invariants.** As `invariant`, for a statement that also mentions the actions taken
since the start. -/
theorem history {J : List α → σ → Prop}
    (hstep : ∀ past s a, J past s → S.Enabled s a → J (past ++ [a]) (S.next s a))
    {s : σ} {as : List α} (hs : J [] s) (hv : S.Valid s as) : J as (S.exec s as) := by
  have key : ∀ (as past : List α) (s : σ), J past s → S.Valid s as →
      J (past ++ as) (S.exec s as) := by
    intro as
    induction as with
    | nil =>
      intro past s hs _
      rw [List.append_nil]
      exact hs
    | cons a as ih =>
      intro past s hs hv
      have := ih (past ++ [a]) (S.next s a) (hstep past s a hs hv.1) hv.2
      rwa [List.append_assoc, List.singleton_append] at this
  exact key as [] s hs hv

/-- The system with an observer, who sees each step and takes no part in it. -/
def observe (S : System σ α) {β : Type*} (see : σ → β → α → β) : System (σ × β) α where
  Enabled u a := S.Enabled u.1 a
  next u a := (S.next u.1 a, see u.1 u.2 a)

theorem observe_exec {β : Type*} {see : σ → β → α → β} (u : σ × β) (as : List α) :
    ((S.observe see).exec u as).1 = S.exec u.1 as := by
  induction as generalizing u with
  | nil => rfl
  | cons a as ih => exact ih _

theorem observe_valid {β : Type*} {see : σ → β → α → β} {u : σ × β} {as : List α} :
    (S.observe see).Valid u as ↔ S.Valid u.1 as := by
  induction as generalizing u with
  | nil => exact Iff.rfl
  | cons a as ih => exact and_congr_right fun _ => ih

/-- **Refinement.** Along `view`, every step is a step of `A` or leaves the view unchanged; then
every run is seen as a run of `A`. -/
theorem refines {τ : Type*} {β : Type*} {A : System τ β} {view : σ → τ} {I : σ → Prop}
    (hinv : ∀ s a, I s → S.Enabled s a → I (S.next s a))
    (hstep : ∀ s a, I s → S.Enabled s a → view (S.next s a) = view s ∨
      ∃ b, A.Enabled (view s) b ∧ view (S.next s a) = A.next (view s) b)
    {s : σ} {as : List α} (hs : I s) (hv : S.Valid s as) :
    ∃ bs, A.Valid (view s) bs ∧ A.exec (view s) bs = view (S.exec s as) := by
  induction as generalizing s with
  | nil => exact ⟨[], trivial, rfl⟩
  | cons a as ih =>
    obtain ⟨bs, hbs, hexec⟩ := ih (hinv s a hs hv.1) hv.2
    rcases hstep s a hs hv.1 with hsame | ⟨b, hb, hnext⟩
    · rw [hsame] at hbs hexec
      exact ⟨bs, hbs, hexec⟩
    · rw [hnext] at hbs hexec
      exact ⟨b :: bs, ⟨hb, hbs⟩, hexec⟩

/-- **Parts.** If along `view` every step is a run of `A`, which `part` gives, then so is every
run. -/
theorem project {τ : Type*} {β : Type*} {A : System τ β} (view : σ → τ) (part : α → List β)
    (hstep : ∀ s a, S.Enabled s a →
      A.Valid (view s) (part a) ∧ view (S.next s a) = A.exec (view s) (part a))
    {s : σ} {as : List α} (hv : S.Valid s as) :
    A.Valid (view s) (as.flatMap part) ∧
      view (S.exec s as) = A.exec (view s) (as.flatMap part) := by
  induction as generalizing s with
  | nil => exact ⟨trivial, rfl⟩
  | cons a as ih =>
    obtain ⟨hvalid, hnext⟩ := hstep s a hv.1
    obtain ⟨hrest, hexec⟩ := ih hv.2
    rw [hnext] at hrest hexec
    rw [List.flatMap_cons, A.exec_append]
    exact ⟨A.valid_append.mpr ⟨hvalid, hrest⟩, hexec⟩

end System

end Transition
