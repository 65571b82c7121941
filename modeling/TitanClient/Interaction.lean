import Mathlib.Data.List.Basic

/-!
# Programs that ask

A program in a world it does not control: it asks for operations, and the world answers. Nothing is
known of the answers, so what is shown of a program is shown for every world. What has happened so
far is a list of exchanges, an operation with its answer each.

`wp` is the weakest precondition: what must have happened before, so that the program ends as `Q`
says whatever it is answered. `Attempt` is a program that may fail, with an end for each case.

## Main results

* `Program.wp_bind`, `Program.wp_mono` — how preconditions compose
* `Program.run_of_wp` — a run in a given world ends as the precondition says
* `Attempt.wp_bind` — the same where the first failure is the end
-/

namespace Interaction

universe u v w

/-- A program that asks for operations `Op`. -/
inductive Program (Op : Type u) (Answer : Op → Type v) (α : Type w)
  | done (result : α)
  | ask (op : Op) (rest : Answer op → Program Op Answer α)

/-- An operation with its answer. -/
abbrev Exchange {Op : Type u} (Answer : Op → Type v) := (op : Op) × Answer op

/-- The world answers an operation, knowing all that has happened. -/
abbrev World {Op : Type u} (Answer : Op → Type v) :=
  (op : Op) → List (Exchange Answer) → Answer op

namespace Program

variable {Op : Type u} {Answer : Op → Type v} {α β : Type w}

/-- Go on with what the first program has come to. -/
def bind : Program Op Answer α → (α → Program Op Answer β) → Program Op Answer β
  | .done a, f => f a
  | .ask op rest, f => .ask op fun answer => (rest answer).bind f

instance : Monad (Program Op Answer) where
  pure := .done
  bind := bind

/-- Ask for one operation. -/
def perform (op : Op) : Program Op Answer (Answer op) := .ask op .done

/-- Run the program in a world, after `past`. -/
def run (world : World Answer) :
    Program Op Answer α → List (Exchange Answer) → α × List (Exchange Answer)
  | .done a, past => (a, past)
  | .ask op rest, past => (rest (world op past)).run world (past ++ [⟨op, world op past⟩])

/-- Whatever the answers, the program ends as `Q` says. -/
def wp : Program Op Answer α → (α → List (Exchange Answer) → Prop) → List (Exchange Answer) → Prop
  | .done a, Q, past => Q a past
  | .ask op rest, Q, past => ∀ answer, (rest answer).wp Q (past ++ [⟨op, answer⟩])

variable {past : List (Exchange Answer)}

@[simp] theorem wp_pure {a : α} {Q : α → List (Exchange Answer) → Prop} :
    (pure a : Program Op Answer α).wp Q past ↔ Q a past := Iff.rfl

@[simp] theorem wp_perform {op : Op} {Q : Answer op → List (Exchange Answer) → Prop} :
    (perform op).wp Q past ↔ ∀ answer, Q answer (past ++ [⟨op, answer⟩]) := Iff.rfl

/-- The first program has to end where the second can begin. -/
theorem wp_bind {p : Program Op Answer α} {f : α → Program Op Answer β}
    {Q : β → List (Exchange Answer) → Prop} :
    (p >>= f).wp Q past ↔ p.wp (fun a now => (f a).wp Q now) past := by
  change (p.bind f).wp Q past ↔ _
  induction p generalizing past with
  | done a => exact Iff.rfl
  | ask op rest ih => exact forall_congr' fun answer => ih answer

theorem wp_mono {p : Program Op Answer α} {Q R : α → List (Exchange Answer) → Prop}
    (h : ∀ a now, Q a now → R a now) (hp : p.wp Q past) : p.wp R past := by
  induction p generalizing past with
  | done a => exact h a past hp
  | ask op rest ih => exact fun answer => ih answer (hp answer)

/-- **Runs.** In every world the program ends as the precondition says. -/
theorem run_of_wp {p : Program Op Answer α} {Q : α → List (Exchange Answer) → Prop}
    (world : World Answer) (h : p.wp Q past) : Q (p.run world past).1 (p.run world past).2 := by
  induction p generalizing past with
  | done a => exact h
  | ask op rest ih => exact ih _ (h (world op past))

end Program

/-- A program that ends with a result or at its first failure. -/
abbrev Attempt (Op : Type u) (Answer : Op → Type v) (ε : Type w) (α : Type w) :=
  ExceptT ε (Program Op Answer) α

/-- What a result or a failure has to meet. -/
def Ends {ε α : Type w} {H : Type u} (Q : α → H → Prop) (E : ε → H → Prop) : Except ε α → H → Prop
  | .ok a, now => Q a now
  | .error e, now => E e now

@[simp] theorem ends_ok {ε α : Type w} {H : Type u} {Q : α → H → Prop} {E : ε → H → Prop} {a : α}
    {now : H} : Ends Q E (.ok a) now ↔ Q a now := Iff.rfl

namespace Attempt

variable {Op : Type u} {Answer : Op → Type v} {ε α β : Type v}

/-- Ask for an operation whose answer is taken as it is. -/
def perform (op : Op) : Attempt Op Answer ε (Answer op) := ExceptT.lift (Program.perform op)

variable {E : ε → List (Exchange Answer) → Prop} {past : List (Exchange Answer)}

/-- Whatever the answers, the program ends with a result that `Q` allows or a failure that `E`
allows. -/
def wp (x : Attempt Op Answer ε α) (Q : α → List (Exchange Answer) → Prop)
    (E : ε → List (Exchange Answer) → Prop) (past : List (Exchange Answer)) : Prop :=
  x.run.wp (Ends Q E) past

variable {x : Attempt Op Answer ε α} {Q : α → List (Exchange Answer) → Prop}

@[simp] theorem wp_pure {a : α} : wp (pure a : Attempt Op Answer ε α) Q E past ↔ Q a past := Iff.rfl

/-- What only computes, and may fail. -/
@[simp] theorem wp_liftExcept {r : Except ε α} :
    wp (liftM r : Attempt Op Answer ε α) Q E past ↔ Ends Q E r past := by
  cases r <;> exact Iff.rfl

@[simp] theorem wp_perform {op : Op} {Q : Answer op → List (Exchange Answer) → Prop} :
    wp (perform op : Attempt Op Answer ε (Answer op)) Q E past ↔
      ∀ answer, Q answer (past ++ [⟨op, answer⟩]) := Iff.rfl

/-- **Sequencing.** The first failure is the end. -/
theorem wp_bind {f : α → Attempt Op Answer ε β} {R : β → List (Exchange Answer) → Prop} :
    wp (x >>= f) R E past ↔ wp x (fun a now => wp (f a) R E now) E past := by
  change (x.run >>= ExceptT.bindCont f).wp (Ends R E) past ↔ _
  rw [Program.wp_bind]
  refine ⟨Program.wp_mono fun r now hr => ?_, Program.wp_mono fun r now hr => ?_⟩
  · cases r with
    | ok a => exact hr
    | error e => exact hr
  · cases r with
    | ok a => exact hr
    | error e => exact hr

theorem wp_mono {R : α → List (Exchange Answer) → Prop} {F : ε → List (Exchange Answer) → Prop}
    (hQ : ∀ a now, Q a now → R a now) (hE : ∀ e now, E e now → F e now) (h : wp x Q E past) :
    wp x R F past := by
  refine Program.wp_mono (fun r now hr => ?_) h
  cases r with
  | ok a => exact hQ a now hr
  | error e => exact hE e now hr

end Attempt

end Interaction
