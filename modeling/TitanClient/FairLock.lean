import Mathlib.Data.List.Basic
import Mathlib.Logic.Function.Basic
import Mathlib.Data.List.Nodup

/-!
# A fair lock for readers and writers

Readers share the lock, a writer has it alone, and whoever cannot have it at once waits in a queue
that is served from its front: a reader does not overtake a writer who waits.

A lock does not know what its tasks are doing. `Serves` is the contract between the two: what each
task holds and waits for, as its position says, is what the lock has it down for. It survives every
operation of the lock, and everything else is a consequence of it.

Everything here is about an arbitrary type of tasks.

## Main results

* `Serves` — the lock agrees with the positions of its tasks
* `Serves.alone` — who writes is alone
* `Serves.ready` — a lock that nobody holds can be had by whoever is next
* `Serves.behind` — a reader waits for a writer, or behind one
-/

namespace FairLock

universe u

/-- How a lock is held. -/
inductive Mode
  | read
  | write
  deriving DecidableEq

/-- Who holds the lock, and who waits for it. -/
structure Lock (τ : Type u) where
  readers : List τ := []
  writer : Option τ := none
  queue : List (τ × Mode) := []

namespace Lock

variable {τ : Type u}

/-- The lock can be had in this mode. -/
def Admits (l : Lock τ) : Mode → Prop
  | .read => l.writer = none
  | .write => l.writer = none ∧ l.readers = []

instance (l : Lock τ) (m : Mode) : Decidable (l.Admits m) :=
  match m with
  | .read => decidable_of_iff (l.writer.isNone = true) Option.isNone_iff_eq_none
  | .write => decidable_of_iff (l.writer.isNone = true ∧ l.readers.isEmpty = true)
      (and_congr Option.isNone_iff_eq_none List.isEmpty_iff)

/-- A task begins to wait. -/
def enqueue (l : Lock τ) (t : τ) (m : Mode) : Lock τ := { l with queue := l.queue ++ [(t, m)] }

/-- The front of the queue gets the lock. -/
def grant (l : Lock τ) : Lock τ :=
  match l.queue with
  | (t, .read) :: rest => { l with readers := t :: l.readers, queue := rest }
  | (t, .write) :: rest => { l with writer := some t, queue := rest }
  | [] => l

variable [DecidableEq τ]

/-- A task gives the lock back. -/
def release (l : Lock τ) (t : τ) : Mode → Lock τ
  | .read => { l with readers := l.readers.erase t }
  | .write => { l with writer := none }

/-- A task waits no longer. -/
def withdraw (l : Lock τ) (t : τ) : Lock τ := { l with queue := l.queue.filter (·.1 ≠ t) }

end Lock

/-- The lock agrees with what its tasks hold and wait for. -/
structure Serves {τ : Type u} (l : Lock τ) (holds waits : τ → Option Mode) : Prop where
  readers : ∀ t, t ∈ l.readers ↔ holds t = some .read
  writer : ∀ t, l.writer = some t ↔ holds t = some .write
  queue : ∀ t m, (t, m) ∈ l.queue ↔ waits t = some m
  readersNodup : l.readers.Nodup
  queueNodup : (l.queue.map Prod.fst).Nodup
  exclusive : ∀ t, l.writer = some t → l.readers = []

namespace Serves

variable {τ : Type u} {l : Lock τ} {holds waits : τ → Option Mode} {t u : τ} {m : Mode}

theorem init : Serves ({} : Lock τ) (fun _ => none) fun _ => none where
  readers _ := by simp
  writer _ := by simp
  queue _ _ := by simp
  readersNodup := List.nodup_nil
  queueNodup := List.nodup_nil
  exclusive _ h := by cases h

/-- **Exclusion.** Who writes is alone. -/
theorem alone (h : Serves l holds waits) (ht : holds t = some .write) (hu : holds u ≠ none) :
    u = t := by
  have hwriter := (h.writer t).mpr ht
  cases hm : holds u with
  | none => exact absurd hm hu
  | some m =>
    cases m with
    | read =>
      have hmem := (h.readers u).mpr hm
      rw [h.exclusive t hwriter] at hmem
      cases hmem
    | write => exact Option.some.inj (((h.writer u).mpr hm).symm.trans hwriter)

/-- Nobody holds the lock. -/
theorem free (h : Serves l holds waits) (hnone : ∀ t, holds t = none) :
    l.writer = none ∧ l.readers = [] := by
  constructor
  · cases hw : l.writer with
    | none => rfl
    | some t => cases (hnone t).symm.trans ((h.writer t).mp hw)
  · refine List.eq_nil_iff_forall_not_mem.mpr fun t ht => ?_
    cases (hnone t).symm.trans ((h.readers t).mp ht)

/-- **Progress.** A lock that nobody holds can be had by whoever is next. -/
theorem ready (h : Serves l holds waits) (hnone : ∀ t, holds t = none) (hwaits : waits t ≠ none) :
    ∃ u m, l.queue.head? = some (u, m) ∧ l.Admits m := by
  obtain ⟨hwriter, hreaders⟩ := h.free hnone
  obtain ⟨m, hm⟩ := Option.ne_none_iff_exists'.mp hwaits
  have hmem := (h.queue t m).mpr hm
  cases hq : l.queue with
  | nil =>
    rw [hq] at hmem
    cases hmem
  | cons e rest =>
    refine ⟨e.1, e.2, rfl, ?_⟩
    cases e.2 with
    | read => exact hwriter
    | write => exact ⟨hwriter, hreaders⟩

/-- **Fairness.** A reader waits only while somebody writes, or behind somebody who waits to. -/
theorem behind (h : Serves l holds waits) (ht : waits t = some .read)
    (hstuck : ∀ u m, l.queue.head? = some (u, m) → ¬l.Admits m) :
    (∃ u, holds u = some .write) ∨
      ∃ u before after, l.queue = before ++ (u, .write) :: after ∧ (t, .read) ∈ after := by
  have hmem := (h.queue t .read).mpr ht
  cases hw : l.writer with
  | some u => exact Or.inl ⟨u, (h.writer u).mp hw⟩
  | none =>
    cases hq : l.queue with
    | nil =>
      rw [hq] at hmem
      cases hmem
    | cons e rest =>
      obtain ⟨u, m⟩ := e
      cases m with
      | read => exact absurd hw (hstuck u .read (by rw [hq]; rfl))
      | write =>
        rw [hq] at hmem
        rcases List.mem_cons.mp hmem with heq | hrest
        · cases heq
        · exact Or.inr ⟨u, [], rest, rfl, hrest⟩

/-- Positions that say the same are served as well. -/
theorem congr {holds' waits' : τ → Option Mode} (h : Serves l holds waits)
    (hholds : ∀ t, holds' t = holds t) (hwaits : ∀ t, waits' t = waits t) :
    Serves l holds' waits' := by
  rwa [funext hholds, funext hwaits]

variable [DecidableEq τ]

theorem enqueue (h : Serves l holds waits) (ht : waits t = none) (m : Mode) :
    Serves (l.enqueue t m) holds (Function.update waits t (some m)) := by
  have hnot : ∀ m', (t, m') ∉ l.queue := fun m' hm => by
    cases ht.symm.trans ((h.queue t m').mp hm)
  refine ⟨h.readers, h.writer, fun u m' => ?_, h.readersNodup, ?_, h.exclusive⟩
  · rw [Lock.enqueue, List.mem_append, List.mem_singleton, Prod.mk.injEq]
    by_cases hu : u = t
    · subst hu
      rw [Function.update_self, Option.some.injEq, eq_comm (a := m)]
      exact ⟨fun hm => hm.elim (fun hold => absurd hold (hnot m')) And.right,
        fun hm => Or.inr ⟨rfl, hm⟩⟩
    · rw [Function.update_of_ne hu, h.queue]
      exact or_iff_left fun hm => hu hm.1
  · rw [Lock.enqueue, List.map_append, List.map_singleton]
    refine List.Nodup.append h.queueNodup (List.nodup_singleton t) ?_
    rw [List.disjoint_singleton]
    intro hmem
    obtain ⟨⟨u, m'⟩, hm, rfl⟩ := List.mem_map.mp hmem
    exact hnot m' hm

theorem grant (h : Serves l holds waits) (hhead : l.queue.head? = some (t, m))
    (hadmits : l.Admits m)
    (hholds : holds t = none) :
    Serves l.grant (Function.update holds t (some m)) (Function.update waits t none) := by
  obtain ⟨rest, hq⟩ := List.head?_eq_some_iff.mp hhead
  have hnodup := h.queueNodup
  rw [hq, List.map_cons, List.nodup_cons] at hnodup
  have hqueue : ∀ u m', (u, m') ∈ rest ↔ Function.update waits t none u = some m' := by
    intro u m'
    by_cases hu : u = t
    · subst hu
      rw [Function.update_self]
      exact ⟨fun hm => absurd (List.mem_map_of_mem hm) hnodup.1, fun hm => by cases hm⟩
    · rw [Function.update_of_ne hu, ← h.queue, hq, List.mem_cons]
      exact (or_iff_right fun heq => hu (Prod.mk.inj heq).1).symm
  cases m with
  | read =>
    have hgrant : l.grant = { l with readers := t :: l.readers, queue := rest } := by
      rw [Lock.grant, hq]
    rw [hgrant]
    refine ⟨fun u => ?_, fun u => ?_, hqueue, ?_, hnodup.2, fun u hu => ?_⟩
    · by_cases hu : u = t
      · subst hu
        simp
      · rw [Function.update_of_ne hu, ← h.readers, List.mem_cons]
        exact or_iff_right hu
    · by_cases hu : u = t
      · subst hu
        rw [Function.update_self, h.writer, hholds]
        simp
      · rw [Function.update_of_ne hu, ← h.writer]
    · refine List.nodup_cons.mpr ⟨fun hmem => ?_, h.readersNodup⟩
      cases hholds.symm.trans ((h.readers t).mp hmem)
    · cases hadmits.symm.trans hu
  | write =>
    have hgrant : l.grant = { l with writer := some t, queue := rest } := by
      rw [Lock.grant, hq]
    rw [hgrant]
    refine ⟨fun u => ?_, fun u => ?_, hqueue, h.readersNodup, hnodup.2, fun _ _ => hadmits.2⟩
    · by_cases hu : u = t
      · subst hu
        rw [Function.update_self, h.readers, hholds]
        simp
      · rw [Function.update_of_ne hu, ← h.readers]
    · by_cases hu : u = t
      · subst hu
        simp
      · rw [Function.update_of_ne hu, ← h.writer, hadmits.1]
        exact ⟨fun heq => absurd (Option.some.inj heq).symm hu, fun hn => by cases hn⟩

theorem release (h : Serves l holds waits) (ht : holds t = some m) :
    Serves (l.release t m) (Function.update holds t none) waits := by
  cases m with
  | read =>
    refine ⟨fun u => ?_, fun u => ?_, h.queue, h.readersNodup.erase t, h.queueNodup, fun u hu => ?_⟩
    · rw [Lock.release, h.readersNodup.mem_erase_iff, h.readers]
      by_cases hu : u = t
      · subst hu
        simp
      · rw [Function.update_of_ne hu]
        exact and_iff_right hu
    · by_cases hu : u = t
      · subst hu
        rw [Function.update_self, Lock.release, h.writer, ht]
        simp
      · rw [Function.update_of_ne hu]
        exact h.writer u
    · change l.readers.erase t = []
      rw [h.exclusive u hu]
      rfl
  | write =>
    have hreaders := h.exclusive t ((h.writer t).mpr ht)
    refine ⟨fun u => ?_, fun u => ?_, h.queue, h.readersNodup, h.queueNodup,
      fun u hu => by cases hu⟩
    · by_cases hu : u = t
      · subst hu
        rw [Function.update_self, Lock.release, h.readers, ht]
        simp
      · rw [Function.update_of_ne hu]
        exact h.readers u
    · by_cases hu : u = t
      · subst hu
        simp [Lock.release]
      · rw [Function.update_of_ne hu]
        refine ⟨fun hn => (by cases hn), fun hw => absurd (h.alone ht ?_) hu⟩
        rw [hw]
        exact Option.some_ne_none _

theorem withdraw (h : Serves l holds waits) (t : τ) :
    Serves (l.withdraw t) holds (Function.update waits t none) := by
  refine ⟨h.readers, h.writer, fun u m' => ?_, h.readersNodup, ?_, h.exclusive⟩
  · rw [Lock.withdraw, List.mem_filter, h.queue]
    by_cases hu : u = t
    · subst hu
      simp
    · simp [hu]
  · exact (List.filter_sublist.map Prod.fst).nodup h.queueNodup

end Serves

end FairLock
