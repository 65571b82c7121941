import Mathlib.Logic.Function.Basic
import TitanClient.Transition

/-!
# Handing a queue from worker to worker

A queue with many producers and one consumer at a time, of which there is none while there is
nothing to do. A flag says whether there is one. A producer puts its item into the queue and then
tries to set the flag; if it is the one who sets it, it brings a worker to life. A worker takes
items from the front, and may put one back there; once it finds the queue empty it clears the flag,
looks again, and tries to set the flag itself if something has arrived in the meantime.

Clearing the flag, looking again and setting the flag are separate steps, so several workers on
their way out, a new one and any number of producers can overlap.

Everything here is about arbitrary types of items, producers and workers.

## Main results

* `Exclusive` — the flag has exactly one holder when it is set, and none when it is not
* `State.Attended` — items in the queue are somebody's concern
* `Ordered` — items are served in the order of their arrival, none twice, and none is lost
* `exec_sound` — all that along every run
-/

namespace Handoff

universe u v w

/-- Where a producer stands: elsewhere, about to set the flag, or about to bring a worker to
life. -/
inductive Producer
  | away
  | flagging
  | spawning
  deriving DecidableEq

/-- Where a worker stands. It holds the item it has taken from the queue until it serves it or puts
it back. -/
inductive Worker (α : Type u)
  | off
  | serving
  | holding (x : α)
  | rechecking
  | reflagging

/-- The queue, the flag and both sides; `pushed` and `served` are read by no step. -/
structure State (α : Type u) (P : Type v) (W : Type w) where
  queue : List α := []
  active : Bool := false
  producers : P → Producer := fun _ => .away
  workers : W → Worker α := fun _ => .off
  pushed : List α := []
  served : List α := []

/-- The steps of producers `p` and workers `w`. -/
inductive Action (α : Type u) (P : Type v) (W : Type w)
  | push (p : P) (x : α)
  | flag (p : P)
  | spawn (p : P) (w : W)
  | pop (w : W) (x : α)
  | putBack (w : W) (x : α)
  | serve (w : W) (x : α)
  | idle (w : W)
  | recheck (w : W)
  | reflag (w : W)

variable {α : Type u} {P : Type v} {W : Type w}

namespace State

/-- Move a producer to another position. -/
def setProducer [DecidableEq P] (s : State α P W) (p : P) (q : Producer) : State α P W :=
  { s with producers := Function.update s.producers p q }

/-- Move a worker to another position. -/
def setWorker [DecidableEq W] (s : State α P W) (w : W) (v : Worker α) : State α P W :=
  { s with workers := Function.update s.workers w v }

end State

/-- When a step can be taken. -/
def Enabled (s : State α P W) : Action α P W → Prop
  | .push p _ => s.producers p = .away
  | .flag p => s.producers p = .flagging
  | .spawn p w => s.producers p = .spawning ∧ s.workers w = .off
  | .pop w x => s.workers w = .serving ∧ s.queue.head? = some x
  | .putBack w x => s.workers w = .holding x
  | .serve w x => s.workers w = .holding x
  | .idle w => s.workers w = .serving
  | .recheck w => s.workers w = .rechecking
  | .reflag w => s.workers w = .reflagging

/-- The state after a step. -/
def next [DecidableEq P] [DecidableEq W] (s : State α P W) : Action α P W → State α P W
  | .push p x =>
    { s.setProducer p .flagging with queue := s.queue ++ [x], pushed := s.pushed ++ [x] }
  | .flag p =>
    if s.active then s.setProducer p .away
    else { s.setProducer p .spawning with active := true }
  | .spawn p w => (s.setProducer p .away).setWorker w .serving
  | .pop w x => { s.setWorker w (.holding x) with queue := s.queue.tail }
  | .putBack w x => { s.setWorker w .serving with queue := x :: s.queue }
  | .serve w x => { s.setWorker w .serving with served := s.served ++ [x] }
  | .idle w => { s.setWorker w .rechecking with active := false }
  | .recheck w => s.setWorker w (if s.queue.isEmpty then .off else .reflagging)
  | .reflag w =>
    if s.active then s.setWorker w .off
    else { s.setWorker w .serving with active := true }

/-- Producers and workers as a system. -/
def system [DecidableEq P] [DecidableEq W] : Transition.System (State α P W) (Action α P W) :=
  ⟨Enabled, next⟩

/-! ## The flag -/

/-- The worker is in its loop, with or without an item in its hands. -/
def Worker.IsServing : Worker α → Prop
  | .serving => True
  | .holding _ => True
  | _ => False

/-- Who holds the flag: a producer about to bring a worker to life, or a worker in its loop. -/
def State.Holds (s : State α P W) : P ⊕ W → Prop
  | .inl p => s.producers p = .spawning
  | .inr w => (s.workers w).IsServing

/-- The flag has one holder when it is set, and none when it is not. -/
structure Exclusive (s : State α P W) : Prop where
  unique : ∀ x y, s.Holds x → s.Holds y → x = y
  active : s.active = true ↔ ∃ x, s.Holds x

section

variable {s u : State α P W}

theorem holds_setProducer [DecidableEq P] {p : P} {q : Producer} {x : P ⊕ W} :
    (s.setProducer p q).Holds x ↔ x = .inl p ∧ q = .spawning ∨ x ≠ .inl p ∧ s.Holds x := by
  cases x with
  | inl p' =>
    change Function.update s.producers p q p' = .spawning ↔ _
    by_cases hp : p' = p
    · subst hp
      simp
    · simp [hp, State.Holds]
  | inr w => simp [State.Holds, State.setProducer]

theorem holds_setWorker [DecidableEq W] {w : W} {v : Worker α} {x : P ⊕ W} :
    (s.setWorker w v).Holds x ↔ x = .inr w ∧ v.IsServing ∨ x ≠ .inr w ∧ s.Holds x := by
  cases x with
  | inl p => simp [State.Holds, State.setWorker]
  | inr w' =>
    change (Function.update s.workers w v w').IsServing ↔ _
    by_cases hw : w' = w
    · subst hw
      simp
    · simp [hw, State.Holds]

namespace Exclusive

/-- Nobody takes the flag or gives it up. -/
theorem keep (h : Exclusive s) (hactive : u.active = s.active)
    (hholds : ∀ x, u.Holds x ↔ s.Holds x) : Exclusive u where
  unique x y hx hy := h.unique x y ((hholds x).mp hx) ((hholds y).mp hy)
  active := by
    rw [hactive, h.active]
    exact exists_congr fun x => (hholds x).symm

/-- Somebody takes the flag, or has got it from the holder before. -/
theorem take (z : P ⊕ W) (hactive : u.active = true) (hholds : ∀ x, u.Holds x ↔ x = z) :
    Exclusive u where
  unique x y hx hy := ((hholds x).mp hx).trans ((hholds y).mp hy).symm
  active := by
    rw [hactive]
    exact ⟨fun _ => ⟨z, (hholds z).mpr rfl⟩, fun _ => rfl⟩

/-- The holder gives the flag up. -/
theorem give (hactive : u.active = false) (hholds : ∀ x, ¬u.Holds x) : Exclusive u where
  unique x _ hx := absurd hx (hholds x)
  active := by
    rw [hactive]
    exact ⟨Bool.noConfusion, fun ⟨x, hx⟩ => absurd hx (hholds x)⟩

theorem not_holds (h : Exclusive s) (hactive : s.active ≠ true) (x : P ⊕ W) : ¬s.Holds x :=
  fun hx => hactive (h.active.mpr ⟨x, hx⟩)

/-- A worker that is in its loop and stays there, or is out of it and stays out, changes nothing
about the flag. -/
theorem setWorker [DecidableEq W] (h : Exclusive s) {w : W} {v : Worker α}
    (hv : (s.workers w).IsServing ↔ v.IsServing) : Exclusive (s.setWorker w v) := by
  refine h.keep rfl fun x => ?_
  rw [holds_setWorker]
  by_cases hx : x = .inr w
  · subst hx
    simp [State.Holds, hv]
  · simp [hx]

/-- Neither does a producer that is not about to bring a worker to life, before or after. -/
theorem setProducer [DecidableEq P] (h : Exclusive s) {p : P} (hp : s.producers p ≠ .spawning)
    {q : Producer} (hq : q ≠ .spawning) : Exclusive (s.setProducer p q) := by
  refine h.keep rfl fun x => ?_
  rw [holds_setProducer]
  by_cases hx : x = .inl p
  · subst hx
    simp [hq, State.Holds, hp]
  · simp [hx]

variable [DecidableEq P] [DecidableEq W]

theorem next (h : Exclusive s) {a : Action α P W} (ha : Enabled s a) :
    Exclusive (next s a) := by
  cases a with
  | push p x =>
    have hp : s.producers p ≠ .spawning := by
      rw [show s.producers p = .away from ha]
      exact Producer.noConfusion
    have hset := h.setProducer hp (q := .flagging) Producer.noConfusion
    exact ⟨hset.unique, hset.active⟩
  | flag p =>
    have hp : s.producers p ≠ .spawning := by
      rw [show s.producers p = .flagging from ha]
      exact Producer.noConfusion
    rw [Handoff.next]
    by_cases hactive : s.active = true
    · rw [if_pos hactive]
      exact h.setProducer hp Producer.noConfusion
    · rw [if_neg hactive]
      refine take (.inl p) rfl fun x => ?_
      change (s.setProducer p .spawning).Holds x ↔ _
      rw [holds_setProducer]
      simp [h.not_holds hactive x]
  | spawn p w =>
    have hhold : s.Holds (.inl p) := ha.1
    refine take (.inr w) (h.active.mpr ⟨_, hhold⟩) fun x => ?_
    change ((s.setProducer p .away).setWorker w .serving).Holds x ↔ _
    rw [holds_setWorker, holds_setProducer]
    constructor
    · rintro (⟨hx, -⟩ | ⟨-, ⟨-, hq⟩ | ⟨hx, hs⟩⟩)
      · exact hx
      · cases hq
      · exact absurd (h.unique x (.inl p) hs hhold) hx
    · intro hx
      exact Or.inl ⟨hx, trivial⟩
  | pop w x =>
    have hset : Exclusive (s.setWorker w (.holding x)) := h.setWorker (by rw [ha.1]; exact Iff.rfl)
    exact ⟨hset.unique, hset.active⟩
  | putBack w x =>
    have hset : Exclusive (s.setWorker w .serving) :=
      h.setWorker (by rw [show s.workers w = .holding x from ha]; exact Iff.rfl)
    exact ⟨hset.unique, hset.active⟩
  | serve w x =>
    have hset : Exclusive (s.setWorker w .serving) :=
      h.setWorker (by rw [show s.workers w = .holding x from ha]; exact Iff.rfl)
    exact ⟨hset.unique, hset.active⟩
  | idle w =>
    have hhold : s.Holds (.inr w) := by
      change (s.workers w).IsServing
      rw [show s.workers w = .serving from ha]
      trivial
    refine give rfl fun x => ?_
    change ¬(s.setWorker w .rechecking).Holds x
    rw [holds_setWorker]
    rintro (⟨-, hv⟩ | ⟨hx, hs⟩)
    · exact hv
    · exact hx (h.unique x (.inr w) hs hhold)
  | recheck w =>
    rw [Handoff.next]
    refine h.setWorker ?_
    rw [show s.workers w = .rechecking from ha]
    split <;> exact Iff.rfl
  | reflag w =>
    rw [Handoff.next]
    by_cases hactive : s.active = true
    · rw [if_pos hactive]
      exact h.setWorker (by rw [show s.workers w = .reflagging from ha]; exact Iff.rfl)
    · rw [if_neg hactive]
      refine take (.inr w) rfl fun x => ?_
      change (s.setWorker w .serving).Holds x ↔ _
      rw [holds_setWorker]
      constructor
      · rintro (⟨hx, -⟩ | ⟨-, hs⟩)
        · exact hx
        · exact absurd hs (h.not_holds hactive x)
      · intro hx
        exact Or.inl ⟨hx, trivial⟩

end Exclusive

/-! ## The queue -/

/-- A worker has cleared the flag and has yet to look again, or to try to set it. -/
def Worker.IsLeaving : Worker α → Prop
  | .rechecking => True
  | .reflagging => True
  | _ => False

/-- Items in the queue are somebody's concern: the flag is set, a worker on its way out has yet to
make up its mind, or a producer has yet to try to set the flag. -/
def State.Attended (s : State α P W) : Prop :=
  s.queue ≠ [] →
    s.active = true ∨ (∃ w, (s.workers w).IsLeaving) ∨ ∃ p, s.producers p = .flagging

/-- Items leave the queue in the order in which they came, and come back to the front at most. -/
structure Ordered (s : State α P W) : Prop where
  held : ∀ w x, s.workers w = .holding x → s.pushed = s.served ++ x :: s.queue
  free : (∀ w x, s.workers w ≠ .holding x) → s.pushed = s.served ++ s.queue

theorem attended_next [DecidableEq P] [DecidableEq W] (he : Exclusive s) {a : Action α P W}
    (ha : Enabled s a) : (next s a).Attended := by
  have hserving : ∀ {w : W} {v : Worker α}, s.workers w = v → v.IsServing → s.active = true := by
    rintro w v rfl hv
    exact he.active.mpr ⟨.inr w, hv⟩
  intro hqueue
  cases a with
  | push p x => exact Or.inr (Or.inr ⟨p, Function.update_self ..⟩)
  | flag p =>
    left
    rw [next]
    split
    · assumption
    · rfl
  | spawn p w => exact Or.inl (he.active.mpr ⟨.inl p, ha.1⟩)
  | pop w x => exact Or.inl (hserving ha.1 trivial)
  | putBack w x => exact Or.inl (hserving ha trivial)
  | serve w x => exact Or.inl (hserving ha trivial)
  | idle w =>
    refine Or.inr (Or.inl ⟨w, ?_⟩)
    have hself : (next s (.idle w)).workers w = .rechecking := Function.update_self ..
    rw [hself]
    trivial
  | recheck w =>
    have hsame : s.queue ≠ [] := hqueue
    refine Or.inr (Or.inl ⟨w, ?_⟩)
    have hself : (next s (.recheck w)).workers w = if s.queue.isEmpty then .off else .reflagging :=
      Function.update_self ..
    rw [hself, if_neg (by rwa [List.isEmpty_iff])]
    trivial
  | reflag w =>
    left
    rw [next]
    split
    · assumption
    · rfl

namespace Ordered

/-- Nothing about the order changes as long as no item changes hands. -/
theorem keep (h : Ordered s) (hpushed : u.pushed = s.pushed) (hserved : u.served = s.served)
    (hqueue : u.queue = s.queue) (hworkers : ∀ w x, u.workers w = .holding x ↔
      s.workers w = .holding x) : Ordered u where
  held w x hw := by
    rw [hpushed, hserved, hqueue]
    exact h.held w x ((hworkers w x).mp hw)
  free hfree := by
    rw [hpushed, hserved, hqueue]
    exact h.free fun w x hw => hfree w x ((hworkers w x).mpr hw)

/-- A worker that has no item, before or after, changes nothing about the order. -/
theorem setWorker [DecidableEq W] (h : Ordered s) {w : W} {v : Worker α}
    (hw : ∀ x, s.workers w ≠ .holding x) (hv : ∀ x, v ≠ .holding x) :
    Ordered (s.setWorker w v) := by
  refine h.keep rfl rfl rfl fun w' x => ?_
  by_cases heq : w' = w
  · subst heq
    have hself : (s.setWorker w' v).workers w' = v := Function.update_self ..
    rw [hself]
    exact ⟨fun hx => absurd hx (hv x), fun hx => absurd hx (hw x)⟩
  · have hother : (s.setWorker w v).workers w' = s.workers w' := Function.update_of_ne heq ..
    rw [hother]

/-- The only item in anybody's hands is in those of the holder of the flag. -/
theorem not_holding (he : Exclusive s) {w w' : W} (hw : (s.workers w).IsServing) (hne : w' ≠ w)
    (x : α) : s.workers w' ≠ .holding x := by
  intro hx
  have hw' : s.Holds (.inr w') := by
    change (s.workers w').IsServing
    rw [hx]
    trivial
  exact hne (Sum.inr.inj (he.unique (.inr w') (.inr w) hw' hw))

theorem next [DecidableEq P] [DecidableEq W] (h : Ordered s) (he : Exclusive s)
    {a : Action α P W} (ha : Enabled s a) : Ordered (next s a) := by
  cases a with
  | push p x =>
    refine ⟨fun w y hw => ?_, fun hfree => ?_⟩
    · change s.pushed ++ [x] = s.served ++ y :: (s.queue ++ [x])
      rw [h.held w y hw, List.append_assoc, List.cons_append]
    · change s.pushed ++ [x] = s.served ++ (s.queue ++ [x])
      rw [h.free hfree, List.append_assoc]
  | flag p =>
    rw [Handoff.next]
    split
    · exact h.keep rfl rfl rfl fun _ _ => Iff.rfl
    · exact h.keep rfl rfl rfl fun _ _ => Iff.rfl
  | spawn p w =>
    have hset : Ordered (s.setProducer p .away) := h.keep rfl rfl rfl fun _ _ => Iff.rfl
    refine hset.setWorker (fun x hx => ?_) nofun
    cases ha.2.symm.trans hx
  | pop w x =>
    obtain ⟨hw, hhead⟩ := ha
    have hserving : (s.workers w).IsServing := by
      rw [hw]
      trivial
    have hfree : ∀ w' y, s.workers w' ≠ .holding y := by
      intro w' y hy
      by_cases heq : w' = w
      · rw [heq, hw] at hy
        cases hy
      · exact not_holding he hserving heq y hy
    have hself : (Handoff.next s (.pop w x)).workers w = .holding x := Function.update_self ..
    refine ⟨fun w' y hy => ?_, fun hnone => absurd hself (hnone w x)⟩
    by_cases heq : w' = w
    · rw [heq, hself] at hy
      cases hy
      change s.pushed = s.served ++ x :: s.queue.tail
      rw [← List.eq_cons_of_mem_head? hhead]
      exact h.free hfree
    · have hother : (Handoff.next s (.pop w x)).workers w' = s.workers w' :=
        Function.update_of_ne heq ..
      exact absurd (hother.symm.trans hy) (hfree w' y)
  | putBack w x =>
    have hserving : (s.workers w).IsServing := by
      rw [show s.workers w = .holding x from ha]
      trivial
    refine ⟨fun w' y hy => ?_, fun _ => h.held w x ha⟩
    by_cases heq : w' = w
    · have hself : (Handoff.next s (.putBack w x)).workers w = .serving := Function.update_self ..
      rw [heq, hself] at hy
      cases hy
    · have hother : (Handoff.next s (.putBack w x)).workers w' = s.workers w' :=
        Function.update_of_ne heq ..
      exact absurd (hother.symm.trans hy) (not_holding he hserving heq y)
  | serve w x =>
    have hserving : (s.workers w).IsServing := by
      rw [show s.workers w = .holding x from ha]
      trivial
    refine ⟨fun w' y hy => ?_, fun _ => ?_⟩
    · by_cases heq : w' = w
      · have hself : (Handoff.next s (.serve w x)).workers w = .serving := Function.update_self ..
        rw [heq, hself] at hy
        cases hy
      · have hother : (Handoff.next s (.serve w x)).workers w' = s.workers w' :=
          Function.update_of_ne heq ..
        exact absurd (hother.symm.trans hy) (not_holding he hserving heq y)
    · change s.pushed = s.served ++ [x] ++ s.queue
      rw [List.append_assoc, List.singleton_append]
      exact h.held w x ha
  | idle w =>
    have hset : Ordered (s.setWorker w .rechecking) :=
      h.setWorker (fun x hx => by cases hx.symm.trans ha) nofun
    exact ⟨hset.held, hset.free⟩
  | recheck w =>
    rw [Handoff.next]
    refine h.setWorker (fun x hx => by cases hx.symm.trans ha) fun x hx => ?_
    split at hx <;> cases hx
  | reflag w =>
    have hw : ∀ x, s.workers w ≠ .holding x := fun x hx => by cases hx.symm.trans ha
    rw [Handoff.next]
    split
    · exact h.setWorker hw nofun
    · have hset : Ordered (s.setWorker w .serving) := h.setWorker hw nofun
      exact ⟨hset.held, hset.free⟩

/-- What has been served is what came first. -/
theorem served_prefix (h : Ordered s) : s.served <+: s.pushed := by
  by_cases hheld : ∃ w x, s.workers w = .holding x
  · obtain ⟨w, x, hw⟩ := hheld
    exact ⟨_, (h.held w x hw).symm⟩
  · exact ⟨_, (h.free fun w x hw => hheld ⟨w, x, hw⟩).symm⟩

/-- What has come is served, in somebody's hands or in the queue. -/
theorem mem_pushed (h : Ordered s) {x : α} :
    x ∈ s.pushed ↔ x ∈ s.served ∨ (∃ w, s.workers w = .holding x) ∨ x ∈ s.queue := by
  by_cases hheld : ∃ w y, s.workers w = .holding y
  · obtain ⟨w, y, hw⟩ := hheld
    rw [h.held w y hw, List.mem_append, List.mem_cons]
    constructor
    · rintro (hx | rfl | hx)
      · exact Or.inl hx
      · exact Or.inr (Or.inl ⟨w, hw⟩)
      · exact Or.inr (Or.inr hx)
    · rintro (hx | ⟨w', hw'⟩ | hx)
      · exact Or.inl hx
      · have hsame := (h.held w' x hw').symm.trans (h.held w y hw)
        exact Or.inr (Or.inl (List.cons.inj (List.append_cancel_left hsame)).1)
      · exact Or.inr (Or.inr hx)
  · rw [h.free fun w y hw => hheld ⟨w, y, hw⟩, List.mem_append]
    constructor
    · exact fun hx => hx.imp_right Or.inr
    · rintro (hx | ⟨w, hw⟩ | hx)
      · exact Or.inl hx
      · exact absurd ⟨w, x, hw⟩ hheld
      · exact Or.inr hx

end Ordered

/-- What holds of every state that can be reached. -/
structure Sound (s : State α P W) : Prop where
  exclusive : Exclusive s
  attended : s.Attended
  ordered : Ordered s

theorem sound_init : Sound ({} : State α P W) where
  exclusive := Exclusive.give rfl fun x hx => by rcases x with p | w <;> cases hx
  attended h := absurd rfl h
  ordered := ⟨nofun, fun _ => rfl⟩

/-- **The flag has one holder, nothing is stranded, and nothing is served out of turn.** -/
theorem exec_sound [DecidableEq P] [DecidableEq W] {s : State α P W} (h : Sound s)
    {as : List (Action α P W)} (hv : system.Valid s as) : Sound (system.exec s as) :=
  Transition.System.invariant (fun _ _ h ha => ⟨h.exclusive.next ha,
    attended_next h.exclusive ha, h.ordered.next h.exclusive ha⟩) h hv

end

end Handoff
