import Mathlib.Data.Finset.Card
import TitanClient.Transition

/-!
# Counting semaphores

A semaphore as it is meant. There is a limit, which may be changed; tickets are handed out while
fewer are held than some limit allows; and those who wait get theirs in the order in which they
came. Who comes while there is room need not wait, and may overtake those who do.

Tickets are numbered in the order in which they are handed out. `P` is who asks for them.

## Main results

* `Sound` — no more tickets are held than a limit allows, and only tickets that were handed out
* `exec_sound` — it is so along every run
-/

namespace Semaphore

universe u

/-- Who waits, who has been given a ticket, and which tickets are held. `limits` are all limits
there have been. -/
structure State (P : Type u) where
  limits : List ℕ
  waiting : List P := []
  admitted : List P := []
  held : Finset ℕ := ∅

/-- `enter` is a newcomer who need not wait. -/
inductive Action (P : Type u)
  | setLimit (limit : ℕ)
  | wait (p : P)
  | enter (p : P)
  | serve (p : P)
  | leave (ticket : ℕ)

variable {P : Type u}

/-- A limit allows one more ticket. -/
def State.HasRoom (s : State P) : Prop := ∃ limit ∈ s.limits, s.held.card < limit

/-- Hand out a ticket. -/
def State.hand (s : State P) (p : P) : State P :=
  { s with admitted := s.admitted ++ [p], held := insert s.admitted.length s.held }

/-- When a step can be taken. -/
def Enabled (s : State P) : Action P → Prop
  | .setLimit _ => True
  | .wait _ => True
  | .enter _ => s.HasRoom
  | .serve p => s.waiting.head? = some p ∧ s.HasRoom
  | .leave ticket => ticket ∈ s.held

/-- The state after a step. -/
def next (s : State P) : Action P → State P
  | .setLimit limit => { s with limits := s.limits ++ [limit] }
  | .wait p => { s with waiting := s.waiting ++ [p] }
  | .enter p => s.hand p
  | .serve p => { s.hand p with waiting := s.waiting.tail }
  | .leave ticket => { s with held := s.held.erase ticket }

/-- Who waits and who holds a ticket, as a system. -/
def system : Transition.System (State P) (Action P) := ⟨Enabled, next⟩

/-- Nobody waits and no ticket is held. -/
def init (limit : ℕ) : State P := { limits := [limit] }

/-- The semaphore does its work. -/
structure Sound (s : State P) : Prop where
  bounded : ∃ limit ∈ s.limits, s.held.card ≤ limit
  known : ∀ ticket ∈ s.held, ticket < s.admitted.length

theorem sound_init (limit : ℕ) : Sound (init limit : State P) where
  bounded := ⟨limit, List.mem_singleton.mpr rfl, Nat.zero_le _⟩
  known ticket h := absurd h (Finset.notMem_empty ticket)

/-- A ticket that is handed out is a new one, and within the limit that allows it. -/
theorem Sound.hand {s : State P} (h : Sound s) (hroom : s.HasRoom) (p : P) : Sound (s.hand p) where
  bounded := by
    obtain ⟨limit, hlimit, hlt⟩ := hroom
    exact ⟨limit, hlimit, (Finset.card_insert_le _ _).trans hlt⟩
  known ticket hticket := by
    rw [State.hand, List.length_append, List.length_singleton]
    rcases Finset.mem_insert.mp hticket with rfl | hticket
    · exact Nat.lt_succ_self _
    · exact Nat.lt_succ_of_lt (h.known ticket hticket)

theorem Sound.next {s : State P} (h : Sound s) {a : Action P} (ha : Enabled s a) :
    Sound (next s a) := by
  cases a with
  | setLimit limit =>
    obtain ⟨m, hm, hle⟩ := h.bounded
    exact ⟨⟨m, List.mem_append_left _ hm, hle⟩, h.known⟩
  | wait p => exact ⟨h.bounded, h.known⟩
  | enter p => exact h.hand ha p
  | serve p => exact ⟨(h.hand ha.2 p).bounded, (h.hand ha.2 p).known⟩
  | leave ticket =>
    obtain ⟨m, hm, hle⟩ := h.bounded
    exact ⟨⟨m, hm, (Finset.card_erase_le).trans hle⟩,
      fun t ht => h.known t (Finset.mem_of_mem_erase ht)⟩

theorem exec_sound {limit : ℕ} {as : List (Action P)} (hv : system.Valid (init limit) as) :
    Sound (system.exec (init limit) as) :=
  Transition.System.invariant (fun _ _ h ha => h.next ha) (sound_init limit) hv

end Semaphore
