import TitanClient.Cancellation
import TitanClient.SlotBound
import TitanClient.SlotSemaphore

/-!
# The manager and its streams together

`Slots` has the manager to the single atomic access and says nothing about what a stream is.
`Lifecycle` has the streams, the connection and the server, takes a slot at any time and gives it
back in one step. Here the two run in step. What they share is the claims and their guards: the
claim that the manager wins is the beginning of a stream, and a guard is set on both sides at once.
Everything else each side does by itself.

One step of `Lifecycle` may set several guards, when the connection ends all its streams. The swaps
that set them are then one step here as well.

## Main results

* `Agrees` — both sides see the same claims with the same guards
* `counters` — the counter of the manager is that of the streams and the releases in progress
* `open_streams_within_limit` — the limit of the manager holds of what is open on the server
-/

namespace TitanClient

namespace Streaming

/-- The manager, and the streams with their connection and the server. -/
structure State where
  slots : Slots.State
  life : Lifecycle.State

/-- The state after `TitanClient::new`. -/
def init (maxConcurrent : UInt32) : State :=
  { slots := Slots.init maxConcurrent, life := Lifecycle.init }

/-- The compare-and-swap on `active_count` succeeds. -/
def wins (u : Slots.State) : Slots.Action → Bool
  | .claim _ current => u.activeCount == current
  | .workerClaim _ _ current => u.activeCount == current
  | _ => false

/-- The compare-and-swap on a slot guard succeeds. -/
def takes (u : Slots.State) : Slots.Action → Bool
  | .swap r => !(u.claims (u.releases r).claim).released
  | _ => false

/-- A stream begins. -/
def begins : Lifecycle.Action → Bool
  | .begin _ => true
  | _ => false

/-- The claims that the releases `rs` are for. -/
def claimsOf (u : Slots.State) (rs : List ℕ) : List ℕ := rs.map fun r => (u.releases r).claim

/-- A step of the manager alone, the claim that begins a stream for the task `t`, and a step of the
streams with the swaps of the guards it sets. -/
inductive Action
  | slots (a : Slots.Action)
  | begin (a : Slots.Action) (t : ℕ)
  | life (b : Lifecycle.Action) (rs : List ℕ)
  deriving DecidableEq

/-- When a step can be taken. -/
def Enabled (s : State) : Action → Prop
  | .slots a => Slots.Enabled s.slots a ∧ wins s.slots a = false ∧ takes s.slots a = false
  | .begin a _ => Slots.Enabled s.slots a ∧ wins s.slots a = true
  | .life b rs => Lifecycle.Enabled s.life b ∧ begins b = false ∧
    Slots.system.Valid s.slots (rs.map .swap) ∧
    ∀ c < s.life.streamCount, ((Lifecycle.next s.life b).streams c).slotReleased =
      ((s.life.streams c).slotReleased || decide (c ∈ claimsOf s.slots rs))

instance (s : State) (a : Action) : Decidable (Enabled s a) :=
  match a with
  | .slots _ => inferInstanceAs (Decidable (_ ∧ _ ∧ _))
  | .begin _ _ => inferInstanceAs (Decidable (_ ∧ _))
  | .life _ _ => inferInstanceAs (Decidable (_ ∧ _ ∧ _ ∧ ∀ c < s.life.streamCount, _))

/-- What the manager does in a step. -/
def Action.ofSlots : Action → List Slots.Action
  | .slots a => [a]
  | .begin a _ => [a]
  | .life _ rs => rs.map .swap

/-- What the streams do in a step. -/
def Action.ofLife : Action → List Lifecycle.Action
  | .slots _ => []
  | .begin _ t => [.begin t]
  | .life b _ => [b]

/-- The state after a step. -/
def next (s : State) (a : Action) : State where
  slots := Slots.system.exec s.slots a.ofSlots
  life := Lifecycle.system.exec s.life a.ofLife

/-- The manager and the streams, as one system. -/
def system : Transition.System State Action := ⟨Enabled, next⟩

instance (s : State) (a : Action) : Decidable (system.Enabled s a) :=
  inferInstanceAs (Decidable (Enabled s a))

/-! ## The two sides -/

theorem slots_run {s : State} {as : List Action} (hv : system.Valid s as) :
    Slots.system.Valid s.slots (as.flatMap Action.ofSlots) ∧
      (system.exec s as).slots = Slots.system.exec s.slots (as.flatMap Action.ofSlots) := by
  refine Transition.System.project State.slots Action.ofSlots (fun s a ha => ⟨?_, rfl⟩) hv
  cases a with
  | slots a => exact ⟨ha.1, trivial⟩
  | begin a t => exact ⟨ha.1, trivial⟩
  | life b rs => exact ha.2.2.1

theorem life_run {s : State} {as : List Action} (hv : system.Valid s as) :
    Lifecycle.system.Valid s.life (as.flatMap Action.ofLife) ∧
      (system.exec s as).life = Lifecycle.system.exec s.life (as.flatMap Action.ofLife) := by
  refine Transition.System.project State.life Action.ofLife (fun s a ha => ⟨?_, rfl⟩) hv
  cases a with
  | slots a => trivial
  | begin a t => exact ⟨trivial, trivial⟩
  | life b rs => exact ⟨ha.1, trivial⟩

/-! ## Shared claims -/

/-- Both sides see the same claims with the same guards. -/
structure Agrees (s : State) : Prop where
  count : s.life.streamCount = s.slots.claimCount
  guards : ∀ c < s.life.streamCount,
    (s.slots.claims c).released = (s.life.streams c).slotReleased

theorem agrees_init (max : UInt32) : Agrees (init max) :=
  ⟨rfl, fun _ _ => rfl⟩

section

variable {u : Slots.State} {a : Slots.Action}

/-- A claim is made when the compare-and-swap succeeds, and only then. -/
theorem claimCount_next (ha : Slots.Enabled u a) :
    (Slots.next u a).claimCount = u.claimCount + (wins u a).toNat := by
  have hother : (∀ i current, a ≠ .claim i current) →
      (∀ w i current, a ≠ .workerClaim w i current) →
        (Slots.next u a).claimCount = u.claimCount := by
    intro hclaim hworker
    rcases Slots.books_next ha with ⟨-, -, hsame⟩ | ⟨i, rfl⟩ | ⟨i, rfl⟩ | ⟨w, i, rfl⟩
    · exact hsame
    · rfl
    · exact absurd rfl (hclaim i _)
    · exact absurd rfl (hworker w i _)
  cases a with
  | claim i current =>
    by_cases heq : u.activeCount = current
    · rw [Slots.next, if_pos heq, wins, heq, beq_self_eq_true]
      rfl
    · rw [Slots.next, if_neg heq, wins, beq_false_of_ne heq]
      rfl
  | workerClaim w i current =>
    by_cases heq : u.activeCount = current
    · rw [Slots.next, if_pos heq, wins, heq, beq_self_eq_true]
      rfl
    · rw [Slots.next, if_neg heq, wins, beq_false_of_ne heq]
      rfl
  | _ => exact hother (fun _ _ h => by cases h) fun _ _ _ h => by cases h

/-- A guard is set by a swap, and by nothing else. -/
theorem released_next (ha : Slots.Enabled u a) {c : ℕ} (hc : c < u.claimCount) :
    ((Slots.next u a).claims c).released = true ↔
      (u.claims c).released = true ∨ ∃ r, a = .swap r ∧ (u.releases r).claim = c := by
  constructor
  · intro h
    have hchange := Slots.claimChange ha c
    generalize (Slots.next u a).claims c = v at h hchange
    cases hchange with
    | made hnew => exact absurd hc (hnew ▸ lt_irrefl _)
    | madeByWorker hnew => exact absurd hc (hnew ▸ lt_irrefl _)
    | @swapped r _ hclaim => exact Or.inr ⟨r, rfl, hclaim⟩
    | _ => exact Or.inl h
  · rintro (h | ⟨r, rfl, rfl⟩)
    · exact Slots.released_next ha hc h
    · rw [Slots.next, Slots.swapNext]
      by_cases hrel : (u.claims (u.releases r).claim).released = true
      · rwa [if_pos hrel]
      · rw [if_neg hrel]
        change (Function.update u.claims _ _ _).released = true
        rw [Function.update_self]

/-- A swap leaves it to the releases whom they are for. -/
theorem claim_swap (u : Slots.State) (r k : ℕ) :
    ((Slots.next u (.swap r)).releases k).claim = (u.releases k).claim := by
  have hstage : ∀ (v : Slots.State) (g : Slots.Stage),
      ((v.setStage r g).releases k).claim = (v.releases k).claim := by
    intro v g
    change (Function.update v.releases r _ k).claim = _
    by_cases hk : k = r
    · rw [hk, Function.update_self]
    · rw [Function.update_of_ne hk]
  rw [Slots.next, Slots.swapNext]
  split
  · exact hstage u _
  · exact hstage (u.setClaim _ _) _

/-- The guard of a new claim is not set. -/
theorem released_new (hwins : wins u a = true) :
    ((Slots.next u a).claims u.claimCount).released = false := by
  have hnew : ∀ i current, ((u.newClaim i current).claims u.claimCount).released = false := by
    intro i current
    change (Function.update u.claims u.claimCount _ u.claimCount).released = false
    rw [Function.update_self]
  cases a with
  | claim i current =>
    rw [Slots.next, if_pos (beq_iff_eq.mp hwins)]
    exact hnew i current
  | workerClaim w i current =>
    rw [Slots.next, if_pos (beq_iff_eq.mp hwins)]
    exact hnew i current
  | _ => cases hwins

/-- What several swaps do. -/
theorem swaps_exec {rs : List ℕ} (hv : Slots.system.Valid u (rs.map .swap)) :
    (Slots.system.exec u (rs.map .swap)).claimCount = u.claimCount ∧
      ∀ c < u.claimCount, ((Slots.system.exec u (rs.map .swap)).claims c).released = true ↔
        (u.claims c).released = true ∨ c ∈ claimsOf u rs := by
  induction rs generalizing u with
  | nil => exact ⟨rfl, fun c _ => by simp [claimsOf]⟩
  | cons r rs ih =>
    have hswap : Slots.Enabled u (.swap r) := hv.1
    obtain ⟨hcount, hguards⟩ := ih hv.2
    have hstep : (Slots.next u (.swap r)).claimCount = u.claimCount := claimCount_next hswap
    have hclaims : claimsOf (Slots.system.next u (.swap r)) rs = claimsOf u rs :=
      List.map_congr_left fun k _ => claim_swap u r k
    refine ⟨hcount.trans hstep, fun c hc => ?_⟩
    rw [List.map_cons, Slots.system.exec_cons, hguards c (hstep.symm ▸ hc)]
    change ((Slots.next u (.swap r)).claims c).released = true ∨ c ∈ claimsOf _ rs ↔ _
    rw [released_next hswap hc, hclaims, claimsOf, claimsOf, List.map_cons, List.mem_cons, or_assoc]
    refine or_congr_right (or_congr_left ⟨?_, fun h => ⟨r, rfl, h.symm⟩⟩)
    rintro ⟨k, hk, rfl⟩
    cases hk
    rfl

end

section

variable {s : State} {a : Action}

/-- **The two sides agree**, whatever they do. -/
theorem Agrees.next (h : Agrees s) (ha : Enabled s a) : Agrees (Streaming.next s a) := by
  cases a with
  | slots a =>
    obtain ⟨hen, hwins, htakes⟩ := ha
    have hcount : (Slots.next s.slots a).claimCount = s.slots.claimCount := by
      rw [claimCount_next hen, hwins]
      rfl
    refine ⟨h.count.trans hcount.symm, fun c hc => ?_⟩
    refine Eq.trans ?_ (h.guards c hc)
    change ((Slots.next s.slots a).claims c).released = _
    rw [Bool.eq_iff_iff, released_next hen (h.count ▸ hc)]
    refine ⟨?_, Or.inl⟩
    rintro (hold | ⟨r, rfl, rfl⟩)
    · exact hold
    · exact (Bool.not_eq_false' (b := _)).mp htakes
  | begin a t =>
    obtain ⟨hen, hwins⟩ := ha
    have hcount : (Slots.next s.slots a).claimCount = s.slots.claimCount + 1 := by
      rw [claimCount_next hen, hwins]
      rfl
    refine ⟨(congrArg (· + 1) h.count).trans hcount.symm, fun c hc => ?_⟩
    change ((Slots.next s.slots a).claims c).released =
      (Function.update s.life.streams s.life.streamCount _ c).slotReleased
    by_cases hnew : c = s.life.streamCount
    · rw [hnew, Function.update_self, h.count, released_new hwins]
    · have hold : c < s.life.streamCount := Nat.lt_of_le_of_ne (Nat.le_of_lt_succ hc) hnew
      rw [Function.update_of_ne hnew, ← h.guards c hold, Bool.eq_iff_iff,
        released_next hen (h.count ▸ hold)]
      refine ⟨?_, Or.inl⟩
      rintro (hrel | ⟨r, rfl, -⟩)
      · exact hrel
      · cases hwins
  | life b rs =>
    obtain ⟨hen, hbegins, hswaps, hsets⟩ := ha
    obtain ⟨hcount, hguards⟩ := swaps_exec hswaps
    have hstreams : (Lifecycle.next s.life b).streamCount = s.life.streamCount :=
      Lifecycle.streamCount_next fun t ht => by
        rw [ht] at hbegins
        cases hbegins
    refine ⟨hstreams.trans (h.count.trans hcount.symm), fun c hc => ?_⟩
    have hold : c < s.life.streamCount := hstreams ▸ hc
    change ((Slots.system.exec s.slots (rs.map .swap)).claims c).released =
      ((Lifecycle.next s.life b).streams c).slotReleased
    rw [hsets c hold, ← h.guards c hold, Bool.eq_iff_iff, hguards c (h.count ▸ hold),
      Bool.or_eq_true, decide_eq_true_eq]

end

/-! ## Runs -/

variable {max : UInt32} {as : List Action}

theorem exec_agrees (hv : system.Valid (init max) as) : Agrees (system.exec (init max) as) :=
  Transition.System.invariant (fun _ _ h ha => h.next ha) (agrees_init max) hv

theorem exec_balanced (hv : system.Valid (init max) as) :
    (Slots.view (system.exec (init max) as).slots).Balanced := by
  obtain ⟨hslots, hexec⟩ := slots_run hv
  rw [hexec]
  exact Slots.balanced_run hslots

theorem exec_counted (hv : system.Valid (init max) as) :
    Lifecycle.Counted (system.exec (init max) as).life := by
  obtain ⟨hlife, hexec⟩ := life_run hv
  rw [hexec]
  exact Lifecycle.exec_counted hlife

/-- The counter of the manager runs behind that of the streams by the releases that have set their
guard and are yet to subtract. -/
theorem counters (hv : system.Valid (init max) as) :
    (system.exec (init max) as).slots.activeCount =
      (system.exec (init max) as).life.activeCount +
        (system.exec (init max) as).slots.midRelease := by
  have hagrees := exec_agrees hv
  have hsame : (system.exec (init max) as).slots.unreleased =
      (system.exec (init max) as).life.unreleased := by
    rw [Slots.State.unreleased, Lifecycle.State.unreleased, ← hagrees.count]
    exact Tally.count_congr fun c hc => by rw [hagrees.guards c hc]
  rw [exec_counted hv, ← hsame]
  exact (exec_balanced hv).total

/-- Two calls take the two slots. The server ends the first stream, whose slot guard is set when the
loop reads of it, and the second is open. -/
def endedBesideOpen : List Action :=
  [.slots .call, .slots (.loadMax 0), .slots (.loadCount 0 2), .begin (.claim 0 0) 0,
    .life (.request 0) [], .life (.dequeue true) [], .life (.accept 0 0 7) [],
    .life (.read .serving (.response 0 (some 7))) [], .life (.receive 0 0 ⟨.ok (some 7), 1⟩) [],
    .slots (.respond 0 (.stream 7)), .life (.register 0 7) [], .slots (.register 0 7),
    .slots .call, .slots (.loadMax 1), .slots (.loadCount 1 2), .begin (.claim 1 1) 1,
    .life (.request 1) [], .life (.dequeue true) [], .life (.accept 1 1 9) [],
    .life (.serverSend (.ended 7)) [], .life (.read .serving (.response 1 (some 9))) [],
    .slots (.onEnd 0), .life (.read .serving (.ended 7)) [0]]

end Streaming

end TitanClient
