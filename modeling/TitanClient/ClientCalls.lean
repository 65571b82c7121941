import TitanClient.Client

/-!
# The calls of the client

A `close` holds the lock of the connection for reading while it awaits `Connection::shutdown`, and
for writing when it clears it. Several calls of `close` may overlap.

`Moved` says once how a call can move, `Drives` what the connection does meanwhile; the invariants
are derived from that.

## Main results

* `calls_next` — how a call moves
* `Sound` — a cell is empty only after a call of `shutdown` has run to its end, the manager's first
-/

namespace TitanClient

namespace Client

open FairLock (Lock Mode Serves)

/-! ## How a call moves -/

/-- A call moves from one position to another, in a step from `s` to `s'`. -/
inductive Moved (s s' : State) : Position → Position → Prop
  | peek (c : Cell) (h : s.conn.connect = .returned ∧ s.gone = false) :
      Moved s s' .idle (.peekEntered c)
  | close (h : s.conn.connect = .returned ∧ s.gone = false) : Moved s s' .idle .closeEntered
  | enqueued {p : Position} {c : Cell} {m : Mode} (h : p.requests c = some m) :
      Moved s s' p p.enqueued
  | granted {p : Position} {c : Cell} {m : Mode} (h : p.waits c = some m) : Moved s s' p p.granted
  | looked (c : Cell) : Moved s s' (.peeking c) (.peeked c (s.present c))
  | entered (h : s'.conn = Publishing.next s.conn .shutdown) :
      Moved s s' .closing (.shuttingDown s.conn.shutdownCount)
  | skipped (h : s.present .connection = false) : Moved s s' .closing (.clearEntered .manager)
  | left {k : ℕ} (h : s.conn.shutdowns k = .done) :
      Moved s s' (.shuttingDown k) (.clearEntered .manager)
  | cleared {c : Cell} (h : s'.present c = false) : Moved s s' (.clearing c) c.next
  | cancelled {p : Position} (h : Cancellable s p) : Moved s s' p .cancelled

/-- The call that takes the step, if it is one of a call begun before. -/
def Action.call : Action → Option ℕ
  | .request t _ _ => some t
  | .grant t _ _ => some t
  | .look t _ => some t
  | .enter t => some t
  | .leave t _ => some t
  | .clear t _ => some t
  | .cancel t => some t
  | _ => none

section

variable {s : State} {a : Action} {t u : ℕ}

theorem cancelNext_spec (ha : Cancellable s (s.calls t)) :
    (cancelNext s t).calls = Function.update s.calls t .cancelled ∧
      (cancelNext s t).callCount = s.callCount ∧ (cancelNext s t).present = s.present ∧
      (cancelNext s t).gone = s.gone ∧
      ((cancelNext s t).conn = s.conn ∨ ∃ k, s.calls t = .shuttingDown k ∧
        (cancelNext s t).conn = Publishing.next s.conn (.abandonShutdown k)) := by
  cases hp : s.calls t with
  | peekWaiting c => rw [cancelNext, hp]; exact ⟨rfl, rfl, rfl, rfl, Or.inl rfl⟩
  | closeWaiting => rw [cancelNext, hp]; exact ⟨rfl, rfl, rfl, rfl, Or.inl rfl⟩
  | clearWaiting c => rw [cancelNext, hp]; exact ⟨rfl, rfl, rfl, rfl, Or.inl rfl⟩
  | shuttingDown k => rw [cancelNext, hp]; exact ⟨rfl, rfl, rfl, rfl, Or.inr ⟨k, rfl, rfl⟩⟩
  | _ =>
    rw [hp] at ha
    exact ha.elim

theorem enterNext_present (h : s.present .connection = true) :
    enterNext s t = { s.setCall t (.shuttingDown s.conn.shutdownCount) with
      conn := Publishing.next s.conn .shutdown } := if_pos h

theorem enterNext_absent (h : s.present .connection = false) :
    enterNext s t = s.giveBack t .connection .read (.clearEntered .manager) :=
  if_neg (Bool.eq_false_iff.mp h)

/-- Who takes a step has begun. -/
theorem call_ne_idle (hs : Consistent s) (ha : Enabled s a) (ht : a.call = some t) :
    s.calls t ≠ .idle := by
  intro hidle
  cases a with
  | request v c m =>
    cases ht
    have hrequests : (s.calls t).requests c = some m := ha
    rw [hidle] at hrequests
    cases hrequests
  | grant v c m =>
    cases ht
    have hwaits := ((hs.serves c).queue t m).mp (List.mem_of_mem_head? ha.1)
    rw [hidle] at hwaits
    cases hwaits
  | look v c =>
    cases ht
    cases hidle.symm.trans ha
  | enter v =>
    cases ht
    cases hidle.symm.trans ha
  | leave v k =>
    cases ht
    cases hidle.symm.trans ha.1
  | clear v c =>
    cases ht
    cases hidle.symm.trans ha
  | cancel v =>
    cases ht
    have hcan : Cancellable s (s.calls t) := ha
    rw [hidle] at hcan
    exact hcan
  | _ => cases ht

/-- Who takes the step moves. -/
theorem calls_own (hs : Consistent s) (ha : Enabled s a) (ht : a.call = some t) :
    ∃ p, (next s a).calls = Function.update s.calls t p ∧ Moved s (next s a) (s.calls t) p := by
  cases a with
  | request v c m =>
    cases ht
    exact ⟨_, rfl, .enqueued ha⟩
  | grant v c m =>
    cases ht
    exact ⟨_, rfl, .granted (((hs.serves c).queue t m).mp (List.mem_of_mem_head? ha.1))⟩
  | look v c =>
    cases ht
    have hp : s.calls t = .peeking c := ha
    refine ⟨_, rfl, ?_⟩
    rw [hp]
    exact .looked c
  | enter v =>
    cases ht
    have hp : s.calls t = .closing := ha
    rw [hp]
    change ∃ p, (enterNext s t).calls = _ ∧ Moved s (enterNext s t) _ _
    cases hpresent : s.present .connection with
    | true =>
      rw [enterNext_present hpresent]
      exact ⟨_, rfl, .entered rfl⟩
    | false =>
      rw [enterNext_absent hpresent]
      exact ⟨_, rfl, .skipped hpresent⟩
  | leave v k =>
    cases ht
    refine ⟨_, rfl, ?_⟩
    rw [ha.1]
    exact .left ha.2
  | clear v c =>
    cases ht
    have hp : s.calls t = .clearing c := ha
    refine ⟨_, rfl, ?_⟩
    rw [hp]
    exact .cleared (Function.update_self ..)
  | cancel v =>
    cases ht
    exact ⟨_, (cancelNext_spec ha).1, .cancelled ha⟩
  | _ => cases ht

/-- Everybody else stays, except a call that begins. -/
theorem calls_other (hs : Consistent s) (ha : Enabled s a) (hu : a.call ≠ some u)
    (hlt : u < s.callCount) : (next s a).calls u = s.calls u := by
  have hown : ∀ {t p}, a.call = some t → (next s a).calls = Function.update s.calls t p →
      (next s a).calls u = s.calls u := by
    intro t p ht hcalls
    rw [hcalls]
    refine Function.update_of_ne (fun heq => hu ?_) _ _
    rw [heq]
    exact ht
  cases hcall : a.call with
  | some t =>
    obtain ⟨p, hcalls, -⟩ := calls_own hs ha hcall
    exact hown hcall hcalls
  | none =>
    cases a with
    | conn b => rfl
    | dropClient => rfl
    | peek c => exact Function.update_of_ne (Nat.ne_of_lt hlt) _ _
    | close => exact Function.update_of_ne (Nat.ne_of_lt hlt) _ _
    | _ => cases hcall

theorem callCount_next (ha : Enabled s a) :
    s.callCount ≤ (next s a).callCount := by
  cases a with
  | peek c => exact Nat.le_succ _
  | close => exact Nat.le_succ _
  | enter t =>
    change _ ≤ (enterNext s t).callCount
    rw [enterNext]
    split <;> exact le_rfl
  | cancel t => exact (cancelNext_spec ha).2.1.ge
  | _ => exact le_rfl

/-- **How a call moves.** In any step it stays where it is or moves. -/
theorem calls_next (hs : Consistent s) (ha : Enabled s a) (u : ℕ) :
    (next s a).calls u = s.calls u ∨ Moved s (next s a) (s.calls u) ((next s a).calls u) := by
  by_cases hu : a.call = some u
  · obtain ⟨p, hcalls, hmoved⟩ := calls_own hs ha hu
    rw [hcalls, Function.update_self]
    exact Or.inr hmoved
  · by_cases hlt : u < s.callCount
    · exact Or.inl (calls_other hs ha hu hlt)
    · have hidle := hs.fresh u (Nat.le_of_not_lt hlt)
      have hbegin : ∀ {s' : State} {p : Position}, Moved s s' .idle p →
          Function.update s.calls s.callCount p u = s.calls u ∨
            Moved s s' (s.calls u) (Function.update s.calls s.callCount p u) := by
        intro s' p hp
        by_cases heq : u = s.callCount
        · rw [hidle, heq, Function.update_self]
          exact Or.inr hp
        · exact Or.inl (Function.update_of_ne heq _ _)
      cases hcall : a.call with
      | some t =>
        obtain ⟨p, hcalls, -⟩ := calls_own hs ha hcall
        rw [hcalls]
        refine Or.inl (Function.update_of_ne (fun heq => hu ?_) _ _)
        rw [heq]
        exact hcall
      | none =>
        cases a with
        | conn b => exact Or.inl rfl
        | dropClient => exact Or.inl rfl
        | peek c => exact hbegin (.peek c ha)
        | close => exact hbegin (.close ha)
        | _ => cases hcall

/-- A cell is cleared and never set. -/
theorem present_next (ha : Enabled s a) (c : Cell) :
    (next s a).present c = s.present c ∨
      ∃ t, a = .clear t c ∧ s.calls t = .clearing c ∧ (next s a).present c = false := by
  cases a with
  | enter t =>
    change (enterNext s t).present c = _ ∨ _
    rw [enterNext]
    split <;> exact Or.inl rfl
  | clear t d =>
    by_cases hd : c = d
    · subst hd
      exact Or.inr ⟨t, rfl, ha, Function.update_self ..⟩
    · exact Or.inl (Function.update_of_ne hd _ _)
  | cancel t => exact Or.inl (congrFun (cancelNext_spec ha).2.2.1 c)
  | _ => exact Or.inl rfl

end

/-! ## What the connection does -/

/-- A call of `shutdown` has run to its end. -/
def Published (u : Publishing.State) : Prop :=
  u.cancelled = true ∧ (.shutdown, .disconnected "Client shutdown") ∈ u.log

section

variable {u : Publishing.State} {b : Publishing.Action}

theorem returned_next (hb : Publishing.Enabled u b) (h : u.connect = .returned) :
    (Publishing.next u b).connect = .returned := by
  rcases Waiting.connect_next (u := u) (a := b) with hsame | rfl | rfl
  · exact hsame.trans h
  · have hspawned : u.connect = .spawned := hb
    cases hspawned.symm.trans h
  · rfl

theorem dropped_next (h : (Publishing.next u b).dropped = true) :
    u.dropped = true ∨ b = .dropConnection := by
  cases b with
  | dropConnection => exact Or.inr rfl
  | announce reason =>
    obtain ⟨status, attempt, loop, -, heq⟩ := Publishing.announceNext_eq u reason
    rw [Publishing.next, heq] at h
    exact Or.inl h
  | dial connected => cases connected <;> exact Or.inl h
  | _ => exact Or.inl h

theorem Published.next (h : Published u) : Published (Publishing.next u b) :=
  ⟨Publishing.cancelled_next h.1 b, Publishing.mem_log_next h.2 b⟩

/-- How a call of `shutdown` moves. -/
theorem shutdowns_next (hb : Publishing.Enabled u b) (k : ℕ) :
    (Publishing.next u b).shutdowns k = u.shutdowns k ∨
      b = .shutdown ∧ k = u.shutdownCount ∧ (Publishing.next u b).shutdowns k = .stopping ∨
      b = .cancel k ∧ (Publishing.next u b).shutdowns k = .cancelled ∨
      b = .publishShutdown k ∧ u.shutdowns k = .cancelled ∨ b = .abandonShutdown k := by
  have hmove : ∀ {j : ℕ} {p : Publishing.Shutdown}, k ≠ j →
      Function.update u.shutdowns j p k = u.shutdowns k := fun hne => Function.update_of_ne hne _ _
  cases b with
  | shutdown =>
    by_cases hk : k = u.shutdownCount
    · refine Or.inr (Or.inl ⟨rfl, hk, ?_⟩)
      rw [hk]
      exact Function.update_self ..
    · exact Or.inl (hmove hk)
  | cancel j =>
    by_cases hk : k = j
    · subst hk
      exact Or.inr (Or.inr (Or.inl ⟨rfl, Function.update_self ..⟩))
    · exact Or.inl (hmove hk)
  | publishShutdown j =>
    by_cases hk : k = j
    · subst hk
      exact Or.inr (Or.inr (Or.inr (Or.inl ⟨rfl, hb⟩)))
    · exact Or.inl (hmove hk)
  | abandonShutdown j =>
    by_cases hk : k = j
    · subst hk
      exact Or.inr (Or.inr (Or.inr (Or.inr rfl)))
    · exact Or.inl (hmove hk)
  | announce reason =>
    obtain ⟨status, attempt, loop, -, heq⟩ := Publishing.announceNext_eq u reason
    rw [Publishing.next, heq]
    exact Or.inl rfl
  | dial connected => cases connected <;> exact Or.inl rfl
  | _ => exact Or.inl rfl

theorem shutdownCount_next : u.shutdownCount ≤ (Publishing.next u b).shutdownCount := by
  cases b with
  | shutdown => exact Nat.le_succ _
  | announce reason =>
    obtain ⟨status, attempt, loop, -, heq⟩ := Publishing.announceNext_eq u reason
    rw [Publishing.next, heq]
    exact le_rfl
  | dial connected => cases connected <;> exact le_rfl
  | _ => exact le_rfl

end

/-! ## The owner -/

/-- There are calls only once `connect` has returned and until the client is dropped, and the
connection lives as long as the client has it. -/
structure Owned (s : State) : Prop where
  returned : ∀ t, s.calls t ≠ .idle → s.conn.connect = .returned
  gone : s.gone = true → ∀ t, s.calls t ≠ .idle → (s.calls t).isDone = true
  dropped : s.conn.dropped = true → s.gone = true ∨ s.present .connection = false

theorem owned_init (max : Option ℕ) : Owned (init max) where
  returned _ h := absurd rfl h
  gone h := by cases h
  dropped h := by cases h

/-- Which step the connection takes in a step of the client. -/
inductive Drives (s s' : State) : Publishing.Action → Prop
  | own {b : Publishing.Action} (hcloses : isCloses b = false)
      (hdrop : b = .dropConnection → s.gone = true ∨ s.present .connection = false)
      (hcalls : s'.calls = s.calls) : Drives s s' b
  | shutdown (t : ℕ) (ht : s.calls t = .closing)
      (hcalls : s'.calls = Function.update s.calls t (.shuttingDown s.conn.shutdownCount)) :
      Drives s s' .shutdown
  | abandon (t k : ℕ) (ht : s.calls t = .shuttingDown k)
      (hcalls : s'.calls = Function.update s.calls t .cancelled) : Drives s s' (.abandonShutdown k)

section

variable {s s' : State} {a : Action}

/-- The connection takes a step or stays as it is. -/
theorem conn_next (hs : Owned s) (ha : Enabled s a) :
    (next s a).conn = s.conn ∨ ∃ b, Publishing.Enabled s.conn b ∧
      (next s a).conn = Publishing.next s.conn b ∧ Drives s (next s a) b := by
  cases a with
  | conn b => exact Or.inr ⟨b, ha.1, rfl, .own ha.2.1 (fun hb => (ha.2.2 hb).imp_right And.left) rfl⟩
  | enter t =>
    have hp : s.calls t = .closing := ha
    have hne : s.calls t ≠ .idle := by
      rw [hp]
      exact Position.noConfusion
    change (enterNext s t).conn = _ ∨ ∃ b, _ ∧ (enterNext s t).conn = _ ∧ Drives s (enterNext s t) b
    cases hpresent : s.present .connection with
    | true =>
      have hlive : s.conn.dropped = false := by
        cases hdropped : s.conn.dropped with
        | false => rfl
        | true =>
          rcases hs.dropped hdropped with hgone | habsent
          · have hdone := hs.gone hgone t hne
            rw [hp] at hdone
            cases hdone
          · cases hpresent.symm.trans habsent
      rw [enterNext_present hpresent]
      exact Or.inr ⟨.shutdown, ⟨hs.returned t hne, hlive⟩, rfl, .shutdown t hp rfl⟩
    | false =>
      rw [enterNext_absent hpresent]
      exact Or.inl rfl
  | cancel t =>
    obtain ⟨hcalls, -, -, -, hsame | ⟨k, hp, hconn⟩⟩ := cancelNext_spec ha
    · exact Or.inl hsame
    · have hcan : Cancellable s (s.calls t) := ha
      rw [hp] at hcan
      exact Or.inr ⟨.abandonShutdown k, hcan, hconn, .abandon t k hp hcalls⟩
  | _ => exact Or.inl rfl

theorem gone_next (ha : Enabled s a) :
    (next s a).gone = s.gone ∨ a = .dropClient := by
  cases a with
  | dropClient => exact Or.inr rfl
  | enter t =>
    change (enterNext s t).gone = _ ∨ _
    rw [enterNext]
    split <;> exact Or.inl rfl
  | cancel t => exact Or.inl (cancelNext_spec ha).2.2.2.1
  | _ => exact Or.inl rfl

/-- A call that is over moves no more. -/
theorem Moved.not_done {p q : Position} (h : Moved s s' p q) : p.isDone = false := by
  cases h with
  | enqueued h => cases p <;> first | rfl | cases h
  | granted h => cases p <;> first | rfl | cases h
  | cancelled h => cases p <;> first | rfl | cases h
  | _ => rfl

/-- A call begins only at a client that is there. -/
theorem Moved.begin {q : Position} (h : Moved s s' .idle q) :
    s.conn.connect = .returned ∧ s.gone = false := by
  cases h with
  | peek c h => exact h
  | close h => exact h
  | enqueued h => cases h
  | granted h => cases h
  | cancelled h => exact h.elim

theorem Owned.next (h : Owned s) (hs : Consistent s) (ha : Enabled s a) :
    Owned (Client.next s a) := by
  have hconn := conn_next h ha
  have hgone : s.gone = true → (Client.next s a).gone = true := by
    intro hg
    rcases gone_next ha with hsame | rfl
    · exact hsame.trans hg
    · rfl
  have habsent : s.present .connection = false → (Client.next s a).present .connection = false := by
    intro hp
    rcases present_next ha .connection with hsame | ⟨t, -, -, hcleared⟩
    · exact hsame.trans hp
    · exact hcleared
  refine ⟨fun t ht => ?_, fun hg t ht => ?_, fun hdropped => ?_⟩
  · have hreturned : s.conn.connect = .returned := by
      rcases calls_next hs ha t with hsame | hmoved
      · exact h.returned t (hsame ▸ ht)
      · by_cases hidle : s.calls t = .idle
        · rw [hidle] at hmoved
          exact hmoved.begin.1
        · exact h.returned t hidle
    rcases hconn with hsame | ⟨b, hb, hnext, -⟩
    · exact hsame ▸ hreturned
    · exact hnext ▸ returned_next hb hreturned
  · rcases gone_next ha with hsame | rfl
    · rw [hsame] at hg
      rcases calls_next hs ha t with hstill | hmoved
      · rw [hstill] at ht ⊢
        exact h.gone hg t ht
      · by_cases hidle : s.calls t = .idle
        · rw [hidle] at hmoved
          cases hg.symm.trans hmoved.begin.2
        · cases (h.gone hg t hidle).symm.trans hmoved.not_done
    · exact ha.2.2 t (hs.lt_callCount ht)
  · rcases hconn with hsame | ⟨b, hb, hnext, hdrives⟩
    · rw [hsame] at hdropped
      exact (h.dropped hdropped).imp hgone habsent
    · rw [hnext] at hdropped
      rcases dropped_next hdropped with hbefore | rfl
      · exact (h.dropped hbefore).imp hgone habsent
      · cases hdrives with
        | own _ hdrop _ => exact (hdrop rfl).imp hgone habsent

/-! ## The calls of `shutdown` -/

/-- Each call of `shutdown` is one of a `close`, and it is in progress until it has published. -/
structure Shepherded (s : State) : Prop where
  known : ∀ t k, s.calls t = .shuttingDown k → k < s.conn.shutdownCount
  unique : ∀ t u k, s.calls t = .shuttingDown k → s.calls u = .shuttingDown k → t = u
  published : ∀ t k, s.calls t = .shuttingDown k → s.conn.shutdowns k = .done → Published s.conn
  cancelled : ∀ k, s.conn.shutdowns k = .cancelled → s.conn.cancelled = true

theorem shepherded_init (max : Option ℕ) : Shepherded (init max) where
  known _ _ h := by cases h
  unique _ _ _ h := by cases h
  published _ _ h := by cases h
  cancelled _ h := by cases h

/-- A call gets into `shutdown` by calling it. -/
theorem Moved.shuttingDown {p : Position} {k : ℕ} (h : Moved s s' p (.shuttingDown k)) :
    s'.conn = Publishing.next s.conn .shutdown := by
  generalize hq : Position.shuttingDown k = q at h
  cases h with
  | entered h => exact h
  | enqueued h => cases p <;> first | cases h | cases hq
  | granted h => cases p <;> first | cases h | cases hq
  | @cleared c _ => cases c <;> cases hq
  | _ => cases hq

/-- A call of `shutdown` that is cut off is nobody's any more. -/
private theorem Shepherded.done (h : Shepherded s) {b : Publishing.Action}
    (hb : Publishing.Enabled s.conn b) {t k : ℕ} (ht : s.calls t = .shuttingDown k)
    (hkeep : b ≠ .abandonShutdown k)
    (hdone : (Publishing.next s.conn b).shutdowns k = .done) :
    Published (Publishing.next s.conn b) := by
  rcases shutdowns_next hb k with hsame | ⟨-, -, hstopping⟩ | ⟨-, hcancelled⟩ | ⟨rfl, hbefore⟩ | hab
  · exact (h.published t k ht (hsame.symm.trans hdone)).next
  · cases hstopping.symm.trans hdone
  · cases hcancelled.symm.trans hdone
  · exact ⟨h.cancelled k hbefore, List.mem_append_right _ (List.mem_singleton_self _)⟩
  · exact absurd hab hkeep

/-- The connection's part of the step. -/
private theorem Shepherded.cancelled_next (h : Shepherded s) {b : Publishing.Action}
    (hb : Publishing.Enabled s.conn b) {k : ℕ}
    (hk : (Publishing.next s.conn b).shutdowns k = .cancelled) :
    (Publishing.next s.conn b).cancelled = true := by
  rcases shutdowns_next hb k with hsame | ⟨-, -, hstopping⟩ | ⟨rfl, -⟩ | ⟨rfl, -⟩ | rfl
  · exact Publishing.cancelled_next (h.cancelled k (hsame.symm.trans hk)) b
  · cases hstopping.symm.trans hk
  · rfl
  · cases (Function.update_self ..).symm.trans hk
  · cases (Function.update_self ..).symm.trans hk

theorem Shepherded.next (h : Shepherded s) (hs : Consistent s) (ho : Owned s)
    (ha : Enabled s a) : Shepherded (Client.next s a) := by
  rcases conn_next ho ha with hsame | ⟨b, hb, hconn, hdrives⟩
  · have hbefore : ∀ {t k}, (Client.next s a).calls t = .shuttingDown k →
        s.calls t = .shuttingDown k := by
      intro t k ht
      rcases calls_next hs ha t with hstill | hmoved
      · exact hstill.symm.trans ht
      · rw [ht] at hmoved
        have hconn := hsame.symm.trans hmoved.shuttingDown
        exact absurd (congrArg Publishing.State.shutdownCount hconn).symm (Nat.succ_ne_self _)
    refine ⟨fun t k ht => ?_, fun t u k ht hu => h.unique t u k (hbefore ht) (hbefore hu),
      fun t k ht hdone => ?_, fun k hk => ?_⟩
    · rw [hsame]
      exact h.known t k (hbefore ht)
    · rw [hsame] at hdone ⊢
      exact h.published t k (hbefore ht) hdone
    · rw [hsame] at hk ⊢
      exact h.cancelled k hk
  · have hcount : s.conn.shutdownCount ≤ (Client.next s a).conn.shutdownCount := by
      rw [hconn]
      exact shutdownCount_next
    have hcancelled : ∀ k, (Client.next s a).conn.shutdowns k = .cancelled →
        (Client.next s a).conn.cancelled = true := by
      rw [hconn]
      exact fun k => h.cancelled_next hb
    cases hdrives with
    | own hcloses hdrop hcalls =>
      refine ⟨fun t k ht => ?_, fun t u k ht hu => ?_, fun t k ht hdone => ?_, hcancelled⟩
      · rw [hcalls] at ht
        exact (h.known t k ht).trans_le hcount
      · rw [hcalls] at ht hu
        exact h.unique t u k ht hu
      · rw [hcalls] at ht
        rw [hconn] at hdone ⊢
        refine h.done hb ht (fun hab => ?_) hdone
        rw [hab] at hcloses
        cases hcloses
    | shutdown v hv hcalls =>
      have hcases : ∀ {t k}, (Client.next s a).calls t = .shuttingDown k →
          t = v ∧ k = s.conn.shutdownCount ∨ s.calls t = .shuttingDown k := by
        intro t k ht
        by_cases htv : t = v
        · rw [hcalls, htv, Function.update_self] at ht
          exact Or.inl ⟨htv, (Position.shuttingDown.inj ht).symm⟩
        · rw [hcalls, Function.update_of_ne htv] at ht
          exact Or.inr ht
      have hold : ∀ {t k}, s.calls t = .shuttingDown k → k ≠ s.conn.shutdownCount :=
        fun ht => Nat.ne_of_lt (h.known _ _ ht)
      refine ⟨fun t k ht => ?_, fun t u k ht hu => ?_, fun t k ht hdone => ?_, hcancelled⟩
      · rcases hcases ht with ⟨-, rfl⟩ | hbefore
        · rw [hconn]
          exact Nat.lt_succ_self _
        · exact (h.known t k hbefore).trans_le hcount
      · rcases hcases ht with ⟨rfl, hk⟩ | ht
        · rcases hcases hu with ⟨rfl, -⟩ | hu
          · rfl
          · exact absurd hk (hold hu)
        · rcases hcases hu with ⟨rfl, hk⟩ | hu
          · exact absurd hk (hold ht)
          · exact h.unique t u k ht hu
      · rcases hcases ht with ⟨-, rfl⟩ | ht
        · rw [hconn] at hdone
          cases (Function.update_self ..).symm.trans hdone
        · rw [hconn] at hdone ⊢
          exact h.done hb ht (by rintro ⟨⟩) hdone
    | abandon v j hv hcalls =>
      have hbefore : ∀ {t k}, (Client.next s a).calls t = .shuttingDown k →
          t ≠ v ∧ s.calls t = .shuttingDown k := by
        intro t k ht
        by_cases htv : t = v
        · rw [hcalls, htv, Function.update_self] at ht
          cases ht
        · rw [hcalls, Function.update_of_ne htv] at ht
          exact ⟨htv, ht⟩
      refine ⟨fun t k ht => (h.known t k (hbefore ht).2).trans_le hcount,
        fun t u k ht hu => h.unique t u k (hbefore ht).2 (hbefore hu).2,
        fun t k ht hdone => ?_, hcancelled⟩
      obtain ⟨hne, ht⟩ := hbefore ht
      rw [hconn] at hdone ⊢
      refine h.done hb ht (fun hab => hne ?_) hdone
      rw [Publishing.Action.abandonShutdown.inj hab] at hv
      exact h.unique t v k ht hv

/-! ## What is cleared -/

/-- How far a `close` has come after `shutdown`: it clears the manager, then the connection. -/
def Position.stage : Position → ℕ
  | .clearEntered .manager => 1
  | .clearWaiting .manager => 1
  | .clearing .manager => 1
  | .clearEntered .connection => 2
  | .clearWaiting .connection => 2
  | .clearing .connection => 2
  | .closed => 3
  | _ => 0

/-- A stage is reached by what comes before it. -/
theorem Moved.stage {p q : Position} (h : Moved s s' p q) :
    q.stage ≤ p.stage ∨
      q.stage = 1 ∧ (s.present .connection = false ∨
        ∃ k, p = .shuttingDown k ∧ s.conn.shutdowns k = .done) ∨
      q.stage = 2 ∧ p.stage = 1 ∧ s'.present .manager = false ∨
      q.stage = 3 ∧ p.stage = 2 ∧ s'.present .connection = false := by
  cases h with
  | @enqueued p c m h =>
    refine Or.inl (Nat.le_of_eq ?_)
    cases p with
    | clearEntered c => cases c <;> rfl
    | _ => rfl
  | @granted p c m h =>
    refine Or.inl (Nat.le_of_eq ?_)
    cases p with
    | clearWaiting c => cases c <;> rfl
    | _ => rfl
  | skipped h => exact Or.inr (Or.inl ⟨rfl, Or.inl h⟩)
  | @left k h => exact Or.inr (Or.inl ⟨rfl, Or.inr ⟨k, rfl, h⟩⟩)
  | @cleared c h =>
    cases c with
    | manager => exact Or.inr (Or.inr (Or.inl ⟨rfl, rfl, h⟩))
    | connection => exact Or.inr (Or.inr (Or.inr ⟨rfl, rfl, h⟩))
  | _ => exact Or.inl (Nat.zero_le _)

/-- A `close` clears after a shutdown, the manager first. -/
structure Cleared (s : State) : Prop where
  published : ∀ t, 0 < (s.calls t).stage → Published s.conn
  manager : ∀ t, 1 < (s.calls t).stage → s.present .manager = false
  connection : ∀ t, 2 < (s.calls t).stage → s.present .connection = false
  absent : ∀ c, s.present c = false → Published s.conn
  order : s.present .connection = false → s.present .manager = false

theorem cleared_init (max : Option ℕ) : Cleared (init max) where
  published _ h := absurd h (Nat.lt_irrefl 0)
  manager _ h := absurd h (Nat.not_lt_zero 1)
  connection _ h := absurd h (Nat.not_lt_zero 2)
  absent _ h := by cases h
  order h := by cases h

theorem Cleared.next (h : Cleared s) (hs : Consistent s) (ho : Owned s) (hp : Shepherded s)
    (ha : Enabled s a) : Cleared (Client.next s a) := by
  have hkeep : Published s.conn → Published (Client.next s a).conn := by
    intro hpub
    rcases conn_next ho ha with hsame | ⟨b, -, hconn, -⟩
    · rw [hsame]
      exact hpub
    · rw [hconn]
      exact hpub.next
  have habsent : ∀ c, s.present c = false → (Client.next s a).present c = false := by
    intro c hc
    rcases present_next ha c with hsame | ⟨t, -, -, hcleared⟩
    · exact hsame.trans hc
    · exact hcleared
  have hstage : ∀ t, ((Client.next s a).calls t).stage ≤ (s.calls t).stage ∨
      ((Client.next s a).calls t).stage = 1 ∧ Published s.conn ∨
      ((Client.next s a).calls t).stage = 2 ∧ (s.calls t).stage = 1 ∧
        (Client.next s a).present .manager = false ∨
      ((Client.next s a).calls t).stage = 3 ∧ (s.calls t).stage = 2 ∧
        (Client.next s a).present .connection = false := by
    intro t
    rcases calls_next hs ha t with hsame | hmoved
    · exact Or.inl (congrArg Position.stage hsame).le
    · refine hmoved.stage.imp_right (Or.imp_left fun hone => ⟨hone.1, ?_⟩)
      rcases hone.2 with hnone | ⟨k, hk, hdone⟩
      · exact h.absent _ hnone
      · exact hp.published t k hk hdone
  refine ⟨fun t ht => hkeep ?_, fun t ht => ?_, fun t ht => ?_, fun c hc => hkeep ?_, fun hc => ?_⟩
  · rcases hstage t with hle | ⟨-, hpub⟩ | ⟨-, hone, -⟩ | ⟨-, htwo, -⟩
    · exact h.published t (ht.trans_le hle)
    · exact hpub
    · exact h.published t (by omega)
    · exact h.published t (by omega)
  · rcases hstage t with hle | ⟨hone, -⟩ | ⟨-, -, hmanager⟩ | ⟨-, htwo, -⟩
    · exact habsent _ (h.manager t (ht.trans_le hle))
    · omega
    · exact hmanager
    · exact habsent _ (h.manager t (by omega))
  · rcases hstage t with hle | ⟨hone, -⟩ | ⟨htwo, -, -⟩ | ⟨-, -, hconnection⟩
    · exact habsent _ (h.connection t (ht.trans_le hle))
    · omega
    · omega
    · exact hconnection
  · rcases present_next ha c with hsame | ⟨t, -, ht, -⟩
    · exact h.absent c (hsame.symm.trans hc)
    · refine h.published t ?_
      rw [ht]
      cases c <;> decide
  · rcases present_next ha .connection with hsame | ⟨t, -, ht, -⟩
    · exact habsent _ (h.order (hsame.symm.trans hc))
    · refine habsent _ (h.manager t ?_)
      rw [ht]
      decide

/-- The invariants together. -/
structure Sound (s : State) : Prop where
  consistent : Consistent s
  owned : Owned s
  shepherded : Shepherded s
  cleared : Cleared s

theorem sound_init (max : Option ℕ) : Sound (init max) :=
  ⟨consistent_init max, owned_init max, shepherded_init max, cleared_init max⟩

theorem Sound.next (h : Sound s) (ha : Enabled s a) : Sound (Client.next s a) where
  consistent := h.consistent.next ha
  owned := h.owned.next h.consistent ha
  shepherded := h.shepherded.next h.consistent h.owned ha
  cleared := h.cleared.next h.consistent h.owned h.shepherded ha

end

theorem exec_sound {max : Option ℕ} {as : List Action} (hv : system.Valid (init max) as) :
    Sound (system.exec (init max) as) :=
  Transition.System.invariant (fun _ _ h ha => h.next ha) (sound_init max) hv

end Client

end TitanClient
