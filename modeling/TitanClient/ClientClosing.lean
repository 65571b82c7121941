import TitanClient.ClientCalls

/-!
# Closing the client

A `close` that has cleared the manager waits for the lock of the connection behind another that is
still in `shutdown`, and keeps everybody out who comes later. That is the only way in which a call
of the client is held up by another.

## Main results

* `calls_complete` — every call takes a bounded number of steps, and if none can take one, each
  is in `shutdown` or waits for somebody who is
* `closed_for_good` — after a `close` has returned nothing is found any more
* `client_refines_waiting` — the client of `Waiting` is closed as this one is
-/

namespace TitanClient

namespace Client

open FairLock (Mode)

/-! ## Every call is over some time -/

/-- A bound for the steps that are left to a call. -/
def Position.remaining : Position → ℕ
  | .peekEntered _ => 3
  | .peekWaiting _ => 2
  | .peeking _ => 1
  | .closeEntered => 10
  | .closeWaiting => 9
  | .closing => 8
  | .shuttingDown _ => 7
  | .clearEntered .manager => 6
  | .clearWaiting .manager => 5
  | .clearing .manager => 4
  | .clearEntered .connection => 3
  | .clearWaiting .connection => 2
  | .clearing .connection => 1
  | _ => 0

/-- The call is in `shutdown`, or it waits for the lock of the connection while another is. If it
waits to read, then behind a `close` that waits to write. -/
def HeldUp (s : State) (t : ℕ) : Prop :=
  ∃ u k, s.calls u = .shuttingDown k ∧ s.conn.shutdowns k ≠ .done ∧
    (t = u ∨ s.calls t = .clearWaiting .connection ∨
      (s.calls t).waits .connection = some .read ∧ ∃ w before after,
        s.calls w = .clearWaiting .connection ∧
        (s.locks .connection).queue = before ++ (w, .write) :: after ∧ (t, .read) ∈ after)

section

variable {s s' : State} {t : ℕ}

theorem Moved.remaining {p q : Position} (h : Moved s s' p q) (hp : p ≠ .idle) :
    q.remaining < p.remaining := by
  cases h with
  | peek c h => exact absurd rfl hp
  | close h => exact absurd rfl hp
  | @enqueued p c m h =>
    cases p with
    | peekEntered d => exact Nat.le_of_ble_eq_true rfl
    | closeEntered => decide
    | clearEntered d => cases d <;> decide
    | _ => cases h
  | @granted p c m h =>
    cases p with
    | peekWaiting d => exact Nat.le_of_ble_eq_true rfl
    | closeWaiting => decide
    | clearWaiting d => cases d <;> decide
    | _ => cases h
  | @cleared c h => cases c <;> decide
  | @cancelled p h =>
    cases p with
    | peekWaiting d => exact Nat.le_of_ble_eq_true rfl
    | closeWaiting => decide
    | clearWaiting d => cases d <;> decide
    | shuttingDown k => exact Nat.le_of_ble_eq_true rfl
    | _ => exact h.elim
  | _ => exact Nat.le_of_ble_eq_true rfl

/-- The steps of a call are paid for. -/
theorem steps_le {bs : List Action} (hs : Consistent s) (ht : t < s.callCount)
    (hv : system.Valid s bs) :
    bs.countP (fun b => b.call = some t) + ((system.exec s bs).calls t).remaining ≤
      (s.calls t).remaining := by
  induction bs generalizing s with
  | nil => exact (Nat.zero_add _).le
  | cons b bs ih =>
    have hrest : bs.countP (fun b => b.call = some t) +
        ((system.exec (next s b) bs).calls t).remaining ≤ ((next s b).calls t).remaining :=
      ih (hs.next hv.1) (ht.trans_le (callCount_next hv.1)) hv.2
    rw [List.countP_cons]
    change _ + ((system.exec (next s b) bs).calls t).remaining ≤ _
    by_cases hb : b.call = some t
    · obtain ⟨p, hcalls, hmoved⟩ := calls_own hs hv.1 hb
      have hless := hmoved.remaining (call_ne_idle hs hv.1 hb)
      rw [hcalls, Function.update_self] at hrest
      rw [if_pos (decide_eq_true hb)]
      omega
    · rw [if_neg (by simpa using hb)]
      rwa [calls_other hs hv.1 hb ht] at hrest

/-- Nobody can take a step, unless he gives up. -/
def Stuck (s : State) : Prop := ∀ a t, a.call = some t → a ≠ .cancel t → ¬Enabled s a

/-- In a stuck state a lock is held by a call in `shutdown`, if it is held. -/
theorem Stuck.holder (h : Stuck s) {c : Cell} {u : ℕ} (hu : (s.calls u).holds c ≠ none) :
    c = .connection ∧ ∃ k, s.calls u = .shuttingDown k ∧ s.conn.shutdowns k ≠ .done := by
  cases hp : s.calls u with
  | peeking d => exact absurd hp (h (.look u d) u rfl (by rintro ⟨⟩))
  | closing => exact absurd hp (h (.enter u) u rfl (by rintro ⟨⟩))
  | clearing d => exact absurd hp (h (.clear u d) u rfl (by rintro ⟨⟩))
  | shuttingDown k =>
    refine ⟨?_, k, rfl, fun hdone => h (.leave u k) u rfl (by rintro ⟨⟩) ⟨hp, hdone⟩⟩
    by_contra hc
    rw [hp] at hu
    exact hu (if_neg hc)
  | _ =>
    rw [hp] at hu
    exact absurd rfl hu

/-- In a stuck state nobody waits but for a call in `shutdown`. -/
theorem Stuck.waiter (h : Stuck s) (hs : Consistent s) {c : Cell} {m : Mode}
    (ht : (s.calls t).waits c = some m) :
    c = .connection ∧ (m = .read → ∃ w before after, s.calls w = .clearWaiting .connection ∧
      (s.locks .connection).queue = before ++ (w, .write) :: after ∧ (t, .read) ∈ after) ∧
      ∃ u k, s.calls u = .shuttingDown k ∧ s.conn.shutdowns k ≠ .done := by
  have hstuck : ∀ u m', (s.locks c).queue.head? = some (u, m') → ¬(s.locks c).Admits m' :=
    fun u m' hhead hadmits => h (.grant u c m') u rfl (by rintro ⟨⟩) ⟨hhead, hadmits⟩
  have hheld : ∃ u, (s.calls u).holds c ≠ none := by
    by_contra hnone
    rw [not_exists] at hnone
    obtain ⟨u, m', hhead, hadmits⟩ := (hs.serves c).ready (fun u => not_not.mp (hnone u))
      (Option.ne_none_iff_exists'.mpr ⟨m, ht⟩)
    exact hstuck u m' hhead hadmits
  obtain ⟨u, hu⟩ := hheld
  obtain ⟨rfl, k, hp, hdone⟩ := h.holder hu
  refine ⟨rfl, ?_, u, k, hp, hdone⟩
  rintro rfl
  rcases (hs.serves .connection).behind ht hstuck with ⟨v, hv⟩ | ⟨w, before, after, hq, hmem⟩
  · obtain ⟨-, j, hj, -⟩ := h.holder (u := v) (c := .connection) (by rw [hv]; rintro ⟨⟩)
    rw [hj] at hv
    cases hv
  · have hw : (s.calls w).waits .connection = some .write :=
      ((hs.serves .connection).queue w .write).mp (by rw [hq]; simp)
    refine ⟨w, before, after, ?_, hq, hmem⟩
    cases hpw : s.calls w with
    | clearWaiting d =>
      rw [hpw] at hw
      cases d with
      | connection => rfl
      | manager => cases hw
    | peekWaiting d =>
      rw [hpw] at hw
      cases d <;> cases hw
    | closeWaiting =>
      rw [hpw] at hw
      cases hw
    | _ =>
      rw [hpw] at hw
      cases hw

/-- **Nobody is stuck for another reason.** -/
theorem Stuck.heldUp (h : Stuck s) (hs : Consistent s) (hbegun : s.calls t ≠ .idle)
    (hlive : (s.calls t).isDone = false) : HeldUp s t := by
  have hrequest : ∀ {c m}, (s.calls t).requests c = some m → False :=
    fun hr => h (.request t _ _) t rfl (by rintro ⟨⟩) hr
  have hreader : (s.calls t).waits .connection = some .read → HeldUp s t := by
    intro hw
    obtain ⟨-, hahead, u, k, hu, hdone⟩ := h.waiter hs hw
    exact ⟨u, k, hu, hdone, Or.inr (Or.inr ⟨hw, hahead rfl⟩)⟩
  cases hp : s.calls t with
  | idle => exact absurd hp hbegun
  | peekEntered c => exact (hrequest (c := c) (m := .read) (by rw [hp]; exact if_pos rfl)).elim
  | closeEntered => exact (hrequest (c := .connection) (m := .read) (by rw [hp]; rfl)).elim
  | clearEntered c => exact (hrequest (c := c) (m := .write) (by rw [hp]; exact if_pos rfl)).elim
  | peekWaiting c =>
    have hw : (s.calls t).waits c = some .read := by
      rw [hp]
      exact if_pos rfl
    obtain ⟨rfl, -⟩ := h.waiter hs hw
    exact hreader hw
  | closeWaiting =>
    refine hreader ?_
    rw [hp]
    rfl
  | clearWaiting c =>
    have hw : (s.calls t).waits c = some .write := by
      rw [hp]
      exact if_pos rfl
    obtain ⟨rfl, -, u, k, hu, hdone⟩ := h.waiter hs hw
    exact ⟨u, k, hu, hdone, Or.inr (Or.inl hp)⟩
  | peeking c => exact absurd hp (h (.look t c) t rfl (by rintro ⟨⟩))
  | closing => exact absurd hp (h (.enter t) t rfl (by rintro ⟨⟩))
  | clearing c => exact absurd hp (h (.clear t c) t rfl (by rintro ⟨⟩))
  | shuttingDown k =>
    have hdone : s.conn.shutdowns k ≠ .done :=
      fun hdone => h (.leave t k) t rfl (by rintro ⟨⟩) ⟨hp, hdone⟩
    exact ⟨t, k, hp, hdone, Or.inl rfl⟩
  | peeked c found =>
    rw [hp] at hlive
    cases hlive
  | closed =>
    rw [hp] at hlive
    cases hlive
  | cancelled =>
    rw [hp] at hlive
    cases hlive

end

/-- **Every call is over some time.** However the steps are interleaved, a call takes no more than
ten steps of its own. When nobody can take one, every call in progress is in `Connection::shutdown`,
or waits for the lock of the connection while another is; a reader does so only behind a `close`
that waits to write. -/
theorem calls_complete (max : Option ℕ) (as : List Action) (hv : system.Valid (init max) as) :
    (∀ t bs, t < (system.exec (init max) as).callCount →
      system.Valid (system.exec (init max) as) bs →
        bs.countP (fun b => b.call = some t) ≤ ((system.exec (init max) as).calls t).remaining ∧
          ((system.exec (init max) as).calls t).remaining ≤ 10) ∧
    (Stuck (system.exec (init max) as) → ∀ t, (system.exec (init max) as).calls t ≠ .idle →
      ((system.exec (init max) as).calls t).isDone = false →
        HeldUp (system.exec (init max) as) t) := by
  have hs := exec_consistent hv
  refine ⟨fun t bs ht hbs => ⟨(Nat.le_add_right _ _).trans (steps_le hs ht hbs), ?_⟩,
    fun hstuck t => hstuck.heldUp hs⟩
  cases (system.exec (init max) as).calls t with
  | clearEntered c => cases c <;> decide
  | clearWaiting c => cases c <;> decide
  | clearing c => cases c <;> decide
  | _ => exact Nat.le_of_ble_eq_true rfl

/-- Two calls of `close` and a look at the connection. The first `close` is still in `shutdown` when
the second wants to clear the connection, and the look waits behind that. -/
def contended : List Action :=
  [.conn .connectPublish, .conn .connectReturn, .close, .close, .request 0 .connection .read,
    .grant 0 .connection .read, .request 1 .connection .read, .grant 1 .connection .read, .enter 0,
    .enter 1, .conn (.cancel 1), .conn (.publishShutdown 1), .leave 1 1, .request 1 .manager .write,
    .grant 1 .manager .write, .clear 1 .manager, .request 1 .connection .write, .peek .connection,
    .request 2 .connection .read]

/-- The call can go on by itself, or has only a lock to give back. -/
def MayMove (s : State) : Position → Prop
  | .shuttingDown k => s.conn.shutdowns k = .done
  | .peekEntered _ => True
  | .peeking _ => True
  | .closeEntered => True
  | .closing => True
  | .clearEntered _ => True
  | .clearing _ => True
  | _ => False

instance (s : State) (p : Position) : Decidable (MayMove s p) :=
  match p with
  | .shuttingDown _ => inferInstanceAs (Decidable (_ = _))
  | .peekEntered _ | .peeking _ | .closeEntered | .closing | .clearEntered _ | .clearing _ =>
    isTrue trivial
  | .idle | .peekWaiting _ | .peeked _ _ | .closeWaiting | .clearWaiting _ | .closed | .cancelled =>
    isFalse id

/-- Where no call may move and no lock can be granted, nobody can take a step. -/
theorem stuck_of_waiting {s : State} (hs : Consistent s)
    (hrest : ∀ t < s.callCount, ¬MayMove s (s.calls t))
    (hlocks : ∀ c, ∀ e ∈ (s.locks c).queue.head?, ¬(s.locks c).Admits e.2) : Stuck s := by
  intro a t hcall hcancel ha
  have hmove : ∀ {p : Position}, s.calls t = p → ¬MayMove s p := by
    rintro p rfl
    exact hrest t (Nat.not_le.mp fun hle => call_ne_idle hs ha hcall (hs.fresh t hle))
  cases a with
  | request u c m =>
    cases hcall
    have hrequests : (s.calls t).requests c = some m := ha
    generalize hp : s.calls t = p at hrequests
    cases p with
    | peekEntered d => exact hmove hp trivial
    | closeEntered => exact hmove hp trivial
    | clearEntered d => exact hmove hp trivial
    | _ => cases hrequests
  | grant u c m => exact hlocks c (u, m) ha.1 ha.2
  | look u c =>
    cases hcall
    exact hmove ha trivial
  | enter u =>
    cases hcall
    exact hmove ha trivial
  | leave u k =>
    cases hcall
    exact hmove ha.1 ha.2
  | clear u c =>
    cases hcall
    exact hmove ha trivial
  | cancel u =>
    cases hcall
    exact hcancel rfl
  | _ => cases hcall

/-- The first `close` goes on. -/
def released : List Action :=
  [.conn (.cancel 0), .conn (.publishShutdown 0), .leave 0 0, .grant 1 .connection .write,
    .clear 1 .connection, .grant 2 .connection .read, .look 2 .connection]

set_option maxRecDepth 20000 in
theorem calls_complete_contended :
    HeldUp (system.exec (init none) contended) 2 ∧
      released.countP (fun b => b.call = some 2) ≤
        ((system.exec (init none) contended).calls 2).remaining ∧
      (system.exec (init none) (contended ++ released)).calls 2 = .peeked .connection false := by
  have hstuck : Stuck (system.exec (init none) contended) := by
    refine stuck_of_waiting (exec_consistent (by decide)) (by decide) fun c => ?_
    cases c <;> decide
  have hcomplete := calls_complete none contended (by decide)
  exact ⟨hcomplete.2 hstuck 2 (by decide) (by decide),
    (hcomplete.1 2 released (by decide) (by decide)).1, by decide⟩

/-! ## A closed client stays closed -/

section

variable {s s' : State}

/-- A look finds what is there. -/
theorem Moved.peeked {p : Position} {c : Cell} {found : Bool}
    (h : Moved s s' p (.peeked c found)) : found = s.present c := by
  generalize hq : Position.peeked c found = q at h
  cases h with
  | looked d =>
    cases hq
    rfl
  | enqueued h => cases p <;> first | cases h | cases hq
  | granted h => cases p <;> first | cases h | cases hq
  | @cleared c _ => cases c <;> cases hq
  | _ => cases hq

/-- Nothing is there, and whoever looked since call `n` has found nothing. -/
structure Barren (n : ℕ) (s : State) : Prop where
  absent : ∀ c, s.present c = false
  found : ∀ u c found, n ≤ u → s.calls u = .peeked c found → found = false

theorem Barren.next {n : ℕ} (h : Barren n s) (hs : Consistent s) {a : Action} (ha : Enabled s a) :
    Barren n (Client.next s a) where
  absent c := by
    rcases present_next ha c with hsame | ⟨t, -, -, hcleared⟩
    · exact hsame.trans (h.absent c)
    · exact hcleared
  found u c found hu hcall := by
    rcases calls_next hs ha u with hsame | hmoved
    · exact h.found u c found hu (hsame.symm.trans hcall)
    · rw [hcall] at hmoved
      exact hmoved.peeked.trans (h.absent c)

end

/-- What the functions of the API answer when nothing was found. -/
def NotConnected (found : Bool) : Prop :=
  getArc found = .error (.connectionFailed 0 "Not connected") ∧
    (∀ status, state status found = .disconnected "Not connected") ∧ isClosed found = true ∧
    ∀ n, streamCount n found = 0

/-- **A closed client stays closed.** A cell is empty only after `shutdown` has cancelled the token
and published `Client shutdown`, the manager's first; and once a `close` has returned, every call
that begins later finds nothing, whatever other calls are in progress. -/
theorem closed_for_good (max : Option ℕ) (as : List Action) (hv : system.Valid (init max) as) :
    (∀ c, (system.exec (init max) as).present c = false →
      Published (system.exec (init max) as).conn ∧
        (system.exec (init max) as).present .manager = false) ∧
    ∀ t, (system.exec (init max) as).calls t = .closed → ∀ bs,
      system.Valid (system.exec (init max) as) bs →
        (∀ c, (system.exec (init max) (as ++ bs)).present c = false) ∧
        ∀ u c found, (system.exec (init max) as).callCount ≤ u →
          (system.exec (init max) (as ++ bs)).calls u = .peeked c found → NotConnected found := by
  have hs := exec_sound hv
  refine ⟨fun c hc => ⟨hs.cleared.absent c hc, ?_⟩, fun t ht bs hbs => ?_⟩
  · cases c with
    | connection => exact hs.cleared.order hc
    | manager => exact hc
  · have hthree : 2 < ((system.exec (init max) as).calls t).stage := by
      rw [ht]
      decide
    have hstart : Barren (system.exec (init max) as).callCount (system.exec (init max) as) := by
      refine ⟨fun c => ?_, fun u c found hu hcall => ?_⟩
      · cases c with
        | connection => exact hs.cleared.connection t hthree
        | manager => exact hs.cleared.manager t (Nat.lt_of_succ_lt hthree)
      · cases (hs.consistent.fresh u hu).symm.trans hcall
    have hend := (Transition.System.invariant
      (I := fun u => Barren (system.exec (init max) as).callCount u ∧ Consistent u)
      (fun u a h ha => ⟨h.1.next h.2 ha, h.2.next ha⟩) ⟨hstart, hs.consistent⟩ hbs).1
    rw [← Transition.System.exec_append] at hend
    refine ⟨hend.absent, fun u c found hu hcall => ?_⟩
    rw [hend.found u c found hu hcall]
    exact ⟨rfl, fun _ => rfl, rfl, fun _ => rfl⟩

set_option maxRecDepth 20000 in
/-- The first `close` of `contended` goes on and returns as well. -/
theorem closed_for_good_contended :
    (system.exec (init none) (contended ++ released)).calls 1 = .closed ∧
      (∀ c, (system.exec (init none) (contended ++ released ++ [.peek .manager,
        .request 3 .manager .read, .grant 3 .manager .read, .look 3 .manager])).present c =
          false) ∧ NotConnected false :=
  ⟨by decide, ((closed_for_good none (contended ++ released) (by decide)).2 1 (by decide)
      [.peek .manager, .request 3 .manager .read, .grant 3 .manager .read, .look 3 .manager]
      (by decide)).1,
    ((closed_for_good none (contended ++ released) (by decide)).2 1 (by decide)
      [.peek .manager, .request 3 .manager .read, .grant 3 .manager .read, .look 3 .manager]
      (by decide)).2 3 .manager false (by decide) (by decide)⟩

/-! ## The client of `Waiting` -/

/-- A call of `shutdown` has published. -/
def shutdownDone (u : Publishing.State) : Bool :=
  decide ((.shutdown, .disconnected "Client shutdown") ∈ u.log)

/-- The client as those see it who wait for the connection. -/
def view (s : State) : Waiting.State where
  conn := s.conn
  client := if s.gone then .dropped else if s.present .connection then .live else .closed
  shutdownDone := shutdownDone s.conn

section

variable {s s' : State} {a : Action}

/-- Only `publishShutdown` adds to what `shutdown` has published. -/
theorem shutdownDone_next (u : Publishing.State) (b : Publishing.Action) :
    shutdownDone (Publishing.next u b) =
      (Waiting.connNext { conn := u, shutdownDone := shutdownDone u } b).shutdownDone := by
  have hloop : ∀ {status : Publishing.ConnectionState} {author : Publishing.Author},
      author ≠ .shutdown → decide ((.shutdown, .disconnected "Client shutdown") ∈
        u.log ++ [(author, status)]) = shutdownDone u := by
    intro status author hauthor
    rw [shutdownDone, decide_eq_decide, List.mem_append, List.mem_singleton]
    exact or_iff_left fun heq => hauthor (Prod.mk.inj heq).1.symm
  cases b with
  | connectPublish => exact hloop (by rintro ⟨⟩)
  | publishShutdown k =>
    exact decide_eq_true (List.mem_append_right _ (List.mem_singleton_self _))
  | lose loss => exact hloop (by rintro ⟨⟩)
  | announce reason =>
    obtain ⟨status, attempt, loop, -, heq⟩ := Publishing.announceNext_eq u reason
    rw [Publishing.next, heq]
    exact hloop (by rintro ⟨⟩)
  | publishConnected => exact hloop (by rintro ⟨⟩)
  | dial connected => cases connected <;> rfl
  | _ => rfl

/-- A step of the connection is seen as one. -/
theorem view_conn {b : Publishing.Action} (hconn : s'.conn = Publishing.next s.conn b)
    (hgone : s'.gone = s.gone) (hpresent : s'.present .connection = s.present .connection) :
    view s' = Waiting.connNext (view s) b := by
  have hwaiters : (if (Waiting.stored s.conn b).isSome then
      fun w => ((view s).waiters w).mark else (view s).waiters) = fun _ => .idle := by
    split <;> rfl
  have hlog := shutdownDone_next s.conn b
  rw [view, hconn, hgone, hpresent, hlog]
  change _ = Waiting.State.mk _ _ _ (if (Waiting.stored s.conn b).isSome then
      fun w => ((view s).waiters w).mark else (view s).waiters) _ _
  rw [hwaiters]
  rfl

/-- **One step** is seen as one of `Waiting`, or not at all. -/
theorem view_next (h : Sound s) (ha : Enabled s a) :
    view (next s a) = view s ∨
      ∃ b, Waiting.Enabled (view s) b ∧ view (next s a) = Waiting.next (view s) b := by
  have hquiet : (next s a).gone = s.gone →
      (next s a).present .connection = s.present .connection → view (next s a) = view s ∨
        ∃ b, Waiting.Enabled (view s) b ∧ view (next s a) = Waiting.next (view s) b := by
    intro hgone hpresent
    rcases conn_next h.owned ha with hsame | ⟨b, hb, hconn, hdrives⟩
    · refine Or.inl ?_
      rw [view, view, hsame, hgone, hpresent]
    · refine Or.inr ⟨.conn b, ⟨hb, fun hdrop => ?_, fun hdrop => ?_⟩,
        view_conn hconn hgone hpresent⟩
      · rw [hdrop] at hb
        exact hb.2
      · subst hdrop
        cases hdrives with
        | own _ hdrop _ =>
          change (if s.gone then _ else _) ≠ _
          rcases hdrop rfl with hg | hp
          · rw [if_pos hg]
            rintro ⟨⟩
          · rw [hp]
            split <;> rintro ⟨⟩
  rcases gone_next ha with hgone | rfl
  · rcases present_next ha .connection with hpresent | ⟨t, rfl, ht, hcleared⟩
    · exact hquiet hgone hpresent
    · cases hp : s.present .connection with
      | false => exact hquiet hgone (hcleared.trans hp.symm)
      | true =>
        cases hg : s.gone with
        | true =>
          refine Or.inl ?_
          change Waiting.State.mk _ (if s.gone then _ else _) _ _ _ _ =
            Waiting.State.mk _ (if s.gone then _ else _) _ _ _ _
          rw [if_pos hg, if_pos hg]
          rfl
        | false =>
          have hpublished := h.cleared.published t (by rw [ht]; decide)
          refine Or.inr ⟨.close, ⟨?_, decide_eq_true hpublished.2⟩, ?_⟩
          · change (if s.gone then _ else _) = _
            rw [if_neg (by rw [hg]; decide), if_pos hp]
          · change Waiting.State.mk _ (if s.gone then _ else
              if (next s (.clear t .connection)).present .connection then _ else _) _ _ _ _ =
                Waiting.State.mk _ _ _ _ _ _
            rw [hg, hcleared]
            rfl
  · refine Or.inr ⟨.dropClient, ⟨?_, ha.1, fun w _ => rfl⟩, rfl⟩
    change (if s.gone then _ else _) ≠ _
    rw [ha.2.1, if_neg Bool.false_ne_true]
    split <;> rintro ⟨⟩

end

/-- **The client is closed as `Waiting` has it**, where `close` is one step that is taken only after
a call of `shutdown` has run to its end, and the `Connection` is dropped only by a client that does
not have it any more. -/
theorem client_refines_waiting (max : Option ℕ) (as : List Action)
    (hv : system.Valid (init max) as) :
    ∃ bs, Waiting.system.Valid (Waiting.init max) bs ∧
      Waiting.system.exec (Waiting.init max) bs = view (system.exec (init max) as) :=
  Transition.System.refines (A := Waiting.system) (I := Sound)
    (fun _ _ h ha => h.next ha) (fun _ _ h ha => view_next h ha) (sound_init max) hv

set_option maxRecDepth 20000 in
theorem client_refines_waiting_contended :
    (view (system.exec (init none) (contended ++ released))).client = .closed ∧
      ∃ bs, Waiting.system.Valid (Waiting.init none) bs ∧ Waiting.system.exec (Waiting.init none) bs =
        view (system.exec (init none) (contended ++ released)) :=
  ⟨by decide, client_refines_waiting none (contended ++ released) (by decide)⟩

end Client

end TitanClient
