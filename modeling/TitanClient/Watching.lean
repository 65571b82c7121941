import TitanClient.Budget
import TitanClient.Latest
import TitanClient.SessionFailures

/-!
# Watching the connection state

`cmd_watch` of the command line client. It subscribes, prints the state, and prints it again
whenever `changed()` returns, until there is an interrupt. The first state is read with `borrow`,
which does not mark it as seen.

A step is one await that resolves, or the reading of the value for a line. The connection goes on in
between, and other receivers may come and go.

The text of a state in a line, and the two lines before the loop, are left out.

## Main results

* `Reported` — the lines against what has been published since the subscription
* `cmd_watch_reports` — for every run
-/

namespace TitanClient

namespace Watching

open Publishing (ConnectionState)

/-- A line: `Current state`, `State changed`, `Connection closed` and `Stopping...`. -/
inductive Line
  | current (status : ConnectionState)
  | changed (status : ConnectionState)
  | closed
  | stopping
  deriving DecidableEq

/-- The state in a line. -/
def Line.status : Line → Option ConnectionState
  | .current status => some status
  | .changed status => some status
  | _ => none

/-- Where the command stands. It is `changed` between `changed()` and the line that follows. -/
inductive Position
  | outside
  | starting
  | waiting
  | changed
  | leaving
  | returned
  deriving DecidableEq

/-- The command has its receiver. -/
def Position.isWatching : Position → Bool
  | .outside => false
  | .returned => false
  | _ => true

/-- The command is about to print a state. -/
def Position.isLooking : Position → Bool
  | .starting => true
  | .changed => true
  | _ => false

/-- The connection and the command. `unseen` says that the receiver has a value it has not been told
of. `first` is the state when it subscribed and `since` the number of states that had been
published; no step reads them. -/
structure State where
  conn : Publishing.State
  position : Position := .outside
  unseen : Bool := false
  lines : List Line := []
  first : ConnectionState := .connected
  since : ℕ := 0

/-- The state right after the loop was spawned. -/
def init (maxReconnectAttempts : Option ℕ) : State :=
  { conn := Publishing.init maxReconnectAttempts }

/-- The steps of the connection, and those of the command: `state_receiver`, a line with a state,
`changed()` with its two results, Ctrl+C, and the return. -/
inductive Action
  | conn (a : Publishing.Action)
  | subscribe
  | print
  | change
  | fail
  | interrupt
  | leave
  deriving DecidableEq

/-- When a step can be taken. `dropReceiver` is for receivers that are not the command's, and
`changed()` fails when the value was seen and both senders are gone. -/
def Enabled (s : State) : Action → Prop
  | .conn a => Publishing.Enabled s.conn a ∧
    (a = .dropReceiver → s.position.isWatching.toNat < s.conn.cell.receivers)
  | .subscribe => s.position = .outside ∧ s.conn.connect = .returned ∧ s.conn.dropped = false
  | .print => s.position.isLooking = true
  | .change => s.position = .waiting ∧ s.unseen = true
  | .fail =>
    s.position = .waiting ∧ s.unseen = false ∧ s.conn.dropped = true ∧ s.conn.loop = .exited
  | .interrupt => s.position = .waiting
  | .leave => s.position = .leaving

instance (s : State) (a : Action) : Decidable (Enabled s a) :=
  match a with
  | .conn _ => inferInstanceAs (Decidable (_ ∧ (_ → _)))
  | .subscribe => inferInstanceAs (Decidable (_ ∧ _ ∧ _))
  | .print => inferInstanceAs (Decidable (_ = _))
  | .change => inferInstanceAs (Decidable (_ ∧ _))
  | .fail => inferInstanceAs (Decidable (_ ∧ _ ∧ _ ∧ _))
  | .interrupt => inferInstanceAs (Decidable (_ = _))
  | .leave => inferInstanceAs (Decidable (_ = _))

/-- The line with the state. -/
def State.line (s : State) : Line :=
  if s.position = .starting then .current s.conn.state else .changed s.conn.state

/-- The state after a step. -/
def next (s : State) : Action → State
  | .conn a =>
    { s with
      conn := Publishing.next s.conn a
      unseen := s.unseen || (Waiting.stored s.conn a).isSome }
  | .subscribe =>
    { s with
      conn := { s.conn with cell := s.conn.cell.subscribe }
      position := .starting
      unseen := false
      first := s.conn.state
      since := s.conn.log.length }
  | .print => { s with position := .waiting, lines := s.lines ++ [s.line] }
  | .change => { s with position := .changed, unseen := false }
  | .fail => { s with position := .leaving, lines := s.lines ++ [.closed] }
  | .interrupt => { s with position := .leaving, lines := s.lines ++ [.stopping] }
  | .leave =>
    { s with
      conn := { s.conn with cell := s.conn.cell.dropReceiver }
      position := .returned }

/-- The connection and the command, as one system. -/
def system : Transition.System State Action := ⟨Enabled, next⟩

instance (s : State) (a : Action) : Decidable (system.Enabled s a) :=
  inferInstanceAs (Decidable (Enabled s a))

/-! ## What is published -/

/-- The states that the lines show. -/
def State.shown (s : State) : List ConnectionState := s.lines.filterMap Line.status

/-- The state when the command subscribed and all that have been published since. -/
def State.published (s : State) : List ConnectionState :=
  s.first :: (s.conn.log.drop s.since).map Prod.snd

section

variable {u : Publishing.State} {a : Publishing.Action}

/-- Once `connect` has returned, the log grows by what the step publishes. -/
theorem log_next (ha : Publishing.Enabled u a) (hconnect : u.connect = .returned) :
    ∃ l, (Publishing.next u a).log = u.log ++ l ∧ l.map Prod.snd = (a.status u).toList := by
  cases a with
  | connectPublish => cases hconnect.symm.trans ha
  | publishShutdown k => exact ⟨_, rfl, rfl⟩
  | lose loss => exact ⟨_, rfl, rfl⟩
  | announce reason =>
    obtain ⟨status, attempt, loop, -, heq⟩ := Publishing.announceNext_eq u reason
    refine ⟨[(.loop, status)], ?_, ?_⟩
    · rw [Publishing.next, heq]
      rfl
    · rw [Publishing.Action.status, heq]
      rfl
  | publishConnected => exact ⟨_, rfl, rfl⟩
  | dial connected =>
    cases connected <;> exact ⟨[], (List.append_nil _).symm, rfl⟩
  | _ => exact ⟨[], (List.append_nil _).symm, rfl⟩

/-- While there is a receiver, all that is published is stored. -/
theorem stored_eq (ha : Publishing.Enabled u a) (hconnect : u.connect = .returned)
    (hreceivers : 0 < u.cell.receivers) : Waiting.stored u a = a.status u := by
  rw [Waiting.stored, if_pos hreceivers, if_neg]
  rintro rfl
  cases hconnect.symm.trans ha

end

/-! ## What is shown -/

/-- The receiver, as a reader of the watch channel. -/
def State.reader (s : State) (earlier : List ConnectionState) : Latest.State ConnectionState where
  earlier := earlier
  current := s.conn.cell.value
  unseen := s.unseen
  looking := s.position.isLooking
  lines := s.shown

/-- What holds while the command has its receiver: everything that is published is stored, and the
lines are those of a reader. -/
structure Watched (s : State) : Prop where
  receivers : 0 < s.conn.cell.receivers
  reads : ∃ earlier, s.published = earlier ++ [s.conn.state] ∧ Latest.Sound (s.reader earlier)

/-- The lines against what has been published since the subscription. -/
structure Reported (s : State) : Prop where
  silent : s.position = .outside → s.lines = []
  subscribed : s.position ≠ .outside →
    s.conn.connect = .returned ∧ s.since ≤ s.conn.log.length ∧
      s.shown.Sublist (s.published.flatMap fun v => [v, v])
  watched : s.position.isWatching = true → Watched s
  closed : .closed ∈ s.lines → s.conn.dropped = true ∧ s.conn.loop = .exited

theorem reported_init (max : Option ℕ) : Reported (init max) where
  silent _ := rfl
  subscribed h := absurd rfl h
  watched h := by cases h
  closed h := by cases h

section

variable {s : State} {a : Action}

theorem Position.ne_outside {p : Position} (h : p.isWatching = true) : p ≠ .outside := by
  rintro rfl
  cases h

/-- Nothing is shown that a reader does not see. -/
theorem Watched.sublist (h : Watched s) :
    s.shown.Sublist (s.published.flatMap fun v => [v, v]) := by
  obtain ⟨earlier, hpublished, hsound⟩ := h.reads
  rw [hpublished]
  exact hsound.lines_sublist

/-- What is published comes after what has been. -/
theorem published_next {u : Publishing.Action} (ha : Publishing.Enabled s.conn u)
    (hconnect : s.conn.connect = .returned) (hsince : s.since ≤ s.conn.log.length) :
    (next s (.conn u)).published = s.published ++ (u.status s.conn).toList ∧
      s.since ≤ (Publishing.next s.conn u).log.length := by
  obtain ⟨l, hlog, hl⟩ := log_next ha hconnect
  constructor
  · change s.first :: ((Publishing.next s.conn u).log.drop s.since).map Prod.snd = _
    rw [hlog, List.drop_append_of_le_length hsince, List.map_append, hl]
    rfl
  · rw [hlog, List.length_append]
    exact Nat.le_add_right_of_le hsince

theorem returned_next {u : Publishing.Action} (ha : Publishing.Enabled s.conn u)
    (hconnect : s.conn.connect = .returned) : (Publishing.next s.conn u).connect = .returned := by
  rcases Waiting.connect_next (u := s.conn) (a := u) with hsame | rfl | rfl
  · exact hsame.trans hconnect
  · cases hconnect.symm.trans ha
  · cases hconnect.symm.trans ha

/-- A step of the connection is at most one value in its channel. -/
theorem Watched.conn (h : Watched s) {u : Publishing.Action} (ha : Enabled s (.conn u))
    (hwatching : s.position.isWatching = true) (hconnect : s.conn.connect = .returned)
    (hsince : s.since ≤ s.conn.log.length) : Watched (next s (.conn u)) where
  receivers := by
    have hheld : 1 + Waiting.held s.conn ≤ s.conn.cell.receivers := by
      rw [Waiting.held, if_pos hconnect]
      exact h.receivers
    have hnext := Waiting.held_next ha.1 hheld fun hdrop => by
      have hlt := ha.2 hdrop
      rwa [hwatching] at hlt
    exact Nat.lt_of_lt_of_le Nat.one_pos (Nat.le_of_add_right_le hnext)
  reads := by
    obtain ⟨earlier, hpublished, hsound⟩ := h.reads
    have hvalue := Waiting.value_next (u := s.conn) (a := u)
    have hgrown := (published_next ha.1 hconnect hsince).1
    have hstored := stored_eq ha.1 hconnect h.receivers
    rw [hstored] at hvalue
    have hunseen : (next s (.conn u)).unseen = (s.unseen || (u.status s.conn).isSome) := by
      rw [← hstored]
      rfl
    cases hstatus : u.status s.conn with
    | none =>
      rw [hstatus] at hvalue hgrown hunseen
      refine ⟨earlier, ?_, ?_⟩
      · rw [hgrown, hpublished, Option.toList_none, List.append_nil]
        exact congrArg (fun v => earlier ++ [v]) hvalue.symm
      · have hsame : (next s (.conn u)).reader earlier = s.reader earlier := by
          rw [State.reader, hunseen, Option.isSome_none, Bool.or_false]
          exact congrArg (fun v => Latest.State.mk earlier v s.unseen _ _) hvalue
        rwa [hsame]
    | some status =>
      rw [hstatus] at hvalue hgrown hunseen
      refine ⟨earlier ++ [s.conn.state], ?_, ?_⟩
      · rw [hgrown, hpublished]
        exact congrArg (fun v => earlier ++ [s.conn.state] ++ [v]) hvalue.symm
      · have hnext : (next s (.conn u)).reader (earlier ++ [s.conn.state]) =
            Latest.next (s.reader earlier) (.store status) := by
          rw [State.reader, hunseen, Option.isSome_some, Bool.or_true]
          exact congrArg (fun v => Latest.State.mk _ v true _ _) hvalue
        rw [hnext]
        exact hsound.store status

/-- A line is what a reader writes down. -/
theorem Watched.print (h : Watched s) (ha : Enabled s .print) : Watched (next s .print) where
  receivers := h.receivers
  reads := by
    obtain ⟨earlier, hpublished, hsound⟩ := h.reads
    refine ⟨earlier, hpublished, ?_⟩
    have hline : [s.line].filterMap Line.status = [s.conn.state] := by
      rw [State.line]
      split <;> rfl
    have hnext : (next s .print).reader earlier = Latest.next (s.reader earlier) .look := by
      change Latest.State.mk earlier _ s.unseen false ((s.lines ++ [s.line]).filterMap _) = _
      rw [List.filterMap_append, hline]
      rfl
    rw [hnext]
    exact hsound.look ha

/-- `changed()` tells the reader of the value. -/
theorem Watched.change (h : Watched s) (ha : Enabled s .change) : Watched (next s .change) where
  receivers := h.receivers
  reads := by
    obtain ⟨earlier, hpublished, hsound⟩ := h.reads
    exact ⟨earlier, hpublished, hsound.notice ⟨ha.2, congrArg Position.isLooking ha.1⟩⟩

/-- A line without a state ends the loop, and the reader rests. -/
theorem Watched.end (h : Watched s) (ha : s.position = .waiting) {line : Line}
    (hline : line.status = none) :
    Watched { s with position := .leaving, lines := s.lines ++ [line] } where
  receivers := h.receivers
  reads := by
    obtain ⟨earlier, hpublished, hsound⟩ := h.reads
    have hnext : State.reader { s with position := .leaving, lines := s.lines ++ [line] } earlier =
        s.reader earlier := by
      have hshown : [line].filterMap Line.status = [] := by
        rw [List.filterMap_cons, hline]
        rfl
      rw [State.reader, State.reader, State.shown, State.shown, List.filterMap_append, hshown,
        List.append_nil, ha]
      rfl
    exact ⟨earlier, hpublished, hnext ▸ hsound⟩

/-- The receiver begins with the value that is stored. -/
theorem watched_subscribe (hlines : s.lines = []) : Watched (next s .subscribe) where
  receivers := Nat.succ_pos _
  reads := by
    refine ⟨[], ?_, ?_⟩
    · change s.conn.state :: (s.conn.log.drop s.conn.log.length).map Prod.snd = _
      rw [List.drop_length]
      rfl
    · have hreader : (next s .subscribe).reader [] = Latest.init s.conn.state := by
        change Latest.State.mk [] _ false true (s.lines.filterMap Line.status) = _
        rw [hlines]
        rfl
      rw [hreader]
      exact Latest.sound_init _

/-- The senders stay gone. -/
theorem gone_next {u : Publishing.State} {b : Publishing.Action} (hb : Publishing.Enabled u b)
    (h : u.dropped = true ∧ u.loop = .exited) :
    (Publishing.next u b).dropped = true ∧ (Publishing.next u b).loop = .exited :=
  ⟨Publishing.dropped_next h.1 b, Session.exited_next hb h.2⟩

theorem Reported.next (h : Reported s) (ha : Enabled s a) : Reported (Watching.next s a) := by
  have hwatching : ∀ {p : Position}, s.position = p → p.isWatching = true →
      s.position ≠ .outside ∧ Watched s := by
    rintro p rfl hp
    exact ⟨Position.ne_outside hp, h.watched hp⟩
  have hlines : ∀ {line : Line}, line ≠ .closed → .closed ∈ s.lines ++ [line] →
      s.conn.dropped = true ∧ s.conn.loop = .exited := by
    intro line hline hmem
    rcases List.mem_append.mp hmem with hold | hnew
    · exact h.closed hold
    · exact absurd (List.mem_singleton.mp hnew).symm hline
  cases a with
  | conn u =>
    refine ⟨h.silent, fun hout => ?_, fun hpos => ?_, fun hmem => gone_next ha.1 (h.closed hmem)⟩
    · obtain ⟨hconnect, hsince, hshown⟩ := h.subscribed hout
      obtain ⟨hgrown, hlog⟩ := published_next ha.1 hconnect hsince
      refine ⟨returned_next ha.1 hconnect, hlog, ?_⟩
      rw [hgrown, List.flatMap_append]
      exact hshown.trans (List.sublist_append_left _ _)
    · obtain ⟨hconnect, hsince, -⟩ := h.subscribed (Position.ne_outside hpos)
      exact (h.watched hpos).conn ha hpos hconnect hsince
  | subscribe =>
    have hwatched : Watched (Watching.next s .subscribe) := watched_subscribe (h.silent ha.1)
    refine ⟨(fun hout => by cases hout), fun _ => ⟨ha.2.1, le_rfl, hwatched.sublist⟩,
      fun _ => hwatched, fun hmem => ?_⟩
    rw [Watching.next, h.silent ha.1] at hmem
    cases hmem
  | print =>
    have hpos : s.position.isWatching = true := by
      have hlooking : s.position.isLooking = true := ha
      generalize s.position = p at hlooking
      cases p <;> first | rfl | cases hlooking
    have hwatched := (h.watched hpos).print ha
    obtain ⟨hconnect, hsince, -⟩ := h.subscribed (Position.ne_outside hpos)
    refine ⟨(fun hout => by cases hout), fun _ => ⟨hconnect, hsince, hwatched.sublist⟩,
      fun _ => hwatched, hlines ?_⟩
    rw [State.line]
    split <;> rintro ⟨⟩
  | change =>
    obtain ⟨hout, hold⟩ := hwatching ha.1 rfl
    have hwatched := hold.change ha
    obtain ⟨hconnect, hsince, -⟩ := h.subscribed hout
    exact ⟨(fun hout => by cases hout), fun _ => ⟨hconnect, hsince, hwatched.sublist⟩,
      fun _ => hwatched, h.closed⟩
  | fail =>
    obtain ⟨hout, hold⟩ := hwatching ha.1 rfl
    have hwatched : Watched (Watching.next s .fail) := hold.end ha.1 rfl
    obtain ⟨hconnect, hsince, -⟩ := h.subscribed hout
    exact ⟨(fun hout => by cases hout), fun _ => ⟨hconnect, hsince, hwatched.sublist⟩,
      fun _ => hwatched, fun _ => ha.2.2⟩
  | interrupt =>
    obtain ⟨hout, hold⟩ := hwatching ha rfl
    have hwatched : Watched (Watching.next s .interrupt) := hold.end ha rfl
    obtain ⟨hconnect, hsince, -⟩ := h.subscribed hout
    exact ⟨(fun hout => by cases hout), fun _ => ⟨hconnect, hsince, hwatched.sublist⟩,
      fun _ => hwatched, hlines fun hline => by cases hline⟩
  | leave =>
    obtain ⟨hout, hold⟩ := hwatching ha rfl
    exact ⟨(fun hout => by cases hout), fun _ => h.subscribed hout, (fun hpos => by cases hpos),
      h.closed⟩

end

theorem exec_reported {max : Option ℕ} {as : List Action} (hv : system.Valid (init max) as) :
    Reported (system.exec (init max) as) :=
  Transition.System.invariant (fun _ _ h ha => h.next ha) (reported_init max) hv

/-- Steps the command takes by itself while it watches. -/
def Action.isOwn : Action → Bool
  | .print => true
  | .change => true
  | _ => false

/-- By itself the command takes three steps at most. -/
theorem own_length_le {s : State} {bs : List Action} (hv : system.Valid s bs)
    (hown : ∀ b ∈ bs, b.isOwn = true) : bs.length ≤ 3 := by
  have hlength := Transition.System.length_le_of_rank (S := system) (I := fun _ => True)
    (C := fun b => b.isOwn = true) (b := 0) (fun s => (s.reader []).patience) (fun _ => 0)
    (fun s b _ hb ha => ⟨trivial, Or.inl ⟨?_, le_rfl⟩⟩) trivial hown hv
  · have hpatience := Latest.patience_le (s.reader [])
    omega
  · cases b with
    | print =>
      have hlook := Latest.patience_next (s := s.reader []) (a := .look) ha fun _ h => by cases h
      exact Nat.lt_of_succ_le (Nat.le_of_eq hlook)
    | change =>
      have hnotice := Latest.patience_next (s := s.reader []) (a := .notice)
        ⟨ha.2, congrArg Position.isLooking ha.1⟩ fun _ h => by cases h
      exact Nat.lt_of_succ_le (Nat.le_of_eq hnotice)
    | _ => cases hb

/-- **`cmd_watch` misses no state that lasts.** In every run the states it shows are, in their
order, among those published since it subscribed, each of which is shown twice at most. When it has
nothing more to do than wait, what it has shown last is the state that was published last and that
`state()` returns; it gets there with three steps of its own. It says that the connection is closed
only when the `Connection` is gone and the loop has exited. -/
theorem cmd_watch_reports (max : Option ℕ) (as : List Action)
    (hv : system.Valid (init max) as) :
    let s := system.exec (init max) as
    s.shown.Sublist (s.published.flatMap fun v => [v, v]) ∧
      (s.position = .waiting → ¬Enabled s .change →
        s.shown.getLast? = some s.conn.state ∧ s.published.getLast? = some s.conn.state) ∧
      (∀ bs, system.Valid s bs → (∀ b ∈ bs, b.isOwn = true) → bs.length ≤ 3) ∧
      (.closed ∈ s.lines → s.conn.dropped = true ∧ s.conn.loop = .exited) := by
  intro s
  have h : Reported s := exec_reported hv
  refine ⟨?_, fun hwaiting hchange => ?_, fun bs hbs hown => own_length_le hbs hown, h.closed⟩
  · by_cases hout : s.position = .outside
    · rw [State.shown, h.silent hout]
      exact List.nil_sublist _
    · exact (h.subscribed hout).2.2
  · have hunseen : s.unseen = false :=
      Bool.eq_false_iff.mpr fun hunseen => hchange ⟨hwaiting, hunseen⟩
    obtain ⟨earlier, hpublished, hsound⟩ := (h.watched (by rw [hwaiting]; rfl)).reads
    refine ⟨hsound.last (congrArg Position.isLooking hwaiting) hunseen, ?_⟩
    rw [hpublished]
    exact List.getLast?_concat

/-- The connection is lost and comes back. The command is told once of the loss and the attempt. -/
def outage : List Action :=
  [.conn .connectPublish, .conn .connectReturn, .subscribe, .print, .conn (.lose .pongTimeout),
    .conn (.checkShutdown "Pong timeout"), .conn (.checkClosed "Pong timeout"),
    .conn (.announce "Pong timeout"), .change, .print, .conn .wake, .conn (.dial true),
    .conn .publishConnected, .change, .print]

theorem cmd_watch_reports_outage :
    (system.exec (init none) outage).lines =
        [.current .connected, .changed (.reconnecting 1), .changed .connected] ∧
      (system.exec (init none) outage).shown.getLast? =
        some (system.exec (init none) outage).conn.state :=
  ⟨by decide, ((cmd_watch_reports none outage (by decide)).2.1 (by decide) (by decide)).1⟩

end Watching

end TitanClient
