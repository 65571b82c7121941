import TitanClient.Arrival
import TitanClient.Neighbours

/-!
# What is open on the server

The streams that are open on the server, and the frames on the way, seen from the client. The server
opens streams only on the connection in use; so while `resume_streams` works through its snapshot,
a stream that waits for its turn is not open, and one whose turn it is has its response on the way.

A `StreamEnd` names an id, and an id may be the old one of a stream that waits and the new one of
another. The frames come in the order in which the server sent them. So a `StreamEnd` for the id of
an entry that waits comes behind the answer to its resume request, and one for the id of an open
stream is older than its response.

## Main results

* `ServerChange`, `serverChange` — all that a step can do to the frames on the wire and to what is
  open
* `Server` — what a server does, apart from the choice of ids
* `SparesWaiting` — no stream is opened under the id of another one that waits to be resumed
* `Served`, `Served.next` — what holds of the open streams in runs with such a server
-/

namespace TitanClient

namespace Lifecycle

/-! ## Frames and open streams -/

/-- All that a step can do to the frames on the wire and to what is open on the server. -/
inductive ServerChange (s : State) : Action → List Message → List (ℕ × ℕ) → Prop
  | same {a : Action} (hread : ∀ r m, a ≠ .read r m)
      (hlost : ∀ oldId i ticket rest, a ≠ .resumeLost oldId i ticket rest) :
      ServerChange s a s.wire s.openStreams
  | taken {r : Reading} {f : Message} {wire : List Message} (hwire : s.wire = f :: wire) :
      ServerChange s (.read r f) wire s.openStreams
  | lost : ServerChange s .lose s.wire []
  | cut {a : Action} : ServerChange s a [] []
  | accepted {ticket i id : ℕ} (h : (ticket, .newStream i) ∈ s.toServer) :
      ServerChange s (.accept ticket i id) (s.wire ++ [.response ticket (some id)])
        (s.openStreams ++ [(id, i)])
  | carriedOut {ticket : ℕ} {r : Request} {ok : Bool} :
      ServerChange s (.carryOut ticket r ok)
        (s.wire ++ [if ok then .response ticket none else .error ticket])
        (r.openStreams s.openStreams)
  | sent {m : Message} :
      ServerChange s (.serverSend m) (s.wire ++ [m]) (m.openStreams s.openStreams)

/-- Each step changes them in one of these ways, or not at all. -/
theorem serverChange {s : State} {a : Action} (ha : Enabled s a) :
    ServerChange s a (next s a).wire (next s a).openStreams := by
  have hm := mailChange ha
  change ServerChange s a (next s a).mail.wire (next s a).mail.openStreams
  generalize (next s a).mail = m at hm
  cases hm with
  | same hstill =>
    refine .same ?_ ?_
    · rintro r m rfl
      cases hstill
    · rintro oldId i ticket rest rfl
      cases hstill
  | pushed hpushed =>
    refine .same ?_ ?_
    · rintro r m rfl
      cases hpushed
    · rintro oldId i ticket rest rfl
      cases hpushed
  | taken _ hhead => exact .taken (List.eq_cons_of_mem_head? hhead)
  | completed _ hhead => exact .taken (List.eq_cons_of_mem_head? hhead)
  | dialled => exact .cut
  | resumeLost => exact .cut
  | cleaned => exact .cut
  | lost => exact .lost
  | accepted _ h => exact .accepted h
  | carriedOut => exact .carriedOut
  | serverSent => exact .sent
  | _ => exact .same nofun nofun

theorem Request.mem_openStreams {r : Request} {opens : List (ℕ × ℕ)} {e : ℕ × ℕ} :
    e ∈ r.openStreams opens ↔ e ∈ opens ∧ r ≠ .stopStream e.1 := by
  cases r with
  | newStream i => simp [Request.openStreams]
  | stopStream id =>
    simp only [Request.openStreams, List.mem_filter, decide_eq_true_eq, ne_eq,
      Request.stopStream.injEq]
    rw [eq_comm]

theorem Message.mem_openStreams {m : Message} {opens : List (ℕ × ℕ)} {e : ℕ × ℕ} :
    e ∈ m.openStreams opens ↔ e ∈ opens ∧ m ≠ .ended e.1 := by
  cases m with
  | ended id =>
    simp only [Message.openStreams, List.mem_filter, decide_eq_true_eq, ne_eq,
      Message.ended.injEq]
    rw [eq_comm]
  | _ => simp [Message.openStreams]

/-- What is open was open before, or has just been opened. -/
theorem ServerChange.opened {s : State} {a : Action} {wire : List Message}
    {opens : List (ℕ × ℕ)} (hc : ServerChange s a wire opens) {id i : ℕ} (he : (id, i) ∈ opens) :
    (id, i) ∈ s.openStreams ∨
      ∃ ticket, a = .accept ticket i id ∧ (ticket, .newStream i) ∈ s.toServer := by
  cases hc with
  | same => exact Or.inl he
  | taken => exact Or.inl he
  | lost => cases he
  | cut => cases he
  | accepted h =>
    rcases List.mem_append.mp he with he | he
    · exact Or.inl he
    · cases List.mem_singleton.mp he
      exact Or.inr ⟨_, rfl, h⟩
  | carriedOut => exact Or.inl (Request.mem_openStreams.mp he).1
  | sent => exact Or.inl (Message.mem_openStreams.mp he).1

/-! ## The server -/

/-- The id of the stream that the server ends. -/
def Action.ending : Action → Option ℕ
  | .serverSend (.ended id) => some id
  | _ => none

/-- What a server does: it gives no two of the streams that are open at a time the same id, answers
only what it is asked, and ends only what is open. -/
def Server (s : State) (a : Action) : Prop :=
  Honest s a ∧ ∀ id ∈ a.ending, ∃ e ∈ s.openStreams, e.1 = id

instance (s : State) (a : Action) : Decidable (Server s a) :=
  inferInstanceAs (Decidable (_ ∧ ∀ _ ∈ _, _))

/-- The server opens no stream under the id of another one that waits to be resumed. -/
def SparesWaiting (s : State) (a : Action) : Prop :=
  ∀ e ∈ a.accepted, ∀ e' ∈ s.loop.snapshot, e'.1 = e.2 → e'.2 = e.1

instance (s : State) (a : Action) : Decidable (SparesWaiting s a) :=
  inferInstanceAs (Decidable (∀ _ ∈ _, ∀ _ ∈ _, _ → _))

/-- The ticket of the request for which the server opens a stream. -/
def Action.granted : Action → Option ℕ
  | .accept ticket _ _ => some ticket
  | _ => none

/-- Nothing is open for a start whose request the loop has given up: the server opens a stream only
for a request that has no result yet, and when the loop leaves its socket no start still waits for
the answer that has opened its stream. -/
def NoneGivenUp (s : State) (a : Action) : Prop :=
  (∀ ticket ∈ a.granted, s.answers ticket = none) ∧
    (a = .leave → ∀ e ∈ s.openStreams, ∀ t ∈ s.pending, (s.streams e.2).start ≠ .awaiting t)

instance (s : State) (a : Action) : Decidable (NoneGivenUp s a) :=
  inferInstanceAs (Decidable ((∀ _ ∈ _, _) ∧ (_ → ∀ _ ∈ _, ∀ _ ∈ _, _)))

/-- Nothing is open on a lost connection, nor on a new one before the snapshot is taken, and the
loop takes its connection with it. -/
structure Offline (s : State) : Prop where
  dead : s.alive = false → s.openStreams = []
  exited : s.loop = .exited → s.alive = false
  fresh : s.loop = .snapshotting →
    s.openStreams = [] ∧ s.toServer = [] ∧ ∀ id, .ended id ∉ s.wire

/-- What holds of the open streams and of the frames on their way. An entry that waits is not open
but when its turn has come, and then its response is on the way (`turn`); nobody else is open under
its id (`spared`). A `StreamEnd` for its id comes behind the answer to its request (`behind`), and
one for the id of an open stream is older than its response (`older`). -/
structure Served (s : State) : Prop where
  offline : Offline s
  nodup : (s.openStreams.map Prod.fst).Nodup
  turn : ∀ n i oldId, (n, i) ∈ s.openStreams → (oldId, i) ∈ s.loop.snapshot →
    ∃ ticket, s.loop.turn = some (oldId, i, ticket) ∧ .response ticket (some n) ∈ s.wire
  spared : ∀ n i j, (n, i) ∈ s.loop.snapshot → (n, j) ∈ s.openStreams → j = i
  behind : ∀ n i, (n, i) ∈ s.loop.snapshot → Arrival.After
    (fun f => ∃ ticket stream, f = .response ticket stream ∧ s.loop.turn = some (n, i, ticket))
    (.ended n) s.wire
  older : ∀ n i, (n, i) ∈ s.openStreams → Arrival.Before
    (fun f => ∃ ticket, f = .response ticket (some n) ∧ s.Opening i ticket) (.ended n) s.wire

section

variable {s : State} {a : Action}

/-- Only a dial brings a connection back. -/
theorem MailChange.alive {m : Mail} (hc : MailChange s a m) (hdead : s.alive = false)
    (hdial : a ≠ .dial true) : m.alive = false := by
  cases hc with
  | dialled => exact absurd rfl hdial
  | resumeLost => rfl
  | cleaned => rfl
  | lost => rfl
  | _ => exact hdead

namespace Offline

private theorem next_dead (h : Offline s) (ha : Enabled s a) (hdead : (next s a).alive = false) :
    (next s a).openStreams = [] := by
  have hm := mailChange ha
  change (Lifecycle.next s a).mail.alive = false at hdead
  change (Lifecycle.next s a).mail.openStreams = []
  generalize (Lifecycle.next s a).mail = m at hdead hm
  cases hm with
  | dialled => rfl
  | resumeLost => rfl
  | cleaned => rfl
  | lost => rfl
  | accepted halive => cases halive.symm.trans hdead
  | carriedOut halive => cases halive.symm.trans hdead
  | serverSent halive => cases halive.symm.trans hdead
  | _ => exact h.dead hdead

private theorem next_exited (h : Offline s) (ha : Enabled s a)
    (hexited : (next s a).loop = .exited) : (next s a).alive = false := by
  have hc := loopChange ha
  have hm := mailChange ha
  change (Lifecycle.next s a).mail.alive = false
  generalize (Lifecycle.next s a).loop = l at hexited hc
  cases hc with
  | same hstill =>
    refine hm.alive (h.exited hexited) ?_
    rintro rfl
    cases hstill
  | cleaned =>
    generalize (Lifecycle.next s .cleanup).mail = m at hm
    cases hm with
    | same hstill => cases hstill
    | pushed hpushed => cases hpushed
    | cleaned => rfl
  | _ => cases hexited

private theorem next_fresh (h : Offline s) (hC : Server s a) (ha : Enabled s a)
    (hfresh : (next s a).loop = .snapshotting) :
    (next s a).openStreams = [] ∧ (next s a).toServer = [] ∧ ∀ id, .ended id ∉ (next s a).wire := by
  have hc := loopChange ha
  have hm := mailChange ha
  change (Lifecycle.next s a).mail.openStreams = [] ∧ (Lifecycle.next s a).mail.toServer = [] ∧
    ∀ id, .ended id ∉ (Lifecycle.next s a).mail.wire
  generalize (Lifecycle.next s a).mail = m at hm
  generalize (Lifecycle.next s a).loop = l at hfresh hc
  cases hc with
  | same hstill =>
    obtain ⟨hopen, hserver, hwire⟩ := h.fresh hfresh
    cases hm with
    | dequeued hl => cases hfresh.symm.trans hl
    | resumeSent hl => cases hfresh.symm.trans hl
    | taken hl => cases hfresh.symm.trans hl
    | completed hl => cases hfresh.symm.trans hl
    | dialled => cases hstill
    | resumeLost => cases hstill
    | cleaned => cases hstill
    | lost => exact ⟨rfl, rfl, hwire⟩
    | accepted _ hmem =>
      rw [hserver] at hmem
      cases hmem
    | carriedOut _ hmem =>
      rw [hserver] at hmem
      cases hmem
    | @serverSent m =>
      refine ⟨List.eq_nil_iff_forall_not_mem.mpr fun e he => ?_, hserver, fun id hmem => ?_⟩
      · have hold := (Message.mem_openStreams.mp he).1
        rw [hopen] at hold
        cases hold
      · rcases List.mem_append.mp hmem with hmem | hmem
        · exact hwire id hmem
        · -- Nothing is open that the server could end.
          rw [← List.mem_singleton.mp hmem] at hC
          obtain ⟨e, he, -⟩ := hC.2 id rfl
          rw [hopen] at he
          cases he
    | _ => exact ⟨hopen, hserver, hwire⟩
  | dialled =>
    cases hm with
    | same hstill => cases hstill
    | pushed hpushed => cases hpushed
    | dialled => exact ⟨rfl, rfl, fun _ => List.not_mem_nil⟩
  | _ => cases hfresh

theorem next (h : Offline s) (hC : Server s a) (ha : Enabled s a) : Offline (Lifecycle.next s a) :=
  ⟨h.next_dead ha, h.next_exited ha, h.next_fresh hC ha⟩

end Offline

/-- The turn of an entry goes on as long as the entry is in the snapshot, and its answer is not read
meanwhile. -/
theorem turn_kept (ho : Orderly s) (ha : Enabled s a) {oldId i ticket : ℕ}
    (hturn : s.loop.turn = some (oldId, i, ticket))
    (hmem : (oldId, i) ∈ (next s a).loop.snapshot)
    (hlost : ∀ rest, a ≠ .resumeLost oldId i ticket rest) :
    (next s a).loop.turn = some (oldId, i, ticket) ∧
      ∀ r m reply, a = .read r m → m.answer ≠ some (ticket, reply) := by
  have hread : ∀ r m reply, a = .read r m → m.answer ≠ some (ticket, reply) := by
    rintro r m reply rfl hans
    obtain ⟨rest, hr⟩ := Loop.turn_eq_some.mp hturn
    have hl : s.loop = .reading (.resuming oldId i ticket rest) := by
      rw [show s.loop = .reading r from ha.1] at hr ⊢
      cases hr
      rfl
    have hnodup := ho.streams
    rw [hl] at hnodup
    have hnot : i ∉ rest.map Prod.snd := (List.nodup_cons.mp hnodup).1
    refine hnot ?_
    have hc := loopChange ha
    generalize (next s (.read r m)).loop = l at hmem hc
    cases hc with
    | same _ hother =>
      have hr' : r = .resuming oldId i ticket rest := by
        rw [show s.loop = .reading r from ha.1] at hl
        cases hl
        rfl
      exact absurd hans (hother oldId i ticket rest m reply (by rw [hr']))
    | found => cases hans
    | moved hl' =>
      cases hl.symm.trans hl'
      exact List.mem_map_of_mem (f := Prod.snd) hmem
    | answered hl' =>
      cases hl.symm.trans hl'
      exact List.mem_map_of_mem (f := Prod.snd) hmem
  exact ⟨turn_stays ha hturn hread hlost, hread⟩

/-- When the loop leaves, nobody's open stream waits for an answer that the loop gives up. -/
theorem NoneGivenUp.not_pending (h : NoneGivenUp s a) (ha : Enabled s a) {n i ticket : ℕ}
    (ho : s.Opening i ticket) (hopen : (n, i) ∈ s.openStreams) (hl : a = .leave) :
    ticket ∉ s.pending := by
  intro hmem
  rcases ho with ⟨hstart, -⟩ | hturn
  · exact h.2 hl (n, i) hopen ticket hmem hstart
  · subst hl
    obtain ⟨oldId, hturn⟩ := Loop.turn_map.mp hturn
    rw [show s.loop = .reading .serving from ha] at hturn
    cases hturn

namespace Served

private theorem next_nodup (h : Served s) (hC : Server s a) (ha : Enabled s a) :
    ((next s a).openStreams.map Prod.fst).Nodup := by
  have hc := serverChange ha
  generalize (Lifecycle.next s a).openStreams = opens at hc
  generalize (Lifecycle.next s a).wire = wire at hc
  cases hc with
  | same => exact h.nodup
  | taken => exact h.nodup
  | lost => exact List.nodup_nil
  | cut => exact List.nodup_nil
  | @accepted ticket i id =>
    rw [List.map_append, List.map_singleton]
    refine h.nodup.append (List.nodup_singleton id) ?_
    intro n hn hid
    obtain ⟨e, he, rfl⟩ := List.mem_map.mp hn
    exact hC.1.1 _ rfl e he (List.mem_singleton.mp hid)
  | @carriedOut ticket r =>
    cases r with
    | newStream => exact h.nodup
    | stopStream => exact h.nodup.sublist (List.filter_sublist.map _)
  | @sent m =>
    cases m with
    | ended => exact h.nodup.sublist (List.filter_sublist.map _)
    | _ => exact h.nodup

/-- What is left of the snapshot was left before the step, or nothing is open and nothing is
ended. -/
private theorem snapshot_old (h : Served s) (ha : Enabled s a) {e : ℕ × ℕ}
    (he : e ∈ (next s a).loop.snapshot) :
    e ∈ s.loop.snapshot ∨
      (next s a).openStreams = [] ∧ ∀ id, .ended id ∉ (next s a).wire := by
  by_cases hsnap : ∃ order, a = .snapshot order
  · obtain ⟨order, rfl⟩ := hsnap
    obtain ⟨hopen, -, hwire⟩ := h.offline.fresh ha.1
    exact Or.inr ⟨hopen, hwire⟩
  · left
    exact ((loopChange ha).snapshot_sublist fun order ho => hsnap ⟨order, ho⟩).subset he

private theorem next_turn (h : Served s) (ht : Transit s) (ho : Orderly s)
    (hC : NoneGivenUp s a) (ha : Enabled s a) (n i oldId : ℕ) (hopen : (n, i) ∈ (next s a).openStreams)
    (hmem : (oldId, i) ∈ (next s a).loop.snapshot) :
    ∃ ticket, (next s a).loop.turn = some (oldId, i, ticket) ∧
      .response ticket (some n) ∈ (next s a).wire := by
  have hold : (oldId, i) ∈ s.loop.snapshot := by
    rcases h.snapshot_old ha hmem with hold | ⟨hnil, -⟩
    · exact hold
    · rw [hnil] at hopen
      cases hopen
  have hlost : ∀ {ticket : ℕ} rest, a ≠ .resumeLost oldId i ticket rest := by
    rintro ticket rest rfl
    cases hopen
  have hc := serverChange ha
  generalize (Lifecycle.next s a).openStreams = opens at hopen hc
  generalize (Lifecycle.next s a).wire = wire at hc
  have hkept : (n, i) ∈ s.openStreams → (∀ ticket, .response ticket (some n) ∈ s.wire →
      (∀ r m reply, a = .read r m → m.answer ≠ some (ticket, reply)) →
        .response ticket (some n) ∈ wire) →
      ∃ ticket, (Lifecycle.next s a).loop.turn = some (oldId, i, ticket) ∧
        .response ticket (some n) ∈ wire := by
    intro hopen hwire
    obtain ⟨ticket, hturn, hresponse⟩ := h.turn n i oldId hopen hold
    obtain ⟨hturn', hread⟩ := turn_kept ho ha hturn hmem hlost
    exact ⟨ticket, hturn', hwire ticket hresponse hread⟩
  cases hc with
  | same => exact hkept hopen fun _ hf _ => hf
  | taken hwire =>
    refine hkept hopen fun ticket hf hread => ?_
    rw [hwire] at hf
    rcases List.mem_cons.mp hf with rfl | hf
    · exact absurd rfl (hread _ _ _ rfl)
    · exact hf
  | lost => cases hopen
  | cut => cases hopen
  | @accepted ticket j id hasked =>
    rcases List.mem_append.mp hopen with hopen | hopen
    · exact hkept hopen fun _ hf _ => List.mem_append_left _ hf
    · cases List.mem_singleton.mp hopen
      rcases ht.tied.opening ticket i hasked (hC.1 _ rfl) with ⟨hstart, -⟩ | hturn
      · have hdone := ht.wired.inLoop i (Loop.mem_streams_of_snapshot hold)
        cases hdone.symm.trans hstart
      · obtain ⟨oldId', hturn⟩ := Loop.turn_map.mp hturn
        cases ho.unique hold (Loop.mem_snapshot_of_turn hturn) rfl
        exact ⟨ticket, (turn_kept ho ha hturn hmem hlost).1,
          List.mem_append_right _ List.mem_cons_self⟩
  | carriedOut =>
    exact hkept (Request.mem_openStreams.mp hopen).1 fun _ hf _ => List.mem_append_left _ hf
  | sent =>
    exact hkept (Message.mem_openStreams.mp hopen).1 fun _ hf _ => List.mem_append_left _ hf

private theorem next_spared (h : Served s) (hC : SparesWaiting s a) (ha : Enabled s a) (n i j : ℕ)
    (hmem : (n, i) ∈ (next s a).loop.snapshot) (hopen : (n, j) ∈ (next s a).openStreams) :
    j = i := by
  rcases h.snapshot_old ha hmem with hold | ⟨hnil, -⟩
  · rcases (serverChange ha).opened hopen with hopen | ⟨ticket, rfl, -⟩
    · exact h.spared n i j hold hopen
    · exact (hC _ rfl _ hold rfl).symm
  · rw [hnil] at hopen
    cases hopen

private theorem next_behind (h : Served s) (ho : Orderly s) (hC : Server s a) (ha : Enabled s a)
    (n i : ℕ) (hmem : (n, i) ∈ (next s a).loop.snapshot) : Arrival.After
      (fun f => ∃ ticket stream, f = .response ticket stream ∧
        (next s a).loop.turn = some (n, i, ticket))
      (.ended n) (next s a).wire := by
  rcases h.snapshot_old ha hmem with hold | ⟨-, hwire⟩
  · by_cases hlost : ∃ ticket rest, a = .resumeLost n i ticket rest
    · obtain ⟨ticket, rest, rfl⟩ := hlost
      exact Arrival.After.of_not_mem List.not_mem_nil
    · have hlost' : ∀ {ticket : ℕ} rest, a ≠ .resumeLost n i ticket rest :=
        fun rest hr => hlost ⟨_, rest, hr⟩
      have hbehind := h.behind n i hold
      have hstays : ∀ {l : List Message}, Arrival.After (fun f => ∃ ticket stream,
          f = .response ticket stream ∧ s.loop.turn = some (n, i, ticket)) (.ended n) l →
          Arrival.After (fun f => ∃ ticket stream, f = .response ticket stream ∧
            (Lifecycle.next s a).loop.turn = some (n, i, ticket)) (.ended n) l := by
        intro l hl
        refine hl.mono fun f _ hf => ?_
        obtain ⟨ticket, stream, rfl, hturn⟩ := hf
        exact ⟨ticket, stream, rfl, (turn_kept ho ha hturn hmem hlost').1⟩
      have hc := serverChange ha
      generalize (Lifecycle.next s a).openStreams = opens at hc
      generalize (Lifecycle.next s a).wire = wire at hc ⊢
      cases hc with
      | same => exact hstays hbehind
      | taken hwire =>
        rw [hwire] at hbehind
        refine hstays (hbehind.of_cons ?_)
        rintro ⟨ticket, stream, rfl, hturn⟩
        exact (turn_kept ho ha hturn hmem hlost').2 _ _ _ rfl rfl
      | lost => exact hstays hbehind
      | cut => exact Arrival.After.of_not_mem List.not_mem_nil
      | accepted => exact hstays (hbehind.append nofun)
      | @carriedOut ticket r ok => exact hstays (hbehind.append (by cases ok <;> nofun))
      | sent =>
        refine hstays (hbehind.append ?_)
        rintro rfl
        obtain ⟨⟨_, j⟩, hopen, rfl⟩ := hC.2 n rfl
        cases h.spared _ i j hold hopen
        obtain ⟨ticket, hturn, hresponse⟩ := h.turn _ i _ hopen hold
        exact ⟨_, hresponse, ticket, _, rfl, hturn⟩
  · exact Arrival.After.of_not_mem (hwire n)

private theorem next_older (h : Served s) (ht : Transit s) (hC : NoneGivenUp s a)
    (ha : Enabled s a) (n i : ℕ)
    (hopen : (n, i) ∈ (next s a).openStreams) : Arrival.Before
      (fun f => ∃ ticket, f = .response ticket (some n) ∧ (next s a).Opening i ticket)
      (.ended n) (next s a).wire := by
  have hlost : ∀ {ticket : ℕ} oldId rest, a ≠ .resumeLost oldId i ticket rest := by
    rintro ticket oldId rest rfl
    cases hopen
  have hold : a = .leave → (n, i) ∈ s.openStreams := by
    rintro rfl
    exact hopen
  have hstays : ∀ {l : List Message}, Arrival.Before (fun f => ∃ ticket,
      f = .response ticket (some n) ∧ s.Opening i ticket) (.ended n) l →
      (∀ f ∈ l, f ∈ s.wire ∧ ∀ r m ticket reply reply', a = .read r m →
        f.answer = some (ticket, reply) → m.answer ≠ some (ticket, reply')) →
      Arrival.Before (fun f => ∃ ticket, f = .response ticket (some n) ∧
        (Lifecycle.next s a).Opening i ticket) (.ended n) l := by
    intro l hl hfrom
    refine hl.mono fun f hf hP => ?_
    obtain ⟨ticket, rfl, hopening⟩ := hP
    obtain ⟨hf', hread⟩ := hfrom _ hf
    exact ⟨ticket, rfl, ht.opening_stays ha hopening (Tied.mem_written_wire hf' rfl)
      (fun r m reply hr => hread r m ticket _ reply hr rfl) hlost
      fun hl => hC.not_pending ha hopening (hold hl) hl⟩
  have hc := serverChange ha
  generalize (Lifecycle.next s a).openStreams = opens at hopen hc
  generalize (Lifecycle.next s a).wire = wire at hc ⊢
  cases hc with
  | same hread =>
    exact hstays (h.older n i hopen) fun f hf => ⟨hf, fun r m _ _ _ hr => absurd hr (hread r m)⟩
  | taken hwire =>
    have holder := h.older n i hopen
    rw [hwire] at holder
    refine hstays holder.of_cons fun f hf => ⟨by rw [hwire]; exact List.mem_cons_of_mem _ hf, ?_⟩
    rintro r m ticket reply reply' ⟨⟩ hans
    exact ht.apart.head_answer hwire hf hans
  | lost => cases hopen
  | cut => cases hopen
  | @accepted ticket j id hasked =>
    rcases List.mem_append.mp hopen with hopen | hopen
    · refine Arrival.Before.append (hstays (h.older n i hopen) fun f hf => ⟨hf, nofun⟩) nofun
    · cases List.mem_singleton.mp hopen
      refine Arrival.Before.append_self ⟨ticket, rfl, ?_⟩ nofun
      exact ht.opening_stays ha (ht.tied.opening ticket i hasked (hC.1 _ rfl))
        (Tied.mem_written_toServer hasked) nofun hlost nofun
  | @carriedOut ticket r ok =>
    refine Arrival.Before.append (hstays (h.older n i (Request.mem_openStreams.mp hopen).1)
      fun f hf => ⟨hf, nofun⟩) ?_
    cases ok <;> nofun
  | sent =>
    obtain ⟨hopen, hne⟩ := Message.mem_openStreams.mp hopen
    exact Arrival.Before.append (hstays (h.older n i hopen) fun f hf => ⟨hf, nofun⟩) hne

theorem next (h : Served s) (ht : Transit s) (ho : Orderly s) (hC : Server s a)
    (hspares : SparesWaiting s a) (hgiven : NoneGivenUp s a) (ha : Enabled s a) :
    Served (Lifecycle.next s a) where
  offline := h.offline.next hC ha
  nodup := h.next_nodup hC ha
  turn := h.next_turn ht ho hgiven ha
  spared := h.next_spared hspares ha
  behind := h.next_behind ho hC ha
  older := h.next_older ht hgiven ha

end Served

end

theorem served_init : Served init where
  offline := ⟨fun _ => rfl, nofun, nofun⟩
  nodup := List.nodup_nil
  turn _ _ _ h := by cases h
  spared _ _ _ h := by cases h
  behind _ _ h := by cases h
  older _ _ h := by cases h

end Lifecycle

end TitanClient
