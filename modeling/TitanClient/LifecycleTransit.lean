import TitanClient.LifecycleMail

/-!
# Tickets in transit

A ticket is in one place at a time: with its request in the channel, with its request on the way to
the server, or with its answer on the way back. That holds as long as the server sends a response or
an error only in answer to a request.

When the loop leaves its socket it fails the requests it has written, and it may come back to the
same socket. So a request on the way to the server, or its answer on the way back, either belongs to
somebody who is still waiting, or has been given up.

## Main results

* `Unasked` — what the server sends unasked are no answers
* `Mail.Apart`, `Tied` — tickets in transit are apart, and those not given up are waited for
* `Transit`, `Transit.next` — what holds of requests and frames in a run with such a server
-/

namespace TitanClient

namespace Lifecycle

/-! ## Tickets -/

/-- What the server sends without being asked. -/
def Action.unasked : Action → Option Message
  | .serverSend m => some m
  | _ => none

/-- What the server sends unasked are no answers. -/
def Unasked (_ : State) (a : Action) : Prop := ∀ m ∈ a.unasked, m.answer = none

instance (s : State) (a : Action) : Decidable (Unasked s a) :=
  inferInstanceAs (Decidable (∀ _ ∈ _, _))

/-- The ticket of a frame, if it is an answer. -/
def Message.ticket (m : Message) : Option ℕ := m.answer.map (·.1)

theorem Message.ticket_of_answer {m : Message} {ticket : ℕ} {reply : Reply}
    (h : m.answer = some (ticket, reply)) : m.ticket = some ticket := by
  rw [Message.ticket, h]
  rfl

/-- The tickets of the requests on the way to the server and of the answers on the way back. -/
def Mail.written (m : Mail) : List ℕ := m.toServer.map (·.1) ++ m.wire.filterMap Message.ticket

/-- Those, and the tickets of the requests in the channel. -/
def Mail.transit (m : Mail) : List ℕ := m.channel.map (·.1) ++ m.written

/-- Tickets in transit are apart and have been given out. -/
structure Mail.Apart (m : Mail) : Prop where
  nodup : m.transit.Nodup
  fresh : ∀ t ∈ m.transit, t < m.nextTicket

theorem Mail.Apart.sublist {m m' : Mail} (h : m.Apart) (hsub : m'.transit.Sublist m.transit)
    (hnext : m.nextTicket ≤ m'.nextTicket) : m'.Apart where
  nodup := h.nodup.sublist hsub
  fresh t ht := lt_of_lt_of_le (h.fresh t (hsub.subset ht)) hnext

theorem Mail.Apart.perm {m m' : Mail} (h : m.Apart) (hperm : m'.transit.Perm m.transit)
    (hnext : m.nextTicket ≤ m'.nextTicket) : m'.Apart where
  nodup := hperm.nodup_iff.mpr h.nodup
  fresh t ht := lt_of_lt_of_le (h.fresh t (hperm.subset ht)) hnext

/-- One more ticket is given out. -/
theorem Mail.Apart.cons {m m' : Mail} (h : m.Apart)
    (hperm : m'.transit.Perm (m.nextTicket :: m.transit))
    (hnext : m'.nextTicket = m.nextTicket + 1) : m'.Apart where
  nodup := by
    rw [hperm.nodup_iff, List.nodup_cons]
    exact ⟨fun hmem => absurd (h.fresh _ hmem) (lt_irrefl _), h.nodup⟩
  fresh t ht := by
    rw [hnext]
    rcases List.mem_cons.mp (hperm.subset ht) with rfl | ht
    · exact Nat.lt_succ_self _
    · exact Nat.lt_succ_of_lt (h.fresh t ht)

theorem Mail.Apart.wire_nodup {m : Mail} (h : m.Apart) :
    (m.wire.filterMap Message.ticket).Nodup :=
  (List.nodup_append.mp (List.nodup_append.mp h.nodup).2.1).2.1

/-- No two frames on the wire answer the same request. -/
theorem Mail.Apart.head_answer {m : Mail} (h : m.Apart) {f g : Message} {wire : List Message}
    {ticket : ℕ} {reply reply' : Reply} (hwire : m.wire = f :: wire) (hg : g ∈ wire)
    (hans : g.answer = some (ticket, reply)) : f.answer ≠ some (ticket, reply') := by
  intro hf
  have hnodup := h.wire_nodup
  rw [hwire, List.filterMap_cons, Message.ticket_of_answer hf, List.nodup_cons] at hnodup
  exact hnodup.1 (List.mem_filterMap.mpr ⟨g, hg, Message.ticket_of_answer hans⟩)

/-- Frames on the wire that answer the same request are the same. -/
theorem Mail.Apart.answer_unique {m : Mail} (h : m.Apart) {f g : Message} {ticket : ℕ}
    {reply reply' : Reply} (hf : f ∈ m.wire) (hg : g ∈ m.wire)
    (hfans : f.answer = some (ticket, reply)) (hgans : g.answer = some (ticket, reply')) :
    f = g := by
  have : Std.Symm fun x y : Message =>
      ∀ b, x.ticket = some b → ∀ b', y.ticket = some b' → b ≠ b' :=
    ⟨fun x y hxy b hb b' hb' => (hxy b' hb' b hb).symm⟩
  by_contra hne
  exact (List.pairwise_filterMap.mp h.wire_nodup).forall hf hg hne ticket
    (Message.ticket_of_answer hfans) ticket (Message.ticket_of_answer hgans) rfl

section

variable {s : State} {a : Action} {m : Mail}

/-- An answered request leaves the requests and comes back on the wire. -/
private theorem perm_answered {e : ℕ × Request} (he : e ∈ s.toServer) {f : Message}
    (hf : f.ticket = some e.1) :
    (s.channel.map Prod.fst ++ ((s.toServer.erase e).map Prod.fst ++
      (s.wire ++ [f]).filterMap Message.ticket)).Perm s.mail.transit := by
  refine List.Perm.append_left _ ?_
  rw [List.filterMap_append]
  have hlast : [f].filterMap Message.ticket = [e.1] := by
    rw [List.filterMap_cons, hf]
    rfl
  rw [hlast]
  have hperm : (s.toServer.map Prod.fst).Perm (e.1 :: (s.toServer.erase e).map Prod.fst) :=
    (List.perm_cons_erase he).map Prod.fst
  refine List.Perm.trans ?_ (hperm.append_right _).symm
  rw [← List.append_assoc, List.cons_append]
  exact List.perm_append_singleton _ _

theorem apart_next (h : s.mail.Apart) (hC : Unasked s a) (hc : MailChange s a m) : m.Apart := by
  have htail : (s.channel.map Prod.fst ++ (s.toServer.map Prod.fst ++
      s.wire.tail.filterMap Message.ticket)).Sublist s.mail.transit := by
    refine List.Sublist.append_left (List.Sublist.append_left ?_ _) _
    exact (List.tail_sublist _).filterMap _
  have hcut : (s.channel.map Prod.fst ++ []).Sublist s.mail.transit :=
    List.Sublist.append_left (List.nil_sublist _) _
  cases hc with
  | same => exact h
  | @pushed a r =>
    refine h.cons ?_ rfl
    change ((s.channel ++ [(s.nextTicket, r)]).map Prod.fst ++ _).Perm _
    rw [List.map_append, List.map_singleton, List.append_assoc, List.singleton_append]
    exact List.perm_middle
  | shutDown => exact ⟨h.nodup, h.fresh⟩
  | @dequeued ticket r rest hloop hchannel =>
    by_cases halive : s.alive = true
    · refine h.perm ?_ (le_refl _)
      change (rest.map Prod.fst ++ ((if s.alive then s.toServer ++ [(ticket, r)]
        else s.toServer).map Prod.fst ++ s.wire.filterMap Message.ticket)).Perm
          (s.channel.map Prod.fst ++ (s.toServer.map Prod.fst ++ s.wire.filterMap Message.ticket))
      rw [if_pos halive, hchannel, List.map_append, List.map_singleton, List.map_cons,
        List.append_assoc, List.singleton_append, ← List.append_assoc, List.cons_append,
        ← List.append_assoc]
      exact List.perm_middle
    · refine h.sublist ?_ (le_refl _)
      change (rest.map Prod.fst ++ ((if s.alive then s.toServer ++ [(ticket, r)]
        else s.toServer).map Prod.fst ++ s.wire.filterMap Message.ticket)).Sublist
          (s.channel.map Prod.fst ++ _)
      rw [if_neg halive, hchannel, List.map_cons, List.cons_append]
      exact List.sublist_cons_self _ _
  | @unsent ticket r rest hloop hchannel =>
    refine h.sublist ?_ (le_refl _)
    change (rest.map Prod.fst ++ _).Sublist (s.channel.map Prod.fst ++ _)
    rw [hchannel, List.map_cons, List.cons_append]
    exact List.sublist_cons_self _ _
  | @resumeSent oldId i rest =>
    by_cases halive : s.alive = true
    · refine h.cons ?_ rfl
      change (s.channel.map Prod.fst ++ ((if s.alive then s.toServer ++
        [(s.nextTicket, .newStream i)] else s.toServer).map Prod.fst ++
          s.wire.filterMap Message.ticket)).Perm (s.nextTicket :: (s.channel.map Prod.fst ++ _))
      rw [if_pos halive, List.map_append, List.map_singleton, List.append_assoc,
        List.singleton_append]
      refine List.Perm.trans (List.Perm.append_left _ List.perm_middle) List.perm_middle
    · refine h.sublist ?_ (Nat.le_succ _)
      change (s.channel.map Prod.fst ++ ((if s.alive then s.toServer ++
        [(s.nextTicket, .newStream i)] else s.toServer).map Prod.fst ++
          s.wire.filterMap Message.ticket)).Sublist _
      rw [if_neg halive]
      exact List.Sublist.refl _
  | taken => exact h.sublist htail (le_refl _)
  | completed => exact h.sublist htail (le_refl _)
  | left => exact ⟨h.nodup, h.fresh⟩
  | dialled => exact h.sublist hcut (le_refl _)
  | resumeLost => exact h.sublist hcut (le_refl _)
  | cleaned => exact h.sublist (List.nil_sublist _) (le_refl _)
  | lost =>
    refine h.sublist ?_ (le_refl _)
    exact List.Sublist.append_left (List.sublist_append_right _ _) _
  | accepted halive hmem => exact h.perm (perm_answered hmem rfl) (le_refl _)
  | @carriedOut ticket r ok halive hmem =>
    refine h.perm (perm_answered hmem ?_) (le_refl _)
    cases ok <;> rfl
  | @serverSent f =>
    refine h.perm ?_ (le_refl _)
    refine List.Perm.append_left _ (List.Perm.append_left _ ?_)
    change ((s.wire ++ [f]).filterMap Message.ticket).Perm _
    have hnone : f.ticket = none := by
      have hf : f.answer = none := hC f rfl
      rw [Message.ticket, hf]
      rfl
    rw [List.filterMap_append, List.filterMap_cons, hnone, List.filterMap_nil, List.append_nil]
    exact List.Perm.refl _

end

/-! ## The resume request -/

/-- The turn of `resume_streams` whose answer is awaited: the old id, the stream and the ticket. -/
def Loop.turn : Loop → Option (ℕ × ℕ × ℕ)
  | .reading (.resuming oldId i ticket _) => some (oldId, i, ticket)
  | .sending (.resuming oldId i ticket _) _ _ => some (oldId, i, ticket)
  | _ => none

theorem Loop.turn_sending (r : Reading) (i : ℕ) (payload : Payload) :
    (Loop.sending r i payload).turn = (Loop.reading r).turn := by
  cases r <;> rfl

theorem Loop.turn_eq_some {l : Loop} {oldId i ticket : ℕ} :
    l.turn = some (oldId, i, ticket) ↔
      ∃ rest, l.reading? = some (.resuming oldId i ticket rest) := by
  constructor
  · intro h
    match l with
    | .reading (.resuming _ _ _ rest) =>
      cases h
      exact ⟨rest, rfl⟩
    | .sending (.resuming _ _ _ rest) _ _ =>
      cases h
      exact ⟨rest, rfl⟩
  · rintro ⟨rest, h⟩
    match l with
    | .reading r =>
      cases h
      rfl
    | .sending r _ _ =>
      cases h
      rfl

/-- An answer is awaited in `resume_streams` because it was before, or because the request has just
been sent. -/
theorem turn_next {s : State} {a : Action} (ha : Enabled s a) {oldId i ticket : ℕ}
    (h : (next s a).loop.turn = some (oldId, i, ticket)) :
    s.loop.turn = some (oldId, i, ticket) ∨
      ticket = s.nextTicket ∧ s.isEnded i = false ∧ ∃ rest, a = .resume oldId i rest true := by
  obtain ⟨rest, hr⟩ := Loop.turn_eq_some.mp h
  rcases (loopChange ha).resuming ha hr with ⟨hold, -, -⟩ | ⟨hr, ht, hkept⟩
  · exact Or.inl (Loop.turn_eq_some.mpr ⟨rest, hold⟩)
  · exact Or.inr ⟨ht, hkept, rest, hr⟩

/-- The loop awaits the answer to a resume request until it is read or the connection is lost. -/
theorem turn_stays {s : State} {a : Action} (ha : Enabled s a) {oldId i ticket : ℕ}
    (h : s.loop.turn = some (oldId, i, ticket))
    (hread : ∀ r m reply, a = .read r m → m.answer ≠ some (ticket, reply))
    (hlost : ∀ rest, a ≠ .resumeLost oldId i ticket rest) :
    (next s a).loop.turn = some (oldId, i, ticket) := by
  have hc := loopChange ha
  generalize (next s a).loop = l at hc
  cases hc with
  | same => exact h
  | found hl =>
    rw [hl] at h
    rwa [Loop.turn_sending]
  | moved hl =>
    rw [hl] at h
    cases h
    exact absurd rfl (hread _ _ _ rfl)
  | answered hl hm =>
    rw [hl] at h
    cases h
    exact absurd hm (hread _ _ _ rfl)
  | sent hl => rwa [hl, Loop.turn_sending] at h
  | resumeLost hl =>
    rw [hl] at h
    cases h
    exact absurd rfl (hlost _)
  | _ hl =>
    rw [hl] at h
    cases h

/-! ## Whoever waits -/

/-- The answer to the request with the given ticket is to open stream `i`, or to open it again: its
start awaits it and has no result yet, or its turn of `resume_streams` does. -/
def State.Opening (s : State) (i ticket : ℕ) : Prop :=
  ((s.streams i).start = .awaiting ticket ∧ s.answers ticket = none) ∨
    s.loop.turn.map Prod.snd = some (i, ticket)

instance (s : State) (i ticket : ℕ) : Decidable (s.Opening i ticket) :=
  inferInstanceAs (Decidable ((_ ∧ _) ∨ _))

theorem Loop.turn_map {l : Loop} {i ticket : ℕ} :
    l.turn.map Prod.snd = some (i, ticket) ↔ ∃ oldId, l.turn = some (oldId, i, ticket) := by
  rw [Option.map_eq_some_iff]
  constructor
  · rintro ⟨⟨oldId, j, t⟩, h, ht⟩
    cases ht
    exact ⟨oldId, h⟩
  · rintro ⟨oldId, h⟩
    exact ⟨_, h, rfl⟩

/-- A start goes on waiting until there is an answer. -/
theorem start_stays {s : State} (hw : Wired s) {a : Action} (ha : Enabled s a) {i ticket : ℕ}
    (h : (s.streams i).start = .awaiting ticket) (hans : s.answers ticket = none) :
    ((next s a).streams i).start = .awaiting ticket := by
  have hc := change ha i
  generalize (next s a).streams i = v at hc
  cases hc with
  | begun hcount =>
    rw [hw.unused i (le_of_eq hcount.symm)] at h
    cases h
  | requested hs => cases h.symm.trans hs
  | startRefused hs => cases h.symm.trans hs
  | answered hs hsome =>
    cases h.symm.trans hs
    cases hans.symm.trans hsome
  | denied hs =>
    cases h.symm.trans hs
    cases hans.symm.trans ha.2
  | registered hs => cases h.symm.trans hs
  | failed hs => cases h.symm.trans hs
  | _ => exact h

/-- So does a stop sequence. -/
theorem stopper_stays {s : State} (hw : Wired s) {a : Action} (ha : Enabled s a) {i ticket : ℕ}
    {ids : List ℕ} (h : (s.streams i).stopper = .awaiting ticket ids)
    (hans : s.answers ticket = none) :
    ((next s a).streams i).stopper = .awaiting ticket ids := by
  have hlive : (s.streams i).handle ≠ .live := by
    intro hl
    cases ((hw.ok i).live hl).symm.trans h
  have hc := change ha i
  generalize (next s a).streams i = v at hc
  cases hc with
  | begun hcount =>
    rw [hw.unused i (le_of_eq hcount.symm)] at h
    cases h
  | stopped hl => exact absurd hl hlive
  | dropped hl => exact absurd hl hlive
  | loaded hs => cases h.symm.trans hs
  | reloaded hs => cases h.symm.trans hs
  | stopRequested hs => cases h.symm.trans hs
  | stopRefused hs => cases h.symm.trans hs
  | stopReceived hs =>
    cases h.symm.trans hs
    exact absurd hans ha.2
  | stopUnregistered hs => cases h.symm.trans hs
  | stopReleased hs => cases h.symm.trans hs
  | _ => exact h

/-- So does a task that shuts the connection down. -/
theorem task_stays {s : State} {a : Action} (ha : Enabled s a) {t ticket : ℕ} {ids : List ℕ}
    (h : s.tasks t = .awaiting ticket ids) (hans : s.answers ticket = none) :
    (next s a).tasks t = .awaiting ticket ids := by
  have hc := taskChange ha t
  generalize (next s a).tasks t = p at hc
  cases hc with
  | same => exact h
  | stopping howner hs => cases h.symm.trans hs
  | returned howner hs => cases h.symm.trans hs
  | received hs =>
    cases h.symm.trans hs
    exact absurd hans ha.2
  | _ hs => cases h.symm.trans hs

/-- The stop sequence of stream `i` awaits the answer to its stop request for the first of its
ids. -/
def State.Stopping (s : State) (i ticket id : ℕ) : Prop :=
  ∃ ids, (s.streams i).stopper = .awaiting ticket (id :: ids)

/-- A task that shuts the connection down awaits the answer to a request. -/
def State.ShuttingDown (s : State) (ticket : ℕ) : Prop := ∃ t ids, s.tasks t = .awaiting ticket ids

/-! ## Where requests and frames come from -/

/-- A request is in the channel because it was before or because it has just been made. -/
theorem MailChange.queued {s : State} {a : Action} {m : Mail} (hc : MailChange s a m)
    {e : ℕ × Request} (he : e ∈ m.channel) :
    e ∈ s.channel ∨ ∃ r, a.pushed = some r ∧ e = (s.nextTicket, r) := by
  cases hc with
  | pushed hpushed =>
    rcases List.mem_append.mp he with he | he
    · exact Or.inl he
    · exact Or.inr ⟨_, hpushed, List.mem_singleton.mp he⟩
  | dequeued _ hchannel =>
    rw [hchannel]
    exact Or.inl (List.mem_cons_of_mem _ he)
  | unsent _ hchannel =>
    rw [hchannel]
    exact Or.inl (List.mem_cons_of_mem _ he)
  | cleaned => cases he
  | _ => exact Or.inl he

/-- A request is on its way to the server because it was before or because it has just been
written. -/
theorem MailChange.asked {s : State} {a : Action} {m : Mail} (hc : MailChange s a m)
    {e : ℕ × Request} (he : e ∈ m.toServer) :
    e ∈ s.toServer ∨ e ∈ s.channel ∨ ∃ oldId i rest, a = .resume oldId i rest true ∧
      s.isEnded i = false ∧ e = (s.nextTicket, .newStream i) := by
  cases hc with
  | @dequeued ticket r rest _ hchannel =>
    have he' : e ∈ if s.alive then s.toServer ++ [(ticket, r)] else s.toServer := he
    split at he'
    · rcases List.mem_append.mp he' with he' | he'
      · exact Or.inl he'
      · rw [hchannel, List.mem_singleton.mp he']
        exact Or.inr (Or.inl List.mem_cons_self)
    · exact Or.inl he'
  | @resumeSent oldId i rest _ hkept =>
    have he' : e ∈ if s.alive then s.toServer ++ [(s.nextTicket, .newStream i)]
        else s.toServer := he
    split at he'
    · rcases List.mem_append.mp he' with he' | he'
      · exact Or.inl he'
      · exact Or.inr (Or.inr ⟨oldId, i, rest, rfl, hkept, List.mem_singleton.mp he'⟩)
    · exact Or.inl he'
  | dialled => cases he
  | resumeLost => cases he
  | cleaned => cases he
  | lost => cases he
  | accepted => exact Or.inl (List.mem_of_mem_erase he)
  | carriedOut => exact Or.inl (List.mem_of_mem_erase he)
  | _ => exact Or.inl he

/-- A frame is on the wire because it was before or because the server has just sent it. -/
theorem MailChange.arrived {s : State} {a : Action} {m : Mail} (hc : MailChange s a m)
    {f : Message} (hf : f ∈ m.wire) :
    f ∈ s.wire ∨
      (∃ ticket i id, a = .accept ticket i id ∧ (ticket, .newStream i) ∈ s.toServer ∧
        f = .response ticket (some id)) ∨
      (∃ ticket r ok, a = .carryOut ticket r ok ∧
        f = if ok then .response ticket none else .error ticket) ∨
      a = .serverSend f := by
  cases hc with
  | taken => exact Or.inl (List.mem_of_mem_tail hf)
  | completed => exact Or.inl (List.mem_of_mem_tail hf)
  | dialled => cases hf
  | resumeLost => cases hf
  | cleaned => cases hf
  | accepted _ hmem =>
    rcases List.mem_append.mp hf with hf | hf
    · exact Or.inl hf
    · exact Or.inr (Or.inl ⟨_, _, _, rfl, hmem, List.mem_singleton.mp hf⟩)
  | carriedOut =>
    rcases List.mem_append.mp hf with hf | hf
    · exact Or.inl hf
    · exact Or.inr (Or.inr (Or.inl ⟨_, _, _, rfl, List.mem_singleton.mp hf⟩))
  | serverSent =>
    rcases List.mem_append.mp hf with hf | hf
    · exact Or.inl hf
    · exact Or.inr (Or.inr (Or.inr (by rw [List.mem_singleton.mp hf])))
  | _ => exact Or.inl hf

/-- A stream is open on the server because it was before or because the server has just opened
it. -/
theorem MailChange.opened {s : State} {a : Action} {m : Mail} (hc : MailChange s a m)
    {id i : ℕ} (he : (id, i) ∈ m.openStreams) :
    (id, i) ∈ s.openStreams ∨
      ∃ ticket, a = .accept ticket i id ∧ (ticket, .newStream i) ∈ s.toServer := by
  cases hc with
  | dialled => cases he
  | resumeLost => cases he
  | cleaned => cases he
  | lost => cases he
  | accepted _ hmem =>
    rcases List.mem_append.mp he with he | he
    · exact Or.inl he
    · cases List.mem_singleton.mp he
      exact Or.inr ⟨_, rfl, hmem⟩
  | @carriedOut _ r =>
    cases r with
    | newStream => exact Or.inl he
    | stopStream => exact Or.inl (List.mem_of_mem_filter he)
  | @serverSent f =>
    cases f with
    | ended => exact Or.inl (List.mem_of_mem_filter he)
    | _ => exact Or.inl he
  | _ => exact Or.inl he

/-- Tickets are given out in order. -/
theorem MailChange.nextTicket {s : State} {a : Action} {m : Mail} (hc : MailChange s a m) :
    s.nextTicket ≤ m.nextTicket := by
  cases hc with
  | pushed => exact Nat.le_succ _
  | resumeSent => exact Nat.le_succ _
  | _ => exact le_refl _

/-- What is unanswered was unanswered before. -/
theorem MailChange.unanswered {s : State} {a : Action} {m : Mail} (hc : MailChange s a m)
    {ticket : ℕ} (h : m.answers ticket = none) : s.answers ticket = none := by
  have hfailed : ∀ {l : List ℕ} {n : ℕ},
      (if ticket ∈ l then some ⟨.failed, n⟩ else s.answers ticket) = none →
        s.answers ticket = none := by
    intro l n hl
    split at hl
    · cases hl
    · exact hl
  cases hc with
  | unsent => exact hfailed h
  | left => exact hfailed h
  | cleaned => exact hfailed h
  | @completed r f t reply =>
    by_cases ht : ticket = t
    · subst ht
      have hself : Function.update s.answers ticket (some ⟨reply, (s.consumed ++ [f]).length⟩)
          ticket = none := h
      rw [Function.update_self] at hself
      cases hself
    · exact (Function.update_of_ne ht _ _).symm.trans h
  | _ => exact h

/-- A start waits for an answer because it did before or because it has just made its request. -/
theorem start_next {s : State} {a : Action} (ha : Enabled s a) {i ticket : ℕ}
    (h : ((next s a).streams i).start = .awaiting ticket) :
    (s.streams i).start = .awaiting ticket ∨ ticket = s.nextTicket ∧ a = .request i := by
  have hc := change ha i
  generalize (next s a).streams i = v at h hc
  cases hc with
  | begun => cases h
  | requested =>
    cases h
    exact Or.inr ⟨rfl, rfl⟩
  | startRefused => cases h
  | answered => cases h
  | denied => cases h
  | registered => cases h
  | failed => cases h
  | _ => exact Or.inl h

theorem opening_next {s : State} {a : Action} (ha : Enabled s a) {i ticket : ℕ}
    (h : (next s a).Opening i ticket) :
    s.Opening i ticket ∨
      ticket = s.nextTicket ∧ (a = .request i ∨ ∃ oldId rest, a = .resume oldId i rest true) := by
  rcases h with ⟨h, hans⟩ | h
  · rcases start_next ha h with hold | ⟨ht, hr⟩
    · exact Or.inl (Or.inl ⟨hold, (mailChange ha).unanswered hans⟩)
    · exact Or.inr ⟨ht, Or.inl hr⟩
  · obtain ⟨oldId, hturn⟩ := Loop.turn_map.mp h
    rcases turn_next ha hturn with hold | ⟨ht, -, rest, hr⟩
    · exact Or.inl (Or.inr (Loop.turn_map.mpr ⟨oldId, hold⟩))
    · exact Or.inr ⟨ht, Or.inr ⟨oldId, rest, hr⟩⟩

/-- Whoever waits does so for a ticket that has been given out. -/
theorem State.Awaits.fresh {s : State} (hp : Posted s) {ticket : ℕ} (h : s.Awaits ticket) :
    ticket < s.nextTicket := by
  rcases hp.awaited ticket h with hans | hchan | hpend
  · by_contra hle
    exact hans (hp.freshAnswers ticket (Nat.not_lt.mp hle))
  · obtain ⟨e, he, rfl⟩ := List.mem_map.mp hchan
    exact hp.freshChannel e he
  · exact hp.freshPending ticket hpend

/-- The requests that open streams have tickets of their own, and a resume request has no result:
its answer is taken by its turn. -/
structure Ticketed (s : State) : Prop where
  turn : ∀ oldId i ticket, s.loop.turn = some (oldId, i, ticket) →
    ticket < s.nextTicket ∧ s.answers ticket = none
  unique : ∀ i j ticket, s.Opening i ticket → s.Opening j ticket → i = j

namespace Ticketed

variable {s : State} {a : Action}

theorem fresh (h : Ticketed s) (hp : Posted s) {i ticket : ℕ} (ho : s.Opening i ticket) :
    ticket < s.nextTicket := by
  rcases ho with ⟨hstart, -⟩ | hturn
  · exact State.Awaits.fresh hp (Or.inl ⟨i, hstart⟩)
  · obtain ⟨oldId, hturn⟩ := Loop.turn_map.mp hturn
    exact (h.turn oldId i ticket hturn).1

theorem unanswered (h : Ticketed s) {i ticket : ℕ} (ho : s.Opening i ticket) :
    s.answers ticket = none := by
  rcases ho with ⟨-, hans⟩ | hturn
  · exact hans
  · obtain ⟨oldId, hturn⟩ := Loop.turn_map.mp hturn
    exact (h.turn oldId i ticket hturn).2

/-- While a resume request is awaited no request gets a result. -/
private theorem answers_turn (hp : Posted s) (ha : Enabled s a) {e : ℕ × ℕ × ℕ}
    (hturn : s.loop.turn = some e) (t : ℕ) : (Lifecycle.next s a).answers t = s.answers t := by
  obtain ⟨oldId, i, ticket⟩ := e
  obtain ⟨rest, hr⟩ := Loop.turn_eq_some.mp hturn
  have hserving : s.loop ≠ .reading .serving := by
    intro hl
    rw [hl] at hr
    cases hr
  have hm := mailChange ha
  change (Lifecycle.next s a).mail.answers t = _
  generalize (Lifecycle.next s a).mail = m at hm
  cases hm with
  | unsent hl => exact absurd hl hserving
  | left hl => exact absurd hl hserving
  | cleaned hl =>
    rw [hl] at hr
    cases hr
  | completed _ _ _ hpending =>
    have hnil : s.pending = [] := hp.pending_eq_nil (by rw [hr]; nofun)
    rw [hnil] at hpending
    cases hpending
  | _ => rfl

private theorem next_turn (h : Ticketed s) (hp : Posted s) (ha : Enabled s a) (oldId i ticket : ℕ)
    (hturn : (Lifecycle.next s a).loop.turn = some (oldId, i, ticket)) :
    ticket < (Lifecycle.next s a).nextTicket ∧ (Lifecycle.next s a).answers ticket = none := by
  rcases turn_next ha hturn with hold | ⟨rfl, hkept, rest, rfl⟩
  · obtain ⟨hlt, hans⟩ := h.turn oldId i ticket hold
    exact ⟨lt_of_lt_of_le hlt (mailChange ha).nextTicket, (answers_turn hp ha hold ticket).trans hans⟩
  · have hnext : Lifecycle.next s (.resume oldId i rest true) =
        { s with
          nextTicket := s.nextTicket + 1
          toServer := if s.alive then s.toServer ++ [(s.nextTicket, .newStream i)] else s.toServer
          loop := .reading (.resuming oldId i s.nextTicket rest) } := by
      simp [Lifecycle.next, resumeNext, hkept]
    rw [hnext]
    exact ⟨Nat.lt_succ_self _, hp.freshAnswers _ (le_refl _)⟩

theorem next (h : Ticketed s) (hp : Posted s) (ha : Enabled s a) :
    Ticketed (Lifecycle.next s a) := by
  refine ⟨h.next_turn hp ha, fun i j ticket hi hj => ?_⟩
  rcases opening_next ha hi with hold | ⟨ht, hi⟩
  · rcases opening_next ha hj with hold' | ⟨ht, hj⟩
    · exact h.unique i j ticket hold hold'
    · exact absurd ht (Nat.ne_of_lt (h.fresh hp hold))
  · rcases opening_next ha hj with hold | ⟨-, hj⟩
    · exact absurd ht (Nat.ne_of_lt (h.fresh hp hold))
    · rcases hi with rfl | ⟨oldId, rest, rfl⟩
      · rcases hj with hj | ⟨oldId, rest, hj⟩
        · cases hj
          rfl
        · cases hj
      · rcases hj with hj | ⟨oldId', rest', hj⟩
        · cases hj
        · cases hj
          rfl

end Ticketed

theorem ticketed_init : Ticketed init where
  turn _ _ _ h := by cases h
  unique i j ticket hi := by
    rcases hi with ⟨hi, -⟩ | hi
    · cases hi
    · cases hi

/-- A request in transit is tied to whoever waits for its answer, unless it has been given up. -/
structure Tied (s : State) : Prop extends Ticketed s where
  queued : ∀ ticket i, (ticket, .newStream i) ∈ s.channel →
    (s.streams i).start = .awaiting ticket
  opening : ∀ ticket i, (ticket, .newStream i) ∈ s.toServer → s.answers ticket = none →
    s.Opening i ticket
  stopping : ∀ ticket id, (ticket, .stopStream id) ∈ s.channel ++ s.toServer →
    s.answers ticket = none → (∃ i, s.Stopping i ticket id) ∨ s.ShuttingDown ticket

namespace Tied

variable {s : State} {a : Action}

/-- Whoever opens a stream goes on waiting until there is a result. -/
theorem opening_stays (hw : Wired s) (ha : Enabled s a) {i ticket : ℕ} (ho : s.Opening i ticket)
    (hans : (Lifecycle.next s a).answers ticket = none)
    (hread : ∀ r m reply, a = .read r m → m.answer ≠ some (ticket, reply))
    (hlost : ∀ oldId rest, a ≠ .resumeLost oldId i ticket rest) :
    (Lifecycle.next s a).Opening i ticket := by
  rcases ho with ⟨hstart, hnone⟩ | hturn
  · exact Or.inl ⟨start_stays hw ha hstart hnone, hans⟩
  · obtain ⟨oldId, hturn⟩ := Loop.turn_map.mp hturn
    exact Or.inr (Loop.turn_map.mpr ⟨oldId, turn_stays ha hturn hread (hlost oldId)⟩)

theorem mem_written_toServer {e : ℕ × Request} (he : e ∈ s.toServer) : e.1 ∈ s.mail.written :=
  List.mem_append_left _ (List.mem_map_of_mem he)

theorem mem_written_wire {f : Message} {ticket : ℕ} {reply : Reply} (hf : f ∈ s.wire)
    (hans : f.answer = some (ticket, reply)) : ticket ∈ s.mail.written :=
  List.mem_append_right _ (List.mem_filterMap.mpr ⟨f, hf, Message.ticket_of_answer hans⟩)

/-- The answer to a request that is still on its way cannot be read. -/
theorem not_read (hapart : s.mail.Apart) (ha : Enabled s a) {e : ℕ × Request}
    (he : e ∈ s.toServer) (r : Reading) (f : Message) (reply : Reply) (hr : a = .read r f) :
    f.answer ≠ some (e.1, reply) := by
  intro hans
  subst hr
  have hnodup := (List.nodup_append.mp (List.nodup_append.mp hapart.nodup).2.1).2.2
  have hticket : e.1 ∈ s.wire.filterMap Message.ticket :=
    List.mem_filterMap.mpr ⟨f, List.mem_of_mem_head? ha.2, Message.ticket_of_answer hans⟩
  exact hnodup e.1 (List.mem_map_of_mem he) e.1 hticket rfl

/-- A request that has been written stays unanswered until its answer is read or the loop leaves its
socket. -/
theorem unanswered_stays (hapart : s.mail.Apart) (ha : Enabled s a) {ticket : ℕ}
    (hticket : ticket ∈ s.mail.written) (hans : s.answers ticket = none)
    (hread : ∀ r m reply, a = .read r m → m.answer ≠ some (ticket, reply))
    (hleave : a = .leave → ticket ∉ s.pending) :
    (Lifecycle.next s a).answers ticket = none := by
  have hchannel : ticket ∉ s.channel.map Prod.fst := fun hmem =>
    (List.nodup_append.mp hapart.nodup).2.2 ticket hmem ticket hticket rfl
  have hm := mailChange ha
  change (Lifecycle.next s a).mail.answers ticket = none
  generalize (Lifecycle.next s a).mail = m at hm
  cases hm with
  | @unsent t r rest _ hcons =>
    refine (if_neg fun hmem => hchannel ?_).trans hans
    rw [hcons, List.mem_singleton.mp hmem]
    exact List.mem_cons_self
  | @completed r f t reply _ _ hm =>
    have hne : ticket ≠ t := by
      rintro rfl
      exact hread _ _ _ rfl hm
    exact (Function.update_of_ne hne _ _).trans hans
  | left => exact (if_neg (hleave rfl)).trans hans
  | cleaned => exact (if_neg hchannel).trans hans
  | _ => exact hans

private theorem next_opening (h : Tied s) (hw : Wired s) (hapart : s.mail.Apart)
    (ha : Enabled s a) (ticket i : ℕ) (he : (ticket, .newStream i) ∈ (next s a).toServer)
    (hans : (next s a).answers ticket = none) : (Lifecycle.next s a).Opening i ticket := by
  have hm := mailChange ha
  have hold := hm.unanswered hans
  rcases hm.asked he with hserver | hchannel | ⟨oldId, j, rest, rfl, hkept, hj⟩
  · refine opening_stays hw ha (h.opening ticket i hserver hold) hans
      (not_read hapart ha hserver) ?_
    rintro oldId rest rfl
    cases he
  · exact Or.inl ⟨start_stays hw ha (h.queued ticket i hchannel) hold, hans⟩
  · cases hj
    refine Or.inr (Loop.turn_map.mpr ⟨oldId, ?_⟩)
    simp [Lifecycle.next, resumeNext, hkept, Loop.turn]

private theorem next_queued (h : Tied s) (hw : Wired s) (hp : Posted s) (ha : Enabled s a)
    (ticket i : ℕ) (he : (ticket, .newStream i) ∈ (next s a).channel) :
    ((Lifecycle.next s a).streams i).start = .awaiting ticket := by
  rcases (mailChange ha).queued he with hold | ⟨r, hpushed, hr⟩
  · refine start_stays hw ha (h.queued ticket i hold) (hp.unanswered ticket ?_)
    exact List.mem_append_left _ (List.mem_map_of_mem hold)
  · cases hr
    cases a with
    | request j =>
      cases hpushed
      simp [Lifecycle.next, State.push]
    | _ => cases hpushed

private theorem next_stopping (h : Tied s) (hw : Wired s) (ha : Enabled s a) (ticket id : ℕ)
    (he : (ticket, .stopStream id) ∈ (next s a).channel ++ (next s a).toServer)
    (hans : (next s a).answers ticket = none) :
    (∃ i, (Lifecycle.next s a).Stopping i ticket id) ∨
      (Lifecycle.next s a).ShuttingDown ticket := by
  have hm := mailChange ha
  have hnone := hm.unanswered hans
  have hold : (ticket, Request.stopStream id) ∈ s.channel ++ s.toServer →
      (∃ i, (Lifecycle.next s a).Stopping i ticket id) ∨
        (Lifecycle.next s a).ShuttingDown ticket := by
    intro hmem
    rcases h.stopping ticket id hmem hnone with ⟨i, ids, hi⟩ | ⟨t, ids, ht⟩
    · exact Or.inl ⟨i, ids, stopper_stays hw ha hi hnone⟩
    · exact Or.inr ⟨t, ids, task_stays ha ht hnone⟩
  rcases List.mem_append.mp he with he | he
  · rcases hm.queued he with hchan | ⟨r, hpushed, hr⟩
    · exact hold (List.mem_append_left _ hchan)
    · cases hr
      cases a with
      | stopRequest j id' ids =>
        cases hpushed
        exact Or.inl ⟨j, ids, by simp [Lifecycle.next, State.push]⟩
      | shutdownRequest t id' ids =>
        cases hpushed
        exact Or.inr ⟨t, ids, by simp [Lifecycle.next, State.push, State.setTask]⟩
      | _ => cases hpushed
  · rcases hm.asked he with hserver | hchan | ⟨oldId, j, rest, rfl, hkept, hj⟩
    · exact hold (List.mem_append_right _ hserver)
    · exact hold (List.mem_append_left _ hchan)
    · cases hj

/-- Requests in transit stay tied to whoever waits. -/
theorem next (h : Tied s) (hw : Wired s) (hp : Posted s) (hapart : s.mail.Apart)
    (ha : Enabled s a) : Tied (Lifecycle.next s a) := by
  exact ⟨h.toTicketed.next hp ha, next_queued h hw hp ha, next_opening h hw hapart ha,
    next_stopping h hw ha⟩

end Tied

theorem tied_init : Tied init where
  toTicketed := ticketed_init
  queued _ _ h := by cases h
  opening _ _ h := by cases h
  stopping _ _ h := by cases h

/-! ## Runs -/

/-- Tickets in transit are apart, and requests in transit that have not been given up are tied to
whoever waits. -/
structure Transit (s : State) : Prop where
  wired : Wired s
  posted : Posted s
  apart : s.mail.Apart
  tied : Tied s

theorem Transit.next {s : State} (h : Transit s) {a : Action} (hC : Unasked s a)
    (ha : Enabled s a) : Transit (next s a) where
  wired := h.wired.next ha
  posted := h.posted.next ha
  apart := apart_next h.apart hC (mailChange ha)
  tied := h.tied.next h.wired h.posted h.apart ha

/-- Whoever opens a stream goes on waiting while its request or the answer is on the way, unless the
loop gives the request up. -/
theorem Transit.opening_stays {s : State} (h : Transit s) {a : Action} (ha : Enabled s a)
    {i ticket : ℕ} (ho : s.Opening i ticket) (hticket : ticket ∈ s.mail.written)
    (hread : ∀ r m reply, a = .read r m → m.answer ≠ some (ticket, reply))
    (hlost : ∀ oldId rest, a ≠ .resumeLost oldId i ticket rest)
    (hleave : a = .leave → ticket ∉ s.pending) : (Lifecycle.next s a).Opening i ticket :=
  Tied.opening_stays h.wired ha ho
    (Tied.unanswered_stays h.apart ha hticket (h.tied.unanswered ho) hread hleave) hread hlost

theorem transit_init : Transit init where
  wired := wired_init
  posted := posted_init
  apart := ⟨List.nodup_nil, fun _ => (List.not_mem_nil · |>.elim)⟩
  tied := tied_init

end Lifecycle

end TitanClient
