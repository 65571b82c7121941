import TitanClient.LifecycleWiring

/-!
# Requests on their way

What happens to requests and frames between the tasks, the loop and the server, seen apart from the
streams: the channel, the pending requests and their answers, and the two directions of the socket.

A request is answered, or it is in the channel, or it is pending; while the connection is up, a
pending request is on its way to the server or the answer is on its way back. The loop that has left
its final cleanup behind has answered everything. So whoever waits for an answer waits for the loop
or for the server.

## Main results

* `MailChange`, `mailChange` — all that a step can do to requests and frames
* `Posted`, `exec_posted` — no request is lost, in every reachable state
-/

namespace TitanClient

namespace Lifecycle

/-! ## The view -/

/-- The requests and frames of a state. -/
structure Mail where
  nextTicket : ℕ
  channel : List (ℕ × Request)
  pending : List ℕ
  answers : ℕ → Option Answer
  closed : Bool
  shutdown : Bool
  alive : Bool
  toServer : List (ℕ × Request)
  wire : List Message
  openStreams : List (ℕ × ℕ)
  consumed : List Message
  liveIds : List ℕ
  cutShort : Bool

/-- What of a state are requests and frames. -/
def State.mail (s : State) : Mail where
  nextTicket := s.nextTicket
  channel := s.channel
  pending := s.pending
  answers := s.answers
  closed := s.closed
  shutdown := s.shutdown
  alive := s.alive
  toServer := s.toServer
  wire := s.wire
  openStreams := s.openStreams
  consumed := s.consumed
  liveIds := s.liveIds
  cutShort := s.cutShort

namespace State

variable (s : State)

theorem release_mail (i : ℕ) : (s.release i).mail = s.mail := by
  rw [release_eq]
  rfl

theorem onEnd_mail (i : ℕ) : (s.onEnd i).mail = s.mail := by
  rw [onEnd_eq]
  rfl

theorem removeAndEnd_mail (id : ℕ) : (s.removeAndEnd id).mail = s.mail := by
  rw [removeAndEnd_eq]
  rfl

theorem endAll_mail : s.endAll.mail = s.mail := by
  rw [endAll_eq]
  rfl

end State

/-- The request that a step puts into the channel. -/
def Action.pushed : Action → Option Request
  | .request i => some (.newStream i)
  | .stopRequest _ id _ => some (.stopStream id)
  | .shutdownRequest _ id _ => some (.stopStream id)
  | _ => none

/-- The steps that change requests or frames whenever they are taken. -/
def Action.movesMail : Action → Bool
  | .request _ => true
  | .stopRequest _ _ _ => true
  | .shutdownRequest _ _ _ => true
  | .cancel _ => true
  | .dequeue _ => true
  | .read _ _ => true
  | .leave => true
  | .dial connected => connected
  | .resumeLost _ _ _ _ => true
  | .cleanup => true
  | .lose => true
  | .accept _ _ _ => true
  | .carryOut _ _ _ => true
  | .serverSend _ => true
  | _ => false

/-- The connection is gone. -/
def Mail.cut (m : Mail) : Mail := { m with alive := false, toServer := [], openStreams := [] }

/-- All that a step can do to requests and frames. -/
inductive MailChange (s : State) : Action → Mail → Prop
  | same {a : Action} (hstill : a.movesMail = false)
      (hended : ∀ oldId i rest, a = .resume oldId i rest true → s.isEnded i = true) :
      MailChange s a s.mail
  | pushed {a : Action} {r : Request} (hpushed : a.pushed = some r) (hroom : s.HasRoom) :
      MailChange s a
        { s.mail with
          channel := s.channel ++ [(s.nextTicket, r)]
          nextTicket := s.nextTicket + 1 }
  | shutDown {t : ℕ} : MailChange s (.cancel t) { s.mail with shutdown := true }
  | dequeued {ticket : ℕ} {r : Request} {rest : List (ℕ × Request)}
      (hloop : s.loop = .reading .serving) (h : s.channel = (ticket, r) :: rest) :
      MailChange s (.dequeue true)
        { s.mail with
          channel := rest
          pending := s.pending ++ [ticket]
          toServer := if s.alive then s.toServer ++ [(ticket, r)] else s.toServer }
  | unsent {ticket : ℕ} {r : Request} {rest : List (ℕ × Request)}
      (hloop : s.loop = .reading .serving) (h : s.channel = (ticket, r) :: rest) :
      MailChange s (.dequeue false)
        { s.mail with
          channel := rest
          answers := fun t =>
            if t ∈ [ticket] then some ⟨.failed, s.consumed.length⟩ else s.answers t }
  | resumeSent {oldId i : ℕ} {rest : List (ℕ × ℕ)} (hloop : s.loop = .resuming ((oldId, i) :: rest))
      (hkept : s.isEnded i = false) :
      MailChange s (.resume oldId i rest true)
        { s.mail with
          nextTicket := s.nextTicket + 1
          toServer :=
            if s.alive then s.toServer ++ [(s.nextTicket, .newStream i)] else s.toServer }
  | taken {r : Reading} {m : Message} (hloop : s.loop = .reading r) (h : s.wire.head? = some m)
      (hnone : ∀ ticket reply, m.answer = some (ticket, reply) →
        (ticket ∉ s.pending ∨ ∃ oldId i rest, r = .resuming oldId i ticket rest)) :
      MailChange s (.read r m)
        { s.mail with
          wire := s.wire.tail
          consumed := s.consumed ++ [m]
          liveIds := m.liveIds s.liveIds }
  | completed {r : Reading} {m : Message} {ticket : ℕ} {reply : Reply}
      (hloop : s.loop = .reading r) (h : s.wire.head? = some m)
      (hm : m.answer = some (ticket, reply)) (hpending : ticket ∈ s.pending) :
      MailChange s (.read r m)
        { s.mail with
          wire := s.wire.tail
          consumed := s.consumed ++ [m]
          liveIds := m.liveIds s.liveIds
          pending := s.pending.erase ticket
          answers :=
            Function.update s.answers ticket (some ⟨reply, (s.consumed ++ [m]).length⟩) }
  | left (hloop : s.loop = .reading .serving) :
      MailChange s .leave
        { s.mail with
          pending := []
          answers := fun t =>
            if t ∈ s.pending then some ⟨.failed, s.consumed.length⟩ else s.answers t }
  | dialled (hloop : s.loop = .backoff) :
      MailChange s (.dial true)
        { s.mail.cut with alive := true, wire := [], liveIds := [], cutShort := false }
  | resumeLost {oldId i ticket : ℕ} {rest : List (ℕ × ℕ)}
      (hloop : s.loop = .reading (.resuming oldId i ticket rest)) :
      MailChange s (.resumeLost oldId i ticket rest)
        { s.mail.cut with wire := [], cutShort := true }
  | cleaned (hloop : s.loop = .cleaning) :
      MailChange s .cleanup
        { s.mail.cut with
          wire := []
          channel := []
          closed := true
          answers := fun t =>
            if t ∈ s.channel.map (·.1) then some ⟨.failed, s.consumed.length⟩
            else s.answers t }
  | lost : MailChange s .lose s.mail.cut
  | accepted {ticket i id : ℕ} (halive : s.alive = true)
      (h : (ticket, .newStream i) ∈ s.toServer) :
      MailChange s (.accept ticket i id)
        { s.mail with
          toServer := s.toServer.erase (ticket, .newStream i)
          openStreams := s.openStreams ++ [(id, i)]
          wire := s.wire ++ [.response ticket (some id)] }
  | carriedOut {ticket : ℕ} {r : Request} {ok : Bool} (halive : s.alive = true)
      (h : (ticket, r) ∈ s.toServer) :
      MailChange s (.carryOut ticket r ok)
        { s.mail with
          toServer := s.toServer.erase (ticket, r)
          openStreams := r.openStreams s.openStreams
          wire := s.wire ++ [if ok then .response ticket none else .error ticket] }
  | serverSent {m : Message} (halive : s.alive = true) :
      MailChange s (.serverSend m)
        { s.mail with
          openStreams := m.openStreams s.openStreams
          wire := s.wire ++ [m] }

private theorem mailChange_read {s : State} {r : Reading} {m : Message}
    (hloop : s.loop = .reading r) (hhead : s.wire.head? = some m) :
    MailChange s (.read r m) ((s.taken m).take r m).mail := by
  have hcomplete : ∀ {ticket reply}, m.answer = some (ticket, reply) →
      MailChange s (.read r m) ((s.taken m).complete ticket reply).mail := by
    intro ticket reply hm
    rw [State.complete]
    split
    · exact .completed hloop hhead hm ‹_›
    · refine .taken hloop hhead fun t reply' hm' => Or.inl ?_
      rw [hm, Option.some.injEq, Prod.mk.injEq] at hm'
      rw [← hm'.1]
      assumption
  have htaken : ∀ {u : State}, u.mail = (s.taken m).mail →
      (∀ ticket reply, m.answer = some (ticket, reply) →
        ∃ oldId i rest, r = .resuming oldId i ticket rest) → MailChange s (.read r m) u.mail := by
    intro u hu hnone
    rw [hu]
    exact .taken hloop hhead fun t reply hm => Or.inr (hnone t reply hm)
  have ht := takeStep (s.taken m) r m
  generalize (s.taken m).take r m = s' at ht
  cases ht with
  | answered => exact hcomplete rfl
  | refused => exact hcomplete rfl
  | found => exact htaken rfl (by rintro _ _ ⟨⟩)
  | unknown => exact htaken rfl (by rintro _ _ ⟨⟩)
  | ended => exact htaken (State.removeAndEnd_mail ..) (by rintro _ _ ⟨⟩)
  | skipped => exact htaken rfl (by rintro _ _ ⟨⟩)
  | missing hres =>
    refine htaken rfl ?_
    rintro _ _ ⟨⟩
    exact ⟨_, _, _, hres⟩
  | @spent oldId _ _ _ j _ hres =>
    refine htaken (State.onEnd_mail ((s.taken _).unregister oldId) j) ?_
    rintro _ _ ⟨⟩
    exact ⟨_, _, _, hres⟩
  | moved hres =>
    refine htaken rfl ?_
    rintro _ _ ⟨⟩
    exact ⟨_, _, _, hres⟩
  | @gaveUp oldId _ _ _ _ hres hm =>
    refine htaken (State.removeAndEnd_mail (s.taken m) oldId) ?_
    rcases hm with rfl | rfl
    · rintro _ _ ⟨⟩
      exact ⟨_, _, _, hres⟩
    · rintro _ _ ⟨⟩
      exact ⟨_, _, _, hres⟩

/-- Each step changes requests and frames in one of these ways, or not at all. -/
theorem mailChange {s : State} {a : Action} (ha : Enabled s a) :
    MailChange s a (next s a).mail := by
  have hsame : ∀ {u : State}, u.mail = s.mail → a.movesMail = false →
      (∀ oldId i rest, a = .resume oldId i rest true → s.isEnded i = true) →
        MailChange s a u.mail := by
    intro u hu hstill hended
    rw [hu]
    exact .same hstill hended
  cases a with
  | request i => exact .pushed rfl ha.2
  | receive i ticket a =>
    rw [next, receiveNext]
    split <;> exact hsame rfl rfl (by simp)
  | fail i => exact hsame (State.release_mail ..) rfl (by simp)
  | drop i runtime =>
    rw [next, dropNext]
    split
    · split
      · exact hsame rfl rfl (by simp)
      · exact hsame (State.release_mail ..) rfl (by simp)
    · exact hsame rfl rfl (by simp)
  | stopRequest i id ids => exact .pushed rfl ha.2
  | stopRelease i => exact hsame (State.release_mail ..) rfl (by simp)
  | adapterRecv i =>
    rw [next, adapterRecvNext]
    split <;> exact hsame rfl rfl (by simp)
  | shutdownRequest t id ids => exact .pushed rfl ha.2
  | clear t => exact hsame (State.endAll_mail s) rfl (by simp)
  | cancel t => exact .shutDown
  | dequeue sent =>
    rw [next, dequeueNext]
    split
    · exact absurd ‹_› ha.2
    · cases sent with
      | true => exact .dequeued ha.1 ‹_›
      | false => exact .unsent ha.1 ‹_›
  | read r m => exact mailChange_read ha.1 ha.2
  | sendRaw r i payload =>
    rw [next]
    split <;> exact hsame rfl rfl (by simp)
  | leave => exact .left ha
  | dial connected =>
    cases connected with
    | true => exact .dialled ha
    | false => exact .same rfl (by simp)
  | resume oldId i rest sent =>
    rw [next, resumeNext]
    split
    · refine hsame (State.removeAndEnd_mail s oldId) rfl ?_
      rintro _ _ _ ⟨⟩
      assumption
    · split
      · subst sent
        exact .resumeSent ha (Bool.eq_false_iff.mpr ‹_›)
      · refine hsame (State.removeAndEnd_mail s oldId) rfl ?_
        rintro _ _ _ ⟨⟩
        exact absurd rfl ‹_›
  | resumeLost oldId i ticket rest => exact .resumeLost ha
  | cleanup =>
    have hclean : (next s .cleanup).mail = { s.endAll.mail.cut with
        wire := []
        channel := []
        closed := true
        answers := fun t => if t ∈ s.channel.map (·.1) then some ⟨.failed, s.endAll.consumed.length⟩
          else s.endAll.answers t } := rfl
    have hlength : s.endAll.consumed = s.consumed := congrArg Mail.consumed (State.endAll_mail s)
    have hanswers : s.endAll.answers = s.answers := congrArg Mail.answers (State.endAll_mail s)
    rw [hclean, State.endAll_mail, hlength, hanswers]
    exact .cleaned ha
  | lose => exact .lost
  | accept ticket i id => exact .accepted ha.1 ha.2
  | carryOut ticket r ok => exact .carriedOut ha.1 ha.2
  | serverSend m => exact .serverSent ha
  | _ => exact hsame rfl rfl (by simp)

/-! ## The frames the loop takes up -/

/-- The frames that the loop reads in a step. -/
def Action.frames : Action → List Message
  | .read _ f => [f]
  | _ => []

theorem consumed_next {s : State} {a : Action} (ha : Enabled s a) :
    (next s a).consumed = s.consumed ++ a.frames := by
  have hc := mailChange ha
  change (next s a).mail.consumed = _
  generalize (next s a).mail = m at hc
  cases hc with
  | same hstill =>
    cases a with
    | read => cases hstill
    | _ => exact (List.append_nil _).symm
  | pushed hpushed =>
    cases a with
    | read => cases hpushed
    | _ => exact (List.append_nil _).symm
  | taken => rfl
  | completed => rfl
  | _ => exact (List.append_nil _).symm

/-! ## No request is lost -/

/-- Somebody waits for the answer to the request with the given ticket. -/
def State.Awaits (s : State) (ticket : ℕ) : Prop :=
  (∃ i, (s.streams i).start = .awaiting ticket) ∨
    (∃ i ids, (s.streams i).stopper = .awaiting ticket ids) ∨
      ∃ t ids, s.tasks t = .awaiting ticket ids

/-- The position in which frames are read once the loop goes on reading. -/
def Loop.reading? : Loop → Option Reading
  | .reading r => some r
  | .sending r _ _ => some r
  | _ => none

/-- The server has yet to answer the request with the given ticket, or its answer is on the way. -/
def Mail.Outstanding (m : Mail) (ticket : ℕ) : Prop :=
  (∃ r, (ticket, r) ∈ m.toServer) ∨ ∃ f ∈ m.wire, ∃ reply, f.answer = some (ticket, reply)

/-- Where requests are in every reachable state, with the loop at `l` and answers awaited for the
tickets in `awaits`. -/
structure Mail.Posted (m : Mail) (l : Loop) (awaits : ℕ → Prop) : Prop where
  freshChannel : ∀ e ∈ m.channel, e.1 < m.nextTicket
  freshPending : ∀ t ∈ m.pending, t < m.nextTicket
  freshAnswers : ∀ t, m.nextTicket ≤ t → m.answers t = none
  nodup : (m.channel.map (·.1) ++ m.pending).Nodup
  unanswered : ∀ t ∈ m.channel.map (·.1) ++ m.pending, m.answers t = none
  serving : m.pending ≠ [] → l.reading? = some .serving
  outstanding : m.alive = true → ∀ t ∈ m.pending, m.Outstanding t
  resuming : m.alive = true → ∀ oldId i t rest,
    l.reading? = some (.resuming oldId i t rest) → m.Outstanding t
  closed : m.closed = true → l = .exited
  exited : l = .exited → m.closed = true ∧ m.channel = []
  awaited : ∀ t, awaits t → m.answers t ≠ none ∨ t ∈ m.channel.map (·.1) ∨ t ∈ m.pending

/-- No request is lost. -/
def Posted (s : State) : Prop := s.mail.Posted s.loop s.Awaits

/-- Somebody waits for an answer because it did before or because it has just made the request. -/
theorem awaits_next {s : State} {a : Action} (ha : Enabled s a) {ticket : ℕ}
    (h : (next s a).Awaits ticket) :
    s.Awaits ticket ∨ ticket = s.nextTicket ∧ ∃ r, a.pushed = some r := by
  rcases h with ⟨i, hi⟩ | ⟨i, ids, hi⟩ | ⟨t, ids, ht⟩
  · have hc := change ha i
    generalize (next s a).streams i = v at hi hc
    cases hc with
    | requested =>
      cases hi
      exact Or.inr ⟨rfl, _, rfl⟩
    | begun => cases hi
    | startRefused => cases hi
    | answered => cases hi
    | denied => cases hi
    | registered => cases hi
    | failed => cases hi
    | _ => exact Or.inl (Or.inl ⟨i, hi⟩)
  · have hc := change ha i
    generalize (next s a).streams i = v at hi hc
    cases hc with
    | begun => cases hi
    | stopped => cases hi
    | dropped => cases hi
    | loaded => cases hi
    | reloaded => cases hi
    | stopRequested =>
      cases hi
      exact Or.inr ⟨rfl, _, rfl⟩
    | stopRefused => cases hi
    | stopReceived => cases hi
    | @stopUnregistered id ids' => cases ids' <;> cases hi
    | stopReleased => cases hi
    | _ => exact Or.inl (Or.inr (Or.inl ⟨i, ids, hi⟩))
  · have hc := taskChange ha t
    generalize (next s a).tasks t = p at ht hc
    cases hc with
    | same => exact Or.inl (Or.inr (Or.inr ⟨t, ids, ht⟩))
    | requested =>
      cases ht
      exact Or.inr ⟨rfl, _, rfl⟩
    | @collected ids' => cases ids' <;> cases ht
    | @refused _ ids' => cases ids' <;> cases ht
    | @received _ ids' => cases ids' <;> cases ht
    | _ => cases ht

/-- The loop goes on serving unless it leaves. -/
theorem LoopChange.serving {s : State} {a : Action} {l : Loop} (hc : LoopChange s a l)
    (h : s.loop.reading? = some .serving) (ha : a ≠ .leave) : l.reading? = some .serving := by
  cases hc with
  | same => exact h
  | found hr => rwa [hr] at h
  | sent hr => rwa [hr] at h
  | left => exact absurd rfl ha
  | dialFailed => rfl
  | resumed => rfl
  | _ hr =>
    rw [hr] at h
    cases h

/-- The loop awaits the answer to a resume request because it did before, and what it has read was
not that answer, or because it has just sent the request. -/
theorem LoopChange.resuming {s : State} {a : Action} {l : Loop} (ha : Enabled s a)
    (hc : LoopChange s a l) {oldId i ticket : ℕ} {rest : List (ℕ × ℕ)}
    (h : l.reading? = some (.resuming oldId i ticket rest)) :
    (s.loop.reading? = some (.resuming oldId i ticket rest) ∧ a ≠ .dial true ∧
        ∀ r m reply, a = .read r m → m.answer ≠ some (ticket, reply)) ∨
      a = .resume oldId i rest true ∧ ticket = s.nextTicket ∧ s.isEnded i = false := by
  cases hc with
  | same hstill hother =>
    refine Or.inl ⟨h, ?_, ?_⟩
    · rintro rfl
      cases hstill
    · rintro r m reply rfl
      rw [ha.1] at h
      cases h
      exact hother oldId i ticket rest m reply rfl
  | found hr =>
    cases h
    refine Or.inl ⟨by rw [hr]; rfl, Action.noConfusion, ?_⟩
    rintro _ _ _ ⟨⟩ ⟨⟩
  | sent hr =>
    cases h
    exact Or.inl ⟨by rw [hr]; rfl, Action.noConfusion, nofun⟩
  | resumeSent hr hkept =>
    cases h
    exact Or.inr ⟨rfl, rfl, hkept⟩
  | _ => cases h

/-- What is outstanding stays so until its answer is read or the connection is gone. -/
theorem MailChange.outstanding {s : State} {a : Action} {m : Mail} (hc : MailChange s a m)
    {ticket : ℕ} (h : s.alive = true → s.mail.Outstanding ticket) (halive : m.alive = true)
    (hdial : a ≠ .dial true)
    (hread : ∀ r f reply, a = .read r f → f.answer ≠ some (ticket, reply)) :
    m.Outstanding ticket := by
  have htail : ∀ {r f}, a = .read r f → s.wire.head? = some f → s.mail.Outstanding ticket →
      (∃ r, (ticket, r) ∈ s.toServer) ∨
        ∃ f ∈ s.wire.tail, ∃ reply, f.answer = some (ticket, reply) := by
    intro r f hr hhead hout
    rcases hout with hout | ⟨g, hg, reply, hreply⟩
    · exact Or.inl hout
    · rw [show s.mail.wire = f :: s.wire.tail from List.eq_cons_of_mem_head? hhead,
        List.mem_cons] at hg
      rcases hg with rfl | hg
      · exact absurd hreply (hread r g reply hr)
      · exact Or.inr ⟨g, hg, reply, hreply⟩
  have hwire : ∀ {f : Message} {e : ℕ × Request}, (∀ r, e = (ticket, r) →
      ∃ reply, f.answer = some (ticket, reply)) → s.mail.Outstanding ticket →
      (∃ r, (ticket, r) ∈ s.toServer.erase e) ∨
        ∃ g ∈ s.wire ++ [f], ∃ reply, g.answer = some (ticket, reply) := by
    intro f e hf hout
    rcases hout with ⟨r, hr⟩ | ⟨g, hg, hreply⟩
    · by_cases he : e = (ticket, r)
      · exact Or.inr ⟨f, by simp, hf r he⟩
      · exact Or.inl ⟨r, (List.mem_erase_of_ne (Ne.symm he)).mpr hr⟩
    · exact Or.inr ⟨g, List.mem_append_left _ hg, hreply⟩
  cases hc with
  | same => exact h halive
  | pushed => exact h halive
  | shutDown => exact h halive
  | dequeued =>
    rcases h halive with ⟨r, hr⟩ | hout
    · refine Or.inl ⟨r, ?_⟩
      change _ ∈ if s.alive then _ else _
      rw [if_pos (show s.alive = true from halive)]
      exact List.mem_append_left _ hr
    · exact Or.inr hout
  | unsent => exact h halive
  | resumeSent =>
    rcases h halive with ⟨r, hr⟩ | hout
    · refine Or.inl ⟨r, ?_⟩
      change _ ∈ if s.alive then _ else _
      rw [if_pos (show s.alive = true from halive)]
      exact List.mem_append_left _ hr
    · exact Or.inr hout
  | taken hloop hhead => exact htail rfl hhead (h halive)
  | completed hloop hhead => exact htail rfl hhead (h halive)
  | dialled => exact absurd rfl hdial
  | cleaned => cases halive
  | accepted =>
    refine hwire ?_ (h halive)
    rintro r ⟨⟩
    exact ⟨_, rfl⟩
  | @carriedOut t r ok =>
    refine hwire ?_ (h halive)
    rintro r' ⟨⟩
    cases ok with
    | true => exact ⟨_, rfl⟩
    | false => exact ⟨_, rfl⟩
  | serverSent =>
    rcases h halive with hout | ⟨g, hg, hreply⟩
    · exact Or.inl hout
    · exact Or.inr ⟨g, List.mem_append_left _ hg, hreply⟩
  | left => exact h halive
  | resumeLost => cases halive
  | lost => cases halive

section

variable {s : State} {a : Action} {m : Mail} {l : Loop} {awaits : ℕ → Prop}

theorem Mail.Posted.pending_eq_nil (h : m.Posted l awaits) (hl : l.reading? ≠ some .serving) :
    m.pending = [] := by
  by_contra hne
  exact hl (h.serving hne)

/-- A ticket that is neither in the channel nor pending yet. -/
theorem Mail.Posted.fresh (h : m.Posted l awaits) :
    m.nextTicket ∉ m.channel.map (·.1) ∧ m.nextTicket ∉ m.pending := by
  constructor
  · intro hmem
    obtain ⟨e, he, heq⟩ := List.mem_map.mp hmem
    exact absurd (h.freshChannel e he) (by rw [heq]; exact lt_irrefl _)
  · intro hmem
    exact absurd (h.freshPending _ hmem) (lt_irrefl _)

/-- The tickets stay fresh and apart. -/
private theorem tickets_next (h : Posted s) (hc : MailChange s a m) :
    (∀ e ∈ m.channel, e.1 < m.nextTicket) ∧ (∀ t ∈ m.pending, t < m.nextTicket) ∧
      (m.channel.map (·.1) ++ m.pending).Nodup := by
  have hsame : (∀ e ∈ s.channel, e.1 < s.nextTicket) ∧ (∀ t ∈ s.pending, t < s.nextTicket) ∧
      (s.channel.map (·.1) ++ s.pending).Nodup := ⟨h.freshChannel, h.freshPending, h.nodup⟩
  have hnodup : (s.channel.map (·.1) ++ s.pending).Nodup := h.nodup
  cases hc with
  | pushed =>
    refine ⟨fun e he => ?_, fun t ht => Nat.lt_succ_of_lt (h.freshPending t ht), ?_⟩
    · rcases List.mem_append.mp he with he | he
      · exact Nat.lt_succ_of_lt (h.freshChannel e he)
      · rw [List.mem_singleton.mp he]
        exact Nat.lt_succ_self _
    · have hfresh := h.fresh
      change ((s.channel ++ [(s.nextTicket, _)]).map Prod.fst ++ s.pending).Nodup
      rw [List.map_append, List.map_singleton, List.append_assoc, List.singleton_append,
        List.nodup_middle, List.nodup_cons, List.mem_append]
      exact ⟨fun hor => hor.elim hfresh.1 hfresh.2, hnodup⟩
  | @dequeued ticket r rest hloop hchannel =>
    have hchannel' : s.mail.channel = (ticket, r) :: rest := hchannel
    rw [hchannel, List.map_cons, List.cons_append, List.nodup_cons] at hnodup
    refine ⟨fun e he => h.freshChannel e (by rw [hchannel']; exact List.mem_cons_of_mem _ he),
      fun t ht => ?_, ?_⟩
    · rcases List.mem_append.mp ht with ht | ht
      · exact h.freshPending t ht
      · rw [List.mem_singleton.mp ht]
        exact h.freshChannel (ticket, r) (by rw [hchannel']; exact List.mem_cons_self)
    · change (rest.map (·.1) ++ (s.pending ++ [ticket])).Nodup
      rw [← List.append_assoc, List.nodup_append_comm, List.singleton_append, List.nodup_cons]
      exact hnodup
  | @unsent ticket r rest hloop hchannel =>
    have hchannel' : s.mail.channel = (ticket, r) :: rest := hchannel
    rw [hchannel, List.map_cons, List.cons_append, List.nodup_cons] at hnodup
    exact ⟨fun e he => h.freshChannel e (by rw [hchannel']; exact List.mem_cons_of_mem _ he),
      h.freshPending, hnodup.2⟩
  | resumeSent =>
    exact ⟨fun e he => Nat.lt_succ_of_lt (h.freshChannel e he),
      fun t ht => Nat.lt_succ_of_lt (h.freshPending t ht), hnodup⟩
  | @completed r f ticket =>
    refine ⟨h.freshChannel, fun t ht => h.freshPending t (List.mem_of_mem_erase ht), ?_⟩
    exact hnodup.sublist (List.Sublist.append_left List.erase_sublist _)
  | left =>
    refine ⟨h.freshChannel, nofun, ?_⟩
    exact hnodup.sublist (List.Sublist.append_left (List.nil_sublist _) _)
  | cleaned =>
    refine ⟨nofun, h.freshPending, ?_⟩
    exact hnodup.sublist (List.sublist_append_right _ _)
  | _ => exact hsame

/-- Only requests that have been made are answered. -/
private theorem freshAnswers_next (h : Posted s) (hc : MailChange s a m) (t : ℕ)
    (ht : m.nextTicket ≤ t) : m.answers t = none := by
  have hfailed : ∀ {l : List ℕ} {n : ℕ}, s.nextTicket ≤ t → (∀ t' ∈ l, t' < s.nextTicket) →
      (if t ∈ l then some ⟨.failed, n⟩ else s.answers t) = none := by
    intro l n hle hl
    rw [if_neg fun hmem => absurd (hl t hmem) (Nat.not_lt.mpr hle)]
    exact h.freshAnswers t hle
  cases hc with
  | pushed => exact h.freshAnswers t (Nat.le_of_succ_le ht)
  | resumeSent => exact h.freshAnswers t (Nat.le_of_succ_le ht)
  | @unsent ticket r rest hloop hchannel =>
    have hhead : (ticket, r) ∈ s.mail.channel := by
      change (ticket, r) ∈ s.channel
      rw [hchannel]
      exact List.mem_cons_self
    refine hfailed ht fun t' ht' => ?_
    rw [List.mem_singleton.mp ht']
    exact h.freshChannel _ hhead
  | @completed r f ticket reply hloop hhead hm hpending =>
    have hne : t ≠ ticket := fun heq =>
      absurd (h.freshPending ticket hpending) (Nat.not_lt.mpr (heq ▸ ht))
    change Function.update s.answers ticket _ t = none
    rw [Function.update_of_ne hne]
    exact h.freshAnswers t ht
  | left => exact hfailed ht h.freshPending
  | cleaned =>
    refine hfailed ht fun t' ht' => ?_
    obtain ⟨e, he, rfl⟩ := List.mem_map.mp ht'
    exact h.freshChannel e he
  | _ => exact h.freshAnswers t ht

/-- A request in the channel or pending has no answer yet. -/
private theorem unanswered_next (h : Posted s) (hc : MailChange s a m) (t : ℕ)
    (ht : t ∈ m.channel.map (·.1) ++ m.pending) : m.answers t = none := by
  have hnodup : (s.channel.map (·.1) ++ s.pending).Nodup := h.nodup
  have hold : t ∈ s.channel.map (·.1) ++ s.pending → s.answers t = none := h.unanswered t
  have hdisjoint := (List.nodup_append.mp hnodup).2.2
  cases hc with
  | @pushed a r =>
    change t ∈ (s.channel ++ [(s.nextTicket, r)]).map Prod.fst ++ s.pending at ht
    rw [List.map_append, List.map_singleton, List.append_assoc, List.singleton_append] at ht
    rcases List.mem_cons.mp (List.perm_middle.subset ht) with rfl | ht
    · exact h.freshAnswers _ (le_refl _)
    · exact hold ht
  | @dequeued ticket r rest _ hchannel =>
    refine hold ?_
    rw [hchannel, List.map_cons, List.cons_append]
    change t ∈ rest.map Prod.fst ++ (s.pending ++ [ticket]) at ht
    rw [← List.append_assoc] at ht
    exact (List.perm_append_singleton _ _).subset ht
  | @unsent ticket r rest _ hchannel =>
    rw [hchannel, List.map_cons, List.cons_append, List.nodup_cons] at hnodup
    have hne : t ∉ [ticket] := by
      rintro ht'
      rw [List.mem_singleton.mp ht'] at ht
      exact hnodup.1 ht
    refine (if_neg hne).trans (hold ?_)
    rw [hchannel, List.map_cons, List.cons_append]
    exact List.mem_cons_of_mem _ ht
  | @completed r f ticket reply _ _ _ hpending =>
    have hne : t ≠ ticket := by
      rintro rfl
      rcases List.mem_append.mp ht with ht | ht
      · exact hdisjoint t ht t hpending rfl
      · exact (List.nodup_append.mp hnodup).2.1.not_mem_erase ht
    refine (Function.update_of_ne hne _ _).trans (hold ?_)
    exact (List.Sublist.append_left List.erase_sublist _).subset ht
  | left =>
    have ht' : t ∈ s.channel.map Prod.fst ++ [] := ht
    rw [List.append_nil] at ht'
    refine (if_neg fun hmem => hdisjoint t ht' t hmem rfl).trans ?_
    exact hold (List.mem_append_left _ ht')
  | cleaned =>
    have ht' : t ∈ s.pending := ht
    refine (if_neg fun hmem => hdisjoint t hmem t ht' rfl).trans ?_
    exact hold (List.mem_append_right _ ht')
  | _ => exact hold ht

/-- A pending request stays outstanding. -/
private theorem outstanding_next (h : Posted s) (hc : MailChange s a m) (halive : m.alive = true)
    (t : ℕ) (ht : t ∈ m.pending) : m.Outstanding t := by
  have hold : t ∈ s.pending → a ≠ .dial true →
      (∀ r f reply, a = .read r f → f.answer ≠ some (t, reply)) → m.Outstanding t :=
    fun hmem hdial hread =>
      hc.outstanding (fun hal => h.outstanding hal t hmem) halive hdial hread
  cases hc with
  | same hstill =>
    refine hold ht ?_ ?_
    · rintro rfl
      cases hstill
    · rintro r f reply rfl
      cases hstill
  | pushed hpushed =>
    refine hold ht ?_ ?_
    · rintro rfl
      cases hpushed
    · rintro r f reply rfl
      cases hpushed
  | @dequeued ticket r rest =>
    rcases List.mem_append.mp ht with ht | ht
    · exact hold ht Action.noConfusion nofun
    · refine Or.inl ⟨r, ?_⟩
      change _ ∈ if s.alive then _ else _
      rw [if_pos (show s.alive = true from halive), List.mem_singleton.mp ht]
      exact List.mem_append_right _ List.mem_cons_self
  | taken hloop hhead hnone =>
    refine hold ht Action.noConfusion ?_
    rintro r f reply ⟨⟩ hanswer
    rcases hnone t reply hanswer with hnot | ⟨oldId, i, rest, rfl⟩
    · exact hnot ht
    · have hnil : s.pending = [] := h.pending_eq_nil (by rw [hloop]; exact nofun)
      have ht' : t ∈ s.pending := ht
      rw [hnil] at ht'
      cases ht'
  | @completed r f ticket reply hloop hhead hm hpending =>
    refine hold (List.mem_of_mem_erase ht) Action.noConfusion ?_
    rintro r f reply ⟨⟩ hanswer
    rw [hm] at hanswer
    cases hanswer
    have hnodup : s.pending.Nodup := (List.nodup_append.mp h.nodup).2.1
    exact hnodup.not_mem_erase ht
  | dialled hloop =>
    have hnil : s.pending = [] := h.pending_eq_nil (by rw [hloop]; exact nofun)
    have ht' : t ∈ s.pending := ht
    rw [hnil] at ht'
    cases ht'
  | left => cases ht
  | _ => exact hold ht Action.noConfusion nofun

/-- Whoever waits has its answer, or its request is in the channel or pending. -/
private theorem awaited_next (h : Posted s) (hc : MailChange s a m) {t : ℕ}
    (ht : s.Awaits t ∨ t = s.nextTicket ∧ ∃ r, a.pushed = some r) :
    m.answers t ≠ none ∨ t ∈ m.channel.map (·.1) ∨ t ∈ m.pending := by
  have hold : a.pushed = none →
      s.answers t ≠ none ∨ t ∈ s.channel.map (·.1) ∨ t ∈ s.pending := by
    intro hpushed
    rcases ht with ht | ⟨-, r, hr⟩
    · exact h.awaited t ht
    · rw [hpushed] at hr
      cases hr
  have hfailed : ∀ {l : List ℕ} {f : Option Answer} {n : ℕ}, f ≠ none ∨ t ∈ l →
      (if t ∈ l then some ⟨.failed, n⟩ else f) ≠ none := by
    intro l f n hor
    split
    · exact Option.some_ne_none _
    · exact hor.resolve_right ‹_›
  cases hc with
  | same hstill =>
    refine hold ?_
    cases a <;> first | rfl | cases hstill
  | @pushed a r hpushed =>
    rcases ht with ht | ⟨rfl, -⟩
    · rcases h.awaited t ht with hans | hchan | hpend
      · exact Or.inl hans
      · refine Or.inr (Or.inl ?_)
        change t ∈ (s.channel ++ [_]).map Prod.fst
        rw [List.map_append]
        exact List.mem_append_left _ hchan
      · exact Or.inr (Or.inr hpend)
    · refine Or.inr (Or.inl ?_)
      change s.nextTicket ∈ (s.channel ++ [(s.nextTicket, r)]).map Prod.fst
      rw [List.map_append]
      exact List.mem_append_right _ List.mem_cons_self
  | dequeued hloop hchannel =>
    rcases hold rfl with hans | hchan | hpend
    · exact Or.inl hans
    · rw [hchannel, List.map_cons, List.mem_cons] at hchan
      rcases hchan with rfl | hchan
      · exact Or.inr (Or.inr (List.mem_append_right _ List.mem_cons_self))
      · exact Or.inr (Or.inl hchan)
    · exact Or.inr (Or.inr (List.mem_append_left _ hpend))
  | unsent hloop hchannel =>
    rcases hold rfl with hans | hchan | hpend
    · exact Or.inl (hfailed (Or.inl hans))
    · rw [hchannel, List.map_cons, List.mem_cons] at hchan
      rcases hchan with rfl | hchan
      · exact Or.inl (hfailed (Or.inr List.mem_cons_self))
      · exact Or.inr (Or.inl hchan)
    · exact Or.inr (Or.inr hpend)
  | @completed r f ticket reply =>
    by_cases htt : t = ticket
    · subst htt
      refine Or.inl ?_
      change Function.update s.answers t _ t ≠ none
      rw [Function.update_self]
      exact Option.some_ne_none _
    · rcases hold rfl with hans | hchan | hpend
      · refine Or.inl ?_
        change Function.update s.answers ticket _ t ≠ none
        rwa [Function.update_of_ne htt]
      · exact Or.inr (Or.inl hchan)
      · exact Or.inr (Or.inr ((List.mem_erase_of_ne htt).mpr hpend))
  | left =>
    rcases hold rfl with hans | hchan | hpend
    · exact Or.inl (hfailed (Or.inl hans))
    · exact Or.inr (Or.inl hchan)
    · exact Or.inl (hfailed (Or.inr hpend))
  | cleaned =>
    rcases hold rfl with hans | hchan | hpend
    · exact Or.inl (hfailed (Or.inl hans))
    · exact Or.inl (hfailed (Or.inr hchan))
    · exact Or.inr (Or.inr hpend)
  | _ => exact hold rfl

/-- Requests are pending only while the loop serves. -/
private theorem serving_next (h : Posted s) (hc : MailChange s a m) (hl : LoopChange s a l)
    (hne : m.pending ≠ []) : l.reading? = some .serving := by
  have hleave : a ≠ .leave := by
    rintro rfl
    cases hc with
    | same hstill => cases hstill
    | pushed hpushed => cases hpushed
    | left => exact hne rfl
  refine hl.serving ?_ hleave
  cases hc with
  | dequeued hloop => rw [hloop]; rfl
  | completed hloop hhead hm hpending => exact h.serving (List.ne_nil_of_mem hpending)
  | left => exact absurd rfl hleave
  | _ => exact h.serving hne

/-- The channel is closed only by the last cleanup. -/
private theorem closed_next (h : Posted s) (hc : MailChange s a m) (hl : LoopChange s a l)
    (hclosed : m.closed = true) : l = .exited := by
  have hold : s.closed = true → l = .exited := by
    intro hclosed
    have hex : s.loop = .exited := h.closed hclosed
    cases hl with
    | same => exact hex
    | _ hr => cases hex.symm.trans hr
  cases hc with
  | cleaned =>
    cases hl with
    | same hstill => cases hstill
    | cleaned => rfl
  | _ => exact hold hclosed

/-- Once the loop has exited nothing gets into the channel. -/
private theorem exited_next (h : Posted s) (hc : MailChange s a m) (hl : LoopChange s a l)
    (hex : l = .exited) : m.closed = true ∧ m.channel = [] := by
  cases hl with
  | same hstill =>
    obtain ⟨hclosed, hchannel⟩ := h.exited hex
    cases hc with
    | pushed _ hroom =>
      have hopen : s.closed = false := hroom.1
      cases hopen.symm.trans hclosed
    | dequeued _ hcons => cases hcons.symm.trans hchannel
    | unsent _ hcons => cases hcons.symm.trans hchannel
    | cleaned => exact ⟨rfl, rfl⟩
    | _ => exact ⟨hclosed, hchannel⟩
  | cleaned =>
    cases hc with
    | same hstill => cases hstill
    | pushed hpushed => cases hpushed
    | cleaned => exact ⟨rfl, rfl⟩
  | _ => cases hex

/-- What holds of requests and frames after a step. -/
theorem Posted.next (h : Posted s) (ha : Enabled s a) : Posted (next s a) := by
  have hm := mailChange ha
  have hl := loopChange ha
  obtain ⟨hchannel, hpending, hnodup⟩ := tickets_next h hm
  refine ⟨hchannel, hpending, freshAnswers_next h hm, hnodup, unanswered_next h hm,
    serving_next h hm hl, outstanding_next h hm, ?_, closed_next h hm hl, exited_next h hm hl,
    fun t ht => awaited_next h hm (awaits_next ha ht)⟩
  intro halive oldId i t rest hreading
  rcases hl.resuming ha hreading with ⟨hold, hdial, hread⟩ | ⟨rfl, rfl, hkept⟩
  · exact hm.outstanding (fun hal => h.resuming hal oldId i t rest hold) halive hdial hread
  · change (Lifecycle.next s _).mail.alive = true at halive
    generalize (Lifecycle.next s _).mail = m at hm halive ⊢
    cases hm with
    | same _ hended => cases hkept.symm.trans (hended _ _ _ rfl)
    | pushed hpushed => cases hpushed
    | resumeSent =>
      refine Or.inl ⟨.newStream i, ?_⟩
      change _ ∈ if s.alive then _ else _
      rw [if_pos (show s.alive = true from halive)]
      exact List.mem_append_right _ List.mem_cons_self

end

theorem posted_init : Posted init where
  freshChannel e he := by cases he
  freshPending t ht := by cases ht
  freshAnswers _ _ := rfl
  nodup := List.nodup_nil
  unanswered _ h := by cases h
  serving _ := rfl
  outstanding _ t ht := by cases ht
  resuming _ _ _ _ _ h := by cases h
  closed h := by cases h
  exited h := by cases h
  awaited t h := by
    rcases h with ⟨i, hi⟩ | ⟨i, ids, hi⟩ | ⟨k, ids, hk⟩
    · cases hi
    · cases hi
    · cases hk

theorem exec_posted {as : List Action} (hv : system.Valid init as) :
    Posted (system.exec init as) :=
  Transition.System.invariant (fun _ _ h ha => h.next ha) posted_init hv

end Lifecycle

end TitanClient
