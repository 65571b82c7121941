import TitanClient.LifecycleSlots
import TitanClient.OpenStreams
import TitanClient.Remap

/-!
# Stop requests and slots

The client asks the server to stop a stream under the ids its stop sequence has read, and then gives
the slot back. An open stream is no longer the client's concern once a stop request with its id is
under way. Until then somebody holds a slot for it and has its id: the start or the turn of
`resume_streams` that waits for its response, the loop that moves the entry to its id, or the cells
of the stream, from which a stop sequence has read or will read it.

## Main results

* `State.StopUnderWay`, `stopUnderWay_next` — a stop request is under way until its stream is closed
* `Stopper.WillAsk`, `willAsk_next` — what a stop sequence has yet to ask for
* `HeldUp`, `HeldUp.next` — while the loop resumes a stream, its stop sequence waits
-/

namespace TitanClient

namespace Lifecycle

/-! ## Stop requests under way -/

/-- A stop request with the id is in the channel or on its way to the server. -/
def State.StopUnderWay (s : State) (id : ℕ) : Prop :=
  ∃ e ∈ s.channel ++ s.toServer, e.2 = .stopStream id

instance (s : State) (id : ℕ) : Decidable (s.StopUnderWay id) :=
  inferInstanceAs (Decidable (∃ _ ∈ _, _))

/-- The streams that are open on the server and that nobody has asked it to stop. -/
def State.unstopped (s : State) : List (ℕ × ℕ) :=
  s.openStreams.filter fun e => ¬s.StopUnderWay e.1

/-- A request that cannot be written is no stop request for an open stream, unless there is another
one under way. -/
def StopsWritten (s : State) (a : Action) : Prop :=
  a = .dequeue false → ∀ e ∈ s.channel.head?, ∀ o ∈ s.openStreams, e.2 = .stopStream o.1 →
    ∃ e' ∈ s.channel.tail ++ s.toServer, e'.2 = .stopStream o.1

instance (s : State) (a : Action) : Decidable (StopsWritten s a) :=
  inferInstanceAs (Decidable (_ → ∀ _ ∈ _, ∀ _ ∈ _, _ → ∃ _ ∈ _, _))

section

variable {s : State} {a : Action} {n i : ℕ}

/-- A stop request is under way until the stream it names is closed. -/
theorem stopUnderWay_next (hoff : Offline s) (hC : StopsWritten s a) (ha : Enabled s a)
    (h : s.StopUnderWay n) (hopen : (n, i) ∈ (next s a).openStreams) :
    (next s a).StopUnderWay n := by
  obtain ⟨e, he, hid⟩ := h
  have hm := mailChange ha
  have hdead : (n, i) ∈ s.openStreams → s.alive = true := by
    intro hold
    by_contra halive
    rw [hoff.dead (Bool.eq_false_iff.mpr halive)] at hold
    cases hold
  change (n, i) ∈ (next s a).mail.openStreams at hopen
  change ∃ e ∈ (next s a).mail.channel ++ (next s a).mail.toServer, e.2 = .stopStream n
  generalize (next s a).mail = m at hopen hm
  cases hm with
  | pushed =>
    refine ⟨e, ?_, hid⟩
    rcases List.mem_append.mp he with he | he
    · exact List.mem_append_left _ (List.mem_append_left _ he)
    · exact List.mem_append_right _ he
  | @dequeued ticket r rest _ hchannel =>
    refine ⟨e, ?_, hid⟩
    change e ∈ rest ++ if s.alive then s.toServer ++ [(ticket, r)] else s.toServer
    rw [if_pos (hdead hopen)]
    rw [hchannel] at he
    rcases List.mem_cons.mp he with rfl | he
    · exact List.mem_append_right _ (List.mem_append_right _ List.mem_cons_self)
    · rcases List.mem_append.mp he with he | he
      · exact List.mem_append_left _ he
      · exact List.mem_append_right _ (List.mem_append_left _ he)
  | @unsent ticket r rest _ hchannel =>
    rw [hchannel] at he
    rcases List.mem_cons.mp he with rfl | he
    · have hother := hC rfl (ticket, r) (by rw [hchannel]; rfl) (n, i) hopen hid
      rwa [hchannel] at hother
    · exact ⟨e, he, hid⟩
  | resumeSent =>
    refine ⟨e, ?_, hid⟩
    change e ∈ s.channel ++ if s.alive then _ else _
    rw [if_pos (hdead hopen), ← List.append_assoc]
    exact List.mem_append_left _ he
  | dialled => cases hopen
  | resumeLost => cases hopen
  | cleaned => cases hopen
  | lost => cases hopen
  | @accepted ticket j id =>
    refine ⟨e, ?_, hid⟩
    have hne : e ≠ (ticket, .newStream j) := by
      rintro rfl
      cases hid
    rcases List.mem_append.mp he with he | he
    · exact List.mem_append_left _ he
    · exact List.mem_append_right _ ((List.mem_erase_of_ne hne).mpr he)
  | @carriedOut ticket r =>
    refine ⟨e, ?_, hid⟩
    have hne : e ≠ (ticket, r) := by
      rintro rfl
      exact (Request.mem_openStreams.mp hopen).2 hid
    rcases List.mem_append.mp he with he | he
    · exact List.mem_append_left _ he
    · exact List.mem_append_right _ ((List.mem_erase_of_ne hne).mpr he)
  | _ => exact ⟨e, he, hid⟩

end

/-! ## What a stop sequence has yet to ask for -/

/-- The stop sequence has yet to ask the server to stop the stream with the id, or to read its
ids. -/
def Stopper.WillAsk (id : ℕ) : Stopper → Prop
  | .requesting ids => id ∈ ids
  | .awaiting _ ids => id ∈ ids.tail
  | .unregistering ids => id ∈ ids.tail
  | .releasing => False
  | .done => False
  | _ => True

/-- A stop sequence that reads its ids for the second time gets to know the new id under which the
loop is about to store its stream, if that is open and nobody has asked the server to stop it. -/
def LoadsNewId (s : State) (a : Action) : Prop :=
  ∀ e ∈ a.reloads, ∀ n ∈ s.loop.moving, n.1 = e.1 → (n.2, n.1) ∈ s.openStreams →
    s.StopUnderWay n.2 ∨ n.2 ∈ stopIds e.2 (s.streams e.1).effectiveId (s.streams e.1).streamId

instance (s : State) (a : Action) : Decidable (LoadsNewId s a) :=
  inferInstanceAs (Decidable (∀ _ ∈ _, ∀ _ ∈ _, _ → _ → _))

section

variable {s : State} {a : Action} {i n : ℕ}

/-- What a stop sequence has yet to ask for it asks for later, or has just asked for. -/
theorem willAsk_next (ha : Enabled s a) (hopen : ¬s.Refuses)
    (hload : ∀ first, a = .stopReload i first →
      n ∈ stopIds first (s.streams i).effectiveId (s.streams i).streamId)
    (h : (s.streams i).stopper.WillAsk n) :
    ((next s a).streams i).stopper.WillAsk n ∨ (next s a).StopUnderWay n := by
  have hc := change ha i
  generalize (next s a).streams i = v at hc
  have hat : ∀ {p : Stopper}, (s.streams i).stopper = p → p.WillAsk n := by
    rintro p rfl
    exact h
  cases hc with
  | begun => exact Or.inl trivial
  | stopped => exact Or.inl trivial
  | dropped => exact Or.inl trivial
  | loaded => exact Or.inl trivial
  | reloaded => exact Or.inl (hload _ rfl)
  | @stopRequested id ids hs =>
    rcases List.mem_cons.mp (hat hs) with rfl | hmem
    · refine Or.inr ⟨(s.nextTicket, .stopStream n), List.mem_append_left _ ?_, rfl⟩
      exact List.mem_append_right _ List.mem_cons_self
    · exact Or.inl hmem
  | stopRefused hs => exact absurd ha.2 hopen
  | stopReceived hs =>
    have hmem := hat hs
    exact Or.inl hmem
  | @stopUnregistered id ids hs =>
    have hmem : n ∈ ids := hat hs
    cases ids with
    | nil => cases hmem
    | cons => exact Or.inl hmem
  | stopReleased hs => exact (hat hs).elim
  | _ => exact Or.inl h

end

/-! ## Nobody shuts the client down -/

/-- The calls the users of the client make: they drop handles inside a runtime and do not shut the
client down. -/
def Action.isOrdinary : Action → Bool
  | .drop _ runtime => runtime
  | .shutdown _ => false
  | _ => true

/-- The users of the client keep to such calls. -/
def OrdinaryCalls (_ : State) (a : Action) : Prop := a.isOrdinary = true

instance (s : State) (a : Action) : Decidable (OrdinaryCalls s a) :=
  inferInstanceAs (Decidable (_ = _))

/-- No task shuts the client down or has done so. -/
structure Undisturbed (s : State) : Prop where
  shutdown : s.shutdown = false
  tasks : ∀ t, s.tasks t = .idle ∨ ∃ i, s.tasks t = .stopping i

section

variable {s : State} {a : Action}

theorem Undisturbed.next (h : Undisturbed s) (hC : OrdinaryCalls s a) (ha : Enabled s a) :
    Undisturbed (next s a) := by
  have hnot : ∀ {t : ℕ} {p : Task}, s.tasks t = p → p ≠ .idle → (∀ i, p ≠ .stopping i) → False := by
    rintro t p rfl hidle hstopping
    rcases h.tasks t with hp | ⟨i, hp⟩
    · exact hidle hp
    · exact hstopping i hp
  refine ⟨?_, fun t => ?_⟩
  · have hm := mailChange ha
    change (Lifecycle.next s a).mail.shutdown = false
    generalize (Lifecycle.next s a).mail = m at hm
    cases hm with
    | shutDown => exact (hnot ha nofun nofun).elim
    | _ => exact h.shutdown
  · have hc := taskChange ha t
    generalize (Lifecycle.next s a).tasks t = p at hc
    cases hc with
    | same => exact h.tasks t
    | stopping => exact Or.inr ⟨_, rfl⟩
    | returned => exact Or.inl rfl
    | shutdown => cases hC
    | collected hp => exact (hnot hp nofun nofun).elim
    | requested hp => exact (hnot hp nofun nofun).elim
    | refused hp => exact (hnot hp nofun nofun).elim
    | received hp => exact (hnot hp nofun nofun).elim
    | cleared hp => exact (hnot hp nofun nofun).elim
    | cancelled => exact Or.inl rfl

theorem Undisturbed.not_clearing (h : Undisturbed s) (t : ℕ) : s.tasks t ≠ .clearing := by
  intro hclearing
  rcases h.tasks t with hp | ⟨i, hp⟩
  · cases hclearing.symm.trans hp
  · cases hclearing.symm.trans hp

/-- Requests are taken as long as something is open. -/
theorem Undisturbed.not_refuses (h : Undisturbed s) (hp : Posted s) (hoff : Offline s)
    (hopen : s.openStreams ≠ []) : ¬s.Refuses := by
  rintro (hshut | hclosed)
  · cases h.shutdown.symm.trans hshut
  · have hexited : s.loop = .exited := hp.closed hclosed
    exact hopen (hoff.dead (hoff.exited hexited))

end

theorem undisturbed_init : Undisturbed init := ⟨rfl, fun _ => Or.inl rfl⟩

/-! ## Stop sequences during a resumption -/

/-- The loop awaits the answer for stream `i`, or moves its entry. -/
def Loop.Resumes (l : Loop) (i : ℕ) : Prop :=
  (∃ oldId ticket, l.turn = some (oldId, i, ticket)) ∨ ∃ n, l.moving = some (i, n)

/-- The stop sequence has not got beyond a request that is still in the channel. -/
def Stopper.IsHeldUp (channel : List (ℕ × Request)) : Stopper → Prop
  | .awaiting ticket _ => ticket ∈ channel.map Prod.fst
  | .unregistering _ => False
  | .releasing => False
  | .done => False
  | _ => True

/-- While the loop resumes a stream it takes up no requests: the stream holds its slot, and its stop
sequence waits. -/
def HeldUp (s : State) : Prop :=
  ∀ i, s.loop.Resumes i →
    (s.streams i).slotReleased = false ∧ (s.streams i).stopper.IsHeldUp s.channel

section

variable {s : State} {a : Action} {i : ℕ}

/-- A stream that is not ended holds its slot, and its stop sequence has not begun. -/
theorem Wired.kept (hw : Wired s) (hdone : (s.streams i).start = .done)
    (hkept : s.isEnded i = false) :
    (s.streams i).slotReleased = false ∧ (s.streams i).stopper = .idle := by
  refine ⟨?_, (hw.ok i).live (hw.live_of_kept hdone hkept)⟩
  by_contra hrel
  have hstopped := (hw.ok i).claimed (by rw [hdone]; nofun) (Bool.not_eq_false _ ▸ hrel)
  rw [State.isEnded, hstopped] at hkept
  cases hkept

theorem Loop.not_resumes {l : Loop} (hturn : l.turn = none) (hmoving : l.moving = none) :
    ¬l.Resumes i := by
  rintro (⟨oldId, ticket, h⟩ | ⟨n, h⟩)
  · cases hturn.symm.trans h
  · cases hmoving.symm.trans h

theorem Loop.Resumes.mem_streams {l : Loop} (h : l.Resumes i) : i ∈ l.streams := by
  rcases h with ⟨oldId, ticket, h⟩ | ⟨n, h⟩
  · exact Loop.mem_streams_of_turn h
  · exact Loop.mem_streams_of_moving h

/-- What the answer to a resume request leads to if the entry is there and its stream has not
ended. -/
theorem next_moved {oldId j ticket : ℕ} {rest : List (ℕ × ℕ)} {n : ℕ}
    (hlook : s.resumable.lookup oldId = some i) (hkept : s.isEnded i = false) :
    next s (.read (.resuming oldId j ticket rest) (.response ticket (some n))) =
      { (s.taken (.response ticket (some n))).unregister oldId with
        loop := .storing i n rest } := by
  have hlook' : (s.taken (.response ticket (some n))).resumable.lookup oldId = some i := hlook
  have hkept' : (s.taken (.response ticket (some n))).isEnded i = false := hkept
  rw [next, State.take, if_pos rfl, State.resumeAnswered, State.takeOut, hlook']
  exact if_neg (by rw [hkept']; simp)

/-- The loop resumes a stream because it did before and has not read the answer, or because it has
just begun to or has just found it under its old id. -/
theorem resumes_next (hw : Wired s) (ha : Enabled s a) (h : (next s a).loop.Resumes i) :
    (s.loop.Resumes i ∧ ∀ oldId j ticket rest m reply,
        a = .read (.resuming oldId j ticket rest) m → m.answer ≠ some (ticket, reply)) ∨
      s.isEnded i = false ∧ (s.streams i).start = .done ∧
        (next s a).streams i = s.streams i := by
  rcases h with ⟨oldId, ticket, hturn⟩ | ⟨n, hmoving⟩
  · obtain ⟨rest, hr⟩ := Loop.turn_eq_some.mp hturn
    rcases (loopChange ha).resuming ha hr with ⟨hold, -, hread⟩ | ⟨rfl, -, hkept⟩
    · refine Or.inl ⟨Or.inl ⟨oldId, ticket, Loop.turn_eq_some.mpr ⟨rest, hold⟩⟩, ?_⟩
      rintro oldId' j ticket' rest' m reply rfl
      rw [ha.1] at hold
      cases hold
      exact hread _ m reply rfl
    · have hl : s.loop = .resuming ((oldId, i) :: rest) := ha
      refine Or.inr ⟨hkept, hw.inLoop i (by rw [hl]; exact List.mem_cons_self), ?_⟩
      simp [next, resumeNext, hkept]
  · rcases (loopChange ha).moving hmoving with
      hold | ⟨oldId, j, ticket, rest, hl, rfl, -, hlook, hkept⟩
    · refine Or.inl ⟨Or.inr ⟨n, hold⟩, ?_⟩
      rintro oldId j ticket rest m reply rfl
      rw [ha.1] at hold
      cases hold
    · refine Or.inr ⟨hkept, hw.mapped oldId i hlook, ?_⟩
      rw [next_moved hlook hkept]
      rfl

namespace HeldUp

private theorem slot_next (hw : Wired s) (hk : Keyed s) (ho : Orderly s) (hserved : Served s)
    (hund : Undisturbed s) (hcalls : OrdinaryCalls s a) (ha : Enabled s a) (hres : s.loop.Resumes i)
    (hread : ∀ oldId j ticket rest m reply,
      a = .read (.resuming oldId j ticket rest) m → m.answer ≠ some (ticket, reply))
    (hslot : (s.streams i).slotReleased = false)
    (hheld : (s.streams i).stopper.IsHeldUp s.channel) :
    ((next s a).streams i).slotReleased = false := by
  have hdone := hw.inLoop i hres.mem_streams
  by_contra hrel
  rcases released_next ha (Bool.not_eq_false _ ▸ hrel) with hold | hr
  · cases hslot.symm.trans hold
  · cases hr with
    | failed hfailing => cases hdone.symm.trans hfailing
    | dropped => cases hcalls
    | stopped hreleasing =>
      rw [hreleasing] at hheld
      exact hheld
    | @ended r id hlook =>
      rcases hres with ⟨oldId, ticket, hturn⟩ | ⟨n, hmoving⟩
      · -- The answer to the resume request comes first.
        have hmem := Loop.mem_snapshot_of_turn hturn
        have hid : id = oldId := (hk.keys id i hlook).symm.trans (ho.ids _ hmem)
        have hbehind := hserved.behind oldId i hmem
        rw [List.eq_cons_of_mem_head? ha.2, hid] at hbehind
        exact hbehind.head_ne rfl
      · rw [ha.1] at hmoving
        cases hmoving
    | answered _ hm => exact hread _ _ _ _ _ _ rfl hm
    | resumed =>
      have hl : s.loop = .resuming _ := ha
      exact Loop.not_resumes rfl rfl (hl ▸ hres)
    | cleared => exact hund.not_clearing _ ha.1
    | cleaned =>
      have hl : s.loop = .cleaning := ha
      exact Loop.not_resumes rfl rfl (hl ▸ hres)

/-- The loop takes up no request while it resumes a stream. -/
private theorem channel_next (ha : Enabled s a) (hres : s.loop.Resumes i) {ticket : ℕ}
    (h : ticket ∈ s.channel.map Prod.fst) : ticket ∈ (next s a).channel.map Prod.fst := by
  have hm := mailChange ha
  change ticket ∈ (Lifecycle.next s a).mail.channel.map Prod.fst
  generalize (Lifecycle.next s a).mail = m at hm
  cases hm with
  | pushed =>
    change ticket ∈ (s.channel ++ [_]).map Prod.fst
    rw [List.map_append]
    exact List.mem_append_left _ h
  | dequeued hl => exact absurd (hl ▸ hres) (Loop.not_resumes rfl rfl)
  | unsent hl => exact absurd (hl ▸ hres) (Loop.not_resumes rfl rfl)
  | cleaned hl => exact absurd (hl ▸ hres) (Loop.not_resumes rfl rfl)
  | _ => exact h

private theorem stopper_next (ht : Transit s) (ha : Enabled s a) (hrefuses : ¬s.Refuses)
    (hres : s.loop.Resumes i) (hheld : (s.streams i).stopper.IsHeldUp s.channel) :
    ((next s a).streams i).stopper.IsHeldUp (next s a).channel := by
  have hchannel : ∀ {p : Stopper}, p.IsHeldUp s.channel →
      p.IsHeldUp (Lifecycle.next s a).channel := by
    intro p hp
    cases p with
    | awaiting => exact channel_next ha hres hp
    | unregistering => exact hp
    | releasing => exact hp
    | done => exact hp
    | _ => trivial
  have hat : ∀ {p : Stopper}, (s.streams i).stopper = p → p.IsHeldUp s.channel := by
    rintro p rfl
    exact hheld
  have hc := change ha i
  generalize (Lifecycle.next s a).streams i = v at hc
  cases hc with
  | begun => exact trivial
  | stopped => exact trivial
  | dropped => exact trivial
  | loaded => exact trivial
  | reloaded => exact trivial
  | @stopRequested id ids =>
    change s.nextTicket ∈ (s.channel ++ [(s.nextTicket, Request.stopStream id)]).map Prod.fst
    rw [List.map_append]
    exact List.mem_append_right _ List.mem_cons_self
  | stopRefused => exact absurd ha.2 hrefuses
  | @stopReceived ticket ids hs =>
    -- A request in the channel is not answered yet.
    have hmem := hat hs
    exact absurd (ht.posted.unanswered ticket (List.mem_append_left _ hmem)) ha.2
  | stopUnregistered hs => exact (hat hs).elim
  | stopReleased hs => exact (hat hs).elim
  | _ => exact hchannel hheld

theorem next (h : HeldUp s) (ht : Transit s) (hk : Keyed s) (ho : Orderly s) (hserved : Served s)
    (hund : Undisturbed s) (hcalls : OrdinaryCalls s a) (ha : Enabled s a) :
    HeldUp (Lifecycle.next s a) := by
  intro i hi
  rcases resumes_next ht.wired ha hi with ⟨hres, hread⟩ | ⟨hkept, hdone, hsame⟩
  · obtain ⟨hslot, hheld⟩ := h i hres
    have hrefuses : ¬s.Refuses := by
      rintro (hshut | hclosed)
      · cases hund.shutdown.symm.trans hshut
      · have hexited : s.loop = .exited := ht.posted.closed hclosed
        exact Loop.not_resumes rfl rfl (hexited ▸ hres)
    exact ⟨slot_next ht.wired hk ho hserved hund hcalls ha hres hread hslot hheld,
      stopper_next ht ha hrefuses hres hheld⟩
  · obtain ⟨hslot, hidle⟩ := ht.wired.kept hdone hkept
    rw [hsame, hidle]
    exact ⟨hslot, trivial⟩

end HeldUp

theorem heldUp_init : HeldUp init := fun _ hi => absurd hi (Loop.not_resumes rfl rfl)

end

end Lifecycle

end TitanClient
