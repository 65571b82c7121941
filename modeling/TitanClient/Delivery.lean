import TitanClient.LifecycleKeys
import TitanClient.Zombies

/-!
# From the server to `recv()`

A quote passes from the socket through the hands of the loop, the raw channel, the hands of the
adapter and the quotes channel to the owner. None of these stages drops, doubles or reorders
anything, and a stream is registered under one id only as long as the connection stays up. What can
happen is that the loop does not find the stream: a frame read before the stream is registered, or
after its entry is gone, is dropped.

So an owner receives what the server has sent since the response to its start, in order and without
gaps, exactly as long as every quote that is read for the id of a stream finds the stream.

## Main results

* `quote_before_registration_lost` — a quote read in the gap before the registration never arrives
* `no_quote_lost` — otherwise `recv()` yields the quotes sent after the start response, as a prefix,
  and all of them once everything in between is drained
-/

namespace TitanClient

namespace Lifecycle

/-! ## Quotes on their way -/

/-- The quote in a frame for the stream id `n`. -/
def Message.quote (n : ℕ) : Message → Option ℕ
  | .data id (.quotes q) => if id = n then some q else none
  | _ => none

/-- The quotes for the stream id `n` in a sequence of frames. -/
def quotesOf (n : ℕ) (frames : List Message) : List ℕ := frames.filterMap (Message.quote n)

/-- The quote in a payload. -/
def Payload.quote : Payload → Option ℕ
  | .quotes q => some q
  | .other => none

/-- The quote in the hands of the adapter. -/
def Adapter.inHand : Adapter → List ℕ
  | .holding q => [q]
  | _ => []

/-- The quote for stream `i` in the hands of the loop. -/
def Loop.inHand (i : ℕ) : Loop → List ℕ
  | .sending _ j (.quotes q) => if j = i then [q] else []
  | _ => []

/-- The quotes that the stream has taken over, from the first one received by its owner on. -/
def Stream.flow (v : Stream) : List ℕ :=
  v.received ++ (v.quotes ++ (v.adapter.inHand ++ v.raw.filterMap Payload.quote))

/-- The quotes that the loop has read for stream `i` and not dropped. -/
def State.flow (s : State) (i : ℕ) : List ℕ := (s.streams i).flow ++ s.loop.inHand i

/-- The id that stream `i` was started under, and the number of frames read until then. -/
def State.started (s : State) (i : ℕ) : Option (ℕ × ℕ) :=
  match (s.streams i).start with
  | .done => some ((s.streams i).streamId, (s.streams i).since)
  | .registering id => some (id, (s.streams i).since)
  | .awaiting ticket =>
    (s.answers ticket).bind fun a => a.reply.stream.map fun id => (id, a.seen)
  | _ => none

/-- The owner of stream `i` has neither stopped nor dropped it. -/
def State.Kept (s : State) (i : ℕ) : Prop :=
  (s.streams i).start = .done → (s.streams i).handle = .live

instance (s : State) (i : ℕ) : Decidable (s.Kept i) := inferInstanceAs (Decidable (_ → _))

/-- Nothing for stream `i` is left between the server and its owner. -/
structure Drained (s : State) (i : ℕ) : Prop where
  wire : s.wire = []
  loop : s.loop.inHand i = []
  raw : (s.streams i).raw = []
  adapter : (s.streams i).adapter.inHand = []
  quotes : (s.streams i).quotes = []

theorem started_awaiting {s : State} {i ticket n m : ℕ}
    (h : (s.streams i).start = .awaiting ticket) :
    s.started i = some (n, m) ↔ s.answers ticket = some ⟨.ok (some n), m⟩ := by
  rw [State.started, h]
  change (s.answers ticket).bind _ = some (n, m) ↔ _
  rw [Option.bind_eq_some_iff]
  constructor
  · rintro ⟨⟨reply, seen⟩, hans, hid⟩
    obtain ⟨id, hstream, heq⟩ := Option.map_eq_some_iff.mp hid
    cases heq
    cases reply with
    | ok stream =>
      cases hstream
      exact hans
    | failed => cases hstream
  · intro hans
    exact ⟨_, hans, rfl⟩

/-- A stream was started before, or the response to its request has just been read. -/
theorem started_next {s : State} (hp : Posted s) {a : Action} (ha : Enabled s a) {i n m : ℕ}
    (h : (next s a).started i = some (n, m)) :
    s.started i = some (n, m) ∨
      (∃ r ticket, a = .read r (.response ticket (some n)) ∧
        (s.streams i).start = .awaiting ticket) ∧ m = s.consumed.length + 1 := by
  have hnone : ∀ {p : Start}, ((next s a).streams i).start = p → p ≠ .done →
      (∀ t, p ≠ .awaiting t) → (∀ id, p ≠ .registering id) → False := by
    intro p hstart hdone hawait hreg
    rw [State.started, hstart] at h
    cases p with
    | awaiting t => exact hawait t rfl
    | registering id => exact hreg id rfl
    | done => exact hdone rfl
    | _ => cases h
  have hold : ((next s a).streams i).start = (s.streams i).start →
      ((next s a).streams i).streamId = (s.streams i).streamId →
      ((next s a).streams i).since = (s.streams i).since → s.started i = some (n, m) ∨
        (∃ r ticket, a = .read r (.response ticket (some n)) ∧
          (s.streams i).start = .awaiting ticket) ∧ m = s.consumed.length + 1 := by
    intro hstart hid hsince
    cases hs : (s.streams i).start with
    | awaiting ticket =>
      have hans := (started_awaiting (hstart.trans hs)).mp h
      rcases answer_next ha hans with hans | ⟨r, hr, -, hseen⟩
      · exact Or.inl ((started_awaiting hs).mpr hans)
      · exact Or.inr ⟨⟨r, ticket, hr, rfl⟩, hseen⟩
    | _ =>
      left
      rw [State.started, hstart, hs, hid, hsince] at h
      rw [State.started, hs]
      exact h
  have hc := change ha i
  generalize hv : (next s a).streams i = v at hc
  have hstart : ((next s a).streams i).start = v.start := by rw [hv]
  have hid : ((next s a).streams i).streamId = v.streamId := by rw [hv]
  have hsince : ((next s a).streams i).since = v.since := by rw [hv]
  cases hc with
  | begun => exact (hnone hstart nofun nofun nofun).elim
  | requested hreq =>
    have hans := (started_awaiting hstart).mp h
    rcases answer_next ha hans with hans | ⟨r, hr, -⟩
    · have hfresh : s.answers s.nextTicket = none := hp.freshAnswers _ (le_refl _)
      cases hfresh.symm.trans hans
    · cases hr
  | startRefused => exact (hnone hstart nofun nofun nofun).elim
  | answered hawait hans =>
    left
    rw [State.started, hstart, hv] at h
    cases h
    exact (started_awaiting hawait).mpr hans
  | denied => exact (hnone hstart nofun nofun nofun).elim
  | registered hreg =>
    left
    rw [State.started, hstart, hv] at h
    rw [State.started, hreg]
    exact h
  | failed => exact (hnone hstart nofun nofun nofun).elim
  | _ => exact hold hstart hid hsince

/-! ## The stages keep what they take over -/

theorem Stream.Ok.flow_eq_nil {v : Stream} (h : v.Ok) (hv : v.start ≠ .done) : v.flow = [] := by
  obtain ⟨hadapter, -, -, hraw, hquotes, hreceived, -⟩ := h.unregistered hv
  rw [Stream.flow, hadapter, hraw, hquotes, hreceived]
  rfl

/-- No step but that of the loop changes which quotes a stream has taken over, as long as its owner
keeps it. -/
theorem Change.flow {s : State} {a : Action} {i : ℕ} {v : Stream} (hc : Change s i a v)
    (hw : Wired s) (hlive : v.start = .done → v.handle = .live)
    (hsend : ∀ r payload, a ≠ .sendRaw r i payload) : v.flow = (s.streams i).flow := by
  have hok := hw.ok i
  have hnot : (s.streams i).start = .done → v.start = (s.streams i).start → v.handle ≠ .live →
      False := fun hs hv hne => hne (hlive (hv.trans hs))
  have hdone : ∀ {p : Adapter}, (s.streams i).adapter = p → p ≠ .none →
      (s.streams i).start = .done :=
    fun ha hne => hok.start_done (Or.inl (by rw [ha]; exact hne))
  cases hc with
  | begun hcount =>
    rw [hw.unused i (Nat.le_of_eq hcount.symm)]
    rfl
  | registered h => exact (hok.flow_eq_nil (by rw [h]; exact Start.noConfusion)).symm
  | received hhandle hcons =>
    simp [Stream.flow, hcons]
  | adapterTook h hcons =>
    simp only [Stream.flow, h, hcons, Adapter.inHand, List.nil_append, List.filterMap_cons,
      Payload.quote, List.singleton_append]
  | adapterSkipped h hcons =>
    simp only [Stream.flow, hcons, List.filterMap_cons, Payload.quote]
  | adapterForwarded h =>
    simp only [Stream.flow, h, Adapter.inHand, List.nil_append, List.append_assoc]
  | adapterFailed h hhandle =>
    refine (hnot (hdone h Adapter.noConfusion) rfl ?_).elim
    rw [hhandle]
    exact Handle.noConfusion
  | adapterLoaded h => simp only [Stream.flow, h, Adapter.inHand]
  | adapterUnregistered h => simp only [Stream.flow, h, Adapter.inHand]
  | adapterEnded h => simp only [Stream.flow, h, Adapter.inHand]
  | sentRaw => exact absurd rfl (hsend _ _)
  | _ => rfl

/-- A kept stream was kept before. -/
theorem Change.kept {s : State} {a : Action} {i : ℕ} {v : Stream} (hc : Change s i a v)
    (hlt : i < s.streamCount) (hlive : v.start = .done → v.handle = .live) : s.Kept i := by
  intro hdone
  cases hc with
  | begun hcount => omega
  | requested h => cases hdone.symm.trans h
  | startRefused h => cases hdone.symm.trans h
  | answered h => cases hdone.symm.trans h
  | denied h => cases hdone.symm.trans h
  | registered h => cases hdone.symm.trans h
  | failed h => cases hdone.symm.trans h
  | stopped h => exact h
  | dropped h => exact h
  | droppedOutside h => exact h
  | droppedStopped => cases hlive hdone
  | stopReturned => cases hlive hdone
  | _ => exact hlive hdone

/-! ## Runs in which every quote finds its stream -/

/-- The stream id of the quote that the loop reads. -/
def Action.quoteId : Action → Option ℕ
  | .read _ (.data id (.quotes _)) => some id
  | _ => none

/-- The connection stays up. -/
def Connected (_ : State) (a : Action) : Prop := a ≠ .lose ∧ a ≠ .leave

instance (s : State) (a : Action) : Decidable (Connected s a) :=
  inferInstanceAs (Decidable (_ ∧ _))

/-- Every stream that was started under the id of a quote, and that its owner keeps, is registered
under that id when the quote is read. -/
def QuotesFound (s : State) (a : Action) : Prop :=
  ∀ n ∈ a.quoteId, ∀ i < s.streamCount, (s.started i).map (·.1) = some n → s.Kept i →
    s.resumable.lookup n = some i

instance (s : State) (a : Action) : Decidable (QuotesFound s a) :=
  inferInstanceAs (Decidable (∀ _ ∈ _, ∀ _ < _, _ → _ → _))

/-- What all reachable states of the runs considered have in common. -/
structure Delivered (s : State) : Prop where
  serving : s.loop.reading? = some .serving
  ids : ∀ i, (s.streams i).start = .done → (s.streams i).effectiveId = (s.streams i).streamId
  ends : ∀ i, (s.streams i).start = .done → (s.streams i).handle = .live →
    (s.streams i).adapter = .exited → ∀ id, s.resumable.lookup id ≠ some i
  response : ∀ i n m, s.started i = some (n, m) → m ≤ s.consumed.length ∧
    ∃ ticket, (s.consumed.take m).getLast? = some (.response ticket (some n))
  flow : ∀ i n m, s.started i = some (n, m) → s.Kept i →
    quotesOf n (s.consumed.drop m) = s.flow i

namespace Delivered

variable {s : State} {a : Action}

theorem started_lt (hw : Wired s) {i : ℕ} {e : ℕ × ℕ} (h : s.started i = some e) :
    i < s.streamCount := by
  by_contra hle
  rw [State.started, hw.unused i (Nat.not_lt.mp hle)] at h
  cases h

private theorem next_ids (h : Delivered s) (ha : Enabled s a) (i : ℕ)
    (hi : ((next s a).streams i).start = .done) :
    ((next s a).streams i).effectiveId = ((next s a).streams i).streamId := by
  have hc := change ha i
  generalize (next s a).streams i = v at hi hc
  cases hc with
  | begun => cases hi
  | requested => cases hi
  | startRefused => cases hi
  | answered => cases hi
  | denied => cases hi
  | registered => rfl
  | failed => cases hi
  | stored hl =>
    have hs := h.serving
    rw [hl] at hs
    cases hs
  | _ => exact h.ids i hi

private theorem next_ends (h : Delivered s) (hw : Wired s) (ha : Enabled s a) (i : ℕ)
    (hi : ((next s a).streams i).start = .done) (hlive : ((next s a).streams i).handle = .live)
    (hexit : ((next s a).streams i).adapter = .exited) (id : ℕ) :
    (next s a).resumable.lookup id ≠ some i := by
  intro hlook
  have hold : (s.streams i).start = .done → (s.streams i).handle = .live →
      (s.streams i).adapter = .exited → False := by
    intro hdone hlive hexit
    rcases lookup_next hlook with hlook | rfl | ⟨rest, rfl⟩
    · exact h.ends i hdone hlive hexit id hlook
    · cases hdone.symm.trans ha.1
    · have hs := h.serving
      rw [show s.loop = .inserting i id rest from ha] at hs
      cases hs
  have hc := change ha i
  generalize (next s a).streams i = v at hi hlive hexit hc
  cases hc with
  | begun => cases hi
  | requested => cases hi
  | startRefused => cases hi
  | answered => cases hi
  | denied => cases hi
  | registered => cases hexit
  | failed => cases hi
  | stopped => cases hlive
  | dropped => cases hlive
  | droppedOutside => cases hlive
  | droppedStopped => cases hlive
  | stopReturned => cases hlive
  | adapterTook => cases hexit
  | adapterForwarded => cases hexit
  | adapterFailed => cases hexit
  | adapterLoaded => cases hexit
  | @adapterUnregistered id' hadapter =>
    have hdropped := (hw.ok i).unregistering id' hadapter
    cases hdropped.symm.trans hlive
  | adapterEnded =>
    -- The adapter has seen that no sender is left, so there is no entry.
    have hheld := ha.2.2
    rw [State.senderHeld, Bool.or_eq_false_iff, List.any_eq_false] at hheld
    have hlook' : s.resumable.lookup id = some i := hlook
    exact hheld.1 _ (AList.mem_lookup_iff.mp hlook') (beq_self_eq_true i)
  | _ => exact hold hi hlive hexit

theorem started_done {i n m : ℕ} (h : s.started i = some (n, m))
    (hi : (s.streams i).start = .done) : n = (s.streams i).streamId := by
  rw [State.started, hi] at h
  cases h
  rfl

/-- A frame puts into the hands of the loop the quote that it brings for stream `i`, if any. -/
private theorem inHand_read (h : Delivered s) (hw : Wired s) (hk : Keyed s) {f : Message}
    (hloop : s.loop = .reading .serving) (hC : QuotesFound s (.read .serving f)) {i n m : ℕ}
    (hstarted : s.started i = some (n, m)) (hkept : s.Kept i) :
    (next s (.read .serving f)).loop.inHand i = quotesOf n [f] := by
  have hlt := started_lt hw hstarted
  have hfound : ∀ q, f = .data n (.quotes q) → s.resumable.lookup n = some i := by
    rintro q rfl
    exact hC n rfl i hlt (by rw [hstarted]; rfl) hkept
  have hown : ∀ id, s.resumable.lookup id = some i → id = n := by
    intro id hlook
    have hdone := hw.mapped id i hlook
    rw [started_done hstarted hdone, ← h.ids i hdone, hk.keys id i hlook]
  cases f with
  | data id payload =>
    cases hlook : s.resumable.lookup id with
    | none =>
      have hnext : (next s (.read .serving (.data id payload))).loop = s.loop := by
        simp [Lifecycle.next, State.take, State.handleServerMessage, State.taken, hlook]
      rw [hnext, hloop]
      cases payload with
      | other => rfl
      | quotes q =>
        by_cases hid : id = n
        · subst hid
          cases hlook.symm.trans (hfound q rfl)
        · simp [quotesOf, Message.quote, hid, Loop.inHand]
    | some j =>
      have hnext : (next s (.read .serving (.data id payload))).loop =
          .sending .serving j payload := by
        simp [Lifecycle.next, State.take, State.handleServerMessage, State.taken, hlook]
      rw [hnext]
      cases payload with
      | other => rfl
      | quotes q =>
        by_cases hid : id = n
        · subst hid
          cases hlook.symm.trans (hfound q rfl)
          simp [quotesOf, Message.quote, Loop.inHand]
        · have hj : j ≠ i := by
            rintro rfl
            exact hid (hown id hlook)
          simp [quotesOf, Message.quote, hid, Loop.inHand, hj]
  | response ticket stream =>
    simp [Lifecycle.next, State.take, State.handleServerMessage, hloop, State.taken,
      Loop.inHand, quotesOf, Message.quote]
  | error ticket =>
    simp [Lifecycle.next, State.take, State.handleServerMessage, hloop, State.taken,
      Loop.inHand, quotesOf, Message.quote]
  | ended id =>
    simp [Lifecycle.next, State.take, State.handleServerMessage, hloop, State.taken,
      Loop.inHand, quotesOf, Message.quote]
  | noise =>
    simp [Lifecycle.next, State.take, State.handleServerMessage, hloop, State.taken,
      Loop.inHand, quotesOf, Message.quote]

/-- The frame that the loop holds goes into the raw channel of its stream. -/
private theorem flow_sendRaw (h : Delivered s) (hl : Located s) {r : Reading} {j : ℕ}
    {payload : Payload} (ha : Enabled s (.sendRaw r j payload)) {i : ℕ}
    (hdone : j = i → (s.streams i).start = .done) (hkept : s.Kept i) :
    (next s (.sendRaw r j payload)).flow i = s.flow i := by
  have hloop : s.loop = .sending r j payload := ha.1
  have hreading : (next s (.sendRaw r j payload)).loop = .reading r := by
    rw [Lifecycle.next]
    split <;> rfl
  by_cases hj : j = i
  · subst hj
    have hlive : (s.streams j).adapter ≠ .exited := by
      intro hexit
      obtain ⟨id, hlook⟩ := hl r j payload hloop
      exact h.ends j (hdone rfl) (hkept (hdone rfl)) hexit id hlook
    have hstream : (next s (.sendRaw r j payload)).streams j =
        { s.streams j with raw := (s.streams j).raw ++ [payload] } := by
      rw [Lifecycle.next, if_neg hlive]
      exact State.setStream_streams_self ..
    rw [State.flow, State.flow, hstream, hreading, hloop]
    cases payload with
    | quotes q =>
      simp [Stream.flow, Loop.inHand, Payload.quote, List.filterMap_append]
    | other => simp [Stream.flow, Loop.inHand, Payload.quote, List.filterMap_append]
  · have hstream : (next s (.sendRaw r j payload)).streams i = s.streams i := by
      rw [Lifecycle.next]
      split
      · rfl
      · exact State.setStream_streams_of_ne s (Ne.symm hj) _
    rw [State.flow, State.flow, hstream, hreading, hloop]
    cases payload <;> simp [Loop.inHand, hj]

/-- While the connection is up the loop moves only to read a frame or to pass one on. -/
private theorem loop_stays (h : Delivered s) (ha : Enabled s a) (hup : Connected s a)
    (hread : ∀ r f, a ≠ .read r f) (hsend : ∀ r j payload, a ≠ .sendRaw r j payload) :
    (next s a).loop = s.loop := by
  have hserving := h.serving
  have hc := loopChange ha
  generalize (next s a).loop = l at hc
  cases hc with
  | same => rfl
  | found => exact absurd rfl (hread _ _)
  | moved => exact absurd rfl (hread _ _)
  | answered => exact absurd rfl (hread _ _)
  | sent => exact absurd rfl (hsend _ _ _)
  | left => exact absurd rfl hup.2
  | _ hl =>
    rw [hl] at hserving
    cases hserving

private theorem next_response (h : Delivered s) (hp : Posted s) (ha : Enabled s a) (i n m : ℕ)
    (hstarted : (next s a).started i = some (n, m)) :
    m ≤ (next s a).consumed.length ∧
      ∃ ticket, ((next s a).consumed.take m).getLast? = some (.response ticket (some n)) := by
  rw [consumed_next ha]
  rcases started_next hp ha hstarted with hold | ⟨⟨r, ticket, rfl, -⟩, rfl⟩
  · obtain ⟨hle, ticket, hlast⟩ := h.response i n m hold
    refine ⟨by rw [List.length_append]; omega, ticket, ?_⟩
    rwa [List.take_append_of_le_length hle]
  · refine ⟨by simp [Action.frames], ticket, ?_⟩
    rw [Action.frames, List.take_of_length_le (by simp), List.getLast?_concat]

private theorem next_flow (h : Delivered s) (hw : Wired s) (hp : Posted s) (hk : Keyed s)
    (hl : Located s) (hup : Connected s a) (hC : QuotesFound s a) (ha : Enabled s a) (i n m : ℕ)
    (hstarted : (next s a).started i = some (n, m)) (hkept : (next s a).Kept i) :
    quotesOf n ((next s a).consumed.drop m) = (next s a).flow i := by
  have hc := change ha i
  rcases started_next hp ha hstarted with hold | ⟨⟨r, ticket, rfl, hawait⟩, rfl⟩
  · have hlt := started_lt hw hold
    have hkept' := hc.kept hlt hkept
    have hle := (h.response i n m hold).1
    have hflow := h.flow i n m hold hkept'
    have hstream : (∀ r payload, a ≠ .sendRaw r i payload) →
        ((Lifecycle.next s a).streams i).flow = (s.streams i).flow := hc.flow hw hkept
    have hgrow : (Lifecycle.next s a).flow i = s.flow i ++ quotesOf n a.frames := by
      by_cases hread : ∃ r f, a = .read r f
      · obtain ⟨r, f, rfl⟩ := hread
        have hloop : s.loop = .reading r := ha.1
        have hr := h.serving
        rw [hloop] at hr
        cases hr
        rw [State.flow, State.flow, hstream nofun, h.inHand_read hw hk hloop hC hold hkept', hloop]
        simp [Loop.inHand, Action.frames]
      · by_cases hsend : ∃ r j payload, a = .sendRaw r j payload
        · obtain ⟨r, j, payload, rfl⟩ := hsend
          rw [h.flow_sendRaw hl ha ?_ hkept']
          · simp [Action.frames, quotesOf]
          · rintro rfl
            exact hw.inLoop j (by rw [ha.1]; exact List.mem_cons_self)
        · have hstay := h.loop_stays ha hup (fun r f hr => hread ⟨r, f, hr⟩)
            fun r j payload hs => hsend ⟨r, j, payload, hs⟩
          have hframes : a.frames = [] := by
            cases a with
            | read r f => exact absurd ⟨r, f, rfl⟩ hread
            | _ => rfl
          rw [State.flow, State.flow, hstay, hframes,
            hstream fun r payload hs => hsend ⟨r, i, payload, hs⟩]
          simp [quotesOf]
    rw [consumed_next ha, List.drop_append_of_le_length hle, hgrow, ← hflow, quotesOf, quotesOf,
      quotesOf, List.filterMap_append]
  · -- The response has just been read: nothing has been sent for the stream yet.
    have hconsumed := consumed_next ha
    rw [Action.frames] at hconsumed
    have hlength : (Lifecycle.next s (.read r (.response ticket (some n)))).consumed.length =
        s.consumed.length + 1 := by
      rw [hconsumed, List.length_append, List.length_singleton]
    have hw' := hw.next ha
    have hnotdone : ((Lifecycle.next s (.read r (.response ticket (some n)))).streams i).start ≠
        .done := by
      generalize (Lifecycle.next s (.read r (.response ticket (some n)))).streams i = v at hc
      cases hc with
      | same => exact fun hd => Start.noConfusion (hawait.symm.trans hd)
      | ended => exact fun hd => Start.noConfusion (hawait.symm.trans hd)
    have hhand : (Lifecycle.next s (.read r (.response ticket (some n)))).loop.inHand i = [] := by
      by_contra hne
      apply hnotdone
      refine hw'.inLoop i ?_
      generalize (Lifecycle.next s (.read r (.response ticket (some n)))).loop = l at hne
      cases l with
      | sending r j payload =>
        cases payload with
        | quotes q =>
          rw [Loop.inHand] at hne
          split at hne
          · subst j
            exact List.mem_cons_self
          · exact absurd rfl hne
        | other => exact absurd rfl hne
      | _ => exact absurd rfl hne
    rw [State.flow, hhand, (hw'.ok i).flow_eq_nil hnotdone,
      List.drop_eq_nil_of_le (le_of_eq hlength)]
    rfl

theorem next (h : Delivered s) (hw : Wired s) (hp : Posted s) (hk : Keyed s) (hl : Located s)
    (hup : Connected s a) (hC : QuotesFound s a) (ha : Enabled s a) :
    Delivered (next s a) :=
  ⟨(loopChange ha).serving h.serving hup.2, h.next_ids ha, h.next_ends hw ha,
    h.next_response hp ha, h.next_flow hw hp hk hl hup hC ha⟩

end Delivered

theorem delivered_init : Delivered init where
  serving := rfl
  ids _ h := by cases h
  ends _ h := by cases h
  response _ _ _ h := by cases h
  flow _ _ _ h := by cases h

/-! ## What the server has sent -/

/-- The frames that the server sends in a step. -/
def Action.sent : Action → List Message
  | .serverSend m => [m]
  | .accept ticket _ id => [.response ticket (some id)]
  | .carryOut ticket _ ok => [if ok then .response ticket none else .error ticket]
  | _ => []

/-- While the connection is up, what has been read and what is on the wire is what the server has
sent. -/
theorem sent_next {s : State} {a : Action} (ha : Enabled s a)
    (hserving : s.loop.reading? = some .serving) (hup : Connected s a) :
    (next s a).consumed ++ (next s a).wire = s.consumed ++ s.wire ++ a.sent := by
  have htail : ∀ {f : Message}, s.wire.head? = some f →
      s.consumed ++ [f] ++ s.wire.tail = s.consumed ++ s.wire := by
    intro f hf
    conv_rhs => rw [List.eq_cons_of_mem_head? hf]
    rw [List.append_assoc, List.singleton_append]
  have hc := mailChange ha
  change (next s a).mail.consumed ++ (next s a).mail.wire = _
  generalize (next s a).mail = m at hc
  cases hc with
  | same hstill =>
    cases a with
    | accept => cases hstill
    | carryOut => cases hstill
    | serverSend => cases hstill
    | _ => exact (List.append_nil _).symm
  | pushed hpushed =>
    cases a with
    | accept => cases hpushed
    | carryOut => cases hpushed
    | serverSend => cases hpushed
    | _ => exact (List.append_nil _).symm
  | taken _ hhead => exact (htail hhead).trans (List.append_nil _).symm
  | completed _ hhead => exact (htail hhead).trans (List.append_nil _).symm
  | left => exact absurd rfl hup.2
  | lost => exact absurd rfl hup.1
  | dialled hloop =>
    rw [hloop] at hserving
    cases hserving
  | resumeLost hloop =>
    rw [hloop] at hserving
    cases hserving
  | cleaned hloop =>
    rw [hloop] at hserving
    cases hserving
  | accepted => exact (List.append_assoc ..).symm
  | carriedOut => exact (List.append_assoc ..).symm
  | serverSent => exact (List.append_assoc ..).symm
  | _ => exact (List.append_nil _).symm

theorem exec_sent {s : State} {as : List Action} (hserving : s.loop.reading? = some .serving)
    (hv : system.Valid s as) (hup : system.Along Connected s as) :
    (system.exec s as).consumed ++ (system.exec s as).wire =
      s.consumed ++ s.wire ++ as.flatMap Action.sent := by
  induction as generalizing s with
  | nil => exact (List.append_nil _).symm
  | cons a as ih =>
    have hnext : (system.next s a).loop.reading? = some .serving :=
      (loopChange hv.1).serving hserving hup.1.2
    have hsent : (system.next s a).consumed ++ (system.next s a).wire =
        s.consumed ++ s.wire ++ a.sent := sent_next hv.1 hserving hup.1
    rw [Transition.System.exec_cons, ih hnext hv.2 hup.2, hsent, List.flatMap_cons,
      List.append_assoc]

/-! ## A quote before the registration -/

/-- The server answers the request for stream `0` and sends a quote at once; the loop reads both
before the stream is registered. -/
def earlyRun : List Action :=
  [.begin 0, .request 0, .dequeue true, .accept 0 0 7, .serverSend (.data 7 (.quotes 5)),
    .read .serving (.response 0 (some 7)), .read .serving (.data 7 (.quotes 5)),
    .receive 0 0 ⟨.ok (some 7), 1⟩, .register 0 7]

/-- The quote was sent after the start response, the owner has kept the stream and everything is
drained, but the quote has not been received. -/
theorem quote_before_registration_lost :
    system.Valid init earlyRun ∧ system.Along Connected init earlyRun ∧
      (system.exec init earlyRun).started 0 = some (7, 1) ∧
      (system.exec init earlyRun).Kept 0 ∧ Drained (system.exec init earlyRun) 0 ∧
      ((system.exec init earlyRun).streams 0).received ≠
        quotesOf 7 ((earlyRun.flatMap Action.sent).drop 1) :=
  ⟨by decide, by decide, by decide, by decide,
    ⟨by decide, by decide, by decide, by decide, by decide⟩, by decide⟩

/-! ## No quote is lost -/

/-- **No quote is lost, reordered or doubled.** In a run without a disconnect in which every quote
that is read finds the streams started under its id and kept by their owners, what the owner of such
a stream has received is a prefix of the quotes that the server has sent for the id after the start
response, which is the `m`-th frame, and all of them once everything in between is drained. -/
theorem no_quote_lost {as : List Action} (hv : system.Valid init as)
    (hup : system.Along Connected init as) (hC : system.Along QuotesFound init as) {i n m : ℕ}
    (hstarted : (system.exec init as).started i = some (n, m))
    (hkept : (system.exec init as).Kept i) :
    (∃ ticket, ((as.flatMap Action.sent).take m).getLast? = some (.response ticket (some n))) ∧
      ((system.exec init as).streams i).received <+:
        quotesOf n ((as.flatMap Action.sent).drop m) ∧
      (Drained (system.exec init as) i → ((system.exec init as).streams i).received =
        quotesOf n ((as.flatMap Action.sent).drop m)) := by
  have hboth : system.Along (fun s a => Connected s a ∧ QuotesFound s a) init as := hup.and hC
  have hinv : (Wired (system.exec init as) ∧ Posted (system.exec init as) ∧
      Keyed (system.exec init as) ∧ Located (system.exec init as)) ∧
        Delivered (system.exec init as) :=
    Transition.System.invariant_along
      (I := fun s => (Wired s ∧ Posted s ∧ Keyed s ∧ Located s) ∧ Delivered s)
      (fun s a ⟨⟨hw, hp, hk, hl⟩, hd⟩ hC ha => ⟨⟨hw.next ha, hp.next ha, hk.next hw ha, hl.next ha⟩,
        hd.next hw hp hk hl hC.1 hC.2 ha⟩)
      ⟨⟨wired_init, posted_init, keyed_init, located_init⟩, delivered_init⟩ hboth hv
  obtain ⟨hle, ticket, hlast⟩ := hinv.2.response i n m hstarted
  have hflow := hinv.2.flow i n m hstarted hkept
  have hsent : (system.exec init as).consumed ++ (system.exec init as).wire =
      as.flatMap Action.sent := exec_sent (s := init) rfl hv hup
  have hsplit : quotesOf n ((as.flatMap Action.sent).drop m) =
      (system.exec init as).flow i ++ quotesOf n (system.exec init as).wire := by
    rw [← hsent, List.drop_append_of_le_length hle, ← hflow, quotesOf, quotesOf, quotesOf,
      List.filterMap_append]
  rw [hsplit]
  refine ⟨⟨ticket, ?_⟩, ?_, ?_⟩
  · rwa [← hsent, List.take_append_of_le_length hle]
  · rw [State.flow, Stream.flow, List.append_assoc, List.append_assoc]
    exact List.prefix_append _ _
  · intro hd
    rw [State.flow, Stream.flow, hd.wire, hd.loop, hd.raw, hd.adapter, hd.quotes]
    simp [quotesOf]

/-- Two quotes go all the way to the owner. -/
def lateRun : List Action :=
  startRun ++ [.serverSend (.data 7 (.quotes 5)), .serverSend (.data 7 (.quotes 6)),
    .read .serving (.data 7 (.quotes 5)), .sendRaw .serving 0 (.quotes 5), .adapterRecv 0,
    .adapterForward 0 5, .recv 0, .read .serving (.data 7 (.quotes 6)),
    .sendRaw .serving 0 (.quotes 6), .adapterRecv 0, .adapterForward 0 6, .recv 0]

theorem no_quote_lost_lateRun :
    (∃ ticket, ((lateRun.flatMap Action.sent).take 1).getLast? =
        some (.response ticket (some 7))) ∧
      ((system.exec init lateRun).streams 0).received <+:
        quotesOf 7 ((lateRun.flatMap Action.sent).drop 1) ∧
      (Drained (system.exec init lateRun) 0 → ((system.exec init lateRun).streams 0).received =
        quotesOf 7 ((lateRun.flatMap Action.sent).drop 1)) :=
  no_quote_lost (by decide) (by decide) (by decide) (by decide) (by decide)

end Lifecycle

end TitanClient
