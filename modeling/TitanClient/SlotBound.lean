import TitanClient.StopRequests

/-!
# Open streams and slots

The server has at most as many streams open as the client holds slots, not counting those that a
stop request under way is about to close: as long as `resume_streams` finds the entry it has asked
for.

It need not. The owner may call `stop()`, or drop the handle, between a resume request and its
answer. The loop then finds the stream stopped, calls `on_end` and forgets the new id, and the stop
sequence has only the old ids to ask for. The slot is free and the stream stays open on the server.

A start can leave a stream behind as well. When the loop leaves its socket it fails the requests it
has written, and after a failed dial it serves the same socket again. If the request of a start was
among them, the start has given its slot back, and the server may open the stream all the same.

## Main results

* `State.Attended`, `Guarded` — who looks after an open stream until the server is asked to stop it
* `KeepsUp` — the runs in which the client keeps up with the ids of its streams
* `ended_turn_leaks`, `stop_during_resume_leaks` — the stream that stays open
* `given_up_start_leaks` — the stream that nobody has started
* `open_streams_hold_slots` — otherwise no more streams are open than there are slots held
-/

namespace TitanClient

namespace Lifecycle

/-! ## Who looks after an open stream -/

/-- Stream `i`, which is open under `n`, holds its slot, and whoever gives it back asks the server
to stop `n` before: its response is on the way, its start is about to register it, the loop moves
its entry to `n`, or `n` is the id in its cell and its stop sequence has yet to ask. -/
inductive State.Attended (s : State) (i n : ℕ) : Prop
  | opening {ticket : ℕ} (ho : s.Opening i ticket) (h : .response ticket (some n) ∈ s.wire)
  | starting (h : s.gapId i = some n)
  | moving (h : s.loop.moving = some (i, n)) (hask : (s.streams i).stopper.WillAsk n)
  | held (hdone : (s.streams i).start = .done) (hid : (s.streams i).effectiveId = n)
      (hwaits : ∀ oldId, (oldId, i) ∉ s.loop.snapshot)
      (hmoving : ∀ m, s.loop.moving ≠ some (i, m))
      (hslot : (s.streams i).slotReleased = false) (hask : (s.streams i).stopper.WillAsk n)

/-- A stream that the server has opened again, with the id it had and the one it has now. -/
structure Renewal where
  stream : ℕ
  oldId : ℕ
  newId : ℕ

/-- The answer to a resume request that the loop reads. -/
def Action.renewal : Action → Option Renewal
  | .read (.resuming oldId i ticket _) (.response t (some n)) =>
    if t = ticket then some ⟨i, oldId, n⟩ else none
  | _ => none

/-- When the answer to a resume request comes, the entry is still there and its stream has neither
been stopped nor lost its adapter; or the new stream is not open any more, or is about to be
closed. -/
def FindsEntry (s : State) (a : Action) : Prop :=
  ∀ e ∈ a.renewal, (e.newId, e.stream) ∈ s.openStreams →
    s.StopUnderWay e.newId ∨
      s.resumable.lookup e.oldId = some e.stream ∧ s.isEnded e.stream = false

instance (s : State) (a : Action) : Decidable (FindsEntry s a) :=
  inferInstanceAs (Decidable (∀ _ ∈ _, _ → _ ∨ _ ∧ _))

section

variable {s : State} {a : Action} {i n ticket : ℕ}

/-- A start that has not come to its end holds its slot. -/
theorem Wired.slot_of_starting (hw : Wired s) (hne : (s.streams i).start ≠ .done)
    (hne' : (s.streams i).start ≠ .failed) : (s.streams i).slotReleased = false := by
  obtain ⟨-, -, -, -, -, -, hstopped⟩ := (hw.ok i).unregistered hne
  by_contra hrel
  have := (hw.ok i).claimed hne' (Bool.not_eq_false _ ▸ hrel)
  cases hstopped.symm.trans this

/-- A frame stays on the wire until it is read. -/
theorem ServerChange.stays {f : Message} {wire : List Message} {opens : List (ℕ × ℕ)}
    (hc : ServerChange s a wire opens) (hf : f ∈ s.wire) (hread : ∀ r, a ≠ .read r f)
    (hopen : opens ≠ []) : f ∈ wire := by
  cases hc with
  | same => exact hf
  | taken hwire =>
    rw [hwire] at hf
    rcases List.mem_cons.mp hf with rfl | hf
    · exact absurd rfl (hread _)
    · exact hf
  | lost => exact hf
  | cut => exact absurd rfl hopen
  | accepted => exact List.mem_append_left _ hf
  | carriedOut => exact List.mem_append_left _ hf
  | sent => exact List.mem_append_left _ hf

/-- A start whose response is read goes into the gap. -/
theorem gapId_read (ht : Transit s) {r : Reading}
    (ha : Enabled s (.read r (.response ticket (some n))))
    (hstart : (s.streams i).start = .awaiting ticket) (hunanswered : s.answers ticket = none) :
    (next s (.read r (.response ticket (some n)))).gapId i = some n := by
  have hwire : .response ticket (some n) ∈ s.wire := List.mem_of_mem_head? ha.2
  have hpending : ticket ∈ s.pending := by
    rcases ht.posted.awaited ticket (Or.inl ⟨i, hstart⟩) with hans | hchannel | hpending
    · exact absurd hunanswered hans
    · have hdisjoint := (List.nodup_append.mp ht.apart.nodup).2.2
      refine absurd rfl (hdisjoint ticket hchannel ticket (List.mem_append_right _ ?_))
      exact List.mem_filterMap.mpr ⟨_, hwire, rfl⟩
    · exact hpending
  refine (gapId_awaiting (start_stays ht.wired ha hstart hunanswered)).mpr ?_
  have hm := mailChange ha
  change ∃ seen, (next s _).mail.answers ticket = some ⟨.ok (some n), seen⟩
  generalize (next s (.read r (.response ticket (some n)))).mail = m at hm
  cases hm with
  | same hstill => cases hstill
  | pushed hpushed => cases hpushed
  | taken hl _ hnone =>
    rcases hnone ticket _ rfl with hnot | ⟨oldId, j, rest, rfl⟩
    · exact absurd hpending hnot
    · -- The loop does not await the answer to a start.
      have hturn : s.loop.turn = some (oldId, j, ticket) := by
        rw [hl]
        rfl
      have hij := ht.tied.unique i j ticket (Or.inl ⟨hstart, hunanswered⟩)
        (Or.inr (Loop.turn_map.mpr ⟨_, hturn⟩))
      have hdone := ht.wired.inLoop j (Loop.mem_streams_of_turn hturn)
      rw [← hij] at hdone
      cases hdone.symm.trans hstart
  | completed _ _ hm =>
    cases hm
    exact ⟨_, Function.update_self ..⟩

/-- An answer is not replaced by another one. -/
theorem answer_stays (hp : Posted s) (ha : Enabled s a) {ans : Answer}
    (h : s.answers ticket = some ans) : (next s a).answers ticket = some ans := by
  have hnot : ticket ∉ s.channel.map Prod.fst ++ s.pending := by
    intro hmem
    cases h.symm.trans (hp.unanswered ticket hmem)
  have hm := mailChange ha
  change (next s a).mail.answers ticket = some ans
  generalize (next s a).mail = m at hm
  cases hm with
  | @unsent t r rest _ hchannel =>
    refine (if_neg fun hmem => hnot (List.mem_append_left _ ?_)).trans h
    rw [hchannel, List.mem_singleton.mp hmem]
    exact List.mem_cons_self
  | completed _ _ _ hpending =>
    refine (Function.update_of_ne ?_ _ _).trans h
    rintro rfl
    exact hnot (List.mem_append_right _ hpending)
  | left => exact (if_neg fun hmem => hnot (List.mem_append_right _ hmem)).trans h
  | cleaned => exact (if_neg fun hmem => hnot (List.mem_append_left _ hmem)).trans h
  | _ => exact h

/-- A start in the gap stays there until it registers its stream. -/
theorem gapId_stays (ht : Transit s) (ha : Enabled s a) (h : s.gapId i = some n) :
    (next s a).gapId i = some n ∨ a = .register i n := by
  have hlt := gapId_lt ht.wired h
  cases hs : (s.streams i).start with
  | awaiting ticket =>
    obtain ⟨seen, hans⟩ := (gapId_awaiting hs).mp h
    have hans' := answer_stays ht.posted ha hans
    have hawaits : ((next s a).streams i).start = .awaiting ticket →
        (next s a).gapId i = some n := fun hs' => (gapId_awaiting hs').mpr ⟨seen, hans'⟩
    left
    have hc := change ha i
    generalize hv : (next s a).streams i = v at hc
    rw [hv] at hawaits
    cases hc with
    | begun hcount => omega
    | requested hs' => cases hs.symm.trans hs'
    | startRefused hs' => cases hs.symm.trans hs'
    | answered hs' hans'' =>
      cases hs.symm.trans hs'
      cases hans.symm.trans hans''
      rw [State.gapId, hv]
    | denied hs' hstream =>
      cases hs.symm.trans hs'
      cases hans.symm.trans ha.2
      exact absurd rfl (hstream n)
    | registered hs' => cases hs.symm.trans hs'
    | failed hs' => cases hs.symm.trans hs'
    | _ => exact hawaits hs
  | registering id =>
    have hid : id = n := by
      rw [State.gapId, hs] at h
      exact Option.some.inj h
    subst hid
    have hregisters : ((next s a).streams i).start = .registering id →
        (next s a).gapId i = some id := by
      intro hs'
      rw [State.gapId, hs']
    have hc := change ha i
    generalize (next s a).streams i = v at hregisters hc
    cases hc with
    | begun hcount => omega
    | requested hs' => cases hs.symm.trans hs'
    | startRefused hs' => cases hs.symm.trans hs'
    | answered hs' => cases hs.symm.trans hs'
    | denied hs' => cases hs.symm.trans hs'
    | registered hs' =>
      cases hs.symm.trans hs'
      exact Or.inr rfl
    | failed hs' => cases hs.symm.trans hs'
    | _ => exact Or.inl (hregisters hs)
  | _ =>
    rw [State.gapId, hs] at h
    cases h

end

/-! ## What a step does to an open stream -/

/-- What the invariant of the open streams rests on. -/
structure Footing (s : State) : Prop where
  transit : Transit s
  keyed : Keyed s
  orderly : Orderly s
  served : Served s
  undisturbed : Undisturbed s
  heldUp : HeldUp s

/-- The client keeps up with the ids of its streams: the server gives none the old id of another one
that waits to be resumed, the loop finds the entry when the answer to a resume request comes, a stop
sequence gets to know the id the loop is about to store, stop requests are written, and no stream is
opened for a start whose request the loop has given up. -/
structure KeepsUp (s : State) (a : Action) : Prop where
  spares : SparesWaiting s a
  finds : FindsEntry s a
  loads : LoadsNewId s a
  written : StopsWritten s a
  waited : NoneGivenUp s a

instance (s : State) (a : Action) : Decidable (KeepsUp s a) :=
  decidable_of_iff
    (SparesWaiting s a ∧ FindsEntry s a ∧ LoadsNewId s a ∧ StopsWritten s a ∧ NoneGivenUp s a)
    ⟨fun ⟨hspares, hfinds, hloads, hwritten, hwaited⟩ =>
        ⟨hspares, hfinds, hloads, hwritten, hwaited⟩,
      fun h => ⟨h.spares, h.finds, h.loads, h.written, h.waited⟩⟩

section

variable {s : State} {a : Action} {i n : ℕ}

theorem footing_init : Footing init :=
  ⟨transit_init, keyed_init, orderly_init, served_init, undisturbed_init, heldUp_init⟩

namespace Footing

/-- A stop sequence goes on while its stream is open. -/
theorem willAsk (h : Footing s) (ha : Enabled s a) (hold : (n, i) ∈ s.openStreams)
    (hload : ∀ first, a = .stopReload i first →
      n ∈ stopIds first (s.streams i).effectiveId (s.streams i).streamId)
    (hask : (s.streams i).stopper.WillAsk n) :
    ((next s a).streams i).stopper.WillAsk n ∨ (next s a).StopUnderWay n :=
  willAsk_next ha (h.undisturbed.not_refuses h.transit.posted h.served.offline
    (List.ne_nil_of_mem hold)) hload hask

/-- The response of an open stream is on the way: it comes to the start or to the loop. -/
theorem opening_next (h : Footing s) (hC : KeepsUp s a) (ha : Enabled s a) {ticket : ℕ}
    (hold : (n, i) ∈ s.openStreams) (hopen : (n, i) ∈ (next s a).openStreams)
    (ho : s.Opening i ticket) (hf : .response ticket (some n) ∈ s.wire) :
    (next s a).StopUnderWay n ∨ (next s a).Attended i n := by
  have ht := h.transit
  by_cases hread : ∃ r m reply, a = .read r m ∧ m.answer = some (ticket, reply)
  · obtain ⟨r, m, reply, rfl, hans⟩ := hread
    have hwire : s.wire = m :: s.wire.tail := List.eq_cons_of_mem_head? ha.2
    have hm : m = .response ticket (some n) := by
      rw [hwire] at hf
      rcases List.mem_cons.mp hf with hm | hf
      · exact hm.symm
      · exact absurd hans (ht.apart.head_answer hwire hf rfl)
    subst hm
    rcases ho with ⟨hstart, hunanswered⟩ | hturn
    · exact Or.inr (.starting (gapId_read ht ha hstart hunanswered))
    · obtain ⟨oldId, hturn⟩ := Loop.turn_map.mp hturn
      obtain ⟨rest, hr⟩ := Loop.turn_eq_some.mp hturn
      rw [ha.1] at hr
      cases hr
      rcases hC.finds ⟨i, oldId, n⟩ (if_pos rfl) hold with hunder | ⟨hlook, hkept⟩
      · exact Or.inl (stopUnderWay_next h.served.offline hC.written ha hunder hopen)
      · have hidle := (ht.wired.kept (ht.wired.mapped oldId i hlook) hkept).2
        right
        rw [next_moved hlook hkept]
        refine .moving rfl ?_
        change (s.streams i).stopper.WillAsk n
        rw [hidle]
        trivial
  · have hread' : ∀ r m reply, a = .read r m → m.answer ≠ some (ticket, reply) :=
      fun r m reply hr hans => hread ⟨r, m, reply, hr, hans⟩
    refine Or.inr (.opening ?_ ((serverChange ha).stays hf
      (fun r hr => hread' r _ _ hr rfl) (List.ne_nil_of_mem hopen)))
    refine ht.opening_stays ha ho (Tied.mem_written_wire hf rfl) hread' ?_
      (hC.waited.not_pending ha ho hold)
    rintro oldId rest rfl
    cases hopen

/-- A start that is about to register an open stream does so under its id. -/
theorem starting_next (h : Footing s) (ha : Enabled s a) (hgap : s.gapId i = some n) :
    (next s a).Attended i n := by
  have hw := h.transit.wired
  rcases gapId_stays h.transit ha hgap with hstays | rfl
  · exact .starting hstays
  · have hne : (s.streams i).start ≠ .done := by
      rw [ha.1]
      nofun
    have hidle := ((hw.ok i).unregistered hne).2.2.1
    have hslot := hw.slot_of_starting hne (by rw [ha.1]; nofun)
    have hnot : i ∉ s.loop.streams := fun hmem => hne (hw.inLoop i hmem)
    have hself : (next s (.register i n)).streams i = { s.streams i with
        start := .done, streamId := n, effectiveId := n, raw := [], adapter := .receiving,
        quotes := [], received := [], handle := .live } := State.setStream_streams_self ..
    refine .held ?_ ?_ (fun oldId hmem => hnot (Loop.mem_streams_of_snapshot hmem))
      (fun m hm => hnot (Loop.mem_streams_of_moving hm)) ?_ ?_
    · rw [hself]
    · rw [hself]
    · rw [hself]
      exact hslot
    · rw [hself]
      change (s.streams i).stopper.WillAsk n
      rw [hidle]
      trivial

/-- The loop puts an entry back under its new id, which is then in the cell of its stream. -/
theorem moving_next (h : Footing s) (hC : KeepsUp s a) (ha : Enabled s a)
    (hold : (n, i) ∈ s.openStreams) (hopen : (n, i) ∈ (next s a).openStreams)
    (hm : s.loop.moving = some (i, n)) (hask : (s.streams i).stopper.WillAsk n) :
    (next s a).StopUnderWay n ∨ (next s a).Attended i n := by
  by_cases hunder : s.StopUnderWay n
  · exact Or.inl (stopUnderWay_next h.served.offline hC.written ha hunder hopen)
  · have hload : ∀ first, a = .stopReload i first →
        n ∈ stopIds first (s.streams i).effectiveId (s.streams i).streamId := by
      rintro first rfl
      exact (hC.loads (i, first) rfl (i, n) hm rfl hold).resolve_left hunder
    have hstays : (next s a).loop.moving = some (i, n) →
        (next s a).StopUnderWay n ∨ (next s a).Attended i n := by
      intro hm'
      rcases h.willAsk ha hold hload hask with hask' | hunder'
      · exact Or.inr (.moving hm' hask')
      · exact Or.inl hunder'
    have hc := loopChange ha
    generalize hl : (Lifecycle.next s a).loop = l at hstays hc
    cases hc with
    | same => exact hstays hm
    | stored hloop =>
      rw [hloop] at hm
      exact hstays hm
    | @inserted j newId rest hloop =>
      have hj : j = i ∧ newId = n := by
        rw [hloop] at hm
        cases hm
        exact ⟨rfl, rfl⟩
      obtain ⟨rfl, rfl⟩ := hj
      have hdone := h.transit.wired.inLoop j (Loop.mem_streams_of_moving hm)
      refine Or.inr (.held hdone (h.keyed.inserting j newId rest hloop).1 (fun oldId hmem => ?_)
        (fun m => ?_) (h.heldUp j (Or.inr ⟨newId, hm⟩)).1 hask)
      · refine h.orderly.moving j newId hm ?_
        rw [hl] at hmem
        rw [hloop]
        exact List.mem_map_of_mem (f := Prod.snd) hmem
      · rw [hl]
        nofun
    | _ hloop =>
      rw [hloop] at hm
      cases hm

/-- Nobody gives back the slot of an open stream before its stop sequence has asked the server to
stop it. -/
private theorem slot_next (h : Footing s) (hcalls : OrdinaryCalls s a) (ha : Enabled s a)
    (hold : (n, i) ∈ s.openStreams) (hopen : (n, i) ∈ (next s a).openStreams)
    (hdone : (s.streams i).start = .done) (hid : (s.streams i).effectiveId = n)
    (hwaits : ∀ oldId, (oldId, i) ∉ s.loop.snapshot) (hslot : (s.streams i).slotReleased = false)
    (hask : (s.streams i).stopper.WillAsk n) : ((next s a).streams i).slotReleased = false := by
  -- No entry that waits has the id of an open stream.
  have hspared : ∀ {oldId j : ℕ}, (oldId, j) ∈ s.loop.snapshot →
      s.resumable.lookup oldId ≠ some i := by
    intro oldId j hmem hlook
    have hid' : oldId = n := (h.keyed.keys oldId i hlook).symm.trans hid
    subst hid'
    cases h.served.spared oldId j i hmem hold
    exact hwaits oldId hmem
  by_contra hrel
  rcases released_next ha (Bool.not_eq_false _ ▸ hrel) with hreleased | hr
  · cases hslot.symm.trans hreleased
  · cases hr with
    | failed hfailing => cases hdone.symm.trans hfailing
    | dropped => cases hcalls
    | stopped hreleasing =>
      rw [hreleasing] at hask
      exact hask
    | @ended r id hlook =>
      -- The `StreamEnd` would be older than the response, which has been read.
      have hid' : id = n := (h.keyed.keys id i hlook).symm.trans hid
      have holder := h.served.older n i hold
      have hwire : s.wire = .ended n :: s.wire.tail := by
        rw [← hid']
        exact List.eq_cons_of_mem_head? ha.2
      obtain ⟨f, -, ticket, -, ⟨hstart, -⟩ | hturn⟩ := holder [] s.wire.tail hwire
      · cases hdone.symm.trans hstart
      · obtain ⟨oldId, hturn⟩ := Loop.turn_map.mp hturn
        exact hwaits oldId (Loop.mem_snapshot_of_turn hturn)
    | @answered oldId j ticket rest m reply hlook =>
      have hl : s.loop = .reading (.resuming oldId j ticket rest) := ha.1
      exact hspared (by rw [hl]; exact List.mem_cons_self) hlook
    | @resumed oldId j rest sent hlook =>
      have hl : s.loop = .resuming ((oldId, j) :: rest) := ha
      exact hspared (by rw [hl]; exact List.mem_cons_self) hlook
    | cleared => exact h.undisturbed.not_clearing _ ha.1
    | cleaned =>
      -- The loop takes its connection with it.
      cases (show (n, i) ∈ [] from hopen)

/-- A registered stream keeps its id until the next connection. -/
theorem held_next (h : Footing s) (hcalls : OrdinaryCalls s a) (ha : Enabled s a)
    (hold : (n, i) ∈ s.openStreams) (hopen : (n, i) ∈ (next s a).openStreams)
    (hdone : (s.streams i).start = .done) (hid : (s.streams i).effectiveId = n)
    (hwaits : ∀ oldId, (oldId, i) ∉ s.loop.snapshot) (hmoving : ∀ m, s.loop.moving ≠ some (i, m))
    (hslot : (s.streams i).slotReleased = false) (hask : (s.streams i).stopper.WillAsk n) :
    (next s a).StopUnderWay n ∨ (next s a).Attended i n := by
  have hlt := h.transit.wired.lt_of_done hdone
  have hload : ∀ first, a = .stopReload i first →
      n ∈ stopIds first (s.streams i).effectiveId (s.streams i).streamId := by
    rintro first -
    rw [hid]
    exact mem_stopIds_effectiveId ..
  rcases h.willAsk ha hold hload hask with hask' | hunder
  · refine Or.inr (.held ((change ha i).done hlt hdone) ?_ (fun oldId hmem => ?_) (fun m hm => ?_)
      (h.slot_next hcalls ha hold hopen hdone hid hwaits hslot hask) hask')
    · refine ((change ha i).effectiveId hlt hdone ?_).trans hid
      rintro newId rest rfl
      refine hmoving newId ?_
      rw [show s.loop = .storing i newId rest from ha]
      rfl
    · by_cases hsnap : ∃ order, a = .snapshot order
      · obtain ⟨order, rfl⟩ := hsnap
        rw [(h.served.offline.fresh ha.1).1] at hold
        cases hold
      · have hsub := (loopChange ha).snapshot_sublist fun order ho => hsnap ⟨order, ho⟩
        exact hwaits oldId (hsub.subset hmem)
    · rcases (loopChange ha).moving hm with hm | ⟨oldId, j, ticket, rest, hl, rfl, -, hlook, -⟩
      · exact hmoving m hm
      · -- The entry found under the old id would be that of the stream whose turn it is.
        have hid' : oldId = n := (h.keyed.keys oldId i hlook).symm.trans hid
        subst hid'
        have hmem : (oldId, j) ∈ s.loop.snapshot := by
          rw [hl]
          exact List.mem_cons_self
        cases h.served.spared oldId j i hmem hold
        exact hwaits oldId hmem
  · exact Or.inl hunder

theorem next (h : Footing s) (hserver : Server s a) (hcalls : OrdinaryCalls s a)
    (hspares : SparesWaiting s a) (hwaited : NoneGivenUp s a) (ha : Enabled s a) :
    Footing (Lifecycle.next s a) where
  transit := h.transit.next hserver.1.2 ha
  keyed := h.keyed.next h.transit.wired ha
  orderly := h.orderly.next h.transit.wired h.keyed ha
  served := h.served.next h.transit h.orderly hserver hspares hwaited ha
  undisturbed := h.undisturbed.next hcalls ha
  heldUp := h.heldUp.next h.transit h.keyed h.orderly h.served h.undisturbed hcalls ha

end Footing

end

/-! ## Who holds the slot -/

/-- Every open stream has somebody who looks after it, or a stop request for it is under way. -/
def Guarded (s : State) : Prop :=
  ∀ n i, (n, i) ∈ s.openStreams → s.StopUnderWay n ∨ s.Attended i n

section

variable {s : State} {a : Action} {i n : ℕ}

theorem Guarded.next (h : Guarded s) (hf : Footing s) (hcalls : OrdinaryCalls s a)
    (hC : KeepsUp s a) (ha : Enabled s a) : Guarded (next s a) := by
  intro n i hopen
  rcases (serverChange ha).opened hopen with hold | ⟨ticket, rfl, hasked⟩
  · rcases h n i hold with hunder | hattended
    · exact Or.inl (stopUnderWay_next hf.served.offline hC.written ha hunder hopen)
    · cases hattended with
      | opening ho hresponse => exact hf.opening_next hC ha hold hopen ho hresponse
      | starting hgap => exact Or.inr (hf.starting_next ha hgap)
      | moving hm hask => exact hf.moving_next hC ha hold hopen hm hask
      | held hdone hid hwaits hmoving hslot hask =>
        exact hf.held_next hcalls ha hold hopen hdone hid hwaits hmoving hslot hask
  · have ho := hf.transit.tied.opening ticket i hasked (hC.waited.1 _ rfl)
    have hopening := hf.transit.opening_stays ha ho (Tied.mem_written_toServer hasked)
      nofun nofun nofun
    exact Or.inr (.opening hopening (List.mem_append_right _ List.mem_cons_self))

namespace Footing

/-- A stream that is looked after holds its slot. -/
theorem slot (h : Footing s) (hn : s.Attended i n) :
    i < s.streamCount ∧ (s.streams i).slotReleased = false := by
  have hw := h.transit.wired
  have hres : s.loop.Resumes i → i < s.streamCount ∧ (s.streams i).slotReleased = false :=
    fun hres => ⟨hw.lt_of_done (hw.inLoop i hres.mem_streams), (h.heldUp i hres).1⟩
  have hbegun : (s.streams i).start ≠ .idle → i < s.streamCount := by
    intro hne
    by_contra hle
    exact hne (by rw [hw.unused i (Nat.not_lt.mp hle)])
  cases hn with
  | opening ho =>
    rcases ho with ⟨hstart, -⟩ | hturn
    · refine ⟨hbegun ?_, hw.slot_of_starting ?_ ?_⟩ <;> rw [hstart] <;> nofun
    · obtain ⟨oldId, hturn⟩ := Loop.turn_map.mp hturn
      exact hres (Or.inl ⟨oldId, _, hturn⟩)
  | starting hgap =>
    refine ⟨gapId_lt hw hgap, ?_⟩
    rcases start_of_gapId hgap with ⟨ticket, hstart⟩ | hstart
    · exact hw.slot_of_starting (by rw [hstart]; nofun) (by rw [hstart]; nofun)
    · exact hw.slot_of_starting (by rw [hstart]; nofun) (by rw [hstart]; nofun)
  | moving hm => exact hres (Or.inr ⟨n, hm⟩)
  | held hdone _ _ _ hslot => exact ⟨hw.lt_of_done hdone, hslot⟩

theorem start_of_turn (h : Footing s) {oldId ticket : ℕ}
    (hturn : s.loop.turn = some (oldId, i, ticket)) : (s.streams i).start = .done :=
  h.transit.wired.inLoop i (Loop.mem_streams_of_turn hturn)

theorem start_of_moving (h : Footing s) (hm : s.loop.moving = some (i, n)) :
    (s.streams i).start = .done :=
  h.transit.wired.inLoop i (Loop.mem_streams_of_moving hm)

/-- A stream is opened, or opened again, by one request at a time. -/
theorem opening_unique (h : Footing s) {ticket ticket' : ℕ} (ho : s.Opening i ticket)
    (ho' : s.Opening i ticket') : ticket = ticket' := by
  rcases ho with ⟨hstart, -⟩ | hturn
  · rcases ho' with ⟨hstart', -⟩ | hturn'
    · cases hstart.symm.trans hstart'
      rfl
    · obtain ⟨oldId, hturn'⟩ := Loop.turn_map.mp hturn'
      cases (h.start_of_turn hturn').symm.trans hstart
  · rcases ho' with ⟨hstart', -⟩ | hturn'
    · obtain ⟨oldId, hturn⟩ := Loop.turn_map.mp hturn
      cases (h.start_of_turn hturn).symm.trans hstart'
    · cases hturn.symm.trans hturn'
      rfl

/-- A stream whose start is over is not in the gap. -/
theorem done_not_starting (hdone : (s.streams i).start = .done) : s.gapId i ≠ some n := by
  intro hgap
  rcases start_of_gapId hgap with ⟨ticket, hstart⟩ | hstart
  · cases hdone.symm.trans hstart
  · cases hdone.symm.trans hstart

/-- A start whose response is on the way is not in the gap yet. -/
theorem opening_not_starting (h : Footing s) {ticket : ℕ} (ho : s.Opening i ticket) :
    s.gapId i ≠ some n := by
  intro hgap
  rcases ho with ⟨hstart, hnone⟩ | hturn
  · obtain ⟨seen, hans⟩ := (gapId_awaiting hstart).mp hgap
    cases hnone.symm.trans hans
  · obtain ⟨oldId, hturn⟩ := Loop.turn_map.mp hturn
    exact done_not_starting (h.start_of_turn hturn) hgap

/-- While the response is on the way the entry is not being moved. -/
theorem opening_not_moving (h : Footing s) {ticket : ℕ} (ho : s.Opening i ticket) :
    s.loop.moving ≠ some (i, n) := by
  intro hm
  rcases ho with ⟨hstart, -⟩ | hturn
  · cases (h.start_of_moving hm).symm.trans hstart
  · obtain ⟨oldId, hturn⟩ := Loop.turn_map.mp hturn
    cases (Loop.moving_of_turn hturn).symm.trans hm

/-- A stream that is opened although its start is over has its turn of `resume_streams`. -/
theorem opening_again {ticket : ℕ} (ho : s.Opening i ticket) (hdone : (s.streams i).start = .done) :
    ∃ oldId, (oldId, i) ∈ s.loop.snapshot := by
  rcases ho with ⟨hstart, -⟩ | hturn
  · cases hdone.symm.trans hstart
  · obtain ⟨oldId, hturn⟩ := Loop.turn_map.mp hturn
    exact ⟨oldId, Loop.mem_snapshot_of_turn hturn⟩

/-- A stream is looked after under one id. -/
theorem attended_unique (h : Footing s) {m : ℕ} (hn : s.Attended i n) (hm : s.Attended i m) :
    n = m := by
  cases hn with
  | opening ho hf =>
    cases hm with
    | opening ho' hf' =>
      cases h.opening_unique ho ho'
      cases h.transit.apart.answer_unique hf hf' rfl rfl
      rfl
    | starting hgap => exact absurd hgap (h.opening_not_starting ho)
    | moving hk => exact absurd hk (h.opening_not_moving ho)
    | held hdone _ hwaits =>
      obtain ⟨oldId, hmem⟩ := opening_again ho hdone
      exact absurd hmem (hwaits oldId)
  | starting hgap =>
    cases hm with
    | opening ho hf => exact absurd hgap (h.opening_not_starting ho)
    | starting hgap' => exact Option.some.inj (hgap.symm.trans hgap')
    | moving hk => exact absurd hgap (done_not_starting (h.start_of_moving hk))
    | held hdone => exact absurd hgap (done_not_starting hdone)
  | moving hk =>
    cases hm with
    | opening ho hf => exact absurd hk (h.opening_not_moving ho)
    | starting hgap => exact absurd hgap (done_not_starting (h.start_of_moving hk))
    | moving hk' =>
      cases hk.symm.trans hk'
      rfl
    | held _ _ _ hnot => exact absurd hk (hnot n)
  | held hdone hid hwaits hnot =>
    cases hm with
    | opening ho hf =>
      obtain ⟨oldId, hmem⟩ := opening_again ho hdone
      exact absurd hmem (hwaits oldId)
    | starting hgap => exact absurd hgap (done_not_starting hdone)
    | moving hk => exact absurd hk (hnot m)
    | held _ hid' => exact hid.symm.trans hid'

/-- The open streams that nobody has asked to stop have different streams of the client behind them,
which hold their slots. -/
theorem unstopped_le (h : Footing s) (hg : Guarded s) (hcount : Counted s) :
    s.unstopped.length ≤ s.activeCount := by
  have hattended : ∀ e ∈ s.unstopped, s.Attended e.2 e.1 := by
    rintro ⟨n, i⟩ he
    obtain ⟨hopen, hnot⟩ := List.mem_filter.mp he
    exact (hg n i hopen).resolve_left (of_decide_eq_true hnot)
  have hnodup : (s.unstopped.map Prod.snd).Nodup := by
    refine List.Nodup.map_on ?_ ((List.Nodup.of_map Prod.fst h.served.nodup).filter _)
    rintro ⟨n, i⟩ he ⟨m, j⟩ he' hij
    have hij' : i = j := hij
    subst hij'
    have hid : n = m := h.attended_unique (hattended (n, i) he) (hattended (m, i) he')
    rw [hid]
  rw [hcount, State.unreleased, ← List.length_map (f := Prod.snd)]
  refine Tally.length_le_count hnodup fun i hi => ?_
  obtain ⟨e, he, rfl⟩ := List.mem_map.mp hi
  exact h.slot (hattended e he)

end Footing

end

/-! ## Runs -/

theorem guarded_init : Guarded init := fun _ _ h => by cases h

theorem exec_guarded {as : List Action} (hv : system.Valid init as)
    (hserver : system.Along Server init as) (hcalls : system.Along OrdinaryCalls init as)
    (hC : system.Along KeepsUp init as) :
    Footing (system.exec init as) ∧ Guarded (system.exec init as) :=
  Transition.System.invariant_along (I := fun s => Footing s ∧ Guarded s)
    (fun _ _ h hC ha => ⟨h.1.next hC.1 hC.2.1 hC.2.2.spares hC.2.2.waited ha,
      h.2.next h.1 hC.2.1 hC.2.2 ha⟩)
    ⟨footing_init, guarded_init⟩ (hserver.and (hcalls.and hC)) hv

/-! ## A stop between a resume request and its answer -/

/-- Whenever the stream has ended by the time the answer comes, its slot is given back while it is
open under the new id, which nobody asks the server to stop. -/
theorem ended_turn_leaks {s : State} {oldId i ticket n : ℕ} {rest : List (ℕ × ℕ)}
    (hlook : s.resumable.lookup oldId = some i) (hended : s.isEnded i = true)
    (hopen : (n, i) ∈ s.openStreams) (hunder : ¬s.StopUnderWay n) :
    ((next s (.read (.resuming oldId i ticket rest)
        (.response ticket (some n)))).streams i).slotReleased = true ∧
      (n, i) ∈ (next s (.read (.resuming oldId i ticket rest)
        (.response ticket (some n)))).unstopped := by
  have hlook' : (s.taken (.response ticket (some n))).resumable.lookup oldId = some i := hlook
  have hended' : (s.taken (.response ticket (some n))).isEnded i = true := hended
  have hnext : next s (.read (.resuming oldId i ticket rest) (.response ticket (some n))) =
      { ((s.taken (.response ticket (some n))).unregister oldId).onEnd i with
        loop := .resuming rest } := by
    rw [next, State.take, if_pos rfl, State.resumeAnswered, State.takeOut, hlook']
    exact if_pos hended'
  rw [hnext]
  refine ⟨?_, ?_⟩
  · change ((State.onEnd _ i).streams i).slotReleased = true
    rw [State.onEnd_streams, if_pos rfl]
    rfl
  · rw [State.onEnd_eq]
    exact List.mem_filter.mpr ⟨hopen, decide_eq_true hunder⟩

/-- Stream `0` is to be resumed. The owner calls `stop()` while the answer is on its way, and the
server opens the stream again under `8`; the stop sequence knows only `7`. -/
def stopDuringResumeRun : List Action :=
  startRun ++ [.leave, .decide false, .dial true, .snapshot [(7, 0)], .resume 7 0 [] true, .stop 0,
    .stopLoad 0, .stopReload 0 7, .accept 1 0 8, .read (.resuming 7 0 1 []) (.response 1 (some 8)),
    .resumed, .stopRequest 0 7 [], .dequeue true, .carryOut 2 (.stopStream 7) true,
    .read .serving (.response 2 none), .stopReceive 0 2 [7], .stopUnregister 0 7 [],
    .stopRelease 0, .stopReturn 0]

/-- The loop leaves its socket while the request of a start is on its way, and comes back to it
after a failed dial. The start has failed by then, and the server opens the stream. -/
def givenUpStartRun : List Action :=
  [.begin 0, .request 0, .dequeue true, .leave, .decide false, .receive 0 0 ⟨.failed, 0⟩, .fail 0,
    .dial false, .accept 0 0 7, .read .serving (.response 0 (some 7))]

/-- **The stream that nobody has started.** The start has given its slot back, its response is read
by nobody, and the stream is open on the server. -/
theorem given_up_start_leaks :
    system.Valid init givenUpStartRun ∧ system.Along Server init givenUpStartRun ∧
      system.Along OrdinaryCalls init givenUpStartRun ∧
      ((system.exec init givenUpStartRun).streams 0).start = .failed ∧
      (system.exec init givenUpStartRun).toServer = [] ∧
      (system.exec init givenUpStartRun).wire = [] ∧
      (system.exec init givenUpStartRun).unstopped = [(7, 0)] ∧
      (system.exec init givenUpStartRun).activeCount = 0 :=
  ⟨by decide, by decide, by decide, by decide, by decide, by decide, by decide, by decide⟩

/-! ## Otherwise -/

/-- Two streams are resumed under new ids, and the first is stopped once its new id is stored: the
stop request with that id is on its way. -/
def stopInTimeRun : List Action :=
  startRun ++ [.begin 1, .request 1, .dequeue true, .accept 1 1 9,
    .read .serving (.response 1 (some 9)), .receive 1 1 ⟨.ok (some 9), 2⟩, .register 1 9,
    .leave, .decide false, .dial true, .snapshot [(7, 0), (9, 1)], .resume 7 0 [(9, 1)] true,
    .accept 2 0 8, .read (.resuming 7 0 2 [(9, 1)]) (.response 2 (some 8)), .store 0 8 [(9, 1)],
    .stop 0, .stopLoad 0, .insert 0 8 [(9, 1)], .resume 9 1 [] true, .accept 3 1 5,
    .read (.resuming 9 1 3 []) (.response 3 (some 5)), .store 1 5 [], .insert 1 5 [], .resumed,
    .stopReload 0 8, .stopRequest 0 8 [7], .dequeue true]

end Lifecycle

end TitanClient
