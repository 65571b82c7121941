import TitanClient.Arrival
import TitanClient.ResumptionKept

/-!
# Resumption among other frames

Between a resume request and its answer the socket may yield anything else: answers to other
requests, data and ends of streams that were resumed before, what cannot be decoded, control frames.
Ends take entries out of the map that the loop is still rewriting. Here the connection stays up, and
the outcome is read off from what happened: the owners' events, the frames and the answers, in the
order in which the loop met them. No other task writes the map, so that scripts have no such events.

A stream that has ended before its turn gets no request, so nothing that a script says about it
happens. `Script.trace` is what does.

## Main results

* `Accepted` — the server has opened the stream again, its owner had not given it up by then, and it
  has not been ended since
* `Standing` — resumed, ended and waiting entries, at every point of the loop
* `resume_streams_outcome` — the map holds the accepted streams, each under the id of its answer,
  and every other stream has released its slot once
-/

namespace TitanClient

namespace Resumption

variable {ρ : Type}

/-! ## Scripts -/

/-- How the server answers a resume request. -/
inductive Answer
  | stream (newId : ℕ)
  | noStream
  | refused
  deriving DecidableEq

/-- The frame that does. -/
def Answer.frame (requestId : ℕ) : Answer → Incoming
  | .stream newId => .response requestId (some newId)
  | .noStream => .response requestId none
  | .refused => .error requestId

/-- A frame that may come before the answer to `requestId`: it answers another request, ends no
stream under an `old` id, or has nothing to do with either. -/
def Incoming.Foreign (requestId : ℕ) (old : List ℕ) : Incoming → Prop
  | .response id _ => id ≠ requestId
  | .error id => id ≠ requestId
  | .streamEnd id => id ∉ old
  | .close => False
  | .failed => False
  | .eof => False
  | _ => True

/-- An event that may come before the answer. No other task inserts or removes an entry. -/
def Event.Foreign (requestId : ℕ) (old : List ℕ) : Event ρ → Prop
  | .task (.owner _) => True
  | .task _ => False
  | .frame f => f.Foreign requestId old

/-- For each entry, named by its old id: what owners do before its turn, what happens until its
request is answered, and the answer. -/
structure Script (ρ : Type) where
  before : ℕ → List OwnerEvent
  waiting : ℕ → ℕ → List (Event ρ)
  answer : ℕ → Answer

/-- The frames before an answer are foreign, and the new ids are fresh. -/
structure Script.Proper (w : Script ρ) (old : List ℕ) : Prop where
  foreign : ∀ oldId requestId, ∀ ev ∈ w.waiting oldId requestId, ev.Foreign requestId old
  fresh : ∀ oldId ∈ old, ∀ newId, w.answer oldId = .stream newId → newId ∉ old
  apart : ∀ oldId ∈ old, ∀ oldId' ∈ old, ∀ newId, w.answer oldId = .stream newId →
    w.answer oldId' = .stream newId → oldId = oldId'

/-- The turn of an entry. -/
def Script.turn (w : Script ρ) (oldId : ℕ) : Turn ρ where
  before := (w.before oldId).map .owner
  events := fun requestId =>
    w.waiting oldId requestId ++ [.frame ((w.answer oldId).frame requestId)]

/-! ## What happens -/

/-- What the loop meets: an event, or the answer to the request of an entry. -/
inductive Happening (ρ : Type)
  | event (ev : Event ρ)
  | answer (oldId : ℕ) (a : Answer)
  deriving DecidableEq

/-- What happens in one turn. -/
def Script.turnTrace (w : Script ρ) (s : State ρ) (e : Entry ρ) : List (Happening ρ) :=
  let t := (w.before e.1).foldl State.owner s
  (w.before e.1).map (fun o => .event (.task (.owner o))) ++
    if t.isEnded e.2.stream then []
    else (w.waiting e.1 t.requestIdCounter).map .event ++ [.answer e.1 (w.answer e.1)]

/-- What happens in the turns of the given entries. -/
def Script.traceFrom (w : Script ρ) : State ρ → List (Entry ρ) → List (Happening ρ)
  | _, [] => []
  | s, e :: rest =>
    w.turnTrace s e ++ ((resumeTurn s e (w.turn e.1)).map fun t => w.traceFrom t rest).getD []

/-- What happens in `resume_streams`. -/
def Script.trace (w : Script ρ) (s : State ρ) (order : List (Entry ρ)) : List (Happening ρ) :=
  w.traceFrom { s with abandoned := s.isEnded } order

/-- The stream had ended when `resume_streams` began, or its owner has stopped or closed it. -/
def GivenUp (s : State ρ) (past : List (Happening ρ)) (i : ℕ) : Prop :=
  s.isEnded i = true ∨ ∃ o : OwnerEvent, o.stream = i ∧ .event (.task (.owner o)) ∈ past

/-- The server has opened the stream of `e` again under `k`, when it was not given up, and has not
ended it since. -/
def Accepted (s : State ρ) (trace : List (Happening ρ)) (e : Entry ρ) (k : ℕ) : Prop :=
  ∃ past future, trace = past ++ .answer e.1 (.stream k) :: future ∧
    ¬GivenUp s past e.2.stream ∧ .event (.frame (.streamEnd k)) ∉ future

/-- The outcome. No old id is left; the map holds the accepted streams, under the ids of their
answers, which their owners know; these have their slots, and the others have released theirs, by
one call of `on_end`. -/
structure Resumed (s t : State ρ) (order : List (Entry ρ)) (trace : List (Happening ρ)) : Prop where
  old : ∀ e ∈ order, t.streams.lookup e.1 = none
  holds : ∀ k r, t.streams.lookup k = some r ↔ ∃ e ∈ order, e.2 = r ∧ Accepted s trace e k
  effectiveId : ∀ e ∈ order, ∀ k, Accepted s trace e k → t.effectiveId e.2.stream = k
  held : ∀ e ∈ order, ∀ k, Accepted s trace e k → Held s t e.2.stream
  released : ∀ e ∈ order, (∀ k, ¬Accepted s trace e k) →
    t.slotReleased e.2.stream = true ∧ t.onEndCalls e.2.stream = s.onEndCalls e.2.stream + 1

/-! ## Traces -/

section

variable {s : State ρ} {past : List (Happening ρ)} {e : Entry ρ} {k : ℕ}

theorem givenUp_append {h : Happening ρ} {i : ℕ} : GivenUp s (past ++ [h]) i ↔
    GivenUp s past i ∨ ∃ o : OwnerEvent, o.stream = i ∧ h = .event (.task (.owner o)) := by
  constructor
  · rintro (hs | ⟨o, ho, hmem⟩)
    · exact Or.inl (Or.inl hs)
    · rcases List.mem_append.mp hmem with hmem | hmem
      · exact Or.inl (Or.inr ⟨o, ho, hmem⟩)
      · exact Or.inr ⟨o, ho, (List.mem_singleton.mp hmem).symm⟩
  · rintro ((hs | ⟨o, ho, hmem⟩) | ⟨o, ho, rfl⟩)
    · exact Or.inl hs
    · exact Or.inr ⟨o, ho, List.mem_append_left _ hmem⟩
    · exact Or.inr ⟨o, ho, List.mem_append_right _ List.mem_cons_self⟩

/-- An event can only end a stream. -/
theorem accepted_append_event {ev : Event ρ} : Accepted s (past ++ [.event ev]) e k ↔
    Accepted s past e k ∧ ev ≠ .frame (.streamEnd k) := by
  constructor
  · rintro ⟨p, f, heq, hup, hend⟩
    rcases Arrival.append_singleton_eq_append_cons.mp heq with ⟨-, -, hne⟩ | ⟨f', rfl, hpast⟩
    · cases hne
    · rw [List.mem_append, not_or] at hend
      refine ⟨⟨p, f', hpast, hup, hend.1⟩, fun hev => hend.2 ?_⟩
      rw [hev]
      exact List.mem_cons_self
  · rintro ⟨⟨p, f, rfl, hup, hend⟩, hev⟩
    refine ⟨p, f ++ [.event ev], by rw [List.append_assoc, List.cons_append], hup, fun hmem => ?_⟩
    rcases List.mem_append.mp hmem with hmem | hmem
    · exact hend hmem
    · exact hev (Happening.event.inj (List.mem_singleton.mp hmem)).symm

/-- An answer can only open a stream. -/
theorem accepted_append_answer {id : ℕ} {a : Answer} :
    Accepted s (past ++ [.answer id a]) e k ↔
      Accepted s past e k ∨ id = e.1 ∧ a = .stream k ∧ ¬GivenUp s past e.2.stream := by
  constructor
  · rintro ⟨p, f, heq, hup, hend⟩
    rcases Arrival.append_singleton_eq_append_cons.mp heq with
      ⟨-, rfl, hanswer⟩ | ⟨f', rfl, hpast⟩
    · cases hanswer
      exact Or.inr ⟨rfl, rfl, hup⟩
    · rw [List.mem_append, not_or] at hend
      exact Or.inl ⟨p, f', hpast, hup, hend.1⟩
  · rintro (⟨p, f, rfl, hup, hend⟩ | ⟨rfl, rfl, hup⟩)
    · refine ⟨p, f ++ [.answer id a], by rw [List.append_assoc, List.cons_append], hup,
        fun hmem => ?_⟩
      rcases List.mem_append.mp hmem with hmem | hmem
      · exact hend hmem
      · cases List.mem_singleton.mp hmem
    · exact ⟨past, [], rfl, hup, List.not_mem_nil⟩

theorem Accepted.mem (h : Accepted s past e k) : .answer e.1 (.stream k) ∈ past := by
  obtain ⟨p, f, rfl, -, -⟩ := h
  exact List.mem_append_right _ List.mem_cons_self

end

/-! ## Single steps -/

/-- What an event does to the map and the cells. -/
def State.hear (s : State ρ) : Event ρ → State ρ
  | .task e => s.task e
  | .frame f => s.handleServerMessage f

/-- What an answer does. -/
def State.settle (s : State ρ) (oldId requestId : ℕ) : Answer → State ρ
  | .stream newId =>
    { s with granted := s.granted ++ [(requestId, newId)] }.remap oldId newId
  | .noStream => s.removeAndEnd oldId
  | .refused => s.removeAndEnd oldId

/-- The inner loop hears foreign events one after the other. -/
theorem awaitResponse_foreign {oldId requestId : ℕ} {old : List ℕ} {ws es : List (Event ρ)}
    (hws : ∀ ev ∈ ws, ev.Foreign requestId old) (s : State ρ) :
    awaitResponse oldId requestId s (ws ++ es) =
      awaitResponse oldId requestId (ws.foldl State.hear s) es := by
  induction ws generalizing s with
  | nil => rfl
  | cons ev ws ih =>
    have hev := hws ev List.mem_cons_self
    have ih := ih fun ev h => hws ev (List.mem_cons_of_mem _ h)
    rw [List.foldl_cons, ← ih]
    cases ev with
    | task e => rfl
    | frame f =>
      cases f with
      | response id stream =>
        have hid : id ≠ requestId := hev
        exact if_pos hid
      | error id =>
        have hid : id ≠ requestId := hev
        exact if_pos hid
      | close => exact hev.elim
      | failed => exact hev.elim
      | eof => exact hev.elim
      | _ => rfl

/-- Then it reads the answer. -/
theorem awaitResponse_answer (s : State ρ) (oldId requestId : ℕ) (a : Answer) :
    awaitResponse oldId requestId s [.frame (a.frame requestId)] =
      some (s.settle oldId requestId a) := by
  cases a with
  | stream newId => exact if_neg (not_not.mpr rfl)
  | noStream => exact if_neg (not_not.mpr rfl)
  | refused => exact if_neg (not_not.mpr rfl)

/-- **One turn** of a script. -/
theorem resumeTurn_script {w : Script ρ} {old : List ℕ} (hw : w.Proper old) (s : State ρ)
    (e : Entry ρ) : resumeTurn s e (w.turn e.1) =
      let t := (w.before e.1).foldl State.owner s
      some (if t.isEnded e.2.stream then t.removeAndEnd e.1
        else ((w.waiting e.1 t.requestIdCounter).foldl State.hear (t.request e)).settle e.1
          t.requestIdCounter (w.answer e.1)) := by
  have hturn : resumeTurn s e (w.turn e.1) =
      let t := ((w.before e.1).map TaskEvent.owner).foldl State.task s
      if t.isEnded e.2.stream then some (t.removeAndEnd e.1)
      else awaitResponse e.1 t.requestIdCounter (t.request e)
        (w.waiting e.1 t.requestIdCounter ++
          [.frame ((w.answer e.1).frame t.requestIdCounter)]) := rfl
  have hbefore : ((w.before e.1).map TaskEvent.owner).foldl State.task s =
      (w.before e.1).foldl State.owner s := List.foldl_map
  rw [hturn, hbefore]
  dsimp only
  split
  · rfl
  · rw [awaitResponse_foreign (hw.foreign e.1 _), awaitResponse_answer]

section

variable {s : State ρ} {id i : ℕ} {r : ResumableStream ρ}

/-- Other streams are not touched. -/
theorem removeAndEnd_other (h : s.streams.lookup id = some r) (hi : i ≠ r.stream) :
    (s.removeAndEnd id).isEnded i = s.isEnded i ∧
      (s.removeAndEnd id).effectiveId i = s.effectiveId i ∧ Held s (s.removeAndEnd id) i := by
  obtain ⟨hended, heff, hheld⟩ := s.removeAndEnd_apart fun r' hr' => by
    rw [h, Option.some.injEq] at hr'
    exact hr' ▸ hi.symm
  exact ⟨hended, congrFun heff i, hheld⟩

/-- The slot of the stream is released. -/
theorem removeAndEnd_self (h : s.streams.lookup id = some r) :
    (s.removeAndEnd id).slotReleased r.stream = true ∧
      (s.removeAndEnd id).onEndCalls r.stream = s.onEndCalls r.stream + 1 := by
  rw [State.removeAndEnd_of_lookup s h]
  exact ⟨Function.update_self .., Function.update_self ..⟩

theorem lookup_removeAndEnd {k : ℕ} : (s.removeAndEnd id).streams.lookup k = some r ↔
    k ≠ id ∧ s.streams.lookup k = some r := by
  rw [State.removeAndEnd_streams]
  by_cases hk : k = id
  · rw [hk, AList.lookup_erase]
    exact iff_of_false nofun fun h => h.1 rfl
  · rw [AList.lookup_erase_ne hk]
    exact (and_iff_right hk).symm

end

/-! ## The invariant of the loop -/

/-- How far the loop has come, when `past` has happened. The entries in `done` are resumed or ended,
those in `rest` wait under their old ids. -/
structure Standing (s₀ : State ρ) (w : Script ρ) (done rest : List (Entry ρ))
    (past : List (Happening ρ)) (s : State ρ) : Prop where
  lookup : ∀ k r, s.streams.lookup k = some r ↔
    ⟨k, r⟩ ∈ rest ∨ ∃ e ∈ done, e.2 = r ∧ Accepted s₀ past e k
  answers : ∀ id a, .answer id a ∈ past → a = w.answer id ∧ ∃ e ∈ done, e.1 = id
  ended : ∀ e ∈ rest, s.isEnded e.2.stream = true ↔ GivenUp s₀ past e.2.stream
  waiting : ∀ e ∈ rest, Held s₀ s e.2.stream
  resumed : ∀ e ∈ done, ∀ k, Accepted s₀ past e k →
    s.effectiveId e.2.stream = k ∧ Held s₀ s e.2.stream
  released : ∀ e ∈ done, (∀ k, ¬Accepted s₀ past e k) →
    s.slotReleased e.2.stream = true ∧ s.onEndCalls e.2.stream = s₀.onEndCalls e.2.stream + 1

namespace Standing

variable {s₀ s t : State ρ} {w : Script ρ} {done rest : List (Entry ρ)} {past : List (Happening ρ)}

/-- The id of an accepted stream is the one of its answer. -/
theorem answered (h : Standing s₀ w done rest past s) {e : Entry ρ} {k : ℕ}
    (hk : Accepted s₀ past e k) : w.answer e.1 = .stream k :=
  (h.answers _ _ hk.mem).1.symm

/-- Something that happens without consequences for the map and the slots. -/
theorem of_same (h : Standing s₀ w done rest past s) {ev : Event ρ}
    (hstreams : t.streams = s.streams) (heff : t.effectiveId = s.effectiveId)
    (hslots : t.slotReleased = s.slotReleased) (hcalls : t.onEndCalls = s.onEndCalls)
    (hended : ∀ e ∈ rest, t.isEnded e.2.stream = true ↔
      GivenUp s₀ (past ++ [.event ev]) e.2.stream)
    (hkept : ∀ e ∈ done, ∀ k, Accepted s₀ past e k → ev ≠ .frame (.streamEnd k)) :
    Standing s₀ w done rest (past ++ [.event ev]) t := by
  have hacc : ∀ e ∈ done, ∀ k, Accepted s₀ (past ++ [.event ev]) e k ↔ Accepted s₀ past e k := by
    intro e he k
    rw [accepted_append_event]
    exact and_iff_left_of_imp (hkept e he k)
  have hheld : ∀ i, Held s₀ s i → Held s₀ t i := by
    intro i hi
    rw [Held, hslots, hcalls]
    exact hi
  refine ⟨fun k r => ?_, fun id a hmem => ?_, hended, fun e he => hheld _ (h.waiting e he),
    fun e he k hk => ?_, fun e he hno => ?_⟩
  · rw [hstreams, h.lookup k r]
    refine or_congr_right (exists_congr fun e => and_congr_right fun he => ?_)
    rw [hacc e he k]
  · rcases List.mem_append.mp hmem with hmem | hmem
    · exact h.answers id a hmem
    · cases List.mem_singleton.mp hmem
  · rw [heff]
    obtain ⟨hid, hi⟩ := h.resumed e he k ((hacc e he k).mp hk)
    exact ⟨hid, hheld _ hi⟩
  · rw [hslots, hcalls]
    exact h.released e he fun k hk => hno k ((hacc e he k).mpr hk)

/-- No event but an owner's gives up a stream. -/
theorem givenUp_frame {f : Incoming} {i : ℕ} :
    GivenUp s₀ (past ++ [.event (.frame f)]) i ↔ GivenUp s₀ past i := by
  rw [givenUp_append]
  exact or_iff_left fun ⟨_, _, heq⟩ => by cases heq

section

variable (hdistinct : (done ++ rest).Pairwise Distinct)
include hdistinct

/-- Entries that wait differ from those that do not. -/
theorem distinct_rest {e x : Entry ρ} (he : e ∈ done) (hx : x ∈ rest) : Distinct e x :=
  (List.pairwise_append.mp hdistinct).2.2 e he x hx

/-- Entries are told apart by their ids. -/
theorem eq_or_distinct {e x : Entry ρ} (he : e ∈ done) (hx : x ∈ done) : x = e ∨ Distinct e x := by
  have hsymm : Std.Symm (Distinct : Entry ρ → Entry ρ → Prop) :=
    ⟨fun _ _ h => ⟨h.1.symm, h.2.symm⟩⟩
  by_cases hxe : x = e
  · exact Or.inl hxe
  · exact Or.inr ((List.pairwise_append.mp hdistinct).1.forall he hx (Ne.symm hxe))

variable (hw : w.Proper ((done ++ rest).map Sigma.fst))
include hw

/-- One stream is accepted under an id. -/
theorem accepted_unique (h : Standing s₀ w done rest past s) {e x : Entry ρ} {k : ℕ} (he : e ∈ done)
    (hx : x ∈ done) (hek : Accepted s₀ past e k) (hxk : Accepted s₀ past x k) : x = e := by
  have hid : x.1 = e.1 := hw.apart x.1 (List.mem_map_of_mem (List.mem_append_left _ hx)) e.1
    (List.mem_map_of_mem (List.mem_append_left _ he)) k (h.answered hxk) (h.answered hek)
  rcases eq_or_distinct hdistinct he hx with heq | hne
  · exact heq
  · exact absurd hid hne.1

/-- A stream that was resumed is ended by the server. -/
theorem ends (h : Standing s₀ w done rest past s) {id : ℕ}
    (hid : id ∉ (done ++ rest).map Sigma.fst) :
    Standing s₀ w done rest (past ++ [.event (.frame (.streamEnd id))]) (s.removeAndEnd id) := by
  have hevent : ∀ {k : ℕ},
      (.frame (.streamEnd id) : Event ρ) ≠ .frame (.streamEnd k) ↔ k ≠ id := by
    intro k
    refine not_congr ⟨fun heq => ?_, fun heq => by rw [heq]⟩
    cases heq
    rfl
  cases hlook : s.streams.lookup id with
  | none =>
    have hsame : s.removeAndEnd id = s := by rw [State.removeAndEnd, hlook]
    rw [hsame]
    refine h.of_same rfl rfl rfl rfl (fun e he => ?_) fun e he k hk => hevent.mpr fun hkid => ?_
    · rw [givenUp_frame]
      exact h.ended e he
    · have hsome := (h.lookup k e.2).mpr (Or.inr ⟨e, he, rfl, hk⟩)
      rw [hkid, hlook] at hsome
      cases hsome
  | some r =>
    have hmem := (h.lookup id r).mp hlook
    have hnot : (⟨id, r⟩ : Entry ρ) ∉ rest := fun hrest =>
      hid (List.mem_map_of_mem (f := Sigma.fst) (List.mem_append_right done hrest))
    obtain ⟨e, he, rfl, hk⟩ := hmem.resolve_left hnot
    have hrest : ∀ x ∈ rest, x.2.stream ≠ e.2.stream := fun x hx =>
      (distinct_rest hdistinct he hx).2
    refine ⟨fun k r => ?_, fun id' a hmem => ?_, fun x hx => ?_, fun x hx => ?_,
      fun x hx k hxk => ?_, fun x hx hno => ?_⟩
    · rw [lookup_removeAndEnd, h.lookup k r]
      constructor
      · rintro ⟨hne, hwaits | ⟨x, hx, hr, hxk⟩⟩
        · exact Or.inl hwaits
        · exact Or.inr ⟨x, hx, hr, accepted_append_event.mpr ⟨hxk, hevent.mpr hne⟩⟩
      · rintro (hwaits | ⟨x, hx, hr, hxk⟩)
        · refine ⟨fun hkid => hid ?_, Or.inl hwaits⟩
          rw [← hkid]
          exact List.mem_map_of_mem (f := Sigma.fst) (List.mem_append_right done hwaits)
        · obtain ⟨hxk, hne⟩ := accepted_append_event.mp hxk
          exact ⟨hevent.mp hne, Or.inr ⟨x, hx, hr, hxk⟩⟩
    · rcases List.mem_append.mp hmem with hmem | hmem
      · exact h.answers id' a hmem
      · cases List.mem_singleton.mp hmem
    · rw [(removeAndEnd_other hlook (hrest x hx)).1, givenUp_frame]
      exact h.ended x hx
    · obtain ⟨-, -, hslot, hcalls⟩ := removeAndEnd_other hlook (hrest x hx)
      obtain ⟨hslot₀, hcalls₀⟩ := h.waiting x hx
      exact ⟨hslot.trans hslot₀, hcalls.trans hcalls₀⟩
    · obtain ⟨hxk, hne⟩ := accepted_append_event.mp hxk
      have hxe : Distinct e x := by
        refine (eq_or_distinct hdistinct he hx).resolve_left fun heq => hevent.mp hne ?_
        rw [heq] at hxk
        cases (h.answered hxk).symm.trans (h.answered hk)
        rfl
      obtain ⟨-, heff, hslot, hcalls⟩ := removeAndEnd_other hlook hxe.2
      obtain ⟨heff₀, hslot₀, hcalls₀⟩ := h.resumed x hx k hxk
      exact ⟨heff.trans heff₀, hslot.trans hslot₀, hcalls.trans hcalls₀⟩
    · rcases eq_or_distinct hdistinct he hx with rfl | hxe
      · obtain ⟨hslot, hcalls⟩ := removeAndEnd_self hlook
        obtain ⟨-, -, hcalls₀⟩ := h.resumed x hx id hk
        exact ⟨hslot, by rw [hcalls, hcalls₀]⟩
      · obtain ⟨-, -, hslot, hcalls⟩ := removeAndEnd_other hlook hxe.2
        obtain ⟨hslot₀, hcalls₀⟩ := h.released x hx fun k hxk => by
          by_cases hkid : k = id
          · rw [hkid] at hxk
            exact hxe.1 (by rw [h.accepted_unique hdistinct hw he hx hk hxk])
          · exact hno k (accepted_append_event.mpr ⟨hxk, hevent.mpr hkid⟩)
        exact ⟨hslot.trans hslot₀, hcalls.trans hcalls₀⟩

/-- **Hearing.** Every foreign event keeps the standing. -/
theorem hear (h : Standing s₀ w done rest past s) {ev : Event ρ} {requestId : ℕ}
    (hev : ev.Foreign requestId ((done ++ rest).map Sigma.fst)) :
    Standing s₀ w done rest (past ++ [.event ev]) (s.hear ev) := by
  have hframe : ∀ {f : Incoming} {t : State ρ}, t.streams = s.streams →
      t.effectiveId = s.effectiveId → t.slotReleased = s.slotReleased →
      t.onEndCalls = s.onEndCalls → t.stopped = s.stopped → t.closed = s.closed →
      (∀ k, f ≠ .streamEnd k) → Standing s₀ w done rest (past ++ [.event (.frame f)]) t := by
    intro f t hstreams heff hslots hcalls hstopped hclosed hf
    refine h.of_same hstreams heff hslots hcalls (fun e he => ?_) fun e he k _ heq => ?_
    · rw [givenUp_frame, ← h.ended e he, State.isEnded, State.isEnded, hstopped, hclosed]
    · exact hf k (Event.frame.inj heq)
  cases ev with
  | task o =>
    obtain ⟨o, rfl⟩ : ∃ o', o = .owner o' := by
      cases o with
      | owner o => exact ⟨o, rfl⟩
      | _ => exact hev.elim
    have hended : ∀ e ∈ rest, (s.owner o).isEnded e.2.stream = true ↔
        GivenUp s₀ (past ++ [.event (.task (.owner o))]) e.2.stream := by
      intro e he
      rw [s.owner_isEnded, h.ended e he, givenUp_append]
      refine or_congr_right ⟨fun ho => ⟨o, ho, rfl⟩, ?_⟩
      rintro ⟨o', ho', heq⟩
      cases heq
      exact ho'
    cases o with
    | stops i => exact h.of_same rfl rfl rfl rfl hended fun _ _ _ _ => by simp
    | closes i => exact h.of_same rfl rfl rfl rfl hended fun _ _ _ _ => by simp
  | frame f =>
    cases f with
    | streamEnd id => exact h.ends hdistinct hw hev
    | streamData id =>
      change Standing s₀ w done rest _ (s.handleServerMessage (.streamData id))
      rw [State.handleServerMessage]
      split
      · exact hframe rfl rfl rfl rfl rfl rfl (by simp)
      · exact hframe rfl rfl rfl rfl rfl rfl (by simp)
    | _ => exact hframe rfl rfl rfl rfl rfl rfl (by simp)

end

/-! ## The turn of an entry -/

section

variable {e : Entry ρ} {past' : List (Happening ρ)}

theorem lookup_head (h : Standing s₀ w done (e :: rest) past s) :
    s.streams.lookup e.1 = some e.2 :=
  (h.lookup _ _).mpr (Or.inl List.mem_cons_self)

/-- A new id is none of the old ones. -/
theorem fresh_of_accepted (h : Standing s₀ w done (e :: rest) past s)
    (hw : w.Proper ((done ++ e :: rest).map Sigma.fst)) {x : Entry ρ} {k : ℕ} (hx : x ∈ done)
    (hk : Accepted s₀ past x k) : k ≠ e.1 := by
  rintro rfl
  refine hw.fresh x.1 (List.mem_map_of_mem (List.mem_append_left _ hx)) e.1 (h.answered hk) ?_
  exact List.mem_map_of_mem (List.mem_append_right _ List.mem_cons_self)

variable (hdistinct : (done ++ e :: rest).Pairwise Distinct)
include hdistinct

/-- Nothing was answered before its turn. -/
theorem not_accepted (h : Standing s₀ w done (e :: rest) past s) (k : ℕ) :
    ¬Accepted s₀ past e k := by
  intro hk
  obtain ⟨-, x, hx, hid⟩ := h.answers _ _ hk.mem
  exact (distinct_rest hdistinct hx List.mem_cons_self).1 hid.symm

/-- The turn of an entry says nothing about the others. -/
theorem turn (h : Standing s₀ w done (e :: rest) past s)
    (hpast : past' = past ∨ past' = past ++ [.answer e.1 (w.answer e.1)]) :
    (∀ x ∈ done, ∀ k, Accepted s₀ past' x k ↔ Accepted s₀ past x k) ∧
      (∀ i, GivenUp s₀ past' i ↔ GivenUp s₀ past i) ∧
      ∀ id a, .answer id a ∈ past' → a = w.answer id ∧ ∃ x ∈ done ++ [e], x.1 = id := by
  have hold : ∀ id a, .answer id a ∈ past → a = w.answer id ∧ ∃ x ∈ done ++ [e], x.1 = id := by
    intro id a hmem
    obtain ⟨ha, x, hx, hid⟩ := h.answers id a hmem
    exact ⟨ha, x, List.mem_append_left _ hx, hid⟩
  rcases hpast with rfl | rfl
  · exact ⟨fun _ _ _ => Iff.rfl, fun _ => Iff.rfl, hold⟩
  · refine ⟨fun x hx k => ?_, fun i => ?_, fun id a hmem => ?_⟩
    · rw [accepted_append_answer]
      exact or_iff_left fun hanswer =>
        (distinct_rest hdistinct hx List.mem_cons_self).1 hanswer.1
    · rw [givenUp_append]
      exact or_iff_left fun ⟨_, _, heq⟩ => by cases heq
    · rcases List.mem_append.mp hmem with hmem | hmem
      · exact hold id a hmem
      · cases List.mem_singleton.mp hmem
        exact ⟨rfl, e, List.mem_append_right _ List.mem_cons_self, rfl⟩

/-- Entries that wait after this turn differ from it. -/
theorem distinct_head {x : Entry ρ} (hx : x ∈ rest) : Distinct e x :=
  (List.pairwise_cons.mp (List.pairwise_append.mp hdistinct).2.1).1 x hx

variable (hw : w.Proper ((done ++ e :: rest).map Sigma.fst))
include hw

/-- The stream is not resumed. -/
theorem drop (h : Standing s₀ w done (e :: rest) past s)
    (hpast : past' = past ∨ past' = past ++ [.answer e.1 (w.answer e.1)])
    (hnot : ∀ k, ¬Accepted s₀ past' e k) :
    Standing s₀ w (done ++ [e]) rest past' (s.removeAndEnd e.1) := by
  obtain ⟨hacc, hgiven, hanswers⟩ := h.turn hdistinct hpast
  have hlook := h.lookup_head
  refine ⟨fun k r => ?_, hanswers, fun x hx => ?_, fun x hx => ?_, fun x hx k hk => ?_,
    fun x hx hno => ?_⟩
  · rw [lookup_removeAndEnd, h.lookup k r]
    constructor
    · rintro ⟨hne, hwaits | ⟨x, hx, hr, hk⟩⟩
      · rcases List.mem_cons.mp hwaits with rfl | hwaits
        · exact absurd rfl hne
        · exact Or.inl hwaits
      · exact Or.inr ⟨x, List.mem_append_left _ hx, hr, (hacc x hx k).mpr hk⟩
    · rintro (hwaits | ⟨x, hx, hr, hk⟩)
      · exact ⟨(distinct_head hdistinct hwaits).1, Or.inl (List.mem_cons_of_mem _ hwaits)⟩
      · rcases List.mem_append.mp hx with hx | hx
        · have hk := (hacc x hx k).mp hk
          exact ⟨h.fresh_of_accepted hw hx hk, Or.inr ⟨x, hx, hr, hk⟩⟩
        · rw [List.mem_singleton.mp hx] at hk
          exact absurd hk (hnot k)
  · rw [(removeAndEnd_other hlook (distinct_head hdistinct hx).2).1, hgiven]
    exact h.ended x (List.mem_cons_of_mem _ hx)
  · obtain ⟨-, -, hslot, hcalls⟩ := removeAndEnd_other hlook (distinct_head hdistinct hx).2
    obtain ⟨hslot₀, hcalls₀⟩ := h.waiting x (List.mem_cons_of_mem _ hx)
    exact ⟨hslot.trans hslot₀, hcalls.trans hcalls₀⟩
  · rcases List.mem_append.mp hx with hx | hx
    · have hne := (distinct_rest hdistinct hx List.mem_cons_self).2.symm
      obtain ⟨-, heff, hslot, hcalls⟩ := removeAndEnd_other hlook hne
      obtain ⟨heff₀, hslot₀, hcalls₀⟩ := h.resumed x hx k ((hacc x hx k).mp hk)
      exact ⟨heff.trans heff₀, hslot.trans hslot₀, hcalls.trans hcalls₀⟩
    · rw [List.mem_singleton.mp hx] at hk
      exact absurd hk (hnot k)
  · rcases List.mem_append.mp hx with hx | hx
    · have hne := (distinct_rest hdistinct hx List.mem_cons_self).2.symm
      obtain ⟨-, -, hslot, hcalls⟩ := removeAndEnd_other hlook hne
      obtain ⟨hslot₀, hcalls₀⟩ := h.released x hx fun k hk => hno k ((hacc x hx k).mpr hk)
      exact ⟨hslot.trans hslot₀, hcalls.trans hcalls₀⟩
    · obtain ⟨hslot, hcalls⟩ := removeAndEnd_self hlook
      obtain ⟨-, hcalls₀⟩ := h.waiting e List.mem_cons_self
      rw [List.mem_singleton.mp hx]
      exact ⟨hslot, by rw [hcalls, hcalls₀]⟩

/-- The stream is resumed. -/
theorem move (h : Standing s₀ w done (e :: rest) past s) {newId : ℕ}
    (ha : w.answer e.1 = .stream newId) (hlive : ¬s.isEnded e.2.stream = true) :
    Standing s₀ w (done ++ [e]) rest (past ++ [.answer e.1 (.stream newId)])
      (s.remap e.1 newId) := by
  obtain ⟨hacc, hgiven, hanswers⟩ := h.turn hdistinct (Or.inr rfl)
  rw [ha] at hacc hgiven hanswers
  have hmem : e.1 ∈ (done ++ e :: rest).map Sigma.fst :=
    List.mem_map_of_mem (List.mem_append_right _ List.mem_cons_self)
  have hself : ∀ k, Accepted s₀ (past ++ [.answer e.1 (.stream newId)]) e k ↔ k = newId := by
    intro k
    rw [accepted_append_answer, or_iff_right (h.not_accepted hdistinct k)]
    constructor
    · rintro ⟨-, hk, -⟩
      cases hk
      rfl
    · rintro rfl
      exact ⟨rfl, rfl, fun hup => hlive ((h.ended e List.mem_cons_self).mpr hup)⟩
  have hother : ∀ x ∈ done, ¬Accepted s₀ past x newId := by
    intro x hx hk
    have hid := hw.apart x.1 (List.mem_map_of_mem (List.mem_append_left _ hx)) e.1 hmem newId
      (h.answered hk) ha
    exact (distinct_rest hdistinct hx List.mem_cons_self).1 hid.symm
  rw [State.remap_of_lookup s h.lookup_head (by simpa using hlive)]
  refine ⟨fun k r => ?_, hanswers, fun x hx => ?_, fun x hx => ?_, fun x hx k hk => ?_,
    fun x hx hno => ?_⟩
  · dsimp only
    by_cases hk : k = newId
    · rw [hk, AList.lookup_insert]
      constructor
      · intro hr
        exact Or.inr ⟨e, List.mem_append_right _ List.mem_cons_self, Option.some.inj hr,
          (hself newId).mpr rfl⟩
      · rintro (hwaits | ⟨x, hx, hr, hxk⟩)
        · exact absurd (List.mem_map_of_mem (f := Sigma.fst)
            (List.mem_append_right done (List.mem_cons_of_mem e hwaits))) (hw.fresh e.1 hmem _ ha)
        · rcases List.mem_append.mp hx with hx | hx
          · exact absurd ((hacc x hx newId).mp hxk) (hother x hx)
          · rw [← hr, List.mem_singleton.mp hx]
    · rw [AList.lookup_insert_ne hk]
      constructor
      · intro hlook
        have hne : k ≠ e.1 := by
          rintro rfl
          rw [AList.lookup_erase] at hlook
          cases hlook
        rw [AList.lookup_erase_ne hne, h.lookup k r] at hlook
        rcases hlook with hwaits | ⟨x, hx, hr, hxk⟩
        · rcases List.mem_cons.mp hwaits with rfl | hwaits
          · exact absurd rfl hne
          · exact Or.inl hwaits
        · exact Or.inr ⟨x, List.mem_append_left _ hx, hr, (hacc x hx k).mpr hxk⟩
      · rintro (hwaits | ⟨x, hx, hr, hxk⟩)
        · rw [AList.lookup_erase_ne (distinct_head hdistinct hwaits).1, h.lookup k r]
          exact Or.inl (List.mem_cons_of_mem _ hwaits)
        · rcases List.mem_append.mp hx with hx | hx
          · have hxk := (hacc x hx k).mp hxk
            rw [AList.lookup_erase_ne (h.fresh_of_accepted hw hx hxk), h.lookup k r]
            exact Or.inr ⟨x, hx, hr, hxk⟩
          · rw [List.mem_singleton.mp hx] at hxk
            exact absurd ((hself k).mp hxk) hk
  · rw [hgiven]
    exact h.ended x (List.mem_cons_of_mem _ hx)
  · exact h.waiting x (List.mem_cons_of_mem _ hx)
  · rcases List.mem_append.mp hx with hx | hx
    · have hne := (distinct_rest hdistinct hx List.mem_cons_self).2.symm
      obtain ⟨heff₀, hheld⟩ := h.resumed x hx k ((hacc x hx k).mp hk)
      exact ⟨(Function.update_of_ne hne _ _).trans heff₀, hheld⟩
    · rw [List.mem_singleton.mp hx] at hk ⊢
      rw [(hself k).mp hk]
      exact ⟨Function.update_self .., h.waiting e List.mem_cons_self⟩
  · rcases List.mem_append.mp hx with hx | hx
    · exact h.released x hx fun k hk => hno k ((hacc x hx k).mpr hk)
    · rw [List.mem_singleton.mp hx] at hno
      exact absurd ((hself newId).mpr rfl) (hno newId)

/-- A stream that has ended before its turn. -/
theorem skip (h : Standing s₀ w done (e :: rest) past s) :
    Standing s₀ w (done ++ [e]) rest past (s.removeAndEnd e.1) :=
  h.drop hdistinct hw (Or.inl rfl) (h.not_accepted hdistinct)

/-- **The answer.** The stream is resumed if the server has opened it again and its owner has not
given it up. -/
theorem settle (h : Standing s₀ w done (e :: rest) past s) (requestId : ℕ) :
    Standing s₀ w (done ++ [e]) rest (past ++ [.answer e.1 (w.answer e.1)])
      (s.settle e.1 requestId (w.answer e.1)) := by
  have hrefused : (∀ newId, w.answer e.1 ≠ .stream newId) →
      Standing s₀ w (done ++ [e]) rest (past ++ [.answer e.1 (w.answer e.1)])
        (s.removeAndEnd e.1) := by
    intro hno
    refine h.drop hdistinct hw (Or.inr rfl) fun k hk => ?_
    rcases accepted_append_answer.mp hk with hk | ⟨-, ha, -⟩
    · exact h.not_accepted hdistinct k hk
    · exact hno k ha
  cases ha : w.answer e.1 with
  | noStream =>
    rw [ha] at hrefused
    exact hrefused nofun
  | refused =>
    rw [ha] at hrefused
    exact hrefused nofun
  | stream newId =>
    have hgranted : Standing s₀ w done (e :: rest) past
        { s with granted := s.granted ++ [(requestId, newId)] } :=
      ⟨h.lookup, h.answers, h.ended, h.waiting, h.resumed, h.released⟩
    by_cases hend : s.isEnded e.2.stream = true
    · rw [State.settle, State.remap_of_isEnded _ hgranted.lookup_head hend, ← ha]
      refine hgranted.drop hdistinct hw (Or.inr rfl) fun k hk => ?_
      rcases accepted_append_answer.mp hk with hk | ⟨-, -, hup⟩
      · exact h.not_accepted hdistinct k hk
      · exact hup ((h.ended e List.mem_cons_self).mp hend)
    · exact hgranted.move hdistinct hw ha hend

end

/-- Hearing one event after the other. -/
theorem hears (h : Standing s₀ w done rest past s) (hdistinct : (done ++ rest).Pairwise Distinct)
    (hw : w.Proper ((done ++ rest).map Sigma.fst)) {evs : List (Event ρ)} {requestId : ℕ}
    (hevs : ∀ ev ∈ evs, ev.Foreign requestId ((done ++ rest).map Sigma.fst)) :
    Standing s₀ w done rest (past ++ evs.map .event) (evs.foldl State.hear s) := by
  induction evs generalizing past s with
  | nil =>
    rw [List.map_nil, List.append_nil]
    exact h
  | cons ev evs ih =>
    have hnext := ih (h.hear hdistinct hw (hevs ev List.mem_cons_self))
      fun ev' h' => hevs ev' (List.mem_cons_of_mem _ h')
    rwa [List.append_assoc, List.singleton_append] at hnext

/-- **One turn.** -/
theorem resumeTurn {e : Entry ρ} (h : Standing s₀ w done (e :: rest) past s)
    (hdistinct : (done ++ e :: rest).Pairwise Distinct)
    (hw : w.Proper ((done ++ e :: rest).map Sigma.fst)) :
    ∃ t, Resumption.resumeTurn s e (w.turn e.1) = some t ∧
      Standing s₀ w (done ++ [e]) rest (past ++ w.turnTrace s e) t := by
  have hbefore : Standing s₀ w done (e :: rest)
      (past ++ (w.before e.1).map (fun o => .event (.task (.owner o))))
      ((w.before e.1).foldl State.owner s) := by
    have hforeign : ∀ ev ∈ (w.before e.1).map fun o => (.task (.owner o) : Event ρ),
        ev.Foreign 0 ((done ++ e :: rest).map Sigma.fst) := by
      intro ev hev
      obtain ⟨o, -, rfl⟩ := List.mem_map.mp hev
      trivial
    have hheard := h.hears hdistinct hw hforeign
    rw [List.map_map, List.foldl_map] at hheard
    exact hheard
  refine ⟨_, resumeTurn_script hw s e, ?_⟩
  rw [Script.turnTrace]
  generalize (w.before e.1).foldl State.owner s = u at hbefore ⊢
  by_cases hend : u.isEnded e.2.stream = true
  · rw [if_pos hend, if_pos hend, List.append_nil]
    exact hbefore.skip hdistinct hw
  · rw [if_neg hend, if_neg hend, ← List.append_assoc, ← List.append_assoc]
    have hrequest : Standing s₀ w done (e :: rest)
        (past ++ (w.before e.1).map (fun o => .event (.task (.owner o)))) (u.request e) :=
      ⟨hbefore.lookup, hbefore.answers, hbefore.ended, hbefore.waiting, hbefore.resumed,
        hbefore.released⟩
    exact (hrequest.hears hdistinct hw (hw.foreign e.1 u.requestIdCounter)).settle hdistinct hw _

/-- **All turns.** -/
theorem resumeLoop (h : Standing s₀ w done rest past s)
    (hdistinct : (done ++ rest).Pairwise Distinct) (hw : w.Proper ((done ++ rest).map Sigma.fst)) :
    ∃ t, Resumption.resumeLoop (fun oldId => w.turn oldId) s rest = some t ∧
      Standing s₀ w (done ++ rest) [] (past ++ w.traceFrom s rest) t := by
  induction rest generalizing done past s with
  | nil =>
    refine ⟨s, rfl, ?_⟩
    rw [List.append_nil, Script.traceFrom, List.append_nil]
    exact h
  | cons e rest ih =>
    have hsplit : done ++ [e] ++ rest = done ++ e :: rest := by
      rw [List.append_assoc, List.singleton_append]
    obtain ⟨u, hturn, hu⟩ := h.resumeTurn hdistinct hw
    rw [← hsplit] at hdistinct hw
    obtain ⟨t, hloop, ht⟩ := ih hu hdistinct hw
    refine ⟨t, ?_, ?_⟩
    · rw [Resumption.resumeLoop, hturn, Option.bind_some, hloop]
    · rw [Script.traceFrom, hturn, Option.map_some, Option.getD_some, ← List.append_assoc,
        ← hsplit]
      exact ht

end Standing

/-! ## The whole resumption -/

theorem Standing.start {s : State ρ} {order : List (Entry ρ)} (w : Script ρ)
    (horder : order.Perm s.streams.entries) :
    Standing s w [] order [] { s with abandoned := s.isEnded } where
  lookup k r := by
    rw [or_iff_left fun ⟨_, he, _⟩ => List.not_mem_nil he, horder.mem_iff]
    exact ⟨fun hlook => AList.mem_lookup_iff.mp hlook, fun hmem => AList.mem_lookup_iff.mpr hmem⟩
  answers _ _ hmem := absurd hmem List.not_mem_nil
  ended _ _ := by
    refine ⟨Or.inl, fun hup => hup.resolve_right ?_⟩
    rintro ⟨_, -, hmem⟩
    exact List.not_mem_nil hmem
  waiting _ _ := ⟨rfl, rfl⟩
  resumed _ he := absurd he List.not_mem_nil
  released _ he := absurd he List.not_mem_nil

/-- **Resumption among other frames.** Whatever the order of the snapshot, whatever owners do, and
whatever foreign frames come before each answer, the loop comes to its end, and the map then holds
the accepted streams. -/
theorem resume_streams_outcome (s : State ρ) (hs : s.Registered) (order : List (Entry ρ))
    (horder : order.Perm s.streams.entries) (w : Script ρ) (hw : w.Proper (order.map Sigma.fst)) :
    ∃ t, resumeStreams s order (fun oldId => w.turn oldId) = some t ∧
      Resumed s t order (w.trace s order) := by
  obtain ⟨t, hloop, ht⟩ := (Standing.start w horder).resumeLoop (hs.distinct horder) hw
  refine ⟨t, hloop, ?_, ?_, ?_, ?_, ht.released⟩
  · intro e he
    cases hlook : t.streams.lookup e.1 with
    | none => rfl
    | some r =>
      obtain ⟨x, hx, -, hk⟩ := ((ht.lookup e.1 r).mp hlook).resolve_left List.not_mem_nil
      exact absurd (List.mem_map_of_mem he)
        (hw.fresh x.1 (List.mem_map_of_mem hx) e.1 (ht.answered hk))
  · intro k r
    exact (ht.lookup k r).trans (or_iff_right List.not_mem_nil)
  · exact fun e he k hk => (ht.resumed e he k hk).1
  · exact fun e he k hk => (ht.resumed e he k hk).2

/-- The streams of `twoStreams` are resumed under 3 and 4, and the server ends the first one while
the second is still waiting for its answer. -/
def endedMeanwhile : Script ℕ where
  before _ := []
  waiting oldId requestId :=
    if oldId = 1 then
      [.frame (.error (requestId + 1)), .frame .undecodable, .frame .ping, .frame (.streamData 2)]
    else [.frame (.streamData 3), .frame (.streamEnd 3), .task (.owner (.closes 0)), .frame .text]
  answer oldId := if oldId = 1 then .stream 3 else .stream 4

theorem resume_streams_outcome_endedMeanwhile :
    (∃ t, resumeStreams twoStreams oneThenTwo (fun oldId => endedMeanwhile.turn oldId) = some t ∧
      Resumed twoStreams t oneThenTwo (endedMeanwhile.trace twoStreams oneThenTwo)) ∧
      (resumeStreams twoStreams oneThenTwo fun oldId => endedMeanwhile.turn oldId).map
        (fun t => t.streams.entries) = some [⟨4, 20, 1⟩] := by
  refine ⟨resume_streams_outcome twoStreams (by decide) oneThenTwo (List.Perm.swap _ _ _)
    endedMeanwhile ⟨fun oldId requestId ev hev => ?_, ?_, ?_⟩, rfl⟩
  · rw [endedMeanwhile] at hev
    dsimp only at hev
    split at hev <;> simp only [List.mem_cons, List.not_mem_nil, or_false] at hev
    · rcases hev with rfl | rfl | rfl | rfl
      · exact Nat.succ_ne_self requestId
      · trivial
      · trivial
      · trivial
    · rcases hev with rfl | rfl | rfl | rfl
      · trivial
      · exact show 3 ∉ [1, 2] by decide
      · trivial
      · trivial
  · intro oldId hmem newId ha hold
    simp only [oneThenTwo, List.map_cons, List.map_nil, List.mem_cons, List.not_mem_nil,
      or_false] at hmem hold
    rcases hmem with rfl | rfl <;> cases ha <;> omega
  · intro oldId hmem oldId' hmem' newId ha ha'
    simp only [oneThenTwo, List.map_cons, List.map_nil, List.mem_cons, List.not_mem_nil,
      or_false] at hmem hmem'
    rcases hmem with rfl | rfl <;> rcases hmem' with rfl | rfl <;> cases ha <;> cases ha' <;> rfl

end Resumption

end TitanClient
