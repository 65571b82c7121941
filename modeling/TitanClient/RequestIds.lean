import TitanClient.RequestAnswers

/-!
# Request ids on one socket

`send_request` takes its ids from a counter that all callers share, `resume_streams` from a counter
of the loop. The loop raises its own counter above every id that it takes from the channel, so a
resume request gets an id that no request before it had. Nothing raises the counter of the callers:
requests that are made, or taken from the channel, after a resumption can have an id that it has
used.

## Main results

* `State.Distinct` — the ids on each socket are pairwise distinct
* `Avoids` — no call is written on a socket whose number is among those that the resumption on that
  socket has used
* `ids_distinct_iff` — nothing else can go wrong
* `resumed_id_reused` — this does go wrong, for the first request after a resumption
-/

namespace TitanClient

namespace Requests

variable {ρ β : Type}

/-- The ids of the request frames on a socket, in the order in which they were written. -/
def State.idsOn (s : State ρ β) (socket : ℕ) : List ℕ :=
  (s.written.filter (·.socket = socket)).map (·.id)

/-- No two request frames on one socket have the same id. -/
def State.Distinct (s : State ρ β) : Prop := ∀ socket, (s.idsOn socket).Nodup

/-- A request that is written does not have the id of a resume request on the same socket. -/
def AvoidsResumed (s : State ρ β) : Action ρ β → Prop
  | .write r none => ∀ f ∈ s.written, f.socket = s.socket → f.call = none → f.id ≠ r.request.id
  | _ => True

/-- The request that the loop has taken from the channel and is about to write. -/
def Loop.inHand : Loop ρ → List (PendingRequest ρ)
  | .inserting r => [r]
  | .encoding r => [r]
  | .writing r => [r]
  | _ => []

/-- A request by its id and its call. -/
def PendingRequest.label (r : PendingRequest ρ) : ℕ × ℕ := (r.request.id, r.responseTx)

/-- A frame by its id and its call, if it has one. -/
def Written.label (f : Written) : Option (ℕ × ℕ) := f.call.map fun i => (f.id, i)

/-! ## The books -/

/-- What is written down about request frames. -/
structure Books (ρ : Type) where
  written : List Written
  dequeued : List (PendingRequest ρ)
  counter : ℕ
  resumeCount : ℕ
  socket : ℕ
  loop : Loop ρ

/-- The books of a state. -/
def State.books (s : State ρ β) : Books ρ :=
  ⟨s.written, s.dequeued, s.requestIdCounter, s.resumeCount, s.socket, s.loop⟩

/-- All that a step can do to the books. -/
inductive BooksChange (s : State ρ β) : Action ρ β → Books ρ → Prop
  | moved {a : Action ρ β} {loop : Loop ρ} (hwrite : ∀ r, a ≠ .write r none)
      (hhand : loop.inHand = s.loop.inHand ∨ loop.inHand = [])
      (hresuming : loop = .resuming → s.loop = .resuming) :
      BooksChange s a { s.books with loop := loop }
  | dequeued {r : PendingRequest ρ} {rest : List (PendingRequest ρ)} (hloop : s.loop = .serving)
      (h : s.channel = r :: rest) :
      BooksChange s .dequeue
        { s.books with
          dequeued := s.dequeued ++ [r]
          counter := wrap32 (max r.request.id s.requestIdCounter + 1)
          loop := .inserting r }
  | written {r : PendingRequest ρ} (h : s.loop = .writing r) :
      BooksChange s (.write r none)
        { s.books with
          written := s.written ++ [⟨s.socket, s.run, r.request.id, some r.responseTx⟩]
          loop := .serving }
  | dialed (h : s.loop = .backoff) :
      BooksChange s (.dial true) { s.books with socket := s.socket + 1, loop := .resuming }
  | resumed (h : s.loop = .resuming) :
      BooksChange s (.resumeWrite none)
        { s.books with
          written := s.written ++ [⟨s.socket, s.run, s.requestIdCounter, none⟩]
          counter := wrap32 (s.requestIdCounter + 1)
          resumeCount := s.resumeCount + 1 }
  | unresumed {error : String} :
      BooksChange s (.resumeWrite (some error))
        { s.books with
          counter := wrap32 (s.requestIdCounter + 1)
          resumeCount := s.resumeCount + 1 }

/-- Answering requests is not seen in the books. -/
theorem books_completePending (s : State ρ β) (id : ℕ) (a : Answer β) :
    (s.completePending id a).books = s.books := by
  rw [State.completePending_eq]
  rfl

theorem books_handleServerMessage (s : State ρ β) (msg : ServerMessage β) :
    (s.handleServerMessage msg).books = s.books := by
  rcases s.handleServerMessage_eq msg with heq | ⟨id, result, -, -, heq⟩
  · rw [heq]
  · rw [heq, books_completePending]

/-- Each step changes the books in one of these ways, or moves the loop only. -/
theorem booksChange {s : State ρ β} {a : Action ρ β} (ha : Enabled s a) :
    BooksChange s a (next s a).books := by
  have hsame : (∀ r, a ≠ .write r none) → BooksChange s a s.books := fun hwrite =>
    .moved hwrite (Or.inl rfl) id
  cases a with
  | check i data =>
    rw [next]
    split <;> exact hsame (by simp)
  | enqueue i request =>
    rw [next]
    split <;> exact hsame (by simp)
  | dequeue =>
    obtain ⟨hloop, hchannel⟩ := ha
    rw [next, dequeueNext]
    cases h : s.channel with
    | nil => exact absurd h hchannel
    | cons r rest => exact .dequeued hloop h
  | insert r =>
    have hloop : s.loop = .inserting r := ha
    exact .moved (by simp) (Or.inl (by rw [hloop]; rfl)) (by rintro ⟨⟩)
  | encode r error =>
    have hloop : s.loop = .encoding r := ha
    cases error with
    | none => exact .moved (by simp) (Or.inl (by rw [hloop]; rfl)) (by rintro ⟨⟩)
    | some e =>
      have hbooks := books_completePending s r.request.id
        ⟨.unexpected s!"Encode failed: {e}", none⟩
      have hnext : (next s (.encode r (some e))).books = { s.books with loop := .serving } :=
        congrArg (fun b : Books ρ => { b with loop := .serving }) hbooks
      rw [hnext]
      exact .moved (by simp) (Or.inr rfl) (by rintro ⟨⟩)
  | write r error =>
    cases error with
    | none => exact .written ha
    | some e =>
      have hbooks := books_completePending s r.request.id
        ⟨.connectionClosed s!"Send failed: {e}", none⟩
      have hnext : (next s (.write r (some e))).books = { s.books with loop := .serving } :=
        congrArg (fun b : Books ρ => { b with loop := .serving }) hbooks
      rw [hnext]
      exact .moved (by simp) (Or.inr rfl) (by rintro ⟨⟩)
  | read msg =>
    rw [next, books_handleServerMessage]
    exact hsame (by simp)
  | failPending reason =>
    rw [next, State.failPendingRequests_eq]
    exact .moved (by simp) (Or.inr rfl) (by rintro ⟨⟩)
  | decide =>
    rw [next, decideNext]
    split
    · exact .moved (by simp) (Or.inr rfl) (by rintro ⟨⟩)
    · dsimp only
      split
      · exact .moved (by simp) (Or.inr rfl) (by rintro ⟨⟩)
      · exact .moved (by simp) (Or.inr rfl) (by rintro ⟨⟩)
  | dial connected =>
    cases connected with
    | false => exact .moved (by simp) (Or.inr rfl) (by rintro ⟨⟩)
    | true => exact .dialed ha
  | resumeWrite error =>
    have hloop : s.loop = .resuming := ha
    cases error with
    | none => exact .resumed hloop
    | some e => exact .unresumed
  | resumeRead msg =>
    rw [next, books_handleServerMessage]
    exact hsame (by simp)
  | cleanup =>
    rw [next, State.failPendingRequests_eq]
    exact .moved (by simp) (Or.inr rfl) (by rintro ⟨⟩)
  | call data => exact hsame (by simp)
  | allocate i data => exact hsame (by simp)
  | receive i => exact hsame (by simp)
  | abandon i => exact hsame (by simp)
  | cancel => exact hsame (by simp)
  | dropConnection => exact hsame (by simp)
  | leaveShutdown => exact .moved (by simp) (Or.inr rfl) (by rintro ⟨⟩)
  | leaveChannelClosed => exact .moved (by simp) (Or.inr rfl) (by rintro ⟨⟩)
  | leaveLost reason => exact .moved (by simp) (Or.inr rfl) (by rintro ⟨⟩)
  | resumed => exact .moved (by simp) (Or.inr rfl) (by rintro ⟨⟩)
  | exit => exact .moved (by simp) (Or.inr rfl) (by rintro ⟨⟩)

/-! ## Calls and resumptions apart -/

/-- What is known of the frames on all sockets, when so many calls have been made. -/
structure Frames (b : Books ρ) (callCount : ℕ) : Prop where
  once : (b.dequeued.map (·.responseTx)).Nodup
  calls : (b.written.filterMap Written.label ++ b.loop.inHand.map PendingRequest.label).Sublist
    (b.dequeued.map PendingRequest.label)
  resumed : ∀ f ∈ b.written, f.call = none → f.id < b.counter
  counter : b.counter ≤ 1 + callCount + b.dequeued.length + b.resumeCount
  sockets : ∀ f ∈ b.written, f.socket ≤ b.socket
  resuming : b.loop = .resuming → ∀ f ∈ b.written, f.socket = b.socket → f.call = none

theorem frames_init (max : Option ℕ) : Frames (init max : State ρ β).books 0 where
  once := List.nodup_nil
  calls := List.Sublist.refl _
  resumed := nofun
  counter := Nat.le_refl 1
  sockets := nofun
  resuming := nofun

section

variable {s : State ρ β} {a : Action ρ β}

/-- The loop takes each request from the channel once, so that it takes no more than were made. -/
theorem dequeued_length_le (hids : Ids s) (honce : (s.dequeued.map (·.responseTx)).Nodup) :
    s.dequeued.length ≤ s.callCount := by
  have hsub : s.dequeued.map (·.responseTx) ⊆ s.issued := by
    intro i hi
    obtain ⟨r, hr, rfl⟩ := List.mem_map.mp hi
    obtain ⟨k, -, hk⟩ := hids.dequeued r hr
    exact List.mem_of_getElem? hk
  have hle := (List.subperm_of_subset honce hsub).length_le
  have hissued := hids.issued_length_le
  rw [List.length_map] at hle
  omega

/-- The request at the head of the channel has not been taken from it before. -/
theorem not_mem_dequeued (htok : Tokens s) {r : PendingRequest ρ}
    {rest : List (PendingRequest ρ)} (hc : s.channel = r :: rest) :
    r.responseTx ∉ s.dequeued.map (·.responseTx) := by
  intro hmem
  obtain ⟨q, hq, heq⟩ := List.mem_map.mp hmem
  have hserviced := htok.serviced q hq
  have hone := (htok.owes r.responseTx).le_one
  rw [heq] at hserviced
  simp only [tokens, hc, List.countP_cons, beq_self_eq_true, if_true, hserviced] at hone
  omega

/-- Ids are issued in order, one to a call. -/
theorem id_le_callCount (hids : Ids s) {id i : ℕ} (h : IssuedTo s id i) : id ≤ s.callCount := by
  obtain ⟨k, rfl, hk⟩ := h
  have hlt := (List.getElem?_eq_some_iff.mp hk).1
  have hle := hids.issued_length_le
  omega

namespace Frames

variable {b : Books ρ} {n : ℕ}

theorem label_nodup (h : Frames b n) : (b.dequeued.map PendingRequest.label).Nodup := by
  refine List.Nodup.of_map Prod.snd ?_
  rw [List.map_map]
  exact h.once

/-- More calls make no difference. -/
theorem mono (h : Frames b n) {m : ℕ} (hle : n ≤ m) : Frames b m where
  once := h.once
  calls := h.calls
  resumed := h.resumed
  counter := by
    have := h.counter
    omega
  sockets := h.sockets
  resuming := h.resuming

/-- Neither does a step of the loop that writes nothing and takes no request. -/
theorem moved (h : Frames b n) {loop : Loop ρ}
    (hhand : loop.inHand = b.loop.inHand ∨ loop.inHand = [])
    (hresuming : loop = .resuming → b.loop = .resuming) : Frames { b with loop := loop } n where
  once := h.once
  calls := by
    change (b.written.filterMap Written.label ++ loop.inHand.map PendingRequest.label).Sublist _
    rcases hhand with hsame | hnil
    · rw [hsame]
      exact h.calls
    · rw [hnil, List.map_nil, List.append_nil]
      exact (List.sublist_append_left _ _).trans h.calls
  resumed := h.resumed
  counter := h.counter
  sockets := h.sockets
  resuming hloop := h.resuming (hresuming hloop)

/-- A request taken from the channel raises the counter above its id. -/
theorem dequeue (h : Frames b n) {r : PendingRequest ρ} (hloop : b.loop = .serving)
    (hnew : r.responseTx ∉ b.dequeued.map (·.responseTx)) (hid : r.request.id ≤ n)
    (hroom : 1 + n + (b.dequeued.length + 1) + b.resumeCount < 2 ^ 32) :
    Frames { b with
      dequeued := b.dequeued ++ [r]
      counter := wrap32 (max r.request.id b.counter + 1)
      loop := .inserting r } n := by
  have hcounter := h.counter
  have hwrap : wrap32 (max r.request.id b.counter + 1) = max r.request.id b.counter + 1 :=
    wrap32_of_lt (by omega)
  constructor
  case once =>
    rw [List.map_append, List.nodup_append]
    refine ⟨h.once, List.nodup_singleton _, fun i hi j hj => ?_⟩
    rw [List.mem_singleton.mp hj]
    rintro rfl
    exact hnew hi
  case calls =>
    have hcalls := h.calls
    rw [hloop] at hcalls
    rw [List.map_append]
    refine List.Sublist.append ?_ (List.Sublist.refl _)
    simpa [Loop.inHand] using hcalls
  case resumed =>
    intro f hf hcall
    have := h.resumed f hf hcall
    change f.id < wrap32 _
    omega
  case counter =>
    change wrap32 _ ≤ 1 + n + (b.dequeued ++ [r]).length + b.resumeCount
    rw [List.length_append, List.length_singleton]
    omega
  case sockets => exact h.sockets
  case resuming => nofun

/-- A request that is written has been taken from the channel. -/
theorem write (h : Frames b n) {r : PendingRequest ρ} (hloop : b.loop = .writing r) (run : ℕ) :
    Frames { b with
      written := b.written ++ [⟨b.socket, run, r.request.id, some r.responseTx⟩]
      loop := .serving } n where
  once := h.once
  calls := by
    have hcalls := h.calls
    rw [hloop] at hcalls
    simpa [Loop.inHand, Written.label, PendingRequest.label] using hcalls
  resumed f hf hcall := by
    rcases List.mem_append.mp hf with hf | hf
    · exact h.resumed f hf hcall
    · rw [List.mem_singleton.mp hf] at hcall
      cases hcall
  counter := h.counter
  sockets f hf := by
    rcases List.mem_append.mp hf with hf | hf
    · exact h.sockets f hf
    · rw [List.mem_singleton.mp hf]
  resuming := nofun

/-- Nothing has been written on a new socket. -/
theorem dial (h : Frames b n) (hhand : b.loop.inHand = []) :
    Frames { b with socket := b.socket + 1, loop := .resuming } n where
  once := h.once
  calls := by
    have hcalls := h.calls
    rw [hhand] at hcalls
    exact hcalls
  resumed := h.resumed
  counter := h.counter
  sockets f hf := Nat.le_succ_of_le (h.sockets f hf)
  resuming _ f hf hsocket := by
    have hle := h.sockets f hf
    have hnew : f.socket = b.socket + 1 := hsocket
    omega

/-- A resume request takes the value of the counter as its id, whether it is written or not. -/
theorem resume (h : Frames b n) (frames : List Written)
    (hframes : ∀ f ∈ frames, f.call = none ∧ f.id = b.counter ∧ f.socket = b.socket)
    (hroom : b.counter + 1 < 2 ^ 32) :
    Frames { b with
      written := b.written ++ frames
      counter := wrap32 (b.counter + 1)
      resumeCount := b.resumeCount + 1 } n := by
  have hwrap : wrap32 (b.counter + 1) = b.counter + 1 := wrap32_of_lt hroom
  constructor
  case once => exact h.once
  case calls =>
    have hnone : frames.filterMap Written.label = [] := by
      refine List.filterMap_eq_nil_iff.mpr fun f hf => ?_
      rw [Written.label, (hframes f hf).1]
      rfl
    change ((b.written ++ frames).filterMap Written.label ++ _).Sublist _
    rw [List.filterMap_append, hnone, List.append_nil]
    exact h.calls
  case resumed =>
    intro f hf hcall
    change f.id < wrap32 _
    rcases List.mem_append.mp hf with hf | hf
    · have := h.resumed f hf hcall
      omega
    · have := (hframes f hf).2.1
      omega
  case counter =>
    have := h.counter
    change wrap32 _ ≤ 1 + n + b.dequeued.length + (b.resumeCount + 1)
    omega
  case sockets =>
    intro f hf
    rcases List.mem_append.mp hf with hf | hf
    · exact h.sockets f hf
    · exact le_of_eq (hframes f hf).2.2
  case resuming =>
    intro hloop f hf hsocket
    rcases List.mem_append.mp hf with hf | hf
    · exact h.resuming hloop f hf hsocket
    · exact (hframes f hf).1

end Frames

/-- A request that is about to be written has an id that no request frame of a call has. -/
theorem id_ne_of_call (h : Frames s.books s.callCount) (hids : Ids s) {r : PendingRequest ρ}
    (hloop : s.loop = .writing r) {f : Written} (hf : f ∈ s.written) (hcall : f.call ≠ none) :
    f.id ≠ r.request.id := by
  intro hid
  obtain ⟨i, hi⟩ := Option.ne_none_iff_exists'.mp hcall
  have hcalls : (s.written.filterMap Written.label ++
      s.loop.inHand.map PendingRequest.label).Sublist (s.dequeued.map PendingRequest.label) :=
    h.calls
  rw [hloop] at hcalls
  have hold : (f.id, i) ∈ s.written.filterMap Written.label :=
    List.mem_filterMap.mpr ⟨f, hf, by rw [Written.label, hi]; rfl⟩
  obtain ⟨q, hq, hqlabel⟩ := List.mem_map.mp (hcalls.subset (List.mem_append_left _ hold))
  obtain ⟨r', hr', hrlabel⟩ := List.mem_map.mp
    (hcalls.subset (List.mem_append_right _ List.mem_cons_self))
  have hqissued := hids.dequeued q hq
  have hrissued := hids.dequeued r' hr'
  obtain ⟨hqid, hqtx⟩ := Prod.mk.inj hqlabel
  obtain ⟨hrid, hrtx⟩ := Prod.mk.inj hrlabel
  rw [hqid, hqtx, hid] at hqissued
  rw [hrid, hrtx] at hrissued
  have hsame : (f.id, i) = r.label := by
    rw [hid, Ids.call_unique hqissued hrissued]
    rfl
  have hnodup := h.label_nodup.sublist hcalls
  exact (List.nodup_append.mp hnodup).2.2 _ hold _ List.mem_cons_self hsame

theorem resumeCount_le_next (ha : Enabled s a) : s.resumeCount ≤ (next s a).resumeCount := by
  have hc := booksChange ha
  change s.books.resumeCount ≤ (next s a).books.resumeCount
  generalize (next s a).books = b at hc
  cases hc with
  | resumed => exact Nat.le_succ _
  | unresumed => exact Nat.le_succ _
  | _ => exact Nat.le_refl _

/-- Every step keeps the account of the frames. -/
theorem frames_next (h : Frames s.books s.callCount) (hinv : Invariant s) (hids' : Ids (next s a))
    (hbound : (next s a).callCount + (next s a).resumeCount < 2 ^ 31) (ha : Enabled s a) :
    Frames (next s a).books (next s a).callCount := by
  have hcalls : s.callCount ≤ (next s a).callCount := callCount_le_next
  have hresumes := resumeCount_le_next ha
  have hlength := dequeued_length_le hinv.ids h.once
  have hcounter : s.requestIdCounter ≤ 1 + s.callCount + s.dequeued.length + s.resumeCount :=
    h.counter
  have hlength' : ((next s a).books.dequeued.map (·.responseTx)).Nodup →
      (next s a).books.dequeued.length ≤ (next s a).callCount := dequeued_length_le hids'
  have hresumes' : (next s a).books.resumeCount = (next s a).resumeCount := rfl
  have h' : Frames s.books (next s a).callCount := h.mono hcalls
  have hc := booksChange ha
  generalize (next s a).books = b at hc hlength' hresumes'
  cases hc with
  | moved _ hhand hresuming => exact h'.moved hhand hresuming
  | @dequeued r rest hloop hchannel =>
    have hid := id_le_callCount hinv.ids
      (hinv.ids.channel r (by rw [hchannel]; exact List.mem_cons_self))
    have hnew := not_mem_dequeued hinv.tokens hchannel
    have hmore : (s.dequeued ++ [r]).length ≤ (next s .dequeue).callCount := by
      refine hlength' ?_
      rw [List.map_append, List.nodup_append]
      refine ⟨h.once, List.nodup_singleton _, fun i hi j hj => ?_⟩
      rw [List.mem_singleton.mp hj]
      rintro rfl
      exact hnew hi
    rw [List.length_append, List.length_singleton] at hmore
    refine h'.dequeue hloop hnew (Nat.le_trans hid hcalls) ?_
    change 1 + (next s .dequeue).callCount + (s.dequeued.length + 1) + s.resumeCount < 2 ^ 32
    omega
  | written hloop => exact h'.write hloop s.run
  | dialed hloop => exact h'.dial (by change s.loop.inHand = []; rw [hloop]; rfl)
  | resumed =>
    have hone : s.resumeCount + 1 = (next s (.resumeWrite none)).resumeCount := hresumes'
    have hroom : s.requestIdCounter + 1 < 2 ^ 32 := by omega
    refine h'.resume [⟨s.socket, s.run, s.requestIdCounter, none⟩] (fun f hf => ?_) hroom
    rw [List.mem_singleton.mp hf]
    exact ⟨rfl, rfl, rfl⟩
  | @unresumed error =>
    have hone : s.resumeCount + 1 = (next s (.resumeWrite (some error))).resumeCount := hresumes'
    have hroom : s.requestIdCounter + 1 < 2 ^ 32 := by omega
    have hframes := h'.resume [] nofun hroom
    rwa [List.append_nil] at hframes

/-! ## Distinct ids -/

theorem idsOn_append {frames : List Written} {t : State ρ β}
    (ht : t.written = s.written ++ frames) (socket : ℕ) :
    t.idsOn socket = s.idsOn socket ++ (frames.filter (·.socket = socket)).map (·.id) := by
  rw [State.idsOn, ht, List.filter_append, List.map_append]
  rfl

/-- Writing one frame keeps the ids distinct if no frame on the same socket has its id. -/
theorem distinct_append {f : Written} {t : State ρ β} (ht : t.written = s.written ++ [f]) :
    t.Distinct ↔ s.Distinct ∧ ∀ g ∈ s.written, g.socket = f.socket → g.id ≠ f.id := by
  have hself : t.idsOn f.socket = s.idsOn f.socket ++ [f.id] := by
    rw [idsOn_append ht]
    simp
  have hother : ∀ socket, socket ≠ f.socket → t.idsOn socket = s.idsOn socket := by
    intro socket hne
    rw [idsOn_append ht, List.filter_cons_of_neg (by simpa using Ne.symm hne), List.filter_nil,
      List.map_nil, List.append_nil]
  have hmem : f.id ∉ s.idsOn f.socket ↔ ∀ g ∈ s.written, g.socket = f.socket → g.id ≠ f.id := by
    simp only [State.idsOn, List.mem_map, List.mem_filter, decide_eq_true_iff, not_exists, not_and]
    exact ⟨fun h g hg hsocket hid => h g ⟨hg, hsocket⟩ hid, fun h g hg hid => h g hg.1 hg.2 hid⟩
  have hnodup : (t.idsOn f.socket).Nodup ↔
      (s.idsOn f.socket).Nodup ∧ f.id ∉ s.idsOn f.socket := by
    rw [hself, List.nodup_append]
    simp only [List.mem_singleton, List.nodup_singleton, true_and]
    exact and_congr_right fun _ => ⟨fun h hf => h f.id hf f.id rfl rfl,
      fun h i hi j hj heq => h (by rwa [← hj, ← heq])⟩
  rw [← hmem]
  constructor
  · intro h
    refine ⟨fun socket => ?_, (hnodup.mp (h _)).2⟩
    by_cases hsocket : socket = f.socket
    · rw [hsocket]
      exact (hnodup.mp (h _)).1
    · rw [← hother socket hsocket]
      exact h socket
  · rintro ⟨h, hnew⟩ socket
    by_cases hsocket : socket = f.socket
    · rw [hsocket]
      exact hnodup.mpr ⟨h _, hnew⟩
    · rw [hother socket hsocket]
      exact h socket

/-- **One step.** The ids stay distinct exactly when the step avoids the ids of resume requests. -/
theorem distinct_next (h : Frames s.books s.callCount) (hids : Ids s) (ha : Enabled s a) :
    (next s a).Distinct ↔ s.Distinct ∧ AvoidsResumed s a := by
  have hsame : (next s a).written = s.written → AvoidsResumed s a →
      ((next s a).Distinct ↔ s.Distinct ∧ AvoidsResumed s a) := by
    intro hwritten havoids
    have hids : ∀ socket, (next s a).idsOn socket = s.idsOn socket := fun socket => by
      rw [State.idsOn, hwritten, State.idsOn]
    refine ⟨fun hd => ⟨fun socket => hids socket ▸ hd socket, havoids⟩, fun hd socket => ?_⟩
    rw [hids]
    exact hd.1 socket
  have hc := booksChange ha
  generalize hb : (next s a).books = b at hc
  have hwritten : (next s a).written = b.written := congrArg Books.written hb
  cases hc with
  | moved hwrite =>
    refine hsame hwritten ?_
    cases a with
    | write r error =>
      cases error with
      | none => exact absurd rfl (hwrite r)
      | some e => trivial
    | _ => trivial
  | dequeued => exact hsame hwritten trivial
  | @written r hloop =>
    rw [distinct_append hwritten]
    refine and_congr_right fun _ => ⟨fun hnew f hf hsocket _ => hnew f hf hsocket, ?_⟩
    intro havoids f hf hsocket
    by_cases hcall : f.call = none
    · exact havoids f hf hsocket hcall
    · exact id_ne_of_call h hids hloop hf hcall
  | dialed => exact hsame hwritten trivial
  | resumed hloop =>
    rw [distinct_append hwritten]
    refine and_congr_right fun _ => ⟨fun _ => trivial, fun _ f hf hsocket => ?_⟩
    have hlt : f.id < s.requestIdCounter := h.resumed f hf (h.resuming hloop f hf hsocket)
    exact Nat.ne_of_lt hlt
  | unresumed => exact hsame hwritten trivial

end

/-! ## The numbers of the calls -/

/-- How the resume requests among these steps fared: `none` for one that was written. -/
def resumeOutcomes (as : List (Action ρ β)) : List (Option String) :=
  as.filterMap fun a => match a with
    | .resumeWrite error => some error
    | _ => none

/-- When a dial succeeds with the loop's counter at `c`, then the resume requests on the new socket
take the numbers from `c` on, one after the other, also those that cannot be written. The call whose
`fetch_add` had the number of a resume request that was written is not written on this socket. -/
def Avoids (max : Option ℕ) (as : List (Action ρ β)) : Prop :=
  ∀ past during r future, as = past ++ .dial true :: (during ++ .write r none :: future) →
    .dial true ∉ during → ∀ j, (resumeOutcomes during)[j]? = some none →
      ¬IssuedTo ((system ρ β).exec (init max) as)
        (((system ρ β).exec (init max) past).requestIdCounter + j) r.responseTx

theorem resumeOutcomes_append (as : List (Action ρ β)) (a : Action ρ β) :
    resumeOutcomes (as ++ [a]) = resumeOutcomes as ++ resumeOutcomes [a] := List.filterMap_append

/-- Where an entry of a list that has grown by one stands. -/
theorem exists_getElem?_concat {α : Type} {l : List α} {x y : α} {P : ℕ → Prop} :
    (∃ j, (l ++ [x])[j]? = some y ∧ P j) ↔ (∃ j, l[j]? = some y ∧ P j) ∨ x = y ∧ P l.length := by
  constructor
  · rintro ⟨j, hj, hP⟩
    rcases Nat.lt_or_ge j l.length with hlt | hge
    · rw [List.getElem?_append_left hlt] at hj
      exact Or.inl ⟨j, hj, hP⟩
    · have hlt := (List.getElem?_eq_some_iff.mp hj).1
      rw [List.length_append, List.length_singleton] at hlt
      obtain rfl : j = l.length := by omega
      rw [List.getElem?_concat_length] at hj
      exact Or.inr ⟨Option.some.inj hj, hP⟩
  · rintro (⟨j, hj, hP⟩ | ⟨rfl, hP⟩)
    · refine ⟨j, ?_, hP⟩
      rw [List.getElem?_append_left (List.getElem?_eq_some_iff.mp hj).1, hj]
    · exact ⟨l.length, List.getElem?_concat_length, hP⟩

/-- The ids of the resume requests on this socket. -/
def State.Resumes (s : State ρ β) (id : ℕ) : Prop :=
  ∃ f ∈ s.written, f.socket = s.socket ∧ f.call = none ∧ f.id = id

/-- What has become of the numbers from `c` on, in the steps since the dial. -/
structure Block (c : ℕ) (during : List (Action ρ β)) (s : State ρ β) : Prop where
  resumes : ∀ id, s.Resumes id ↔ ∃ j, (resumeOutcomes during)[j]? = some none ∧ id = c + j
  counter : s.loop = .resuming → s.requestIdCounter = c + (resumeOutcomes during).length

section

variable {s : State ρ β} {a : Action ρ β} {c : ℕ} {during : List (Action ρ β)}

/-- The number of calls and resume requests allowed for. -/
def State.Within (s : State ρ β) : Prop := s.callCount + s.resumeCount < 2 ^ 31

theorem within_of_next (ha : Enabled s a) (h : (next s a).Within) : s.Within := by
  have hcalls : s.callCount ≤ (next s a).callCount := callCount_le_next
  have hresumes := resumeCount_le_next ha
  rw [State.Within] at h ⊢
  omega

/-- The invariants of the requests, with the account of the frames. -/
def Booked (s : State ρ β) : Prop := Invariant s ∧ Frames s.books s.callCount

theorem booked_init (max : Option ℕ) : Booked (init max : State ρ β) :=
  ⟨⟨ids_init max, phases_init max, tokens_init max, answered_init max⟩, frames_init max⟩

theorem booked_next (h : Booked s) (ha : Enabled s a) (hwithin : (next s a).Within) :
    Booked (next s a) := by
  obtain ⟨hinv, hframes⟩ := h
  have hcalls : (next s a).callCount < 2 ^ 31 :=
    Nat.lt_of_le_of_lt (Nat.le_add_right _ _) hwithin
  have hids' : Ids (next s a) := ids_next hinv.ids ha hcalls
  exact ⟨⟨hids', phases_next hinv.phases ha, tokens_next hinv.ids hinv.tokens ha,
    answered_next hinv.ids hinv.phases hinv.answered ha⟩,
    frames_next hframes hinv hids' hwithin ha⟩

/-- A step that neither dials nor resumes does not change what has been resumed. -/
theorem resumes_next (hdial : a ≠ .dial true) (hresume : ∀ error, a ≠ .resumeWrite error)
    (ha : Enabled s a) : (∀ id, (next s a).Resumes id ↔ s.Resumes id) ∧
      ((next s a).loop = .resuming →
        s.loop = .resuming ∧ (next s a).requestIdCounter = s.requestIdCounter) := by
  have hsame : ∀ {b : Books ρ}, (next s a).books = b → b.written = s.written →
      b.socket = s.socket → ∀ id, (next s a).Resumes id ↔ s.Resumes id := by
    intro b hb hwritten hsocket id
    have hw : (next s a).written = s.written := (congrArg Books.written hb).trans hwritten
    have hs : (next s a).socket = s.socket := (congrArg Books.socket hb).trans hsocket
    rw [State.Resumes, hw, hs]
    exact Iff.rfl
  have hc := booksChange ha
  generalize hb : (next s a).books = b at hc
  have hloop : (next s a).loop = b.loop := congrArg Books.loop hb
  have hcounter : (next s a).requestIdCounter = b.counter := congrArg Books.counter hb
  cases hc with
  | moved _ _ hresuming =>
    exact ⟨hsame hb rfl rfl, fun h => ⟨hresuming (hloop.symm.trans h), hcounter⟩⟩
  | dequeued => exact ⟨hsame hb rfl rfl, fun h => by cases hloop.symm.trans h⟩
  | @written r =>
    refine ⟨fun id => ?_, fun h => by cases hloop.symm.trans h⟩
    have hw : (next s (.write r none)).written =
      s.written ++ [⟨s.socket, s.run, r.request.id, some r.responseTx⟩] := congrArg Books.written hb
    have hs : (next s (.write r none)).socket = s.socket := congrArg Books.socket hb
    rw [State.Resumes, hw, hs]
    constructor
    · rintro ⟨f, hf, hsocket, hcall, hid⟩
      rcases List.mem_append.mp hf with hf | hf
      · exact ⟨f, hf, hsocket, hcall, hid⟩
      · rw [List.mem_singleton.mp hf] at hcall
        cases hcall
    · rintro ⟨f, hf, hf'⟩
      exact ⟨f, List.mem_append_left _ hf, hf'⟩
  | dialed => exact absurd rfl hdial
  | resumed => exact absurd rfl (hresume none)
  | unresumed => exact absurd rfl (hresume _)

/-- A new socket has no resume requests, and the numbers start at the counter. -/
theorem block_dial (h : Booked s) : Block s.requestIdCounter [] (next s (.dial true)) where
  resumes id := by
    refine iff_of_false ?_ nofun
    rintro ⟨f, hf, hsocket, -⟩
    have hle : f.socket ≤ s.socket := h.2.sockets f hf
    have hnew : f.socket = s.socket + 1 := hsocket
    omega
  counter _ := rfl

/-- **One step** of a resumption and of what comes after it on the same socket. -/
theorem Block.next (h : Block c during s) (hbooked : Booked s) (hdial : a ≠ .dial true)
    (ha : Enabled s a) (hwithin : (next s a).Within) :
    Block c (during ++ [a]) (Requests.next s a) := by
  have hother : (∀ error, a ≠ .resumeWrite error) →
      Block c (during ++ [a]) (Requests.next s a) := by
    intro hresume
    have hnone : resumeOutcomes [a] = [] := by
      cases a with
      | resumeWrite error => exact absurd rfl (hresume error)
      | _ => rfl
    obtain ⟨hresumes, hcounter⟩ := resumes_next hdial hresume ha
    refine ⟨fun id => ?_, fun hloop => ?_⟩
    · rw [resumeOutcomes_append, hnone, List.append_nil, hresumes]
      exact h.resumes id
    · obtain ⟨hresuming, hsame⟩ := hcounter hloop
      rw [resumeOutcomes_append, hnone, List.append_nil, hsame, h.counter hresuming]
  cases a with
  | resumeWrite error =>
    have hcounter := h.counter ha
    have hbound : s.requestIdCounter ≤ 1 + s.callCount + s.dequeued.length + s.resumeCount :=
      hbooked.2.counter
    have hlength := dequeued_length_le hbooked.1.ids hbooked.2.once
    have hwithin' : s.callCount + (s.resumeCount + 1) < 2 ^ 31 := hwithin
    have hwrap : wrap32 (s.requestIdCounter + 1) = s.requestIdCounter + 1 :=
      wrap32_of_lt (by omega)
    have hone : resumeOutcomes [Action.resumeWrite (ρ := ρ) (β := β) error] = [error] := rfl
    refine ⟨fun id => ?_, fun _ => ?_⟩
    · rw [resumeOutcomes_append, hone, exists_getElem?_concat, ← h.resumes id, ← hcounter]
      cases error with
      | none =>
        change (∃ f ∈ s.written ++ [⟨s.socket, s.run, s.requestIdCounter, none⟩], _) ↔ _
        constructor
        · rintro ⟨f, hf, hf'⟩
          rcases List.mem_append.mp hf with hf | hf
          · exact Or.inl ⟨f, hf, hf'⟩
          · rw [List.mem_singleton.mp hf] at hf'
            exact Or.inr ⟨rfl, hf'.2.2.symm⟩
        · rintro (⟨f, hf, hf'⟩ | ⟨-, rfl⟩)
          · exact ⟨f, List.mem_append_left _ hf, hf'⟩
          · exact ⟨_, List.mem_append_right _ List.mem_cons_self, rfl, rfl, rfl⟩
      | some e => exact (or_iff_left nofun).symm
    · rw [resumeOutcomes_append, hone, List.length_append, List.length_singleton]
      change wrap32 _ = _
      rw [hwrap, hcounter, Nat.add_assoc]
  | _ => exact hother nofun

end

/-- On the first socket nothing is resumed. -/
theorem no_resumes {max : Option ℕ} {as : List (Action ρ β)}
    (hv : (system ρ β).Valid (init max) as) (hdial : .dial true ∉ as) (id : ℕ) :
    ¬((system ρ β).exec (init max) as).Resumes id := by
  have hfirst : .dial true ∉ as → ((system ρ β).exec (init max) as).loop ≠ .resuming ∧
      ∀ id, ¬((system ρ β).exec (init max) as).Resumes id := by
    refine Transition.System.history (J := fun past s => .dial true ∉ past →
      s.loop ≠ .resuming ∧ ∀ id, ¬s.Resumes id) (fun past s a h ha hno => ?_) (fun _ => ?_) hv
    · rw [List.mem_append, not_or, List.mem_singleton] at hno
      obtain ⟨hloop, hnone⟩ := h hno.1
      have hresume : ∀ error, a ≠ .resumeWrite error := by
        rintro error rfl
        exact hloop ha
      obtain ⟨hresumes, hresuming⟩ := resumes_next (Ne.symm hno.2) hresume ha
      exact ⟨fun h' => hloop (hresuming h').1, fun id h' => hnone id ((hresumes id).mp h')⟩
    · exact ⟨nofun, fun id ⟨f, hf, _⟩ => absurd hf List.not_mem_nil⟩
  exact (hfirst hdial).2 id

/-- **Since the last dial.** The ids of the resume requests on the socket are those of the block
that the resumption has taken. -/
theorem block_of_dial {max : Option ℕ} {past during : List (Action ρ β)}
    (hv : (system ρ β).Valid (init max) (past ++ .dial true :: during))
    (hdial : .dial true ∉ during)
    (hpast : Booked ((system ρ β).exec (init max) past))
    (hwithin : ((system ρ β).exec (init max) (past ++ .dial true :: during)).Within) :
    Block ((system ρ β).exec (init max) past).requestIdCounter during
      ((system ρ β).exec (init max) (past ++ .dial true :: during)) := by
  rw [Transition.System.exec_append] at hwithin ⊢
  obtain ⟨-, hv⟩ := (system ρ β).valid_append.mp hv
  generalize (system ρ β).exec (init max) past = s at hpast hwithin hv ⊢
  have hrun : .dial true ∉ during → ((system ρ β).exec (next s (.dial true)) during).Within →
      Booked ((system ρ β).exec (next s (.dial true)) during) ∧
        Block s.requestIdCounter during ((system ρ β).exec (next s (.dial true)) during) := by
    refine Transition.System.history (S := system ρ β) (J := fun past t => .dial true ∉ past →
      t.Within → Booked t ∧ Block s.requestIdCounter past t)
      (fun past t a h ha hno hbound => ?_) (fun _ hbound => ?_) hv.2
    · rw [List.mem_append, not_or, List.mem_singleton] at hno
      obtain ⟨hbooked, hblock⟩ := h hno.1 (within_of_next ha hbound)
      exact ⟨booked_next hbooked ha hbound, hblock.next hbooked (Ne.symm hno.2) ha hbound⟩
    · exact ⟨booked_next (a := .dial true) hpast hv.1 hbound, block_dial hpast⟩
  exact (hrun hdial hwithin).2

/-- The last dial of a run, if there is one. -/
theorem eq_append_dial {as : List (Action ρ β)} (h : .dial true ∈ as) :
    ∃ past during, as = past ++ .dial true :: during ∧ .dial true ∉ during := by
  obtain ⟨l, l', heq, hno⟩ := List.eq_append_cons_of_mem (List.mem_reverse.mpr h)
  refine ⟨l'.reverse, l.reverse, ?_, fun hmem => hno (List.mem_reverse.mp hmem)⟩
  rw [← List.reverse_reverse as, heq, List.reverse_append, List.reverse_cons, List.append_assoc,
    List.singleton_append]

/-- A request that is about to be written has the number of its call. -/
theorem issuedTo_of_writing {s : State ρ β} (h : Booked s) {r : PendingRequest ρ}
    (hloop : s.loop = .writing r) : IssuedTo s r.request.id r.responseTx := by
  have hcalls : (s.written.filterMap Written.label ++
      s.loop.inHand.map PendingRequest.label).Sublist (s.dequeued.map PendingRequest.label) :=
    h.2.calls
  rw [hloop] at hcalls
  obtain ⟨q, hq, hlabel⟩ := List.mem_map.mp
    (hcalls.subset (List.mem_append_right _ List.mem_cons_self))
  obtain ⟨hid, hcall⟩ := Prod.mk.inj hlabel
  rw [← hid, ← hcall]
  exact h.1.ids.dequeued q hq

/-- Only a `fetch_add` gives a call its number, and it takes none away. -/
theorem issued_next {s : State ρ β} {a : Action ρ β} : ∃ l, (next s a).issued = s.issued ++ l := by
  have hsame : ∀ {t : State ρ β}, t.issued = s.issued → ∃ l, t.issued = s.issued ++ l :=
    fun h => ⟨[], by rw [h, List.append_nil]⟩
  cases a with
  | allocate i data => exact ⟨[i], rfl⟩
  | check i data => rw [next]; split <;> exact hsame rfl
  | enqueue i request => rw [next]; split <;> exact hsame rfl
  | dequeue => rw [next, dequeueNext]; split <;> exact hsame rfl
  | encode r error =>
    cases error
    · exact hsame rfl
    · rw [next, State.completePending_eq]
      exact hsame rfl
  | write r error =>
    cases error
    · exact hsame rfl
    · rw [next, State.completePending_eq]
      exact hsame rfl
  | read msg =>
    rcases s.handleServerMessage_eq msg with heq | ⟨id, result, -, -, heq⟩
    · exact hsame (by rw [next, heq])
    · exact hsame (by rw [next, heq, State.completePending_eq])
  | failPending reason => exact hsame (by rw [next, State.failPendingRequests_eq])
  | decide => simp only [next, decideNext]; split_ifs <;> exact hsame rfl
  | dial connected => cases connected <;> exact hsame rfl
  | resumeRead msg =>
    rcases s.handleServerMessage_eq msg with heq | ⟨id, result, -, -, heq⟩
    · exact hsame (by rw [next, heq])
    · exact hsame (by rw [next, heq, State.completePending_eq])
  | cleanup => exact hsame (by rw [next, State.failPendingRequests_eq])
  | _ => exact hsame rfl

/-- Numbers are kept. -/
theorem issuedTo_exec {s : State ρ β} {as : List (Action ρ β)} {id i : ℕ}
    (h : IssuedTo s id i) : IssuedTo ((system ρ β).exec s as) id i := by
  induction as generalizing s with
  | nil => exact h
  | cons a as ih =>
    obtain ⟨l, hl⟩ := @issued_next ρ β s a
    exact ih (h.append hl)

/-- The frames of the resume requests on a socket have the numbers that its resumption has used, and
those of the calls have the numbers of the calls. -/
theorem along_avoidsResumed_iff {max : Option ℕ} {as : List (Action ρ β)}
    (hv : (system ρ β).Valid (init max) as)
    (hbooked : (system ρ β).Along (fun s _ => Booked s ∧ s.Within) (init max) as)
    (hids : Ids ((system ρ β).exec (init max) as)) :
    (system ρ β).Along AvoidsResumed (init max) as ↔ Avoids max as := by
  rw [Transition.System.along_iff] at hbooked ⊢
  have hissued : ∀ past r future, as = past ++ .write r none :: future →
      IssuedTo ((system ρ β).exec (init max) as) r.request.id r.responseTx := by
    intro past r future has
    have hloop : (system ρ β).Enabled ((system ρ β).exec (init max) past) (.write r none) := by
      rw [has] at hv
      exact ((system ρ β).valid_append.mp hv).2.1
    have hnumber := issuedTo_of_writing (hbooked past _ future has).1 hloop
    rw [has, Transition.System.exec_append]
    exact issuedTo_exec hnumber
  have hblock : ∀ past during a future, as = past ++ .dial true :: (during ++ a :: future) →
      .dial true ∉ during → Block ((system ρ β).exec (init max) past).requestIdCounter during
        ((system ρ β).exec (init max) (past ++ .dial true :: during)) := by
    intro past during a future has hdial
    have has' : as = (past ++ .dial true :: during) ++ a :: future := by
      rw [has, List.append_assoc, List.cons_append]
    refine block_of_dial ?_ hdial (hbooked past _ _ has).1 (hbooked _ a future has').2
    rw [has'] at hv
    exact ((system ρ β).valid_append.mp hv).1
  constructor
  · intro h past during r future has hdial j hj hnumber
    have has' : as = (past ++ .dial true :: during) ++ .write r none :: future := by
      rw [has, List.append_assoc, List.cons_append]
    obtain ⟨f, hf, hsocket, hcall, hid⟩ :=
      ((hblock past during _ future has hdial).resumes _).mpr ⟨j, hj, rfl⟩
    refine h _ _ future has' f hf hsocket hcall ?_
    rw [hid]
    exact hids.id_unique hnumber (hissued _ r future has')
  · intro h past a future has
    cases a with
    | write r error =>
      cases error with
      | some e => trivial
      | none =>
        intro f hf hsocket hcall hid
        have hnumber := hissued past r future has
        have hresumes : ((system ρ β).exec (init max) past).Resumes r.request.id :=
          ⟨f, hf, hsocket, hcall, hid⟩
        by_cases hdial : .dial true ∈ past
        · obtain ⟨past, during, rfl, hno⟩ := eq_append_dial hdial
          have has' : as = past ++ .dial true :: (during ++ .write r none :: future) := by
            rw [has, List.append_assoc, List.cons_append]
          obtain ⟨j, hj, hid⟩ :=
            ((hblock past during _ future has' hno).resumes _).mp hresumes
          rw [hid] at hnumber
          exact h past during r future has' hno j hj hnumber
        · rw [has] at hv
          exact no_resumes ((system ρ β).valid_append.mp hv).1 hdial _ hresumes
    | _ => trivial

/-- **The ids on each socket are pairwise distinct exactly when no call is written on a socket whose
number the resumption on that socket has used.** Whatever the order of calls, and however often the
connection is lost, two calls never share an id, neither do two resume requests, and no resume
request has the id of a call that was written on its socket before. -/
theorem ids_distinct_iff (max : Option ℕ) (as : List (Action ρ β))
    (hv : (system ρ β).Valid (init max) as)
    (hbound : ((system ρ β).exec (init max) as).callCount +
      ((system ρ β).exec (init max) as).resumeCount < 2 ^ 31) :
    ((system ρ β).exec (init max) as).Distinct ↔ Avoids max as := by
  have hbooked := Transition.System.along_of_bounded (B := State.Within)
    (R := fun s : State ρ β => Booked s ∧ s.Within) (fun _ _ => within_of_next)
    (fun _ _ h ha hlt => ⟨booked_next h.1 ha hlt, hlt⟩)
    ⟨booked_init max, show 0 + 0 < 2 ^ 31 by decide⟩ hv hbound
  have hids := (invariant_exec max hv (Nat.lt_of_le_of_lt (Nat.le_add_right _ _) hbound)).ids
  rw [← along_avoidsResumed_iff hv hbooked hids,
    Transition.System.iff_along (P := State.Distinct) (C := AvoidsResumed)
      (fun s a h ha => distinct_next h.1.2 h.1.1.ids ha) hbooked hv]
  exact and_iff_right fun socket => List.nodup_nil

/-- A request is answered, the connection is lost and replaced, one stream is resumed, and the loop
serves the new connection. -/
def resumeOne : List (Action ℕ ℕ) :=
  [.call 10, .check 0 10, .allocate 0 10, .enqueue 0 ⟨1, 10⟩, .dequeue, .insert ⟨⟨1, 10⟩, 0⟩,
    .encode ⟨⟨1, 10⟩, 0⟩ none, .write ⟨⟨1, 10⟩, 0⟩ none, .read (.response 1 11), .receive 0,
    .leaveLost "reset", .failPending "reset", .decide, .dial true, .resumeWrite none,
    .resumeRead (.response 2 12), .resumed]

/-- The next request. -/
def requestTwo : List (Action ℕ ℕ) :=
  [.call 20, .check 1 20, .allocate 1 20, .enqueue 1 ⟨2, 20⟩, .dequeue, .insert ⟨⟨2, 20⟩, 1⟩,
    .encode ⟨⟨2, 20⟩, 1⟩ none, .write ⟨⟨2, 20⟩, 1⟩ none]

theorem ids_distinct_iff_resumeOne :
    ((system ℕ ℕ).exec (init none) resumeOne).Distinct ↔ Avoids none resumeOne :=
  ids_distinct_iff none resumeOne (by decide) (by decide)

/-- **The first request after a resumption reuses its id.** The resume request and the next request
are both written on the second socket with id 2. -/
theorem resumed_id_reused :
    (system ℕ ℕ).Valid (init none) (resumeOne ++ requestTwo) ∧
      ((system ℕ ℕ).exec (init none) (resumeOne ++ requestTwo)).callCount +
        ((system ℕ ℕ).exec (init none) (resumeOne ++ requestTwo)).resumeCount < 2 ^ 31 ∧
      ¬((system ℕ ℕ).exec (init none) (resumeOne ++ requestTwo)).Distinct := by
  refine ⟨by decide, by decide, fun h => ?_⟩
  have htwice : ((system ℕ ℕ).exec (init none) (resumeOne ++ requestTwo)).idsOn 1 = [2, 2] := by
    decide
  have hnodup := h 1
  rw [htwice] at hnodup
  exact absurd hnodup (by decide)

end Requests

end TitanClient
