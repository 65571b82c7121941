import TitanClient.SlotChanges

/-!
# Who is started, and who gets the result

Each claim comes with one call of `start_stream_internal`, for the request of the call that made the
claim or of the one whose request the worker has taken from the queue. Queued requests are started
in the order in which they were pushed, each at most once, and what is put into the result channel
of a call is the result of its own start, once.

## Main results

* `State.starts` — the requests that have been started, in that order
* `State.Own` — a result of a call's own start
* `queue_fifo` — first in, first out, each once, each with its own result
-/

namespace TitanClient

namespace Slots

/-- The calls for whose requests `start_stream_internal` has been invoked, in that order. -/
def State.starts (s : State) : List ℕ := (List.range s.claimCount).map fun c => (s.claims c).call

/-- The start of call `i` has come to an end with this result. -/
def State.Own (s : State) (i : ℕ) (result : Result) : Prop :=
  ∃ c < s.claimCount, (s.claims c).call = i ∧ (s.claims c).start = .done result

/-- The call has put its request into the queue, or is over. -/
def Caller.isQueued : Caller → Bool
  | .flagging => true
  | .spawning => true
  | .waiting => true
  | .returned _ => true
  | .cancelled => true
  | _ => false

/-- The call is started by itself, or is over. -/
def Caller.isStarted (c : ℕ) : Caller → Bool
  | .starting d => d == c
  | .returned _ => true
  | .cancelled => true
  | _ => false

/-- The call has come to its end. -/
def Caller.isOver : Caller → Bool
  | .returned _ => true
  | .cancelled => true
  | _ => false

/-! ## The books -/

/-- What is written down about calls and claims. -/
structure Books where
  pushed : List ℕ
  popped : List ℕ
  claimCount : ℕ
  inbox : ℕ → List Result

/-- The books of a state. -/
def State.books (s : State) : Books := ⟨s.pushed, s.popped, s.claimCount, s.inbox⟩

/-- All that a step can do to the books. -/
inductive BooksChange (s : State) : Action → Books → Prop
  | same {a : Action} : BooksChange s a s.books
  | pushed {i : ℕ} (h : s.calls i = .pushing) :
      BooksChange s (.push i) { s.books with pushed := s.pushed ++ [i] }
  | claimed {i current : ℕ} (h : s.calls i = .claiming current) (heq : s.activeCount = current) :
      BooksChange s (.claim i current) { s.books with claimCount := s.claimCount + 1 }
  | started {w i current : ℕ} (h : s.workers w = .claiming i current)
      (heq : s.activeCount = current) :
      BooksChange s (.workerClaim w i current)
        { s.books with claimCount := s.claimCount + 1, popped := s.popped ++ [i] }
  | delivered {w c i : ℕ} {result : Result} (h : s.workers w = .starting c i)
      (hstart : (s.claims c).start = .done result) (hlisten : (s.calls i).listens = true) :
      BooksChange s (.deliver w c i result)
        { s.books with inbox := Function.update s.inbox i (s.inbox i ++ [result]) }
  | received {i : ℕ} {result : Result} {rest : List Result} (h : s.inbox i = result :: rest) :
      BooksChange s (.receive i) { s.books with inbox := Function.update s.inbox i [] }
  | abandoned {i : ℕ} :
      BooksChange s (.abandonWait i) { s.books with inbox := Function.update s.inbox i [] }

section

variable {s : State} {a : Action}

/-- Each step changes the books in one of these ways, or not at all. -/
theorem booksChange (ha : Enabled s a) : BooksChange s a (next s a).books := by
  cases a with
  | claim i current =>
    rw [next]
    split
    · exact .claimed ha ‹_›
    · exact .same
  | push i => exact .pushed ha
  | flagWorker i =>
    rw [next]
    split <;> exact .same
  | receive i =>
    rw [next]
    split
    · exact .received ‹_›
    · exact .same
  | abandonWait i =>
    rw [next, abandonWaitNext, foldl_dropResult_eq]
    exact .abandoned
  | park w =>
    rw [next]
    split <;> exact .same
  | pop w current =>
    rw [next]
    split <;> exact .same
  | reflag w =>
    rw [next]
    split <;> exact .same
  | workerClaim w i current =>
    rw [next]
    split
    · exact .started ha ‹_›
    · exact .same
  | deliver w c i result =>
    rw [next, deliverNext_eq]
    by_cases hlisten : (s.calls i).listens = true
    · rw [if_pos hlisten]
      exact .delivered ha.1 ha.2 hlisten
    · rw [if_neg hlisten]
      exact .same
  | respond c reply => cases reply <;> exact .same
  | swap r =>
    rw [next, swapNext]
    split <;> exact .same
  | notify r woken => cases woken <;> exact .same
  | stop c =>
    rw [next, stopNext]
    split <;> exact .same
  | dropHandle c runtime =>
    have hbooks : (s.dropHandle c runtime).books = s.books := by
      rw [State.dropHandle]
      split
      · split <;> rfl
      · rfl
      · rfl
      · rfl
    rw [next, hbooks]
    exact .same
  | _ => exact .same

/-- All that a step can do to the result channel of call `i`. -/
inductive InboxChange (s : State) (i : ℕ) : Action → List Result → Prop
  | same {a : Action} : InboxChange s i a (s.inbox i)
  | delivered {w c : ℕ} {result : Result} (h : s.workers w = .starting c i)
      (hstart : (s.claims c).start = .done result) :
      InboxChange s i (.deliver w c i result) (s.inbox i ++ [result])
  | received {result : Result} {rest : List Result} (h : s.inbox i = result :: rest) :
      InboxChange s i (.receive i) []
  | abandoned : InboxChange s i (.abandonWait i) []

/-- Each step changes a result channel in one of these ways, or not at all. -/
theorem inboxChange (ha : Enabled s a) (i : ℕ) : InboxChange s i a ((next s a).inbox i) := by
  have hc := booksChange ha
  change InboxChange s i a ((next s a).books.inbox i)
  generalize (next s a).books = b at hc
  have hupdate : ∀ {j : ℕ} {results : List Result}, InboxChange s j a results →
      InboxChange s i a (Function.update s.inbox j results i) := by
    intro j results hj
    by_cases hi : i = j
    · subst hi
      rwa [Function.update_self]
    · rw [Function.update_of_ne hi]
      exact .same
  cases hc with
  | delivered hw hstart => exact hupdate (.delivered hw hstart)
  | received hj => exact hupdate (.received hj)
  | abandoned => exact hupdate .abandoned
  | _ => exact .same

/-- A claim stays with its call. -/
theorem call_next (ha : Enabled s a) {c : ℕ} (hc : c < s.claimCount) :
    ((next s a).claims c).call = (s.claims c).call := by
  have hchange := claimChange ha c
  generalize (next s a).claims c = v at hchange
  cases hchange with
  | made hnew => exact absurd hc (by rw [hnew]; exact lt_irrefl _)
  | madeByWorker hnew => exact absurd hc (by rw [hnew]; exact lt_irrefl _)
  | _ => rfl

/-- A start that has come to its end stays there. -/
theorem done_next (ha : Enabled s a) {c : ℕ} (hc : c < s.claimCount) {result : Result}
    (h : (s.claims c).start = .done result) : ((next s a).claims c).start = .done result := by
  have hchange := claimChange ha c
  generalize (next s a).claims c = v at hchange
  cases hchange with
  | made hnew => exact absurd hc (by rw [hnew]; exact lt_irrefl _)
  | madeByWorker hnew => exact absurd hc (by rw [hnew]; exact lt_irrefl _)
  | denied hs => cases h.symm.trans hs
  | answered hs => cases h.symm.trans hs
  | registered hs => cases h.symm.trans hs
  | failed hs => cases h.symm.trans hs
  | startAbandoned _ hs =>
    rw [h] at hs
    cases hs
  | _ => exact h

theorem claimCount_le (ha : Enabled s a) : s.claimCount ≤ (next s a).claimCount := by
  have hc := booksChange ha
  change s.books.claimCount ≤ (next s a).books.claimCount
  generalize (next s a).books = b at hc
  cases hc with
  | claimed => exact Nat.le_succ _
  | started => exact Nat.le_succ _
  | _ => exact le_refl _

theorem own_next (ha : Enabled s a) {i : ℕ} {result : Result} (h : s.Own i result) :
    (next s a).Own i result := by
  obtain ⟨c, hc, hcall, hstart⟩ := h
  exact ⟨c, lt_of_lt_of_le hc (claimCount_le ha), (call_next ha hc).trans hcall,
    done_next ha hc hstart⟩

/-- A start is invoked with the claim that is made for it. -/
theorem starts_next (ha : Enabled s a) :
    (next s a).claimCount = s.claimCount ∧ (next s a).starts = s.starts ∨
      (next s a).claimCount = s.claimCount + 1 ∧
        (next s a).starts = s.starts ++ [((next s a).claims s.claimCount).call] := by
  have hold : (List.range s.claimCount).map (fun c => ((next s a).claims c).call) = s.starts :=
    List.map_congr_left fun c hc => call_next ha (List.mem_range.mp hc)
  have hcount : (next s a).claimCount = s.claimCount ∨
      (next s a).claimCount = s.claimCount + 1 := by
    have hc := booksChange ha
    change (next s a).books.claimCount = _ ∨ (next s a).books.claimCount = _
    generalize (next s a).books = b at hc
    cases hc with
    | claimed => exact Or.inr rfl
    | started => exact Or.inr rfl
    | _ => exact Or.inl rfl
  rcases hcount with hcount | hcount
  · left
    rw [State.starts, hcount]
    exact ⟨rfl, hold⟩
  · right
    rw [State.starts, hcount, List.range_succ, List.map_append, hold]
    exact ⟨rfl, rfl⟩

theorem mem_starts {i : ℕ} : i ∈ s.starts ↔ ∃ c < s.claimCount, (s.claims c).call = i := by
  rw [State.starts, List.mem_map]
  exact exists_congr fun c => by rw [List.mem_range]

/-! ## Calls -/

/-- A call that has queued its request has left the steps before behind. -/
theorem CallChange.isQueued {i : ℕ} {p : Caller} (hc : CallChange s i a p) (hr : Roster s)
    (h : (s.calls i).isQueued = true) : p.isQueued = true := by
  have hnot : ∀ {q : Caller}, s.calls i = q → q.isQueued = false → p.isQueued = true := by
    intro q hq hfalse
    rw [hq, hfalse] at h
    cases h
  cases hc with
  | same => exact h
  | entered hcount => exact hnot (hr.calls i (le_of_eq hcount.symm)) rfl
  | loadedMax hi => exact hnot hi rfl
  | below hi => exact hnot hi rfl
  | full hi => exact hnot hi rfl
  | claimed hi => exact hnot hi rfl
  | lost hi => exact hnot hi rfl
  | _ => rfl

/-- So has a call that has made a claim by itself. -/
theorem CallChange.isStarted {i c : ℕ} {p : Caller} (hc : CallChange s i a p) (hr : Roster s)
    (h : (s.calls i).isStarted c = true) : p.isStarted c = true := by
  have hnot : ∀ {q : Caller}, s.calls i = q → q.isStarted c = false → p.isStarted c = true := by
    intro q hq hfalse
    rw [hq, hfalse] at h
    cases h
  cases hc with
  | same => exact h
  | entered hcount => exact hnot (hr.calls i (le_of_eq hcount.symm)) rfl
  | loadedMax hi => exact hnot hi rfl
  | below hi => exact hnot hi rfl
  | full hi => exact hnot hi rfl
  | claimed hi => exact hnot hi rfl
  | lost hi => exact hnot hi rfl
  | pushed hi => exact hnot hi rfl
  | flagged hi => exact hnot hi rfl
  | spawning hi => exact hnot hi rfl
  | spawned hi => exact hnot hi rfl
  | _ => rfl

/-- A call that is over stays as it is. -/
theorem CallChange.isOver {i : ℕ} {p : Caller} (hc : CallChange s i a p) (hr : Roster s)
    (h : (s.calls i).isOver = true) : p = s.calls i := by
  have hnot : ∀ {q : Caller}, s.calls i = q → q.isOver = false → p = s.calls i := by
    intro q hq hfalse
    rw [hq, hfalse] at h
    cases h
  cases hc with
  | same => rfl
  | entered hcount => exact hnot (hr.calls i (le_of_eq hcount.symm)) rfl
  | waitAbandoned hi =>
    rcases hi with hi | hi
    · exact hnot hi rfl
    · exact hnot hi rfl
  | loadedMax hi => exact hnot hi rfl
  | below hi => exact hnot hi rfl
  | full hi => exact hnot hi rfl
  | claimed hi => exact hnot hi rfl
  | lost hi => exact hnot hi rfl
  | pushed hi => exact hnot hi rfl
  | flagged hi => exact hnot hi rfl
  | spawning hi => exact hnot hi rfl
  | spawned hi => exact hnot hi rfl
  | finished hi => exact hnot hi rfl
  | received hi => exact hnot hi rfl
  | startAbandoned hi => exact hnot hi rfl

/-- A worker that has started a request stays with it until it delivers the result. -/
theorem starting_next (hr : Roster s) (ha : Enabled s a) {w c i : ℕ}
    (hw : s.workers w = .starting c i) :
    (next s a).workers w = .starting c i ∨
      ∃ result, a = .deliver w c i result ∧ (s.claims c).start = .done result := by
  have hc := workerChange ha w
  generalize hp : (next s a).workers w = p at hc
  cases hc with
  | same => exact Or.inl hw
  | delivered hw' hstart =>
    cases hw.symm.trans hw'
    exact Or.inr ⟨_, rfl, hstart⟩
  | spawned hcount => cases hw.symm.trans (hr.workers w (le_of_eq hcount.symm))
  | loadedMax hw' => cases hw.symm.trans hw'
  | below hw' => cases hw.symm.trans hw'
  | full hw' => cases hw.symm.trans hw'
  | permitted hw' => cases hw.symm.trans hw'
  | parked hw' => cases hw.symm.trans hw'
  | popped hw' => cases hw.symm.trans hw'
  | foundNone hw' => cases hw.symm.trans hw'
  | idled hw' => cases hw.symm.trans hw'
  | rechecked hw' => cases hw.symm.trans hw'
  | reflagged hw' => cases hw.symm.trans hw'
  | claimed hw' => cases hw.symm.trans hw'
  | lost hw' => cases hw.symm.trans hw'
  | requeued hw' => cases hw.symm.trans hw'
  | woken hw' => cases hw.symm.trans hw'
  | noticed hw' => cases hw.symm.trans hw'

/-- A call that runs its start by itself stays with it until that has come to its end, or it is
cancelled. -/
theorem caller_starting_next (hr : Roster s) (ha : Enabled s a) {i c : ℕ}
    (hi : s.calls i = .starting c) :
    (next s a).calls i = .starting c ∨ a = .abandonStart i c ∨
      ∃ result, (s.claims c).start = .done result ∧ (next s a).calls i = .returned result := by
  have hc := callChange ha i
  generalize (next s a).calls i = p at hc
  cases hc with
  | same => exact Or.inl hi
  | entered hcount => cases hi.symm.trans (hr.calls i (le_of_eq hcount.symm))
  | finished hi' hdone =>
    cases hi.symm.trans hi'
    exact Or.inr (Or.inr ⟨_, hdone, rfl⟩)
  | startAbandoned hi' =>
    cases hi.symm.trans hi'
    exact Or.inr (Or.inl rfl)
  | waitAbandoned hi' => rcases hi' with hi' | hi' <;> cases hi.symm.trans hi'
  | loadedMax hi' => cases hi.symm.trans hi'
  | below hi' => cases hi.symm.trans hi'
  | full hi' => cases hi.symm.trans hi'
  | claimed hi' => cases hi.symm.trans hi'
  | lost hi' => cases hi.symm.trans hi'
  | pushed hi' => cases hi.symm.trans hi'
  | flagged hi' => cases hi.symm.trans hi'
  | spawning hi' => cases hi.symm.trans hi'
  | spawned hi' => cases hi.symm.trans hi'
  | received hi' => cases hi.symm.trans hi'

end

/-! ## The invariant -/

/-- Where calls, claims and results are. -/
structure Traced (s : State) : Prop where
  queued : ∀ i ∈ s.pushed, (s.calls i).isQueued = true
  nodup : s.pushed.Nodup
  popped : s.popped = s.starts.filter (· ∈ s.pushed)
  once : s.starts.Nodup
  claimed : ∀ c < s.claimCount, (s.claims c).call ∈ s.pushed ∨
    (s.calls (s.claims c).call).isStarted c = true
  caller : ∀ i c, s.calls i = .starting c → c < s.claimCount ∧ (s.claims c).call = i
  worker : ∀ w c i, s.workers w = .starting c i →
    c < s.claimCount ∧ (s.claims c).call = i ∧ i ∈ s.pushed ∧ s.inbox i = []
  inbox : ∀ i, s.inbox i = [] ∨ ∃ result, s.inbox i = [result] ∧ s.Own i result ∧ i ∈ s.pushed
  returned : ∀ i result, s.calls i = .returned result → s.Own i result
  answered : ∀ i ∈ s.popped, (∃ w c, s.workers w = .starting c i) ∨
    ∃ result, s.Own i result ∧
      (s.inbox i = [result] ∨ s.calls i = .returned result ∨ s.calls i = .cancelled)

namespace Traced

variable {s : State} {a : Action}

/-- A call that is about to claim a slot, or has failed to, has no claim yet. -/
theorem not_mem_starts (h : Traced s) {i : ℕ} {p : Caller} (hi : s.calls i = p)
    (hqueued : p.isQueued = false) (hstarted : ∀ c, p.isStarted c = false) : i ∉ s.starts := by
  intro hmem
  obtain ⟨c, hc, hcall⟩ := mem_starts.mp hmem
  rcases h.claimed c hc with hpushed | hstart
  · have := h.queued _ hpushed
    rw [hcall, hi, hqueued] at this
    cases this
  · rw [hcall, hi, hstarted] at hstart
    cases hstart

theorem not_mem_pushed (h : Traced s) {i : ℕ} {p : Caller} (hi : s.calls i = p)
    (hqueued : p.isQueued = false) : i ∉ s.pushed := by
  intro hmem
  have := h.queued i hmem
  rw [hi, hqueued] at this
  cases this

/-- The request in the hands of a worker has been pushed and not been started. -/
theorem in_hand (h : Traced s) (ho : Handoff.Ordered (handoff s)) {w i current : ℕ}
    (hw : s.workers w = .claiming i current) : i ∈ s.pushed ∧ i ∉ s.starts := by
  have hheld : (handoff s).workers w = .holding i := by
    change (s.workers w).consumer = _
    rw [hw]
    rfl
  have hpushed : s.pushed = s.popped ++ i :: s.queue := ho.held w i hheld
  have hmem : i ∈ s.pushed := by
    rw [hpushed]
    exact List.mem_append_right _ List.mem_cons_self
  refine ⟨hmem, fun hstart => ?_⟩
  have hpopped : i ∈ s.popped := by
    rw [h.popped]
    exact List.mem_filter.mpr ⟨hstart, decide_eq_true hmem⟩
  have hnodup := h.nodup
  rw [hpushed] at hnodup
  exact (List.nodup_append.mp hnodup).2.2 i hpopped i List.mem_cons_self rfl

/-- A request is in the queue's history because it was before, or because it has just been
pushed. -/
theorem pushed_next (ha : Enabled s a) :
    (next s a).pushed = s.pushed ∨
      ∃ i, s.calls i = .pushing ∧ a = .push i ∧ (next s a).pushed = s.pushed ++ [i] := by
  have hc := booksChange ha
  change (next s a).books.pushed = _ ∨ ∃ i, _ ∧ _ ∧ (next s a).books.pushed = _
  generalize (next s a).books = b at hc
  cases hc with
  | pushed hi => exact Or.inr ⟨_, hi, rfl, rfl⟩
  | _ => exact Or.inl rfl

theorem mem_pushed_next (ha : Enabled s a) {i : ℕ} (h : i ∈ s.pushed) : i ∈ (next s a).pushed := by
  rcases pushed_next ha with hsame | ⟨j, -, -, hpushed⟩
  · rwa [hsame]
  · rw [hpushed]
    exact List.mem_append_left _ h

private theorem next_queued (h : Traced s) (hr : Roster s) (ha : Enabled s a) (i : ℕ)
    (hi : i ∈ (next s a).pushed) : ((next s a).calls i).isQueued = true := by
  have hold : i ∈ s.pushed → ((next s a).calls i).isQueued = true :=
    fun hmem => (callChange ha i).isQueued hr (h.queued i hmem)
  rcases pushed_next ha with hsame | ⟨j, -, rfl, hpushed⟩
  · exact hold (hsame ▸ hi)
  · rw [hpushed] at hi
    rcases List.mem_append.mp hi with hi | hi
    · exact hold hi
    · have hflag : (next s (.push j)).calls j = .flagging := Function.update_self ..
      rw [List.mem_singleton.mp hi, hflag]
      rfl

private theorem next_nodup (h : Traced s) (ha : Enabled s a) : (next s a).pushed.Nodup := by
  rcases pushed_next ha with hsame | ⟨i, hi, -, hpushed⟩
  · rw [hsame]
    exact h.nodup
  · rw [hpushed]
    have hnew := h.not_mem_pushed hi rfl
    refine List.nodup_append.mpr ⟨h.nodup, List.nodup_singleton i, fun j hj k hk => ?_⟩
    rw [List.mem_singleton.mp hk]
    rintro rfl
    exact hnew hj

theorem newClaim_call (s : State) (i current : ℕ) :
    ((s.newClaim i current).claims s.claimCount).call = i := by
  have hself : (s.newClaim i current).claims s.claimCount = { call := i, start := .sending } :=
    Function.update_self ..
  rw [hself]

/-- The call for which a claim is made had none before; it is its own, or was in a worker's
hands. -/
private theorem claim_next (h : Traced s) (ho : Handoff.Ordered (handoff s)) (ha : Enabled s a)
    (hcount : (next s a).claimCount = s.claimCount + 1) :
    ∃ i, ((next s a).claims s.claimCount).call = i ∧ i ∉ s.starts ∧
      (next s a).pushed = s.pushed ∧
        ((i ∉ s.pushed ∧ (next s a).calls i = .starting s.claimCount ∧
            (next s a).popped = s.popped) ∨
          i ∈ s.pushed ∧ (next s a).popped = s.popped ++ [i]) := by
  have hc := booksChange ha
  generalize hb : (next s a).books = b at hc
  have hcount' : b.claimCount = s.claimCount + 1 := by
    rw [← hb]
    exact hcount
  have hstill : s.claimCount ≠ s.claimCount + 1 := Nat.ne_of_lt (Nat.lt_succ_self _)
  have hpushed : (next s a).pushed = b.pushed := congrArg Books.pushed hb
  have hpopped : (next s a).popped = b.popped := congrArg Books.popped hb
  cases hc with
  | @claimed i current hi heq =>
    refine ⟨i, ?_, h.not_mem_starts hi rfl fun _ => rfl, hpushed, Or.inl
      ⟨h.not_mem_pushed hi rfl, ?_, hpopped⟩⟩
    · rw [next, if_pos heq]
      exact newClaim_call s i current
    · rw [next, if_pos heq]
      exact Function.update_self ..
  | @started w i current hw heq =>
    obtain ⟨hmem, hnot⟩ := h.in_hand ho hw
    refine ⟨i, ?_, hnot, hpushed, Or.inr ⟨hmem, hpopped⟩⟩
    rw [next, if_pos heq]
    exact newClaim_call s i current
  | _ => exact absurd hcount' hstill

private theorem next_once (h : Traced s) (ho : Handoff.Ordered (handoff s)) (ha : Enabled s a) :
    (next s a).starts.Nodup := by
  rcases starts_next ha with ⟨-, hsame⟩ | ⟨hcount, hstarts⟩
  · rw [hsame]
    exact h.once
  · obtain ⟨i, hi, hnew, -, -⟩ := h.claim_next ho ha hcount
    rw [hstarts, hi]
    refine List.nodup_append.mpr ⟨h.once, List.nodup_singleton i, fun j hj k hk => ?_⟩
    rw [List.mem_singleton.mp hk]
    rintro rfl
    exact hnew hj

private theorem popped_same (ha : Enabled s a) (hcount : (next s a).claimCount = s.claimCount) :
    (next s a).popped = s.popped := by
  have hc := booksChange ha
  have hcount' : (next s a).books.claimCount = s.claimCount := hcount
  change (next s a).books.popped = _
  generalize (next s a).books = b at hc hcount'
  cases hc with
  | started => exact absurd hcount' (Nat.ne_of_gt (Nat.lt_succ_self _))
  | _ => rfl

private theorem next_popped (h : Traced s) (ho : Handoff.Ordered (handoff s)) (ha : Enabled s a) :
    (next s a).popped = (next s a).starts.filter (· ∈ (next s a).pushed) := by
  rcases starts_next ha with ⟨hcount, hsame⟩ | ⟨hcount, hstarts⟩
  · rw [popped_same ha hcount, hsame, h.popped]
    rcases pushed_next ha with hpushed | ⟨i, hi, -, hpushed⟩
    · rw [hpushed]
    · -- The call that pushes has no start.
      rw [hpushed]
      refine List.filter_congr fun j hj => ?_
      have hne : j ≠ i := by
        rintro rfl
        exact h.not_mem_starts hi rfl (fun _ => rfl) hj
      simp [hne]
  · obtain ⟨i, hi, -, hpushed, ⟨hmem, -, hpopped⟩ | ⟨hmem, hpopped⟩⟩ := h.claim_next ho ha hcount
    · rw [hpopped, hstarts, hi, hpushed, List.filter_append, h.popped]
      simp [hmem]
    · rw [hpopped, hstarts, hi, hpushed, List.filter_append, h.popped]
      simp [hmem]

private theorem next_claimed (h : Traced s) (hr : Roster s) (ho : Handoff.Ordered (handoff s))
    (ha : Enabled s a) (c : ℕ) (hc : c < (next s a).claimCount) :
    ((next s a).claims c).call ∈ (next s a).pushed ∨
      ((next s a).calls ((next s a).claims c).call).isStarted c = true := by
  have hold : c < s.claimCount → ((next s a).claims c).call ∈ (next s a).pushed ∨
      ((next s a).calls ((next s a).claims c).call).isStarted c = true := by
    intro hlt
    rw [call_next ha hlt]
    rcases h.claimed c hlt with hmem | hstart
    · exact Or.inl (mem_pushed_next ha hmem)
    · exact Or.inr ((callChange ha _).isStarted hr hstart)
  rcases starts_next ha with ⟨hcount, -⟩ | ⟨hcount, -⟩
  · exact hold (hcount ▸ hc)
  · by_cases hlt : c < s.claimCount
    · exact hold hlt
    · have hcc : c = s.claimCount := by omega
      obtain ⟨i, hi, -, -, ⟨-, hcall, -⟩ | ⟨hmem, -⟩⟩ := h.claim_next ho ha hcount
      · rw [hcc, hi, hcall]
        exact Or.inr (beq_self_eq_true _)
      · rw [hcc, hi]
        exact Or.inl (mem_pushed_next ha hmem)

private theorem next_caller (h : Traced s) (ha : Enabled s a) (i c : ℕ)
    (hi : (next s a).calls i = .starting c) :
    c < (next s a).claimCount ∧ ((next s a).claims c).call = i := by
  have hc := callChange ha i
  generalize hp : (next s a).calls i = p at hi hc
  cases hc with
  | same =>
    obtain ⟨hlt, hcall⟩ := h.caller i c hi
    exact ⟨lt_of_lt_of_le hlt (claimCount_le ha), (call_next ha hlt).trans hcall⟩
  | @claimed current hcl heq =>
    cases hi
    rw [next, if_pos heq]
    exact ⟨Nat.lt_succ_self _, newClaim_call s i current⟩
  | _ => cases hi

theorem inbox_eq_nil (h : Traced s) {i : ℕ} (hi : i ∉ s.starts) : s.inbox i = [] := by
  rcases h.inbox i with hnil | ⟨result, -, ⟨c, hc, hcall, -⟩, -⟩
  · exact hnil
  · exact absurd (mem_starts.mpr ⟨c, hc, hcall⟩) hi

/-- The start whose result a worker is about to deliver belongs to the request it was invoked
for. -/
theorem own_of_worker (h : Traced s) {w c i : ℕ} {result : Result}
    (hw : s.workers w = .starting c i) (hstart : (s.claims c).start = .done result) :
    s.Own i result := by
  obtain ⟨hlt, hcall, -⟩ := h.worker w c i hw
  exact ⟨c, hlt, hcall, hstart⟩

private theorem next_worker (h : Traced s) (hs : Handoff.Sound (handoff s)) (ha : Enabled s a)
    (w c i : ℕ) (hw : (next s a).workers w = .starting c i) :
    c < (next s a).claimCount ∧ ((next s a).claims c).call = i ∧ i ∈ (next s a).pushed ∧
      (next s a).inbox i = [] := by
  have hc := workerChange ha w
  generalize hp : (next s a).workers w = p at hc
  cases hc with
  | same =>
    have hold := hp.symm.trans hw
    obtain ⟨hlt, hcall, hmem, hnil⟩ := h.worker w c i hold
    refine ⟨lt_of_lt_of_le hlt (claimCount_le ha), (call_next ha hlt).trans hcall,
      mem_pushed_next ha hmem, ?_⟩
    have hi := inboxChange ha i
    generalize (next s a).inbox i = results at hi
    cases hi with
    | same => exact hnil
    | received => rfl
    | abandoned => rfl
    | @delivered v d result hv =>
      -- Only one worker is running, and it is done with this request.
      have hrunning : ∀ {v d j}, s.workers v = .starting d j → (s.workers v).isRunning = true :=
        fun hv => by rw [hv]; rfl
      obtain rfl : v = w := running_unique hs (hrunning hv) (hrunning hold)
      have hleft : (next s (.deliver v d i result)).workers v = .loading :=
        Function.update_self ..
      cases hleft.symm.trans hw
  | @claimed j current hj heq =>
    cases hp.symm.trans hw
    obtain ⟨hmem, hnew⟩ := h.in_hand hs.ordered hj
    refine ⟨?_, ?_, mem_pushed_next ha hmem, ?_⟩
    · rw [next, if_pos heq]
      exact Nat.lt_succ_self _
    · rw [next, if_pos heq]
      exact newClaim_call s i current
    · rw [next, if_pos heq]
      exact h.inbox_eq_nil hnew
  | rechecked _ hq => rcases hq with rfl | rfl <;> cases hp.symm.trans hw
  | reflagged _ hq => rcases hq with rfl | rfl <;> cases hp.symm.trans hw
  | _ => cases hp.symm.trans hw

private theorem next_inbox (h : Traced s) (ha : Enabled s a) (i : ℕ) :
    (next s a).inbox i = [] ∨ ∃ result, (next s a).inbox i = [result] ∧
      (next s a).Own i result ∧ i ∈ (next s a).pushed := by
  have hi := inboxChange ha i
  generalize (next s a).inbox i = results at hi
  cases hi with
  | same =>
    rcases h.inbox i with hnil | ⟨result, hone, hown, hmem⟩
    · exact Or.inl hnil
    · exact Or.inr ⟨result, hone, own_next ha hown, mem_pushed_next ha hmem⟩
  | received => exact Or.inl rfl
  | abandoned => exact Or.inl rfl
  | @delivered w c result hw hstart =>
    obtain ⟨-, -, hmem, hnil⟩ := h.worker w c i hw
    rw [hnil]
    exact Or.inr ⟨result, rfl, own_next ha (h.own_of_worker hw hstart), mem_pushed_next ha hmem⟩

private theorem next_returned (h : Traced s) (ha : Enabled s a) (i : ℕ) (result : Result)
    (hi : (next s a).calls i = .returned result) : (next s a).Own i result := by
  refine own_next ha ?_
  have hc := callChange ha i
  generalize (next s a).calls i = p at hi hc
  cases hc with
  | same => exact h.returned i result hi
  | finished hstarting hstart =>
    cases hi
    obtain ⟨hlt, hcall⟩ := h.caller i _ hstarting
    exact ⟨_, hlt, hcall, hstart⟩
  | received _ hinbox =>
    cases hi
    rcases h.inbox i with hnil | ⟨result', hone, hown, -⟩
    · cases hinbox.symm.trans hnil
    · cases hinbox.symm.trans hone
      exact hown
  | _ => cases hi

/-- A result that has been delivered stays in the channel until the call takes it, or is gone. -/
private theorem next_delivered (h : Traced s) (hr : Roster s) (ha : Enabled s a) {i : ℕ}
    {result : Result}
    (hi : s.inbox i = [result] ∨ s.calls i = .returned result ∨ s.calls i = .cancelled) :
    (next s a).inbox i = [result] ∨ (next s a).calls i = .returned result ∨
      (next s a).calls i = .cancelled := by
  rcases hi with hone | hret | hcancelled
  · have hc := inboxChange ha i
    generalize hb : (next s a).inbox i = results at hc
    cases hc with
    | same => exact Or.inl hone
    | delivered hw =>
      obtain ⟨-, -, -, hnil⟩ := h.worker _ _ i hw
      cases hone.symm.trans hnil
    | received hcons =>
      cases hone.symm.trans hcons
      right; left
      rw [next, hone]
      exact Function.update_self ..
    | abandoned =>
      right; right
      exact Function.update_self ..
  · have hover := (callChange ha i).isOver hr (by rw [hret]; rfl)
    exact Or.inr (Or.inl (hover.trans hret))
  · have hover := (callChange ha i).isOver hr (by rw [hcancelled]; rfl)
    exact Or.inr (Or.inr (hover.trans hcancelled))

/-- What a worker delivers is put into the channel, or the call is over. -/
private theorem delivered_answered (h : Traced s) {w c i : ℕ} {result : Result}
    (ha : Enabled s (.deliver w c i result)) :
    ∃ result', (next s (.deliver w c i result)).Own i result' ∧
      ((next s (.deliver w c i result)).inbox i = [result'] ∨
        (next s (.deliver w c i result)).calls i = .returned result' ∨
          (next s (.deliver w c i result)).calls i = .cancelled) := by
  obtain ⟨-, -, hmem, hnil⟩ := h.worker w c i ha.1
  have hown := own_next ha (h.own_of_worker ha.1 ha.2)
  have hcalls : (next s (.deliver w c i result)).calls = s.calls :=
    (sameRoster_deliverNext s i result).1
  have hqueued := h.queued i hmem
  by_cases hlisten : (s.calls i).listens = true
  · refine ⟨result, hown, Or.inl ?_⟩
    change (deliverNext s i result).inbox i = [result]
    rw [deliverNext, if_pos hlisten, hnil]
    exact Function.update_self ..
  · rw [hcalls]
    generalize hi : s.calls i = p at hqueued hlisten
    cases p with
    | flagging => exact absurd rfl hlisten
    | spawning => exact absurd rfl hlisten
    | waiting => exact absurd rfl hlisten
    | returned result' =>
      exact ⟨result', own_next ha (h.returned i result' hi), Or.inr (Or.inl rfl)⟩
    | cancelled => exact ⟨result, hown, Or.inr (Or.inr rfl)⟩
    | _ => cases hqueued

private theorem next_answered (h : Traced s) (hr : Roster s) (ha : Enabled s a) (i : ℕ)
    (hi : i ∈ (next s a).popped) : (∃ w c, (next s a).workers w = .starting c i) ∨
      ∃ result, (next s a).Own i result ∧ ((next s a).inbox i = [result] ∨
        (next s a).calls i = .returned result ∨ (next s a).calls i = .cancelled) := by
  have hnew : i ∈ s.popped ∨ ∃ w c, (next s a).workers w = .starting c i := by
    have hc := booksChange ha
    generalize hb : (next s a).books = b at hc
    have hmem : i ∈ b.popped := by
      rw [← hb]
      exact hi
    cases hc with
    | @started w j current hw heq =>
      rcases List.mem_append.mp hmem with hold | hlast
      · exact Or.inl hold
      · rw [List.mem_singleton.mp hlast, next, if_pos heq]
        exact Or.inr ⟨w, s.claimCount, Function.update_self ..⟩
    | _ => exact Or.inl hmem
  rcases hnew with hold | hworker
  · rcases h.answered i hold with ⟨w, c, hw⟩ | ⟨result, hown, hdelivered⟩
    · rcases starting_next hr ha hw with hsame | ⟨result, rfl, -⟩
      · exact Or.inl ⟨w, c, hsame⟩
      · exact Or.inr (h.delivered_answered ha)
    · exact Or.inr ⟨result, own_next ha hown, h.next_delivered hr ha hdelivered⟩
  · exact Or.inl hworker

/-- Every step keeps the account of who is started and who gets what. -/
theorem next (h : Traced s) (hr : Roster s) (hs : Handoff.Sound (handoff s)) (ha : Enabled s a) :
    Traced (next s a) where
  queued := h.next_queued hr ha
  nodup := h.next_nodup ha
  popped := h.next_popped hs.ordered ha
  once := h.next_once hs.ordered ha
  claimed := h.next_claimed hr hs.ordered ha
  caller := h.next_caller ha
  worker := h.next_worker hs ha
  inbox := h.next_inbox ha
  returned := h.next_returned ha
  answered := h.next_answered hr ha

end Traced

theorem traced_init (max : UInt32) : Traced (init max) where
  queued := nofun
  nodup := List.nodup_nil
  popped := rfl
  once := List.nodup_nil
  claimed := nofun
  caller := nofun
  worker := nofun
  inbox _ := Or.inl rfl
  returned := nofun
  answered := nofun

/-- Along every run, calls, starts and results stay accounted for. -/
theorem exec_traced {max : UInt32} {as : List Action} (hv : system.Valid (init max) as) :
    Traced (system.exec (init max) as) := by
  have hroster : ∀ past, system.Valid (init max) past → Roster (system.exec (init max) past) :=
    fun past => Transition.System.invariant (fun s a h ha => h.next ha) (roster_init max)
  have hsound := Transition.System.along_of_reachable (S := system)
    (R := fun s => Roster s ∧ Handoff.Sound (handoff s))
    (fun past hpast => ⟨hroster past hpast, exec_handoff hpast⟩) hv
  exact Transition.System.invariant_along (fun s a h hR ha => h.next hR.1 hR.2 ha)
    (traced_init max) hsound hv

/-! ## First in, first out -/

/-- The request of call `i` is in the hands of a worker that has yet to claim a slot for it, or has
failed to and is about to put it back. -/
def State.InHand (s : State) (i : ℕ) : Prop :=
  ∃ w, (∃ current, s.workers w = .claiming i current) ∨ s.workers w = .requeueing i

theorem inHand_of_holding {s : State} {w i : ℕ} (h : (handoff s).workers w = .holding i) :
    s.InHand i := by
  change (s.workers w).consumer = .holding i at h
  generalize hw : s.workers w = p at h
  cases p with
  | claiming j current =>
    cases h
    exact ⟨w, Or.inl ⟨current, hw⟩⟩
  | requeueing j =>
    cases h
    exact ⟨w, Or.inr hw⟩
  | _ => cases h

/-- A worker starts a request only in the step in which its own claim of a slot succeeds. -/
theorem started_by_claim {s : State} {a : Action} (ha : Enabled s a) {w c i : ℕ}
    (hw : (next s a).workers w = .starting c i) (hold : s.workers w ≠ .starting c i) :
    ∃ current, a = .workerClaim w i current ∧ s.activeCount = current ∧
      (next s a).activeCount = current + 1 ∧ c = s.claimCount := by
  have hc := workerChange ha w
  generalize hp : (next s a).workers w = p at hc
  cases hc with
  | same => exact absurd (hp.symm.trans hw) hold
  | @claimed j current hj heq =>
    cases hp.symm.trans hw
    refine ⟨current, rfl, heq, ?_, rfl⟩
    rw [next, if_pos heq]
    rfl
  | rechecked _ hq => rcases hq with rfl | rfl <;> cases hp.symm.trans hw
  | reflagged _ hq => rcases hq with rfl | rfl <;> cases hp.symm.trans hw
  | _ => cases hp.symm.trans hw

/-- **Queued requests are served first in, first out, each exactly once.** In every reachable state
the queued requests that have been started are the first that were pushed, in that order; none is
started twice; each is started, in the queue or in a worker's hands; one that is started is still
starting, or its own result was delivered to its call, unless that is gone; what a channel holds or
a call returns is the result of its own start; and a worker starts a request only by a successful
claim of its own. -/
theorem queue_fifo (max : UInt32) (as : List Action) (hv : system.Valid (init max) as) :
    let s := system.exec (init max) as
    s.starts.filter (· ∈ s.pushed) <+: s.pushed ∧ s.starts.Nodup ∧ s.pushed.Nodup ∧
      (∀ i ∈ s.pushed, i ∈ s.starts ∨ i ∈ s.queue ∨ s.InHand i) ∧
      (∀ i ∈ s.pushed, i ∈ s.starts → (∃ w c, s.workers w = .starting c i) ∨
        ∃ result, s.Own i result ∧ (s.inbox i = [result] ∨ s.calls i = .returned result ∨
          s.calls i = .cancelled)) ∧
      (∀ i, s.inbox i = [] ∨ ∃ result, s.inbox i = [result] ∧ s.Own i result) ∧
      (∀ i result, s.calls i = .returned result → s.Own i result) ∧
      ∀ a w c i, Enabled s a → (next s a).workers w = .starting c i →
        s.workers w ≠ .starting c i → ∃ current, a = .workerClaim w i current ∧
          s.activeCount = current ∧ (next s a).activeCount = current + 1 ∧ c = s.claimCount := by
  intro s
  have h : Traced s := exec_traced hv
  have hs : Handoff.Sound (handoff s) := exec_handoff hv
  have hserved : ∀ i ∈ s.pushed, i ∈ s.popped ∨ i ∈ s.queue ∨ s.InHand i := by
    intro i hi
    rcases hs.ordered.mem_pushed.mp hi with hpopped | ⟨w, hw⟩ | hqueue
    · exact Or.inl hpopped
    · exact Or.inr (Or.inr (inHand_of_holding hw))
    · exact Or.inr (Or.inl hqueue)
  have hstarted : ∀ i, i ∈ s.popped ↔ i ∈ s.starts ∧ i ∈ s.pushed := by
    intro i
    rw [h.popped, List.mem_filter, decide_eq_true_iff]
  refine ⟨?_, h.once, h.nodup, ?_, ?_, ?_, h.returned, fun a w c i ha => started_by_claim ha⟩
  · rw [← h.popped]
    exact hs.ordered.served_prefix
  · intro i hi
    exact (hserved i hi).imp_left fun hpopped => ((hstarted i).mp hpopped).1
  · intro i hi hstart
    exact h.answered i ((hstarted i).mpr ⟨hstart, hi⟩)
  · intro i
    rcases h.inbox i with hnil | ⟨result, hone, hown, -⟩
    · exact Or.inl hnil
    · exact Or.inr ⟨result, hone, hown⟩

/-- Three calls queue their requests while there are no slots. With two slots the worker pops the
first request, loses the slot it has seen to a fourth call, and puts the request back; it then takes
the other slot for it. -/
def lostRace : List Action :=
  [.call, .loadMax 0, .loadCount 0 0, .push 0, .flagWorker 0, .spawn 0,
    .call, .loadMax 1, .loadCount 1 0, .push 1, .flagWorker 1,
    .call, .loadMax 2, .loadCount 2 0, .push 2, .flagWorker 2,
    .setMax 2, .workerLoadMax 0, .workerLoadCount 0 2, .call, .loadMax 3, .loadCount 3 2,
    .pop 0 0, .claim 3 0, .workerClaim 0 0 0, .requeue 0 0,
    .workerLoadMax 0, .workerLoadCount 0 2, .pop 0 1, .workerClaim 0 0 1,
    .respond 1 (.stream 5), .register 1 5, .deliver 0 1 0 (.ok 1)]

set_option maxRecDepth 20000 in
theorem queue_fifo_lostRace :
    let s := system.exec (init 0) lostRace
    (s.starts = [3, 0] ∧ s.pushed = [0, 1, 2] ∧ s.inbox 0 = [.ok 1]) ∧
      s.starts.filter (· ∈ s.pushed) <+: s.pushed :=
  ⟨by decide, (queue_fifo 0 lostRace (by decide)).1⟩

end Slots

end TitanClient
