import TitanClient.Session

/-!
# Every sender is accounted for

Nothing here bounds the number of requests, so ids wrap: the `k`-th `fetch_add` returns `k` modulo
`2 ^ 32`. A request that is inserted under the id of one still pending takes its place, and the
other's sender is dropped with the entry. The sender count of `Requests` holds nevertheless, because
a dropped sender is one of the places it counts; what the bound gave is that this does not happen
before the ids wrap.

## Main results

* `Numbered` — the ids in use, up to wrapping
* `senders_accounted` — no call is answered twice, a waiting call's sender is in exactly one place,
  and after the exit every call can return
-/

namespace TitanClient

namespace Session

open Requests (PendingRequest Caller tokens service outside)

variable {ρ β : Type}

/-! ## Ids that wrap -/

/-- Request id `id` was given to call `i`. -/
def Numbered (r : Requests.State ρ β) (id i : ℕ) : Prop :=
  ∃ k, id = wrap32 (k + 1) ∧ r.issued[k]? = some i

/-- The bookkeeping of ids. -/
structure Issues (r : Requests.State ρ β) : Prop where
  nextId : r.nextId = wrap32 (r.issued.length + 1)
  nodup : r.issued.Nodup
  begun : ∀ i ∈ r.issued, i < r.callCount
  early : ∀ i, (r.calls i).caller.isEarly = true → i ∉ r.issued
  late : ∀ i, r.callCount ≤ i → (r.calls i).caller = .idle
  sending : ∀ i q, (r.calls i).caller = .sending q → Numbered r q.id i
  channel : ∀ p ∈ r.channel, Numbered r p.request.id p.responseTx
  inserting : ∀ p, r.loop = .inserting p → Numbered r p.request.id p.responseTx
  pending : ∀ id i, r.pending.lookup id = some i → Numbered r id i

theorem issues_init (max : Option ℕ) : Issues (Requests.init max : Requests.State ρ β) where
  nextId := rfl
  nodup := List.nodup_nil
  begun i hi := absurd hi List.not_mem_nil
  early i _ := List.not_mem_nil
  late _ _ := rfl
  sending i q hq := by cases hq
  channel p hp := absurd hp List.not_mem_nil
  inserting p hp := by cases hp
  pending id i hi := by cases hi

section

variable {r t : Requests.State ρ β}

theorem Numbered.append {id i : ℕ} {l : List ℕ} (h : Numbered r id i)
    (ht : t.issued = r.issued ++ l) : Numbered t id i := by
  obtain ⟨k, hid, hk⟩ := h
  refine ⟨k, hid, ?_⟩
  rw [ht, List.getElem?_append_left (List.getElem?_eq_some_iff.mp hk).1, hk]

/-- Two calls with one id are a whole round apart. -/
theorem Numbered.wrapped {id i j : ℕ} (hi : Numbered r id i) (hj : Numbered r id j) (hne : i ≠ j) :
    2 ^ 32 ≤ r.issued.length := by
  obtain ⟨k, hk, hki⟩ := hi
  obtain ⟨l, hl, hlj⟩ := hj
  have hklen := (List.getElem?_eq_some_iff.mp hki).1
  have hllen := (List.getElem?_eq_some_iff.mp hlj).1
  have hkl : k ≠ l := by
    rintro rfl
    exact hne (Option.some.inj (hki.symm.trans hlj))
  have hmod : (k + 1) % 2 ^ 32 = (l + 1) % 2 ^ 32 := hk.symm.trans hl
  omega

namespace Issues

/-- A step that moves no caller and gives out no id. -/
theorem of_subset (h : Issues r) (hnext : t.nextId = r.nextId) (hissued : t.issued = r.issued)
    (hcount : t.callCount = r.callCount)
    (hcaller : ∀ i, (t.calls i).caller = (r.calls i).caller) (hchannel : t.channel ⊆ r.channel)
    (hloop : ∀ p, t.loop = .inserting p → Numbered r p.request.id p.responseTx)
    (hpending : ∀ id i, t.pending.lookup id = some i → Numbered r id i) : Issues t := by
  have hto : ∀ {id i}, Numbered r id i → Numbered t id i := fun hi =>
    hi.append (l := []) (by rw [hissued, List.append_nil])
  refine ⟨?_, ?_, ?_, fun i hi => ?_, fun i hi => ?_, fun i q hi => ?_, fun p hp => ?_,
    fun p hp => hto (hloop p hp), fun id i hi => hto (hpending id i hi)⟩
  · rw [hnext, hissued]
    exact h.nextId
  · rw [hissued]
    exact h.nodup
  · rw [hissued, hcount]
    exact h.begun
  · rw [hissued]
    exact h.early i (by rwa [← hcaller])
  · rw [hcaller]
    exact h.late i (hcount ▸ hi)
  · exact hto (h.sending i q (by rw [← hcaller, hi]))
  · exact hto (h.channel p (hchannel hp))

/-- One caller moves on, and gets no id. -/
theorem setCaller (h : Issues r) {i : ℕ} {c : Caller ρ β} (hi : i < r.callCount)
    (hearly : c.isEarly = true → i ∉ r.issued) (hsending : ∀ q, c ≠ .sending q) :
    Issues (r.setCaller i c) := by
  refine ⟨h.nextId, h.nodup, h.begun, fun j hj => ?_, fun j hj => ?_, fun j q hj => ?_,
    h.channel, h.inserting, h.pending⟩
  · rw [Requests.caller_setCaller] at hj
    split at hj
    · next heq => exact heq ▸ hearly hj
    · exact h.early j hj
  · have hle : r.callCount ≤ j := hj
    rw [Requests.caller_setCaller, if_neg (by omega)]
    exact h.late j hle
  · rw [Requests.caller_setCaller] at hj
    split at hj
    · exact absurd hj (hsending q)
    · exact h.sending j q hj

/-- Whoever has begun is one of the calls so far. -/
theorem lt_callCount (h : Issues r) {i : ℕ} (hi : (r.calls i).caller ≠ .idle) :
    i < r.callCount := by
  by_contra hle
  exact hi (h.late i (Nat.le_of_not_lt hle))

theorem completePending (h : Issues r) (id : ℕ) (a : Requests.Answer β) :
    Issues (r.completePending id a) := by
  rw [Requests.State.completePending_eq]
  refine h.of_subset rfl rfl rfl (fun i => ?_) (fun _ hp => hp) h.inserting
    fun id' i hi => h.pending id' i (Table.lookup_of_lookup_erase hi)
  dsimp only
  split <;> rfl

theorem handleServerMessage (h : Issues r) (msg : Requests.ServerMessage β) :
    Issues (r.handleServerMessage msg) := by
  rcases r.handleServerMessage_eq msg with heq | ⟨id, result, -, -, heq⟩
  · rw [heq]
    exact h
  · rw [heq]
    exact h.completePending id _

theorem failPendingRequests (h : Issues r) (reason : String) :
    Issues (r.failPendingRequests reason) := by
  rw [Requests.State.failPendingRequests_eq]
  exact h.of_subset rfl rfl rfl (fun _ => rfl) (fun _ hp => hp) h.inserting
    fun id i hi => by cases hi

/-- The loop goes elsewhere than to a freshly dequeued request. -/
theorem setLoop (h : Issues r) {l : Requests.Loop ρ} (hloop : ∀ p, l ≠ .inserting p)
    (hnext : t.nextId = r.nextId) (hissued : t.issued = r.issued)
    (hcount : t.callCount = r.callCount) (hcalls : t.calls = r.calls)
    (hchannel : t.channel = r.channel) (hpending : t.pending = r.pending) (ht : t.loop = l) :
    Issues t :=
  h.of_subset hnext hissued hcount (fun i => by rw [hcalls]) (by rw [hchannel]; exact fun _ h => h)
    (fun p hp => absurd (ht.symm.trans hp) (hloop p)) fun id i hi => h.pending id i (hpending ▸ hi)

end Issues

/-- The ids after a step of the request side. -/
theorem Issues.step (h : Issues r) {b : Requests.Action ρ β} (hb : Requests.Enabled r b)
    (hinsert : ∀ p, b ≠ .insert p) (hdecide : b ≠ .decide) : Issues (Requests.next r b) := by
  cases b with
  | call data =>
    have hnew : r.callCount ∉ r.issued := fun hmem => absurd (h.begun _ hmem) (Nat.lt_irrefl _)
    refine ⟨h.nextId, h.nodup, fun i hi => Nat.lt_succ_of_lt (h.begun i hi), fun i hi => ?_,
      fun i hi => ?_, fun i q hi => ?_, h.channel, h.inserting, h.pending⟩
    · rw [Requests.next, Requests.caller_setCaller] at hi
      split at hi
      · next heq => exact heq ▸ hnew
      · exact h.early i hi
    · have hle : r.callCount + 1 ≤ i := hi
      rw [Requests.next, Requests.caller_setCaller, if_neg (by omega)]
      exact h.late i (by omega)
    · rw [Requests.next, Requests.caller_setCaller] at hi
      split at hi
      · cases hi
      · exact h.sending i q hi
  | check i data =>
    have hi : (r.calls i).caller = .entered data := hb
    have hlt := h.lt_callCount (i := i) (by rw [hi]; rintro ⟨⟩)
    rw [Requests.next]
    split
    · exact h.setCaller hlt (by rintro ⟨⟩) (by rintro _ ⟨⟩)
    · exact h.setCaller hlt (fun _ => h.early i (by rw [hi]; rfl)) (by rintro _ ⟨⟩)
  | allocate i data =>
    have hi : (r.calls i).caller = .checked data := hb
    have hlt := h.lt_callCount (i := i) (by rw [hi]; rintro ⟨⟩)
    have hnew : i ∉ r.issued := h.early i (by rw [hi]; rfl)
    have hto : ∀ {id j}, Numbered r id j → Numbered (Requests.next r (.allocate i data)) id j :=
      fun hj => hj.append (l := [i]) rfl
    refine ⟨?_, ?_, fun j hj => ?_, fun j hj => ?_, fun j hj => ?_, fun j q hj => ?_,
      fun p hp => hto (h.channel p hp), fun p hp => hto (h.inserting p hp),
      fun id j hj => hto (h.pending id j hj)⟩
    · change wrap32 (r.nextId + 1) = wrap32 ((r.issued ++ [i]).length + 1)
      rw [h.nextId, List.length_append, List.length_singleton]
      exact Nat.mod_add_mod ..
    · exact List.nodup_append_comm.mp (List.nodup_cons.mpr ⟨hnew, h.nodup⟩)
    · rcases List.mem_append.mp hj with hj | hj
      · exact h.begun j hj
      · exact List.mem_singleton.mp hj ▸ hlt
    · rw [Requests.next, Requests.caller_setCaller] at hj
      split at hj
      · cases hj
      · next hne =>
        intro hmem
        rcases List.mem_append.mp hmem with hmem | hmem
        · exact h.early j hj hmem
        · exact hne (List.mem_singleton.mp hmem)
    · have hle : r.callCount ≤ j := hj
      rw [Requests.next, Requests.caller_setCaller, if_neg (by omega)]
      exact h.late j hle
    · rw [Requests.next, Requests.caller_setCaller] at hj
      split at hj
      · next heq =>
        obtain rfl := Caller.sending.inj hj
        refine ⟨r.issued.length, h.nextId, ?_⟩
        rw [heq]
        exact List.getElem?_concat_length
      · exact hto (h.sending j q hj)
  | enqueue i request =>
    have hi : (r.calls i).caller = .sending request := hb.1
    have hlt := h.lt_callCount (i := i) (by rw [hi]; rintro ⟨⟩)
    rw [Requests.next]
    split
    · exact h.setCaller hlt (by rintro ⟨⟩) (by rintro _ ⟨⟩)
    · have hset := h.setCaller (c := .waiting) hlt (by rintro ⟨⟩) (by rintro _ ⟨⟩)
      refine ⟨hset.nextId, hset.nodup, hset.begun, hset.early, hset.late, hset.sending,
        fun p hp => ?_, hset.inserting, hset.pending⟩
      rcases List.mem_append.mp hp with hp | hp
      · exact h.channel p hp
      · rw [List.mem_singleton.mp hp]
        exact h.sending i request hi
  | receive i =>
    exact h.setCaller (h.lt_callCount (by rw [hb.1]; rintro ⟨⟩)) (by rintro ⟨⟩) (by rintro _ ⟨⟩)
  | abandon i => exact h.setCaller (h.lt_callCount hb.1) (by rintro ⟨⟩) (by rintro _ ⟨⟩)
  | cancel =>
    exact h.of_subset rfl rfl rfl (fun _ => rfl) (fun _ hp => hp) h.inserting h.pending
  | dropConnection =>
    exact h.of_subset rfl rfl rfl (fun _ => rfl) (fun _ hp => hp) h.inserting h.pending
  | dequeue =>
    cases hc : r.channel with
    | nil => exact absurd hc hb.2
    | cons p rest =>
      change Issues (Requests.dequeueNext r)
      rw [Requests.dequeueNext, hc]
      refine h.of_subset rfl rfl rfl (fun _ => rfl) ?_ (fun q hq => ?_) h.pending
      · rw [hc]
        exact List.subset_cons_self p rest
      · obtain rfl := Requests.Loop.inserting.inj hq
        exact h.channel p (by rw [hc]; exact List.mem_cons_self)
  | insert p => exact absurd rfl (hinsert p)
  | encode p error =>
    cases error with
    | none => exact h.setLoop (by rintro _ ⟨⟩) rfl rfl rfl rfl rfl rfl rfl
    | some e =>
      exact (h.completePending _ _).setLoop (by rintro _ ⟨⟩) rfl rfl rfl rfl rfl rfl rfl
  | write p error =>
    cases error with
    | none => exact h.setLoop (by rintro _ ⟨⟩) rfl rfl rfl rfl rfl rfl rfl
    | some e =>
      exact (h.completePending _ _).setLoop (by rintro _ ⟨⟩) rfl rfl rfl rfl rfl rfl rfl
  | read msg => exact h.handleServerMessage msg
  | leaveShutdown => exact h.setLoop (by rintro _ ⟨⟩) rfl rfl rfl rfl rfl rfl rfl
  | leaveChannelClosed => exact h.setLoop (by rintro _ ⟨⟩) rfl rfl rfl rfl rfl rfl rfl
  | leaveLost reason => exact h.setLoop (by rintro _ ⟨⟩) rfl rfl rfl rfl rfl rfl rfl
  | failPending reason =>
    exact (h.failPendingRequests reason).setLoop (by rintro _ ⟨⟩) rfl rfl rfl rfl rfl rfl rfl
  | decide => exact absurd rfl hdecide
  | dial connected =>
    cases connected <;> exact h.setLoop (by rintro _ ⟨⟩) rfl rfl rfl rfl rfl rfl rfl
  | resumeWrite error =>
    exact h.of_subset rfl rfl rfl (fun _ => rfl) (fun _ hp => hp) h.inserting h.pending
  | resumeRead msg => exact h.handleServerMessage msg
  | resumed => exact h.setLoop (by rintro _ ⟨⟩) rfl rfl rfl rfl rfl rfl rfl
  | cleanup =>
    exact (h.failPendingRequests _).setLoop (by rintro _ ⟨⟩) rfl rfl rfl rfl rfl rfl rfl
  | exit =>
    refine h.of_subset rfl rfl rfl (fun i => ?_) (List.nil_subset _) (by rintro _ ⟨⟩) h.pending
    change (if i ∈ r.channel.map (·.responseTx) then { r.calls i with txDropped := true }
      else r.calls i).caller = _
    split <;> rfl

theorem Changes.issues (hc : Changes r t) (h : Issues r) : Issues t := by
  cases hc with
  | still => exact h
  | step b hb hinsert hdecide => exact h.step hb hinsert hdecide
  | insert p hp =>
    rw [insertNext_eq]
    refine h.of_subset rfl rfl rfl (fun i => ?_) (fun _ hq => hq) (by rintro _ ⟨⟩) fun id i hi => ?_
    · dsimp only
      split <;> rfl
    · change (r.pending.insert p.request.id p.responseTx).lookup id = some i at hi
      by_cases hid : id = p.request.id
      · rw [hid, AList.lookup_insert] at hi
        rw [hid, ← Option.some.inj hi]
        exact h.inserting p hp
      · rw [AList.lookup_insert_ne hid] at hi
        exact h.pending id i hi
  | decided attempt l hr hl =>
    refine h.setLoop (l := l) (fun p => ?_) rfl rfl rfl rfl rfl rfl rfl
    rcases hl with rfl | rfl | rfl <;> rintro ⟨⟩

/-! ## Counting senders -/

/-- Every call has the number of senders that its position calls for. -/
def Owing (r : Requests.State ρ β) : Prop := ∀ i, (r.calls i).caller.Owes (tokens r i)

theorem owing_init (max : Option ℕ) : Owing (Requests.init max : Requests.State ρ β) :=
  fun i => (Requests.tokens_init max).owes i

namespace Owing

/-- A step that moves no caller and no sender. -/
theorem of_eq (h : Owing r) (hcaller : ∀ i, (t.calls i).caller = (r.calls i).caller)
    (houtside : ∀ i, outside t i = outside r i) (hservice : ∀ i, service t i = service r i) :
    Owing t := by
  intro i
  rw [hcaller, Requests.tokens_eq, houtside, hservice, ← Requests.tokens_eq]
  exact h i

/-- One caller moves on. -/
theorem setCaller (h : Owing r) {i : ℕ} {c : Caller ρ β}
    (hc : ∀ n m, (r.calls i).caller.Owes n →
      m + (r.calls i).caller.isSending.toNat = n + c.isSending.toNat → c.Owes m) :
    Owing (r.setCaller i c) := by
  intro j
  rw [Requests.caller_setCaller]
  by_cases hji : j = i
  · subst hji
    rw [if_pos rfl]
    exact hc (tokens r j) _ (h j) (Requests.tokens_setCaller_self r j c)
  · rw [if_neg hji, Requests.tokens_setCaller_of_ne r hji]
    exact h j

theorem completePending (h : Owing r) (id : ℕ) (a : Requests.Answer β) :
    Owing (r.completePending id a) := by
  refine h.of_eq (fun i => ?_) (fun i => Requests.outside_completePending r id i a)
    fun i => Requests.service_completePending r id i a
  rw [Requests.State.completePending_eq]
  dsimp only
  split <;> rfl

theorem handleServerMessage (h : Owing r) (msg : Requests.ServerMessage β) :
    Owing (r.handleServerMessage msg) := by
  rcases r.handleServerMessage_eq msg with heq | ⟨id, result, -, -, heq⟩
  · rw [heq]
    exact h
  · rw [heq]
    exact h.completePending id _

theorem failPendingRequests (h : Owing r) (reason : String) :
    Owing (r.failPendingRequests reason) :=
  h.of_eq (fun i => by rw [Requests.State.failPendingRequests_eq])
    (fun i => Requests.outside_failPendingRequests r reason i)
    fun i => Requests.service_failPendingRequests r reason i

/-- The loop moves between places where it holds no sender. -/
theorem setLoop (h : Owing r) (hcalls : t.calls = r.calls) (hchannel : t.channel = r.channel)
    (hpending : t.pending = r.pending) (hr : ∀ i, r.loop.hand i = false)
    (ht : ∀ i, t.loop.hand i = false) : Owing t :=
  h.of_eq (fun i => by rw [hcalls]) (fun i => by rw [outside, outside, hcalls, hchannel])
    fun i => by rw [service, service, hcalls, hpending, hr, ht]

/-- The request arm moves a sender from the channel to the loop's hands. -/
theorem dequeue (h : Owing r) (hhand : ∀ i, r.loop.hand i = false) {p : PendingRequest ρ}
    {rest : List (PendingRequest ρ)} (hc : r.channel = p :: rest) :
    Owing (Requests.dequeueNext r) := by
  intro i
  have htokens : tokens (Requests.dequeueNext r) i = tokens r i := by
    simp only [Requests.dequeueNext, hc, tokens, service, Requests.hand_inserting, hhand,
      List.countP_cons, Bool.toNat_false]
    cases p.responseTx == i
    · simp
    · simp
      omega
  have hcaller : ((Requests.dequeueNext r).calls i).caller = (r.calls i).caller := by
    rw [Requests.dequeueNext, hc]
  rw [htokens, hcaller]
  exact h i

/-- The senders of a call after an insertion that may overwrite an entry. -/
theorem tokens_insert (r : Requests.State ρ β) (p : PendingRequest ρ) (i : ℕ) :
    tokens (insertNext r p) i = (r.calls i).caller.isSending.toNat +
      r.channel.countP (·.responseTx == i) + (Table.count (r.pending.erase p.request.id) (· == i) +
        (p.responseTx == i).toNat + (r.calls i).answered.length) +
      if r.pending.lookup p.request.id = some i then 1 else (r.calls i).txDropped.toNat := by
  have hcount := Table.count_insert_erase r.pending p.request.id p.responseTx (· == i)
  have hpending : Table.count (insertNext r p).pending (· == i) =
      Table.count (r.pending.erase p.request.id) (· == i) + (p.responseTx == i).toNat := by
    rw [insertNext_eq]
    exact hcount
  have hcalls : (insertNext r p).calls i = if r.pending.lookup p.request.id = some i then
      { r.calls i with txDropped := true } else r.calls i := by
    rw [insertNext_eq]
  have hloop : (insertNext r p).loop.hand i = false := by
    rw [insertNext_eq]
    rfl
  have hchannel : (insertNext r p).channel = r.channel := by
    rw [insertNext_eq]
    rfl
  rw [tokens, service, hcalls, hpending, hloop, hchannel, Bool.toNat_false, Nat.zero_add]
  split <;> rfl

/-- A sender whose entry is overwritten is dropped. -/
theorem insert (h : Owing r) {p : PendingRequest ρ} (hp : r.loop = .inserting p) :
    Owing (insertNext r p) := by
  intro i
  have hcaller : ((insertNext r p).calls i).caller = (r.calls i).caller := by
    rw [insertNext_eq]
    dsimp only
    split <;> rfl
  have htokens : tokens (insertNext r p) i = tokens r i := by
    have hone := (h i).le_one
    rw [tokens_insert]
    rw [tokens, service, hp, Requests.hand_inserting] at hone ⊢
    cases hlook : r.pending.lookup p.request.id with
    | none =>
      rw [Table.erase_of_lookup_eq_none hlook, if_neg (by rintro ⟨⟩)]
      omega
    | some j =>
      have herase := Table.count_erase hlook (· == i)
      by_cases hj : j = i
      · -- the sender of call `i` was in the map, so it is nowhere else
        rw [hj, beq_self_eq_true, Bool.toNat_true] at herase
        rw [hj, if_pos rfl]
        omega
      · rw [beq_false_of_ne hj, Bool.toNat_false] at herase
        rw [if_neg fun heq => hj (Option.some.inj heq)]
        omega
  rw [htokens, hcaller]
  exact h i

/-- Dropping the receiver drops the senders in the channel. -/
theorem exit (h : Owing r) (hhand : ∀ i, r.loop.hand i = false) :
    Owing (Requests.next r .exit) := by
  have hcalls : ∀ i, (Requests.next r .exit).calls i = if i ∈ r.channel.map (·.responseTx) then
      { r.calls i with txDropped := true } else r.calls i := fun _ => rfl
  refine h.of_eq (fun i => ?_) (fun i => ?_) fun i => ?_
  · rw [hcalls]
    split <;> rfl
  · have hone := (h i).le_one
    rw [Requests.tokens_eq] at hone
    rw [outside, outside, hcalls]
    rw [outside] at hone
    by_cases hmem : i ∈ r.channel.map (·.responseTx)
    · have hpos : 0 < r.channel.countP (·.responseTx == i) := by
        obtain ⟨q, hq, rfl⟩ := List.mem_map.mp hmem
        exact List.countP_pos_iff.mpr ⟨q, hq, beq_self_eq_true _⟩
      rw [if_pos hmem]
      change (r.calls i).caller.isSending.toNat + List.countP _ [] + 1 = _
      rw [List.countP_nil]
      omega
    · have hzero : r.channel.countP (·.responseTx == i) = 0 := by
        refine List.countP_eq_zero.mpr fun q hq hqi => hmem ?_
        exact List.mem_map.mpr ⟨q, hq, beq_iff_eq.mp hqi⟩
      rw [if_neg hmem, hzero]
      rfl
  · rw [service, service, hcalls, hhand]
    split <;> rfl

/-- The senders after a step of the request side. -/
theorem step (h : Owing r) (hissues : Issues r) {b : Requests.Action ρ β}
    (hb : Requests.Enabled r b) (hinsert : ∀ p, b ≠ .insert p) (hdecide : b ≠ .decide) :
    Owing (Requests.next r b) := by
  cases b with
  | call data =>
    have hidle : (r.calls r.callCount).caller = .idle := hissues.late _ (Nat.le_refl _)
    have hset : Owing (r.setCaller r.callCount (.entered data)) := h.setCaller fun n m hn hm => by
      simp only [hidle, Caller.Owes, Caller.isSending, Bool.toNat_false] at hn hm ⊢
      omega
    exact hset.of_eq (fun _ => rfl) (fun _ => rfl) fun _ => rfl
  | check i data =>
    have hi : (r.calls i).caller = .entered data := hb
    rw [Requests.next]
    split <;> refine h.setCaller fun n m hn hm => ?_ <;>
      simp only [hi, Caller.Owes, Caller.isSending, Bool.toNat_false] at hn hm ⊢ <;> omega
  | allocate i data =>
    have hi : (r.calls i).caller = .checked data := hb
    have hset : Owing (r.setCaller i (.sending ⟨r.nextId, data⟩)) := h.setCaller fun n m hn hm => by
      simp only [hi, Caller.Owes, Caller.isSending, Bool.toNat_false, Bool.toNat_true] at hn hm ⊢
      omega
    exact hset.of_eq (fun _ => rfl) (fun _ => rfl) fun _ => rfl
  | enqueue i request =>
    have hi : (r.calls i).caller = .sending request := hb.1
    rw [Requests.next]
    split
    · refine h.setCaller fun n m hn hm => ?_
      simp only [hi, Caller.Owes, Caller.isSending, Bool.toNat_false, Bool.toNat_true] at hn hm ⊢
      omega
    · intro j
      have howes := h j
      by_cases hji : j = i
      · subst hji
        simp only [hi, Caller.Owes, tokens, service, Caller.isSending, Bool.toNat_true] at howes
        simp [tokens, service, Requests.State.setCaller, Caller.Owes, Caller.isSending]
        omega
      · have hne : ¬i = j := fun heq => hji heq.symm
        simpa [tokens, service, Requests.State.setCaller, hji, hne] using howes
  | receive i =>
    have hi : (r.calls i).caller = .waiting := hb.1
    refine h.setCaller fun n m hn hm => ?_
    simp only [hi, Caller.Owes, Caller.isSending, Bool.toNat_false] at hn hm ⊢
    omega
  | abandon i =>
    refine h.setCaller fun n m hn hm => ?_
    have hle := hn.le_one
    simp only [Caller.isSending, Bool.toNat_false, Caller.Owes] at hm ⊢
    omega
  | cancel => exact h.of_eq (fun _ => rfl) (fun _ => rfl) fun _ => rfl
  | dropConnection => exact h.of_eq (fun _ => rfl) (fun _ => rfl) fun _ => rfl
  | dequeue =>
    cases hc : r.channel with
    | nil => exact absurd hc hb.2
    | cons p rest => exact h.dequeue (fun i => by rw [hb.1]; rfl) hc
  | insert p => exact absurd rfl (hinsert p)
  | encode p error =>
    have hr : ∀ i, r.loop.hand i = false := fun i => by
      rw [show r.loop = .encoding p from hb]
      rfl
    cases error with
    | none => exact h.setLoop rfl rfl rfl hr fun _ => rfl
    | some e =>
      exact (h.completePending _ _).setLoop rfl rfl rfl
        (by rw [Requests.State.completePending_eq]; exact hr) fun _ => rfl
  | write p error =>
    have hr : ∀ i, r.loop.hand i = false := fun i => by
      rw [show r.loop = .writing p from hb]
      rfl
    cases error with
    | none => exact h.setLoop rfl rfl rfl hr fun _ => rfl
    | some e =>
      exact (h.completePending _ _).setLoop rfl rfl rfl
        (by rw [Requests.State.completePending_eq]; exact hr) fun _ => rfl
  | read msg => exact h.handleServerMessage msg
  | leaveShutdown => exact h.setLoop rfl rfl rfl (fun i => by rw [hb.1]; rfl) fun _ => rfl
  | leaveChannelClosed => exact h.setLoop rfl rfl rfl (fun i => by rw [hb.1]; rfl) fun _ => rfl
  | leaveLost reason =>
    exact h.setLoop rfl rfl rfl (fun i => by rw [show r.loop = .serving from hb]; rfl) fun _ => rfl
  | failPending reason =>
    refine (h.failPendingRequests reason).setLoop rfl rfl rfl (fun i => ?_) fun _ => rfl
    rw [Requests.State.failPendingRequests_eq]
    change r.loop.hand i = false
    rw [show r.loop = .left reason from hb]
    rfl
  | decide => exact absurd rfl hdecide
  | dial connected =>
    have hr : ∀ i, r.loop.hand i = false := fun i => by
      rw [show r.loop = .backoff from hb]
      rfl
    cases connected <;> exact h.setLoop rfl rfl rfl hr fun _ => rfl
  | resumeWrite error => exact h.of_eq (fun _ => rfl) (fun _ => rfl) fun _ => rfl
  | resumeRead msg => exact h.handleServerMessage msg
  | resumed =>
    exact h.setLoop rfl rfl rfl (fun i => by rw [show r.loop = .resuming from hb]; rfl) fun _ => rfl
  | cleanup =>
    refine (h.failPendingRequests _).setLoop rfl rfl rfl (fun i => ?_) fun _ => rfl
    rw [Requests.State.failPendingRequests_eq]
    change r.loop.hand i = false
    rw [show r.loop = .cleaning from hb]
    rfl
  | exit => exact h.exit fun i => by rw [show r.loop = .exiting from hb]; rfl

end Owing

theorem Changes.owing (hc : Changes r t) (h : Owing r) (hissues : Issues r) : Owing t := by
  cases hc with
  | still => exact h
  | step b hb hinsert hdecide => exact h.step hissues hb hinsert hdecide
  | insert p hp => exact h.insert hp
  | decided attempt l hr hl =>
    refine h.setLoop rfl rfl rfl (fun i => by rw [hr]; rfl) fun i => ?_
    rcases hl with rfl | rfl | rfl <;> rfl

/-! ## Dropped senders -/

/-- A sender is dropped only at the exit, or after the ids have wrapped. -/
def Orphans (r : Requests.State ρ β) : Prop :=
  ∀ i, (r.calls i).txDropped = true → r.loop = .exited ∨ 2 ^ 32 ≤ r.issued.length

/-- A loop that has exited stays so, and only the exit drops senders. -/
theorem step_frame {b : Requests.Action ρ β} (hb : Requests.Enabled r b)
    (hinsert : ∀ p, b ≠ .insert p) :
    (r.loop = .exited → (Requests.next r b).loop = .exited) ∧
      r.issued.length ≤ (Requests.next r b).issued.length ∧
      (∀ i, ((Requests.next r b).calls i).txDropped = (r.calls i).txDropped ∨
        (Requests.next r b).loop = .exited) := by
  have hno : ∀ {l : Requests.Loop ρ}, r.loop = l → l ≠ .exited →
      r.loop = .exited → (Requests.next r b).loop = .exited :=
    fun hl hne hexited => absurd (hl.symm.trans hexited) hne
  have hset : ∀ (i : ℕ) (c : Caller ρ β) (j : ℕ),
      ((r.setCaller i c).calls j).txDropped = (r.calls j).txDropped := by
    intro i c j
    by_cases hji : j = i
    · subst hji
      simp only [Requests.State.setCaller, Function.update_self]
    · exact congrArg Requests.Call.txDropped (Function.update_of_ne hji _ _)
  have hcomplete : ∀ (id : ℕ) (x : Requests.Answer β) (j : ℕ),
      ((r.completePending id x).calls j).txDropped = (r.calls j).txDropped := by
    intro id x j
    rw [Requests.State.completePending_eq]
    dsimp only
    split <;> rfl
  have hserver : ∀ (msg : Requests.ServerMessage β) (j : ℕ),
      ((r.handleServerMessage msg).calls j).txDropped = (r.calls j).txDropped := by
    intro msg j
    rcases r.handleServerMessage_eq msg with heq | ⟨id, result, -, -, heq⟩
    · rw [heq]
    · rw [heq, hcomplete]
  have hissued : ∀ msg, (r.handleServerMessage msg).issued = r.issued := by
    intro msg
    rcases r.handleServerMessage_eq msg with heq | ⟨id, result, -, -, heq⟩
    · rw [heq]
    · rw [heq, Requests.State.completePending_eq]
  cases b with
  | call data => exact ⟨id, le_rfl, fun i => Or.inl (hset _ _ i)⟩
  | check i data =>
    rw [Requests.next]
    split <;> exact ⟨id, le_rfl, fun j => Or.inl (hset _ _ j)⟩
  | allocate i data =>
    refine ⟨id, ?_, fun j => Or.inl (hset _ _ j)⟩
    exact (List.sublist_append_left r.issued [i]).length_le
  | enqueue i request =>
    rw [Requests.next]
    split <;> exact ⟨id, le_rfl, fun j => Or.inl (hset _ _ j)⟩
  | receive i => exact ⟨id, le_rfl, fun j => Or.inl (hset _ _ j)⟩
  | abandon i => exact ⟨id, le_rfl, fun j => Or.inl (hset _ _ j)⟩
  | cancel => exact ⟨id, le_rfl, fun _ => Or.inl rfl⟩
  | dropConnection => exact ⟨id, le_rfl, fun _ => Or.inl rfl⟩
  | dequeue =>
    refine ⟨hno hb.1 (by rintro ⟨⟩), ?_, fun i => Or.inl ?_⟩
    · change _ ≤ (Requests.dequeueNext r).issued.length
      rw [Requests.dequeueNext]
      split <;> exact le_rfl
    · change ((Requests.dequeueNext r).calls i).txDropped = _
      rw [Requests.dequeueNext]
      split <;> rfl
  | insert p => exact absurd rfl (hinsert p)
  | encode p error =>
    refine ⟨hno hb (by rintro ⟨⟩), ?_, fun i => Or.inl ?_⟩
    · cases error with
      | none => exact le_rfl
      | some e =>
        rw [Requests.next, Requests.State.completePending_eq]
    · cases error with
      | none => rfl
      | some e => exact hcomplete _ _ i
  | write p error =>
    refine ⟨hno hb (by rintro ⟨⟩), ?_, fun i => Or.inl ?_⟩
    · cases error with
      | none => exact le_rfl
      | some e =>
        rw [Requests.next, Requests.State.completePending_eq]
    · cases error with
      | none => rfl
      | some e => exact hcomplete _ _ i
  | read msg =>
    exact ⟨hno hb (by rintro ⟨⟩), (congrArg List.length (hissued msg)).ge,
      fun i => Or.inl (hserver msg i)⟩
  | leaveShutdown => exact ⟨hno hb.1 (by rintro ⟨⟩), le_rfl, fun _ => Or.inl rfl⟩
  | leaveChannelClosed => exact ⟨hno hb.1 (by rintro ⟨⟩), le_rfl, fun _ => Or.inl rfl⟩
  | leaveLost reason => exact ⟨hno hb (by rintro ⟨⟩), le_rfl, fun _ => Or.inl rfl⟩
  | failPending reason =>
    refine ⟨hno hb (by rintro ⟨⟩), ?_, fun i => Or.inl ?_⟩ <;>
      rw [Requests.next, Requests.State.failPendingRequests_eq]
  | decide =>
    refine ⟨hno hb (by rintro ⟨⟩), ?_, fun i => Or.inl ?_⟩ <;>
      rw [Requests.next, Requests.decideNext] <;> dsimp only <;> split_ifs <;> rfl
  | dial connected =>
    refine ⟨hno hb (by rintro ⟨⟩), ?_, fun i => Or.inl ?_⟩ <;> cases connected <;> rfl
  | resumeWrite error => exact ⟨id, le_rfl, fun _ => Or.inl rfl⟩
  | resumeRead msg =>
    exact ⟨hno hb (by rintro ⟨⟩), (congrArg List.length (hissued msg)).ge,
      fun i => Or.inl (hserver msg i)⟩
  | resumed => exact ⟨hno hb (by rintro ⟨⟩), le_rfl, fun _ => Or.inl rfl⟩
  | cleanup =>
    refine ⟨hno hb (by rintro ⟨⟩), ?_, fun i => Or.inl ?_⟩ <;>
      rw [Requests.next, Requests.State.failPendingRequests_eq]
  | exit => exact ⟨fun _ => rfl, le_rfl, fun _ => Or.inr rfl⟩

theorem Changes.orphans (hc : Changes r t) (h : Orphans r) (hissues : Issues r) (ho : Owing r) :
    Orphans t := by
  cases hc with
  | still => exact h
  | step b hb hinsert _ =>
    obtain ⟨hexited, hlength, hdropped⟩ := step_frame hb hinsert
    intro i hi
    rcases hdropped i with hsame | hnow
    · exact (h i (hsame.symm.trans hi)).imp hexited fun hle => hle.trans hlength
    · exact Or.inl hnow
  | insert p hp =>
    intro i hi
    have hcalls : (insertNext r p).calls i = if r.pending.lookup p.request.id = some i then
        { r.calls i with txDropped := true } else r.calls i := by
      rw [insertNext_eq]
    have hissued : (insertNext r p).issued = r.issued := by
      rw [insertNext_eq]
      rfl
    rw [hissued]
    by_cases hlook : r.pending.lookup p.request.id = some i
    · -- both requests have the id, and the one in the loop's hands is not the one in the map
      refine Or.inr ((hissues.pending _ _ hlook).wrapped (hissues.inserting p hp) ?_)
      rintro rfl
      have hone := (ho p.responseTx).le_one
      have hcount := Table.count_erase hlook (· == p.responseTx)
      rw [beq_self_eq_true, Bool.toNat_true] at hcount
      rw [tokens, service, hp, Requests.hand_inserting, beq_self_eq_true, Bool.toNat_true] at hone
      omega
    · rw [hcalls, if_neg hlook] at hi
      exact (h i hi).imp_left fun hexited => by cases hp.symm.trans hexited
  | decided attempt l hr _ =>
    intro i hi
    exact (h i hi).imp_left fun hexited => by cases hr.symm.trans hexited

end

/-! ## Every run -/

/-- The invariants together. -/
structure Sound (s : State ρ β) : Prop where
  joined : Joined s
  phases : Requests.Phases s.reqs
  issues : Issues s.reqs
  owing : Owing s.reqs
  orphans : Orphans s.reqs

theorem sound_init (max : Option ℕ) : Sound (init max : State ρ β) where
  joined := joined_init max
  phases := Requests.phases_init max
  issues := issues_init max
  owing := owing_init max
  orphans i hi := by cases hi

theorem Sound.next {s : State ρ β} {a : Action ρ β} (h : Sound s) (ha : Enabled s a) :
    Sound (Session.next s a) :=
  have hc := reqs_changes ha
  { joined := h.joined.next ha
    phases := hc.phases h.phases
    issues := hc.issues h.issues
    owing := hc.owing h.owing h.issues
    orphans := hc.orphans h.orphans h.issues h.owing }

theorem exec_sound {max : Option ℕ} {as : List (Action ρ β)}
    (hv : (system ρ β).Valid (init max) as) : Sound ((system ρ β).exec (init max) as) :=
  Transition.System.invariant (fun _ _ h ha => h.next ha) (sound_init max) hv

/-- The loop is between two runs of `run_single_connection`, or over. -/
def isBetween : Publishing.Loop → Bool
  | .serving => false
  | .left _ => false
  | _ => true

/-- No call is answered twice; the sender of a call that waits is in exactly one place; it was
dropped unused only if the loop has exited or the ids have wrapped; after the exit whoever waits can
return; and between two connections the map is empty, so that no frame that `resume_streams` passes
on answers anybody. -/
structure Accounted (s : State ρ β) : Prop where
  once : ∀ i, (s.reqs.calls i).answered.length ≤ 1
  placed : ∀ i, (s.reqs.calls i).caller = .waiting → tokens s.reqs i = 1
  dropped : ∀ i, (s.reqs.calls i).txDropped = true →
    s.conn.loop = .exited ∨ 2 ^ 32 ≤ s.reqs.issued.length
  returns : s.conn.loop = .exited → ∀ i, (s.reqs.calls i).caller = .waiting →
    Enabled s (.reqs (.receive i))
  empty : isBetween s.conn.loop = true → s.reqs.pending = ∅

/-- The connection has exited when the request side has. -/
theorem Joined.exited {s : State ρ β} (h : Joined s) (hr : s.reqs.loop = .exited) :
    s.conn.loop = .exited := by
  have hloop := h.loop
  rw [hr] at hloop
  cases hl : s.conn.loop with
  | exited => rfl
  | serving =>
    rw [hl] at hloop
    rcases hloop with hloop | ⟨p, hloop | hloop | hloop⟩ <;> cases hloop
  | left reason =>
    rw [hl] at hloop
    rcases hloop with hloop | hloop <;> cases hloop
  | cleaning =>
    rw [hl] at hloop
    rcases hloop with hloop | hloop <;> cases hloop
  | _ =>
    rw [hl] at hloop
    cases hloop

theorem Joined.drained {s : State ρ β} (h : Joined s) (hr : isBetween s.conn.loop = true) :
    s.reqs.loop.isDrained = true := by
  have hloop := h.loop
  cases hl : s.conn.loop with
  | serving =>
    rw [hl] at hr
    cases hr
  | left reason =>
    rw [hl] at hr
    cases hr
  | cleaning =>
    rw [hl] at hloop
    rcases hloop with hloop | hloop <;> rw [hloop] <;> rfl
  | _ =>
    rw [hl] at hloop
    rw [show s.reqs.loop = _ from hloop]
    rfl

theorem Sound.accounted {s : State ρ β} (h : Sound s) : Accounted s where
  once i := by
    have hone := (h.owing i).le_one
    rw [tokens, service] at hone
    omega
  placed i hi := by
    have howes := h.owing i
    rwa [hi] at howes
  dropped i hi := (h.orphans i hi).imp_left h.joined.exited
  returns hexited i hi := by
    have hloop : s.reqs.loop = .exited := by
      have hagrees := h.joined.loop
      rwa [hexited] at hagrees
    refine ⟨rfl, ⟨hi, ?_⟩, by rintro ⟨⟩, by rintro ⟨⟩⟩
    have howes := h.owing i
    rw [hi] at howes
    have hone : tokens s.reqs i = 1 := howes
    have hempty := h.phases.drained (by rw [hloop]; rfl)
    rw [tokens, service, hi, h.phases.closed hloop, hempty, hloop] at hone
    by_cases hanswered : (s.reqs.calls i).answered = []
    · refine Or.inr ?_
      rw [hanswered] at hone
      cases hd : (s.reqs.calls i).txDropped with
      | true => rfl
      | false =>
        rw [hd] at hone
        cases hone
    · exact Or.inl hanswered
  empty hbetween := h.phases.drained (h.joined.drained hbetween)

/-- **Every sender is accounted for**, whatever the number of requests and whatever happens to the
connection. -/
theorem senders_accounted (max : Option ℕ) (as : List (Action ρ β))
    (hv : (system ρ β).Valid (init max) as) : Accounted ((system ρ β).exec (init max) as) :=
  (exec_sound hv).accounted

/-- Two requests. The first is written and its connection is lost; the loop gives up, and the second
is still in the channel when it exits. -/
def lostRun : List (Action ℕ ℕ) :=
  [.conn .connectPublish, .conn .connectReturn, .reqs (.call 5), .reqs (.check 0 5),
    .reqs (.allocate 0 5), .reqs (.enqueue 0 ⟨1, 5⟩), .reqs .dequeue, .reqs (.insert ⟨⟨1, 5⟩, 0⟩),
    .reqs (.encode ⟨⟨1, 5⟩, 0⟩ none), .reqs (.write ⟨⟨1, 5⟩, 0⟩ none), .reqs (.call 6),
    .reqs (.check 1 6), .reqs (.allocate 1 6), .reqs (.enqueue 1 ⟨2, 6⟩),
    .conn (.lose .pongTimeout), .reqs (.failPending "Pong timeout"),
    .conn (.checkShutdown "Pong timeout"), .conn (.checkClosed "Pong timeout"),
    .conn (.announce "Pong timeout"), .reqs .cleanup, .conn .exit]

set_option maxRecDepth 20000 in
theorem senders_accounted_lostRun :
    (((system ℕ ℕ).exec (init (some 0)) lostRun).reqs.calls 1).txDropped = true ∧
      Accounted ((system ℕ ℕ).exec (init (some 0)) lostRun) :=
  ⟨by decide, senders_accounted (some 0) lostRun (by decide)⟩

end Session

end TitanClient
