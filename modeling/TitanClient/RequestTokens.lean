import Mathlib.Data.List.Perm.Subperm
import Mathlib.Tactic.Common
import TitanClient.Requests

/-!
# Every response channel is in one place

The oneshot sender of a call is a token. It is made when the request is allocated and then sits in
exactly one place: with the caller waiting for room in the channel, in the channel, in the hands of
the loop, in `pending_requests`, or it is spent, by an answer or by being dropped with the receiver.

`tokens` counts these places for one call. The count is never above one, which is why no request is
answered twice, and it is exactly one for a caller that waits, which is why nobody waits for a
sender that no longer exists.

The argument needs that an entry of the map is never overwritten by another, and this is where the
bound on the number of calls enters: below it `fetch_add` does not wrap and the ids differ.
-/

namespace TitanClient

namespace Requests

variable {ρ β : Type}

/-! ## Ids -/

/-- Request id `id` was given to call `i`: the `k`-th `fetch_add` returns `k + 1`. -/
def IssuedTo (s : State ρ β) (id i : ℕ) : Prop := ∃ k, id = k + 1 ∧ s.issued[k]? = some i

/-- The caller has not yet reached its `fetch_add`. -/
def Caller.isEarly : Caller ρ β → Bool
  | .idle => true
  | .entered _ => true
  | .checked _ => true
  | _ => false

/-- The bookkeeping of ids. -/
structure Ids (s : State ρ β) : Prop where
  nextId : s.nextId = s.issued.length + 1
  nodup : s.issued.Nodup
  lt_callCount : ∀ i ∈ s.issued, i < s.callCount
  early : ∀ i, (s.calls i).caller.isEarly = true → i ∉ s.issued
  late : ∀ i, s.callCount ≤ i → (s.calls i).caller = .idle
  sending : ∀ i request, (s.calls i).caller = .sending request → IssuedTo s request.id i
  channel : ∀ r ∈ s.channel, IssuedTo s r.request.id r.responseTx
  dequeued : ∀ r ∈ s.dequeued, IssuedTo s r.request.id r.responseTx
  inserting : ∀ r, s.loop = .inserting r → IssuedTo s r.request.id r.responseTx
  pending : ∀ id i, s.pending.lookup id = some i → IssuedTo s id i

theorem Ids.issued_length_le {s : State ρ β} (h : Ids s) : s.issued.length ≤ s.callCount := by
  have hsub : s.issued ⊆ List.range s.callCount := fun i hi =>
    List.mem_range.mpr (h.lt_callCount i hi)
  simpa using (List.subperm_of_subset h.nodup hsub).length_le

theorem Ids.call_unique {s : State ρ β} {id i j : ℕ} (hi : IssuedTo s id i)
    (hj : IssuedTo s id j) : i = j := by
  obtain ⟨k, rfl, hk⟩ := hi
  obtain ⟨l, hl, hj⟩ := hj
  obtain rfl : k = l := by omega
  rw [hk] at hj
  exact Option.some.inj hj

theorem Ids.id_unique {s : State ρ β} (h : Ids s) {id id' i : ℕ} (hid : IssuedTo s id i)
    (hid' : IssuedTo s id' i) : id = id' := by
  obtain ⟨k, rfl, hk⟩ := hid
  obtain ⟨l, rfl, hl⟩ := hid'
  obtain ⟨hkl, hk⟩ := List.getElem?_eq_some_iff.mp hk
  obtain ⟨hll, hl⟩ := List.getElem?_eq_some_iff.mp hl
  rw [h.nodup.getElem_inj_iff.mp (hk.trans hl.symm)]

theorem IssuedTo.append {s t : State ρ β} {id i : ℕ} {l : List ℕ} (h : IssuedTo s id i)
    (ht : t.issued = s.issued ++ l) : IssuedTo t id i := by
  obtain ⟨k, rfl, hk⟩ := h
  refine ⟨k, rfl, ?_⟩
  rw [ht, List.getElem?_append_left (List.getElem?_eq_some_iff.mp hk).1, hk]

theorem ids_init (max : Option ℕ) : Ids (init max : State ρ β) := by
  constructor <;> simp [init]

/-- A step that moves no caller and gives out no id: callers stay, and the channel, the map and the
loop hold only what they held. -/
theorem Ids.of_subset {s t : State ρ β} (h : Ids s) (hnext : t.nextId = s.nextId)
    (hissued : t.issued = s.issued) (hcount : t.callCount = s.callCount)
    (hcaller : ∀ i, (t.calls i).caller = (s.calls i).caller) (hchannel : t.channel ⊆ s.channel)
    (hdequeued : t.dequeued = s.dequeued)
    (hloop : ∀ r, t.loop = .inserting r → s.loop = .inserting r)
    (hpending : ∀ id i, t.pending.lookup id = some i → s.pending.lookup id = some i) : Ids t := by
  have hto : ∀ {id i}, IssuedTo s id i → IssuedTo t id i := fun hi =>
    hi.append (l := []) (by rw [hissued, List.append_nil])
  constructor
  case nextId => rw [hnext, hissued, h.nextId]
  case nodup => rw [hissued]; exact h.nodup
  case lt_callCount => rw [hissued, hcount]; exact h.lt_callCount
  case early => intro i hi; rw [hissued]; exact h.early i (by rwa [← hcaller])
  case late => intro i hi; rw [hcaller]; exact h.late i (by rwa [← hcount])
  case sending => intro i r hi; exact hto (h.sending i r (by rw [← hcaller, hi]))
  case channel => intro r hr; exact hto (h.channel r (hchannel hr))
  case dequeued => intro r hr; exact hto (h.dequeued r (hdequeued ▸ hr))
  case inserting => intro r hr; exact hto (h.inserting r (hloop r hr))
  case pending => intro id i hi; exact hto (h.pending id i (hpending id i hi))

/-- Moving one caller, other than by an allocation. -/
theorem Ids.setCaller {s : State ρ β} (h : Ids s) {i : ℕ} {c : Caller ρ β} (hi : i < s.callCount)
    (hearly : c.isEarly = true → i ∉ s.issued)
    (hsending : ∀ request, c = .sending request → IssuedTo s request.id i) :
    Ids (s.setCaller i c) := by
  refine ⟨h.nextId, h.nodup, h.lt_callCount, fun j hj => ?_, fun j hj => ?_, fun j r hj => ?_,
    h.channel, h.dequeued, h.inserting, h.pending⟩
  · by_cases hji : j = i
    · subst hji
      exact hearly (by simpa [State.setCaller] using hj)
    · exact h.early j (by simpa [State.setCaller, hji] using hj)
  · have hj' : s.callCount ≤ j := hj
    have hji : j ≠ i := by omega
    simpa [State.setCaller, hji] using h.late j hj'
  · by_cases hji : j = i
    · subst hji
      exact hsending r (by simpa [State.setCaller] using hj)
    · exact h.sending j r (by simpa [State.setCaller, hji] using hj)

/-- A caller that has entered is one of the calls made so far. -/
theorem Ids.lt_of_ne_idle {s : State ρ β} (h : Ids s) {i : ℕ} (hi : (s.calls i).caller ≠ .idle) :
    i < s.callCount := by
  by_contra hlt
  exact hi (h.late i (Nat.not_lt.mp hlt))

/-- The caller of `s.setCaller`. -/
theorem caller_setCaller (s : State ρ β) (i j : ℕ) (c : Caller ρ β) :
    ((s.setCaller i c).calls j).caller = if j = i then c else (s.calls j).caller := by
  by_cases hji : j = i
  · subst hji; simp [State.setCaller]
  · simp [State.setCaller, hji]

/-- Completing entries of the map moves no caller and gives out no id. -/
theorem Ids.completePending {s : State ρ β} (h : Ids s) (id : ℕ) (a : Answer β) :
    Ids (s.completePending id a) := by
  rw [State.completePending_eq]
  refine h.of_subset rfl rfl rfl (fun i => ?_) (fun _ hr => hr) rfl (fun _ hr => hr)
    fun _ _ hi => Table.lookup_of_lookup_erase hi
  simp only
  split <;> rfl

theorem Ids.handleServerMessage {s : State ρ β} (h : Ids s) (msg : ServerMessage β) :
    Ids (s.handleServerMessage msg) := by
  rcases s.handleServerMessage_eq msg with heq | ⟨id, result, -, -, heq⟩
  · rw [heq]; exact h
  · rw [heq]; exact h.completePending id _

theorem Ids.failPendingRequests {s : State ρ β} (h : Ids s) (reason : String) :
    Ids (s.failPendingRequests reason) := by
  rw [State.failPendingRequests_eq]
  exact h.of_subset rfl rfl rfl (fun _ => rfl) (fun _ hr => hr) rfl (fun _ hr => hr)
    fun _ _ hi => by simp at hi

/-- The loop goes elsewhere than to a freshly dequeued request. -/
theorem Ids.setLoop {s t : State ρ β} (h : Ids s) (hnext : t.nextId = s.nextId)
    (hissued : t.issued = s.issued) (hcount : t.callCount = s.callCount)
    (hcalls : t.calls = s.calls) (hchannel : t.channel = s.channel)
    (hdequeued : t.dequeued = s.dequeued)
    (hpending : t.pending = s.pending) (hloop : ∀ r, t.loop ≠ .inserting r) : Ids t :=
  h.of_subset hnext hissued hcount (fun _ => by rw [hcalls])
    (by rw [hchannel]; exact fun _ hr => hr) hdequeued (fun r hr => absurd hr (hloop r))
    fun _ _ hi => hpending ▸ hi

/-- A new caller has no id yet. -/
theorem Ids.call {s : State ρ β} (h : Ids s) (data : ρ) :
    Ids (Requests.next s (.call data)) := by
  have hnew : s.callCount ∉ s.issued := fun hmem => by
    have := h.lt_callCount _ hmem
    omega
  refine ⟨h.nextId, h.nodup, fun i hi => Nat.lt_succ_of_lt (h.lt_callCount i hi), fun i hi => ?_,
    fun i hi => ?_, fun i r hi => ?_, h.channel, h.dequeued, h.inserting, h.pending⟩
  · rw [next, caller_setCaller] at hi
    split at hi
    · next heq => exact heq ▸ hnew
    · exact h.early i hi
  · have hi' : s.callCount + 1 ≤ i := hi
    rw [next, caller_setCaller, if_neg (by omega)]
    exact h.late i (by omega)
  · rw [next, caller_setCaller] at hi
    split at hi
    · cases hi
    · exact h.sending i r hi

/-- Below the bound the counter has not wrapped, and the id is a new one. -/
theorem Ids.allocate {s : State ρ β} (h : Ids s) {i : ℕ} {data : ρ}
    (ha : Enabled s (.allocate i data)) (hcount : s.callCount < 2 ^ 31) :
    Ids (Requests.next s (.allocate i data)) := by
  have hi : (s.calls i).caller = .checked data := ha
  have hlt := h.lt_of_ne_idle (i := i) (by rw [hi]; simp)
  have hnew : i ∉ s.issued := h.early i (by rw [hi]; rfl)
  have hlen := h.issued_length_le
  have hto : ∀ {id j}, IssuedTo s id j → IssuedTo (next s (.allocate i data)) id j := fun hj =>
    hj.append (l := [i]) rfl
  refine ⟨?_, ?_, fun j hj => ?_, fun j hj => ?_, fun j hj => ?_, fun j r hj => ?_,
    fun r hr => hto (h.channel r hr), fun r hr => hto (h.dequeued r hr),
    fun r hr => hto (h.inserting r hr), fun id j hj => hto (h.pending id j hj)⟩
  · change wrap32 (s.nextId + 1) = (s.issued ++ [i]).length + 1
    rw [h.nextId, wrap32_of_lt (by omega), List.length_append, List.length_singleton]
  · change (s.issued ++ [i]).Nodup
    rw [List.nodup_append]
    refine ⟨h.nodup, List.nodup_singleton i, fun j hj k hk => ?_⟩
    rw [List.mem_singleton] at hk
    exact fun hjk => hnew (hk ▸ hjk ▸ hj)
  · rcases List.mem_append.mp hj with hj | hj
    · exact h.lt_callCount j hj
    · exact List.mem_singleton.mp hj ▸ hlt
  · rw [next, caller_setCaller] at hj
    split at hj
    · cases hj
    · next hne =>
      intro hmem
      rcases List.mem_append.mp hmem with hmem | hmem
      · exact h.early j hj hmem
      · exact hne (List.mem_singleton.mp hmem)
  · rw [next, caller_setCaller]
    split
    · next heq => exact absurd (heq ▸ hj : s.callCount ≤ i) (by omega)
    · exact h.late j hj
  · rw [next, caller_setCaller] at hj
    split at hj
    · next heq =>
      obtain rfl := Caller.sending.inj hj
      refine ⟨s.issued.length, h.nextId, ?_⟩
      subst heq
      change (s.issued ++ [j])[s.issued.length]? = some j
      simp
    · exact hto (h.sending j r hj)

/-- The request goes into the channel with the id that its caller was given. -/
theorem Ids.enqueue {s : State ρ β} (h : Ids s) {i : ℕ} {request : ClientRequest ρ}
    (ha : Enabled s (.enqueue i request)) :
    Ids (Requests.next s (.enqueue i request)) := by
  have hi : (s.calls i).caller = .sending request := ha.1
  have hlt := h.lt_of_ne_idle (i := i) (by rw [hi]; simp)
  simp only [next]
  split
  · exact h.setCaller hlt (by simp [Caller.isEarly]) (by simp)
  · have h' := h.setCaller (c := .waiting) hlt (by simp [Caller.isEarly]) (by simp)
    refine ⟨h'.nextId, h'.nodup, h'.lt_callCount, h'.early, h'.late, h'.sending, fun r hr => ?_,
      h'.dequeued, h'.inserting, h'.pending⟩
    rcases List.mem_append.mp hr with hr | hr
    · exact h.channel r hr
    · rw [List.mem_singleton.mp hr]
      exact h.sending i request hi

theorem Ids.dequeue {s : State ρ β} (h : Ids s) (ha : Enabled s .dequeue) :
    Ids (Requests.next s .dequeue) := by
  cases hc : s.channel with
  | nil => exact absurd hc ha.2
  | cons r rest =>
    have hr : IssuedTo s r.request.id r.responseTx := h.channel r (by rw [hc]; simp)
    simp only [next, dequeueNext, hc]
    refine ⟨h.nextId, h.nodup, h.lt_callCount, h.early, h.late, h.sending, fun q hq => ?_,
      fun q hq => ?_, fun q hq => ?_, h.pending⟩
    · exact h.channel q (by rw [hc]; exact List.mem_cons_of_mem r hq)
    · rcases List.mem_append.mp hq with hq | hq
      · exact h.dequeued q hq
      · rw [List.mem_singleton.mp hq]; exact hr
    · obtain rfl := Loop.inserting.inj hq
      exact hr

theorem Ids.insert {s : State ρ β} (h : Ids s) {r : PendingRequest ρ} (ha : Enabled s (.insert r)) :
    Ids (Requests.next s (.insert r)) := by
  have hr : IssuedTo s r.request.id r.responseTx := h.inserting r ha
  refine ⟨h.nextId, h.nodup, h.lt_callCount, h.early, h.late, h.sending, h.channel, h.dequeued,
    fun q hq => by simp [next] at hq, fun id j hj => ?_⟩
  by_cases hid : id = r.request.id
  · subst hid
    simp only [next, AList.lookup_insert, Option.some.injEq] at hj
    exact hj ▸ hr
  · simp only [next, AList.lookup_insert_ne hid] at hj
    exact h.pending id j hj

theorem ids_next {s : State ρ β} {a : Action ρ β} (h : Ids s) (ha : Enabled s a)
    (hbound : (next s a).callCount < 2 ^ 31) : Ids (next s a) := by
  cases a with
  | call data => exact h.call data
  | check i data =>
    have hi : (s.calls i).caller = .entered data := ha
    have hlt := h.lt_of_ne_idle (i := i) (by rw [hi]; simp)
    simp only [next]
    split
    · exact h.setCaller hlt (by simp [Caller.isEarly]) (by simp)
    · exact h.setCaller hlt (fun _ => h.early i (by rw [hi]; rfl)) (by simp)
  | allocate i data => exact h.allocate ha hbound
  | enqueue i request => exact h.enqueue ha
  | receive i =>
    have hlt := h.lt_of_ne_idle (i := i) (by rw [ha.1]; simp)
    exact h.setCaller hlt (by simp [Caller.isEarly]) (by simp)
  | abandon i => exact h.setCaller (h.lt_of_ne_idle ha.1) (by simp [Caller.isEarly]) (by simp)
  | dequeue => exact h.dequeue ha
  | insert r => exact h.insert ha
  | cancel =>
    exact h.of_subset rfl rfl rfl (fun _ => rfl) (fun _ hr => hr) rfl (fun _ hr => hr)
      fun _ _ hi => hi
  | dropConnection =>
    exact h.of_subset rfl rfl rfl (fun _ => rfl) (fun _ hr => hr) rfl (fun _ hr => hr)
      fun _ _ hi => hi
  | encode r error =>
    cases error with
    | none => exact h.setLoop rfl rfl rfl rfl rfl rfl rfl (by simp [next])
    | some e =>
      exact (h.completePending _ _).setLoop rfl rfl rfl rfl rfl rfl rfl (by simp [next])
  | write r error =>
    cases error with
    | none => exact h.setLoop rfl rfl rfl rfl rfl rfl rfl (by simp [next])
    | some e =>
      exact (h.completePending _ _).setLoop rfl rfl rfl rfl rfl rfl rfl (by simp [next])
  | read msg => exact h.handleServerMessage msg
  | leaveShutdown => exact h.setLoop rfl rfl rfl rfl rfl rfl rfl (by simp [next])
  | leaveChannelClosed => exact h.setLoop rfl rfl rfl rfl rfl rfl rfl (by simp [next])
  | leaveLost reason => exact h.setLoop rfl rfl rfl rfl rfl rfl rfl (by simp [next])
  | failPending reason =>
    exact (h.failPendingRequests reason).setLoop rfl rfl rfl rfl rfl rfl rfl (by simp [next])
  | decide =>
    simp only [next, decideNext]
    split
    · exact h.setLoop rfl rfl rfl rfl rfl rfl rfl (by simp)
    · split <;> exact h.setLoop rfl rfl rfl rfl rfl rfl rfl (by simp)
  | dial connected =>
    cases connected <;> exact h.setLoop rfl rfl rfl rfl rfl rfl rfl (by simp [next])
  | resumeWrite error =>
    have hloop : s.loop = .resuming := ha
    exact h.setLoop rfl rfl rfl rfl rfl rfl rfl (by simp [next, hloop])
  | resumeRead msg => exact h.handleServerMessage msg
  | resumed => exact h.setLoop rfl rfl rfl rfl rfl rfl rfl (by simp [next])
  | cleanup =>
    exact (h.failPendingRequests _).setLoop rfl rfl rfl rfl rfl rfl rfl (by simp [next])
  | exit =>
    refine h.of_subset rfl rfl rfl (fun i => ?_) (List.nil_subset _) rfl
      (fun _ hr => by simp [next] at hr) fun _ _ hi => hi
    simp only [next, State.dropReceiver]
    split <;> rfl

/-! ## Tokens -/

/-- The loop holds the sender of call `i` outside the map. -/
def Loop.hand : Loop ρ → ℕ → Bool
  | .inserting r, i => r.responseTx == i
  | _, _ => false

@[simp] theorem hand_inserting (r : PendingRequest ρ) (i : ℕ) :
    (Loop.inserting r).hand i = (r.responseTx == i) := rfl

@[simp] theorem hand_serving (i : ℕ) : (Loop.serving : Loop ρ).hand i = false := rfl

/-- The caller holds its own sender, waiting for room in the channel. -/
def Caller.isSending : Caller ρ β → Bool
  | .sending _ => true
  | _ => false

/-- The places where the sender of call `i` is in service: the loop's hands, the map, its
answers. -/
def service (s : State ρ β) (i : ℕ) : ℕ :=
  (s.loop.hand i).toNat + Table.count s.pending (· == i) + (s.calls i).answered.length

/-- All places where the sender of call `i` can be. -/
def tokens (s : State ρ β) (i : ℕ) : ℕ :=
  (s.calls i).caller.isSending.toNat + s.channel.countP (·.responseTx == i) + service s i +
    (s.calls i).txDropped.toNat

/-- How many places a caller at this position can have. -/
def Caller.Owes : Caller ρ β → ℕ → Prop
  | .idle, n => n = 0
  | .entered _, n => n = 0
  | .checked _, n => n = 0
  | .sending _, n => n = 1
  | .waiting, n => n = 1
  | .returned _, n => n ≤ 1
  | .cancelled, n => n ≤ 1

theorem Caller.Owes.le_one {c : Caller ρ β} {n : ℕ} (h : c.Owes n) : n ≤ 1 := by
  cases c <;> simp only [Caller.Owes] at h <;> omega

/-! ## Phases of the loop -/

/-- Between two runs of `run_single_connection`, after `fail_pending_requests`. -/
def Loop.isDrained : Loop ρ → Bool
  | .failed => true
  | .backoff => true
  | .resuming => true
  | .cleaning => true
  | .exiting => true
  | .exited => true
  | _ => false

/-- Between two connections there is nothing in the hands of the loop. -/
theorem hand_of_isDrained {l : Loop ρ} (h : l.isDrained = true) (i : ℕ) : l.hand i = false := by
  cases l with
  | inserting => cases h
  | _ => rfl

/-- The request the loop has put in the map and not yet written. -/
def Loop.current : Loop ρ → Option (PendingRequest ρ)
  | .encoding r => some r
  | .writing r => some r
  | _ => none

/-- What each phase of the loop says about the map and the channel. -/
structure Phases (s : State ρ β) : Prop where
  drained : s.loop.isDrained = true → s.pending = ∅
  current : ∀ r, s.loop.current = some r → s.pending.lookup r.request.id = some r.responseTx
  receiver : s.receiverDropped = true ↔ s.loop = .exited
  closed : s.loop = .exited → s.channel = []

theorem phases_init (max : Option ℕ) : Phases (init max : State ρ β) := by
  constructor <;> simp [init, Loop.isDrained, Loop.current]

/-- In a drained phase there is nothing to complete. -/
theorem Phases.completePending {s : State ρ β} (h : Phases s) (hloop : s.loop.current = none)
    (id : ℕ) (a : Answer β) : Phases (s.completePending id a) := by
  rw [State.completePending_eq]
  refine ⟨fun hd => ?_, fun r hr => ?_, h.receiver, h.closed⟩
  · change s.pending.erase id = ∅
    rw [h.drained hd]
    rfl
  · have hr' : s.loop.current = some r := hr
    rw [hloop] at hr'
    cases hr'

theorem Phases.handleServerMessage {s : State ρ β} (h : Phases s) (hloop : s.loop.current = none)
    (msg : ServerMessage β) : Phases (s.handleServerMessage msg) := by
  rcases s.handleServerMessage_eq msg with heq | ⟨id, result, -, -, heq⟩
  · rw [heq]; exact h
  · rw [heq]; exact h.completePending hloop id _

/-- The loop goes to a place where it holds no written request; a drained one needs an empty map. -/
theorem Phases.setLoop {s t : State ρ β} (h : Phases s)
    (hdrained : t.loop.isDrained = true → t.pending = ∅)
    (hcurrent : t.loop.current = none) (hs : s.loop ≠ .exited) (ht : t.loop ≠ .exited)
    (hreceiver : t.receiverDropped = s.receiverDropped) : Phases t := by
  refine ⟨hdrained, fun r hr => ?_, ?_, fun hl => absurd hl ht⟩
  · rw [hcurrent] at hr
    cases hr
  · rw [hreceiver, h.receiver]
    exact iff_of_false hs ht

theorem phases_next {s : State ρ β} {a : Action ρ β} (h : Phases s) (ha : Enabled s a) :
    Phases (next s a) := by
  cases a with
  | call data => exact ⟨h.drained, h.current, h.receiver, h.closed⟩
  | check i data =>
    simp only [next]
    split <;> exact ⟨h.drained, h.current, h.receiver, h.closed⟩
  | allocate i data => exact ⟨h.drained, h.current, h.receiver, h.closed⟩
  | enqueue i request =>
    simp only [next]
    split
    · exact ⟨h.drained, h.current, h.receiver, h.closed⟩
    · next hopen =>
      exact ⟨h.drained, h.current, h.receiver, fun hl => absurd (h.receiver.mpr hl) hopen⟩
  | receive i => exact ⟨h.drained, h.current, h.receiver, h.closed⟩
  | abandon i => exact ⟨h.drained, h.current, h.receiver, h.closed⟩
  | cancel => exact ⟨h.drained, h.current, h.receiver, h.closed⟩
  | dropConnection => exact ⟨h.drained, h.current, h.receiver, h.closed⟩
  | dequeue =>
    cases hc : s.channel with
    | nil => exact absurd hc ha.2
    | cons r rest =>
      refine h.setLoop ?_ ?_ (by simp [ha.1]) ?_ ?_ <;>
        simp [next, dequeueNext, hc, Loop.isDrained, Loop.current]
  | insert r =>
    have hloop : s.loop = .inserting r := ha
    have hopen : ¬ s.receiverDropped = true := by
      rw [h.receiver, hloop]
      simp
    refine ⟨by simp [next, Loop.isDrained], fun q hq => ?_, ?_, by simp [next]⟩
    · obtain rfl := Option.some.inj hq
      exact AList.lookup_insert _
    · exact iff_of_false hopen (by simp [next])
  | encode r error =>
    have hloop : s.loop = .encoding r := ha
    have hopen : ¬ s.receiverDropped = true := by
      rw [h.receiver, hloop]
      simp
    cases error with
    | none =>
      refine ⟨by simp [next, Loop.isDrained], fun q hq => ?_, ?_, by simp [next]⟩
      · obtain rfl := Option.some.inj hq
        exact h.current r (by rw [hloop]; rfl)
      · exact iff_of_false hopen (by simp [next])
    | some e =>
      refine h.setLoop ?_ ?_ (by simp [hloop]) ?_ ?_ <;>
        simp [next, State.completePending_eq, Loop.isDrained, Loop.current]
  | write r error =>
    have hloop : s.loop = .writing r := ha
    cases error with
    | none =>
      refine h.setLoop ?_ ?_ (by simp [hloop]) ?_ ?_ <;> simp [next, Loop.isDrained, Loop.current]
    | some e =>
      refine h.setLoop ?_ ?_ (by simp [hloop]) ?_ ?_ <;>
        simp [next, State.completePending_eq, Loop.isDrained, Loop.current]
  | read msg =>
    have hloop : s.loop = .serving := ha
    exact h.handleServerMessage (by rw [hloop]; rfl) msg
  | leaveShutdown =>
    have hloop : s.loop = .serving := ha.1
    refine h.setLoop ?_ ?_ (by simp [hloop]) ?_ ?_ <;> simp [next, Loop.isDrained, Loop.current]
  | leaveChannelClosed =>
    have hloop : s.loop = .serving := ha.1
    refine h.setLoop ?_ ?_ (by simp [hloop]) ?_ ?_ <;> simp [next, Loop.isDrained, Loop.current]
  | leaveLost reason =>
    have hloop : s.loop = .serving := ha
    refine h.setLoop ?_ ?_ (by simp [hloop]) ?_ ?_ <;> simp [next, Loop.isDrained, Loop.current]
  | failPending reason =>
    have hloop : s.loop = .left reason := ha
    refine h.setLoop ?_ ?_ (by simp [hloop]) ?_ ?_ <;>
      simp [next, State.failPendingRequests_eq, Loop.current]
  | decide =>
    have hloop : s.loop = .failed := ha
    have hempty : s.pending = ∅ := h.drained (by rw [hloop]; rfl)
    refine h.setLoop ?_ ?_ (by simp [hloop]) ?_ ?_ <;> simp only [next, decideNext] <;>
      split_ifs <;> simp [hempty, Loop.current]
  | dial connected =>
    have hloop : s.loop = .backoff := ha
    have hempty : s.pending = ∅ := h.drained (by rw [hloop]; rfl)
    cases connected <;> refine h.setLoop ?_ ?_ (by simp [hloop]) ?_ ?_ <;>
      simp [next, hempty, Loop.current]
  | resumeWrite error => exact ⟨h.drained, h.current, h.receiver, h.closed⟩
  | resumeRead msg =>
    have hloop : s.loop = .resuming := ha
    exact h.handleServerMessage (by rw [hloop]; rfl) msg
  | resumed =>
    have hloop : s.loop = .resuming := ha
    refine h.setLoop ?_ ?_ (by simp [hloop]) ?_ ?_ <;> simp [next, Loop.isDrained, Loop.current]
  | cleanup =>
    have hloop : s.loop = .cleaning := ha
    refine h.setLoop ?_ ?_ (by simp [hloop]) ?_ ?_ <;>
      simp [next, State.failPendingRequests_eq, Loop.current]
  | exit =>
    have hloop : s.loop = .exiting := ha
    have hempty : s.pending = ∅ := h.drained (by rw [hloop]; rfl)
    constructor <;> simp [next, State.dropReceiver, hempty, Loop.current]

/-! ## Counting tokens -/

theorem service_completePending (s : State ρ β) (id i : ℕ) (a : Answer β) :
    service (s.completePending id a) i = service s i := by
  rw [State.completePending_eq, service, service]
  cases h : s.pending.lookup id with
  | none => simp [Table.erase_of_lookup_eq_none h]
  | some j =>
    rw [Table.count_erase h]
    by_cases hji : j = i
    · subst hji
      simp
      omega
    · simp [hji]

theorem service_failPendingRequests (s : State ρ β) (reason : String) (i : ℕ) :
    service (s.failPendingRequests reason) i = service s i := by
  rw [State.failPendingRequests_eq, service, service]
  simp
  omega

/-- The sender of call `i` is elsewhere than in service: with the caller or in the channel, or it
was dropped. -/
def outside (s : State ρ β) (i : ℕ) : ℕ :=
  (s.calls i).caller.isSending.toNat + s.channel.countP (·.responseTx == i) +
    (s.calls i).txDropped.toNat

theorem tokens_eq (s : State ρ β) (i : ℕ) : tokens s i = outside s i + service s i := by
  rw [tokens, outside]
  omega

theorem outside_completePending (s : State ρ β) (id i : ℕ) (a : Answer β) :
    outside (s.completePending id a) i = outside s i := by
  rw [State.completePending_eq, outside, outside]
  by_cases h : s.pending.lookup id = some i <;> simp [h]

theorem outside_failPendingRequests (s : State ρ β) (reason : String) (i : ℕ) :
    outside (s.failPendingRequests reason) i = outside s i := by
  rw [State.failPendingRequests_eq, outside, outside]

/-- Every caller has the number of tokens its position calls for, and every request the loop has
dequeued is in service. -/
structure Tokens (s : State ρ β) : Prop where
  owes : ∀ i, (s.calls i).caller.Owes (tokens s i)
  serviced : ∀ r ∈ s.dequeued, service s r.responseTx = 1

theorem tokens_init (max : Option ℕ) : Tokens (init max : State ρ β) := by
  constructor <;> simp [init, Caller.Owes, tokens, service, Caller.isSending, Loop.hand]

/-- A step that moves no caller and keeps both counts. -/
theorem Tokens.of_eq {s t : State ρ β} (h : Tokens s)
    (hcaller : ∀ i, (t.calls i).caller = (s.calls i).caller)
    (hdequeued : t.dequeued = s.dequeued) (houtside : ∀ i, outside t i = outside s i)
    (hservice : ∀ i, service t i = service s i) : Tokens t := by
  refine ⟨fun i => ?_, fun r hr => ?_⟩
  · rw [hcaller, tokens_eq, houtside, hservice, ← tokens_eq]
    exact h.owes i
  · rw [hservice]
    exact h.serviced r (hdequeued ▸ hr)

/-- Moving one caller changes only whether that caller holds its own sender. -/
theorem tokens_setCaller_self (s : State ρ β) (i : ℕ) (c : Caller ρ β) :
    tokens (s.setCaller i c) i + (s.calls i).caller.isSending.toNat =
      tokens s i + c.isSending.toNat := by
  simp only [tokens, service, State.setCaller, Function.update_self]
  omega

theorem tokens_setCaller_of_ne (s : State ρ β) {i j : ℕ} (hji : j ≠ i) (c : Caller ρ β) :
    tokens (s.setCaller i c) j = tokens s j := by
  simp only [tokens, service, State.setCaller, Function.update_of_ne hji]

theorem service_setCaller (s : State ρ β) (i j : ℕ) (c : Caller ρ β) :
    service (s.setCaller i c) j = service s j := by
  by_cases hji : j = i
  · subst hji
    simp only [service, State.setCaller, Function.update_self]
  · simp only [service, State.setCaller, Function.update_of_ne hji]

theorem Tokens.setCaller {s : State ρ β} (h : Tokens s) {i : ℕ} {c : Caller ρ β}
    (hc : ∀ n m, (s.calls i).caller.Owes n →
      m + (s.calls i).caller.isSending.toNat = n + c.isSending.toNat → c.Owes m) :
    Tokens (s.setCaller i c) := by
  refine ⟨fun j => ?_, fun r hr => ?_⟩
  · rw [caller_setCaller]
    by_cases hji : j = i
    · subst hji
      rw [if_pos rfl]
      exact hc (tokens s j) _ (h.owes j) (tokens_setCaller_self s j c)
    · rw [if_neg hji, tokens_setCaller_of_ne s hji]
      exact h.owes j
  · rw [service_setCaller]
    exact h.serviced r hr

/-- No token of the caller of a fresh key is in the map, so inserting overwrites nothing. -/
theorem notMem_pending_of_inserting {s : State ρ β} (hids : Ids s) (htok : Tokens s)
    {r : PendingRequest ρ} (hloop : s.loop = .inserting r) : r.request.id ∉ s.pending := by
  rw [← AList.lookup_eq_none]
  cases hlook : s.pending.lookup r.request.id with
  | none => rfl
  | some j =>
    have hj : j = r.responseTx :=
      Ids.call_unique (hids.pending _ _ hlook) (hids.inserting r hloop)
    have hpos : 0 < Table.count s.pending (· == r.responseTx) :=
      Table.count_pos_iff.mpr ⟨_, j, hlook, by simp [hj]⟩
    have hone := (htok.owes r.responseTx).le_one
    have hhand : s.loop.hand r.responseTx = true := by rw [hloop]; simp [Loop.hand]
    simp only [tokens, service, hhand, Bool.toNat_true] at hone
    omega

/-- The request arm keeps the token of its request: it moves from the channel to the loop's
hands. -/
theorem Tokens.dequeue {s : State ρ β} (h : Tokens s) (hhand : ∀ i, s.loop.hand i = false)
    {r : PendingRequest ρ} {rest : List (PendingRequest ρ)} (hc : s.channel = r :: rest) :
    Tokens (dequeueNext s) := by
  have htok : ∀ j, tokens (dequeueNext s) j = tokens s j := by
    intro j
    simp only [dequeueNext, hc, tokens, service, hand_inserting, hhand, List.countP_cons,
      Bool.toNat_false]
    cases r.responseTx == j
    · simp
    · simp
      omega
  have hserv : ∀ j, service (dequeueNext s) j = service s j + (r.responseTx == j).toNat := by
    intro j
    simp only [dequeueNext, hc, service, hand_inserting, hhand, Bool.toNat_false]
    omega
  have hhead : ∀ j, (r.responseTx == j).toNat + service s j ≤ 1 := by
    intro j
    have hone := (h.owes j).le_one
    simp only [tokens, hc, List.countP_cons] at hone
    cases hj : r.responseTx == j <;> simp [hj] at hone ⊢ <;> omega
  refine ⟨fun j => ?_, fun q hq => ?_⟩
  · rw [htok]
    simp only [dequeueNext, hc]
    exact h.owes j
  · simp only [dequeueNext, hc] at hq
    rcases List.mem_append.mp hq with hq | hq
    · have := hhead q.responseTx
      rw [h.serviced q hq] at this
      rw [hserv, h.serviced q hq]
      omega
    · have := hhead r.responseTx
      rw [List.mem_singleton.mp hq, hserv]
      simp only [beq_self_eq_true, Bool.toNat_true] at this ⊢
      -- in the channel until now, so not yet in service
      omega

theorem Tokens.completePending {s : State ρ β} (h : Tokens s) (id : ℕ) (a : Answer β) :
    Tokens (s.completePending id a) := by
  refine h.of_eq (fun i => ?_) (by rw [State.completePending_eq])
    (fun i => outside_completePending s id i a) fun i => service_completePending s id i a
  rw [State.completePending_eq]
  simp only
  split <;> rfl

theorem Tokens.handleServerMessage {s : State ρ β} (h : Tokens s) (msg : ServerMessage β) :
    Tokens (s.handleServerMessage msg) := by
  rcases s.handleServerMessage_eq msg with heq | ⟨id, result, -, -, heq⟩
  · rw [heq]; exact h
  · rw [heq]; exact h.completePending id _

theorem Tokens.failPendingRequests {s : State ρ β} (h : Tokens s) (reason : String) :
    Tokens (s.failPendingRequests reason) :=
  h.of_eq (fun i => by rw [State.failPendingRequests_eq]) (by rw [State.failPendingRequests_eq])
    (fun i => outside_failPendingRequests s reason i)
    fun i => service_failPendingRequests s reason i

/-- The loop moves between places where it holds no sender. -/
theorem Tokens.setLoop {s t : State ρ β} (h : Tokens s) (hcalls : t.calls = s.calls)
    (hchannel : t.channel = s.channel) (hdequeued : t.dequeued = s.dequeued)
    (hpending : t.pending = s.pending) (hs : ∀ i, s.loop.hand i = false)
    (ht : ∀ i, t.loop.hand i = false) : Tokens t :=
  h.of_eq (fun i => by rw [hcalls]) hdequeued
    (fun i => by simp only [outside, hcalls, hchannel])
    fun i => by simp only [service, hcalls, hpending, hs, ht]

/-- Dropping the receiver turns a token in the channel into a dropped sender. -/
theorem Tokens.exit {s : State ρ β} (h : Tokens s) (hhand : ∀ i, s.loop.hand i = false) :
    Tokens (next s .exit) := by
  have hcaller : ∀ i, ((next s .exit).calls i).caller = (s.calls i).caller := fun i => by
    simp only [next, State.dropReceiver]
    split <;> rfl
  have hanswered : ∀ i, ((next s .exit).calls i).answered = (s.calls i).answered := fun i => by
    simp only [next, State.dropReceiver]
    split <;> rfl
  have hserv : ∀ i, service (next s .exit) i = service s i := fun i => by
    simp only [service, hhand, hanswered]
    rfl
  have houtside : ∀ i, outside (next s .exit) i = outside s i := by
    intro i
    have hone := (h.owes i).le_one
    rw [tokens_eq] at hone
    simp only [outside, hcaller] at hone ⊢
    simp only [next, State.dropReceiver]
    by_cases hmem : i ∈ s.channel.map (·.responseTx)
    · have hpos : 0 < s.channel.countP (·.responseTx == i) := by
        obtain ⟨r, hr, hri⟩ := List.mem_map.mp hmem
        exact List.countP_pos_iff.mpr ⟨r, hr, by simp [hri]⟩
      rw [if_pos hmem, Bool.toNat_true, List.countP_nil]
      omega
    · have hzero : s.channel.countP (·.responseTx == i) = 0 := by
        rw [List.countP_eq_zero]
        intro r hr
        simp only [beq_iff_eq]
        exact fun hri => hmem (List.mem_map.mpr ⟨r, hr, hri⟩)
      rw [if_neg hmem, hzero, List.countP_nil]
  exact h.of_eq hcaller rfl houtside hserv

theorem tokens_next {s : State ρ β} {a : Action ρ β} (hids : Ids s) (h : Tokens s)
    (ha : Enabled s a) : Tokens (next s a) := by
  cases a with
  | call data =>
    have hidle : (s.calls s.callCount).caller = .idle := hids.late _ (Nat.le_refl _)
    have hset : Tokens (s.setCaller s.callCount (.entered data)) :=
      h.setCaller fun n m hn hm => by
        simp only [hidle, Caller.Owes, Caller.isSending, Bool.toNat_false] at hn hm ⊢
        omega
    exact hset.of_eq (fun _ => rfl) rfl (fun _ => rfl) fun _ => rfl
  | check i data =>
    have hi : (s.calls i).caller = .entered data := ha
    simp only [next]
    split <;> refine h.setCaller fun n m hn hm => ?_ <;>
      simp only [hi, Caller.Owes, Caller.isSending, Bool.toNat_false] at hn hm ⊢ <;> omega
  | allocate i data =>
    have hi : (s.calls i).caller = .checked data := ha
    have hset : Tokens (s.setCaller i (.sending ⟨s.nextId, data⟩)) :=
      h.setCaller fun n m hn hm => by
        simp only [hi, Caller.Owes, Caller.isSending, Bool.toNat_false, Bool.toNat_true] at hn hm ⊢
        omega
    exact hset.of_eq (fun _ => rfl) rfl (fun _ => rfl) fun _ => rfl
  | enqueue i request =>
    have hi : (s.calls i).caller = .sending request := ha.1
    simp only [next]
    split
    · refine h.setCaller fun n m hn hm => ?_
      simp only [hi, Caller.Owes, Caller.isSending, Bool.toNat_false, Bool.toNat_true] at hn hm ⊢
      omega
    · refine ⟨fun j => ?_, fun r hr => (service_setCaller s i _ _).trans (h.serviced r hr)⟩
      have howes := h.owes j
      by_cases hji : j = i
      · subst hji
        simp only [hi, Caller.Owes, tokens, service, Caller.isSending, Bool.toNat_true] at howes
        simp [tokens, service, State.setCaller, Caller.Owes, Caller.isSending]
        omega
      · have hne : ¬ i = j := fun heq => hji heq.symm
        simpa [tokens, service, State.setCaller, hji, hne] using howes
  | receive i =>
    have hi : (s.calls i).caller = .waiting := ha.1
    refine h.setCaller fun n m hn hm => ?_
    simp only [hi, Caller.Owes, Caller.isSending, Bool.toNat_false] at hn hm ⊢
    omega
  | abandon i =>
    refine h.setCaller fun n m hn hm => ?_
    have hle := hn.le_one
    simp only [Caller.isSending, Bool.toNat_false, Caller.Owes] at hm ⊢
    omega
  | cancel => exact h.of_eq (fun _ => rfl) rfl (fun _ => rfl) fun _ => rfl
  | dropConnection => exact h.of_eq (fun _ => rfl) rfl (fun _ => rfl) fun _ => rfl
  | dequeue =>
    cases hc : s.channel with
    | nil => exact absurd hc ha.2
    | cons r rest => exact h.dequeue (fun i => by rw [ha.1]; rfl) hc
  | insert r =>
    have hloop : s.loop = .inserting r := ha
    have hfresh := notMem_pending_of_inserting hids h hloop
    refine h.of_eq (fun _ => rfl) rfl (fun _ => rfl) fun i => ?_
    simp only [next, service, Table.count_insert hfresh, hloop, Loop.hand, Bool.toNat_false]
    omega
  | encode r error =>
    have hloop : s.loop = .encoding r := ha
    cases error with
    | none =>
      exact h.setLoop rfl rfl rfl rfl (by simp [hloop, Loop.hand]) (by simp [next, Loop.hand])
    | some e =>
      exact (h.completePending _ _).setLoop rfl rfl rfl rfl
        (by simp [State.completePending_eq, hloop, Loop.hand]) (by simp [next])
  | write r error =>
    have hloop : s.loop = .writing r := ha
    cases error with
    | none => exact h.setLoop rfl rfl rfl rfl (by simp [hloop, Loop.hand]) (by simp [next])
    | some e =>
      exact (h.completePending _ _).setLoop rfl rfl rfl rfl
        (by simp [State.completePending_eq, hloop, Loop.hand]) (by simp [next])
  | read msg => exact h.handleServerMessage msg
  | leaveShutdown => exact h.setLoop rfl rfl rfl rfl (by simp [ha.1]) (by simp [next, Loop.hand])
  | leaveChannelClosed =>
    exact h.setLoop rfl rfl rfl rfl (by simp [ha.1]) (by simp [next, Loop.hand])
  | leaveLost reason =>
    have hloop : s.loop = .serving := ha
    exact h.setLoop rfl rfl rfl rfl (by simp [hloop]) (by simp [next, Loop.hand])
  | failPending reason =>
    have hloop : s.loop = .left reason := ha
    exact (h.failPendingRequests _).setLoop rfl rfl rfl rfl
      (by simp [State.failPendingRequests_eq, hloop, Loop.hand]) (by simp [next, Loop.hand])
  | decide =>
    have hloop : s.loop = .failed := ha
    simp only [next, decideNext]
    split
    · exact h.setLoop rfl rfl rfl rfl (by simp [hloop, Loop.hand]) (by simp [Loop.hand])
    · split <;> exact h.setLoop rfl rfl rfl rfl (by simp [hloop, Loop.hand]) (by simp [Loop.hand])
  | dial connected =>
    have hloop : s.loop = .backoff := ha
    cases connected <;>
      exact h.setLoop rfl rfl rfl rfl (by simp [hloop, Loop.hand]) (by simp [next, Loop.hand])
  | resumeWrite error => exact h.of_eq (fun _ => rfl) rfl (fun _ => rfl) fun _ => rfl
  | resumeRead msg => exact h.handleServerMessage msg
  | resumed =>
    have hloop : s.loop = .resuming := ha
    exact h.setLoop rfl rfl rfl rfl (by simp [hloop, Loop.hand]) (by simp [next])
  | cleanup =>
    have hloop : s.loop = .cleaning := ha
    exact (h.failPendingRequests _).setLoop rfl rfl rfl rfl
      (by simp [State.failPendingRequests_eq, hloop, Loop.hand]) (by simp [next, Loop.hand])
  | exit =>
    have hloop : s.loop = .exiting := ha
    exact h.exit (by simp [hloop, Loop.hand])

end Requests

end TitanClient
