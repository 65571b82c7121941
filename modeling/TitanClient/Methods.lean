import TitanClient.RequestIds
import TitanClient.SessionFailures

/-!
# The one-shot methods

`get_info`, `get_venues`, `list_providers` and `get_swap_price_simple` are one thing: send a
request, and take from the response what the request is for. `fetch_max_streams`, with which the
client gets the limit of its stream manager, sends the same request as `get_info`.

What such a call returns is traced back to the server here: the data of a request goes with it from
the call to the socket, so that the response under its id answers the very request that the method
has built.

The payloads are parameters, and so is the text that `Debug` gives for a discriminant. The lookup of
the `Connection` is in `Client`.

## Main results

* `Carried` — a request in the channel, with the loop or on a socket has the data of its call
* `Outcome` — what the result of a method says about the run
* `method_outcome` — for every method and every run
-/

namespace TitanClient

namespace Methods

open Requests (PendingRequest Caller ResponseResult ServerMessage WrittenIn)

/-! ## Requests and responses -/

/-- The payload types of the protocol, with what the client reads of them. -/
structure Payloads where
  ServerInfo : Type
  VenueInfo : Type
  ProviderInfo : Type
  SwapPrice : Type
  SwapPriceRequest : Type
  SwapQuoteRequest : Type
  Other : Type
  concurrentStreams : ServerInfo → UInt32

/-- `RequestData`. A `GetInfoRequest` has nothing in it but `dummy: None`. -/
inductive RequestData (T : Payloads)
  | getInfo
  | getVenues (includeProgramIds : Option Bool)
  | listProviders (includeIcons : Option Bool)
  | getSwapPrice (request : T.SwapPriceRequest)
  | newSwapQuoteStream (request : T.SwapQuoteRequest)
  | stopStream (id : ℕ)

/-- `ResponseData`. What belongs to streams is `other`. -/
inductive ResponseData (T : Payloads)
  | getInfo (info : T.ServerInfo)
  | getVenues (venues : T.VenueInfo)
  | listProviders (providers : List T.ProviderInfo)
  | getSwapPrice (price : T.SwapPrice)
  | other (data : T.Other)

/-- The errors of a method, with the text of the `anyhow` error. -/
inductive Error
  | serverError (code : ℕ) (message : String)
  | connectionClosed (reason : String)
  | unexpected (text : String)
  deriving DecidableEq

/-- A method: the request it sends, the response it expects and what it takes from it. -/
structure Method (T : Payloads) (α : Type) where
  request : RequestData T
  expected : String
  select : ResponseData T → Option α

variable {T : Payloads}

/-- `get_info`. -/
def getInfo : Method T T.ServerInfo where
  request := .getInfo
  expected := "GetInfo"
  select
    | .getInfo info => some info
    | _ => none

/-- `get_venues`. -/
def getVenues : Method T T.VenueInfo where
  request := .getVenues (some true)
  expected := "GetVenues"
  select
    | .getVenues venues => some venues
    | _ => none

/-- `list_providers`. -/
def listProviders : Method T (List T.ProviderInfo) where
  request := .listProviders (some true)
  expected := "ListProviders"
  select
    | .listProviders providers => some providers
    | _ => none

/-- `get_swap_price_simple`. -/
def getSwapPriceSimple (request : T.SwapPriceRequest) : Method T T.SwapPrice where
  request := .getSwapPrice request
  expected := "GetSwapPrice"
  select
    | .getSwapPrice price => some price
    | _ => none

/-- The text for a response of another kind. -/
def Method.mismatch {α : Type} (m : Method T α) (discriminant : ResponseData T → String)
    (data : ResponseData T) : String :=
  "Unexpected response type: expected " ++ m.expected ++ ", got " ++ discriminant data

/-- What a method makes of the result of `send_request`. -/
def Method.finish {α : Type} (m : Method T α) (discriminant : ResponseData T → String) :
    ResponseResult (ResponseData T) → Except Error α
  | .ok _ data =>
    match m.select data with
    | some x => .ok x
    | none => .error (.unexpected (m.mismatch discriminant data))
  | .serverError code message => .error (.serverError code message)
  | .connectionClosed reason => .error (.connectionClosed reason)
  | .unexpected text => .error (.unexpected text)

/-- `DEFAULT_MAX_CONCURRENT_STREAMS`. -/
def DEFAULT_MAX_CONCURRENT_STREAMS : UInt32 := 10

/-- What `fetch_max_streams` makes of the result of `send_request`. -/
def fetchMaxStreams : ResponseResult (ResponseData T) → UInt32
  | .ok _ (.getInfo info) => T.concurrentStreams info
  | _ => DEFAULT_MAX_CONCURRENT_STREAMS

/-! ## The data of a request -/

section

variable {ρ β : Type}

/-- The data with which a call begins. -/
def callData : Requests.Action ρ β → Option ρ
  | .call data => some data
  | _ => none

/-- The data of the calls of a run. -/
def calls (as : List (Requests.Action ρ β)) : List ρ := as.filterMap callData

/-- The frame that is read. -/
def frame : Requests.Action ρ β → Option (ServerMessage β)
  | .read msg => some msg
  | .resumeRead msg => some msg
  | _ => none

/-- The frames read in a run. -/
def frames (as : List (Requests.Action ρ β)) : List (ServerMessage β) := as.filterMap frame

/-- The callers, the request channel and the number of calls. -/
structure Desk (ρ β : Type) where
  callers : ℕ → Caller ρ β
  channel : List (PendingRequest ρ)
  callCount : ℕ

/-- The desk of a state. -/
def desk (s : Requests.State ρ β) : Desk ρ β :=
  ⟨fun i => (s.calls i).caller, s.channel, s.callCount⟩

/-- A call moves on. -/
inductive Moved : Caller ρ β → Caller ρ β → Prop
  | checked {d : ρ} : Moved (.entered d) (.checked d)
  | allocated {d : ρ} {id : ℕ} : Moved (.checked d) (.sending ⟨id, d⟩)
  | done {c c' : Caller ρ β} (h : c'.isDone = true) : Moved c c'

/-- What a step can do to the desk. -/
inductive DeskChange (s : Requests.State ρ β) : Requests.Action ρ β → Desk ρ β → Prop
  | same {a : Requests.Action ρ β} (ha : callData a = none) : DeskChange s a (desk s)
  | called {d : ρ} :
      DeskChange s (.call d)
        { desk s with
          callers := Function.update (desk s).callers s.callCount (.entered d)
          callCount := s.callCount + 1 }
  | moved {a : Requests.Action ρ β} {i : ℕ} {c : Caller ρ β} (ha : callData a = none)
      (h : Moved (s.calls i).caller c) :
      DeskChange s a { desk s with callers := Function.update (desk s).callers i c }
  | queued {i : ℕ} {q : Requests.ClientRequest ρ} (h : (s.calls i).caller = .sending q) :
      DeskChange s (.enqueue i q)
        { desk s with
          callers := Function.update (desk s).callers i .waiting
          channel := s.channel ++ [⟨q, i⟩] }
  | dequeued {p : PendingRequest ρ} {rest : List (PendingRequest ρ)} (h : s.channel = p :: rest) :
      DeskChange s .dequeue { desk s with channel := rest }
  | exited : DeskChange s .exit { desk s with channel := [] }

section

variable {s : Requests.State ρ β} {a : Requests.Action ρ β}

theorem desk_setCaller (s : Requests.State ρ β) (i : ℕ) (c : Caller ρ β) :
    desk (s.setCaller i c) = { desk s with callers := Function.update (desk s).callers i c } := by
  rw [desk]
  congr 1
  funext j
  rw [Requests.caller_setCaller, Function.update_apply]
  rfl

theorem desk_completePending (s : Requests.State ρ β) (id : ℕ) (x : Requests.Answer β) :
    desk (s.completePending id x) = desk s := by
  rw [Requests.State.completePending_eq, desk]
  congr 1
  funext j
  dsimp only
  split <;> rfl

theorem desk_handleServerMessage (s : Requests.State ρ β) (msg : ServerMessage β) :
    desk (s.handleServerMessage msg) = desk s := by
  rcases s.handleServerMessage_eq msg with heq | ⟨id, x, -, -, heq⟩
  · rw [heq]
  · rw [heq, desk_completePending]

theorem desk_failPendingRequests (s : Requests.State ρ β) (reason : String) :
    desk (s.failPendingRequests reason) = desk s := by
  rw [Requests.State.failPendingRequests_eq]
  rfl

theorem deskChange (ha : Requests.Enabled s a) : DeskChange s a (desk (Requests.next s a)) := by
  have hmoved : ∀ {i : ℕ} {c : Caller ρ β}, callData a = none → Moved (s.calls i).caller c →
      DeskChange s a (desk (s.setCaller i c)) := by
    intro i c hdata hc
    rw [desk_setCaller]
    exact .moved hdata hc
  cases a with
  | call data =>
    have hnext : desk (Requests.next s (.call data)) =
        { desk (s.setCaller s.callCount (.entered data)) with callCount := s.callCount + 1 } := rfl
    rw [hnext, desk_setCaller]
    exact .called
  | check i data =>
    have hentered : (s.calls i).caller = .entered data := ha
    rw [Requests.next]
    split
    · exact hmoved rfl (.done rfl)
    · exact hmoved rfl (hentered ▸ .checked)
  | allocate i data =>
    have hchecked : (s.calls i).caller = .checked data := ha
    have hallocated : Moved (s.calls i).caller (.sending ⟨s.nextId, data⟩) := hchecked ▸ .allocated
    exact hmoved rfl hallocated
  | enqueue i q =>
    rw [Requests.next]
    split
    · exact hmoved rfl (.done rfl)
    · have hnext : desk { s.setCaller i .waiting with channel := s.channel ++ [⟨q, i⟩] } =
          { desk (s.setCaller i .waiting) with channel := s.channel ++ [⟨q, i⟩] } := rfl
      rw [hnext, desk_setCaller]
      exact .queued ha.1
  | receive i => exact hmoved rfl (.done rfl)
  | abandon i => exact hmoved rfl (.done rfl)
  | dequeue =>
    rw [Requests.next, Requests.dequeueNext]
    split
    · exact .same rfl
    · exact .dequeued ‹_›
  | encode p error =>
    cases error with
    | none => exact .same rfl
    | some e => exact desk_completePending s _ _ ▸ .same rfl
  | write p error =>
    cases error with
    | none => exact .same rfl
    | some e => exact desk_completePending s _ _ ▸ .same rfl
  | read msg => exact desk_handleServerMessage s msg ▸ .same rfl
  | resumeRead msg => exact desk_handleServerMessage s msg ▸ .same rfl
  | failPending reason => exact desk_failPendingRequests s reason ▸ .same rfl
  | cleanup => exact desk_failPendingRequests s "Connection closed" ▸ .same rfl
  | decide =>
    rw [Requests.next, Requests.decideNext]
    dsimp only
    split_ifs <;> exact .same rfl
  | dial connected => cases connected <;> exact .same rfl
  | exit =>
    have hnext : desk (Requests.next s .exit) = { desk s with channel := [] } := by
      rw [desk]
      congr 1
      funext i
      change (if i ∈ s.channel.map (·.responseTx) then _ else s.calls i).caller = _
      split <;> rfl
    rw [hnext]
    exact .exited
  | _ => exact .same rfl

end

/-- A call that has not sent its request holds this data. -/
def Holds (d : Option ρ) : Caller ρ β → Prop
  | .entered data => d = some data
  | .checked data => d = some data
  | .sending request => d = some request.data
  | _ => True

/-- A request has the data of its call. -/
structure Carried (data : List ρ) (s : Requests.State ρ β) : Prop where
  count : data.length = s.callCount
  callers : ∀ i, Holds data[i]? (s.calls i).caller
  channel : ∀ p ∈ s.channel, data[p.responseTx]? = some p.request.data
  dequeued : ∀ p ∈ s.dequeued, data[p.responseTx]? = some p.request.data
  inHand : ∀ p ∈ s.loop.inHand, p ∈ s.dequeued
  written : ∀ f ∈ s.written, ∀ i, f.call = some i →
    ∃ p ∈ s.dequeued, p.request.id = f.id ∧ p.responseTx = i

theorem carried_init (max : Option ℕ) : Carried [] (Requests.init max : Requests.State ρ β) where
  count := rfl
  callers _ := trivial
  channel _ h := by cases h
  dequeued _ h := by cases h
  inHand _ h := by cases h
  written _ h := by cases h

theorem Holds.moved {d : Option ρ} {c c' : Caller ρ β} (h : Holds d c) (hc : Moved c c') :
    Holds d c' := by
  cases hc with
  | checked => exact h
  | allocated => exact h
  | done hdone =>
    cases c' with
    | returned result => trivial
    | cancelled => trivial
    | _ => cases hdone

/-- What a call was made with stays known. -/
theorem getElem?_known {data : List ρ} {i : ℕ} {d : ρ} (l : List ρ) (h : data[i]? = some d) :
    (data ++ l)[i]? = some d := by
  rw [List.getElem?_append_left (List.getElem?_eq_some_iff.mp h).1]
  exact h

theorem Holds.known {data : List ρ} {i : ℕ} {c : Caller ρ β} (l : List ρ)
    (h : Holds data[i]? c) : Holds (data ++ l)[i]? c := by
  cases c with
  | entered d => exact getElem?_known l h
  | checked d => exact getElem?_known l h
  | sending q => exact getElem?_known l h
  | _ => trivial

theorem holds_update {data : List ρ} {callers : ℕ → Caller ρ β} {j : ℕ} {c : Caller ρ β}
    (h : ∀ i, Holds data[i]? (callers i)) (hc : Holds data[j]? c) (i : ℕ) :
    Holds data[i]? (Function.update callers j c i) := by
  by_cases hi : i = j
  · rw [hi, Function.update_self]
    exact hc
  · rw [Function.update_of_ne hi]
    exact h i

section

variable {data : List ρ} {s : Requests.State ρ β} {a : Requests.Action ρ β}

/-- At the desk each step carries the data on. -/
theorem Carried.desk_next (h : Carried data s) (ha : Requests.Enabled s a) :
    (data ++ (callData a).toList).length = (desk (Requests.next s a)).callCount ∧
      (∀ i, Holds (data ++ (callData a).toList)[i]? ((desk (Requests.next s a)).callers i)) ∧
      ∀ p ∈ (desk (Requests.next s a)).channel,
        (data ++ (callData a).toList)[p.responseTx]? = some p.request.data := by
  have hc := deskChange ha
  generalize desk (Requests.next s a) = t at hc
  have hsame : ∀ {b : Requests.Action ρ β}, callData b = none →
      data ++ (callData b).toList = data := by
    intro b hb
    rw [hb, Option.toList_none, List.append_nil]
  cases hc with
  | same hnone =>
    rw [hsame hnone]
    exact ⟨h.count, h.callers, h.channel⟩
  | @called d =>
    have hdata : data ++ (callData (.call d : Requests.Action ρ β)).toList = data ++ [d] := rfl
    rw [hdata]
    refine ⟨?_, holds_update (fun i => (h.callers i).known [d]) ?_,
      fun p hp => getElem?_known [d] (h.channel p hp)⟩
    · rw [List.length_append, h.count]
      rfl
    · rw [← h.count, List.getElem?_concat_length]
      rfl
  | @moved _ j c hnone hmoved =>
    rw [hsame hnone]
    exact ⟨h.count, holds_update h.callers ((h.callers j).moved hmoved), h.channel⟩
  | @queued j q hsending =>
    rw [hsame rfl]
    refine ⟨h.count, holds_update h.callers trivial, fun p hp => ?_⟩
    rcases List.mem_append.mp hp with hold | hnew
    · exact h.channel p hold
    · have hholds := h.callers j
      rw [hsending] at hholds
      rw [List.mem_singleton.mp hnew]
      exact hholds
  | @dequeued q rest hchannel =>
    rw [hsame rfl]
    refine ⟨h.count, h.callers, fun p hp => h.channel p ?_⟩
    rw [hchannel]
    exact List.mem_cons_of_mem q hp
  | exited =>
    rw [hsame rfl]
    exact ⟨h.count, h.callers, fun p hp => by cases hp⟩

/-- So does each step of the loop. -/
theorem Carried.books_next (h : Carried data s) (ha : Requests.Enabled s a) :
    (∀ p ∈ (Requests.next s a).books.dequeued, data[p.responseTx]? = some p.request.data) ∧
      (∀ p ∈ (Requests.next s a).books.loop.inHand, p ∈ (Requests.next s a).books.dequeued) ∧
      ∀ f ∈ (Requests.next s a).books.written, ∀ i, f.call = some i →
        ∃ p ∈ (Requests.next s a).books.dequeued, p.request.id = f.id ∧ p.responseTx = i := by
  have hc := Requests.booksChange ha
  generalize (Requests.next s a).books = b at hc
  cases hc with
  | moved hwrite hhand hresuming =>
    refine ⟨h.dequeued, fun p hp => ?_, h.written⟩
    rcases hhand with hsame | hempty
    · exact h.inHand p (hsame ▸ hp)
    · rw [hempty] at hp
      cases hp
  | @dequeued r rest hloop hchannel =>
    refine ⟨fun p hp => ?_, fun p hp => ?_, fun f hf i hi => ?_⟩
    · rcases List.mem_append.mp hp with hold | hnew
      · exact h.dequeued p hold
      · rw [List.mem_singleton.mp hnew]
        exact h.channel r (by rw [hchannel]; exact List.mem_cons_self)
    · exact List.mem_append_right _ hp
    · obtain ⟨p, hp, hrest⟩ := h.written f hf i hi
      exact ⟨p, List.mem_append_left _ hp, hrest⟩
  | @written r hloop =>
    refine ⟨h.dequeued, (fun p hp => by cases hp), fun f hf i hi => ?_⟩
    rcases List.mem_append.mp hf with hold | hnew
    · exact h.written f hold i hi
    · rw [List.mem_singleton.mp hnew] at hi ⊢
      exact ⟨r, h.inHand r (by rw [hloop]; exact List.mem_singleton_self r), rfl,
        Option.some.inj hi⟩
  | dialed hloop => exact ⟨h.dequeued, (fun p hp => by cases hp), h.written⟩
  | resumed hloop =>
    refine ⟨h.dequeued, h.inHand, fun f hf i hi => ?_⟩
    rcases List.mem_append.mp hf with hold | hnew
    · exact h.written f hold i hi
    · rw [List.mem_singleton.mp hnew] at hi
      cases hi
  | unresumed => exact ⟨h.dequeued, h.inHand, h.written⟩

theorem Carried.next (h : Carried data s) (ha : Requests.Enabled s a) :
    Carried (data ++ (callData a).toList) (Requests.next s a) := by
  obtain ⟨hcount, hcallers, hchannel⟩ := h.desk_next ha
  obtain ⟨hdequeued, hinHand, hwritten⟩ := h.books_next ha
  exact ⟨hcount, hcallers, hchannel, fun p hp => getElem?_known _ (hdequeued p hp), hinHand,
    hwritten⟩

end

theorem exec_carried {max : Option ℕ} {as : List (Requests.Action ρ β)}
    (hv : (Requests.system ρ β).Valid (Requests.init max) as) :
    Carried (calls as) ((Requests.system ρ β).exec (Requests.init max) as) := by
  refine Transition.System.history (J := fun past s => Carried (calls past) s)
    (fun past s a h ha => ?_) (carried_init max) hv
  have hcalls : calls (past ++ [a]) = calls past ++ (callData a).toList := by
    rw [calls, List.filterMap_append, calls]
    cases ha' : callData a with
    | none => rw [List.filterMap_cons_none ha']; rfl
    | some d => rw [List.filterMap_cons_some ha']; rfl
  rw [hcalls]
  exact h.next ha

/-! ## Where a result comes from -/

section

variable {s : Requests.State ρ β} {a : Requests.Action ρ β}

/-- What a step adds to a oneshot channel it has from the frame it reads, if from any. -/
def Adds (a : Requests.Action ρ β) (old new : List (Requests.Answer β)) : Prop :=
  ∃ l, new = old ++ l ∧ ∀ y ∈ l, ∀ msg run, y.frame = some (msg, run) → frame a = some msg

theorem Adds.refl {l : List (Requests.Answer β)} : Adds a l l :=
  ⟨[], (List.append_nil l).symm, fun _ hy => by cases hy⟩

theorem adds_completePending {id : ℕ} {x : Requests.Answer β} (i : ℕ)
    (hx : ∀ msg run, x.frame = some (msg, run) → frame a = some msg) :
    Adds a (s.calls i).answered ((s.completePending id x).calls i).answered := by
  rw [Requests.State.completePending_eq]
  dsimp only
  split
  · refine ⟨[x], rfl, fun y hy => ?_⟩
    rw [List.mem_singleton.mp hy]
    exact hx
  · exact .refl

theorem adds_handleServerMessage {msg : ServerMessage β} (i : ℕ) (ha : frame a = some msg) :
    Adds a (s.calls i).answered ((s.handleServerMessage msg).calls i).answered := by
  rcases s.handleServerMessage_eq msg with heq | ⟨id, result, -, -, heq⟩
  · rw [heq]
    exact .refl
  · rw [heq]
    refine adds_completePending i fun msg' run hframe => ?_
    rw [ha, (Prod.mk.inj (Option.some.inj hframe)).1]

theorem adds_failPendingRequests (reason : String) (i : ℕ) :
    Adds a (s.calls i).answered ((s.failPendingRequests reason).calls i).answered := by
  rw [Requests.State.failPendingRequests_eq]
  refine ⟨_, rfl, fun y hy msg run hframe => ?_⟩
  rw [List.eq_of_mem_replicate hy] at hframe
  cases hframe

theorem adds_next (a : Requests.Action ρ β) (i : ℕ) :
    Adds a (s.calls i).answered ((Requests.next s a).calls i).answered := by
  have hset : ∀ {j : ℕ} {c : Caller ρ β},
      Adds a (s.calls i).answered ((s.setCaller j c).calls i).answered := by
    intro j c
    have hsame : ((s.setCaller j c).calls i).answered = (s.calls i).answered := by
      change (Function.update s.calls j _ i).answered = _
      by_cases hi : i = j
      · rw [hi, Function.update_self]
      · rw [Function.update_of_ne hi]
    rw [hsame]
    exact .refl
  cases a with
  | call data => exact hset
  | check j data =>
    rw [Requests.next]
    split <;> exact hset
  | allocate j data => exact hset
  | enqueue j q =>
    rw [Requests.next]
    split <;> exact hset
  | receive j => exact hset
  | abandon j => exact hset
  | dequeue =>
    rw [Requests.next, Requests.dequeueNext]
    split <;> exact .refl
  | encode p error =>
    cases error with
    | none => exact .refl
    | some e => exact adds_completePending i fun _ _ hframe => by cases hframe
  | write p error =>
    cases error with
    | none => exact .refl
    | some e => exact adds_completePending i fun _ _ hframe => by cases hframe
  | read msg => exact adds_handleServerMessage i rfl
  | resumeRead msg => exact adds_handleServerMessage i rfl
  | failPending reason => exact adds_failPendingRequests reason i
  | cleanup => exact adds_failPendingRequests _ i
  | decide =>
    rw [Requests.next, Requests.decideNext]
    dsimp only
    split_ifs <;> exact .refl
  | dial connected => cases connected <;> exact .refl
  | exit =>
    have hcalls : ((Requests.next s .exit).calls i) = if i ∈ s.channel.map (·.responseTx) then
        { s.calls i with txDropped := true } else s.calls i := rfl
    rw [hcalls]
    split <;> exact .refl
  | _ => exact .refl

end

/-- Answers are made of frames that were read, and results of answers. -/
structure Traced (past : List (Requests.Action ρ β)) (s : Requests.State ρ β) : Prop where
  read : ∀ i, ∀ y ∈ (s.calls i).answered, ∀ msg run, y.frame = some (msg, run) → msg ∈ frames past
  returned : ∀ i result, (s.calls i).caller = .returned result →
    (∃ reason, result = .connectionClosed reason) ∨ ∃ y ∈ (s.calls i).answered, y.result = result

theorem traced_init (max : Option ℕ) : Traced [] (Requests.init max : Requests.State ρ β) where
  read _ _ h := by cases h
  returned _ _ h := by cases h

theorem Traced.next {past : List (Requests.Action ρ β)} {s : Requests.State ρ β}
    (h : Traced past s) {a : Requests.Action ρ β} (ha : Requests.Enabled s a) :
    Traced (past ++ [a]) (Requests.next s a) where
  read i y hy msg run hframe := by
    obtain ⟨l, hl, hnew⟩ := adds_next (s := s) a i
    rw [hl] at hy
    rw [frames, List.filterMap_append]
    rcases List.mem_append.mp hy with hold | hadded
    · exact List.mem_append_left _ (h.read i y hold msg run hframe)
    · refine List.mem_append_right _ (List.mem_filterMap.mpr ⟨a, List.mem_singleton_self a, ?_⟩)
      exact hnew y hadded msg run hframe
  returned i result hi := by
    obtain ⟨l, hl, -⟩ := adds_next (s := s) a i
    rw [hl]
    rcases Session.returned_next ha hi with hold | hreturns
    · exact (h.returned i result hold).imp_right fun hy => by
        obtain ⟨y, hy, hresult⟩ := hy
        exact ⟨y, List.mem_append_left _ hy, hresult⟩
    · cases hreturns with
      | check j d hshutdown => exact Or.inl ⟨_, rfl⟩
      | enqueue j q hdropped => exact Or.inl ⟨_, rfl⟩
      | receive j =>
        rw [Requests.Call.received]
        cases hanswered : (s.calls i).answered with
        | nil => exact Or.inl ⟨_, rfl⟩
        | cons y ys => exact Or.inr ⟨y, List.mem_cons_self, rfl⟩

theorem exec_traced {max : Option ℕ} {as : List (Requests.Action ρ β)}
    (hv : (Requests.system ρ β).Valid (Requests.init max) as) :
    Traced as ((Requests.system ρ β).exec (Requests.init max) as) :=
  Transition.System.history (J := Traced) (fun _ _ _ h ha => h.next ha) (traced_init max) hv

/-- The request of call `i`, with this id and this data, was written during this run of
`run_single_connection`. -/
structure Asked (s : Requests.State ρ β) (i id run : ℕ) (d : ρ) : Prop where
  written : WrittenIn s run id i
  data : ⟨⟨id, d⟩, i⟩ ∈ s.dequeued

/-- Where the result of call `i` comes from, which was made with the data `d`. -/
inductive Source (as : List (Requests.Action ρ β)) (s : Requests.State ρ β) (i : ℕ) (d : ρ) :
    ResponseResult β → Prop
  | server {id run : ℕ} {msg : ServerMessage β} {result : ResponseResult β}
      (hasked : Asked s i id run d) (hread : msg ∈ frames as) (hid : msg.requestId = some id)
      (hresult : msg.result = some result) : Source as s i d result
  | client {result : ResponseResult β} (h : result.IsLocal) : Source as s i d result

theorem returned_source {max : Option ℕ} {as : List (Requests.Action ρ β)}
    (hv : (Requests.system ρ β).Valid (Requests.init max) as)
    (hbound : ((Requests.system ρ β).exec (Requests.init max) as).callCount < 2 ^ 31)
    {i : ℕ} {d : ρ} (hi : (calls as)[i]? = some d) {result : ResponseResult β}
    (hreturned : (((Requests.system ρ β).exec (Requests.init max) as).calls i).caller =
      .returned result) :
    Source as ((Requests.system ρ β).exec (Requests.init max) as) i d result := by
  have htraced := exec_traced hv
  have hcarried := exec_carried hv
  have hinvariant := Requests.invariant_exec max hv hbound
  generalize (Requests.system ρ β).exec (Requests.init max) as = s at *
  rcases htraced.returned i result hreturned with ⟨reason, rfl⟩ | ⟨y, hy, rfl⟩
  · exact .client trivial
  · obtain ⟨id, -, hanswers⟩ := hinvariant.answered.proper i y hy
    cases hframe : y.frame with
    | none =>
      rw [Requests.Answer.Answers, hframe] at hanswers
      exact .client hanswers
    | some f =>
      rw [Requests.Answer.Answers, hframe] at hanswers
      obtain ⟨hid, hresult, hwritten⟩ := hanswers
      have hframe' := hwritten
      obtain ⟨w, hw, -, hwid, hcall⟩ := hframe'
      obtain ⟨p, hp, hpid, hpi⟩ := hcarried.written w hw i hcall
      have hdata := hcarried.dequeued p hp
      rw [hpi, hi] at hdata
      have hasked : (⟨⟨id, d⟩, i⟩ : PendingRequest ρ) = p := by
        rw [← hwid, ← hpid, ← hpi, Option.some.inj hdata]
      exact .server ⟨hwritten, hasked ▸ hp⟩ (htraced.read i y hy f.1 f.2 hframe) hid hresult

end

/-! ## Methods -/

/-- What the result of a method says about the run: which response of the server it was taken from,
or why there was none. -/
inductive Outcome {α : Type} (m : Method T α) (discriminant : ResponseData T → String)
    (as : List (Requests.Action (RequestData T) (ResponseData T)))
    (s : Requests.State (RequestData T) (ResponseData T)) (i : ℕ) : Except Error α → Prop
  | answered {id run : ℕ} {data : ResponseData T} {x : α} (hasked : Asked s i id run m.request)
      (hread : .response id data ∈ frames as) (hx : m.select data = some x) :
      Outcome m discriminant as s i (.ok x)
  | mismatched {id run : ℕ} {data : ResponseData T} (hasked : Asked s i id run m.request)
      (hread : .response id data ∈ frames as) (hx : m.select data = none) :
      Outcome m discriminant as s i (.error (.unexpected (m.mismatch discriminant data)))
  | refused {id run code : ℕ} {message : String} (hasked : Asked s i id run m.request)
      (hread : .error id code message ∈ frames as) :
      Outcome m discriminant as s i (.error (.serverError code message))
  | unsent (error : String) :
      Outcome m discriminant as s i (.error (.unexpected ("Encode failed: " ++ error)))
  | closed (reason : String) :
      Outcome m discriminant as s i (.error (.connectionClosed reason))

/-- **A method returns what the server has said to its own request.** In every run with fewer than
`2 ^ 31` calls: what it returns was taken from a response that was read under the id of this very
request, which has the data of the method and was written; an error of the server likewise; and all
other errors are the client's. The limit that `fetch_max_streams` gives is the default, or the
server has given it in such a response. -/
theorem method_outcome {α : Type} (m : Method T α) (discriminant : ResponseData T → String)
    (max : Option ℕ) (as : List (Requests.Action (RequestData T) (ResponseData T)))
    (hv : (Requests.system _ _).Valid (Requests.init max) as)
    (hbound : ((Requests.system _ _).exec (Requests.init max) as).callCount < 2 ^ 31)
    (i : ℕ) (hi : (calls as)[i]? = some m.request) (result : ResponseResult (ResponseData T))
    (hreturned : (((Requests.system _ _).exec (Requests.init max) as).calls i).caller =
      .returned result) :
    Outcome m discriminant as ((Requests.system _ _).exec (Requests.init max) as) i
        (m.finish discriminant result) ∧
      (fetchMaxStreams result = DEFAULT_MAX_CONCURRENT_STREAMS ∨ ∃ id run info,
        Asked ((Requests.system _ _).exec (Requests.init max) as) i id run m.request ∧
          .response id (.getInfo info) ∈ frames as ∧
            fetchMaxStreams result = T.concurrentStreams info) := by
  have hsource := returned_source hv hbound hi hreturned
  cases hsource with
  | @server id run msg _ hasked hread hid hresult =>
    cases msg with
    | other => cases hresult
    | error id' code message =>
      cases hid
      cases hresult
      exact ⟨.refused hasked hread, Or.inl rfl⟩
    | response id' data =>
      cases hid
      cases hresult
      constructor
      · rw [Method.finish]
        cases hx : m.select data with
        | none => exact .mismatched hasked hread hx
        | some x => exact .answered hasked hread hx
      · cases data with
        | getInfo info => exact Or.inr ⟨id, run, info, hasked, hread, rfl⟩
        | _ => exact Or.inl rfl
  | client hlocal =>
    cases result with
    | connectionClosed reason => exact ⟨.closed reason, Or.inl rfl⟩
    | unexpected text =>
      obtain ⟨error, rfl⟩ := hlocal
      exact ⟨.unsent error, Or.inl rfl⟩
    | _ => cases hlocal

/-- Payloads of a server that says nothing but how many streams it allows. -/
def limitOnly : Payloads where
  ServerInfo := UInt32
  VenueInfo := Unit
  ProviderInfo := Unit
  SwapPrice := Unit
  SwapPriceRequest := Unit
  SwapQuoteRequest := Unit
  Other := Unit
  concurrentStreams := id

/-- The server allows five streams. -/
def infoRun : List (Requests.Action (RequestData limitOnly) (ResponseData limitOnly)) :=
  [.call .getInfo, .check 0 .getInfo, .allocate 0 .getInfo, .enqueue 0 ⟨1, .getInfo⟩, .dequeue,
    .insert ⟨⟨1, .getInfo⟩, 0⟩, .encode ⟨⟨1, .getInfo⟩, 0⟩ none, .write ⟨⟨1, .getInfo⟩, 0⟩ none,
    .read (.response 1 (.getInfo (5 : UInt32))), .receive 0]

theorem method_outcome_infoRun :
    Outcome (getInfo (T := limitOnly)) (fun _ => "Discriminant(0)") infoRun
        ((Requests.system _ _).exec (Requests.init none) infoRun) 0 (.ok (5 : UInt32)) ∧
      fetchMaxStreams (T := limitOnly) (.ok 1 (.getInfo (5 : UInt32))) = 5 :=
  ⟨(method_outcome getInfo (fun _ => "Discriminant(0)") none infoRun
    ⟨rfl, rfl, rfl, ⟨rfl, Or.inr (Nat.zero_lt_succ _)⟩, ⟨rfl, List.cons_ne_nil _ _⟩, rfl, rfl, rfl,
      rfl, ⟨rfl, Or.inl (List.cons_ne_nil _ _)⟩, trivial⟩
    (Nat.lt_of_sub_eq_succ rfl) 0 rfl (.ok 1 (.getInfo (5 : UInt32))) rfl).1, rfl⟩

end Methods

end TitanClient
