import TitanClient.Swap

/-!
# What a swap sends

Whatever the server, the Solana node, the file system and the user do, `cmd_swap` sends at most one
transaction, and that is the last thing it does. What led to it can be read off the run: the quotes
of a stream that was opened for this very request and has been stopped, the last of the routes with
the highest output amount, the consent of the user, and the lookup tables of the route as far as
they could be fetched and read.

## Main results

* `maxByKey_eq_some` — the route that is chosen
* `Order` — everything a transaction rests on
* `cmd_swap_outcome` — the run ends with a transaction that has an order, or without one
-/

namespace TitanClient

namespace Swap

open Interaction

/-! ## The best route -/

section

variable {α β : Type} [LinearOrder β] {key : α → β}

/-- The last of the greatest: nothing before it is greater, and all after it is less. -/
def IsLastMax (key : α → β) (l : List α) (best : α) : Prop :=
  ∃ before after, l = before ++ best :: after ∧ (∀ x ∈ before, key x ≤ key best) ∧
    ∀ x ∈ after, key x < key best

/-- One more element is the last, or less than the last. -/
theorem IsLastMax.concat {l : List α} {best : α} (h : IsLastMax key l best) (y : α) :
    IsLastMax key (l ++ [y]) (if key y < key best then best else y) := by
  obtain ⟨before, after, rfl, hbefore, hafter⟩ := h
  by_cases hlt : key y < key best
  · rw [if_pos hlt]
    refine ⟨before, after ++ [y], by simp, hbefore, fun x hx => ?_⟩
    rcases List.mem_append.mp hx with hx | hx
    · exact hafter x hx
    · rw [List.mem_singleton.mp hx]
      exact hlt
  · rw [if_neg hlt]
    have hle : key best ≤ key y := not_lt.mp hlt
    refine ⟨before ++ best :: after, [], by simp, fun x hx => ?_, fun x hx => by cases hx⟩
    rcases List.mem_append.mp hx with hx | hx
    · exact (hbefore x hx).trans hle
    · rcases List.mem_cons.mp hx with rfl | hx
      · exact hle
      · exact (hafter x hx).le.trans hle

theorem maxByKey_eq_some {l : List α} {best : α} (h : maxByKey key l = some best) :
    IsLastMax key l best := by
  cases l with
  | nil => cases h
  | cons x xs =>
    rw [maxByKey, Option.some.injEq] at h
    subst h
    induction xs using List.reverseRecOn with
    | nil => exact ⟨[], [], rfl, by simp, by simp⟩
    | append_singleton xs y ih =>
      rw [List.foldl_concat, ← List.cons_append]
      exact ih.concat y

end

/-- `bestRoute` chooses a route with instructions among the greatest. -/
theorem bestRoute_eq_ok {quotes : SwapQuotes} {route : SwapRoute}
    (h : bestRoute quotes = .ok route) :
    (∃ provider, IsLastMax (fun entry => entry.2.outAmount.toNat) quotes.quotes (provider, route)) ∧
      route.instructions ≠ [] := by
  rw [bestRoute] at h
  split at h
  · cases h
  · rename_i entry hmax
    split at h
    · cases h
    · rename_i hne
      cases h
      exact ⟨⟨entry.1, maxByKey_eq_some hmax⟩, by simpa using hne⟩

/-! ## instructions.rs -/

/-- The two conversions agree. -/
theorem convertInstructions_eq_map (ixs : List Instruction) :
    convertInstructions ixs = ixs.map convertInstruction := rfl

/-- Nothing of an instruction is lost. -/
theorem convertInstructions_eq (ixs : List Instruction) : convertInstructions ixs = ixs := by
  have hone : ∀ ix : Instruction, convertInstruction ix = ix := by
    rintro ⟨programId, accounts, data⟩
    simp [convertInstruction]
  rw [convertInstructions_eq_map, List.map_congr_left fun ix _ => hone ix, List.map_id']

variable {Hash Keypair Message Transaction : Type} {c : Crates Hash Keypair Message Transaction}
  {E : String → Trace Hash Transaction → Prop} {past : Trace Hash Transaction}

/-- The accounts that were asked for, with what came back. -/
abbrev Accounts := List (Pubkey × Except String (List UInt8))

/-- The tables that could be fetched and read. -/
def tables (c : Crates Hash Keypair Message Transaction) (accounts : Accounts) :
    List AddressLookupTableAccount :=
  accounts.filterMap fun entry => tableOf c entry.1 entry.2

/-- The exchanges in which they were asked for. -/
def accountTrace (accounts : Accounts) : Trace Hash Transaction :=
  accounts.map fun entry => ⟨.getAccount entry.1, entry.2⟩

/-- Each table is asked for once, in the order of the route, and a failure is no failure of the
whole. -/
theorem wp_fetchAddressLookupTables {keys : List Pubkey}
    {Q : List AddressLookupTableAccount → Trace Hash Transaction → Prop}
    (h : ∀ accounts : Accounts, accounts.map Prod.fst = keys →
      Q (tables c accounts) (past ++ accountTrace accounts)) :
    (fetchAddressLookupTables c keys).wp Q E past := by
  induction keys generalizing past Q with
  | nil =>
    have hnil := h [] rfl
    rwa [accountTrace, List.map_nil, List.append_nil] at hnil
  | cons key keys ih =>
    rw [fetchAddressLookupTables, Attempt.wp_bind, Attempt.wp_perform]
    intro answer
    rw [Attempt.wp_bind]
    refine ih fun accounts haccounts => ?_
    have hcons := h ((key, answer) :: accounts) (by rw [List.map_cons, haccounts])
    rw [accountTrace, List.map_cons, List.append_cons] at hcons
    rw [Attempt.wp_pure]
    have htables : tables c ((key, answer) :: accounts) =
        (tableOf c key answer).toList ++ tables c accounts := by
      rw [tables, List.filterMap_cons]
      cases tableOf c key answer <;> rfl
    rwa [htables] at hcons

/-! ## The stages -/

theorem wp_tryPerform {α : Type} {p : Program (Op Transaction) (Op.Answer Hash) (Except String α)}
    {Q : α → Trace Hash Transaction → Prop} :
    (tryPerform p).wp Q E past ↔ p.wp (Ends Q E) past := Iff.rfl

/-- The keypair comes from the file. -/
theorem wp_loadKeypair {path : String} {Q : Keypair → Trace Hash Transaction → Prop}
    (hok : ∀ json keypair, (c.fromJson json >>= c.tryFromBytes) = .ok keypair →
      Q keypair (past ++ [⟨.readToString path, .ok json⟩]))
    (herror : ∀ e answer, E e (past ++ [⟨.readToString path, answer⟩])) :
    (loadKeypair c path).wp Q E past := by
  rw [loadKeypair, Attempt.wp_bind, wp_tryPerform, Program.wp_perform]
  rintro (e | json)
  · exact herror e _
  · rw [ends_ok, Attempt.wp_bind, Attempt.wp_liftExcept]
    cases hbytes : c.fromJson json with
    | error e => exact herror e _
    | ok bytes =>
      rw [ends_ok, Attempt.wp_liftExcept]
      cases hkeypair : c.tryFromBytes bytes with
      | error e => exact herror e _
      | ok keypair => exact hok json keypair (by rw [hbytes]; exact hkeypair)

/-- There are quotes only from a stream that was asked for and has been stopped since. -/
theorem wp_firstQuotes {request : SwapQuoteRequest} {Q : SwapQuotes → Trace Hash Transaction → Prop}
    (hok : ∀ quotes, Q quotes (past ++ [⟨.newSwapQuoteStream request, .ok ()⟩] ++
      [⟨.recv, some quotes⟩] ++ [⟨.stop, .ok ()⟩]))
    (hrefused : ∀ e, E e (past ++ [⟨.newSwapQuoteStream request, .error e⟩]))
    (hnone : ∀ e, E e (past ++ [⟨.newSwapQuoteStream request, .ok ()⟩] ++ [⟨.recv, none⟩]))
    (hstop : ∀ quotes e, E e (past ++ [⟨.newSwapQuoteStream request, .ok ()⟩] ++
      [⟨.recv, some quotes⟩] ++ [⟨.stop, .error e⟩])) :
    (firstQuotes request).wp Q E past := by
  rw [firstQuotes, Attempt.wp_bind, wp_tryPerform, Program.wp_perform]
  rintro (e | ⟨⟩)
  · exact hrefused e
  · rw [ends_ok, Attempt.wp_bind, Attempt.wp_perform]
    rintro (- | quotes)
    · exact hnone _
    · rw [Attempt.wp_bind, wp_tryPerform, Program.wp_perform]
      rintro (e | ⟨⟩)
      · exact hstop quotes e
      · exact hok quotes

/-- The user is asked unless told otherwise. -/
theorem wp_proceeds {skipConfirm : Bool} {Q : Bool → Trace Hash Transaction → Prop}
    (hskip : skipConfirm = true → Q true past)
    (hask : skipConfirm = false → ∀ line, Q (confirms line) (past ++ [⟨.readLine, .ok line⟩]))
    (herror : ∀ e, E e (past ++ [⟨.readLine, .error e⟩])) :
    (proceeds skipConfirm).wp Q E past := by
  cases skipConfirm with
  | true => exact hskip rfl
  | false =>
    rw [proceeds, if_neg Bool.false_ne_true, Attempt.wp_bind, wp_tryPerform, Program.wp_perform]
    rintro (e | line)
    · exact herror e
    · exact hask rfl line

/-- The instructions of a transaction for the route: the compute unit limit, if there is one, and
those of the route as they are. -/
def SwapRoute.toSend (c : Crates Hash Keypair Message Transaction) (route : SwapRoute) :
    List Instruction :=
  ((route.computeUnitsSafe.or route.computeUnits).map fun units =>
    c.setComputeUnitLimit units.toUInt32).toList ++ route.instructions

theorem swapInstructions_eq {route : SwapRoute} {accounts : List AddressLookupTableAccount} :
    swapInstructions c
        { addressLookupTableAccounts := accounts
          instructions := convertInstructions route.instructions
          computeUnits := route.computeUnits
          computeUnitsSafe := route.computeUnitsSafe } = route.toSend c := by
  rw [swapInstructions, SwapRoute.toSend, convertInstructions_eq]
  cases route.computeUnitsSafe.or route.computeUnits <;> rfl

/-- A transaction is built from the route, the tables that were found and a fresh blockhash; nothing
is sent before it is complete, and nothing after it. -/
theorem wp_execute {keypair : Keypair} {route : SwapRoute}
    {Q : Unit → Trace Hash Transaction → Prop}
    (hsent : ∀ accounts blockhash message transaction,
      accounts.map Prod.fst = route.addressLookupTables →
      buildMessage c (c.pubkey keypair) (route.toSend c) (tables c accounts) blockhash =
        .ok message → c.tryNew message keypair = .ok transaction → ∀ answer,
        Ends (fun _ => Q ()) E answer (past ++ accountTrace accounts ++
          [⟨.getLatestBlockhash, .ok blockhash⟩] ++
            [⟨.sendAndConfirmTransaction transaction, answer⟩]))
    (hblockhash : ∀ accounts e answer, E e (past ++ accountTrace accounts ++
      [⟨.getLatestBlockhash, answer⟩])) :
    (execute c keypair route).wp Q E past := by
  rw [execute, Attempt.wp_bind, prepareInstructions, Attempt.wp_bind]
  refine wp_fetchAddressLookupTables fun accounts haccounts => ?_
  rw [Attempt.wp_pure, Attempt.wp_bind, wp_tryPerform, Program.wp_perform, swapInstructions_eq]
  rintro (e | blockhash)
  · exact hblockhash accounts e _
  · rw [ends_ok, Attempt.wp_bind, Attempt.wp_liftExcept]
    cases hmessage : buildMessage c (c.pubkey keypair) (route.toSend c) (tables c accounts)
      blockhash with
    | error e => exact hblockhash accounts e _
    | ok message =>
      rw [ends_ok, Attempt.wp_bind, Attempt.wp_liftExcept]
      cases htransaction : c.tryNew message keypair with
      | error e => exact hblockhash accounts e _
      | ok transaction =>
        rw [ends_ok, Attempt.wp_bind, wp_tryPerform, Program.wp_perform]
        intro answer
        have hends := hsent accounts blockhash message transaction haccounts hmessage htransaction
          answer
        cases answer with
        | error e => exact hends
        | ok signature => exact hends

/-! ## The whole command -/

/-- What was chosen, and that it was wanted. `line` is what the user typed, if asked. -/
structure Choice (c : Crates Hash Keypair Message Transaction) (args : Args) where
  json : String
  keypair : Keypair
  input : Pubkey
  output : Pubkey
  quotes : SwapQuotes
  provider : String
  route : SwapRoute
  line : Option String
  keypair_eq : (c.fromJson json >>= c.tryFromBytes) = .ok keypair
  input_eq : parseMint c args.inputMint = .ok input
  output_eq : parseMint c args.outputMint = .ok output
  best : IsLastMax (fun entry => entry.2.outAmount.toNat) quotes.quotes (provider, route)
  instructions_ne : route.instructions ≠ []
  consent : if args.skipConfirm then line = none else ∃ typed, line = some typed ∧
    confirms typed = true

/-- Everything a transaction rests on. -/
structure Order (c : Crates Hash Keypair Message Transaction) (args : Args) extends
    Choice c args where
  accounts : Accounts
  blockhash : Hash
  message : Message
  transaction : Transaction
  keys : accounts.map Prod.fst = route.addressLookupTables
  message_eq : buildMessage c (c.pubkey keypair) (route.toSend c) (tables c accounts) blockhash =
    .ok message
  transaction_eq : c.tryNew message keypair = .ok transaction

/-- What has happened before the choice was made. -/
def Choice.trace {args : Args} (o : Choice c args) : Trace Hash Transaction :=
  [⟨.readToString args.keypairPath, .ok o.json⟩,
      ⟨.newSwapQuoteStream (args.request o.input o.output (c.pubkey o.keypair)), .ok ()⟩,
      ⟨.recv, some o.quotes⟩, ⟨.stop, .ok ()⟩] ++
    o.line.toList.map fun typed => ⟨.readLine, .ok typed⟩

/-- What has happened before the transaction is sent. -/
def Order.trace {args : Args} (o : Order c args) : Trace Hash Transaction :=
  o.toChoice.trace ++ accountTrace o.accounts ++ [⟨.getLatestBlockhash, .ok o.blockhash⟩]

/-- No transaction was sent, and if there were quotes, the stream was stopped. -/
structure Quiet (t : Trace Hash Transaction) : Prop where
  unsent : ∀ transaction answer, ⟨.sendAndConfirmTransaction transaction, answer⟩ ∉ t
  stopped : ∀ quotes, ⟨.recv, some quotes⟩ ∈ t → ∃ answer, ⟨.stop, answer⟩ ∈ t

/-- How the command ends. -/
inductive Outcome (c : Crates Hash Keypair Message Transaction) (args : Args) :
    Except String Unit → Trace Hash Transaction → Prop
  | sent (o : Order c args) (answer : Except String String) :
      Outcome c args (answer.map fun _ => ())
        (o.trace ++ [⟨.sendAndConfirmTransaction o.transaction, answer⟩])
  | declined (t : Trace Hash Transaction) (typed : String) (hask : args.skipConfirm = false)
      (htyped : confirms typed = false) (h : Quiet (t ++ [⟨.readLine, .ok typed⟩])) :
      Outcome c args (.ok ()) (t ++ [⟨.readLine, .ok typed⟩])
  | failed (e : String) (t : Trace Hash Transaction) (h : Quiet t) : Outcome c args (.error e) t

/-- Nothing was sent, and there were no quotes. -/
theorem quiet_of_no_quotes {t : Trace Hash Transaction}
    (hunsent : ∀ transaction answer, ⟨.sendAndConfirmTransaction transaction, answer⟩ ∉ t)
    (hnone : ∀ quotes, ⟨.recv, some quotes⟩ ∉ t) : Quiet t :=
  ⟨hunsent, fun quotes h => absurd h (hnone quotes)⟩

/-- Nothing was sent, and the stream was stopped. -/
theorem quiet_of_stopped {t : Trace Hash Transaction}
    (hunsent : ∀ transaction answer, ⟨.sendAndConfirmTransaction transaction, answer⟩ ∉ t)
    (hstop : ∃ answer, ⟨.stop, answer⟩ ∈ t) : Quiet t :=
  ⟨hunsent, fun _ _ => hstop⟩

theorem not_mem_accountTrace {accounts : Accounts} {x : Exchange (Op.Answer Hash)}
    (hx : ∀ key, x.1 ≠ (.getAccount key : Op Transaction)) : x ∉ accountTrace accounts := by
  intro hmem
  obtain ⟨entry, -, rfl⟩ := List.mem_map.mp hmem
  exact hx entry.1 rfl

/-- Once the choice was made, the transaction is sent or nothing is. -/
theorem Choice.execute_outcome {args : Args} (o : Choice c args) :
    (execute c o.keypair o.route).wp (fun _ t => Outcome c args (.ok ()) t)
      (fun e t => Outcome c args (.error e) t) o.trace := by
  refine wp_execute
    (fun accounts blockhash message transaction hkeys hmessage htransaction answer => ?_)
    (fun accounts e answer => .failed e _ (quiet_of_stopped ?_ ?_))
  · have hsent := Outcome.sent
      (⟨o, accounts, blockhash, message, transaction, hkeys, hmessage, htransaction⟩ :
        Order c args) answer
    cases answer with
    | error e => exact hsent
    | ok signature => exact hsent
  · simp [Choice.trace, not_mem_accountTrace]
  · simp [Choice.trace]

/-- **What a swap sends.** Whatever the world answers, the command either sends one transaction,
which has an order, and is then over; or the user has said no; or it fails without having sent
anything. -/
theorem cmd_swap_outcome (c : Crates Hash Keypair Message Transaction) (args : Args)
    (world : World (Op.Answer Hash : Op Transaction → Type)) :
    Outcome c args (Program.run world (cmdSwap c args) []).1
      (Program.run world (cmdSwap c args) []).2 := by
  refine Program.run_of_wp (Q := Outcome c args) world ?_
  have hends : (cmdSwap c args).wp (fun _ t => Outcome c args (.ok ()) t)
      (fun e t => Outcome c args (.error e) t) [] := by
    rw [cmdSwap, Attempt.wp_bind]
    refine wp_loadKeypair (fun json keypair hkeypair => ?_) fun e answer =>
      .failed e _ (quiet_of_no_quotes (by simp) (by simp))
    rw [Attempt.wp_bind, Attempt.wp_liftExcept]
    cases hinput : parseMint c args.inputMint with
    | error e => exact .failed e _ (quiet_of_no_quotes (by simp) (by simp))
    | ok input =>
      rw [ends_ok, Attempt.wp_bind, Attempt.wp_liftExcept]
      cases houtput : parseMint c args.outputMint with
      | error e => exact .failed e _ (quiet_of_no_quotes (by simp) (by simp))
      | ok output =>
        rw [ends_ok, Attempt.wp_bind]
        refine wp_firstQuotes (fun quotes => ?_)
          (fun e => .failed e _ (quiet_of_no_quotes (by simp) (by simp)))
          (fun e => .failed e _ (quiet_of_no_quotes (by simp) (by simp)))
          (fun quotes e => .failed e _ (quiet_of_stopped (by simp) (by simp)))
        rw [Attempt.wp_bind, Attempt.wp_liftExcept]
        cases hroute : bestRoute quotes with
        | error e =>
          exact .failed e _ (quiet_of_stopped (by simp) (by simp))
        | ok route =>
          obtain ⟨⟨provider, hbest⟩, hne⟩ := bestRoute_eq_ok hroute
          rw [ends_ok, Attempt.wp_bind]
          refine wp_proceeds (fun hskip => ?_) (fun hask typed => ?_) (fun e => ?_)
          · exact Choice.execute_outcome
              (⟨json, keypair, input, output, quotes, provider, route, none, hkeypair, hinput,
                houtput, hbest, hne, by rw [if_pos hskip]⟩ : Choice c args)
          · cases htyped : confirms typed with
            | true =>
              exact Choice.execute_outcome
                (⟨json, keypair, input, output, quotes, provider, route, some typed, hkeypair,
                  hinput, houtput, hbest, hne, by simp [hask, htyped]⟩ : Choice c args)
            | false =>
              exact .declined _ typed hask htyped (quiet_of_stopped (by simp)
                (by simp))
          · exact .failed e _ (quiet_of_stopped (by simp) (by simp))
  refine Program.wp_mono (fun r now hr => ?_) hends
  cases r with
  | ok result => exact hr
  | error e => exact hr

end Swap

end TitanClient
