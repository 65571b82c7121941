import Mathlib.Data.List.DropRight
import Mathlib.Order.Lattice
import TitanClient.Interaction

/-!
# Executing a swap

`cmd_swap` of the command line client, with `parse_mint`, `load_keypair` and the helpers of
`instructions.rs` that it calls. The world answers: the file system, the server behind the stream,
the terminal and the Solana node. What other crates compute is in `Crates`.

## Programs and the world

A command is a program that performs operations and goes on with the answers (`Interaction`). What
the world does is not part of it: a run gives each operation an answer of its own choice, so what
holds of all runs holds of every server, node and user. The order of the operations is the order of
the awaits in the source. An `Err` of any of them ends the command through `?`; the stream that is
open then is dropped, which is the business of `Lifecycle`, and no operation here.

## What is one type here

The two crates' types for a public key are both 32 bytes and `into` keeps them, so there is one type
here. The instructions of a route are copied field by field into those of the SDK
(`convertInstructions`); both sides are `Instruction`.

## What is left out

* What is only printed: of a route only what decides something is there, of an account its data, of
  a confirmed transaction its signature.
* The fields of the quote request that `cmd_swap` leaves `None`.
* The creation of the RPC client, which asks for nothing.
* `to_uppercase` beyond the characters that can make a known symbol (see `toUppercase`).

## Main definitions

* `Op`, `Op.Answer` — what is asked for, and the answers
* `Crates` — what other crates compute, as functions
* `parseMint`, `loadKeypair`, `prepareInstructions`, `bestRoute`, `swapInstructions`,
  `buildMessage` — the parts
* `cmdSwap` — the command; its runs are in `SwapRuns`
-/

namespace TitanClient

namespace Swap

open Interaction

/-! ## Data -/

/-- A public key, of either crate. -/
structure Pubkey where
  bytes : List UInt8
  length_eq : bytes.length = 32
  deriving DecidableEq

/-- `AccountMeta`. -/
structure AccountMeta where
  pubkey : Pubkey
  isSigner : Bool
  isWritable : Bool
  deriving DecidableEq

/-- `Instruction`. -/
structure Instruction where
  programId : Pubkey
  accounts : List AccountMeta
  data : List UInt8
  deriving DecidableEq

/-- `SwapRoute`. -/
structure SwapRoute where
  outAmount : UInt64
  instructions : List Instruction
  addressLookupTables : List Pubkey
  computeUnits : Option UInt64
  computeUnitsSafe : Option UInt64

/-- `SwapQuotes`: the routes by provider, in the order in which the map is walked through. -/
structure SwapQuotes where
  quotes : List (String × SwapRoute)

/-- `SwapQuoteRequest`, without the fields that `cmd_swap` leaves open. -/
structure SwapQuoteRequest where
  inputMint : Pubkey
  outputMint : Pubkey
  amount : UInt64
  onlyDirectRoutes : Bool
  slippageBps : UInt16
  dexes : Option (List String)
  userPublicKey : Pubkey

/-- `AddressLookupTableAccount`. -/
structure AddressLookupTableAccount where
  key : Pubkey
  addresses : List Pubkey
  deriving DecidableEq

/-- `TitanInstructionsOutput`. -/
structure TitanInstructionsOutput where
  addressLookupTableAccounts : List AddressLookupTableAccount
  instructions : List Instruction
  computeUnits : Option UInt64
  computeUnitsSafe : Option UInt64

/-- What other crates compute: base58, the keypair file, the address lookup table of an account, the
instruction for the compute unit limit, the two kinds of message, and the signed transaction. -/
structure Crates (Hash Keypair Message Transaction : Type) where
  decode : String → Except String (List UInt8)
  fromJson : String → Except String (List UInt8)
  tryFromBytes : List UInt8 → Except String Keypair
  pubkey : Keypair → Pubkey
  deserialize : List UInt8 → Except String (List Pubkey)
  setComputeUnitLimit : UInt32 → Instruction
  newWithBlockhash : List Instruction → Pubkey → Hash → Message
  tryCompile : Pubkey → List Instruction → List AddressLookupTableAccount → Hash →
    Except String Message
  tryNew : Message → Keypair → Except String Transaction

/-! ## The world -/

/-- What `cmd_swap` asks for. -/
inductive Op (Transaction : Type)
  | readToString (path : String)
  | newSwapQuoteStream (request : SwapQuoteRequest)
  | recv
  | stop
  | readLine
  | getAccount (key : Pubkey)
  | getLatestBlockhash
  | sendAndConfirmTransaction (transaction : Transaction)

/-- The answers. Of an account only the data is there, of a confirmed transaction the signature. -/
abbrev Op.Answer {Transaction : Type} (Hash : Type) : Op Transaction → Type
  | .readToString _ => Except String String
  | .newSwapQuoteStream _ => Except String Unit
  | .recv => Option SwapQuotes
  | .stop => Except String Unit
  | .readLine => Except String String
  | .getAccount _ => Except String (List UInt8)
  | .getLatestBlockhash => Except String Hash
  | .sendAndConfirmTransaction _ => Except String String

variable {Hash Keypair Message Transaction : Type}

/-- A program that ends at the first error. -/
abbrev Command (Hash Transaction α : Type) := Attempt (Op Transaction) (Op.Answer Hash) String α

/-- What has happened so far. -/
abbrev Trace (Hash Transaction : Type) :=
  List (Exchange (Op.Answer Hash : Op Transaction → Type))

/-- Ask for something that may fail. -/
def tryPerform {α : Type} (p : Program (Op Transaction) (Op.Answer Hash) (Except String α)) :
    Command Hash Transaction α := ExceptT.mk p

/-! ## Arguments -/

/-- `to_uppercase`, as far as the known symbols go: of all characters, only `ſ` has an uppercase
that occurs in them and is not its own or the one in ASCII. -/
def toUppercase (s : String) : String :=
  String.ofList (s.toList.map fun c => if c = 'ſ' then 'S' else c.toUpper)

/-- The known symbols. -/
def pubkeyStr (s : String) : String :=
  if toUppercase s = "SOL" ∨ toUppercase s = "WSOL" then
    "So11111111111111111111111111111111111111112"
  else if toUppercase s = "USDC" then "EPjFWdd5AufqSSqeM2qN1xzybapC8G4wEGGkZwyTDt1v"
  else if toUppercase s = "USDT" then "Es9vMFrzaCERmJfrF4H2FYD4KCoNkY11McCe8BenwNYB"
  else s

/-- `[u8; 32]::try_from`. -/
def toPubkey (bytes : List UInt8) : Except String Pubkey :=
  if h : bytes.length = 32 then .ok ⟨bytes, h⟩ else .error "Invalid pubkey length"

/-- `parse_mint`. -/
def parseMint (c : Crates Hash Keypair Message Transaction) (s : String) :
    Except String Pubkey := do
  toPubkey (← c.decode (pubkeyStr s))

/-- `load_keypair`. -/
def loadKeypair (c : Crates Hash Keypair Message Transaction) (path : String) :
    Command Hash Transaction Keypair := do
  let data ← tryPerform (Program.perform (Op.readToString path))
  let bytes ← c.fromJson data
  c.tryFromBytes bytes

/-- What `cmd_swap` is called with. -/
structure Args where
  keypairPath : String
  inputMint : String
  outputMint : String
  amount : UInt64
  slippageBps : UInt16
  dexes : List String
  allowMultiHop : Bool
  skipConfirm : Bool

/-- The quote request of `cmd_swap`. -/
def Args.request (args : Args) (input output user : Pubkey) : SwapQuoteRequest where
  inputMint := input
  outputMint := output
  amount := args.amount
  onlyDirectRoutes := !args.allowMultiHop
  slippageBps := args.slippageBps
  dexes := if args.dexes.isEmpty then none else some args.dexes
  userPublicKey := user

/-! ## instructions.rs -/

/-- `TitanInstructions::convert_instruction`. -/
def convertInstruction (ix : Instruction) : Instruction where
  programId := ix.programId
  accounts := ix.accounts.map fun acc =>
    { pubkey := acc.pubkey, isSigner := acc.isSigner, isWritable := acc.isWritable }
  data := ix.data

/-- `TitanInstructions::convert_instructions`. -/
def convertInstructions (titanInstructions : List Instruction) : List Instruction :=
  titanInstructions.map fun ix =>
    { programId := ix.programId
      accounts := ix.accounts.map fun acc =>
        { pubkey := acc.pubkey, isSigner := acc.isSigner, isWritable := acc.isWritable }
      data := ix.data }

/-- The table of an account that was found and could be read. -/
def tableOf (c : Crates Hash Keypair Message Transaction) (key : Pubkey) :
    Except String (List UInt8) → Option AddressLookupTableAccount
  | .ok data =>
    match c.deserialize data with
    | .ok addresses => some ⟨key, addresses⟩
    | .error _ => none
  | .error _ => none

/-- `TitanInstructions::fetch_address_lookup_tables`: what cannot be fetched or read is left out. -/
def fetchAddressLookupTables (c : Crates Hash Keypair Message Transaction) :
    List Pubkey → Command Hash Transaction (List AddressLookupTableAccount)
  | [] => pure []
  | key :: rest => do
    let account ← Attempt.perform (Op.getAccount key)
    let accounts ← fetchAddressLookupTables c rest
    pure ((tableOf c key account).toList ++ accounts)

/-- `TitanInstructions::prepare_instructions`. -/
def prepareInstructions (c : Crates Hash Keypair Message Transaction) (route : SwapRoute) :
    Command Hash Transaction TitanInstructionsOutput := do
  let accounts ← fetchAddressLookupTables c route.addressLookupTables
  pure
    { addressLookupTableAccounts := accounts
      instructions := convertInstructions route.instructions
      computeUnits := route.computeUnits
      computeUnitsSafe := route.computeUnitsSafe }

/-! ## cmd_swap -/

/-- `Iterator::max_by_key`: the last of the greatest. -/
def maxByKey {α β : Type} [LinearOrder β] (key : α → β) : List α → Option α
  | [] => none
  | x :: xs => some (xs.foldl (fun best y => if key y < key best then best else y) x)

/-- `char::is_whitespace`. -/
def isWhitespace (c : Char) : Bool :=
  (9 ≤ c.toNat && c.toNat ≤ 13) || (0x2000 ≤ c.toNat && c.toNat ≤ 0x200A) ||
    [0x20, 0x85, 0xA0, 0x1680, 0x2028, 0x2029, 0x202F, 0x205F, 0x3000].contains c.toNat

/-- `input_line.trim().eq_ignore_ascii_case("y")`. -/
def confirms (inputLine : String) : Bool :=
  ((inputLine.toList.dropWhile isWhitespace).rdropWhile isWhitespace).map Char.toLower == ['y']

/-- The first quotes of a new stream, which is then stopped. -/
def firstQuotes (request : SwapQuoteRequest) : Command Hash Transaction SwapQuotes := do
  let _ ← tryPerform (Program.perform (Op.newSwapQuoteStream request))
  match ← Attempt.perform Op.recv with
  | some quotes =>
    let _ ← tryPerform (Program.perform Op.stop)
    pure quotes
  | none => throw "No quotes received"

/-- The route with the highest output amount, if it can be executed. -/
def bestRoute (quotes : SwapQuotes) : Except String SwapRoute :=
  match maxByKey (fun entry => entry.2.outAmount.toNat) quotes.quotes with
  | none => throw "No routes in quote"
  | some entry =>
    if entry.2.instructions.isEmpty then throw "No instructions in route - cannot execute swap"
    else pure entry.2

/-- The confirmation prompt. -/
def proceeds (skipConfirm : Bool) : Command Hash Transaction Bool :=
  if skipConfirm then pure true
  else do
    let inputLine ← tryPerform (Program.perform Op.readLine)
    pure (confirms inputLine)

/-- The compute budget instruction, if any, before the instructions of the route. The units are cut
to 32 bits (`as u32`). -/
def swapInstructions (c : Crates Hash Keypair Message Transaction)
    (prepared : TitanInstructionsOutput) : List Instruction :=
  match prepared.computeUnitsSafe.or prepared.computeUnits with
  | some units => c.setComputeUnitLimit units.toUInt32 :: prepared.instructions
  | none => prepared.instructions

/-- A legacy message if there are no lookup tables, a V0 message otherwise. -/
def buildMessage (c : Crates Hash Keypair Message Transaction) (user : Pubkey)
    (instructions : List Instruction) (tables : List AddressLookupTableAccount) (blockhash : Hash) :
    Except String Message :=
  if tables.isEmpty then .ok (c.newWithBlockhash instructions user blockhash)
  else c.tryCompile user instructions tables blockhash

/-- Building, signing and sending the transaction. -/
def execute (c : Crates Hash Keypair Message Transaction) (keypair : Keypair) (route : SwapRoute) :
    Command Hash Transaction Unit := do
  let prepared ← prepareInstructions c route
  let blockhash ← tryPerform (Program.perform Op.getLatestBlockhash)
  let message ← buildMessage c (c.pubkey keypair) (swapInstructions c prepared)
    prepared.addressLookupTableAccounts blockhash
  let transaction ← c.tryNew message keypair
  let _ ← tryPerform (Program.perform (Op.sendAndConfirmTransaction transaction))

/-- `cmd_swap`. -/
def cmdSwap (c : Crates Hash Keypair Message Transaction) (args : Args) :
    Command Hash Transaction Unit := do
  let keypair ← loadKeypair c args.keypairPath
  let input ← parseMint c args.inputMint
  let output ← parseMint c args.outputMint
  let quotes ← firstQuotes (args.request input output (c.pubkey keypair))
  let route ← bestRoute quotes
  if ← proceeds args.skipConfirm then execute c keypair route

end Swap

end TitanClient
