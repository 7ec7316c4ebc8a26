import AtomicSwaps.Data.Hex
import AtomicSwaps.Lez.Program
import AtomicSwaps.Semantics.Interaction
import AtomicSwaps.Swap.Types
import Mathlib.Logic.Function.Basic

/-!
# The transfer tool of the MCP server

`lez_transfer` of `lez-mcp/src/server.rs`: a preview issues a token for what it shows,
and a broadcast consumes one before anything else. The fingerprint behind the write gate
and the polling for a commitment are single operations here, answered in any way; the
lock that serializes signed writes is granted at any time.
-/

namespace AtomicSwaps.Mcp

open Semantics
open Lez (AccountId Account ProgramId)

/-- `Instant`, in nanoseconds from some origin. -/
abbrev Instant := Nat

/-- `PREVIEW_TTL`. -/
def PREVIEW_TTL : Nat := 180 * 1000000000

/-- `PreviewToken`. -/
structure PreviewToken where
  fromId : AccountId
  toId : AccountId
  amount : U128
  expires : Instant
deriving DecidableEq

/-- The tokens that are live, by their text. -/
abbrev TokenStore := String → Option PreviewToken

/-- `new_preview_token`, of what the system's generator returned. -/
def newPreviewToken (random : Bytes32) : String := Hex.encode random.toList

/-- `prune_preview_tokens_at`. -/
def prunePreviewTokensAt (store : TokenStore) (now : Instant) : TokenStore := fun token =>
  (store token).filter fun previewed => now < previewed.expires

/-- `HashMap::insert`. -/
def TokenStore.insert (store : TokenStore) (token : String) (previewed : PreviewToken) :
    TokenStore := Function.update store token (some previewed)

/-- `HashMap::remove`. -/
def TokenStore.remove (store : TokenStore) (token : String) : TokenStore :=
  Function.update store token none

/-- `TokenCheck`. -/
inductive TokenCheck where
  | Ok
  | Missing
  | Expired
  | Mismatch
deriving DecidableEq

/-- What a token that was looked up is worth. -/
def checkToken (found : Option PreviewToken) (fromId toId : AccountId) (amount : U128)
    (now : Instant) : TokenCheck :=
  match found with
  | none => .Missing
  | some previewed =>
      if previewed.expires ≤ now then .Expired
      else if previewed.fromId ≠ fromId ∨ previewed.toId ≠ toId ∨ previewed.amount ≠ amount then
        .Mismatch
      else .Ok

/-- `check_and_consume_token`. -/
def checkAndConsumeToken (store : TokenStore) (token : String) (fromId toId : AccountId)
    (amount : U128) (now : Instant) : TokenCheck × TokenStore :=
  let store := prunePreviewTokensAt store now
  (checkToken (store token) fromId toId amount now, store.remove token)

/-- `TransferParams`. -/
structure TransferParams where
  to_ : String
  amount : String
  confirm : Bool
  previewToken : Option String

/-- Base58 text of accounts, as the `base58` crate writes and reads it. -/
structure Base58 where
  encode : AccountId → String
  decode : String → Except String (List UInt8)

/-- `parse_base58_account_id`. -/
def Base58.parse (base58 : Base58) (text : String) : Except SwapError AccountId :=
  match base58.decode text with
  | .error e => .error (.InvalidConfig s!"invalid base58 account ID: {e}")
  | .ok bytes =>
      match Bytes.ofSlice? 32 bytes with
      | none => .error (.InvalidConfig "base58 account ID must decode to 32 bytes")
      | some id => .ok id

/-- `str::parse::<u128>`. -/
def parseU128 (text : String) : Except String U128 :=
  match text.toList with
  | [] => .error "cannot parse integer from empty string"
  | [sign] => digitsOf [sign]
  | '+' :: digits => digitsOf digits
  | digits => digitsOf digits
where
  digitsOf (digits : List Char) : Except String U128 :=
    if digits.all Char.isDigit then
      if Nat.ofDigitChars 10 digits 0 < 2 ^ 128 then
        .ok (BitVec.ofNat 128 (Nat.ofDigitChars 10 digits 0))
      else .error "number too large to fit in target type"
    else .error "invalid digit found in string"

/-- What the server is configured with: the account it signs for, when it has a key. The
signer and the `LezClient` are made from the same key. -/
structure Ctx where
  signer : Option AccountId
  base58 : Base58
  /-- `programs::authenticated_transfer().id()`. -/
  authTransferId : ProgramId

/-- The dry run that a preview returns. -/
structure Preview where
  fromId : AccountId
  toId : AccountId
  amount : U128
  fromBalance : U128
  toBalance : U128
  fromNonce : U128
  senderInitialized : Bool
  recipientInitialized : Bool
  recipientWarning : Option String
  sufficientBalance : Bool
  writesEnabled : Bool
  previewToken : String

/-- What a broadcast returns. -/
structure Broadcast where
  txHash : String
  initTxHash : Option String
  fromId : AccountId
  toId : AccountId
  amount : U128
  confirmed : Bool
  confirmation : String
  toBalanceAfter : U128

/-- Why the tool refuses a call. -/
inductive Refusal where
  | noSigningKey
  | invalidTo (error : SwapError)
  | zeroAmount
  | invalidAmount (error : String)
  | getAccountFrom (error : String)
  | getAccountTo (error : String)
  | tokenRequired
  | tokenMissing
  | tokenExpired
  | tokenMismatch
  | writesDisabled (fingerprint : String)
  | recipientUninitialized (toId : AccountId)
  | incompatibleOwnership (fromId : AccountId) (owner : ProgramId)
  | insufficientBalance (balance amount : U128)
  | initialization (error : String)
  | rereadingBalance (error : String)
  | drained (fromId : AccountId) (balance amount : U128)
  | readingNonce (error : String)

/-- `CallToolResult`. -/
inductive CallToolResult where
  | preview (preview : Preview)
  | broadcast (broadcast : Broadcast)
  | refused (refusal : Refusal)
  /-- The transfer could not be submitted, or its submission was not acknowledged. -/
  | transferFailed (error : String)
  /-- The transfer was submitted and nothing is known of it. -/
  | unconfirmed (error : String)

/-- The `error` field of a refusal. -/
def Refusal.error : Refusal → String
  | .noSigningKey =>
      "no signing key configured — set LEZ_SIGNING_KEY, LEZ_SIGNING_KEY_FILE, or " ++
      "LEZ_WALLET_HOME + LEZ_ACCOUNT_ID in the server environment"
  | .invalidTo e => s!"invalid to: {e.toString}"
  | .zeroAmount => "amount must be > 0"
  | .invalidAmount e => s!"invalid amount: {e}"
  | .getAccountFrom e => s!"get_account(from) failed: {e}"
  | .getAccountTo e => s!"get_account(to) failed: {e}"
  | .tokenRequired =>
      "confirm=true requires preview_token — call lez_transfer with confirm=false " ++
      "first to preview and obtain a token"
  | .tokenMissing =>
      "preview_token is unknown, already used, or expired — run a fresh confirm=false preview"
  | .tokenExpired => "preview_token expired — run a fresh confirm=false preview"
  | .tokenMismatch =>
      "preview_token does not match this (from, to, amount) — run a fresh " ++
      "confirm=false preview for these exact parameters"
  | .writesDisabled _ => "writes_disabled"
  | .recipientUninitialized _ => "recipient_uninitialized"
  | .incompatibleOwnership .. => "sender_incompatible_ownership"
  | .insufficientBalance balance amount =>
      s!"insufficient balance: from has {balance.toNat} < amount {amount.toNat}"
  | .initialization e => s!"account initialization failed: {e}"
  | .rereadingBalance e => s!"re-reading sender balance failed: {e}"
  | .drained .. => "insufficient_balance"
  | .readingNonce e => s!"reading sender nonce failed: {e}"

/-- What the tool asks of its environment. -/
inductive Op where
  /-- Wait for the next call, which runs beside all others. -/
  | accept
  | getAccount (accountId : AccountId)
  | getAccountBalance (accountId : AccountId)
  | getAccountsNonces (accountId : AccountId)
  | getrandom
  /-- Under the table's mutex: prune, then insert what expires `PREVIEW_TTL` from now. -/
  | issue (token : String) (fromId toId : AccountId) (amount : U128)
  /-- Under the table's mutex: `check_and_consume_token`. -/
  | consume (token : String) (fromId toId : AccountId) (amount : U128)
  /-- `Ctx::writes_enabled`. -/
  | writesEnabled
  /-- `Ctx::ensure_fresh_write_gate`. -/
  | ensureFreshWriteGate
  | lockSignedWrite
  | sendInitialize (accountId : AccountId) (nonces : List U128)
  | sendTransfer (fromId toId : AccountId) (nonces : List U128) (amount : U128)
  /-- `Ctx::confirm_submitted_tx`, falling back to the account's nonce. -/
  | confirmSubmittedTx (txHash : String) (accountId : AccountId) (submittedNonce : U128)
  /-- The result goes back to the caller. -/
  | respond (result : CallToolResult)

/-- The type of the answer to an operation. -/
@[reducible] def Answer : Op → Type
  | .getAccount _ => Except String Account
  | .getAccountBalance _ => Except String U128
  | .getAccountsNonces _ => Except String (List U128)
  | .getrandom => Bytes32
  | .issue .. => Instant × Instant
  | .consume .. => Instant × TokenCheck
  | .writesEnabled => Bool
  | .ensureFreshWriteGate => Except String Unit
  | .sendInitialize .. | .sendTransfer .. => Except String String
  | .confirmSubmittedTx .. => Except String (Bool × String)
  | .accept | .lockSignedWrite | .respond _ => Unit

/-- The interface of the tool. -/
abbrev interface : Interface := ⟨Op, Answer⟩

/-- A part of the tool that may return early. -/
abbrev Tool (α : Type) := ExceptT CallToolResult (Program interface) α

/-- Perform an operation in the tool. -/
abbrev request (op : Op) : Tool (Answer op) := Program.request (I := interface) op

/-- Return a refusal. -/
def refuse {α : Type} (refusal : Refusal) : Tool α := throw (.refused refusal)

/-- Continue with a value, or refuse with its error. -/
def orRefuse {α : Type} (refusal : String → Refusal) : Except String α → Tool α
  | .ok value => return value
  | .error e => refuse (refusal e)

/-- `Ctx::ensure_fresh_write_gate`, refusing when it fails. -/
def ensureFreshWriteGate : Tool Unit := do
  orRefuse .writesDisabled (← request .ensureFreshWriteGate)

/-- `Ctx::initialize_signer_account`. -/
def initializeSignerAccount (ctx : Ctx) (signer : AccountId) : Tool String := do
  let existing ← orRefuse (fun e => .initialization s!"get_account failed: {e}")
    (← request (.getAccount signer))
  if existing.programOwner = ctx.authTransferId then
    return "already-initialized"
  let nonces ← orRefuse (fun e => .initialization s!"get_accounts_nonces failed: {e}")
    (← request (.getAccountsNonces signer))
  let txHash ← orRefuse (fun e => .initialization s!"Initialize submission failed: {e}")
    (← request (.sendInitialize signer nonces))
  let (confirmed, _) ← orRefuse .initialization
    (← request (.confirmSubmittedTx txHash signer (nonces.headD 0)))
  if !confirmed then
    refuse (.initialization s!"account Initialize did not commit within 240s (tx {txHash})")
  let account ← orRefuse (fun e => .initialization s!"get_account failed: {e}")
    (← request (.getAccount signer))
  if account.programOwner ≠ ctx.authTransferId then
    refuse (.initialization (s!"account Initialize did not take effect: ownership did not flip " ++
      s!"to the auth-transfer program (tx {txHash})"))
  return txHash

/-- The transfer failed in `LezClient::transfer`. -/
def transferFailed {α : Type} (error : SwapError) : Tool α :=
  throw (.transferFailed s!"transfer failed: {error.toString}")

/-- `LezClient::transfer` of the signer. -/
def transfer (signer toId : AccountId) (amount : U128) : Tool String := do
  match ← request (.getAccountsNonces signer) with
  | .error e => transferFailed (.LezSequencer s!"get_accounts_nonces failed: {e}")
  | .ok nonces =>
      match ← request (.sendTransfer signer toId nonces amount) with
      | .error e => transferFailed (.LezTransaction s!"transfer failed: {e}")
      | .ok txHash => return txHash

/-- `Initialize` of a sender that needs it. -/
def initializeFirst (ctx : Ctx) (signer : AccountId) (senderNeedsInit : Bool) :
    Tool (Option String) := do
  if senderNeedsInit then
    return some (← initializeSignerAccount ctx signer)
  else return none

/-- The signed critical section: it goes on when the caller is gone. -/
def submitTransfer (ctx : Ctx) (fromId toId : AccountId) (amount : U128) (senderNeedsInit : Bool)
    (toBalance : U128) : Tool CallToolResult := do
  ensureFreshWriteGate
  let initTxHash ← initializeFirst ctx fromId senderNeedsInit
  ensureFreshWriteGate
  let currentBalance ← orRefuse
    (fun e => .rereadingBalance (SwapError.LezSequencer s!"get_account_balance failed: {e}").toString)
    (← request (.getAccountBalance fromId))
  if currentBalance < amount then
    refuse (.drained fromId currentBalance amount)
  let nonces ← orRefuse .readingNonce (← request (.getAccountsNonces fromId))
  let txHash ← transfer fromId toId amount
  match ← request (.confirmSubmittedTx txHash fromId (nonces.headD 0)) with
  | .error e => throw (.unconfirmed e)
  | .ok (confirmed, confirmation) =>
      let toBalanceAfter := match ← request (.getAccountBalance toId) with
        | .ok balance => balance
        | .error _ => toBalance
      return .broadcast
        { txHash, initTxHash, fromId, toId, amount, confirmed, confirmation, toBalanceAfter }

/-- The answer to `confirm=false`. -/
def previewTransfer (fromId toId : AccountId) (amount : U128) (fromAccount toAccount : Account)
    (senderInitialized : Bool) : Tool CallToolResult := do
  let token := newPreviewToken (← request .getrandom)
  let _ ← request (.issue token fromId toId amount)
  let writesEnabled ← request .writesEnabled
  return .preview
    { fromId, toId, amount
      fromBalance := fromAccount.balance
      toBalance := toAccount.balance
      fromNonce := fromAccount.nonce
      senderInitialized
      recipientInitialized := toAccount ≠ .default
      recipientWarning := if toAccount ≠ .default then none else some <|
        "recipient account has never been initialized on-chain — the sequencer may " ++
        "silently drop this transfer; the recipient should run `wallet auth-transfer " ++
        "init` (or claim from the faucet via a lez-mcp server holding their key) first"
      sufficientBalance := amount ≤ fromAccount.balance
      writesEnabled
      previewToken := token }

/-- The answer to `confirm=true`. -/
def confirmTransfer (ctx : Ctx) (previewToken : Option String) (fromId toId : AccountId)
    (amount : U128) (fromAccount toAccount : Account) (senderInitialized : Bool) :
    Tool CallToolResult := do
  let some token := previewToken | refuse .tokenRequired
  match (← request (.consume token fromId toId amount)).2 with
  | .Missing => refuse .tokenMissing
  | .Expired => refuse .tokenExpired
  | .Mismatch => refuse .tokenMismatch
  | .Ok =>
      ensureFreshWriteGate
      if toAccount = .default then
        refuse (.recipientUninitialized toId)
      if !senderInitialized && fromAccount.programOwner ≠ Lez.DEFAULT_PROGRAM_ID then
        refuse (.incompatibleOwnership fromId fromAccount.programOwner)
      if fromAccount.balance < amount then
        refuse (.insufficientBalance fromAccount.balance amount)
      let _ ← request .lockSignedWrite
      submitTransfer ctx fromId toId amount (!senderInitialized) toAccount.balance

/-- `LezMcp::lez_transfer`. -/
def lezTransfer (ctx : Ctx) (params : TransferParams) : Tool CallToolResult := do
  let some fromId := ctx.signer | refuse .noSigningKey
  match ctx.base58.parse params.to_, parseU128 params.amount with
  | .error e, _ => refuse (.invalidTo e)
  | .ok _, .error e => refuse (.invalidAmount e)
  | .ok toId, .ok amount =>
      if amount = 0 then
        refuse .zeroAmount
      let fromAccount ← orRefuse .getAccountFrom (← request (.getAccount fromId))
      let toAccount ← orRefuse .getAccountTo (← request (.getAccount toId))
      let senderInitialized : Bool := fromAccount.programOwner = ctx.authTransferId
      if params.confirm then
        confirmTransfer ctx params.previewToken fromId toId amount fromAccount toAccount
          senderInitialized
      else
        previewTransfer fromId toId amount fromAccount toAccount senderInitialized

/-- A call of the tool: its result, early or not, goes back to the caller. -/
def handle (ctx : Ctx) (params : TransferParams) : Program interface Unit := do
  match ← (lezTransfer ctx params).run with
  | .ok result | .error result => Program.perform (I := interface) (.respond result)

/-- The server: it takes calls, any number of them. -/
def serve : Nat → Program interface Unit
  | 0 => .hang
  | calls + 1 => do
      let _ ← Program.perform (I := interface) .accept
      serve calls

end AtomicSwaps.Mcp
