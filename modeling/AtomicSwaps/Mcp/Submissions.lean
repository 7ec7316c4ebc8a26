import AtomicSwaps.Mcp.PreviewGate
import AtomicSwaps.Mcp.SigningRule
import AtomicSwaps.Semantics.Locks

/-!
# Submissions

What the write tools of `lez-mcp/src/server.rs` submit, and how they wait for it:
`confirm_submitted_tx` with its two fallbacks, in a server that takes any number of calls.
The sequencer may commit or drop what it has received at any later time, its answer to a
submission may be lost, and the nodes that are read may lag behind. Sleeping is time that
passes, and a call may stop anywhere; the write gate answers in any way.
-/

namespace AtomicSwaps.Mcp

open Semantics
open Lez (AccountId Account)

/-- `COMMIT_TIMEOUT`. -/
def COMMIT_TIMEOUT : Nat := 240 * 1000000000

/-- `GET_TX_MAX_RPC_ERRORS`. -/
def GET_TX_MAX_RPC_ERRORS : Nat := 3

/-- `ConfirmFallback`. -/
inductive ConfirmFallback where
  | SignerNonce (account : AccountId) (submittedNonce : U128)
  | PinataSeed (solvedSeed : Bytes32)

/-- `nonce_advanced`. -/
def nonceAdvanced (current : Option U128) (submitted : U128) : Bool :=
  current.any (submitted < ·)

/-- `seed_rotated`. -/
def seedRotated (current solved : Bytes32) : Bool := current ≠ solved

/-- What the write tools ask of their environment when they wait for themselves. -/
inductive SubmitOp where
  | write (op : WriteOp)
  /-- `get_transaction`: whether the transaction is in a block. -/
  | getTransaction (txHash : String)
  /-- `get_accounts_nonces`, for a nonce past `submitted`. -/
  | pollNonces (account : AccountId) (submitted : U128)
  /-- `faucet::pinata_challenge`, for another seed than `solved`: the seed of the challenge. -/
  | pollChallenge (solved : Bytes32)
  /-- `Instant::now()`. -/
  | now

/-- The type of the answer to an operation. -/
@[reducible] def SubmitAnswer : SubmitOp → Type
  | .write op => WriteAnswer op
  | .getTransaction _ => Except String Bool
  | .pollNonces .. => Except String (List U128)
  | .pollChallenge _ => Except String Bytes32
  | .now => Instant

/-- The interface of the tools that wait for themselves. -/
abbrev submits : Interface := ⟨SubmitOp, SubmitAnswer⟩

/-- Perform an operation. -/
abbrev submit (op : SubmitOp) : Program submits (SubmitAnswer op) := Program.perform (I := submits) op

/-- The polls of `confirm_submitted_tx` for the transaction itself, cut off after some turns:
what they conclude, or nothing when `getTransaction` is not available. -/
def pollTransaction (txHash : String) (deadline : Instant) :
    Nat → Nat → Program submits (Option (Bool × String))
  | 0, _ => .hang
  | turns + 1, rpcErrors => do
      let answer ← submit (.getTransaction txHash)
      let rpcErrors := match answer with
        | .ok _ => 0
        | .error _ => rpcErrors + 1
      if answer matches .ok true then
        return some (true, "tx_committed")
      else if GET_TX_MAX_RPC_ERRORS ≤ rpcErrors then
        return none
      else if deadline ≤ (← submit .now) then
        return some (false, "tx_uncommitted")
      else pollTransaction txHash deadline turns rpcErrors

/-- `poll_for_confirmation`, cut off after some turns. -/
def pollForConfirmation (deadline : Instant) (strength : String)
    (probe : Program submits (Except Unit Bool)) (onTimeout : String) :
    Nat → Program submits (Except String (Bool × String))
  | 0 => .hang
  | turns + 1 => do
      if (← probe) matches .ok true then
        return .ok (true, strength)
      else if deadline ≤ (← submit .now) then
        return .error onTimeout
      else pollForConfirmation deadline strength probe onTimeout turns

/-- A transaction of the server. A claim is not signed. -/
inductive Tx where
  | Initialize (accountId : AccountId) (nonces : List U128)
  | Transfer (fromId toId : AccountId) (nonces : List U128) (amount : U128)
  | Claim (solved : SolvedClaim)
deriving DecidableEq

/-- The nonces a transaction is signed with. -/
def Tx.nonces : Tx → List U128
  | .Initialize _ nonces | .Transfer _ _ nonces _ => nonces
  | .Claim _ => []

/-- The configuration of the server: that of its tools, which texts `HashType` parses, the hash
of a transaction, and how many turns a loop takes before it is cut off. -/
structure SubmitConfig where
  ctx : Ctx
  parses : String → Bool
  hashOf : Tx → String
  turns : Nat

section Confirm

variable (config : SubmitConfig)

/-- `Ctx::confirm_via_nonce_advance`. -/
def confirmViaNonceAdvance (account : AccountId) (submittedNonce : U128) :
    Program submits (Except String (Bool × String)) := do
  let deadline := (← submit .now) + COMMIT_TIMEOUT
  let probe : Program submits (Except Unit Bool) := do
    match ← submit (.pollNonces account submittedNonce) with
    | .ok nonces => return .ok (nonceAdvanced nonces.head? submittedNonce)
    | .error _ => return .error ()
  pollForConfirmation deadline "nonce_advanced" probe
    (s!"tx unconfirmed: account {config.ctx.base58.encode account} nonce did not advance past " ++
      s!"{submittedNonce.toNat} within 240s (getTransaction unavailable); not assuming commit")
    config.turns

/-- `Ctx::confirm_via_seed_rotation`. -/
def confirmViaSeedRotation (solvedSeed : Bytes32) :
    Program submits (Except String (Bool × String)) := do
  let deadline := (← submit .now) + COMMIT_TIMEOUT
  let probe : Program submits (Except Unit Bool) := do
    match ← submit (.pollChallenge solvedSeed) with
    | .ok seed => return .ok (seedRotated seed solvedSeed)
    | .error _ => return .error ()
  pollForConfirmation deadline "seed_rotated" probe
    ("claim unconfirmed: pinata seed did not rotate within 240s " ++
      "(getTransaction unavailable); not assuming the claim committed")
    config.turns

/-- The fallback of `confirm_submitted_tx`. -/
def confirmVia : ConfirmFallback → Program submits (Except String (Bool × String))
  | .SignerNonce account submittedNonce => confirmViaNonceAdvance config account submittedNonce
  | .PinataSeed solvedSeed => confirmViaSeedRotation config solvedSeed

/-- `Ctx::confirm_submitted_tx`. -/
def confirmSubmittedTx (txHash : String) (fallback : ConfirmFallback) :
    Program submits (Except String (Bool × String)) := do
  if config.parses txHash then
    let deadline := (← submit .now) + COMMIT_TIMEOUT
    match ← pollTransaction txHash deadline config.turns 0 with
    | some concluded => return .ok concluded
    | none => confirmVia config fallback
  else confirmVia config fallback

/-- The operations of the write tools, carried out. The state says whether a guard of
`signed_write_lock` is held. -/
def carrySubmit (held : Bool) : (op : WriteOp) → Program submits (WriteAnswer op × Bool)
  | .tool .lockSignedWrite => do return (← submit (.write (.tool .lockSignedWrite)), true)
  | .dropSignedWrite => do
      if held then
        return (← submit (.write .dropSignedWrite), false)
      else return ((), false)
  | .tool (.confirmSubmittedTx txHash account submittedNonce) => do
      return (← confirmSubmittedTx config txHash (.SignerNonce account submittedNonce), held)
  | .confirmClaim txHash solvedSeed => do
      return (← confirmSubmittedTx config txHash (.PinataSeed solvedSeed), held)
  | op => do return (← submit (.write op), held)

end Confirm

/-- What was submitted last under a lock, and how that was answered. -/
abbrev LastSubmission := Option (Tx × Except String String)

/-- What the guard of `signed_write_lock` covers after an exchange; nothing where none is held. -/
def signedAfter (held : Option LastSubmission) : Exchange submits → Option LastSubmission
  | ⟨.write (.tool .lockSignedWrite), _⟩ => some none
  | ⟨.write .dropSignedWrite, _⟩ => none
  | ⟨.write (.tool (.sendInitialize accountId nonces)), answer⟩ =>
      held.map fun _ => some (.Initialize accountId nonces, answer)
  | ⟨.write (.tool (.sendTransfer fromId toId nonces amount)), answer⟩ =>
      held.map fun _ => some (.Transfer fromId toId nonces amount, answer)
  | _ => held

/-- What the guard of `claim_lock` covers after an exchange. -/
def claimAfter (held : Option LastSubmission) : Exchange submits → Option LastSubmission
  | ⟨.write .lockClaim, _⟩ => some none
  | ⟨.write .dropClaim, _⟩ => none
  | ⟨.write (.submitClaim solved), answer⟩ => held.map fun _ => some (.Claim solved, answer)
  | _ => held

/-- The chain, as far as the server's transactions are concerned: the nonce of its account and the
seed of the pinata; what the sequencer has received, what it may still commit, and what it has
committed. -/
structure Ledger where
  nonce : U128
  seed : Bytes32
  sent : List Tx
  pending : List Tx
  committed : List Tx

/-- A signed transaction that was received and is neither committed nor dead: it has not been
dropped, and its nonce has not been used. -/
def Ledger.Outstanding (ledger : Ledger) (tx : Tx) : Prop :=
  tx ∈ ledger.pending ∧ ∃ nonce, tx.nonces = [nonce] ∧ ledger.nonce ≤ nonce

/-- The chain and the server. Of what the locks cover, `leftover` is what was pending when
`signed_write_lock` was taken, and what is submitted under them last was submitted at
`submittedAt`, and with `claimedAt` as the seed. -/
structure SubmitWorld where
  now : Instant
  tokens : TokenStore
  ledger : Ledger
  signed : Option LastSubmission
  claim : Option LastSubmission
  leftover : List Tx
  submittedAt : U128
  claimedAt : Bytes32

/-- A submission: received or not, it is answered with an error or with the hash, which is no
other transaction's. -/
def Receives (hashOf : Tx → String) (before : Ledger) (tx : Tx) (answer : Except String String)
    (after : Ledger) : Prop :=
  (∀ txHash, answer = .ok txHash → txHash = hashOf tx) ∧
    (∀ other ∈ before.sent, hashOf other = hashOf tx → other = tx) ∧
      (after = { before with sent := tx :: before.sent, pending := tx :: before.pending } ∨
        (∃ e, answer = .error e) ∧ after = before)

/-- The nodes that are read lag behind. -/
def Lags (ledger : Ledger) (answer : Except String (List U128)) : Prop :=
  ∀ nonces, answer = .ok nonces → ∀ nonce ∈ nonces, nonce ≤ ledger.nonce

/-- What the sequencer answers and does. -/
def Sequencer (hashOf : Tx → String) (before : Ledger) :
    (op : SubmitOp) → SubmitAnswer op → Ledger → Prop
  | .write (.tool (.sendInitialize accountId nonces)), answer, after =>
      Receives hashOf before (.Initialize accountId nonces) answer after
  | .write (.tool (.sendTransfer fromId toId nonces amount)), answer, after =>
      Receives hashOf before (.Transfer fromId toId nonces amount) answer after
  | .write (.submitClaim solved), answer, after => Receives hashOf before (.Claim solved) answer after
  | .write (.tool (.getAccountsNonces _)), answer, after => Lags before answer ∧ after = before
  | .pollNonces .., answer, after => Lags before answer ∧ after = before
  | .getTransaction txHash, answer, after =>
      (answer = .ok true → ∃ tx ∈ before.committed, hashOf tx = txHash) ∧ after = before
  | _, _, after => after = before

/-- The tokens under an operation of the tools. -/
def TokensKept (before : TokenStore) : (op : SubmitOp) → SubmitAnswer op → TokenStore → Prop
  | .write (.tool op), answer, after => Tokens before op answer after
  | _, _, after => after = before

/-- `Instant::now()` is the time. -/
def Clocked (before : SubmitWorld) : (op : SubmitOp) → SubmitAnswer op → Prop
  | .now, answer => answer = before.now
  | _, _ => True

/-- A lock is taken when it is free. -/
def Waits (before : SubmitWorld) : SubmitOp → Prop
  | .write (.tool .lockSignedWrite) => before.signed = none
  | .write .lockClaim => before.claim = none
  | _ => True

/-- A transaction is signed and submitted. -/
def SubmitOp.Signs : SubmitOp → Bool
  | .write (.tool (.sendInitialize ..)) | .write (.tool (.sendTransfer ..)) => true
  | _ => false

/-- What an operation answers and does. -/
structure SubmitPerforms (hashOf : Tx → String) (op : SubmitOp) (before : SubmitWorld)
    (answer : SubmitAnswer op) (after : SubmitWorld) : Prop where
  ledger : Sequencer hashOf before.ledger op answer after.ledger
  tokens : TokensKept before.tokens op answer after.tokens
  free : Waits before op
  clock : Clocked before op answer
  now : after.now = before.now
  signed : after.signed = signedAfter before.signed ⟨op, answer⟩
  claim : after.claim = claimAfter before.claim ⟨op, answer⟩
  leftover : after.leftover =
    if op matches .write (.tool .lockSignedWrite) then before.ledger.pending else before.leftover
  submittedAt : after.submittedAt = if op.Signs then before.ledger.nonce else before.submittedAt
  claimedAt : after.claimedAt =
    if op matches .write (.submitClaim _) then before.ledger.seed else before.claimedAt

/-- A transaction is executed: it has the account's nonce, or the solution for the seed, which
it rotates. -/
inductive Executes (before : Ledger) : Tx → Ledger → Prop where
  | signed {tx : Tx} (pending : tx ∈ before.pending) (current : tx.nonces = [before.nonce])
      (room : before.nonce.toNat + 1 < 2 ^ 128) :
      Executes before tx { before with
        nonce := before.nonce + 1
        pending := before.pending.erase tx
        committed := tx :: before.committed }
  | claim {solved : SolvedClaim} {seed : Bytes32} (pending : .Claim solved ∈ before.pending)
      (current : solved.seed = before.seed) :
      Executes before (.Claim solved) { before with
        seed
        pending := before.pending.erase (.Claim solved)
        committed := .Claim solved :: before.committed }

/-- What happens by itself. -/
inductive SubmitDrift (before : SubmitWorld) : SubmitWorld → Prop where
  | later {now : Instant} (later : before.now ≤ now) : SubmitDrift before { before with now }
  | commits {tx : Tx} {ledger : Ledger} (executed : Executes before.ledger tx ledger) :
      SubmitDrift before { before with ledger }
  | drops {tx : Tx} : SubmitDrift before
      { before with ledger := { before.ledger with pending := before.ledger.pending.erase tx } }
  /-- Somebody else's claim. -/
  | rotates {seed : Bytes32} : SubmitDrift before
      { before with ledger := { before.ledger with seed } }

/-- What a thread of the server runs. -/
inductive SubmitTask where
  | serve (calls : Nat)
  | transfer (params : TransferParams)
  | faucet (params : FaucetParams)

/-- The server: it takes calls, any number of them. -/
def takeCalls : Nat → Program submits Unit
  | 0 => .hang
  | calls + 1 => do
      let _ ← submit (.write (.tool .accept))
      takeCalls calls

/-- The program of a thread. -/
def SubmitTask.body (config : SubmitConfig) : SubmitTask → Program submits Unit
  | .serve calls => takeCalls calls
  | .transfer params => do let _ ← (transferCall config.ctx params).expand (carrySubmit config) false
  | .faucet params => do let _ ← (faucetCall config.ctx params).expand (carrySubmit config) false

/-- The server and the sequencer. -/
def submitSystem (config : SubmitConfig) : System submits SubmitWorld SubmitTask Unit where
  environment := ⟨SubmitPerforms config.hashOf, SubmitDrift⟩
  body := SubmitTask.body config
  main task := ∃ calls, task = .serve calls
  spawns op child := match op with
    | .write (.tool .accept) => ∃ task, child = some task ∧ ∀ calls, task ≠ .serve calls
    | _ => child = none
  waits _ := False
  restart before after := after = { before with
    tokens := fun _ => none
    signed := none
    claim := none }

end AtomicSwaps.Mcp
