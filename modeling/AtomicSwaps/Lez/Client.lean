import AtomicSwaps.Data.Hex
import AtomicSwaps.Swap.Interface

/-!
# The LEZ client

`LezClient` of `src/lez/client.rs`: reading the escrow, locking and funding it, claiming
and refunding. Every loop takes the number of iterations it may run; a loop that runs
out of them never returns, and neither does a panic.
-/

namespace AtomicSwaps.Lez

open Semantics Swap

/-- What `LezClient` knows: the account it signs for and the PDAs of its program. -/
structure LezClient where
  accountId : AccountId
  /-- `LezClient::escrow_pda`. -/
  escrowPda : Bytes32 → AccountId

/-- `RefundOutcome`. -/
inductive RefundOutcome where
  | Refunded (txHash : String)
  | ClaimedByTaker (preimage : Bytes32)
deriving DecidableEq

/-- `existing_escrow_blocks_fresh_lock`. -/
def existingEscrowBlocksFreshLock (existing : Option HTLCState) : Bool := existing.isSome

/-- `escrow_confirms_our_lock`. -/
def escrowConfirmsOurLock (escrow : HTLCEscrow) (makerId takerId : AccountId) (amount : U128)
    (timelockMs : U64) : Bool :=
  escrow.state = .Locked && escrow.makerId = makerId && escrow.takerId = takerId &&
    escrow.amount = amount && escrow.timelock = timelockMs

/-- `build_lock_instruction`. -/
def buildLockInstruction (hashlock : Bytes32) (takerId : AccountId) (amount : U128)
    (timelockSecs : U64) : HTLCInstruction :=
  .Lock hashlock takerId amount (secsToMillis timelockSecs)

/-- The escrow in the data of an account read for a hashlock: `none` if the data is too
short or holds another hashlock, an error where `from_bytes` panics. -/
def escrowIn (hashlock : Bytes32) (data : List UInt8) : Except String (Option HTLCEscrow) :=
  if data.length < 125 then .ok none
  else do
    let escrow ← HTLCEscrow.fromBytes data
    return if escrow.hashlock ≠ hashlock then none else some escrow

/-- `format!("{:?}", existing)`. -/
def debugState : Option HTLCState → String
  | none => "None"
  | some state => s!"Some({state.debug})"

namespace LezClient

variable (client : LezClient)

/-- `LezClient::get_escrow`. -/
def getEscrow (hashlock : Bytes32) : Flow (Option HTLCEscrow) := do
  match ← request (.getAccount (client.escrowPda hashlock)) with
  | .error e => throw (.LezSequencer s!"get_account failed: {e}")
  | .ok data =>
      match escrowIn hashlock data with
      | .ok escrow => return escrow
      | .error _ => ExceptT.mk .hang

/-- `LezClient::get_balance`. -/
def getBalance (accountId : AccountId) : Flow U128 := do
  match ← request (.getAccountBalance accountId) with
  | .error e => throw (.LezSequencer s!"get_account_balance failed: {e}")
  | .ok balance => return balance

/-- `get_balance(..).await.unwrap_or(0)`. -/
def getBalanceOrZero (accountId : AccountId) : Flow U128 := do
  match ← Program.attempt (getBalance accountId) with
  | .ok balance => return balance
  | .error _ => return 0

/-- `LezClient::get_nonces` of the signer. -/
def getNonces : Flow (List U128) := do
  match ← request (.getAccountsNonces client.accountId) with
  | .error e => throw (.LezSequencer s!"get_accounts_nonces failed: {e}")
  | .ok nonces => return nonces

/-- `LezClient::transfer`. -/
def transfer (recipient : AccountId) (amount : U128) : Flow String := do
  let nonces ← client.getNonces
  match ← request (.sendTransaction (.transfer recipient nonces amount)) with
  | .error e => throw (.LezTransaction s!"transfer failed: {e}")
  | .ok txHash => return txHash

/-- `LezClient::send_htlc_instruction` on this party's account and an escrow PDA. -/
def sendHtlcInstruction (escrowPda : AccountId) (instruction : HTLCInstruction) :
    Flow String := do
  let nonces ← client.getNonces
  match ← request (.sendTransaction (.htlc escrowPda nonces instruction)) with
  | .error e => throw (.LezTransaction s!"send_transaction failed: {e}")
  | .ok txHash => return txHash

/-- The refusal to fund an escrow PDA that already exists. -/
def alreadyExists (hashlock : Bytes32) (existing : Option HTLCState) (balance : U128) :
    SwapError :=
  .InvalidState "uninitialized escrow PDA before lock"
    (s!"escrow PDA {Hex.encode (client.escrowPda hashlock).toList} already exists (state " ++
      s!"{debugState existing}, balance {balance.toNat}) — refusing to re-fund; this hashlock is " ++
      "already in flight")

/-- The refusal to fund an escrow that is not the one just locked. -/
def mismatched (hashlock : Bytes32) (escrow : HTLCEscrow) (amount : U128)
    (expectedTimelockMs : U64) : SwapError :=
  .InvalidState
    (s!"our just-submitted Locked escrow (amount {amount.toNat}, timelock " ++
      s!"{expectedTimelockMs.toNat}ms)")
    (s!"pre-existing/mismatched escrow at PDA {Hex.encode (client.escrowPda hashlock).toList} " ++
      s!"(state {escrow.state.debug}, amount {escrow.amount.toNat}, timelock " ++
      s!"{escrow.timelock.toNat}ms) — refusing to fund")

/-- One round of waiting for the lock to be committed. -/
def confirmLock (hashlock : Bytes32) (takerId : AccountId) (amount : U128)
    (expectedTimelockMs : U64) (_ : Unit) : Flow (Unit ⊕ Unit) := do
  match ← client.getEscrow hashlock with
  | some escrow =>
      if escrowConfirmsOurLock escrow client.accountId takerId amount expectedTimelockMs then
        return .inr ()
      else throw (client.mismatched hashlock escrow amount expectedTimelockMs)
  | none =>
      if ← deadlinePassed then throw (.Timeout "LEZ lock confirmation")
      request .sleep
      return .inl ()

/-- One round of waiting for the funding transfer to land. -/
def confirmFunding (pda : AccountId) (amount : U128) (_ : Unit) : Flow (Unit ⊕ Unit) := do
  let balance ← getBalanceOrZero pda
  if amount ≤ balance then return .inr ()
  if ← deadlinePassed then
    throw (.LezTransaction (
      s!"LEZ escrow funding transfer did not land (PDA balance {balance.toNat} < " ++
        s!"{amount.toNat}) — check maker balance (need >= {amount.toNat}) and " ++
        ".scaffold/logs/sequencer.log"))
  request .sleep
  return .inl ()

/-- `LezClient::lock`. -/
def lock (fuel : Nat) (hashlock : Bytes32) (takerId : AccountId) (amount : U128)
    (timelockSecs : U64) : Flow String := do
  let pda := client.escrowPda hashlock
  let existing := (← client.getEscrow hashlock).map (·.state)
  if existingEscrowBlocksFreshLock existing then
    let balance ← getBalanceOrZero pda
    throw (client.alreadyExists hashlock existing balance)
  let lockHash ← client.sendHtlcInstruction pda
    (buildLockInstruction hashlock takerId amount timelockSecs)
  Program.iterate (client.confirmLock hashlock takerId amount (secsToMillis timelockSecs)) fuel ()
  let _ ← client.transfer pda amount
  Program.iterate (confirmFunding pda amount) fuel ()
  return lockHash

/-- `LezClient::claim`. -/
def claim (hashlock preimage : Bytes32) : Flow String :=
  client.sendHtlcInstruction (client.escrowPda hashlock) (.Claim preimage.toList)

/-- `LezClient::refund`. -/
def refund (hashlock : Bytes32) : Flow String :=
  client.sendHtlcInstruction (client.escrowPda hashlock) .Refund

/-- `LezClient::claimed_outcome`. -/
def claimedOutcome (escrow : HTLCEscrow) : Flow RefundOutcome :=
  match escrow.preimage.bind (Bytes.ofSlice? 32) with
  | some preimage => return .ClaimedByTaker preimage
  | none => throw (.InvalidState "revealed 32-byte preimage on claimed escrow"
      "missing or malformed preimage")

/-- The local variables of `refund_confirmed`. -/
structure RefundProgress where
  submitted : Bool
  submitTx : Option String
  submitErr : Option String
  absentReads : Nat

/-- `MAX_ABSENT_READS`. -/
def maxAbsentReads : Nat := 5

/-- The end of a round of `refund_confirmed` that found no terminal state. -/
def refundPending (progress : RefundProgress) : Flow (RefundProgress ⊕ RefundOutcome) := do
  if ← deadlinePassed then
    throw (.EscrowStateUnknown (match progress.submitErr with
      | some message =>
          s!"LEZ refund not confirmed before deadline (submit failed: {message})"
      | none => "LEZ refund not confirmed before deadline (escrow state unknown)"))
  request .sleep
  return .inl progress

/-- One round of `refund_confirmed`. -/
def refundRound (hashlock : Bytes32) (progress : RefundProgress) :
    Flow (RefundProgress ⊕ RefundOutcome) := do
  match ← client.getEscrow hashlock with
  | some escrow =>
      match escrow.state with
      | .Refunded => return .inr (.Refunded (progress.submitTx.getD ""))
      | .Claimed => return .inr (← claimedOutcome escrow)
      | .Locked =>
          if progress.submitted then refundPending { progress with absentReads := 0 }
          else
            -- submitted once only; a failed submission is remembered, not raised
            match ← Program.attempt (client.refund hashlock) with
            | .ok txHash => refundPending ⟨true, some txHash, none, 0⟩
            | .error e => refundPending ⟨true, none, some e.toString, 0⟩
  | none =>
      let absentReads := progress.absentReads + 1
      if maxAbsentReads ≤ absentReads then
        throw (.EscrowStateUnknown (
          s!"escrow {Hex.encode hashlock.toList} read absent {absentReads}x (never a confirmed " ++
            "refund) — retaining journal for retry"))
      refundPending { progress with absentReads }

/-- `LezClient::refund_confirmed`. -/
def refundConfirmed (fuel : Nat) (hashlock : Bytes32) : Flow RefundOutcome :=
  Program.iterate (client.refundRound hashlock) fuel ⟨false, none, none, 0⟩

end LezClient

/-- The event the watcher forwards when it reads an escrow, given the state it forwarded
last and the PDA's balance; a locked escrow is not announced before it holds anything. -/
def watchRead (pda : AccountId) (lastState : Option HTLCState) (escrow : HTLCEscrow)
    (balance : U128) : Option LezHtlcEvent :=
  if escrow.state = .Locked ∧ lastState = none ∧ balance = 0 then none
  else if lastState = some escrow.state then none
  else match escrow.state with
    | .Locked => some (.Locked pda)
    | .Claimed => some (.Claimed pda (escrow.preimage.getD []))
    | .Refunded => some (.Refunded pda)

section Specs

variable {client : LezClient} {rule : Trace → Op → Prop} {history : Trace}

/-- Reading the escrow: what the data decodes to, or the error of the read. -/
theorem LezClient.getEscrow_follows {hashlock : Bytes32}
    {post : Trace → Except SwapError (Option HTLCEscrow) → Prop}
    (allowed : rule history (.getAccount (client.escrowPda hashlock)))
    (read : ∀ data result, escrowIn hashlock data = .ok result →
      post (history ++ [⟨.getAccount (client.escrowPda hashlock), .ok data⟩]) (.ok result))
    (failed : ∀ e,
      post (history ++ [⟨.getAccount (client.escrowPda hashlock), .error e⟩])
        (.error (.LezSequencer s!"get_account failed: {e}"))) :
    Follows rule post (client.getEscrow hashlock).run history := by
  refine .request_bind allowed fun answer => ?_
  cases answer with
  | error e => exact failed e
  | ok data =>
      cases decoded : escrowIn hashlock data with
      | error message => simp only [decoded]; trivial
      | ok result => simp only [decoded]; exact read data result decoded

theorem LezClient.getBalance_follows {accountId : AccountId}
    {post : Trace → Except SwapError U128 → Prop}
    (allowed : rule history (.getAccountBalance accountId))
    (read : ∀ balance : U128,
      post (history ++ [⟨.getAccountBalance accountId, .ok balance⟩]) (.ok balance))
    (failed : ∀ e,
      post (history ++ [⟨.getAccountBalance accountId, .error e⟩])
        (.error (.LezSequencer s!"get_account_balance failed: {e}"))) :
    Follows rule post (LezClient.getBalance accountId).run history := by
  refine .request_bind allowed fun answer => ?_
  cases answer with
  | error e => exact failed e
  | ok balance => exact read balance

/-- What `send_htlc_instruction` returns for an answer: being accepted is enough. -/
def LezClient.sendResult : Except String String → Except SwapError String
  | .error e => .error (.LezTransaction s!"send_transaction failed: {e}")
  | .ok txHash => .ok txHash

theorem LezClient.sendHtlcInstruction_follows {escrowPda : AccountId}
    {instruction : HTLCInstruction} {post : Trace → Except SwapError String → Prop}
    (allowed : rule history (.getAccountsNonces client.accountId))
    (submits : ∀ nonces,
      rule (history ++ [⟨.getAccountsNonces client.accountId, .ok nonces⟩])
        (.sendTransaction (.htlc escrowPda nonces instruction)))
    (unread : ∀ e, post (history ++ [⟨.getAccountsNonces client.accountId, .error e⟩])
      (.error (.LezSequencer s!"get_accounts_nonces failed: {e}")))
    (answered : ∀ nonces answer,
      post (history ++ [⟨.getAccountsNonces client.accountId, .ok nonces⟩] ++
        [⟨.sendTransaction (.htlc escrowPda nonces instruction), answer⟩]) (sendResult answer)) :
    Follows rule post (client.sendHtlcInstruction escrowPda instruction).run history := by
  refine Follows.run_bind_iff.mpr (.request_bind allowed fun answer => ?_)
  cases answer with
  | error e => exact unread e
  | ok nonces =>
      refine Follows.run_pure_iff.mpr (.request_bind (submits nonces) fun answer => ?_)
      have result := answered nonces answer
      cases answer with
      | error e => exact result
      | ok txHash => exact result

end Specs

/-- What `get_escrow` returns holds the hashlock it was asked for. -/
theorem escrowIn_hashlock {hashlock : Bytes32} {data : List UInt8} {escrow : HTLCEscrow}
    (found : escrowIn hashlock data = .ok (some escrow)) :
    HTLCEscrow.fromBytes data = .ok escrow ∧ escrow.hashlock = hashlock := by
  unfold escrowIn at found
  split at found
  · cases found
  · obtain ⟨read, decoded, same⟩ := Assert.bind_eq_ok.mp found
    have same := Assert.pure_eq_ok.mp same
    split at same
    · cases same
    · rename_i matching
      cases same
      exact ⟨decoded, not_not.mp matching⟩

/-- An escrow's bytes read back as the escrow of its own hashlock. -/
theorem escrowIn_toBytes {escrow : HTLCEscrow} (encodable : escrow.Encodable) :
    escrowIn escrow.hashlock escrow.toBytes = .ok (some escrow) := by
  have long : ¬ escrow.toBytes.length < 125 := by
    rw [HTLCEscrow.length_toBytes]
    omega
  simp only [escrowIn, long, if_false, HTLCEscrow.fromBytes_toBytes encodable]
  simp [bind, Except.bind, pure, Except.pure]

end AtomicSwaps.Lez
