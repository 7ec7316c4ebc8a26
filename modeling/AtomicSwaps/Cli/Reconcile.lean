import AtomicSwaps.Swap.Maker

/-!
# Startup reconciliation

`reconcile` and `resume_swap` of `src/cli/bot.rs` with what they call: every journaled
swap is looked up on the chain and refunded, completed, resumed, quarantined, dropped
or kept. Nothing here fails; what cannot be decided is kept for the next restart.
-/

namespace AtomicSwaps.Cli

open Semantics Swap
open Lez (AccountId HTLCEscrow HTLCState LezClient RefundOutcome)
open Eth

/-- `is_partial_lock_wedge`. -/
def isPartialLockWedge (state : HTLCState) (nowMs timelockMs : U64) (balance amount : U128) :
    Bool :=
  state = .Locked && timelockMs ≤ nowMs && balance < amount

inductive WedgeDisposition where
  | Quarantine
  | RecoverClaimed
  | Dropped
  | Retain
deriving DecidableEq

/-- `classify_wedge_reread`. -/
def classifyWedgeReread (preState : Option HTLCState) (balance : Option U128)
    (postState : Option HTLCState) (nowMs timelockMs : U64) (amount : U128) : WedgeDisposition :=
  if preState = some .Claimed ∨ postState = some .Claimed then .RecoverClaimed
  else if postState = some .Refunded then .Dropped
  else match preState, postState, balance with
    | some .Locked, some .Locked, some balance =>
        if isPartialLockWedge .Locked nowMs timelockMs balance amount then .Quarantine else .Retain
    | _, _, _ => .Retain

inductive AbsentEscrowAction where
  | RetirePreLock
  | RetainFunded
  | RetainInconclusive
deriving DecidableEq

/-- `classify_absent_escrow`. -/
def classifyAbsentEscrow (stage : SwapStage) (anyReadErrored : Bool) : AbsentEscrowAction :=
  if anyReadErrored then .RetainInconclusive
  else match stage with
    | .PreLock => .RetirePreLock
    | .Funded => .RetainFunded

structure BoundedEscrowRead where
  escrow : Option HTLCEscrow
  anyErr : Bool
  absentReads : Nat

inductive EthClaimOutcome where
  | Claimed
  | AlreadyTerminal
  | Failed
deriving DecidableEq

/-- `retain_after_eth_claim`. -/
def retainAfterEthClaim (outcome : EthClaimOutcome) : Bool := outcome = .Failed

/-- `MAX_READS` of the bounded reads. -/
def maxReads : Nat := 5

section Flows

variable (client : LezClient)

/-- The reads of `read_escrow_bounded_with` that are left. -/
def readEscrowLeft (hashlock : Bytes32) : Nat → Bool → Nat → Flow BoundedEscrowRead
  | 0, anyErr, absentReads => return ⟨none, anyErr, absentReads⟩
  | left + 1, anyErr, absentReads => do
      match ← Program.attempt (client.getEscrow hashlock) with
      | .ok (some escrow) => return ⟨some escrow, anyErr, absentReads⟩
      | .ok none =>
          if left ≠ 0 then request .sleep
          readEscrowLeft hashlock left anyErr (absentReads + 1)
      | .error _ =>
          if left ≠ 0 then request .sleep
          readEscrowLeft hashlock left true absentReads

/-- `read_escrow_bounded`. -/
def readEscrowBounded (hashlock : Bytes32) : Flow BoundedEscrowRead :=
  readEscrowLeft client hashlock maxReads false 0

/-- The reads of `max_escrow_balance_with` that are left. -/
def maxBalanceLeft (pda : AccountId) (enough : U128) : Nat → Option U128 → Flow (Option U128)
  | 0, highest => return highest
  | left + 1, highest => do
      match ← Program.attempt (LezClient.getBalance pda) with
      | .ok balance =>
          let higher := match highest with
            | none => balance
            | some current => if current ≤ balance then balance else current
          if enough ≤ higher then return some higher
          if left ≠ 0 then request .sleep
          maxBalanceLeft pda enough left (some higher)
      | .error _ =>
          if left ≠ 0 then request .sleep
          maxBalanceLeft pda enough left highest

/-- `max_escrow_balance`. -/
def maxEscrowBalance (pda : AccountId) (enough : U128) : Flow (Option U128) :=
  maxBalanceLeft pda enough maxReads none

/-- `claim_eth`, once the HTLC was not seen to be terminal. -/
def claimOpenEth (swapId preimage : Bytes32) : Flow EthClaimOutcome := do
  match ← Program.attempt (EthClient.claim swapId preimage) with
  | .ok _ => return .Claimed
  | .error _ =>
      match ← Program.attempt (EthClient.getHtlc swapId) with
      | .ok htlc => return if htlc.state = .CLAIMED then .AlreadyTerminal else .Failed
      | .error _ => return .Failed

/-- `claim_eth`. -/
def claimEth (swapIdStr : String) (preimage : Bytes32) : Flow EthClaimOutcome := do
  match parseSwapId swapIdStr with
  | none => return .AlreadyTerminal
  | some swapId =>
      match ← request .ethConnect with
      | .error _ => return .Failed
      | .ok _ =>
          match ← Program.attempt (EthClient.getHtlc swapId) with
          | .ok htlc =>
              if htlc.state ≠ .OPEN then return .AlreadyTerminal
              claimOpenEth swapId preimage
          | .error _ => claimOpenEth swapId preimage

/-- Drop an entry and record its outcome. -/
def drop (hashlock : String) (call : OpsCall) : Flow Unit := do
  request (.remove hashlock)
  request (.ops call)

/-- Claim the ETH of an entry; drop the entry unless the claim has to be retried. -/
def claimAndDrop (entry : InFlightSwap) (preimage : Bytes32) : Flow Unit := do
  let outcome ← claimEth entry.swapId preimage
  if !retainAfterEthClaim outcome then drop entry.hashlock (.completed entry.hashlock)

/-- `recover_claimed_escrow`. -/
def recoverClaimedEscrow (entry : InFlightSwap) (escrow : HTLCEscrow) : Flow Unit :=
  match escrow.preimage.bind (Bytes.ofSlice? 32) with
  | some preimage => claimAndDrop entry preimage
  | none => drop entry.hashlock (.failed entry.hashlock .EthClaimUnresolved)

/-- The reason of a wedge's quarantine. -/
def wedgeReason (balance amount : U128) : String :=
  s!"partial lock: escrow Locked with balance {balance.toNat} < amount {amount.toNat} " ++
    "(funding transfer never landed); refund cannot terminalize it. Hashlock permanently " ++
    "unusable — do not reuse the secret."

/-- The reason of a retired entry's quarantine. -/
def retiredReason (absentReads : Nat) : String :=
  "pre-lock-abandoned: journaled PreLock but no escrow observed on the sequencer " ++
    s!"({absentReads} authoritative absent reads, no read errors); hashlock retired and must " ++
    "NOT be reused."

/-- Put an entry into quarantine. -/
def quarantine (hashlock reason : String) (code : FailureCode) : Flow Unit := do
  request (.quarantine hashlock reason)
  request (.ops (.failed hashlock code))

/-- What follows a wedge candidate: the paired re-read and its disposition. -/
def resolveWedge (entry : InFlightSwap) (hashlock : Bytes32) (escrow : HTLCEscrow)
    (balance : U128) : Flow Unit := do
  let pre := (← readEscrowBounded client hashlock).escrow
  let freshBalance ← maxEscrowBalance (client.escrowPda hashlock)
    ((pre.map (·.amount)).getD escrow.amount)
  let post := (← readEscrowBounded client hashlock).escrow
  let freshAmount := (post.map (·.amount)).getD ((pre.map (·.amount)).getD escrow.amount)
  let freshTimelock := (post.map (·.timelock)).getD ((pre.map (·.timelock)).getD escrow.timelock)
  let now ← nowUnix
  match classifyWedgeReread (pre.map (·.state)) freshBalance (post.map (·.state)) (now * 1000)
      freshTimelock freshAmount with
  | .Quarantine =>
      quarantine entry.hashlock (wedgeReason (freshBalance.getD balance) freshAmount)
        .PartialLockWedge
  | .RecoverClaimed =>
      match (post.filter (·.state = .Claimed)).or (pre.filter (·.state = .Claimed)) with
      | some claimed => recoverClaimedEscrow entry claimed
      | none => ExceptT.mk .hang
  | .Dropped => drop entry.hashlock (.refunded entry.hashlock)
  | .Retain => return ()

/-- An expired escrow is refunded, unless the taker still claims. -/
def refundEntry (fuel : Nat) (entry : InFlightSwap) (hashlock : Bytes32) : Flow Unit := do
  match ← Program.attempt (client.refundConfirmed fuel hashlock) with
  | .ok (.Refunded _) => drop entry.hashlock (.refunded entry.hashlock)
  | .ok (.ClaimedByTaker preimage) => claimAndDrop entry preimage
  | .error _ => return ()

/-- A locked escrow: a wedge, expired, or live and resumed in the background. -/
def settleLocked (fuel : Nat) (entry : InFlightSwap) (hashlock : Bytes32) (escrow : HTLCEscrow) :
    Flow Unit := do
  match ← maxEscrowBalance (client.escrowPda hashlock) escrow.amount with
  | none => return ()
  | some balance =>
      let now ← nowUnix
      if isPartialLockWedge escrow.state (now * 1000) escrow.timelock balance escrow.amount then
        resolveWedge client entry hashlock escrow balance
      else
        let now ← nowUnix
        if escrow.timelock ≤ now * 1000 then refundEntry client fuel entry hashlock
        else request (.spawnResume entry hashlock escrow.timelock)

/-- An entry whose escrow was read. -/
def reconcileFound (fuel : Nat) (entry : InFlightSwap) (hashlock : Bytes32)
    (escrow : HTLCEscrow) : Flow Unit := do
  if entry.stage = .PreLock then request (.markFunded entry.hashlock)
  match escrow.state with
  | .Claimed => recoverClaimedEscrow entry escrow
  | .Refunded => drop entry.hashlock (.refunded entry.hashlock)
  | .Locked => settleLocked client fuel entry hashlock escrow

/-- An entry whose escrow was not read. -/
def reconcileAbsent (entry : InFlightSwap) (read : BoundedEscrowRead) : Flow Unit :=
  match classifyAbsentEscrow entry.stage read.anyErr with
  | .RetirePreLock =>
      quarantine entry.hashlock (retiredReason read.absentReads) .PreLockAbandoned
  | .RetainInconclusive | .RetainFunded => return ()

/-- The body of the loop of `reconcile`. -/
def reconcileEntry (fuel : Nat) (entry : InFlightSwap) : Flow Unit := do
  match parseHashlockHex entry.hashlock with
  | none => drop entry.hashlock (.failed entry.hashlock .CorruptEntry)
  | some hashlock =>
      let read ← readEscrowBounded client hashlock
      match read.escrow with
      | some escrow => reconcileFound client fuel entry hashlock escrow
      | none => reconcileAbsent entry read

/-- The loop of `reconcile`. -/
def reconcileEntries (fuel : Nat) : List InFlightSwap → Flow Unit
  | [] => return ()
  | entry :: rest => do
      reconcileEntry client fuel entry
      reconcileEntries fuel rest

/-- `reconcile`. -/
def reconcile (fuel : Nat) : Flow Unit := do
  let entries ← request .snapshot
  if entries.isEmpty then return ()
  match ← request .lezConnect with
  | .error _ => return ()
  | .ok _ => reconcileEntries client fuel entries

/-- Claim the ETH of a resumed entry: whether the entry may be cleared. -/
def resumeClaim (entry : InFlightSwap) (preimage : Bytes32) : Flow Bool := do
  let outcome ← claimEth entry.swapId preimage
  if !retainAfterEthClaim outcome then
    request (.ops (.completed entry.hashlock))
    return true
  return false

/-- One wait of `resume_swap`: whether the entry may be cleared, once that is known. -/
def resumeRound (fuel : Nat) (entry : InFlightSwap) (hashlock : Bytes32) (expirySecs : U64)
    (_ : Unit) : Flow (Unit ⊕ Bool) := do
  match ← request (.selectLez hashlock (if expirySecs = 0 then 1 else expirySecs)) with
  | .event (.Claimed _ shown) =>
      match Bytes.ofSlice? 32 shown with
      | some preimage => return .inr (← resumeClaim entry preimage)
      | none => return .inr false
  | .event (.Refunded _) =>
      request (.ops (.refunded entry.hashlock))
      return .inr true
  | .event (.Locked _) => return .inl ()
  | .timer =>
      match ← Program.attempt (client.refundConfirmed fuel hashlock) with
      | .ok (.Refunded _) =>
          request (.ops (.refunded entry.hashlock))
          return .inr true
      | .ok (.ClaimedByTaker preimage) => return .inr (← resumeClaim entry preimage)
      | .error _ => return .inr false

/-- `resume_swap`. -/
def resumeSwap (fuel : Nat) (entry : InFlightSwap) (hashlock : Bytes32) (timelockMs : U64) :
    Flow Unit := do
  match ← request .lezConnect with
  | .error _ => return ()
  | .ok _ =>
      match ← request .lezConnect with
      | .error _ => return ()
      | .ok _ =>
          let now ← nowUnix
          let expirySecs := U64.saturatingSub (timelockMs / 1000) now
          let removeEntry ← Program.iterate
            (resumeRound client fuel entry hashlock expirySecs) fuel ()
          if removeEntry then request (.remove entry.hashlock)

end Flows

end AtomicSwaps.Cli
