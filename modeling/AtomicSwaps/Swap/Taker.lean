import AtomicSwaps.Eth.Client
import AtomicSwaps.Lez.Client

/-!
# The taker

`run_taker` of `src/swap/taker.rs`: lock ETH, wait for the maker's escrow, check it and
claim it, which reveals the preimage; or refund the ETH.
-/

namespace AtomicSwaps.Swap

open Semantics
open Lez (AccountId HTLCEscrow LezClient)
open Eth

/-- `LEZ_CLAIM_MARGIN_SECS`. -/
def lezClaimMarginSecs : U64 := 300

/-- `verify_escrow_binding`. -/
def verifyEscrowBinding (escrow : HTLCEscrow) (ourAccount : AccountId) (hashlock : Bytes32)
    (ethTimelockSecs nowSecs : U64) : Except SwapError Unit :=
  -- the escrow's timelock is milliseconds on the wire, everything else here is seconds
  let lezExpirySecs := escrow.timelock / 1000
  if escrow.takerId ≠ ourAccount then
    .error (.InvalidState s!"escrow taker_id == our account {Hex.encode ourAccount.toList}"
      s!"escrow taker_id == {Hex.encode escrow.takerId.toList}")
  else if escrow.hashlock ≠ hashlock then
    .error (.InvalidState s!"escrow hashlock == {Hex.encode hashlock.toList}"
      s!"escrow hashlock == {Hex.encode escrow.hashlock.toList}")
  else if lezExpirySecs < U64.saturatingAdd nowSecs lezClaimMarginSecs then
    .error (.InvalidState
      s!"LEZ timelock >= now + {lezClaimMarginSecs.toNat}s claim margin (now = {nowSecs.toNat})"
      s!"LEZ timelock = {lezExpirySecs.toNat}")
  else if ethTimelockSecs ≤ lezExpirySecs then
    .error (.InvalidState s!"LEZ timelock < our ETH timelock ({ethTimelockSecs.toNat})"
      s!"LEZ timelock = {lezExpirySecs.toNat}")
  else .ok ()

/-- The checks of `run_taker` on the escrow's state and amount. -/
def checkEscrow (config : SwapConfig) (escrow : HTLCEscrow) : Except SwapError Unit :=
  if escrow.state ≠ .Locked then .error (.InvalidState "Locked" escrow.state.debug)
  else if escrow.amount < config.lezAmount then
    .error (.InvalidState s!"amount >= {config.lezAmount.toNat}"
      s!"amount = {escrow.amount.toNat}")
  else .ok ()

/-- The check of `run_taker` on the balance of the escrow PDA. -/
def checkPdaBalance (config : SwapConfig) (pdaBalance : U128) : Except SwapError Unit :=
  if pdaBalance < config.lezAmount then
    .error (.InvalidState s!"PDA balance >= {config.lezAmount.toNat}"
      s!"PDA balance = {pdaBalance.toNat}")
  else .ok ()

/-- Both exits of `run_taker` that give up on the escrow. -/
def refundEth (swapId : Bytes32) : Flow SwapOutcome := do
  report .Refunding
  let refunded ← Program.attempt (EthClient.refund swapId)
  report .RefundComplete
  return .Refunded refunded.toOption none

/-- One wait for the escrow: it was locked, or the swap is over. -/
def awaitEscrow (config : SwapConfig) (hashlock swapId : Bytes32) (_ : Unit) :
    Flow (Unit ⊕ Option SwapOutcome) := do
  let now ← nowUnix
  match ← request (.selectLez hashlock (U64.saturatingSub config.ethTimelock now)) with
  | .event (.Locked _) =>
      report .LezLockDetected
      return .inr none
  | .event (.Refunded _) =>
      let outcome ← refundEth swapId
      return .inr (some outcome)
  | .event (.Claimed ..) => return .inl ()
  | .timer =>
      report .TimelockExpired
      let outcome ← refundEth swapId
      return .inr (some outcome)

/-- Checking the escrow and claiming it. -/
def claimEscrow (client : LezClient) (config : SwapConfig) (hashlock swapId preimage : Bytes32) :
    Flow SwapOutcome := do
  report .VerifyingLezEscrow
  match ← client.getEscrow hashlock with
  | none => throw (.InvalidState "Locked escrow" "no escrow found")
  | some escrow =>
      Program.returned (checkEscrow config escrow)
      let pdaBalance ← LezClient.getBalance (client.escrowPda hashlock)
      Program.returned (checkPdaBalance config pdaBalance)
      let now ← nowUnix
      Program.returned (verifyEscrowBinding escrow client.accountId hashlock config.ethTimelock now)
      report .LezEscrowVerified
      report .ClaimingLez
      let lezTx ← client.claim hashlock preimage
      report (.LezClaimed lezTx)
      return .Completed preimage swapId lezTx

/-- `run_taker` with its preimage and hashlock. -/
def runTakerWith (client : LezClient) (fuel : Nat) (config : SwapConfig)
    (preimage hashlock : Bytes32) : Flow SwapOutcome := do
  report (.PreimageGenerated (Hex.encode hashlock.toList))
  report .LockingEth
  let receipt ← EthClient.lock hashlock config.ethTimelock config.ethRecipientAddress
    client.accountId (config.ethAmount.setWidth 256)
  report (.EthLocked (display receipt.swapId) (display receipt.txHash))
  report .WaitingForLezLock
  Program.returned (← request .lezConnect)
  match ← Program.iterate (awaitEscrow config hashlock receipt.swapId) fuel () with
  | some outcome => return outcome
  | none => claimEscrow client config hashlock receipt.swapId preimage

/-- `run_taker`. -/
def runTaker (sha256 : List UInt8 → Bytes32) (client : LezClient) (fuel : Nat)
    (config : SwapConfig) (overridePreimage : Option Bytes32) : Flow SwapOutcome := do
  let preimage ← match overridePreimage with
    | some preimage => pure preimage
    | none => request .random
  runTakerWith client fuel config preimage (sha256 preimage.toList)

end AtomicSwaps.Swap
