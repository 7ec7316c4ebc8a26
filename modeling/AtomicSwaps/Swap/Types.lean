import AtomicSwaps.Eth.HTLC
import AtomicSwaps.Lez.Program

/-!
# Types of the swap flows

Configuration, errors, outcomes and progress events of `src/swap`, `src/error.rs` and
`src/config.rs`, and the events the two watchers forward. Connection settings and
keys are left out, as no decision depends on them.
-/

namespace AtomicSwaps

open Lez (AccountId HTLCState HTLCEscrow HTLCInstruction)

/-- `SwapError`. -/
inductive SwapError where
  | EthRpc (message : String)
  | EthReverted (message : String)
  | EthAbiMismatch (message : String)
  | EthLogsUncorroborated (message : String)
  | LezSequencer (message : String)
  | LezTransaction (message : String)
  | EscrowStateUnknown (message : String)
  | EthClaimUnresolved (message : String)
  | InvalidState (expected actual : String)
  | Timeout (what : String)
  | TimelockNotExpired (seconds : U64)
  | InvalidConfig (message : String)
  | Cancelled
deriving DecidableEq, Repr

/-- The text of an error, as `thiserror` derives it. -/
def SwapError.toString : SwapError → String
  | .EthRpc message => s!"Ethereum RPC error: {message}"
  | .EthReverted message => s!"Ethereum transaction reverted: {message}"
  | .EthAbiMismatch message => s!"EthHTLC ABI mismatch: {message}"
  | .EthLogsUncorroborated message => s!"uncorroborated Ethereum logs: {message}"
  | .LezSequencer message => s!"LEZ sequencer error: {message}"
  | .LezTransaction message => s!"LEZ transaction failed: {message}"
  | .EscrowStateUnknown message =>
      s!"LEZ escrow state unknown (not a confirmed terminal state): {message}"
  | .EthClaimUnresolved message =>
      s!"ETH claim unresolved after retries — taker holds the LEZ; stopping for supervised " ++
      s!"restart so reconcile retries: {message}"
  | .InvalidState expected actual =>
      s!"invalid swap state: expected {expected}, got {actual}"
  | .Timeout what => s!"timeout waiting for {what}"
  | .TimelockNotExpired seconds => s!"timelock not expired: {seconds.toNat} seconds remaining"
  | .InvalidConfig message => s!"invalid configuration: {message}"
  | .Cancelled => "swap cancelled by user"

/-- The swap parameters of `SwapConfig`. -/
structure SwapConfig where
  lezAmount : U128
  ethAmount : U128
  /-- Absolute Unix seconds, as are all timelocks outside the LEZ wire format. -/
  lezTimelock : U64
  ethTimelock : U64
  ethRecipientAddress : Eth.Address
  lezTakerAccountId : Option AccountId

/-- `SwapConfig::with_fresh_timelocks`, with the current time read before. -/
def SwapConfig.withFreshTimelocks (config : SwapConfig) (lezMinutes ethMinutes now : U64) :
    SwapConfig :=
  { config with
    lezTimelock := now + lezMinutes * 60
    ethTimelock := now + ethMinutes * 60 }

/-- Outcome of a swap orchestration flow. -/
inductive SwapOutcome where
  | Completed (preimage ethTx : Bytes32) (lezTx : String)
  | Refunded (ethRefundTx : Option Bytes32) (lezRefundTx : Option String)
deriving DecidableEq

/-- Progress events of the swap flows. -/
inductive SwapProgress where
  | PreimageGenerated (hashlock : String)
  | LockingEth
  | EthLocked (swapId txHash : String)
  | WaitingForLezLock
  | LezLockDetected
  | VerifyingLezEscrow
  | LezEscrowVerified
  | ClaimingLez
  | LezClaimed (txHash : String)
  | WaitingForEthLock
  | EthLockDetected (swapId hashlock takerLezAccount txHash : String)
  | EthLockRejected (swapId : String) (ethExpirySecs requiredExpirySecs : U64)
  | EthLockRejectedTakerAccount (swapId takerLezAccount reason : String)
  | LezLocking
  | LezLocked (txHash : String)
  | WaitingForPreimage
  | PreimageRevealed (preimage : String)
  | ClaimingEth
  | EthClaimed (txHash : String)
  | TimelockExpired
  | Refunding
  | RefundComplete
  | AutoAcceptStarted
  | AutoAcceptIteration (iteration : Nat)
  | AutoAcceptSwapCompleted (iteration : Nat) (status : String)
  | AutoAcceptSwapFailed (iteration : Nat) (error : String)
  | AutoAcceptTransientError (iteration : Nat) (error : String)
  | AutoAcceptInsufficientFunds (lezBalance lezRequired : String)
  | AutoAcceptStopped (totalCompleted totalFailed totalTransientErrors : Nat)
  | AutoAcceptCancelled
deriving DecidableEq

/-- A `Locked` event as the ETH watcher forwards it. -/
structure LockedEvent where
  swapId : Bytes32
  sender : Eth.Address
  recipient : Eth.Address
  amount : U256
  hashlock : Bytes32
  timelock : U256
  takerLezAccount : Bytes32
  txHash : Bytes32
deriving DecidableEq

/-- `EthHtlcEvent`. -/
inductive EthHtlcEvent where
  | Locked (event : LockedEvent)
  | Claimed (swapId preimage : Bytes32)
  | Refunded (swapId : Bytes32)
deriving DecidableEq

/-- `LezHtlcEvent`. -/
inductive LezHtlcEvent where
  | Locked (escrowPda : AccountId)
  | Claimed (escrowPda : AccountId) (preimage : List UInt8)
  | Refunded (escrowPda : AccountId)
deriving DecidableEq

/-- `format!("{:?}", state)`. -/
def Lez.HTLCState.debug : HTLCState → String
  | .Locked => "Locked"
  | .Claimed => "Claimed"
  | .Refunded => "Refunded"

end AtomicSwaps
