import AtomicSwaps.Eth.Client
import AtomicSwaps.Lez.Client

/-!
# The maker

`run_maker` and `run_maker_loop` of `src/swap/maker.rs`: match a taker's ETH lock,
journal it, lock and fund the LEZ escrow, and collect the ETH once the escrow is claimed
or the LEZ once its timelock has passed. The journal and the operations ledger are used
in loop mode only, which is when guards are given.
-/

namespace AtomicSwaps.Swap

open Semantics
open Lez (AccountId HTLCEscrow LezClient RefundOutcome)
open Eth

/-- `LoopGuards`, apart from the journal and the ledger, which are operations. -/
structure LoopGuards where
  timelockMarginSecs : U64
  lezTimelockSecs : U64

/-- `fresh_lez_expiry_secs`. -/
def freshLezExpirySecs (nowSecs lezTimelockSecs : U64) : U64 :=
  U64.saturatingAdd nowSecs lezTimelockSecs

/-- `loop_must_stop_after_iteration`. -/
def loopMustStopAfterIteration (journalHasInFlight : Bool) : Bool := journalHasInFlight

/-- `eth_timelock_covers_lez`. -/
def ethTimelockCoversLez (ethExpirySecs lezExpirySecs marginSecs : U64) : Bool :=
  U64.saturatingAdd lezExpirySecs marginSecs ≤ ethExpirySecs

inductive RejectReason where
  | TimelockTooTight
  | UnusableTakerLezAccount
  | NotDesignatedTaker
deriving DecidableEq

inductive CandidateDisposition where
  | Skip
  | Reject (reason : RejectReason)
  | Accept
deriving DecidableEq

/-- `taker_lez_account_is_usable`. -/
def takerLezAccountIsUsable (takerLezAccount makerLezAccount : Bytes32) : Bool :=
  takerLezAccount ≠ Bytes.zero 32 ∧ takerLezAccount ≠ makerLezAccount

/-- `designated_lez_claimant`. -/
def designatedLezClaimant (takerLezAccount makerLezAccount : Bytes32) : Option AccountId :=
  if takerLezAccountIsUsable takerLezAccount makerLezAccount then some takerLezAccount else none

/-- The matched ETH lock under consideration. -/
structure Candidate where
  hashlock : Bytes32
  takerLezAccount : Bytes32
  ethTimelockSecs : U64

/-- The maker's side of the decision. -/
structure MakerPolicy where
  makerLezAccount : Bytes32
  designatedTaker : Option Bytes32
  lezExpirySecs : U64
  margin : Option U64

/-- `DEFAULT_TIMELOCK_MARGIN_SECS`. -/
def defaultTimelockMarginSecs : U64 := 5 * 60

/-- `MAX_REJECTED`. -/
def maxRejected : Nat := 1024

/-- `classify_candidate`. -/
def classifyCandidate (candidate : Candidate) (policy : MakerPolicy) (rejected : List Bytes32)
    (inJournal : Bool) : CandidateDisposition :=
  if candidate.hashlock ∈ rejected ∨ inJournal then .Skip
  else if !takerLezAccountIsUsable candidate.takerLezAccount policy.makerLezAccount then
    .Reject .UnusableTakerLezAccount
  else if ∃ designated ∈ policy.designatedTaker, candidate.takerLezAccount ≠ designated then
    .Reject .NotDesignatedTaker
  else if !ethTimelockCoversLez candidate.ethTimelockSecs policy.lezExpirySecs
      (policy.margin.getD defaultTimelockMarginSecs) then
    .Reject .TimelockTooTight
  else .Accept

/-- `rejected.insert`, up to the size cap. -/
def remember (rejected : List Bytes32) (hashlock : Bytes32) : List Bytes32 :=
  if rejected.length < maxRejected then hashlock :: rejected else rejected

/-- What the progress consumers are told about a rejected lock. -/
def rejection (event : LockedEvent) (ethTimelockSecs lezExpirySecs : U64) (margin : Option U64) :
    RejectReason → SwapProgress
  | .TimelockTooTight =>
      .EthLockRejected (display event.swapId) ethTimelockSecs
        (U64.saturatingAdd lezExpirySecs (margin.getD defaultTimelockMarginSecs))
  | .UnusableTakerLezAccount =>
      .EthLockRejectedTakerAccount (display event.swapId) (Hex.encode event.takerLezAccount.toList)
        ("unusable takerLezAccount (zero, or the maker's own account — the LEZ HTLC requires " ++
          "maker != taker)")
  | .NotDesignatedTaker =>
      .EthLockRejectedTakerAccount (display event.swapId) (Hex.encode event.takerLezAccount.toList)
        "not the designated counterparty this maker serves (LEZ_TAKER_ACCOUNT_ID)"

/-- An ETH lock the maker has matched. -/
structure Matched where
  swapId : Bytes32
  hashlock : Bytes32
  lezExpirySecs : U64
  lezClaimant : AccountId

section Flows

variable (client : LezClient) (config : SwapConfig) (guards : Option LoopGuards)

/-- One attempt after another to claim the ETH, as many as are left. -/
def claimEthAttempts (swapId preimage : Bytes32) : Nat → Option String → Flow Bytes32
  | 0, lastErr => throw (.EthClaimUnresolved (lastErr.getD "unknown error"))
  | left + 1, _ => do
      match ← Program.attempt (EthClient.claim swapId preimage) with
      | .ok tx => return tx
      | .error e =>
          match ← Program.attempt (EthClient.getHtlc swapId) with
          | .ok htlc =>
              if htlc.state = .CLAIMED then return Bytes.zero 32
              if left ≠ 0 then request .sleep
              claimEthAttempts swapId preimage left (some e.toString)
          | .error _ =>
              if left ≠ 0 then request .sleep
              claimEthAttempts swapId preimage left (some e.toString)

/-- `claim_eth_after_reveal`, with `MAX_ATTEMPTS`. -/
def claimEthAfterReveal (swapId preimage : Bytes32) : Flow Bytes32 :=
  claimEthAttempts swapId preimage 6 none

/-- The exit of the select for an accepted candidate whose swap is still open, or whose
state could not be read. -/
def matchCandidate (event : LockedEvent) (lezExpirySecs : U64) (lezClaimant : AccountId) :
    Flow (List Bytes32 ⊕ Option Matched) := do
  report (.EthLockDetected (display event.swapId) (Hex.encode event.hashlock.toList)
    (Hex.encode event.takerLezAccount.toList) (display event.txHash))
  return .inr (some ⟨event.swapId, event.hashlock, lezExpirySecs, lezClaimant⟩)

/-- The decision on a lock that is for this maker and large enough. -/
def considerLock (rejected : List Bytes32) (event : LockedEvent) :
    Flow (List Bytes32 ⊕ Option Matched) := do
  let ethTimelockSecs := event.timelock.saturatingTo64
  let lezExpirySecs ← match guards with
    | some guards => do
        let now ← nowUnix
        pure (freshLezExpirySecs now guards.lezTimelockSecs)
    | none => pure config.lezTimelock
  let inJournal : Bool ← match guards with
    | some _ => request (.contains (Hex.encode event.hashlock.toList))
    | none => pure false
  let margin := guards.map (·.timelockMarginSecs)
  match classifyCandidate ⟨event.hashlock, event.takerLezAccount, ethTimelockSecs⟩
      ⟨client.accountId, config.lezTakerAccountId, lezExpirySecs, margin⟩ rejected inJournal with
  | .Skip => return .inl rejected
  | .Reject reason =>
      report (rejection event ethTimelockSecs lezExpirySecs margin reason)
      return .inl (remember rejected event.hashlock)
  | .Accept =>
      match designatedLezClaimant event.takerLezAccount client.accountId with
      | none => return .inl (remember rejected event.hashlock)
      | some lezClaimant =>
          match ← Program.attempt (EthClient.getHtlc event.swapId) with
          | .ok htlc =>
              if htlc.state ≠ .OPEN then return .inl rejected
              matchCandidate event lezExpirySecs lezClaimant
          | .error _ => matchCandidate event lezExpirySecs lezClaimant

/-- One wait for a lock. -/
def awaitLock (hashlock : Option Bytes32) (rejected : List Bytes32) :
    Flow (List Bytes32 ⊕ Option Matched) := do
  let now ← nowUnix
  match ← request (.selectEth (U64.saturatingSub config.ethTimelock now)) with
  | .event (.Locked event) =>
      if (∀ want ∈ hashlock, event.hashlock = want) ∧
          event.recipient = config.ethRecipientAddress ∧
          config.ethAmount.setWidth 256 ≤ event.amount then
        considerLock client config guards rejected event
      else return .inl rejected
  | .event _ => return .inl rejected
  | .timer =>
      report .TimelockExpired
      return .inr none
  | .cancelled => throw .Cancelled

/-- Clear the journal entry and record the outcome, in loop mode. -/
def settle (hashlockHex : String) (call : OpsCall) : Flow Unit :=
  match guards with
  | some _ => do
      request (.remove hashlockHex)
      request (.ops call)
  | none => return ()

/-- Claim the ETH with the revealed preimage. -/
def collectEth (swapId : Bytes32) (hashlockHex lezLockTx : String) (preimage : Bytes32) :
    Flow SwapOutcome := do
  report .ClaimingEth
  let ethClaimTx ← claimEthAfterReveal swapId preimage
  report (.EthClaimed (display ethClaimTx))
  settle guards hashlockHex (.completed hashlockHex)
  return .Completed preimage ethClaimTx lezLockTx

/-- The LEZ timelock has passed: refund, unless the taker still claims. -/
def refundLez (fuel : Nat) (matched : Matched) (hashlockHex lezLockTx : String) :
    Flow SwapOutcome := do
  report .TimelockExpired
  report .Refunding
  match ← client.refundConfirmed fuel matched.hashlock with
  | .Refunded tx =>
      report .RefundComplete
      settle guards hashlockHex (.refunded hashlockHex)
      return .Refunded none (if tx = "" then none else some tx)
  | .ClaimedByTaker preimage =>
      report (.PreimageRevealed (Hex.encode preimage.toList))
      collectEth guards matched.swapId hashlockHex lezLockTx preimage

/-- One wait for the taker's claim: a preimage, or the end of the swap. -/
def awaitReveal (fuel : Nat) (matched : Matched) (hashlockHex lezLockTx : String) (_ : Unit) :
    Flow (Unit ⊕ (Bytes32 ⊕ SwapOutcome)) := do
  let now ← nowUnix
  match ← request (.selectLez matched.hashlock (U64.saturatingSub matched.lezExpirySecs now)) with
  | .event (.Claimed _ shown) =>
      match Bytes.ofSlice? 32 shown with
      | none => throw (.InvalidState "32-byte preimage" "wrong length")
      | some preimage =>
          report (.PreimageRevealed (Hex.encode preimage.toList))
          return .inr (.inl preimage)
  | .event (.Refunded _) =>
      settle guards hashlockHex (.refunded hashlockHex)
      return .inr (.inr (.Refunded none (some lezLockTx)))
  | .event (.Locked _) => return .inl ()
  | .timer =>
      let outcome ← refundLez client guards fuel matched hashlockHex lezLockTx
      return .inr (.inr outcome)

/-- Everything that follows a match. -/
def serve (fuel : Nat) (matched : Matched) : Flow SwapOutcome := do
  let hashlockHex := Hex.encode matched.hashlock.toList
  if guards.isSome then
    match ← request (.record hashlockHex (display matched.swapId)) with
    | .error e => throw (.InvalidConfig e)
    | .ok _ => request (.ops (.accepted hashlockHex (display matched.swapId)))
  report .LezLocking
  let lezLockTx ← client.lock fuel matched.hashlock matched.lezClaimant config.lezAmount
    matched.lezExpirySecs
  if guards.isSome then request (.markFunded hashlockHex)
  report (.LezLocked lezLockTx)
  report .WaitingForPreimage
  Program.returned (← request .lezConnect)
  match ← Program.iterate (awaitReveal client guards fuel matched hashlockHex lezLockTx) fuel () with
  | .inl preimage => collectEth guards matched.swapId hashlockHex lezLockTx preimage
  | .inr outcome => return outcome

/-- `run_maker`. -/
def runMaker (fuel : Nat) (hashlock : Option Bytes32) : Flow SwapOutcome := do
  report .WaitingForEthLock
  Program.returned (← request .ethConnect)
  match ← Program.iterate (awaitLock client config guards hashlock) fuel [] with
  | none => return .Refunded none none
  | some matched => serve client config guards fuel matched

end Flows

/-- The counters of `run_maker_loop`. -/
structure LoopCounters where
  completed : Nat
  failed : Nat
  transientErrors : Nat
  iteration : Nat

/-- `balance_with_retry_core`: the attempts left and the last error. The balance comes
with whether `on_transient` was called. -/
def balanceWithRetry (onTransient : SwapError → Flow Unit) (accountId : AccountId) :
    Nat → Option SwapError → Flow (U128 × Bool)
  | 0, lastErr =>
      match lastErr with
      | none => ExceptT.mk .hang
      | some e => do
          onTransient e
          throw e
  | left + 1, lastErr => do
      match ← Program.attempt (LezClient.getBalance accountId) with
      | .ok balance =>
          match lastErr with
          | some e =>
              onTransient e
              return (balance, true)
          | none => return (balance, false)
      | .error e =>
          if left ≠ 0 then request .sleep
          balanceWithRetry onTransient accountId left (some e)

/-- `BALANCE_RETRY_ATTEMPTS`. -/
def balanceRetryAttempts : Nat := 5

section Loop

variable (client : LezClient) (config : SwapConfig) (lezMinutes ethMinutes marginSecs : U64)

/-- The guards `run_maker_loop` runs every iteration with. -/
def loopGuards : LoopGuards := ⟨marginSecs, lezMinutes * 60⟩

/-- Stop or go on after an iteration, as the journal says. -/
def afterIteration (counters : LoopCounters) : Flow (LoopCounters ⊕ LoopCounters) := do
  if loopMustStopAfterIteration (← request .hasInFlight) then
    report (.AutoAcceptSwapFailed counters.iteration
      ("in-flight journal entry unresolved after swap — stopping loop for " ++
        "supervised restart"))
    return .inr counters
  return .inl counters

/-- The swap of an iteration. -/
def iterationSwap (fuel : Nat) (fresh : SwapConfig) (counters : LoopCounters) :
    Flow (LoopCounters ⊕ LoopCounters) := do
  report (.AutoAcceptIteration counters.iteration)
  match ← request .ethConnect with
  | .error e =>
      report (.AutoAcceptSwapFailed counters.iteration s!"ETH client init failed: {e.toString}")
      request .sleep
      return .inl { counters with failed := counters.failed + 1 }
  | .ok _ =>
      match ← Program.attempt
          (runMaker client fresh (some (loopGuards lezMinutes marginSecs)) fuel none) with
      | .ok (.Completed ..) =>
          report (.AutoAcceptSwapCompleted counters.iteration "completed")
          afterIteration { counters with completed := counters.completed + 1 }
      | .ok (.Refunded ..) =>
          report (.AutoAcceptSwapFailed counters.iteration "swap refunded (taker timed out)")
          afterIteration { counters with failed := counters.failed + 1 }
      | .error .Cancelled =>
          report .AutoAcceptCancelled
          return .inr counters
      | .error e =>
          report (.AutoAcceptSwapFailed counters.iteration e.toString)
          afterIteration { counters with failed := counters.failed + 1 }

/-- One iteration of `run_maker_loop`. -/
def loopIteration (fuel : Nat) (counters : LoopCounters) :
    Flow (LoopCounters ⊕ LoopCounters) := do
  if ← (request .cancelRequested : Flow Bool) then
    report .AutoAcceptCancelled
    return .inr counters
  let counters := { counters with iteration := counters.iteration + 1 }
  let now ← nowUnix
  let fresh := config.withFreshTimelocks lezMinutes ethMinutes now
  match ← request .lezConnect with
  | .error e =>
      report (.AutoAcceptSwapFailed counters.iteration s!"LEZ client init failed: {e.toString}")
      request .sleep
      return .inl { counters with failed := counters.failed + 1 }
  | .ok _ =>
      let onTransient := fun e : SwapError =>
        report (.AutoAcceptTransientError counters.iteration s!"balance check: {e.toString}")
      match ← Program.attempt
          (balanceWithRetry onTransient client.accountId balanceRetryAttempts none) with
      | .error _ =>
          request .sleep
          return .inl { counters with transientErrors := counters.transientErrors + 1 }
      | .ok (balance, retried) =>
          let counters := { counters with
            transientErrors := counters.transientErrors + if retried then 1 else 0 }
          if balance < fresh.lezAmount then
            report (.AutoAcceptInsufficientFunds s!"{balance.toNat}" s!"{fresh.lezAmount.toNat}")
            request .sleep
            return .inl counters
          iterationSwap client lezMinutes marginSecs fuel fresh counters

/-- `run_maker_loop`. -/
def runMakerLoop (fuel : Nat) : Flow LoopCounters := do
  report .AutoAcceptStarted
  let counters ← Program.iterate
    (loopIteration client config lezMinutes ethMinutes marginSecs fuel) fuel ⟨0, 0, 0, 0⟩
  report (.AutoAcceptStopped counters.completed counters.failed counters.transientErrors)
  return counters

end Loop

end AtomicSwaps.Swap
