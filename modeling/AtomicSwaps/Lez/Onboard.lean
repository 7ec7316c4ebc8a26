import AtomicSwaps.Lez.Program
import AtomicSwaps.Mcp.Faucet

/-!
# Onboarding

`ensure_initialized` and `claim_to_target` of `src/lez/onboard.rs`, with the claim of
`src/lez/faucet.rs` they submit. Progress is emitted whether or not somebody listens; a read that
runs into a deadline fails like any other.
-/

namespace AtomicSwaps.Lez

open Semantics Program
open Mcp (SolvedClaim)

/-- `ACCOUNT_READ_RETRIES`. -/
def ACCOUNT_READ_RETRIES : Nat := 3

/-- `BALANCE_READ_RETRIES`. -/
def BALANCE_READ_RETRIES : Nat := 3

/-- `MAX_CONSECUTIVE_CLAIM_FAILURES`. -/
def MAX_CONSECUTIVE_CLAIM_FAILURES : BitVec 32 := 5

/-- `InitOutcome`. -/
inductive InitOutcome where
  | AlreadyInitialized
  | Initialized (txHash : String)
deriving DecidableEq

/-- `FundingProgress`. -/
inductive FundingProgress where
  | Initializing
  | Initialized (txHash : String)
  | AlreadyInitialized
  | CheckingBalance (balance target : U128)
  | TargetReached (balance : U128)
  | ClaimSubmitted (txHash : String)
  | Claimed (txHash : Option String) (totalClaims : U64) (balance : U128)
  | ClaimFailed (error : String) (consecutiveFailures : BitVec 32)
deriving DecidableEq

/-- What onboarding asks of the sequencer, the clock and its listener. -/
inductive FundingOp where
  | getAccount (accountId : AccountId)
  | getAccountBalance (accountId : AccountId)
  | getAccountsNonces (accountId : AccountId)
  | sendInitialize (accountId : AccountId) (nonces : List U128)
  /-- `compute_solution_bounded`, on a blocking thread. -/
  | computeSolution (challenge : Bytes 33)
  | sendClaim (solution : U128) (winner : AccountId)
  | emit (event : FundingProgress)
  | deadlinePassed
  | sleep
deriving DecidableEq

/-- The sequencer, the clock and the listener. -/
def Funding : Interface where
  Op := FundingOp
  Answer
    | .getAccount _ => Except String Account
    | .getAccountBalance _ => Except String U128
    | .getAccountsNonces _ => Except String (List U128)
    | .sendInitialize .. | .sendClaim .. => Except String String
    | .computeSolution _ => Except String U128
    | .deadlinePassed => Bool
    | .emit _ | .sleep => Unit

/-- A program of the onboarding. -/
abbrev FundingM := ExceptT String (Program Funding)

/-- The accounts and programs that onboarding knows. -/
structure Onboarding where
  accountId : AccountId
  /-- `programs::authenticated_transfer().id()`. -/
  authTransferId : ProgramId
  /-- `system_accounts::pinata_account_id()`. -/
  pinataId : AccountId

/-- The seed in a challenge, after its difficulty. -/
def seedOf (challenge : Bytes 33) : Bytes32 := challenge.tail

/-- Continue with a value, or fail with its error. -/
def orElseSay {α : Type} (message : String → String) : Except String α → FundingM α
  | .ok value => return value
  | .error e => throw (message e)

/-- A read that is tried as often as is left. -/
def readRetrying {α : Type} (retries : Nat) (message : String → String)
    (read : FundingM (Except String α)) : (left : Nat) → (lastErr : String) → FundingM α
  | 0, lastErr => throw s!"{lastErr} (after {retries} attempts)"
  | 1, _ => do
      match ← read with
      | .ok value => return value
      | .error e => readRetrying retries message read 0 (message e)
  | left + 2, _ => do
      match ← read with
      | .ok value => return value
      | .error e => do
          request (I := Funding) .sleep
          readRetrying retries message read (left + 1) (message e)

namespace Onboarding

variable (onboarding : Onboarding)

/-- The read of the account in `ensure_initialized`. -/
def readAccountRetrying : FundingM Account :=
  readRetrying ACCOUNT_READ_RETRIES (fun e => s!"get_account failed: {e}")
    (request (I := Funding) (.getAccount onboarding.accountId)) ACCOUNT_READ_RETRIES ""

/-- `read_balance_retrying`. -/
def readBalanceRetrying : FundingM U128 :=
  readRetrying BALANCE_READ_RETRIES (fun e => s!"get_account_balance failed: {e}")
    (request (I := Funding) (.getAccountBalance onboarding.accountId)) BALANCE_READ_RETRIES ""

/-- One turn of the wait for `Initialize`. -/
def initRound (txHash : String) (_ : Unit) : FundingM (Unit ⊕ InitOutcome) := do
  let account ← request (I := Funding) (.getAccount onboarding.accountId)
  if account.toOption.map Account.programOwner = some onboarding.authTransferId then
    return .inr (.Initialized txHash)
  else do
    let passed : Bool ← request (I := Funding) .deadlinePassed
    if passed then
      throw s!"account Initialize did not commit within 300s (tx {txHash})"
    else do
      request (I := Funding) .sleep
      return .inl ()

/-- `ensure_initialized`. -/
def ensureInitialized (fuel : Nat) : FundingM InitOutcome := do
  let existing ← onboarding.readAccountRetrying
  if existing.programOwner = onboarding.authTransferId then
    return .AlreadyInitialized
  else do
    let nonces ← orElseSay (fun e => s!"get_accounts_nonces failed: {e}")
      (← request (I := Funding) (.getAccountsNonces onboarding.accountId))
    let txHash ← orElseSay (fun e => s!"Initialize submission failed: {e}")
      (← request (I := Funding) (.sendInitialize onboarding.accountId nonces))
    iterate (onboarding.initRound txHash) fuel ()

/-- `pinata_challenge`. -/
def pinataChallenge : FundingM (Bytes 33) := do
  let account ← orElseSay (fun e => s!"getAccount(pinata) failed: {e}")
    (← request (I := Funding) (.getAccount onboarding.pinataId))
  match Bytes.ofSlice? 33 account.data with
  | some challenge => return challenge
  | none => throw s!"unexpected pinata account data length {account.data.length}"

/-- `solve_claim`. -/
def solveClaim : FundingM SolvedClaim := do
  let challenge ← onboarding.pinataChallenge
  let solution ← orElseSay id (← request (I := Funding) (.computeSolution challenge))
  return { solution, winner := onboarding.accountId, seed := seedOf challenge }

end Onboarding

/-- `submit_solved_claim`. -/
def submitSolvedClaim (solved : SolvedClaim) : FundingM String := do
  orElseSay (fun e => s!"pinata claim submission failed: {e}")
    (← request (I := Funding) (.sendClaim solved.solution solved.winner))

/-- `SubmittedClaim`. -/
structure SubmittedClaim where
  txHash : String
  seed : Bytes32
deriving DecidableEq

namespace Onboarding

variable (onboarding : Onboarding)

/-- `attempt_claim`. -/
def attemptClaim : FundingM SubmittedClaim := do
  let solved ← onboarding.solveClaim
  let txHash ← submitSolvedClaim solved
  return { txHash, seed := solved.seed }

/-- The balance of the account is read above what it was. -/
def risen (prevBalance : U128) : FundingM (Option U128) := do
  match ← request (I := Funding) (.getAccountBalance onboarding.accountId) with
  | .ok balance => if prevBalance < balance then return some balance else return none
  | .error _ => return none

/-- The challenge is read with another seed than the claim was solved for. -/
def rotated (claimSeed : Bytes32) : FundingM Bool := do
  match ← attempt onboarding.pinataChallenge with
  | .ok challenge => return seedOf challenge ≠ claimSeed
  | .error _ => return false

/-- One turn of `await_claim_commit`. -/
def commitRound (prevBalance : U128) (claimSeed : Bytes32) (_ : Unit) :
    FundingM (Unit ⊕ (U128 × Bool)) := do
  match ← onboarding.risen prevBalance with
  | some balance => do
      -- an unreadable challenge leaves the credit unattributed
      let attributed ← onboarding.rotated claimSeed
      return .inr (balance, attributed)
  | none => do
      if ← onboarding.rotated claimSeed then do
        match ← onboarding.risen prevBalance with
        | some balance => return .inr (balance, true)
        | none =>
            throw ("claim was submitted but the faucet challenge rotated before it credited " ++
              "(a duplicate that will never commit)")
      else do
        let passed : Bool ← request (I := Funding) .deadlinePassed
        if passed then throw "claim did not commit within 180s of submission"
        else do
          request (I := Funding) .sleep
          return .inl ()

/-- `await_claim_commit`. -/
def awaitClaimCommit (fuel : Nat) (prevBalance : U128) (claimSeed : Bytes32) :
    FundingM (U128 × Bool) :=
  iterate (onboarding.commitRound prevBalance claimSeed) fuel ()

/-- An attempt of the loop: a claim that is submitted and then confirmed. -/
def claimAttempt (fuel : Nat) (balance : U128) : FundingM (Option String × U128) := do
  let claim ← onboarding.attemptClaim
  request (I := Funding) (.emit (.ClaimSubmitted claim.txHash))
  let (newBalance, attributed) ← onboarding.awaitClaimCommit fuel balance claim.seed
  return (if attributed then some claim.txHash else none, newBalance)

end Onboarding

/-- What the loop of `claim_to_target` counts. -/
structure FundingLoop where
  consecutiveFailures : BitVec 32
  claims : U64

/-- What an attempt leaves of the loop, which gives up after too many failures. -/
def FundingLoop.settle (loop : FundingLoop) :
    Except String (Option String × U128) → FundingM FundingLoop
  | .ok (txHash, newBalance) => do
      request (I := Funding) (.emit (.Claimed txHash (loop.claims + 1) newBalance))
      return { consecutiveFailures := 0, claims := loop.claims + 1 }
  | .error error => do
      request (I := Funding) (.emit (.ClaimFailed error (loop.consecutiveFailures + 1)))
      if MAX_CONSECUTIVE_CLAIM_FAILURES ≤ loop.consecutiveFailures + 1 then
        throw (s!"{MAX_CONSECUTIVE_CLAIM_FAILURES.toNat} consecutive pinata claim failures — " ++
          s!"aborting funding loop (last error: {error})")
      else return { loop with consecutiveFailures := loop.consecutiveFailures + 1 }

namespace Onboarding

variable (onboarding : Onboarding)

/-- One turn of the loop of `claim_to_target`. -/
def fundingRound (target : U128) (fuel : Nat) (loop : FundingLoop) :
    FundingM (FundingLoop ⊕ U128) := do
  let balance ← onboarding.readBalanceRetrying
  if target ≤ balance then do
    request (I := Funding) (.emit (.TargetReached balance))
    return .inr balance
  else do
    request (I := Funding) (.emit (.CheckingBalance balance target))
    let result ← attempt (onboarding.claimAttempt fuel balance)
    let next ← loop.settle result
    request (I := Funding) .sleep
    return .inl next

/-- What `ensure_initialized` found, as progress. -/
def toldOf : InitOutcome → FundingProgress
  | .AlreadyInitialized => .AlreadyInitialized
  | .Initialized txHash => .Initialized txHash

/-- `claim_to_target`. -/
def claimToTarget (target : U128) (fuel : Nat) : FundingM U128 := do
  request (I := Funding) (.emit .Initializing)
  let outcome ← onboarding.ensureInitialized fuel
  request (I := Funding) (.emit (toldOf outcome))
  iterate (onboarding.fundingRound target fuel) fuel { consecutiveFailures := 0, claims := 0 }

end Onboarding

end AtomicSwaps.Lez
