import AtomicSwaps.Mcp.Transfer
import AtomicSwaps.Semantics.Expansion

/-!
# The write tools of the MCP server

`lez_faucet_claim` of `lez-mcp/src/server.rs`, over the operations of `lez_transfer` and some
of its own; `lez_transfer` itself is taken over as it is. A guard of a lock is dropped by an
operation, which does nothing where no guard is held. The challenge is fetched and solved in
one operation.
-/

namespace AtomicSwaps.Mcp

open Semantics
open Lez (AccountId Account)

/-- `SolvedClaim`. -/
structure SolvedClaim where
  solution : U128
  winner : AccountId
  seed : Bytes32
deriving DecidableEq

/-- `PRIZE_PER_CLAIM`. -/
def PRIZE_PER_CLAIM : U128 := 150

/-- `MAX_FAUCET_CLAIMS`. -/
def MAX_FAUCET_CLAIMS : Nat := 20

/-- `FaucetParams`. -/
structure FaucetParams where
  accountId : String
  targetBalance : Option String
  maxClaims : Option (BitVec 32)

/-- A claim in the result of the tool. -/
structure Claim where
  txHash : String
  powSolution : U128
  confirmed : Bool
  confirmation : String
  balanceAfter : U128

/-- What the tool returns when it has made its claims. -/
structure FaucetResult where
  ok : Bool
  initTxHash : Option String
  accountId : AccountId
  claims : List Claim
  startBalance : U128
  finalBalance : U128
  targetBalance : Option U128
  targetReached : Option Bool
  warning : Option String

/-- `CallToolResult` of `lez_faucet_claim`. -/
inductive FaucetAnswer where
  | claimed (result : FaucetResult)
  /-- `tool_fail`. -/
  | failed (error : String)
  | accountUninitialized (accountId : AccountId)
  | writesDisabled (fingerprint : String)

/-- What the write tools ask of their environment. -/
inductive WriteOp where
  /-- An operation of `lez_transfer`. -/
  | tool (op : Op)
  /-- The guard of `signed_write_lock` is dropped. -/
  | dropSignedWrite
  | lockClaim
  /-- The guard of `claim_lock` is dropped. -/
  | dropClaim
  /-- `faucet::solve_claim`. -/
  | solveClaim (winner : AccountId)
  /-- `faucet::submit_solved_claim`. -/
  | submitClaim (solved : SolvedClaim)
  /-- `Ctx::confirm_submitted_tx`, falling back to the seed. -/
  | confirmClaim (txHash : String) (solvedSeed : Bytes32)
  /-- The result goes back to the caller. -/
  | answer (result : FaucetAnswer)

/-- The type of the answer to an operation. -/
@[reducible] def WriteAnswer : WriteOp → Type
  | .tool op => Answer op
  | .solveClaim _ => Except String SolvedClaim
  | .submitClaim _ => Except String String
  | .confirmClaim .. => Except String (Bool × String)
  | .dropSignedWrite | .lockClaim | .dropClaim | .answer _ => Unit

/-- The interface of the write tools. -/
abbrev writes : Interface := ⟨WriteOp, WriteAnswer⟩

/-- `lez_transfer` among the write tools. -/
def ofTool : Embedding interface writes := ⟨.tool, fun _ answer => answer⟩

/-- A part of the faucet tool that may return early. -/
abbrev Faucet (α : Type) := ExceptT FaucetAnswer (Program writes) α

/-- Perform an operation in the faucet tool. -/
abbrev write (op : WriteOp) : Faucet (WriteAnswer op) := Program.request (I := writes) op

/-- `tool_fail`. -/
def fail {α : Type} (error : String) : Faucet α := throw (.failed error)

/-- Continue with a value, or fail with its error. -/
def orFail {α : Type} (message : String → String) : Except String α → Faucet α
  | .ok value => return value
  | .error e => fail (message e)

/-- What `Ctx::balance_of` fails with: its client, if there is one, wraps the error. -/
def balanceError (ctx : Ctx) (e : String) : String :=
  match ctx.signer with
  | some _ => (SwapError.LezSequencer s!"get_account_balance failed: {e}").toString
  | none => s!"get_account_balance failed: {e}"

/-- `initialize_signer_account` under its lock, and what it fails with. -/
def initializeUnderLock (ctx : Ctx) (signer : AccountId) : Faucet String := do
  let _ ← write (.tool .lockSignedWrite)
  match ← write (.tool .ensureFreshWriteGate) with
  | .error fingerprint =>
      let _ ← write .dropSignedWrite
      throw (.writesDisabled fingerprint)
  | .ok () =>
      let outcome ← ExceptT.lift ((initializeSignerAccount ctx signer).run.embed ofTool)
      let _ ← write .dropSignedWrite
      match outcome with
      | .ok txHash => return txHash
      | .error (.refused refusal) => fail refusal.error
      | .error _ => fail "account initialization failed"

/-- The account the claims are for exists, or is initialized if it is the signer's. -/
def ensureAccount (ctx : Ctx) (accountId : AccountId) : Faucet (Option String) := do
  let account ← orFail (fun e => s!"get_account failed: {e}")
    (← write (.tool (.getAccount accountId)))
  if account ≠ .default then
    return none
  else if ctx.signer = some accountId then
    return some (← initializeUnderLock ctx accountId)
  else throw (.accountUninitialized accountId)

/-- One claim under `claim_lock`: nothing when the target is reached, or what became of it. -/
def claimOnce (accountId : AccountId) (target : Option U128) (balance : U128) :
    Faucet (U128 × Option (Except String (SolvedClaim × String × Bool × String))) := do
  let _ ← write .lockClaim
  let balance := match ← write (.tool (.getAccountBalance accountId)) with
    | .ok current => current
    | .error _ => balance
  if target.any (· ≤ balance) then
    let _ ← write .dropClaim
    return (balance, none)
  match ← write (.solveClaim accountId) with
  | .error e =>
      let _ ← write .dropClaim
      return (balance, some (.error e))
  | .ok solved =>
      match ← write (.tool .ensureFreshWriteGate) with
      | .error fingerprint =>
          let _ ← write .dropClaim
          throw (.writesDisabled fingerprint)
      | .ok () =>
          match ← write (.submitClaim solved) with
          | .error e =>
              let _ ← write .dropClaim
              return (balance, some (.error s!"pinata claim submission failed: {e}"))
          | .ok txHash =>
              let outcome ← write (.confirmClaim txHash solved.seed)
              let _ ← write .dropClaim
              match outcome with
              | .error e => return (balance, some (.error e))
              | .ok (confirmed, confirmation) =>
                  return (balance, some (.ok (solved, txHash, confirmed, confirmation)))

/-- The claims: the balance, what has been claimed, and what cut the claims short. -/
def claimLoop (accountId : AccountId) (target : Option U128) :
    Nat → U128 → List Claim → Faucet (U128 × List Claim × Option String)
  | 0, balance, claims => return (balance, claims, none)
  | turns + 1, balance, claims => do
      if target.any (· ≤ balance) then
        return (balance, claims, none)
      match ← claimOnce accountId target balance with
      | (balance, none) => return (balance, claims, none)
      | (balance, some (.error e)) => return (balance, claims, some e)
      | (balance, some (.ok (solved, txHash, confirmed, confirmation))) =>
          let balance := match ← write (.tool (.getAccountBalance accountId)) with
            | .ok current => current
            | .error _ => balance
          let claims := claims ++ [⟨txHash, solved.solution, confirmed, confirmation, balance⟩]
          if !confirmed then
            return (balance, claims, some (s!"claim {txHash} not confirmed within 240s — it may " ++
              "still land; stopping"))
          if target.isNone then
            return (balance, claims, none)
          claimLoop accountId target turns balance claims

/-- `max_claims`, with its default, within its bounds. -/
def maxClaims (params : FaucetParams) : Nat :=
  max 1 (min ((params.maxClaims.map (·.toNat)).getD 10) MAX_FAUCET_CLAIMS)

/-- `LezMcp::lez_faucet_claim`. -/
def lezFaucetClaim (ctx : Ctx) (params : FaucetParams) : Faucet FaucetResult := do
  match ← write (.tool .ensureFreshWriteGate) with
  | .error fingerprint => throw (.writesDisabled fingerprint)
  | .ok () =>
  match ctx.base58.parse params.accountId, params.targetBalance.mapM parseU128 with
  | .error e, _ => fail s!"invalid account_id: {e.toString}"
  | .ok _, .error e => fail s!"invalid target_balance: {e}"
  | .ok accountId, .ok target =>
      let initTxHash ← ensureAccount ctx accountId
      let startBalance ← orFail (balanceError ctx) (← write (.tool (.getAccountBalance accountId)))
      let (balance, claims, incomplete) ←
        claimLoop accountId target (maxClaims params) startBalance []
      return {
        ok := incomplete.isNone
        initTxHash, accountId, claims, startBalance
        finalBalance := balance
        targetBalance := target
        targetReached := target.map (· ≤ balance)
        warning := incomplete }

/-- A call of `lez_faucet_claim`: its result, early or not, goes back to the caller. -/
def faucetCall (ctx : Ctx) (params : FaucetParams) : Program writes Unit := do
  let result : FaucetAnswer := match ← (lezFaucetClaim ctx params).run with
    | .ok result => .claimed result
    | .error answer => answer
  Program.perform (I := writes) (.answer result)

/-- A call of `lez_transfer`: the guard of its critical section is dropped before its result
goes back to the caller. -/
def transferCall (ctx : Ctx) (params : TransferParams) : Program writes Unit := do
  let outcome ← (lezTransfer ctx params).run.embed ofTool
  let _ ← Program.perform (I := writes) .dropSignedWrite
  match outcome with
  | .ok result | .error result => Program.perform (I := writes) (.tool (.respond result))

end AtomicSwaps.Mcp
