import AtomicSwaps.Lez.Escrow

/-!
# The LEZ HTLC program

`execute_lock`, `execute_claim` and `execute_refund` of the guest program. They
see the accounts of the transaction with their authorization flags and return
the accounts as they should be afterwards; a failed assertion is an error with
its message. The host's SHA-256 and the size limit of account data are
parameters, as neither is part of the repository.
-/

namespace AtomicSwaps.Lez

open Assert

/-- A program id of the LEZ runtime. -/
abbrev ProgramId := List.Vector UInt32 8

/-- The owner of accounts no program has claimed. -/
def DEFAULT_PROGRAM_ID : ProgramId := List.Vector.replicate 8 0

/-- A LEZ account. -/
structure Account where
  programOwner : ProgramId
  balance : U128
  data : List UInt8
  nonce : U128
deriving DecidableEq

/-- `Account::default()`. -/
def Account.default : Account where
  programOwner := DEFAULT_PROGRAM_ID
  balance := 0
  data := []
  nonce := 0

/-- An account as a program sees it. -/
structure AccountWithMetadata where
  account : Account
  isAuthorized : Bool
  accountId : AccountId
deriving DecidableEq

/-- A program's request to become the owner of an account. -/
inductive Claim where
  | Pda (seed : Bytes32)
deriving DecidableEq

/-- An account as a program leaves it. -/
structure AccountPostState where
  account : Account
  claim : Option Claim
deriving DecidableEq

/-- `AccountPostState::new`. -/
def AccountPostState.new (account : Account) : AccountPostState := ⟨account, none⟩

/-- `AccountPostState::new_claimed`. -/
def AccountPostState.newClaimed (account : Account) (claim : Claim) : AccountPostState :=
  ⟨account, some claim⟩

/-- What the program takes from its host. -/
structure Host where
  sha256 : List UInt8 → Bytes32
  dataMax : Nat

/-- `bytes.try_into().expect("escrow data fits in Data")`. -/
def toData (host : Host) (bytes : List UInt8) : Except String (List UInt8) := do
  assert (bytes.length ≤ host.dataMax) "escrow data fits in Data"
  return bytes

/-- `execute_lock`. -/
def executeLock (host : Host) (preStates : List AccountWithMetadata) (hashlock : Bytes32)
    (takerId : AccountId) (amount : U128) (timelock : U64) :
    Except String (List AccountPostState) :=
  match preStates with
  | [maker, escrowPda] => do
      assert (maker.isAuthorized = true) "maker must be authorized"
      assert (maker.accountId ≠ takerId) "maker and taker must differ"
      assert (escrowPda.account = Account.default) "escrow PDA must be uninitialized"
      let escrow : HTLCEscrow := {
        hashlock, makerId := maker.accountId, takerId, amount, state := .Locked, timelock,
        preimage := none }
      let data ← toData host escrow.toBytes
      return [AccountPostState.new maker.account,
        AccountPostState.newClaimed { escrowPda.account with data } (.Pda hashlock)]
  | _ => .error "lock requires 2 accounts: [maker, escrow]"

/-- `execute_claim`. -/
def executeClaim (host : Host) (preStates : List AccountWithMetadata)
    (preimage : List UInt8) : Except String (List AccountPostState) :=
  match preStates with
  | [taker, escrowPda] => do
      assert (preimage.length = 32) "preimage must be exactly 32 bytes"
      assert (taker.isAuthorized = true) "taker must be authorized"
      let escrow ← HTLCEscrow.fromBytes escrowPda.account.data
      assert (escrow.state = .Locked) "escrow must be Locked"
      assert (taker.accountId = escrow.takerId) "only designated taker can claim"
      assert (host.sha256 preimage = escrow.hashlock) "invalid preimage"
      assert (escrow.amount ≤ escrowPda.account.balance) "escrow balance insufficient for claim"
      let data ← toData host
        { escrow with state := .Claimed, preimage := some preimage }.toBytes
      return [AccountPostState.new
          { taker.account with balance := taker.account.balance + escrow.amount },
        AccountPostState.new { escrowPda.account with
          balance := escrowPda.account.balance - escrow.amount, data }]
  | _ => .error "claim requires 2 accounts: [taker, escrow]"

/-- `execute_refund`; the timelock becomes the start of the validity window. -/
def executeRefund (host : Host) (preStates : List AccountWithMetadata) :
    Except String (List AccountPostState × U64) :=
  match preStates with
  | [maker, escrowPda] => do
      assert (maker.isAuthorized = true) "maker must be authorized"
      let escrow ← HTLCEscrow.fromBytes escrowPda.account.data
      assert (escrow.state = .Locked) "escrow must be Locked"
      assert (maker.accountId = escrow.makerId) "only maker can refund"
      assert (escrow.amount ≤ escrowPda.account.balance) "escrow balance insufficient for refund"
      let data ← toData host { escrow with state := .Refunded }.toBytes
      return ([AccountPostState.new
          { maker.account with balance := maker.account.balance + escrow.amount },
        AccountPostState.new { escrowPda.account with
          balance := escrowPda.account.balance - escrow.amount, data }], escrow.timelock)
  | _ => .error "refund requires 2 accounts: [maker, escrow]"

/-- `main`: the post states and, for a refund, the earliest timestamp it is valid at. -/
def main (host : Host) (preStates : List AccountWithMetadata) (instruction : HTLCInstruction) :
    Except String (List AccountPostState × Option U64) :=
  match instruction with
  | .Lock hashlock takerId amount timelock => do
      let postStates ← executeLock host preStates hashlock takerId amount timelock
      return (postStates, none)
  | .Claim preimage => do
      let postStates ← executeClaim host preStates preimage
      return (postStates, none)
  | .Refund => do
      let (postStates, timelock) ← executeRefund host preStates
      return (postStates, some timelock)

/-- The escrow a `Lock` stores. -/
def lockedEscrow (makerId : AccountId) (hashlock : Bytes32) (takerId : AccountId)
    (amount : U128) (timelock : U64) : HTLCEscrow where
  hashlock
  makerId
  takerId
  amount
  state := .Locked
  timelock
  preimage := none

variable {host : Host} {preStates : List AccountWithMetadata} {hashlock : Bytes32}
  {takerId : AccountId} {amount : U128} {timelock : U64} {preimage : List UInt8}
  {posts : List AccountPostState}

@[simp] theorem toData_eq_ok {bytes data : List UInt8} :
    toData host bytes = .ok data ↔ bytes.length ≤ host.dataMax ∧ bytes = data := by
  simp only [toData, bind_eq_ok, assert_eq_ok, pure_eq_ok, exists_const]

/-- A `Lock` that returns writes a fresh escrow into an uninitialized account. -/
theorem executeLock_ok {maker escrowPda : AccountWithMetadata} :
    executeLock host [maker, escrowPda] hashlock takerId amount timelock = .ok posts ↔
      maker.isAuthorized = true ∧ maker.accountId ≠ takerId ∧
      escrowPda.account = Account.default ∧
      (lockedEscrow maker.accountId hashlock takerId amount timelock).toBytes.length ≤
        host.dataMax ∧
      posts = [AccountPostState.new maker.account,
        AccountPostState.newClaimed { escrowPda.account with
          data := (lockedEscrow maker.accountId hashlock takerId amount timelock).toBytes }
          (.Pda hashlock)] := by
  simp only [executeLock, bind_eq_ok, assert_eq_ok, exists_const, toData_eq_ok, pure_eq_ok]
  constructor
  · rintro ⟨authorized, differ, uninitialized, data, ⟨fits, rfl⟩, rfl⟩
    exact ⟨authorized, differ, uninitialized, fits, rfl⟩
  · rintro ⟨authorized, differ, uninitialized, fits, rfl⟩
    exact ⟨authorized, differ, uninitialized, _, ⟨fits, rfl⟩, rfl⟩

/-- A `Claim` that returns was for a locked escrow, by its taker, with the preimage. -/
theorem executeClaim_ok {taker escrowPda : AccountWithMetadata} :
    executeClaim host [taker, escrowPda] preimage = .ok posts ↔
      ∃ escrow, HTLCEscrow.fromBytes escrowPda.account.data = .ok escrow ∧
        preimage.length = 32 ∧ taker.isAuthorized = true ∧ escrow.state = .Locked ∧
        taker.accountId = escrow.takerId ∧ host.sha256 preimage = escrow.hashlock ∧
        escrow.amount ≤ escrowPda.account.balance ∧
        { escrow with state := .Claimed, preimage := some preimage }.toBytes.length ≤
          host.dataMax ∧
        posts = [AccountPostState.new
            { taker.account with balance := taker.account.balance + escrow.amount },
          AccountPostState.new { escrowPda.account with
            balance := escrowPda.account.balance - escrow.amount
            data := { escrow with
              state := .Claimed, preimage := some preimage }.toBytes }] := by
  simp only [executeClaim, bind_eq_ok, assert_eq_ok, exists_const, toData_eq_ok, pure_eq_ok]
  constructor
  · rintro ⟨length, authorized, escrow, read, locked, designated, matching, covered, data,
      ⟨fits, rfl⟩, rfl⟩
    exact ⟨escrow, read, length, authorized, locked, designated, matching, covered, fits, rfl⟩
  · rintro ⟨escrow, read, length, authorized, locked, designated, matching, covered, fits, rfl⟩
    exact ⟨length, authorized, escrow, read, locked, designated, matching, covered, _,
      ⟨fits, rfl⟩, rfl⟩

/-- A `Refund` that returns was for a locked escrow, by its maker. -/
theorem executeRefund_ok {maker escrowPda : AccountWithMetadata} :
    executeRefund host [maker, escrowPda] = .ok (posts, timelock) ↔
      ∃ escrow, HTLCEscrow.fromBytes escrowPda.account.data = .ok escrow ∧
        maker.isAuthorized = true ∧ escrow.state = .Locked ∧
        maker.accountId = escrow.makerId ∧
        escrow.amount ≤ escrowPda.account.balance ∧
        { escrow with state := .Refunded }.toBytes.length ≤ host.dataMax ∧
        escrow.timelock = timelock ∧
        posts = [AccountPostState.new
            { maker.account with balance := maker.account.balance + escrow.amount },
          AccountPostState.new { escrowPda.account with
            balance := escrowPda.account.balance - escrow.amount
            data := { escrow with state := .Refunded }.toBytes }] := by
  simp only [executeRefund, bind_eq_ok, assert_eq_ok, exists_const, toData_eq_ok, pure_eq_ok,
    Prod.mk.injEq]
  constructor
  · rintro ⟨authorized, escrow, read, locked, owner, covered, data, ⟨fits, rfl⟩, rfl, rfl⟩
    exact ⟨escrow, read, authorized, locked, owner, covered, fits, rfl, rfl⟩
  · rintro ⟨escrow, read, authorized, locked, owner, covered, fits, rfl, rfl⟩
    exact ⟨authorized, escrow, read, locked, owner, covered, _, ⟨fits, rfl⟩, rfl, rfl⟩

/-- Every instruction takes exactly two accounts. -/
theorem main_two_accounts {instruction : HTLCInstruction} {window : Option U64}
    (returned : main host preStates instruction = .ok (posts, window)) :
    ∃ signer escrowPda, preStates = [signer, escrowPda] := by
  match preStates with
  | [signer, escrowPda] => exact ⟨signer, escrowPda, rfl⟩
  | [] | [_] | _ :: _ :: _ :: _ =>
      cases instruction <;>
        simp [main, executeLock, executeClaim, executeRefund, bind, Except.bind] at returned

end AtomicSwaps.Lez
