import AtomicSwaps.Data.Total
import AtomicSwaps.Lez.Program
import Mathlib.Data.List.Forall2
import Mathlib.Data.Set.Function

/-!
# The LEZ runtime around the program

What the HTLC program relies on: only a program can debit or rewrite the accounts
it owns, `Claim::Pda(seed)` is honoured for the account whose id is the PDA of the
program and the seed and for no other, authorization flags are truthful, and the
timestamp validity window is enforced. Everything other programs and users may do
under these rules is one `Foreign` change.
-/

namespace AtomicSwaps.Lez

/-- The runtime the program is deployed on. -/
structure Runtime extends Host where
  programId : ProgramId
  programId_ne_default : programId ≠ DEFAULT_PROGRAM_ID
  /-- `AccountId::for_public_pda(&program_id, &PdaSeed::new(seed))`. -/
  pda : Bytes32 → AccountId
  /-- The seeds that anybody comes up with; their PDAs do not collide. -/
  seeds : Set Bytes32
  pda_injOn : Set.InjOn pda seeds
  /-- A header and a 32-byte preimage fit into account data. -/
  dataFits : 157 ≤ dataMax

/-- All accounts of the chain. The token supply fits the balance type. -/
structure Ledger where
  account : AccountId → Account
  supply : Total.total (fun id => (account id).balance.toNat) < 2 ^ 128

/-- What all accounts hold together. -/
noncomputable def Ledger.total (ledger : Ledger) : Nat :=
  Total.total fun id => (ledger.account id).balance.toNat

/-- A call of the HTLC program. -/
structure Transaction where
  accounts : List AccountId
  signers : List AccountId
  instruction : HTLCInstruction

/-- The accounts of a transaction as the program sees them. -/
def preStates (ledger : Ledger) (transaction : Transaction) : List AccountWithMetadata :=
  transaction.accounts.map fun accountId => {
    account := ledger.account accountId
    isAuthorized := accountId ∈ transaction.signers
    accountId }

/-- Whether the runtime lets the program leave an account so. -/
def Permitted (runtime : Runtime) (pre : AccountWithMetadata) (post : AccountPostState) : Prop :=
  match post.claim with
  | some (.Pda seed) =>
      pre.account.programOwner = DEFAULT_PROGRAM_ID ∧ pre.accountId = runtime.pda seed
  | none =>
      pre.account.programOwner = runtime.programId ∨
        post.account.data = pre.account.data ∧ pre.account.balance ≤ post.account.balance

/-- The account the runtime stores: a granted claim makes the program its owner. -/
def AccountPostState.settled (runtime : Runtime) (post : AccountPostState) : Account :=
  match post.claim with
  | some _ => { post.account with programOwner := runtime.programId }
  | none => post.account

/-- The accounts after the post states are stored in order. -/
def store (runtime : Runtime) :
    List AccountId → List AccountPostState → (AccountId → Account) → AccountId → Account
  | id :: ids, post :: posts, accounts =>
      store runtime ids posts (Function.update accounts id (post.settled runtime))
  | _, _, accounts => accounts

/-- An execution of the program that the runtime accepts in a block. -/
structure Executes (runtime : Runtime) (timestamp : U64) (transaction : Transaction)
    (before after : Ledger) : Prop where
  /-- Nobody can sign for a PDA of the program. -/
  truthful : ∀ signer ∈ transaction.signers, ∀ seed ∈ runtime.seeds, signer ≠ runtime.pda seed
  seeded : ∀ hashlock takerId amount timelock,
    transaction.instruction = .Lock hashlock takerId amount timelock → hashlock ∈ runtime.seeds
  accepted : ∃ posts window,
    main runtime.toHost (preStates before transaction) transaction.instruction =
      .ok (posts, window) ∧
    (∀ start, window = some start → start ≤ timestamp) ∧
    List.Forall₂ (Permitted runtime) (preStates before transaction) posts ∧
    after.account = store runtime transaction.accounts posts before.account

/-- Any change that does not involve the program: its accounts keep owner and data
and may only be paid into, and it gains no account. -/
def Foreign (runtime : Runtime) (before after : Ledger) : Prop :=
  ∀ id,
    if (before.account id).programOwner = runtime.programId then
      (after.account id).programOwner = runtime.programId ∧
        (after.account id).data = (before.account id).data ∧
        (before.account id).balance ≤ (after.account id).balance
    else (after.account id).programOwner ≠ runtime.programId

/-- An event on the chain. -/
inductive Event where
  | execute (timestamp : U64) (transaction : Transaction)
  | foreign

/-- One event's effect. -/
inductive Step (runtime : Runtime) (before : Ledger) : Event → Ledger → Prop where
  | execute {timestamp : U64} {transaction : Transaction} {after : Ledger}
      (executes : Executes runtime timestamp transaction before after) :
      Step runtime before (.execute timestamp transaction) after
  | foreign {after : Ledger} (change : Foreign runtime before after) :
      Step runtime before .foreign after

/-- Before the program runs it owns nothing. -/
def Unused (runtime : Runtime) (ledger : Ledger) : Prop :=
  ∀ id, (ledger.account id).programOwner ≠ runtime.programId

/-- The program owns nothing but its PDAs. -/
def OwnsPdas (runtime : Runtime) (ledger : Ledger) : Prop :=
  ∀ id, (ledger.account id).programOwner = runtime.programId →
    ∃ seed ∈ runtime.seeds, id = runtime.pda seed

/-- What an escrow fixes for its whole life, apart from its hashlock. -/
structure Terms where
  makerId : AccountId
  takerId : AccountId
  amount : U128
  timelock : U64
deriving DecidableEq

/-- The escrow with these terms. -/
def Terms.escrow (terms : Terms) (hashlock : Bytes32) (state : HTLCState)
    (preimage : Option (List UInt8)) : HTLCEscrow where
  hashlock
  makerId := terms.makerId
  takerId := terms.takerId
  amount := terms.amount
  state
  timelock := terms.timelock
  preimage

/-- The terms an escrow was written with. -/
def HTLCEscrow.terms (escrow : HTLCEscrow) : Terms where
  makerId := escrow.makerId
  takerId := escrow.takerId
  amount := escrow.amount
  timelock := escrow.timelock

/-- `amount` moves from one account to another and nothing else changes hands. -/
structure Transfer (before after : AccountId → Account) (source target : AccountId)
    (amount : U128) : Prop where
  distinct : source ≠ target
  debit : (before source).balance.toNat = (after source).balance.toNat + amount.toNat
  credit : (after target).balance.toNat = (before target).balance.toNat + amount.toNat
  others : ∀ id, id ≠ source → id ≠ target → after id = before id

/-- A transfer keeps the total. -/
theorem Transfer.total {before after : AccountId → Account} {source target : AccountId}
    {amount : U128} (transfer : Transfer before after source target amount) :
    Total.total (fun id => (after id).balance.toNat) =
      Total.total fun id => (before id).balance.toNat := by
  have moved := Total.total_two (fun id => (before id).balance.toNat)
    (fun id => (after id).balance.toNat) transfer.distinct
    (fun other notSource notTarget => by rw [transfer.others other notSource notTarget])
  have debit := transfer.debit
  have credit := transfer.credit
  omega

/-- A transfer leads to another ledger. -/
def Transfer.ledger {before : Ledger} {after : AccountId → Account}
    {source target : AccountId} {amount : U128}
    (transfer : Transfer before.account after source target amount) : Ledger where
  account := after
  supply := transfer.total ▸ before.supply

/-- Crediting the target of a payout out of `source` cannot overflow. -/
theorem Ledger.credit_fits (ledger : Ledger) {source target : AccountId} {amount : U128}
    (distinct : source ≠ target) (covered : amount ≤ (ledger.account source).balance) :
    (ledger.account target).balance.toNat + amount.toNat < 2 ^ 128 := by
  have supply := ledger.supply
  have both := Total.add_le_total (fun id => (ledger.account id).balance.toNat) distinct
  have covered : amount.toNat ≤ (ledger.account source).balance.toNat := covered
  omega

/-- The accounts after `amount` is paid out of `source`, whose data becomes `data`. -/
def Ledger.payout (ledger : Ledger) (source target : AccountId) (amount : U128)
    (data : List UInt8) : AccountId → Account :=
  Function.update (Function.update ledger.account target
      { ledger.account target with balance := (ledger.account target).balance + amount })
    source { ledger.account source with
      balance := (ledger.account source).balance - amount, data }

/-- A covered payout is a transfer of the amount. -/
theorem Ledger.payout_transfer (ledger : Ledger) {source target : AccountId} {amount : U128}
    (data : List UInt8) (distinct : source ≠ target)
    (covered : amount ≤ (ledger.account source).balance) :
    Transfer ledger.account (ledger.payout source target amount data) source target amount := by
  have fits := ledger.credit_fits distinct covered
  have covered : amount.toNat ≤ (ledger.account source).balance.toNat := covered
  refine ⟨distinct, ?_, ?_, ?_⟩
  · simp only [Ledger.payout, Function.update_self, BitVec.toNat_sub_of_le covered]
    omega
  · simp only [Ledger.payout, Function.update_of_ne (Ne.symm distinct), Function.update_self,
      BitVec.toNat_add, Nat.mod_eq_of_lt fits]
  · intro id notSource notTarget
    simp only [Ledger.payout, Function.update_of_ne notSource, Function.update_of_ne notTarget]

end AtomicSwaps.Lez
