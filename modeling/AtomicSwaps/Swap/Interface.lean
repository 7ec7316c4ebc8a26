import AtomicSwaps.Cli.StateStore
import AtomicSwaps.Semantics.Interaction
import AtomicSwaps.Swap.Types

/-!
# What the swap flows ask of their environment

The chains' RPC calls, the clocks, the watchers' events, the journal and the operations
ledger, as the operations of an interactive program. A chain that answers with an error
answers with its text.
-/

namespace AtomicSwaps.Swap

open Semantics Cli
open Lez (AccountId HTLCInstruction)

/-- A transaction for the LEZ sequencer, signed by this party. -/
inductive LezTransaction where
  /-- An instruction of the HTLC program on this party's account and an escrow PDA. -/
  | htlc (escrowPda : AccountId) (nonces : List U128) (instruction : HTLCInstruction)
  /-- A transfer of the authenticated transfer program. -/
  | transfer (recipient : AccountId) (nonces : List U128) (amount : U128)
deriving DecidableEq

/-- A call of the EthHTLC contract, sent by this party. -/
inductive EthCall where
  | lock (hashlock : Bytes32) (timelock : U256) (recipient : Eth.Address)
      (takerLezAccount : Bytes32) (value : U256)
  | claim (swapId preimage : Bytes32)
  | refund (swapId : Bytes32)
deriving DecidableEq

/-- The receipt of a mined transaction. `status` is false when it reverted. -/
structure Receipt where
  transactionHash : Bytes32
  status : Bool
  logs : List Eth.Log

/-- What ends the wait for an ETH lock. -/
inductive EthSelect where
  | event (event : EthHtlcEvent)
  | timer
  | cancelled

/-- What ends the wait for an escrow transition. -/
inductive LezSelect where
  | event (event : LezHtlcEvent)
  | timer

/-- `FailureCode`. -/
inductive FailureCode where
  | EthClaimUnresolved
  | LezRefundUnresolved
  | PartialLockWedge
  | PreLockAbandoned
  | CorruptEntry
  | Other
deriving DecidableEq

/-- A call of the operations ledger. -/
inductive OpsCall where
  | accepted (hashlock swapId : String)
  | completed (hashlock : String)
  | refunded (hashlock : String)
  | failed (hashlock : String) (code : FailureCode)
deriving DecidableEq

inductive Op where
  | random
  | nowUnix
  | sleep
  /-- `Instant::now() >= deadline`. -/
  | deadlinePassed
  | cancelRequested
  | report (progress : SwapProgress)
  | lezConnect
  | getAccount (accountId : AccountId)
  | getAccountBalance (accountId : AccountId)
  | getAccountsNonces (accountId : AccountId)
  | sendTransaction (transaction : LezTransaction)
  | ethConnect
  | sendEth (call : EthCall)
  | getHTLC (swapId : Bytes32)
  /-- Wait for an ETH event, for at most this many seconds, or for the cancel flag. -/
  | selectEth (seconds : U64)
  /-- Wait for an event of the escrow watcher, for at most this many seconds. -/
  | selectLez (hashlock : Bytes32) (seconds : U64)
  /-- `StateStore::load`. -/
  | load
  | record (hashlock swapId : String)
  | markFunded (hashlock : String)
  | remove (hashlock : String)
  | quarantine (hashlock reason : String)
  | snapshot
  | contains (hashlock : String)
  | hasInFlight
  | ops (call : OpsCall)
  /-- Spawn `resume_swap` for an entry. -/
  | spawnResume (entry : InFlightSwap) (hashlock : Bytes32) (timelockMs : U64)
  /-- Wait for everything spawned. -/
  | joinResumed

/-- The type of the answer to an operation. -/
@[reducible] def Answer : Op → Type
  | .random => Bytes32
  | .nowUnix => U64
  | .deadlinePassed | .cancelRequested | .contains _ | .hasInFlight => Bool
  | .lezConnect | .ethConnect | .load => Except SwapError Unit
  | .getAccount _ => Except String (List UInt8)
  | .getAccountBalance _ => Except String U128
  | .getAccountsNonces _ => Except String (List U128)
  | .sendTransaction _ => Except String String
  | .sendEth _ => Except String Receipt
  | .getHTLC _ => Except String Eth.HTLC
  | .selectEth _ => EthSelect
  | .selectLez .. => LezSelect
  | .record .. => Except String Unit
  | .snapshot => List InFlightSwap
  | .sleep | .report _ | .markFunded _ | .remove _ | .quarantine .. | .ops _
  | .spawnResume .. | .joinResumed => Unit

/-- The interface of the swap flows. -/
abbrev interface : Interface := ⟨Op, Answer⟩

/-- A flow that cannot fail. -/
abbrev Task (α : Type) := Program interface α

/-- A flow that may return an error. -/
abbrev Flow (α : Type) := ExceptT SwapError (Program interface) α

/-- The exchanges of a flow. -/
abbrev Trace := History interface

/-- Perform an operation in a flow. -/
abbrev request (op : Op) : Flow (Answer op) := Program.request (I := interface) op

/-- Perform an operation in a task. -/
abbrev perform (op : Op) : Task (Answer op) := Program.perform (I := interface) op

/-- `progress::report`. -/
abbrev report (progress : SwapProgress) : Flow Unit := request (.report progress)

/-- `now_unix`. -/
abbrev nowUnix : Flow U64 := request .nowUnix

/-- `Instant::now() >= deadline`. -/
abbrev deadlinePassed : Flow Bool := request .deadlinePassed

end AtomicSwaps.Swap
