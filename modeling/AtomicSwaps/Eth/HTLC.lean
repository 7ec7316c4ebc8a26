import AtomicSwaps.Basic
import AtomicSwaps.Data.Assert
import AtomicSwaps.Data.LittleEndian

/-!
# The EthHTLC contract

`contracts/src/EthHTLC.sol` as functions on the contract's storage, balance and
emitted logs. `claim` and `refund` come to their external call and say what they make
of its `success`. What the receiver of the payout does meanwhile belongs to
`Eth.Reentrancy`.
-/

namespace AtomicSwaps.Eth

/-- A 20-byte account address. -/
abbrev Address := Bytes 20

inductive SwapState where
  | EMPTY
  | OPEN
  | CLAIMED
  | REFUNDED
deriving DecidableEq, Repr

/-- A stored swap. -/
structure HTLC where
  sender : Address
  recipient : Address
  amount : U256
  hashlock : Bytes32
  timelock : U256
  takerLezAccount : Bytes32
  state : SwapState
deriving DecidableEq

/-- What an unset mapping key reads as. -/
def HTLC.empty : HTLC where
  sender := Bytes.zero 20
  recipient := Bytes.zero 20
  amount := 0
  hashlock := Bytes.zero 32
  timelock := 0
  takerLezAccount := Bytes.zero 32
  state := .EMPTY

/-- The contract's logs. -/
inductive Log where
  | Locked (swapId : Bytes32) (sender recipient : Address) (amount : U256)
      (hashlock : Bytes32) (timelock : U256) (takerLezAccount : Bytes32)
  | Claimed (swapId preimage : Bytes32)
  | Refunded (swapId : Bytes32)
deriving DecidableEq

/-- The revert reasons; `Panic` is the checked addition in `lock`. -/
inductive Revert where
  | InvalidAmount
  | InvalidHashLock
  | InvalidTimelock
  | InvalidRecipient
  | InvalidTakerLezAccount
  | SwapAlreadyExists
  | SwapNotOpen
  | InvalidPreimage
  | TimelockNotExpired
  | NotRecipient
  | NotSender
  | TransferFailed
  | Panic
deriving DecidableEq, Repr

/-- The hash functions of the EVM, as the contract calls them. -/
structure Hashes where
  keccak256 : List UInt8 → Bytes32
  sha256 : List UInt8 → Bytes32

/-- The block a call executes in. -/
structure Block where
  timestamp : U256

/-- The caller and the value attached to a call. -/
structure Msg where
  sender : Address
  value : U256 := 0

/-- The contract account: storage, immutable, balance in wei and emitted logs. -/
structure Contract where
  minTimelockDelta : U256
  htlcs : Bytes32 → HTLC
  balance : Nat
  logs : List Log

/-- The account right after deployment; it may have been sent ether before. -/
def Contract.deploy (minTimelockDelta : U256) (balance : Nat) : Contract where
  minTimelockDelta
  htlcs _ := HTLC.empty
  balance
  logs := []

/-- `htlcs[swapId] = htlc`. -/
def Contract.setHTLC (contract : Contract) (swapId : Bytes32) (htlc : HTLC) : Contract :=
  { contract with htlcs := Function.update contract.htlcs swapId htlc }

/-- `emit log`. -/
def Contract.emit (contract : Contract) (log : Log) : Contract :=
  { contract with logs := contract.logs ++ [log] }

/-- Value received, with a call or by force. -/
def Contract.receive (contract : Contract) (value : Nat) : Contract :=
  { contract with balance := contract.balance + value }

/-- The value of `call{value: amount}` leaves the account, if it is there. -/
def Contract.send (contract : Contract) (amount : U256) : Option Contract :=
  if amount.toNat ≤ contract.balance then
    some { contract with balance := contract.balance - amount.toNat }
  else none

/-- `payee.call{value: value}("")`: the contract that makes the call, and how it goes on with
`success` in the contract it then finds. -/
structure ExternalCall where
  contract : Contract
  payee : Address
  value : U256
  resume : Bool → Contract → Except Revert Contract

/-- `if (!success) revert TransferFailed();` -/
def checkSuccess (success : Bool) (contract : Contract) : Except Revert Contract :=
  if !success then .error .TransferFailed else .ok contract

/-- What comes of an external call whose receiver does nothing. Without the value there is no
call, and it has no success. -/
def ExternalCall.accepted (external : ExternalCall) : Except Revert Contract :=
  match external.contract.send external.value with
  | some paid => external.resume true paid
  | none => external.resume false external.contract

/-- `abi.encodePacked` of a `uint256`: 32 bytes, most significant first. -/
def packUint256 (value : U256) : List UInt8 := (LittleEndian.encode 32 value.toNat).reverse

/-- `keccak256(abi.encodePacked(sender, recipient, value, hashlock, timelock, takerLezAccount))`. -/
def swapIdOf (hashes : Hashes) (sender recipient : Address) (value : U256)
    (hashlock : Bytes32) (timelock : U256) (takerLezAccount : Bytes32) : Bytes32 :=
  hashes.keccak256 (sender.toList ++ recipient.toList ++ packUint256 value ++
    hashlock.toList ++ packUint256 timelock ++ takerLezAccount.toList)

/-- The swap a `lock` call stores. -/
def lockedHTLC (msg : Msg) (hashlock : Bytes32) (timelock : U256) (recipient : Address)
    (takerLezAccount : Bytes32) : HTLC where
  sender := msg.sender
  recipient
  amount := msg.value
  hashlock
  timelock
  takerLezAccount
  state := .OPEN

/-- `EthHTLC.lock`. The attached value is on the account before the body runs. -/
def lock (hashes : Hashes) (block : Block) (msg : Msg) (hashlock : Bytes32) (timelock : U256)
    (recipient : Address) (takerLezAccount : Bytes32) (contract : Contract) :
    Except Revert Contract :=
  let swapId := swapIdOf hashes msg.sender recipient msg.value hashlock timelock takerLezAccount
  if msg.value = 0 then .error .InvalidAmount
  else if 2 ^ 256 ≤ block.timestamp.toNat + contract.minTimelockDelta.toNat then .error .Panic
  else if timelock ≤ block.timestamp + contract.minTimelockDelta then .error .InvalidTimelock
  else if recipient = Bytes.zero 20 then .error .InvalidRecipient
  else if hashlock = Bytes.zero 32 then .error .InvalidHashLock
  else if takerLezAccount = Bytes.zero 32 then .error .InvalidTakerLezAccount
  else if (contract.htlcs swapId).state ≠ .EMPTY then .error .SwapAlreadyExists
  else .ok <| (((contract.receive msg.value.toNat).setHTLC swapId
      (lockedHTLC msg hashlock timelock recipient takerLezAccount)).emit
      (.Locked swapId msg.sender recipient msg.value hashlock timelock takerLezAccount))

/-- `EthHTLC.claim`. Not payable, so `sender` is all it sees of `msg`. -/
def claim (hashes : Hashes) (sender : Address) (swapId preimage : Bytes32) (contract : Contract) :
    Except Revert ExternalCall :=
  let htlc := contract.htlcs swapId
  if htlc.state ≠ .OPEN then .error .SwapNotOpen
  else if sender ≠ htlc.recipient then .error .NotRecipient
  else if hashes.sha256 preimage.toList ≠ htlc.hashlock then .error .InvalidPreimage
  else .ok {
    contract := (contract.setHTLC swapId { htlc with state := .CLAIMED }).emit
      (.Claimed swapId preimage)
    payee := htlc.recipient
    value := htlc.amount
    resume := checkSuccess }

/-- `EthHTLC.refund`. Not payable either. -/
def refund (block : Block) (sender : Address) (swapId : Bytes32) (contract : Contract) :
    Except Revert ExternalCall :=
  let htlc := contract.htlcs swapId
  if htlc.state ≠ .OPEN then .error .SwapNotOpen
  else if block.timestamp < htlc.timelock then .error .TimelockNotExpired
  else if sender ≠ htlc.sender then .error .NotSender
  else .ok {
    contract := (contract.setHTLC swapId { htlc with state := .REFUNDED }).emit
      (.Refunded swapId)
    payee := htlc.sender
    value := htlc.amount
    resume := checkSuccess }

/-- `EthHTLC.getHTLC`. -/
def getHTLC (swapId : Bytes32) (contract : Contract) : HTLC := contract.htlcs swapId

section Accessors

variable (contract : Contract) (swapId : Bytes32) (htlc : HTLC) (log : Log) (value : Nat)

@[simp] theorem Contract.htlcs_setHTLC :
    (contract.setHTLC swapId htlc).htlcs = Function.update contract.htlcs swapId htlc := rfl

@[simp] theorem Contract.balance_setHTLC :
    (contract.setHTLC swapId htlc).balance = contract.balance := rfl

@[simp] theorem Contract.logs_setHTLC :
    (contract.setHTLC swapId htlc).logs = contract.logs := rfl

@[simp] theorem Contract.htlcs_emit : (contract.emit log).htlcs = contract.htlcs := rfl

@[simp] theorem Contract.balance_emit : (contract.emit log).balance = contract.balance := rfl

@[simp] theorem Contract.logs_emit : (contract.emit log).logs = contract.logs ++ [log] := rfl

@[simp] theorem Contract.htlcs_receive : (contract.receive value).htlcs = contract.htlcs := rfl

@[simp] theorem Contract.balance_receive :
    (contract.receive value).balance = contract.balance + value := rfl

@[simp] theorem Contract.logs_receive : (contract.receive value).logs = contract.logs := rfl

end Accessors

theorem Contract.send_some {contract paid : Contract} {amount : U256} :
    contract.send amount = some paid ↔
      amount.toNat ≤ contract.balance ∧
        paid = { contract with balance := contract.balance - amount.toNat } := by
  unfold Contract.send
  split
  · rename_i covered
    simp [covered, eq_comm]
  · rename_i short
    simp [short]

@[simp] theorem checkSuccess_true (contract : Contract) : checkSuccess true contract = .ok contract := rfl

@[simp] theorem checkSuccess_false (contract : Contract) :
    checkSuccess false contract = .error .TransferFailed := rfl

/-- What a successful `lock` checked and wrote. -/
structure LockEffect (hashes : Hashes) (block : Block) (msg : Msg) (hashlock : Bytes32)
    (timelock : U256) (recipient : Address) (takerLezAccount : Bytes32)
    (before after : Contract) : Prop where
  valued : msg.value ≠ 0
  noPanic : block.timestamp.toNat + before.minTimelockDelta.toNat < 2 ^ 256
  late : block.timestamp + before.minTimelockDelta < timelock
  recipientSet : recipient ≠ Bytes.zero 20
  hashlockSet : hashlock ≠ Bytes.zero 32
  accountSet : takerLezAccount ≠ Bytes.zero 32
  fresh : (before.htlcs (swapIdOf hashes msg.sender recipient msg.value hashlock timelock
    takerLezAccount)).state = .EMPTY
  after : after = (((before.receive msg.value.toNat).setHTLC
    (swapIdOf hashes msg.sender recipient msg.value hashlock timelock takerLezAccount)
    (lockedHTLC msg hashlock timelock recipient takerLezAccount)).emit
    (.Locked (swapIdOf hashes msg.sender recipient msg.value hashlock timelock takerLezAccount)
      msg.sender recipient msg.value hashlock timelock takerLezAccount))

theorem lock_ok {hashes : Hashes} {block : Block} {msg : Msg} {hashlock : Bytes32}
    {timelock : U256} {recipient : Address} {takerLezAccount : Bytes32}
    {before after : Contract} :
    lock hashes block msg hashlock timelock recipient takerLezAccount before = .ok after ↔
      LockEffect hashes block msg hashlock timelock recipient takerLezAccount before after := by
  constructor
  · intro result
    simp only [lock] at result
    split at result; · cases result
    split at result; · cases result
    split at result; · cases result
    split at result; · cases result
    split at result; · cases result
    split at result; · cases result
    split at result; · cases result
    rename_i valued noPanic late recipientSet hashlockSet accountSet fresh
    exact ⟨valued, by omega, BitVec.not_le.mp late, recipientSet, hashlockSet, accountSet,
      not_not.mp fresh, by simpa using result.symm⟩
  · rintro ⟨valued, noPanic, late, recipientSet, hashlockSet, accountSet, fresh, rfl⟩
    have noPanic' : ¬ 2 ^ 256 ≤ block.timestamp.toNat + before.minTimelockDelta.toNat := by omega
    simp only [lock, valued, noPanic', BitVec.not_le.mpr late, recipientSet, hashlockSet,
      accountSet, fresh, if_false, ne_eq, not_true_eq_false]

/-- A payout: the swap is settled and logged before its amount is sent to the payee. -/
def Contract.settle (contract : Contract) (swapId : Bytes32) (state : SwapState) (log : Log)
    (payee : Address) : ExternalCall where
  contract := (contract.setHTLC swapId { contract.htlcs swapId with state }).emit log
  payee
  value := (contract.htlcs swapId).amount
  resume := checkSuccess

/-- What a payout that has been sent checked and wrote: the swap was open, its
state is now `state`, `log` is emitted and the amount has left the account. -/
structure PayoutEffect (swapId : Bytes32) (state : SwapState) (log : Log)
    (before after : Contract) : Prop where
  opened : (before.htlcs swapId).state = .OPEN
  covered : (before.htlcs swapId).amount.toNat ≤ before.balance
  after : after = { ((before.setHTLC swapId { before.htlcs swapId with state }).emit log) with
    balance := before.balance - (before.htlcs swapId).amount.toNat }

section Payouts

variable {hashes : Hashes} {block : Block} {sender payee : Address} {swapId preimage : Bytes32}
  {state : SwapState} {log : Log} {before after : Contract} {external : ExternalCall}

theorem claim_ok :
    claim hashes sender swapId preimage before = .ok external ↔
      (before.htlcs swapId).state = .OPEN ∧ sender = (before.htlcs swapId).recipient ∧
        hashes.sha256 preimage.toList = (before.htlcs swapId).hashlock ∧
        external = before.settle swapId .CLAIMED (.Claimed swapId preimage)
          (before.htlcs swapId).recipient := by
  constructor
  · intro result
    simp only [claim] at result
    split at result; · cases result
    split at result; · cases result
    split at result; · cases result
    rename_i opened recipient matching
    exact ⟨not_not.mp opened, not_not.mp recipient, not_not.mp matching, (Except.ok.inj result).symm⟩
  · rintro ⟨opened, recipient, matching, rfl⟩
    simp only [claim, opened, recipient, matching, ne_eq, not_true_eq_false, if_false]
    rfl

theorem refund_ok :
    refund block sender swapId before = .ok external ↔
      (before.htlcs swapId).state = .OPEN ∧ (before.htlcs swapId).timelock ≤ block.timestamp ∧
        sender = (before.htlcs swapId).sender ∧
        external = before.settle swapId .REFUNDED (.Refunded swapId) (before.htlcs swapId).sender := by
  constructor
  · intro result
    simp only [refund] at result
    split at result; · cases result
    split at result; · cases result
    split at result; · cases result
    rename_i opened expired owner
    exact ⟨not_not.mp opened, BitVec.not_lt.mp expired, not_not.mp owner, (Except.ok.inj result).symm⟩
  · rintro ⟨opened, expired, owner, rfl⟩
    simp only [refund, opened, owner, BitVec.not_lt.mpr expired, ne_eq, not_true_eq_false, if_false]
    rfl

/-- The payout of an open swap is sent when the account holds its amount. -/
theorem settle_sent (opened : (before.htlcs swapId).state = .OPEN) :
    (before.settle swapId state log payee).contract.send
        (before.settle swapId state log payee).value = some after ↔
      PayoutEffect swapId state log before after := by
  rw [Contract.send_some]
  exact ⟨fun sent => ⟨opened, sent.1, sent.2⟩, fun effect => ⟨effect.covered, effect.after⟩⟩

/-- A receiver that does nothing lets the payout through; without the amount it fails. -/
theorem settle_accepted (opened : (before.htlcs swapId).state = .OPEN) :
    (before.settle swapId state log payee).accepted = .ok after ↔
      PayoutEffect swapId state log before after := by
  rw [← settle_sent opened, ExternalCall.accepted]
  cases (before.settle swapId state log payee).contract.send
    (before.settle swapId state log payee).value with
  | none => exact ⟨nofun, nofun⟩
  | some paid => simp [Contract.settle]

theorem claim_accepted :
    claim hashes sender swapId preimage before >>= ExternalCall.accepted = .ok after ↔
      PayoutEffect swapId .CLAIMED (.Claimed swapId preimage) before after ∧
        sender = (before.htlcs swapId).recipient ∧
        hashes.sha256 preimage.toList = (before.htlcs swapId).hashlock := by
  constructor
  · intro result
    obtain ⟨external, called, accepted⟩ := Assert.bind_eq_ok.mp result
    obtain ⟨opened, recipient, matching, rfl⟩ := claim_ok.mp called
    exact ⟨(settle_accepted opened).mp accepted, recipient, matching⟩
  · rintro ⟨effect, recipient, matching⟩
    exact Assert.bind_eq_ok.mpr ⟨_, claim_ok.mpr ⟨effect.opened, recipient, matching, rfl⟩,
      (settle_accepted effect.opened).mpr effect⟩

end Payouts

end AtomicSwaps.Eth
