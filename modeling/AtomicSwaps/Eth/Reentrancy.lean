import AtomicSwaps.Data.Total
import AtomicSwaps.Eth.HTLC
import AtomicSwaps.Semantics.Nested

/-!
# EthHTLC under reentrant calls

The contract as a protocol of nested calls: a payout hands control to its
receiver, which may call back into any function and succeed or fail, and the
contract goes on with the result. The store carries two ghosts next to the
contract, the payouts made and the value received, so that what was paid for a
swap can be counted.
-/

namespace AtomicSwaps.Eth

open Semantics Semantics.Nested

/-- What entitled the caller to a payout. -/
inductive Authority where
  | preimage (preimage : Bytes32)
  | expiry (timestamp : U256)
deriving DecidableEq

/-- Value sent out of the contract for a swap. -/
structure Payout where
  swapId : Bytes32
  payee : Address
  amount : U256
  caller : Address
  authority : Authority
deriving DecidableEq

/-- The contract with the payouts made and the wei received so far. -/
structure Store where
  contract : Contract
  payouts : List Payout
  received : Nat

/-- A freshly deployed contract. -/
def Store.deploy (minTimelockDelta : U256) (balance : Nat) : Store where
  contract := Contract.deploy minTimelockDelta balance
  payouts := []
  received := balance

/-- Anything that touches the contract. `deposit` is ether forced onto the account. -/
inductive Call where
  | lock (msg : Msg) (hashlock : Bytes32) (timelock : U256) (recipient : Address)
      (takerLezAccount : Bytes32)
  | claim (sender : Address) (swapId preimage : Bytes32)
  | refund (sender : Address) (swapId : Bytes32)
  | deposit (value : Nat)

/-- The payout an external call makes. -/
def ExternalCall.payout (external : ExternalCall) (swapId : Bytes32) (caller : Address)
    (authority : Authority) : Payout where
  swapId
  payee := external.payee
  amount := external.value
  caller
  authority

/-- An external call whose value is sent: when its receiver fails, the value is back. -/
def ExternalCall.callout (external : ExternalCall) (before : Store) (paid : Contract)
    (payout : Payout) : Callout Store where
  calling := { before with contract := external.contract }
  called := { before with contract := paid, payouts := before.payouts ++ [payout] }
  resume success store :=
    (external.resume success store.contract).toOption.map fun contract => { store with contract }

/-- A call whose external call fails at once, for want of its value, and which goes on. -/
def ExternalCall.unpaid (result : Except Revert ExternalCall) (before after : Store) : Prop :=
  ∃ external contract, result = .ok external ∧ external.contract.send external.value = none ∧
    external.resume false external.contract = .ok contract ∧ after = { before with contract }

/-- Calls that finish without handing control to anybody. -/
def completes (hashes : Hashes) (block : Block) (call : Call) (before after : Store) : Prop :=
  match call with
  | .lock msg hashlock timelock recipient takerLezAccount =>
      ∃ contract,
        lock hashes block msg hashlock timelock recipient takerLezAccount before.contract =
          .ok contract ∧
        after = { before with contract, received := before.received + msg.value.toNat }
  | .deposit value =>
      after = { before with
        contract := before.contract.receive value, received := before.received + value }
  | .claim sender swapId preimage =>
      ExternalCall.unpaid (claim hashes sender swapId preimage before.contract) before after
  | .refund sender swapId =>
      ExternalCall.unpaid (refund block sender swapId before.contract) before after

/-- Calls up to the point where foreign code runs, with what they make of its result. -/
def callsOut (hashes : Hashes) (block : Block) (call : Call) (before : Store)
    (callout : Callout Store) : Prop :=
  match call with
  | .claim sender swapId preimage =>
      ∃ external paid, claim hashes sender swapId preimage before.contract = .ok external ∧
        external.contract.send external.value = some paid ∧
        callout = external.callout before paid (external.payout swapId sender (.preimage preimage))
  | .refund sender swapId =>
      ∃ external paid, refund block sender swapId before.contract = .ok external ∧
        external.contract.send external.value = some paid ∧
        callout = external.callout before paid
          (external.payout swapId sender (.expiry block.timestamp))
  | .lock .. | .deposit .. => False

/-- The contract as a protocol of nested calls; `clock` says how block times move. -/
def protocol (hashes : Hashes) (clock : Block → Block → Prop) :
    Protocol Block Call Store where
  act := completes hashes
  calls := callsOut hashes
  advances := clock

/-- What a swap holds: its amount while it is open. -/
def openAmount (contract : Contract) (swapId : Bytes32) : Nat :=
  match (contract.htlcs swapId).state with
  | .OPEN => (contract.htlcs swapId).amount.toNat
  | .EMPTY | .CLAIMED | .REFUNDED => 0

/-- The account holds what the open swaps are worth. -/
def Solvent (contract : Contract) : Prop :=
  Total.total (openAmount contract) ≤ contract.balance

/-- The payouts made for one swap. -/
def Store.paidFor (store : Store) (swapId : Bytes32) : List Payout :=
  store.payouts.filter fun payout => payout.swapId = swapId

/-- The payouts that a swap in its current state must have had: none before it is
settled; one to the recipient, who called with a preimage of the hashlock, once
claimed; one to the sender, who called at or after the timelock, once refunded. -/
def PaidOnce (hashes : Hashes) (swapId : Bytes32) (htlc : HTLC) (payouts : List Payout) : Prop :=
  match htlc.state with
  | .EMPTY | .OPEN => payouts = []
  | .CLAIMED => ∃ preimage,
      hashes.sha256 preimage.toList = htlc.hashlock ∧
      payouts = [⟨swapId, htlc.recipient, htlc.amount, htlc.recipient, .preimage preimage⟩]
  | .REFUNDED => ∃ timestamp,
      htlc.timelock ≤ timestamp ∧
      payouts = [⟨swapId, htlc.sender, htlc.amount, htlc.sender, .expiry timestamp⟩]

/-- Every swap was paid as its state says. -/
def Accounted (hashes : Hashes) (store : Store) : Prop :=
  ∀ swapId, PaidOnce hashes swapId (store.contract.htlcs swapId) (store.paidFor swapId)

/-- The balance is what came in less what the payouts sent out. -/
def Balanced (store : Store) : Prop :=
  store.contract.balance + (store.payouts.map (·.amount.toNat)).sum = store.received

/-- The contract invariant. -/
structure Sound (hashes : Hashes) (store : Store) : Prop where
  solvent : Solvent store.contract
  accounted : Accounted hashes store
  balanced : Balanced store

/-- One move of one swap: none, a lock into an empty slot, or a settlement that
changes nothing but the state. -/
inductive Move (before : HTLC) : HTLC → Prop where
  | stay : Move before before
  | lock {after : HTLC} (empty : before.state = .EMPTY) (opened : after.state = .OPEN) :
      Move before after
  | claim (opened : before.state = .OPEN) : Move before { before with state := .CLAIMED }
  | refund (opened : before.state = .OPEN) : Move before { before with state := .REFUNDED }

/-- Any number of moves. -/
inductive Moves (before : HTLC) : HTLC → Prop where
  | none : Moves before before
  | more {current after : HTLC} (earlier : Moves before current) (last : Move current after) :
      Moves before after

/-- What calls may do to a store: each swap moves, and payouts are only added. -/
structure Evolves (before after : Store) : Prop where
  moves : ∀ swapId, Moves (before.contract.htlcs swapId) (after.contract.htlcs swapId)
  payouts : before.payouts <+: after.payouts

/-- A call up to its receiver settles one swap, with one payout of its amount. -/
structure Settlement (hashes : Hashes) (swapId : Bytes32) (state : SwapState)
    (payout : Payout) (before after : Store) : Prop where
  effect : ∃ log, PayoutEffect swapId state log before.contract after.contract
  settled : state = .CLAIMED ∨ state = .REFUNDED
  payouts : after.payouts = before.payouts ++ [payout]
  payoutFor : payout.swapId = swapId
  payoutAmount : payout.amount = (before.contract.htlcs swapId).amount
  entitled : PaidOnce hashes swapId { before.contract.htlcs swapId with state } [payout]
  received : after.received = before.received

variable {hashes : Hashes} {clock : Block → Block → Prop} {block : Block} {call : Call}
  {before after : Store} {callout : Callout Store} {swapId : Bytes32}

/-- A payout goes through, or takes its call along. -/
structure Strict (callout : Callout Store) : Prop where
  success : ∀ store, callout.resume true store = some store
  failure : ∀ store, callout.resume false store = none

/-- A call whose payout goes through leaves what its receiver has left, and is undone otherwise. -/
theorem Strict.returns {origin store : Store} {frames : List (Frame Store)} {success : Bool}
    (strict : Strict callout) :
    Step (protocol hashes clock) ⟨block, store, .waiting origin callout :: frames⟩ (.returns success)
      ⟨block, if success then store else origin, frames⟩ := by
  have resumed : (Frame.waiting origin callout).resumed success store =
      if success then store else origin := by
    cases success with
    | true => simp [Frame.resumed, strict.success]
    | false => simp [Frame.resumed, strict.failure]
  rw [← resumed]
  exact .returns

theorem settle_strict {state : SwapState} {log : Log} {payee : Address} {paid : Contract}
    {payout : Payout} :
    Strict ((before.contract.settle swapId state log payee).callout before paid payout) :=
  ⟨fun _ => rfl, fun _ => rfl⟩

/-- What a call does up to the receiver of its payout, and what it makes of its success. -/
theorem callsOut_cases (effect : callsOut hashes block call before callout) :
    Strict callout ∧ ∃ swapId state payout,
      Settlement hashes swapId state payout before callout.called := by
  cases call with
  | lock | deposit => exact effect.elim
  | claim sender swapId preimage =>
      obtain ⟨external, paid, result, sent, rfl⟩ := effect
      obtain ⟨opened, recipient, matching, rfl⟩ := claim_ok.mp result
      refine ⟨settle_strict, swapId, .CLAIMED, _, ⟨⟨_, (settle_sent opened).mp sent⟩, .inl rfl,
        rfl, rfl, rfl, ?_, rfl⟩⟩
      exact ⟨preimage, matching, by simp [ExternalCall.payout, Contract.settle, recipient]⟩
  | refund sender swapId =>
      obtain ⟨external, paid, result, sent, rfl⟩ := effect
      obtain ⟨opened, expired, owner, rfl⟩ := refund_ok.mp result
      refine ⟨settle_strict, swapId, .REFUNDED, _, ⟨⟨_, (settle_sent opened).mp sent⟩, .inr rfl,
        rfl, rfl, rfl, ?_, rfl⟩⟩
      exact ⟨block.timestamp, expired, by simp [ExternalCall.payout, Contract.settle, owner]⟩

/-- A claim hands over or reverts: without its payout it does not go on. -/
theorem not_completes_claim {sender : Address} {preimage : Bytes32} :
    ¬ completes hashes block (.claim sender swapId preimage) before after := by
  rintro ⟨external, contract, result, -, resumed, -⟩
  obtain ⟨-, -, -, rfl⟩ := claim_ok.mp result
  cases resumed

theorem not_completes_refund {sender : Address} :
    ¬ completes hashes block (.refund sender swapId) before after := by
  rintro ⟨external, contract, result, -, resumed, -⟩
  obtain ⟨-, -, -, rfl⟩ := refund_ok.mp result
  cases resumed

theorem completes_cases (effect : completes hashes block call before after) :
    (∃ value, after = { before with
      contract := before.contract.receive value, received := before.received + value }) ∨
    ∃ msg hashlock timelock recipient takerLezAccount,
      LockEffect hashes block msg hashlock timelock recipient takerLezAccount
        before.contract after.contract ∧
      after = { before with
        contract := after.contract, received := before.received + msg.value.toNat } := by
  cases call with
  | claim => exact (not_completes_claim effect).elim
  | refund => exact (not_completes_refund effect).elim
  | deposit value => exact .inl ⟨value, effect⟩
  | lock msg hashlock timelock recipient takerLezAccount =>
      obtain ⟨contract, result, rfl⟩ := effect
      exact .inr ⟨msg, hashlock, timelock, recipient, takerLezAccount, lock_ok.mp result, rfl⟩

theorem openAmount_eq_of_htlc_eq {left right : Contract}
    (same : left.htlcs swapId = right.htlcs swapId) :
    openAmount left swapId = openAmount right swapId := by
  simp only [openAmount, same]

@[simp] theorem openAmount_of_open {contract : Contract}
    (opened : (contract.htlcs swapId).state = .OPEN) :
    openAmount contract swapId = (contract.htlcs swapId).amount.toNat := by
  simp only [openAmount, opened]

@[simp] theorem openAmount_of_not_open {contract : Contract}
    (closed : (contract.htlcs swapId).state ≠ .OPEN) : openAmount contract swapId = 0 := by
  unfold openAmount
  split
  · exact absurd ‹_› closed
  all_goals rfl

/-- A lock adds its value to the total of the open swaps. -/
theorem LockEffect.total {msg : Msg} {hashlock : Bytes32} {timelock : U256}
    {recipient : Address} {takerLezAccount : Bytes32} {before after : Contract}
    (effect : LockEffect hashes block msg hashlock timelock recipient takerLezAccount
      before after) :
    Total.total (openAmount after) = Total.total (openAmount before) + msg.value.toNat := by
  have moved := Total.total_one (openAmount before) (openAmount after)
    (swapIdOf hashes msg.sender recipient msg.value hashlock timelock takerLezAccount)
    (fun other apart => openAmount_eq_of_htlc_eq (by simp [effect.after, apart]))
  have stored : after.htlcs
      (swapIdOf hashes msg.sender recipient msg.value hashlock timelock takerLezAccount) =
      lockedHTLC msg hashlock timelock recipient takerLezAccount := by simp [effect.after]
  have none : openAmount before _ = 0 := openAmount_of_not_open (by rw [effect.fresh]; decide)
  have held := openAmount_of_open (congrArg HTLC.state stored)
  rwa [none, held, stored, Nat.add_zero] at moved

/-- A payout takes the swap's amount out of the total of the open swaps. -/
theorem PayoutEffect.total {state : SwapState} {log : Log} {before after : Contract}
    (effect : PayoutEffect swapId state log before after)
    (settled : state = .CLAIMED ∨ state = .REFUNDED) :
    Total.total (openAmount after) + (before.htlcs swapId).amount.toNat =
      Total.total (openAmount before) := by
  have closed : state ≠ .OPEN := by rcases settled with rfl | rfl <;> decide
  have moved := Total.total_one (openAmount before) (openAmount after)
    swapId (fun other apart => openAmount_eq_of_htlc_eq (by simp [effect.after, apart]))
  rw [openAmount_of_open effect.opened,
    openAmount_of_not_open (by simp [effect.after, closed])] at moved
  omega

@[simp] theorem Store.paidFor_append_other {payouts : List Payout} {payout : Payout}
    {contract : Contract} {received : Nat} (other : payout.swapId ≠ swapId) :
    Store.paidFor ⟨contract, payouts ++ [payout], received⟩ swapId =
      Store.paidFor ⟨contract, payouts, received⟩ swapId := by
  simp [Store.paidFor, List.filter_append, other]

theorem PaidOnce.eq_nil {htlc : HTLC} {payouts : List Payout}
    (paid : PaidOnce hashes swapId htlc payouts)
    (unsettled : htlc.state = .EMPTY ∨ htlc.state = .OPEN) : payouts = [] := by
  unfold PaidOnce at paid
  rcases unsettled with empty | opened
  · simpa only [empty] using paid
  · simpa only [opened] using paid

/-- A settlement keeps the invariant. -/
theorem Settlement.sound {state : SwapState} {payout : Payout}
    (settlement : Settlement hashes swapId state payout before after)
    (sound : Sound hashes before) : Sound hashes after := by
  obtain ⟨⟨log, effect⟩, settled, payouts, payoutFor, payoutAmount, entitled, received⟩ :=
    settlement
  have covered := effect.covered
  have balance : after.contract.balance =
      before.contract.balance - (before.contract.htlcs swapId).amount.toNat := by
    rw [effect.after]
  refine ⟨?_, ?_, ?_⟩
  · have total := effect.total settled
    have solvent := sound.solvent
    unfold Solvent at solvent ⊢
    omega
  · intro other
    have accounted := sound.accounted other
    by_cases same : other = swapId
    · subst same
      have none : before.paidFor other = [] := accounted.eq_nil (.inr effect.opened)
      have one : after.paidFor other = [payout] := by
        unfold Store.paidFor at none ⊢
        rw [payouts, List.filter_append, none]
        simp [payoutFor]
      rw [one, effect.after]
      simpa using entitled
    · have unchanged : after.paidFor other = before.paidFor other := by
        unfold Store.paidFor
        rw [payouts, List.filter_append]
        simp [payoutFor, Ne.symm same]
      rw [unchanged, effect.after]
      simpa [same] using accounted
  · have balanced := sound.balanced
    unfold Balanced at balanced ⊢
    rw [payouts, received, balance]
    simp only [List.map_append, List.map_cons, List.map_nil, List.sum_append, List.sum_cons,
      List.sum_nil, payoutAmount]
    omega

/-- A call keeps the invariant while the receiver of its payout runs. -/
theorem Sound.callsOut (sound : Sound hashes before)
    (effect : callsOut hashes block call before callout) : Sound hashes callout.called := by
  obtain ⟨-, swapId, state, payout, settlement⟩ := callsOut_cases effect
  exact settlement.sound sound

/-- A lock keeps the invariant. -/
theorem LockEffect.sound {msg : Msg} {hashlock : Bytes32} {timelock : U256}
    {recipient : Address} {takerLezAccount : Bytes32} {contract : Contract}
    (effect : LockEffect hashes block msg hashlock timelock recipient takerLezAccount
      before.contract contract)
    (sound : Sound hashes before) :
    Sound hashes { before with
      contract, received := before.received + msg.value.toNat } := by
  refine ⟨?_, ?_, ?_⟩
  · have total := effect.total
    have solvent := sound.solvent
    have balance : contract.balance = before.contract.balance + msg.value.toNat := by
      simp [effect.after]
    unfold Solvent at solvent ⊢
    simp only
    omega
  · intro other
    have accounted := sound.accounted other
    by_cases same : other =
        swapIdOf hashes msg.sender recipient msg.value hashlock timelock takerLezAccount
    · subst same
      have none := accounted.eq_nil (.inl effect.fresh)
      simp only [effect.after, Contract.htlcs_emit, Contract.htlcs_setHTLC,
        Function.update_self]
      exact none
    · have unchanged : contract.htlcs other = before.contract.htlcs other := by
        simp [effect.after, same]
      change PaidOnce hashes other (contract.htlcs other) (before.paidFor other)
      rw [unchanged]
      exact accounted
  · have balanced := sound.balanced
    unfold Balanced at balanced ⊢
    simp [effect.after]
    omega

/-- A call that completes at once keeps the invariant. -/
theorem Sound.completes (sound : Sound hashes before)
    (effect : completes hashes block call before after) : Sound hashes after := by
  rcases completes_cases effect with
    ⟨value, rfl⟩ | ⟨msg, hashlock, timelock, recipient, takerLezAccount, locked, same⟩
  · have solvent := sound.solvent
    have balanced := sound.balanced
    refine ⟨?_, sound.accounted, ?_⟩
    · exact solvent.trans (Nat.le_add_right _ _)
    · unfold Balanced at balanced ⊢
      simp only [Contract.balance_receive]
      omega
  · rw [same]
    exact locked.sound sound

theorem Sound.deploy (minTimelockDelta : U256) (balance : Nat) :
    Sound hashes (Store.deploy minTimelockDelta balance) where
  solvent := by
    have none : openAmount (Store.deploy minTimelockDelta balance).contract = fun _ => 0 := by
      funext swapId
      exact openAmount_of_not_open (by simp [Store.deploy, Contract.deploy, HTLC.empty])
    unfold Solvent
    rw [none, Total.total_zero]
    exact Nat.zero_le _
  accounted := fun _ => rfl
  balanced := by simp [Balanced, Store.deploy, Contract.deploy]

theorem Moves.trans {first second third : HTLC} (left : Moves first second)
    (right : Moves second third) : Moves first third := by
  induction right with
  | none => exact left
  | more _ last ih => exact .more ih last

/-- A settled swap stays as it is. -/
theorem Moves.settled_eq {before after : HTLC} (moves : Moves before after)
    (settled : before.state = .CLAIMED ∨ before.state = .REFUNDED) : after = before := by
  induction moves with
  | none => rfl
  | more _ last ih =>
      subst ih
      cases last with
      | stay => rfl
      | lock state | claim state | refund state => simp [state] at settled

/-- From the lock on only the state changes, and it leaves `OPEN` once. -/
theorem Moves.open_cases {before after : HTLC} (moves : Moves before after)
    (opened : before.state = .OPEN) :
    after = before ∨ after = { before with state := .CLAIMED } ∨
      after = { before with state := .REFUNDED } := by
  induction moves with
  | none => exact .inl rfl
  | more _ last ih =>
      rcases ih with rfl | rfl | rfl <;> cases last with
      | stay => simp
      | lock state => simp_all
      | claim state => simp_all
      | refund state => simp_all

theorem Evolves.refl (store : Store) : Evolves store store :=
  ⟨fun _ => .none, List.prefix_refl _⟩

theorem Evolves.trans {first second third : Store} (left : Evolves first second)
    (right : Evolves second third) : Evolves first third :=
  ⟨fun swapId => (left.moves swapId).trans (right.moves swapId),
    left.payouts.trans right.payouts⟩

/-- Calls that complete at once make at most one move of one swap, and no payout. -/
theorem completes_moves (effect : completes hashes block call before after) (swapId : Bytes32) :
    Move (before.contract.htlcs swapId) (after.contract.htlcs swapId) := by
  rcases completes_cases effect with
    ⟨value, rfl⟩ | ⟨msg, hashlock, timelock, recipient, takerLezAccount, locked, same⟩
  · exact .stay
  · by_cases this : swapId =
        swapIdOf hashes msg.sender recipient msg.value hashlock timelock takerLezAccount
    · subst this
      exact .lock locked.fresh (by simp [locked.after, lockedHTLC])
    · have unchanged : after.contract.htlcs swapId = before.contract.htlcs swapId := by
        simp [locked.after, this]
      rw [unchanged]
      exact .stay

/-- Calls up to their payout make at most one move of one swap. -/
theorem Settlement.moves {settledId : Bytes32} {state : SwapState} {payout : Payout}
    (settlement : Settlement hashes settledId state payout before after) (swapId : Bytes32) :
    Move (before.contract.htlcs swapId) (after.contract.htlcs swapId) := by
  obtain ⟨log, effect⟩ := settlement.effect
  by_cases this : swapId = settledId
  · subst this
    have written : after.contract.htlcs swapId =
        { before.contract.htlcs swapId with state } := by simp [effect.after]
    rw [written]
    rcases settlement.settled with rfl | rfl
    · exact .claim effect.opened
    · exact .refund effect.opened
  · have unchanged : after.contract.htlcs swapId = before.contract.htlcs swapId := by
      simp [effect.after, this]
    rw [unchanged]
    exact .stay

/-- What calls keep while they run, they keep when they go on: with a success nothing
changes, and with a failure they revert. -/
theorem keeps_in {holds : Block → Store → Prop}
    (act : ∀ {block call before after}, holds block before →
      completes hashes block call before after → holds block after)
    (calls : ∀ {block call before callout}, holds block before →
      callsOut hashes block call before callout → holds block callout.called)
    (advance : ∀ {block later store}, holds block store → clock block later → holds later store) :
    Keeps (protocol hashes clock) holds where
  act := act
  calls := calls
  advance := advance
  succeeds effect here result := by
    rw [(callsOut_cases effect).1.success] at result
    exact Option.some.inj result ▸ here
  fails effect here result := by
    rw [(callsOut_cases effect).1.failure] at result
    cases result

/-- The same for what does not look at the block. -/
theorem keeps_of {holds : Store → Prop}
    (act : ∀ {block call before after}, holds before →
      completes hashes block call before after → holds after)
    (calls : ∀ {block call before callout}, holds before →
      callsOut hashes block call before callout → holds callout.called) :
    Keeps (protocol hashes clock) fun _ => holds :=
  keeps_in act calls fun here _ => here

/-- A preorder that contains what calls do, and what they do up to their payout. -/
def growthOf (hashes : Hashes) (clock : Block → Block → Prop) (relation : Store → Store → Prop)
    (reflexive : ∀ store, relation store store)
    (transitive : ∀ {first second third}, relation first second → relation second third →
      relation first third)
    (act : ∀ {block call before after}, completes hashes block call before after →
      relation before after)
    (settled : ∀ {swapId state payout before after},
      Settlement hashes swapId state payout before after → relation before after) :
    Growth (protocol hashes clock) where
  relation := relation
  reflexive := reflexive
  transitive := transitive
  act := act
  calls effect := by
    obtain ⟨-, swapId, state, payout, settlement⟩ := callsOut_cases effect
    exact settled settlement
  succeeds effect result := by
    rw [(callsOut_cases effect).1.success] at result
    exact Option.some.inj result ▸ reflexive _
  fails effect result := by
    rw [(callsOut_cases effect).1.failure] at result
    cases result

/-- Everything a call does is an evolution, so stores only evolve along a run. -/
def growth (hashes : Hashes) (clock : Block → Block → Prop) : Growth (protocol hashes clock) :=
  growthOf hashes clock Evolves Evolves.refl Evolves.trans
    (fun effect => by
      refine ⟨fun swapId => .more .none (completes_moves effect swapId), ?_⟩
      rcases completes_cases effect with ⟨value, rfl⟩ | ⟨_, _, _, _, _, _, same⟩
      · exact List.prefix_refl _
      · rw [same])
    (fun settlement => by
      refine ⟨fun swapId => .more .none (settlement.moves swapId), ?_⟩
      rw [settlement.payouts]
      exact List.prefix_append _ _)

/-- The invariant holds of the current store and of every store a revert could
restore, between calls and inside payouts. -/
theorem sound_everywhere {start : Store} {machine : Machine Block Store}
    {events : List (Event Call)} (initially : Sound hashes start)
    (run : Steps (Step (protocol hashes clock)) ⟨block, start, []⟩ events machine) :
    Everywhere (Sound hashes) machine :=
  Machine.invariant (keeps_of (fun sound effect => sound.completes effect)
    fun sound effect => sound.callsOut effect) initially run

/-- One step moves every swap at most once, or undoes the innermost frame. -/
theorem step_moves {machine next : Machine Block Store} {event : Event Call}
    (made : Made (protocol hashes clock) machine)
    (step : Step (protocol hashes clock) machine event next) :
    (∀ swapId, Move (machine.store.contract.htlcs swapId) (next.store.contract.htlcs swapId)) ∨
      (event = .abort ∨ event = .returns false) ∧
        ∃ frame, machine.frames = frame :: next.frames ∧ next.store = frame.saved := by
  cases step with
  | act effect => exact .inl (completes_moves effect)
  | call effect =>
      obtain ⟨-, swapId, state, payout, settlement⟩ := callsOut_cases effect
      exact .inl settlement.moves
  | enter | advance => exact .inl fun _ => .stay
  | abort => exact .inr ⟨.inl rfl, _, rfl, rfl⟩
  | @returns context store frame frames success =>
      cases frame with
      | foreign saved =>
          cases success with
          | true => exact .inl fun _ => .stay
          | false => exact .inr ⟨.inr rfl, _, rfl, rfl⟩
      | waiting origin callout =>
          obtain ⟨_, _, effect⟩ := made origin callout List.mem_cons_self
          have strict := (callsOut_cases effect).1
          cases success with
          | true =>
              have same : (Frame.waiting origin callout).resumed true store = store := by
                simp [Frame.resumed, strict.success]
              rw [same]
              exact .inl fun _ => .stay
          | false =>
              refine .inr ⟨.inr rfl, _, rfl, ?_⟩
              simp [Frame.resumed, strict.failure, Frame.saved]

/-- A call whose payout fails, whatever its receiver did before it failed, leaves the
contract and everything else as it was. -/
theorem failedCall_reverts {machine final : Machine Block Store}
    (failed : FailedCall (protocol hashes clock) call machine final) : final = machine := by
  obtain ⟨callout, effect, after⟩ := failed.resumed
  rw [after, (callsOut_cases effect).1.failure]
  rfl

/-- A run of the deployed contract under any calls, callers and block times. -/
def ContractRun (hashes : Hashes) (minTimelockDelta : U256) (balance : Nat) (block : Block)
    (events : List (Event Call)) (machine : Machine Block Store) : Prop :=
  Steps (Step (protocol hashes fun _ _ => True))
    ⟨block, Store.deploy minTimelockDelta balance, []⟩ events machine

/-- Solvency and exactly-once payout. At every point of every run, also inside
payouts, the balance covers the open swaps and every swap was paid exactly as its
state says; each step moves a swap at most once along its life cycle unless it
reverts; stores saved under open payouts only ever evolve into the current one;
a committed store only ever evolves; and a call whose payout fails leaves the
machine exactly as it was. -/
theorem solvent_and_paid_once {hashes : Hashes} {minTimelockDelta : U256} {balance : Nat}
    {block : Block} {events : List (Event Call)} {machine : Machine Block Store}
    (run : ContractRun hashes minTimelockDelta balance block events machine) :
    Everywhere (Sound hashes) machine ∧
    (growth hashes fun _ _ => True).Ordered (Store.deploy minTimelockDelta balance) machine ∧
    (∀ event next, Step (protocol hashes fun _ _ => True) machine event next →
      (∀ swapId, Move (machine.store.contract.htlcs swapId)
        (next.store.contract.htlcs swapId)) ∨
        (event = .abort ∨ event = .returns false) ∧
          ∃ frame, machine.frames = frame :: next.frames ∧ next.store = frame.saved) ∧
    (∀ later final, machine.frames = [] →
      Steps (Step (protocol hashes fun _ _ => True)) machine later final →
      Evolves machine.store final.store) ∧
    ∀ call final, FailedCall (protocol hashes fun _ _ => True) call machine final →
      final = machine := by
  refine ⟨sound_everywhere (Sound.deploy _ _) run, Growth.ordered run,
    fun _ _ step => step_moves (made run) step, ?_, fun _ _ failed => failedCall_reverts failed⟩
  intro later final outside rest
  obtain ⟨block, store, frames⟩ := machine
  subst outside
  exact (growth hashes fun _ _ => True).from_start rest

/-- The two hashes as they are on the inputs of the test swap. -/
def testHashes : Hashes where
  keccak256 _ :=
    ⟨[188, 187, 5, 84, 174, 138, 57, 11, 106, 44, 90, 28, 160, 199, 220, 17, 200, 217, 75,
      122, 233, 1, 27, 75, 98, 180, 252, 219, 46, 182, 12, 129], rfl⟩
  sha256 _ := testHashlock

def testTaker : Address := Bytes.fill 20 1

def testMaker : Address := Bytes.fill 20 2

/-- The id of the test swap: 1 ether from `testTaker` to `testMaker` until second 601. -/
def testSwapId : Bytes32 := testHashes.keccak256 []

/-- The test swap locked, then claimed twice: the first payout is refused by its receiver, after
it has paid five wei back. -/
def testEvents : List (Event Call) :=
  [.act (.lock ⟨testTaker, 1000000000000000000⟩ testHashlock 601 testMaker (Bytes.fill 32 7)),
   .call (.claim testMaker testSwapId testPreimage), .act (.deposit 5), .returns false,
   .call (.claim testMaker testSwapId testPreimage), .returns true]

/-- The contract with the test swap locked. -/
def testLocked : Contract :=
  ((((Contract.deploy 300 0).receive (1000000000000000000)).setHTLC testSwapId
    (lockedHTLC ⟨testTaker, 1000000000000000000⟩ testHashlock 601 testMaker (Bytes.fill 32 7))).emit
    (.Locked testSwapId testTaker testMaker (1000000000000000000) testHashlock 601 (Bytes.fill 32 7)))

theorem test_lock :
    lock testHashes ⟨1⟩ ⟨testTaker, 1000000000000000000⟩ testHashlock 601 testMaker (Bytes.fill 32 7)
      (Contract.deploy 300 0) = .ok testLocked :=
  lock_ok.mpr ⟨by decide, by decide, by decide, by decide, by decide, by decide, rfl, rfl⟩

/-- The store with the test swap locked. -/
def testStore : Store := ⟨testLocked, [], 1000000000000000000⟩

/-- The payout of the test swap. -/
def testPayout : Payout :=
  ⟨testSwapId, testMaker, 1000000000000000000, testMaker, .preimage testPreimage⟩

theorem test_claim : ∃ callout,
    callsOut testHashes ⟨1⟩ (.claim testMaker testSwapId testPreimage) testStore callout ∧
      callout.called.payouts = [testPayout] := by
  have there : testStore.contract.htlcs testSwapId =
      lockedHTLC ⟨testTaker, 1000000000000000000⟩ testHashlock 601 testMaker (Bytes.fill 32 7) := by
    simp [testStore, testLocked]
  refine ⟨_, ⟨_, _, claim_ok.mpr ⟨congrArg HTLC.state there, ?_, ?_, rfl⟩,
    Contract.send_some.mpr ⟨?_, rfl⟩, rfl⟩, ?_⟩
  · rw [there]
    rfl
  · rw [there]
    rfl
  · simp only [Contract.settle, there]
    exact Nat.le_refl _
  · simp only [ExternalCall.callout, ExternalCall.payout, Contract.settle, there]
    rfl

theorem solvent_and_paid_once_test : ∃ machine,
    ContractRun testHashes 300 0 ⟨1⟩ testEvents machine ∧
    machine.store.payouts = [testPayout] ∧ machine.frames = [] ∧
    Everywhere (Sound testHashes) machine := by
  obtain ⟨callout, claims, paid⟩ := test_claim
  have strict := (callsOut_cases claims).1
  have refused : Step (protocol testHashes fun _ _ => True)
      ⟨⟨1⟩, ⟨callout.called.contract.receive 5, callout.called.payouts, callout.called.received + 5⟩,
        [.waiting testStore callout]⟩ (.returns false) ⟨⟨1⟩, testStore, []⟩ :=
    strict.returns
  have accepted : Step (protocol testHashes fun _ _ => True)
      ⟨⟨1⟩, callout.called, [.waiting testStore callout]⟩ (.returns true) ⟨⟨1⟩, callout.called, []⟩ :=
    strict.returns
  have run : ContractRun testHashes 300 0 ⟨1⟩ testEvents ⟨⟨1⟩, callout.called, []⟩ :=
    .cons (.act ⟨_, test_lock, rfl⟩) <| .cons (.call claims) <| .cons (.act rfl) <|
      .cons refused <| .cons (.call claims) <| .single accepted
  exact ⟨_, run, paid, rfl, (solvent_and_paid_once run).1⟩

end AtomicSwaps.Eth
