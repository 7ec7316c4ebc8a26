import AtomicSwaps.Eth.Reentrancy

/-!
# The Ethereum chain as seen from one swap

A chain some run of the contract has led to: the contract invariant holds, every `Locked` log
tells the fields its swap still has, and no refund was executed later than now.
-/

namespace AtomicSwaps.Eth

open Semantics Semantics.Nested

/-- The swap a `Locked` log announced, in the state it is in now. -/
def announced (sender recipient : Address) (amount : U256) (hashlock : Bytes32)
    (timelock : U256) (takerLezAccount : Bytes32) (state : SwapState) : HTLC where
  sender
  recipient
  amount
  hashlock
  timelock
  takerLezAccount
  state

/-- Every swap that was announced is there, with the fields that were announced. -/
def Logged (contract : Contract) : Prop :=
  ∀ swapId sender recipient amount hashlock timelock takerLezAccount,
    Log.Locked swapId sender recipient amount hashlock timelock takerLezAccount ∈ contract.logs →
      ∃ state, state ≠ .EMPTY ∧ contract.htlcs swapId =
        announced sender recipient amount hashlock timelock takerLezAccount state

/-- No refund was executed later than the time of a block. -/
def RefundsPast (time : U256) (store : Store) : Prop :=
  ∀ payout ∈ store.payouts, ∀ timestamp, payout.authority = .expiry timestamp → timestamp ≤ time

/-- No block is older than the one before it. -/
def Forward (earlier later : Block) : Prop := earlier.timestamp ≤ later.timestamp

/-- A chain that a run of the contract has led to, with the time of its current block. -/
structure Chain (hashes : Hashes) where
  store : Store
  /-- Unix seconds. -/
  time : U256
  sound : Sound hashes store
  logged : Logged store.contract
  past : RefundsPast time store

/-- A call from an account without code: the receiver of a payout does nothing. -/
def Executes (hashes : Hashes) (time : U256) (call : Call) (before after : Store) : Prop :=
  completes hashes ⟨time⟩ call before after ∨
    ∃ callout, callsOut hashes ⟨time⟩ call before callout ∧
      callout.resume true callout.called = some after

variable {hashes : Hashes} {clock : Block → Block → Prop} {block : Block} {call : Call}
  {before after : Store} {callout : Callout Store} {swapId : Bytes32} {time : U256}

/-- A payout keeps the announced fields. -/
theorem Logged.payout {state : SwapState} {log : Log} {before after : Contract}
    (logged : Logged before) (effect : PayoutEffect swapId state log before after)
    (settled : state ≠ .EMPTY)
    (silent : ∀ swapId sender recipient amount hashlock timelock takerLezAccount,
      log ≠ .Locked swapId sender recipient amount hashlock timelock takerLezAccount) :
    Logged after := by
  intro lockedId sender recipient amount hashlock timelock takerLezAccount member
  rw [effect.after] at member ⊢
  simp only [Contract.logs_emit, Contract.logs_setHTLC, List.mem_append,
    List.mem_singleton] at member
  rcases member with earlier | last
  · obtain ⟨current, set, same⟩ := logged _ _ _ _ _ _ _ earlier
    by_cases this : lockedId = swapId
    · subst this
      exact ⟨state, settled, by simp [same, announced]⟩
    · exact ⟨current, set, by simp [same, this]⟩
  · exact absurd last.symm (silent _ _ _ _ _ _ _)

theorem Logged.callsOut (logged : Logged before.contract)
    (effect : callsOut hashes block call before callout) : Logged callout.called.contract := by
  cases call with
  | lock | deposit => exact effect.elim
  | claim sender swapId preimage =>
      obtain ⟨external, paid, result, sent, rfl⟩ := effect
      obtain ⟨opened, -, -, rfl⟩ := claim_ok.mp result
      exact logged.payout ((settle_sent opened).mp sent) (by simp) (by simp)
  | refund sender swapId =>
      obtain ⟨external, paid, result, sent, rfl⟩ := effect
      obtain ⟨opened, -, -, rfl⟩ := refund_ok.mp result
      exact logged.payout ((settle_sent opened).mp sent) (by simp) (by simp)

theorem Logged.completes (logged : Logged before.contract)
    (effect : completes hashes block call before after) : Logged after.contract := by
  rcases completes_cases effect with
    ⟨value, rfl⟩ | ⟨msg, hashlock, timelock, recipient, takerLezAccount, locked, -⟩
  · exact logged
  · intro lockedId sender payee amount secret expiry account member
    rw [locked.after] at member ⊢
    simp only [Contract.logs_emit, Contract.logs_setHTLC, Contract.logs_receive,
      List.mem_append, List.mem_singleton] at member
    rcases member with earlier | last
    · obtain ⟨current, set, same⟩ := logged _ _ _ _ _ _ _ earlier
      have other : lockedId ≠
          swapIdOf hashes msg.sender recipient msg.value hashlock timelock takerLezAccount := by
        rintro rfl
        exact set ((congrArg HTLC.state same).symm.trans locked.fresh)
      exact ⟨current, set, by simp [same, other]⟩
    · cases last
      exact ⟨.OPEN, by simp, by simp [lockedHTLC, announced]⟩

/-- Complete calls keep the contract sound, announced swaps announced, and let every
swap move along its life cycle. -/
theorem transaction_grows (sound : Sound hashes before) (logged : Logged before.contract)
    (transaction : Transaction (protocol hashes clock) block before after) :
    Sound hashes after ∧ Logged after.contract ∧ Evolves before after := by
  obtain ⟨events, run⟩ := transaction
  have loggedEverywhere : Everywhere (fun store : Store => Logged store.contract)
      (⟨block, after, []⟩ : Machine Block Store) :=
    Machine.invariant (keeps_of (fun logged effect => logged.completes effect)
      fun logged effect => logged.callsOut effect) logged run
  exact ⟨(sound_everywhere sound run).1, loggedEverywhere.1, (growth hashes clock).from_start run⟩

theorem RefundsPast.later {earlier later : U256} {store : Store} (past : RefundsPast earlier store)
    (forward : earlier ≤ later) : RefundsPast later store :=
  fun payout member timestamp refund => BitVec.le_trans (past payout member timestamp refund) forward

theorem RefundsPast.completes (past : RefundsPast block.timestamp before)
    (effect : completes hashes block call before after) : RefundsPast block.timestamp after := by
  rcases completes_cases effect with ⟨value, rfl⟩ | ⟨_, _, _, _, _, _, same⟩
  · exact past
  · rw [same]
    exact past

/-- A refund is paid in the block it is executed in. -/
theorem RefundsPast.callsOut (past : RefundsPast block.timestamp before)
    (effect : callsOut hashes block call before callout) :
    RefundsPast block.timestamp callout.called := by
  cases call with
  | lock | deposit => exact effect.elim
  | claim sender swapId preimage =>
      obtain ⟨external, paid, -, -, rfl⟩ := effect
      intro payout member timestamp refund
      rcases List.mem_append.mp member with earlier | last
      · exact past payout earlier timestamp refund
      · obtain rfl := List.mem_singleton.mp last
        cases refund
  | refund sender swapId =>
      obtain ⟨external, paid, -, -, rfl⟩ := effect
      intro payout member timestamp refund
      rcases List.mem_append.mp member with earlier | last
      · exact past payout earlier timestamp refund
      · obtain rfl := List.mem_singleton.mp last
        cases refund
        exact BitVec.le_refl _

/-- Where no block is older than the one before it, complete calls refund nothing later than
now. -/
theorem RefundsPast.transaction (past : RefundsPast block.timestamp before)
    (transaction : Transaction (protocol hashes Forward) block before after) :
    RefundsPast block.timestamp after := by
  obtain ⟨events, run⟩ := transaction
  have keeps : Keeps (protocol hashes Forward) fun block => RefundsPast block.timestamp :=
    keeps_in (fun past effect => past.completes effect) (fun past effect => past.callsOut effect)
      fun past forward => past.later forward
  have everywhere : Everywhere (RefundsPast block.timestamp)
      (⟨block, after, []⟩ : Machine Block Store) := Machine.invariant keeps past run
  exact everywhere.1

/-- The chain on which the contract was deployed, with an initial balance. -/
def Chain.deploy (minTimelockDelta : U256) (balance : Nat) (time : U256) : Chain hashes where
  store := .deploy minTimelockDelta balance
  time
  sound := .deploy minTimelockDelta balance
  logged _ _ _ _ _ _ _ member := by simp [Store.deploy, Contract.deploy] at member
  past _ member := by simp [Store.deploy] at member

/-- The chain after complete calls in its current block. -/
def Chain.act (chain : Chain hashes)
    (transaction : Transaction (protocol hashes Forward) ⟨chain.time⟩ chain.store after) :
    Chain hashes where
  store := after
  time := chain.time
  sound := (transaction_grows chain.sound chain.logged transaction).1
  logged := (transaction_grows chain.sound chain.logged transaction).2.1
  past := RefundsPast.transaction chain.past transaction

/-- The chain in a later block. -/
def Chain.wait (chain : Chain hashes) (time : U256) (forward : chain.time ≤ time) :
    Chain hashes where
  store := chain.store
  time
  sound := chain.sound
  logged := chain.logged
  past := chain.past.later forward

/-- A call without reentrancy is a transaction. -/
theorem Executes.transaction (executes : Executes hashes time call before after) :
    Transaction (protocol hashes clock) ⟨time⟩ before after := by
  rcases executes with complete | ⟨callout, effect, accepted⟩
  · exact ⟨_, .single (.act complete)⟩
  · have strict := (callsOut_cases effect).1
    rw [strict.success] at accepted
    obtain rfl := Option.some.inj accepted
    have returned : Step (protocol hashes clock)
        ⟨⟨time⟩, callout.called, [.waiting before callout]⟩ (.returns true)
        ⟨⟨time⟩, callout.called, []⟩ := strict.returns
    exact ⟨_, .cons (.call effect) (.single returned)⟩

/-- A claim that is executed has paid its swap out. -/
theorem Executes.claims {sender : Address} {preimage : Bytes32}
    (executes : Executes hashes time (.claim sender swapId preimage) before after) :
    PayoutEffect swapId .CLAIMED (.Claimed swapId preimage) before.contract after.contract := by
  rcases executes with complete | ⟨callout, effect, accepted⟩
  · exact (not_completes_claim complete).elim
  · obtain ⟨external, paid, result, sent, rfl⟩ := effect
    obtain ⟨opened, -, -, rfl⟩ := claim_ok.mp result
    obtain rfl := Option.some.inj ((settle_strict.success _).symm.trans accepted)
    exact (settle_sent opened).mp sent

/-- So has a refund. -/
theorem Executes.refunds {sender : Address}
    (executes : Executes hashes time (.refund sender swapId) before after) :
    PayoutEffect swapId .REFUNDED (.Refunded swapId) before.contract after.contract := by
  rcases executes with complete | ⟨callout, effect, accepted⟩
  · exact (not_completes_refund complete).elim
  · obtain ⟨external, paid, result, sent, rfl⟩ := effect
    obtain ⟨opened, -, -, rfl⟩ := refund_ok.mp result
    obtain rfl := Option.some.inj ((settle_strict.success _).symm.trans accepted)
    exact (settle_sent opened).mp sent

end AtomicSwaps.Eth
