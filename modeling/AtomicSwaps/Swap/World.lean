import AtomicSwaps.Eth.Chain
import AtomicSwaps.Lez.Chain
import AtomicSwaps.Lez.Client

/-!
# The world a swap runs in

Both chains, the local clock and the journal, as the environment of a flow. Between any
two operations of a flow everybody may act on both chains. What the RPC endpoints answer
is as weak as their operators promise: an escrow that is read is there, an absent one may
be there all the same, a read of an HTLC may lag, and a submission says nothing about
what becomes of the transaction.
-/

namespace AtomicSwaps.Swap

open Semantics Semantics.Nested Relation Cli
open Lez (Runtime AccountId HTLCEscrow EscrowMoves escrowAt escrowIn watchRead)
open Eth (Hashes HTLC)

/-- Who runs the flow, and on what. -/
structure Setting where
  runtime : Runtime
  hashes : Hashes
  /-- The LEZ account the flow signs for. -/
  account : AccountId
  /-- The Ethereum account the flow signs for. -/
  signer : Eth.Address
  /-- Which readings of the local clock, the LEZ time and the Ethereum time go together. -/
  clocks : U64 → U64 → U256 → Prop

/-- The LEZ client of a setting. -/
def Setting.lezClient (setting : Setting) : Lez.LezClient := ⟨setting.account, setting.runtime.pda⟩

structure World (setting : Setting) where
  lez : Lez.Chain setting.runtime
  eth : Eth.Chain setting.hashes
  now : U64
  store : StateStore
  synced : setting.clocks now lez.time eth.time

variable {setting : Setting}

namespace World

/-- The escrow of a hashlock on the LEZ chain. -/
def escrow (world : World setting) (hashlock : Bytes32) : Option HTLCEscrow :=
  escrowAt setting.runtime world.lez.ledger hashlock

/-- The balance of the escrow PDA of a hashlock. -/
def pdaBalance (world : World setting) (hashlock : Bytes32) : U128 :=
  (world.lez.ledger.account (setting.runtime.pda hashlock)).balance

/-- A swap of the contract. -/
def htlc (world : World setting) (swapId : Bytes32) : HTLC := world.eth.store.contract.htlcs swapId

end World

/-- What happens by itself. -/
inductive Drift : World setting → World setting → Prop where
  | lez {world : World setting} {chain : Lez.Chain setting.runtime} {event : Lez.Event}
      (step : Lez.Step setting.runtime world.lez.ledger event chain.ledger)
      (timely : ∀ timestamp transaction, event = .execute timestamp transaction →
        timestamp = world.lez.time)
      (time : chain.time = world.lez.time) :
      Drift world { world with lez := chain, synced := time ▸ world.synced }
  | eth {world : World setting} {store : Eth.Store}
      (transaction : Transaction (Eth.protocol setting.hashes Eth.Forward)
        ⟨world.eth.time⟩ world.eth.store store) :
      Drift world { world with eth := world.eth.act transaction, synced := world.synced }
  | tick {world : World setting} {now lezTime : U64} {ethTime : U256}
      (forward : world.now ≤ now ∧ world.lez.time ≤ lezTime ∧ world.eth.time ≤ ethTime)
      (synced : setting.clocks now lezTime ethTime) :
      Drift world { world with
        now
        lez := { world.lez with time := lezTime }
        eth := world.eth.wait ethTime forward.2.2
        synced }

/-- The call an `EthCall` is, from the account the flow signs for. -/
def EthCall.call (setting : Setting) : EthCall → Eth.Call
  | .lock hashlock timelock recipient takerLezAccount value =>
      .lock ⟨setting.signer, value⟩ hashlock timelock recipient takerLezAccount
  | .claim swapId preimage => .claim setting.signer swapId preimage
  | .refund swapId => .refund setting.signer swapId

/-- What an accepted `LezTransaction` does on the chain. -/
def LezTransaction.Executes (setting : Setting) (time : U64) :
    LezTransaction → Lez.Ledger → Lez.Ledger → Prop
  | .htlc escrowPda _ instruction, before, after =>
      Lez.Executes setting.runtime time
        ⟨[setting.account, escrowPda], [setting.account], instruction⟩ before after
  | .transfer recipient _ amount, before, after =>
      Lez.Foreign setting.runtime before after ∧
        Lez.Transfer before.account after.account setting.account recipient amount

/-- The world with another journal. -/
def World.withStore (world : World setting) (store : StateStore) : World setting :=
  { world with store }

/-- An operation, apart from what happens by itself meanwhile. A timer may fire at any
time and the cancel flag may be set at any time. -/
def Act (op : Op) (before : World setting) (answer : Answer op) (after : World setting) : Prop :=
  match op, answer with
  | .nowUnix, now => after = before ∧ now = before.now
  | .getAccount accountId, answer => after = before ∧
      ∀ hashlock ∈ setting.runtime.seeds, accountId = setting.runtime.pda hashlock →
        ∀ data escrow, answer = .ok data → escrowIn hashlock data = .ok (some escrow) →
          before.escrow hashlock = some escrow
  | .sendEth call, .ok receipt =>
      if receipt.status then
        ∃ store, ∃ executes : Eth.Executes setting.hashes before.eth.time (call.call setting)
            before.eth.store store,
          store.contract.logs = before.eth.store.contract.logs ++ receipt.logs ∧
          after = { before with
            eth := before.eth.act executes.transaction, synced := before.synced }
      else after = before ∧ receipt.logs = []
  | .getHTLC swapId, answer => after = before ∧
      ∀ htlc, answer = .ok htlc → Eth.Moves htlc (before.htlc swapId)
  | .selectEth _, answer => after = before ∧
      match answer with
      | .event (.Locked event) =>
          Eth.Log.Locked event.swapId event.sender event.recipient event.amount event.hashlock
            event.timelock event.takerLezAccount ∈ before.eth.store.contract.logs
      | .event _ | .timer | .cancelled => True
  | .selectLez hashlock _, answer => after = before ∧
      match answer with
      | .event event => ∃ escrow balance lastState,
          watchRead (setting.runtime.pda hashlock) lastState escrow balance = some event ∧
          (hashlock ∈ setting.runtime.seeds →
            EscrowMoves setting.runtime hashlock (some escrow) (before.escrow hashlock))
      | .timer => True
  | .load, .ok _ => after = before.withStore before.store.load
  | .record hashlock swapId, answer => ∃ result,
      (answer, after) =
        ((before.store.recordPreLock hashlock swapId before.now result).1,
          before.withStore (before.store.recordPreLock hashlock swapId before.now result).2)
  | .markFunded hashlock, _ => ∃ result,
      after = before.withStore (before.store.markFunded hashlock result)
  | .remove hashlock, _ => ∃ result,
      after = before.withStore (before.store.remove hashlock result)
  | .quarantine hashlock reason, _ => ∃ result,
      after = before.withStore (before.store.quarantine hashlock reason before.now result)
  | .snapshot, answer => after = before ∧ answer = before.store.snapshot
  | .contains hashlock, answer => after = before ∧ answer = before.store.contains hashlock
  | .hasInFlight, answer => after = before ∧ answer = before.store.hasInFlight
  | .random, _ | .sleep, _ | .deadlinePassed, _ | .cancelRequested, _ | .report _, _
  | .lezConnect, _ | .ethConnect, _ | .getAccountBalance _, _ | .getAccountsNonces _, _
  | .sendTransaction _, _ | .sendEth _, .error _ | .load, .error _ | .ops _, _
  | .spawnResume .., _ | .joinResumed, _ => after = before

/-- The environment of the flows. -/
def environment (setting : Setting) : Environment interface (World setting) where
  perform op before answer after := ∃ middle, Act op before answer middle ∧
    ReflTransGen Drift middle after
  drift := Drift

/-- What a world may grow into: escrows and swaps move along their life cycles and no
clock runs backwards. -/
structure Grows (before after : World setting) : Prop where
  lez : Lez.Grows setting.runtime before.lez.ledger after.lez.ledger
  eth : Eth.Evolves before.eth.store after.eth.store
  now : before.now ≤ after.now
  lezTime : before.lez.time ≤ after.lez.time
  ethTime : before.eth.time ≤ after.eth.time

variable {before after world later : World setting} {op : Op} {answer : Answer op}

theorem Grows.refl (world : World setting) : Grows world world :=
  ⟨.refl _, .refl _, BitVec.le_refl _, BitVec.le_refl _, BitVec.le_refl _⟩

theorem Grows.trans (first : Grows before world) (second : Grows world after) :
    Grows before after :=
  ⟨first.lez.trans second.lez, first.eth.trans second.eth, BitVec.le_trans first.now second.now,
    BitVec.le_trans first.lezTime second.lezTime, BitVec.le_trans first.ethTime second.ethTime⟩

/-- Drifting grows the world. -/
theorem Drift.grows (drift : Drift before after) : Grows before after := by
  cases drift with
  | lez step timely time =>
      obtain ⟨events, lawful⟩ := before.lez.lawful
      exact ⟨step.grows lawful, .refl _, BitVec.le_refl _, by simp [time], BitVec.le_refl _⟩
  | eth transaction =>
      exact ⟨.refl _, (Eth.transaction_grows before.eth.sound before.eth.logged transaction).2.2,
        BitVec.le_refl _, BitVec.le_refl _, BitVec.le_refl _⟩
  | tick forward synced => exact ⟨.refl _, .refl _, forward.1, forward.2.1, forward.2.2⟩

theorem drifts_grow (drifts : ReflTransGen Drift before after) : Grows before after := by
  induction drifts with
  | refl => exact .refl _
  | tail _ last ih => exact ih.trans last.grows

theorem Grows.withStore (world : World setting) (store : StateStore) :
    Grows world (world.withStore store) :=
  ⟨.refl _, .refl _, BitVec.le_refl _, BitVec.le_refl _, BitVec.le_refl _⟩

/-- No operation undoes anything on a chain. -/
theorem Act.grows (act : Act op before answer after) : Grows before after := by
  cases op with
  | nowUnix | getAccount | getHTLC | selectEth | selectLez | snapshot | contains | hasInFlight =>
      obtain rfl := act.1
      exact .refl _
  | load =>
      cases answer with
      | error e =>
          obtain rfl : after = before := act
          exact .refl _
      | ok =>
          obtain rfl : after = before.withStore before.store.load := act
          exact .withStore _ _
  | record =>
      obtain ⟨result, same⟩ := act
      cases same
      exact .withStore _ _
  | markFunded | remove | quarantine =>
      obtain ⟨result, rfl⟩ := act
      exact .withStore _ _
  | sendEth call =>
      cases answer with
      | error e =>
          obtain rfl : after = before := act
          exact .refl _
      | ok receipt =>
          simp only [Act] at act
          split at act
          · obtain ⟨store, executes, -, rfl⟩ := act
            exact (Drift.eth executes.transaction).grows
          · obtain rfl := act.1
            exact .refl _
  | _ =>
      obtain rfl : after = before := act
      exact .refl _

/-- Neither does performing one, whatever happens meanwhile. -/
theorem performed_grows (performed : (environment setting).perform op before answer after) :
    Grows before after := by
  obtain ⟨middle, act, drifts⟩ := performed
  exact act.grows.trans (drifts_grow drifts)

/-- A `LezTransaction` is executed on the way from one world to another. -/
def LezTransaction.ExecutedBetween (transaction : LezTransaction)
    (before after : World setting) : Prop :=
  ∃ reached next : World setting, Grows before reached ∧
    transaction.Executes setting reached.lez.time reached.lez.ledger next.lez.ledger ∧
    Grows next after

/-- An escrow that is settled stays as it is. -/
theorem Grows.settled {seed : Bytes32} {escrow : HTLCEscrow} (grows : Grows before after)
    (seeded : seed ∈ setting.runtime.seeds) (there : before.escrow seed = some escrow)
    (settled : escrow.state ≠ .Locked) : after.escrow seed = some escrow := by
  have moves := grows.lez.moves seed seeded
  unfold World.escrow at there ⊢
  rw [there] at moves
  exact moves.settled_eq settled

/-- A swap that is settled stays as it is. -/
theorem Grows.settled_htlc {swapId : Bytes32} (grows : Grows before after)
    (settled : (before.htlc swapId).state = .CLAIMED ∨ (before.htlc swapId).state = .REFUNDED) :
    after.htlc swapId = before.htlc swapId :=
  (grows.eth.moves swapId).settled_eq settled

/-- An executed claim leaves the escrow claimed with the preimage it showed. -/
theorem claim_settles {hashlock : Bytes32} {nonces : List U128} {shown : List UInt8}
    (executed : (LezTransaction.htlc (setting.runtime.pda hashlock) nonces
      (.Claim shown)).ExecutedBetween before after) :
    ∃ escrow, after.escrow hashlock = some escrow ∧ escrow.state = .Claimed ∧
      escrow.preimage = some shown := by
  obtain ⟨reached, next, -, executes, rest⟩ := executed
  obtain ⟨events, lawful⟩ := reached.lez.lawful
  have effect := lawful.effect (.execute executes)
  cases effect with
  | locks created terms locks balances => cases locks.instruction
  | refunds seed terms refunds => cases refunds.instruction
  | claims seed terms preimage claims =>
      obtain ⟨rfl⟩ : shown = preimage := by injection claims.instruction
      have atPda : setting.runtime.pda hashlock = setting.runtime.pda seed := by
        have accounts := claims.settles.accounts
        simp only [List.cons.injEq] at accounts
        exact accounts.2.1
      have settled := claims.settles.escrowAt_settled (Lez.encodable_claimed claims.length)
      have final := rest.settled claims.settles.seeded settled (by simp)
      refine ⟨{ terms.escrow seed .Locked none with state := .Claimed, preimage := some shown },
        ?_, rfl, rfl⟩
      rw [← final]
      simp only [World.escrow, escrowAt, atPda]

/-- A refund that was mined without reverting leaves the swap refunded. -/
theorem refund_settles {swapId : Bytes32} {receipt : Receipt}
    (performed : (environment setting).perform (.sendEth (.refund swapId)) before (.ok receipt) after)
    (mined : receipt.status = true) : (after.htlc swapId).state = .REFUNDED := by
  obtain ⟨middle, act, drifts⟩ := performed
  simp only [Act, mined, if_true] at act
  obtain ⟨store, executes, -, rfl⟩ := act
  have refunded : (store.contract.htlcs swapId).state = .REFUNDED := by
    simp [executes.refunds.after]
  have kept := (drifts_grow drifts).settled_htlc (.inr refunded)
  rw [kept]
  exact refunded

end AtomicSwaps.Swap
