import AtomicSwaps.Semantics.Process
import AtomicSwaps.Swap.Evidence

/-!
# What was seen is so

Operations that were performed on the way to a world, and what the answers they got say
about that world: an escrow that was read or watched has only moved on since, and so has
a swap. A receipt says what it says only if the transaction did not revert.
-/

namespace AtomicSwaps.Swap

open Semantics
open Lez (HTLCEscrow EscrowMoves escrowIn escrowAt watchRead)
open Eth (SwapState)

variable {setting : Setting} {world : World setting}
  {entries : List (Entry interface (World setting))}

/-- Operations that were performed, in worlds that have grown into this one. -/
def Witnessed (entries : List (Entry interface (World setting))) (world : World setting) : Prop :=
  ∀ entry ∈ entries,
    (environment setting).perform entry.op entry.before entry.answer entry.after ∧
      Grows entry.after world

/-- An exchange of the history of some entries is that of an entry. -/
theorem entry_of_mem {op : Op} {answer : Answer op} (member : ⟨op, answer⟩ ∈ historyOf entries) :
    ∃ before after, (⟨op, answer, before, after⟩ : Entry interface (World setting)) ∈ entries := by
  obtain ⟨⟨op, answer, before, after⟩, there, same⟩ := List.mem_map.mp member
  cases same
  exact ⟨before, after, there⟩

/-- An operation that was performed, with its answer. -/
theorem Witnessed.act (witnessed : Witnessed entries world) {op : Op} {answer : Answer op}
    (member : ⟨op, answer⟩ ∈ historyOf entries) :
    ∃ before middle, Act op before answer middle ∧ Grows middle world := by
  obtain ⟨before, after, there⟩ := entry_of_mem member
  obtain ⟨⟨middle, act, drifts⟩, grown⟩ := witnessed _ there
  exact ⟨before, middle, act, (drifts_grow drifts).trans grown⟩

/-- The entries of a complete run. -/
theorem Witnessed.of_execution {α : Type} {program : Program interface α} {start : World setting}
    {value : α} (execution : Execution (environment setting) program start entries value world) :
    Witnessed entries world := by
  intro entry member
  have ordered := execution.ordered Grows.refl (fun first second => first.trans second)
    Drift.grows performed_grows
  exact ⟨execution.performed member, (ordered.2 entry member).2⟩

/-- The entries of a thread. -/
theorem Witnessed.of_justified {Task ρ : Type}
    {system : System interface (World setting) Task ρ} {rule : Task → Trace → Op → Prop}
    {thread : Thread interface (World setting) Task ρ}
    (same : system.environment = environment setting)
    (justified : system.Justified rule Grows world thread) : Witnessed thread.entries world := by
  intro entry member
  have performed := justified.performed entry member
  rw [same] at performed
  exact ⟨performed, justified.reaches entry member⟩

theorem Witnessed.subset {fewer : List (Entry interface (World setting))}
    (witnessed : Witnessed entries world) (included : fewer ⊆ entries) : Witnessed fewer world :=
  fun entry member => witnessed entry (included member)

section Lez

variable {hashlock preimage : Bytes32} {escrow : HTLCEscrow} {event : LezHtlcEvent}

/-- An escrow that was read was there, and has only moved on since. -/
theorem EscrowRead.moves (witnessed : Witnessed entries world)
    (read : EscrowRead setting.lezClient (historyOf entries) hashlock escrow)
    (seeded : hashlock ∈ setting.runtime.seeds) :
    EscrowMoves setting.runtime hashlock (some escrow) (world.escrow hashlock) := by
  obtain ⟨data, member, decoded⟩ := read
  obtain ⟨before, middle, ⟨rfl, truthful⟩, grown⟩ := witnessed.act member
  have there := truthful hashlock seeded rfl data escrow rfl decoded
  rw [← there]
  exact grown.lez.moves hashlock seeded

/-- What a watched event says of the escrow it was read from. -/
theorem Watched.moves (witnessed : Witnessed entries world)
    (watched : Watched (historyOf entries) hashlock event)
    (seeded : hashlock ∈ setting.runtime.seeds) :
    ∃ escrow balance lastState,
      watchRead (setting.runtime.pda hashlock) lastState escrow balance = some event ∧
      EscrowMoves setting.runtime hashlock (some escrow) (world.escrow hashlock) := by
  obtain ⟨seconds, member⟩ := watched
  obtain ⟨before, middle, ⟨rfl, escrow, balance, lastState, read, moves⟩, grown⟩ :=
    witnessed.act member
  exact ⟨escrow, balance, lastState, read, (moves seeded).trans (grown.lez.moves hashlock seeded)⟩

/-- The watcher forwards `Claimed` when it reads a claimed escrow, with its preimage. -/
theorem watchRead_claimed {pda claimed : Lez.AccountId} {lastState : Option Lez.HTLCState}
    {balance : U128} {shown : List UInt8}
    (read : watchRead pda lastState escrow balance = some (.Claimed claimed shown)) :
    escrow.state = .Claimed ∧ escrow.preimage.getD [] = shown := by
  unfold watchRead at read
  split at read
  · cases read
  · split at read
    · cases read
    · cases state : escrow.state with
      | Locked => simp [state] at read
      | Refunded => simp [state] at read
      | Claimed =>
          simp only [state, Option.some.injEq, LezHtlcEvent.Claimed.injEq] at read
          exact ⟨rfl, read.2⟩

/-- The watcher forwards `Refunded` when it reads a refunded escrow. -/
theorem watchRead_refunded {pda refunded : Lez.AccountId} {lastState : Option Lez.HTLCState}
    {balance : U128}
    (read : watchRead pda lastState escrow balance = some (.Refunded refunded)) :
    escrow.state = .Refunded := by
  unfold watchRead at read
  split at read
  · cases read
  · split at read
    · cases read
    · cases state : escrow.state with
      | Locked => simp [state] at read
      | Refunded => rfl
      | Claimed => simp [state] at read

/-- A claim that was seen is there, with the preimage it showed. -/
theorem Revealed.claimed (witnessed : Witnessed entries world)
    (revealed : Revealed setting.lezClient (historyOf entries) hashlock preimage)
    (seeded : hashlock ∈ setting.runtime.seeds) :
    ∃ escrow, world.escrow hashlock = some escrow ∧ escrow.state = .Claimed ∧
      escrow.preimage = some preimage.toList := by
  cases revealed with
  | read read claimed shown =>
      have settled := (read.moves witnessed seeded).settled_eq (by simp [claimed])
      refine ⟨_, settled, claimed, ?_⟩
      obtain ⟨slice, stored, exact⟩ := Option.bind_eq_some_iff.mp shown
      rw [stored, Bytes.ofSlice?_eq_some.mp exact]
  | watched watched long =>
      obtain ⟨escrow, balance, lastState, read, moves⟩ := watched.moves witnessed seeded
      obtain ⟨claimed, shown⟩ := watchRead_claimed read
      refine ⟨escrow, moves.settled_eq (by simp [claimed]), claimed, ?_⟩
      rw [Bytes.ofSlice?_eq_some.mp long] at shown
      cases stored : escrow.preimage with
      | none =>
          have length := preimage.2
          rw [stored] at shown
          rw [show preimage.1 = [] from shown.symm] at length
          cases length
      | some slice =>
          rw [stored] at shown
          exact congrArg some shown

/-- A refund that was seen is there. -/
theorem SeenRefunded.refunded (witnessed : Witnessed entries world)
    (seen : SeenRefunded setting.lezClient (historyOf entries) hashlock)
    (seeded : hashlock ∈ setting.runtime.seeds) :
    ∃ escrow, world.escrow hashlock = some escrow ∧ escrow.state = .Refunded := by
  cases seen with
  | read read refunded =>
      exact ⟨_, (read.moves witnessed seeded).settled_eq (by simp [refunded]), refunded⟩
  | watched watched =>
      obtain ⟨escrow, balance, lastState, read, moves⟩ := watched.moves witnessed seeded
      have refunded := watchRead_refunded read
      exact ⟨escrow, moves.settled_eq (by simp [refunded]), refunded⟩

end Lez

section Eth

variable {swapId : Bytes32}

/-- A claim that was mined without reverting leaves the swap claimed. -/
theorem eth_claim_settles {before after : World setting} {preimage : Bytes32} {receipt : Receipt}
    (act : Act (.sendEth (.claim swapId preimage)) before (.ok receipt) after)
    (mined : receipt.status = true) : (after.htlc swapId).state = .CLAIMED := by
  simp only [Act, mined, if_true] at act
  obtain ⟨store, executes, -, rfl⟩ := act
  change (store.contract.htlcs swapId).state = .CLAIMED
  simp [executes.claims.after]

/-- The answers the maker takes for the end of its ETH leg are right, up to a state that
counts as done: no claim it sends is mined and reverts, and the read `claim_eth` begins
with says `OPEN`, unless the swap is done. -/
structure EthHonest (done : SwapState → Prop) (entries : List (Entry interface (World setting))) :
    Prop where
  mined : ∀ entry ∈ entries, ∀ swapId preimage receipt,
    entry.exchange = ⟨.sendEth (.claim swapId preimage), .ok receipt⟩ →
      receipt.status = true ∨ done (entry.before.htlc swapId).state
  first : ∀ earlier connect read later, entries = earlier ++ connect :: read :: later →
    ∀ swapId htlc, connect.exchange = ⟨.ethConnect, .ok ()⟩ →
      read.exchange = ⟨.getHTLC swapId, .ok htlc⟩ →
      htlc.state = .OPEN ∨ done (read.before.htlc swapId).state

/-- Fewer answers are still right. -/
theorem EthHonest.of_prefix {done : SwapState → Prop}
    {fewer : List (Entry interface (World setting))} (honest : EthHonest done entries)
    (grown : fewer <+: entries) : EthHonest done fewer := by
  obtain ⟨rest, rfl⟩ := grown
  constructor
  · exact fun entry member => honest.mined entry (List.mem_append_left _ member)
  · rintro earlier connect read later rfl
    exact honest.first earlier connect read (later ++ rest) (by simp)

/-- Right up to fewer states is right up to more. -/
theorem EthHonest.mono {done more : SwapState → Prop} (honest : EthHonest done entries)
    (included : ∀ state, done state → more state) : EthHonest more entries := by
  constructor
  · intro entry member swapId preimage receipt same
    exact (honest.mined entry member swapId preimage receipt same).imp_right (included _)
  · intro earlier connect read later split swapId htlc connected answered
    exact (honest.first earlier connect read later split swapId htlc connected answered).imp_right
      (included _)

/-- What counts as done: claimed, and nothing a swap does not stay in. -/
structure Final (done : SwapState → Prop) : Prop where
  claimed : done .CLAIMED
  final : ∀ state, done state → state = .CLAIMED ∨ state = .REFUNDED

/-- A swap that is done stays done. -/
theorem Grows.done {done : SwapState → Prop} {before after : World setting} (final : Final done)
    (grows : Grows before after) (settled : done (before.htlc swapId).state) :
    done (after.htlc swapId).state := by
  rw [grows.settled_htlc (final.final _ settled)]
  exact settled

/-- Where the answers are right, a swap taken for collected is done. -/
theorem Collected.done {done : SwapState → Prop} (final : Final done)
    (witnessed : Witnessed entries world) (honest : EthHonest done entries)
    (collected : Collected (historyOf entries) swapId) : done (world.htlc swapId).state := by
  cases collected with
  | @answered preimage receipt member =>
      obtain ⟨before, after, there⟩ := entry_of_mem member
      obtain ⟨⟨middle, act, drifts⟩, grown⟩ := witnessed _ there
      have onward := (drifts_grow drifts).trans grown
      rcases honest.mined _ there swapId preimage receipt rfl with mined | already
      · apply onward.done final
        rw [eth_claim_settles act mined]
        exact final.claimed
      · exact (act.grows.trans onward).done final already
  | claimed member claimed =>
      obtain ⟨before, middle, ⟨rfl, lagging⟩, grown⟩ := witnessed.act member
      apply grown.done final
      rw [(lagging _ rfl).settled_eq (.inl claimed), claimed]
      exact final.claimed
  | @settled htlc consecutive settled =>
      obtain ⟨front, back, same⟩ := consecutive
      obtain ⟨whole, later, rfl, wholeOf, -⟩ := List.map_eq_append_iff.mp same.symm
      obtain ⟨earlier, pair, rfl, -, pairOf⟩ := List.map_eq_append_iff.mp wholeOf
      obtain ⟨connect, reads, rfl, connected, readsOf⟩ := List.map_eq_cons_iff.mp pairOf
      obtain ⟨read, rest, rfl, answered, restOf⟩ := List.map_eq_cons_iff.mp readsOf
      obtain rfl := List.map_eq_nil_iff.mp restOf
      have found := honest.first earlier connect read later (by simp) swapId htlc connected answered
      have there : read ∈ earlier ++ [connect, read] ++ later := by simp
      rcases found with opened | already
      · exact absurd opened settled
      · exact ((performed_grows (witnessed read there).1).trans (witnessed read there).2).done
          final already

end Eth

end AtomicSwaps.Swap
