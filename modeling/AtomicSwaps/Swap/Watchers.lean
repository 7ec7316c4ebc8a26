import AtomicSwaps.Eth.Watcher
import AtomicSwaps.Lez.EscrowFeed
import AtomicSwaps.Semantics.Feeds
import AtomicSwaps.Semantics.Refinement
import AtomicSwaps.Swap.Witness

/-!
# The watchers behind the events

The flows wait for events of two watchers, of which the world they run in only says when they are
true. Here the watchers are there, any number of them: they poll the chains whenever they like, and
what a flow receives is what one of them has sent it. The flows cannot tell the difference.
-/

namespace AtomicSwaps.Swap

open Semantics Relation
open Lez (HTLCState HTLCEscrow EscrowMoves escrowIn watchRead EscrowWatch EscrowWatchOp EscrowWatchM
  ofClient clientCall escrowSends Announced Terminal)

/-! ## What the chains keep -/

variable {setting : Setting}

/-- What a world becomes, with the logs of the contract that are there. -/
structure Onward (before after : World setting) : Prop where
  grows : Grows before after
  logs : before.eth.store.contract.logs ⊆ after.eth.store.contract.logs

/-- Calls of the contract only add to its logs. -/
def logGrowth (hashes : Eth.Hashes) (clock : Eth.Block → Eth.Block → Prop) :
    Nested.Growth (Eth.protocol hashes clock) :=
  Eth.growthOf hashes clock (fun before after => before.contract.logs ⊆ after.contract.logs)
    (fun _ => List.Subset.refl _) List.Subset.trans
    (fun effect => by
      rcases Eth.completes_cases effect with ⟨value, rfl⟩ | ⟨_, _, _, _, _, locked, -⟩
      · exact List.Subset.refl _
      · rw [locked.after]
        simp)
    (fun settlement => by
      obtain ⟨log, effect⟩ := settlement.effect
      rw [effect.after]
      simp)

variable {before middle after world : World setting}

theorem Onward.refl (world : World setting) : Onward world world :=
  ⟨.refl world, List.Subset.refl _⟩

theorem Onward.trans (first : Onward before middle) (second : Onward middle after) :
    Onward before after :=
  ⟨first.grows.trans second.grows, List.Subset.trans first.logs second.logs⟩

theorem onwards (moved : ReflTransGen Onward before after) : Onward before after := by
  induction moved with
  | refl => exact .refl _
  | tail _ last ih => exact ih.trans last

theorem Drift.onward (drift : Drift before after) : Onward before after := by
  refine ⟨drift.grows, ?_⟩
  cases drift with
  | lez | tick => exact List.Subset.refl _
  | eth transaction =>
      obtain ⟨events, run⟩ := transaction
      exact (logGrowth setting.hashes Eth.Forward).from_start run

theorem Act.onward {op : Op} {answer : Answer op} (act : Act op before answer after) :
    Onward before after := by
  refine ⟨act.grows, ?_⟩
  cases op with
  | sendEth call =>
      cases answer with
      | error e =>
          obtain rfl : after = before := act
          exact List.Subset.refl _
      | ok receipt =>
          simp only [Act] at act
          split at act
          · obtain ⟨store, executes, logs, rfl⟩ := act
            intro log member
            exact logs ▸ List.mem_append_left _ member
          · obtain rfl := act.1
            exact List.Subset.refl _
  | nowUnix | getAccount | getHTLC | selectEth | selectLez | snapshot | contains | hasInFlight =>
      obtain rfl := act.1
      exact List.Subset.refl _
  | load =>
      cases answer with
      | error e =>
          obtain rfl : after = before := act
          exact List.Subset.refl _
      | ok =>
          obtain rfl : after = before.withStore before.store.load := act
          exact List.Subset.refl _
  | record =>
      obtain ⟨result, same⟩ := act
      cases same
      exact List.Subset.refl _
  | markFunded | remove | quarantine =>
      obtain ⟨result, rfl⟩ := act
      exact List.Subset.refl _
  | _ =>
      obtain rfl : after = before := act
      exact List.Subset.refl _

/-! ## What the watchers say -/

/-- An event of the watcher of an escrow is of an escrow that has only moved on since. -/
def EscrowTold (hashlock : Bytes32) (world : World setting) (event : LezHtlcEvent) : Prop :=
  ∃ escrow balance lastState,
    watchRead (setting.runtime.pda hashlock) lastState escrow balance = some event ∧
    (hashlock ∈ setting.runtime.seeds →
      EscrowMoves setting.runtime hashlock (some escrow) (world.escrow hashlock))

/-- What a watcher of an escrow may have announced. -/
def EscrowOrder (setting : Setting) (hashlock : Bytes32) : List LezHtlcEvent → Prop :=
  Announced (setting.runtime.pda hashlock)

/-- A lock that the watcher of the contract tells of is in the contract's logs. -/
def ContractTold (world : World setting) (event : EthHtlcEvent) : Prop :=
  match event with
  | .Locked event =>
      Eth.Log.Locked event.swapId event.sender event.recipient event.amount event.hashlock
        event.timelock event.takerLezAccount ∈ world.eth.store.contract.logs
  | .Claimed .. | .Refunded .. => True

theorem EscrowTold.onward {hashlock : Bytes32} {event : LezHtlcEvent} (onward : Onward before after)
    (told : EscrowTold hashlock before event) : EscrowTold hashlock after event := by
  obtain ⟨escrow, balance, lastState, read, moves⟩ := told
  exact ⟨escrow, balance, lastState, read,
    fun seeded => (moves seeded).trans (onward.grows.lez.moves hashlock seeded)⟩

theorem ContractTold.onward {event : EthHtlcEvent} (onward : Onward before after)
    (told : ContractTold before event) : ContractTold after event := by
  cases event with
  | Locked event => exact onward.logs told
  | Claimed | Refunded => trivial

/-- The watchers of escrows: the sequencer answers them as it answers the flows. -/
def escrowFeeding (setting : Setting) :
    Feeding EscrowWatch (World setting) Bytes32 LezHtlcEvent (Except SwapError Unit) where
  environment :=
    { perform := fun op before answer after => after = before ∧ match op, answer with
        | .client op, answer => Act op before answer before
        | .send _, _ => True
      drift := Onward }
  sends := escrowSends
  starts hashlock program := ∃ fuel, program = (setting.lezClient.escrowFeed hashlock fuel).run

/-- What is sent with an exchange. -/
def contractSends : Exchange Eth.Watch → Option EthHtlcEvent
  | ⟨.send event, true⟩ => some event
  | _ => none

/-- The watchers of the contract: the logs that a query returns are the contract's. -/
def contractFeeding (setting : Setting) :
    Feeding Eth.Watch (World setting) Unit EthHtlcEvent (Except SwapError Unit) where
  environment :=
    { perform := fun op before answer after => after = before ∧ match op, answer with
        | .query .., .ok logs => ∀ log ∈ logs, log.event ∈ before.eth.store.contract.logs
        | _, _ => True
      drift := Onward }
  sends := contractSends
  starts _ program := ∃ fuel, program = (Eth.watchEvents fuel).run

/-! ## The watcher of an escrow is honest -/

section Escrow

variable {hashlock : Bytes32} {lastState : Option HTLCState} {escrow : HTLCEscrow} {balance : U128}

/-- A part of the watcher of an escrow that only announces what is told truthfully. -/
abbrev EscrowGuarded {α : Type} (hashlock : Bytes32) (post : World setting → α → Prop)
    (program : Program EscrowWatch α) (world : World setting) : Prop :=
  Guarded (escrowFeeding setting).environment
    ((escrowFeeding setting).Truthful EscrowTold hashlock) post program world

/-- The operations of the client announce nothing. -/
theorem truthful_client (world : World setting) (op : Op) :
    (escrowFeeding setting).Truthful EscrowTold hashlock world (EscrowWatchOp.client op) := by
  intro answer event sends
  cases sends

/-- A call of the client. -/
theorem clientCall_guarded {α : Type} {flow : Flow α} :
    EscrowGuarded hashlock (fun later _ => Onward world later) (clientCall flow).run world := by
  suffices moved : ∀ (program : Program interface (Except SwapError α)) start, Onward world start →
      EscrowGuarded hashlock (fun later _ => Onward world later) (program.embed ofClient) start by
    exact moved flow.run world (.refl world)
  intro program
  induction program with
  | pure value => exact fun _ moved => moved
  | call op next ih =>
      intro start moved before drifted
      refine ⟨truthful_client before op, fun answer after performed => ?_⟩
      obtain ⟨rfl, -⟩ := performed
      exact ih _ after (moved.trans (onwards drifted))
  | hang => exact fun _ _ => trivial

/-- An attempt of a call of the client that begins with an operation. -/
theorem clientCall_request {α : Type} {op : Op} {rest : Answer op → Flow α} :
    (clientCall (Program.attempt (request op >>= rest))).run =
      .call (.client op) fun answer => (clientCall (Program.attempt (rest answer))).run := rfl

/-- An escrow that the watcher has read is there. -/
theorem clientCall_getEscrow :
    EscrowGuarded hashlock (fun later result => ∀ escrow, result = .ok (.ok (some escrow)) →
        hashlock ∈ setting.runtime.seeds →
          EscrowMoves setting.runtime hashlock (some escrow) (later.escrow hashlock))
      (clientCall (Program.attempt (setting.lezClient.getEscrow hashlock))).run world := by
  unfold Lez.LezClient.getEscrow
  rw [clientCall_request]
  intro before drifted
  refine ⟨truthful_client before _, fun answer after performed => ?_⟩
  obtain ⟨rfl, -, truthful⟩ := performed
  cases answer with
  | error e =>
      rintro escrow ⟨⟩
  | ok data =>
      cases decoded : escrowIn hashlock data with
      | error message =>
          simp only [decoded]
          trivial
      | ok found =>
          simp only [decoded]
          rintro escrow ⟨⟩ seeded
          rw [truthful hashlock seeded rfl data escrow rfl decoded]

theorem pollPause_guarded {next : Option HTLCState ⊕ Unit} :
    EscrowGuarded hashlock (fun _ _ => True)
      (do Lez.pollPause; return next : EscrowWatchM (Option HTLCState ⊕ Unit)).run world :=
  fun before _ => ⟨truthful_client before _, fun _ _ _ => trivial⟩

/-- What is announced of an escrow that was read is told truthfully. -/
theorem sendRead_guarded (moves : hashlock ∈ setting.runtime.seeds →
      EscrowMoves setting.runtime hashlock (some escrow) (world.escrow hashlock)) :
    EscrowGuarded hashlock (fun _ _ => True)
      (Lez.sendRead (setting.runtime.pda hashlock) lastState escrow balance).run world := by
  unfold Lez.sendRead
  split
  · rename_i event read
    apply Guarded.request_bind_iff.mpr
    intro before drifted
    constructor
    · intro answer sent sends
      have same : event = sent := by
        cases answer with
        | false => cases sends
        | true => exact Option.some.inj sends
      subst same
      have told : EscrowTold hashlock world event := ⟨escrow, balance, lastState, read, moves⟩
      exact told.onward (onwards drifted)
    · intro answer after _
      cases answer with
      | false => trivial
      | true =>
          by_cases locked : escrow.state = .Locked
          · simpa [locked] using pollPause_guarded
          · simp only [locked, ne_eq, not_false_eq_true, if_true]
            trivial
  · exact pollPause_guarded

theorem watchTurn_guarded :
    EscrowGuarded hashlock (fun _ _ => True)
      (setting.lezClient.watchTurn hashlock lastState).run world := by
  unfold Lez.LezClient.watchTurn
  apply Guarded.run_bind_iff.mpr
  apply clientCall_getEscrow.weaken
  intro later result there
  match result with
  | .error e => trivial
  | .ok (.error e) | .ok (.ok none) => exact pollPause_guarded
  | .ok (.ok (some escrow)) =>
      have moves := there escrow rfl
      simp only
      split
      · apply Guarded.run_bind_iff.mpr
        apply clientCall_guarded.weaken
        intro last balance onward
        cases balance with
        | error e => trivial
        | ok balance =>
            exact sendRead_guarded fun seeded =>
              (moves seeded).trans (onward.grows.lez.moves hashlock seeded)
      · exact sendRead_guarded moves

theorem escrowFeed_guarded {fuel : Nat} :
    EscrowGuarded hashlock (fun _ _ => True)
      (setting.lezClient.escrowFeed hashlock fuel).run world :=
  Guarded.loop fun _ _ => watchTurn_guarded

/-- The watcher of an escrow only says what is true, and in order. -/
theorem escrowFeed_honest {program : Program EscrowWatch (Except SwapError Unit)}
    (starts : (escrowFeeding setting).starts hashlock program) :
    (escrowFeeding setting).Honest EscrowTold (EscrowOrder setting) hashlock program := by
  obtain ⟨fuel, rfl⟩ := starts
  have orderly : Follows (Lez.Orderly (setting.lezClient.escrowPda hashlock)) (fun _ _ => True)
      (setting.lezClient.escrowFeed hashlock fuel).run [] := Lez.escrowFeed_follows
  exact ⟨fun _ => escrowFeed_guarded, orderly, .nothing⟩

end Escrow

/-! ## The watcher of the contract is honest -/

section Contract

/-- A part of the watcher of the contract that only tells of locks that are logged. -/
abbrev ContractGuarded {α : Type} (program : Program Eth.Watch α) (world : World setting) : Prop :=
  Guarded (contractFeeding setting).environment
    ((contractFeeding setting).Truthful (fun _ => ContractTold) ()) (fun _ _ => True) program world

variable {fuel : Nat}

/-- A request that sends nothing, and the rest. -/
theorem silent_guarded {op : Eth.WatchOp} {α : Type} {rest : Eth.Watch.Answer op → Eth.WatchM α}
    (silent : ∀ answer, contractSends ⟨op, answer⟩ = none)
    (onward : ∀ (before : World setting) answer,
      (contractFeeding setting).environment.perform op before answer before →
      ContractGuarded (rest answer).run before) :
    ContractGuarded (Program.request op >>= rest).run world := by
  apply Guarded.request_bind_iff.mpr
  refine fun before _ => ⟨fun answer event sends => ?_, fun answer after performed => ?_⟩
  · have nothing : contractSends ⟨op, answer⟩ = some event := sends
    rw [silent answer] at nothing
    cases nothing
  · obtain rfl : after = before := performed.1
    exact onward after answer performed

theorem sleep_guarded {α : Type} {value : α} :
    ContractGuarded (do Program.request (I := Eth.Watch) .sleep; return value : Eth.WatchM α).run
      world :=
  silent_guarded (fun _ => rfl) fun _ _ _ => trivial

/-- Locks that are logged are forwarded truthfully. -/
theorem forward_guarded {events : List EthHtlcEvent}
    (told : ∀ event ∈ events, ContractTold world event) :
    ContractGuarded (Eth.forward events).run world := by
  induction events generalizing world with
  | nil => trivial
  | cons event events ih =>
      unfold Eth.forward
      apply Guarded.request_bind_iff.mpr
      refine fun before drifted => ⟨fun answer other sends => ?_, fun answer after performed => ?_⟩
      · obtain rfl : event = other := by
          cases answer with
          | false => cases sends
          | true => exact Option.some.inj sends
        exact (told event List.mem_cons_self).onward (onwards drifted)
      · obtain rfl : after = before := performed.1
        cases answer with
        | false => trivial
        | true =>
            exact ih fun other member =>
              (told other (List.mem_cons_of_mem _ member)).onward (onwards drifted)

theorem forwardKind_guarded {kind : Eth.EventKind} {fromBlock toBlock : U64} :
    ContractGuarded (Eth.forwardKind kind fromBlock toBlock).run world := by
  refine silent_guarded (fun _ => rfl) fun before answer performed => ?_
  cases answer with
  | error message => exact sleep_guarded
  | ok logs =>
      have logged : ∀ log ∈ logs, log.event ∈ before.eth.store.contract.logs := performed.2
      apply Guarded.run_bind_iff.mpr
      have told : ∀ event ∈ logs.map Eth.MinedLog.forwarded, ContractTold before event := by
        intro event member
        obtain ⟨log, mined, rfl⟩ := List.mem_map.mp member
        have there := logged log mined
        unfold Eth.MinedLog.forwarded
        split
        · rename_i same
          rw [same] at there
          exact there
        · trivial
        · trivial
      apply (forward_guarded told).weaken
      intro later delivered _
      match delivered with
      | .error e | .ok true | .ok false => trivial

theorem forwardKinds_guarded {kinds : List Eth.EventKind} {fromBlock toBlock : U64} :
    ContractGuarded (Eth.forwardKinds fromBlock toBlock kinds).run world := by
  induction kinds generalizing world with
  | nil => trivial
  | cons kind kinds ih =>
      apply Guarded.run_bind_iff.mpr
      apply forwardKind_guarded.weaken
      intro later ended _
      match ended with
      | .error e | .ok .Failed | .ok .Closed => trivial
      | .ok .Sent => exact ih

theorem watchRound_guarded {fromBlock : U64} :
    ContractGuarded (Eth.watchRound fromBlock).run world := by
  refine silent_guarded (fun _ => rfl) fun before answer _ => ?_
  cases answer with
  | error message => exact sleep_guarded
  | ok latest =>
      simp only
      split
      · apply Guarded.run_bind_iff.mpr
        apply forwardKinds_guarded.weaken
        intro later ended _
        match ended with
        | .error e | .ok .Failed | .ok .Closed => trivial
        | .ok .Sent => exact sleep_guarded
      · exact sleep_guarded

theorem initialBlock_guarded : ContractGuarded (Eth.initialBlock fuel).run world := by
  apply Guarded.loop
  intro world _
  refine silent_guarded (fun _ => rfl) fun before answer _ => ?_
  cases answer with
  | ok block => trivial
  | error message => exact sleep_guarded

theorem watchEvents_guarded : ContractGuarded (Eth.watchEvents fuel).run world := by
  apply Guarded.run_bind_iff.mpr
  apply initialBlock_guarded.weaken
  intro later result _
  cases result with
  | error e => trivial
  | ok start => exact Guarded.loop fun _ _ => watchRound_guarded

/-- Any program obeys a rule that admits everything. -/
theorem contract_lawful {program : Program Eth.Watch (Except SwapError Unit)}
    {history : History Eth.Watch} :
    Follows ((contractFeeding setting).Lawful (fun _ _ => True) ()) (fun _ _ => True) program
      history :=
  (Follows.extends_history program history).mono (fun _ _ _ _ _ _ => trivial) fun _ _ _ => trivial

/-- The watcher of the contract only tells of locks that are logged. -/
theorem watchEvents_honest {program : Program Eth.Watch (Except SwapError Unit)}
    (starts : (contractFeeding setting).starts () program) :
    (contractFeeding setting).Honest (fun _ => ContractTold) (fun _ _ => True) () program := by
  obtain ⟨fuel, rfl⟩ := starts
  exact ⟨fun _ => watchEvents_guarded, contract_lawful, trivial⟩

end Contract

/-! ## The world with its watchers -/

/-- A world, the watchers that poll it and what they have sent. -/
structure WatchedWorld (setting : Setting) where
  world : World setting
  escrows : List (Feed EscrowWatch Bytes32 LezHtlcEvent (Except SwapError Unit))
  contract : List (Feed Eth.Watch Unit EthHtlcEvent (Except SwapError Unit))

namespace WatchedWorld

/-- What happens by itself: the world drifts, and watchers are started, take turns and are
stopped whenever they like. -/
inductive Drift : WatchedWorld setting → WatchedWorld setting → Prop where
  | world {watched : WatchedWorld setting} {world : World setting}
      (drift : Swap.Drift watched.world world) : Drift watched { watched with world }
  | escrows {watched : WatchedWorld setting}
      {escrows : List (Feed EscrowWatch Bytes32 LezHtlcEvent (Except SwapError Unit))}
      (step : (escrowFeeding setting).Step watched.world watched.escrows escrows) :
      Drift watched { watched with escrows }
  | contract {watched : WatchedWorld setting}
      {contract : List (Feed Eth.Watch Unit EthHtlcEvent (Except SwapError Unit))}
      (step : (contractFeeding setting).Step watched.world watched.contract contract) :
      Drift watched { watched with contract }

/-- An operation of a flow. The event of a select is the next one in the channel of a watcher;
everything else is asked of the world. -/
def Act (op : Op) (before : WatchedWorld setting) (answer : Answer op)
    (after : WatchedWorld setting) : Prop :=
  match op, answer with
  | .selectEth _, .event event => ∃ contract, Received () event before.contract contract ∧
      after = { before with contract }
  | .selectLez hashlock _, .event event => ∃ escrows,
      Received hashlock event before.escrows escrows ∧ after = { before with escrows }
  | op, answer => ∃ world, Swap.Act op before.world answer world ∧ after = { before with world }

/-- The environment of the flows, watchers and all. -/
def environment (setting : Setting) : Environment interface (WatchedWorld setting) where
  perform op before answer after := ∃ middle, Act op before answer middle ∧
    ReflTransGen Drift middle after
  drift := Drift

/-- The watchers have said what is true, and say nothing else. -/
structure Sound (watched : WatchedWorld setting) : Prop where
  escrows : (escrowFeeding setting).AllSound EscrowTold (EscrowOrder setting) watched.world
    watched.escrows
  contract : (contractFeeding setting).AllSound (fun _ => ContractTold) (fun _ _ => True)
    watched.world watched.contract

variable {before after watched : WatchedWorld setting}

/-- A world without watchers. -/
def unwatched (world : World setting) : WatchedWorld setting := ⟨world, [], []⟩

theorem unwatched_sound : (unwatched world).Sound := ⟨by simp [unwatched, Feeding.AllSound],
  by simp [unwatched, Feeding.AllSound]⟩

theorem Sound.onward (sound : watched.Sound) (onward : Onward watched.world world) :
    Sound { watched with world } where
  escrows := sound.escrows.drifts EscrowTold.onward onward
  contract := sound.contract.drifts ContractTold.onward onward

/-- The watchers of the contract may take turns at any time. -/
theorem Drift.contract_turns
    {contract : List (Feed Eth.Watch Unit EthHtlcEvent (Except SwapError Unit))}
    (turns : ReflTransGen ((contractFeeding setting).Step watched.world) watched.contract contract) :
    ReflTransGen Drift watched { watched with contract } := by
  induction turns with
  | refl => exact .refl
  | tail _ last ih => exact ih.tail (.contract last)

/-- Watchers may do what they like: nothing of it is seen. -/
theorem Drift.seen (sound : before.Sound) (drift : Drift before after) :
    after.Sound ∧ ReflTransGen Swap.Drift before.world after.world := by
  cases drift with
  | world drift => exact ⟨sound.onward drift.onward, .single drift⟩
  | escrows step =>
      exact ⟨⟨sound.escrows.step (fun _ _ => escrowFeed_honest) step, sound.contract⟩, .refl⟩
  | contract step =>
      exact ⟨⟨sound.escrows, sound.contract.step (fun _ _ => watchEvents_honest) step⟩, .refl⟩

theorem drifts_seen (sound : before.Sound) (drifts : ReflTransGen Drift before after) :
    after.Sound ∧ ReflTransGen Swap.Drift before.world after.world := by
  induction drifts with
  | refl => exact ⟨sound, .refl⟩
  | tail _ last ih =>
      obtain ⟨kept, seen⟩ := last.seen ih.1
      exact ⟨kept, ih.2.trans seen⟩

/-- What a flow receives from a watcher is what it may be told. -/
theorem Act.seen {op : Op} {answer : Answer op} (sound : before.Sound)
    (act : Act op before answer after) :
    after.Sound ∧ Swap.Act op before.world answer after.world := by
  unfold Act at act
  split at act
  · rename_i event
    obtain ⟨contract, received, rfl⟩ := act
    obtain ⟨told, kept⟩ := sound.contract.received received
    refine ⟨⟨sound.escrows, kept⟩, rfl, ?_⟩
    cases event with
    | Locked event => exact told
    | Claimed | Refunded => trivial
  · obtain ⟨escrows, received, rfl⟩ := act
    obtain ⟨told, kept⟩ := sound.escrows.received received
    exact ⟨⟨kept, sound.contract⟩, rfl, told⟩
  · obtain ⟨world, act, rfl⟩ := act
    exact ⟨sound.onward act.onward, act⟩

/-- The world with its watchers refines the world that is true to its events. -/
theorem refines (setting : Setting) :
    Refines (environment setting) (Swap.environment setting) WatchedWorld.world Sound where
  drift := Drift.seen
  perform := by
    rintro op before answer after sound ⟨middle, act, drifts⟩
    obtain ⟨kept, seen⟩ := act.seen sound
    obtain ⟨later, drifted⟩ := drifts_seen kept drifts
    exact ⟨later, middle.world, seen, drifted⟩

end WatchedWorld

end AtomicSwaps.Swap
