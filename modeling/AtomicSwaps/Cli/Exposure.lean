import AtomicSwaps.Cli.Journal
import AtomicSwaps.Cli.MakerSafety
import AtomicSwaps.Semantics.Chronicle

/-!
# One swap at a time

The maker writes a swap down only with nothing in flight in memory, whatever failed before, on
whichever journal write, and wherever it was killed. What is in flight on disk by then this
process took out of memory, or failed to write down, without the file following.
-/

namespace AtomicSwaps.Cli

open Semantics Swap
open Lez (AccountId LezClient)

/-! ## The journal of a world -/

section Store

variable {setting : Setting} {before after world : World setting} {op : Op} {answer : Answer op}

/-- Drifting leaves the journal alone. -/
theorem drifts_store (drifted : Relation.ReflTransGen Drift before after) :
    after.store = before.store := by
  induction drifted with
  | refl => rfl
  | tail _ last ih =>
      rw [← ih]
      cases last <;> rfl

/-- What an operation that was answered calls the store with. -/
def Calls (before : World setting) (exchange : Exchange interface) : StoreEvent → Prop
  | .record swap result => swap.recordedAt = before.now ∧ swap.stage = .PreLock ∧
      exchange = ⟨.record swap.hashlock swap.swapId, (before.store.record swap result).1⟩
  | .markFunded hashlock _ => exchange.op = .markFunded hashlock
  | .remove hashlock _ => exchange.op = .remove hashlock
  | .quarantine hashlock reason now _ => now = before.now ∧
      exchange.op = .quarantine hashlock reason
  | .load => exchange = ⟨.load, .ok ()⟩

/-- An operation calls the store once or leaves it alone. -/
theorem performed_calls (performed : (environment setting).perform op before answer after) :
    (∃ event, Calls before ⟨op, answer⟩ event ∧ after.store = event.apply before.store) ∨
      after.store = before.store := by
  obtain ⟨middle, act, drifted⟩ := performed
  rw [drifts_store drifted]
  cases op with
  | record hashlock swapId =>
      obtain ⟨result, same⟩ := act
      obtain ⟨rfl, rfl⟩ := Prod.mk.inj same
      exact .inl ⟨.record ⟨hashlock, swapId, before.now, .PreLock⟩ result, ⟨rfl, rfl, rfl⟩, rfl⟩
  | markFunded hashlock =>
      obtain ⟨result, rfl⟩ := act
      exact .inl ⟨.markFunded hashlock result, rfl, rfl⟩
  | remove hashlock =>
      obtain ⟨result, rfl⟩ := act
      exact .inl ⟨.remove hashlock result, rfl, rfl⟩
  | quarantine hashlock reason =>
      obtain ⟨result, rfl⟩ := act
      exact .inl ⟨.quarantine hashlock reason before.now result, ⟨rfl, rfl⟩, rfl⟩
  | load =>
      cases answer with
      | error e => exact .inr (congrArg World.store act)
      | ok =>
          obtain rfl := act
          exact .inl ⟨.load, rfl, rfl⟩
  | nowUnix | getAccount | getHTLC | selectEth | selectLez | snapshot | contains | hasInFlight =>
      exact .inr (congrArg World.store act.1)
  | sendEth call =>
      cases answer with
      | error e => exact .inr (congrArg World.store act)
      | ok receipt =>
          simp only [Act] at act
          split at act
          · obtain ⟨store, executes, -, rfl⟩ := act
            exact .inr rfl
          · exact .inr (congrArg World.store act.1)
  | random | sleep | deadlinePassed | cancelRequested | report | lezConnect | ethConnect
  | getAccountBalance | getAccountsNonces | sendTransaction | ops | spawnResume | joinResumed =>
      exact .inr (congrArg World.store act)

end Store

/-! ## Flows that write nothing down -/

/-- An operation that puts nothing in flight. -/
def Op.Calm : Op → Prop
  | .record .. | .load => False
  | _ => True

section Calm

variable {client : LezClient} {config : SwapConfig} {guards : Option LoopGuards} {history : Trace}
  {matched : Matched} {fuel : Nat} {key lezLockTx : String}

theorem Op.Quiet.calm (_ : Trace) (op : Op) (quiet : op.Quiet) : Op.Calm op := by
  cases op <;> first | exact quiet.elim | trivial

/-- A flow none of whose operations puts anything in flight. -/
abbrev CalmFlow {α : Type} (flow : Flow α) (history : Trace) : Prop :=
  Follows (fun _ op => Op.Calm op) (fun _ _ => True) flow.run history

theorem settle_calm {call : OpsCall} : CalmFlow (settle guards key call) history := by
  cases guards with
  | none => trivial
  | some guards => exact ⟨trivial, fun _ => ⟨trivial, fun _ => trivial⟩⟩

theorem collectEth_calm {swapId preimage : Bytes32} :
    CalmFlow (collectEth guards swapId key lezLockTx preimage) history := by
  refine .request_bind trivial fun _ => ?_
  apply Follows.run_bind_iff.mpr
  apply claimEthAfterReveal_rests Op.Quiet.calm
  · exact fun _ _ => trivial
  · intro later tx _ _
    refine .request_bind trivial fun _ => ?_
    apply Follows.run_bind_iff.mpr
    apply settle_calm.weaken
    intro last result _
    cases result <;> trivial
  · exact fun _ _ _ => trivial

theorem refundLez_calm :
    CalmFlow (Swap.refundLez client guards fuel matched key lezLockTx) history := by
  refine .request_bind trivial fun _ => .request_bind trivial fun _ => ?_
  apply Follows.run_bind_iff.mpr
  apply refundConfirmed_rests Op.Quiet.calm
  · exact fun _ _ _ _ _ _ => trivial
  · intro later txHash _ _
    refine .request_bind trivial fun _ => ?_
    apply Follows.run_bind_iff.mpr
    apply settle_calm.weaken
    intro last result _
    cases result <;> trivial
  · intro later preimage _ _
    exact .request_bind trivial fun _ => collectEth_calm
  · exact fun _ _ _ => trivial

theorem awaitReveal_calm :
    CalmFlow (awaitReveal client guards fuel matched key lezLockTx ()) history := by
  refine .request_bind trivial fun now => .request_bind trivial fun answer => ?_
  cases answer with
  | timer =>
      apply Follows.run_bind_iff.mpr
      apply refundLez_calm.weaken
      intro later result _
      cases result <;> trivial
  | event event =>
      cases event with
      | Locked pda => trivial
      | Refunded pda =>
          apply Follows.run_bind_iff.mpr
          apply settle_calm.weaken
          intro later result _
          cases result <;> trivial
      | Claimed pda shown =>
          simp only
          split
          · trivial
          · exact ⟨trivial, fun _ => trivial⟩

/-- Waiting for the taker's claim, and what follows it. -/
theorem watchReveal_calm : CalmFlow (do
      match ← Program.iterate (awaitReveal client guards fuel matched key lezLockTx) fuel () with
      | .inl preimage => collectEth guards matched.swapId key lezLockTx preimage
      | .inr outcome => return outcome : Flow SwapOutcome) history := by
  apply Follows.run_bind_iff.mpr
  apply Follows.iterate (fun _ _ => True) _ fuel () trivial
  intro reached _ _
  apply awaitReveal_calm.weaken
  intro last result _
  match result with
  | .error _ => trivial
  | .ok (.inl ()) => trivial
  | .ok (.inr (.inr _)) => trivial
  | .ok (.inr (.inl preimage)) => exact collectEth_calm

/-- Everything that follows the journal entry of a match. -/
theorem afterRecord_calm {guards : LoopGuards} {call : OpsCall} : CalmFlow (do
      request (.ops call)
      report .LezLocking
      let lezLockTx ← client.lock fuel matched.hashlock matched.lezClaimant config.lezAmount
        matched.lezExpirySecs
      if (some guards).isSome then request (.markFunded key)
      report (.LezLocked lezLockTx)
      report .WaitingForPreimage
      Program.returned (← request .lezConnect)
      match ← Program.iterate (awaitReveal client (some guards) fuel matched key lezLockTx) fuel ()
        with
      | .inl preimage => collectEth (some guards) matched.swapId key lezLockTx preimage
      | .inr outcome => return outcome : Flow SwapOutcome) history := by
  refine .request_bind trivial fun _ => .request_bind trivial fun _ => ?_
  apply Follows.run_bind_iff.mpr
  apply lock_rests Op.Quiet.calm
  · exact fun _ _ _ => trivial
  · exact fun _ _ _ _ _ _ => trivial
  · intro later escrow txHash _ _
    refine .request_bind trivial fun _ => .request_bind trivial fun _ =>
      .request_bind trivial fun _ => .request_bind trivial fun connected => ?_
    cases connected with
    | error e => trivial
    | ok =>
        apply Follows.run_bind_iff.mpr
        apply Follows.run_pure_iff.mpr
        exact watchReveal_calm
  · exact fun _ _ _ => trivial

end Calm

/-! ## In turn -/

section Turns

variable {setting : Setting} {before after world : World setting} {op : Op} {answer : Answer op}
  {client : LezClient} {config : SwapConfig} {guards : LoopGuards} {fuel : Nat} {α : Type}

/-- With at most one swap in flight, and none when the next one is written down. The snapshot that
the gate looks at is taken of whatever there is. -/
def InTurn (world : World setting) (op : Op) : Prop :=
  (op ≠ .snapshot → world.store.snapshot.length ≤ 1) ∧
    ∀ key text, op = .record key text → world.store.snapshot = []

/-- Nothing but `record` makes the list longer. -/
theorem target_length {event : StoreEvent} {state : BotState}
    (others : ∀ swap result, event ≠ .record swap result) :
    (event.target state).inFlight.length ≤ state.inFlight.length := by
  cases event with
  | record swap result => exact absurd rfl (others swap result)
  | markFunded hashlock result => simp [StoreEvent.target, BotState.funded]
  | remove hashlock result => exact List.length_filter_le _ _
  | quarantine hashlock reason now result =>
      simp only [StoreEvent.target]
      split <;> exact List.length_filter_le _ _
  | load => exact Nat.le_refl _

/-- A calm operation puts nothing in flight. -/
theorem calm_snapshot (performed : (environment setting).perform op before answer after)
    (calm : Op.Calm op) : after.store.snapshot.length ≤ before.store.snapshot.length := by
  rcases performed_calls performed with ⟨event, called, same⟩ | same
  · have recorded : ∀ swap result, event ≠ .record swap result := by
      rintro swap result rfl
      obtain ⟨-, -, ⟨⟩⟩ := called
      exact calm
    rw [same]
    unfold StateStore.snapshot
    cases before.store.apply_outcome event with
    | saved state file fresh => exact state ▸ target_length recorded
    | unsaved logged state file => exact state ▸ target_length recorded
    | kept state file => exact Nat.le_of_eq (congrArg (·.inFlight.length) state)
    | strayed other => exact absurd other (recorded _ _)
    | loaded load =>
        subst load
        cases called
        exact calm.elim
  · rw [same]

/-- A calm flow leaves at most as much in flight as there was. -/
theorem calm_guarded {program : Program interface α} {post : Trace → α → Prop} {history : Trace}
    {bound : Nat} (follows : Follows (fun _ op => Op.Calm op) post program history)
    (small : bound ≤ 1) (few : world.store.snapshot.length ≤ bound) :
    Guarded (environment setting) InTurn
      (fun later _ => later.store.snapshot.length ≤ bound) program world := by
  induction program generalizing world history with
  | pure value => exact few
  | call op next ih =>
      intro before drifted
      rw [← drifts_store drifted] at few
      refine ⟨⟨fun _ => few.trans small, ?_⟩, fun answer after performed => ?_⟩
      · rintro key text rfl
        exact follows.1.elim
      · exact ih answer (follows.2 answer) ((calm_snapshot performed follows.1).trans few)
  | hang => trivial

/-- A calm flow and then the rest. -/
theorem calm_bind {β : Type} {first : Flow α} {rest : α → Flow β} {history : Trace} {bound : Nat}
    {post : World setting → Except SwapError β → Prop} (calm : CalmFlow first history)
    (small : bound ≤ 1) (few : world.store.snapshot.length ≤ bound)
    (onward : ∀ later value, later.store.snapshot.length ≤ bound →
      Guarded (environment setting) InTurn post (rest value).run later)
    (failed : ∀ later error, later.store.snapshot.length ≤ bound → post later (.error error)) :
    Guarded (environment setting) InTurn post (first >>= rest).run world := by
  apply Guarded.run_bind_iff.mpr
  apply (calm_guarded calm small few).weaken
  intro later result few
  cases result with
  | ok value => exact onward later value few
  | error error => exact failed later error few

/-- Everything that follows a match. -/
theorem serve_inTurn {matched : Matched} (none : world.store.snapshot = []) :
    Guarded (environment setting) InTurn (fun later _ => later.store.snapshot.length ≤ 1)
      (serve client config (some guards) fuel matched).run world := by
  intro before drifted
  rw [← drifts_store drifted] at none
  refine ⟨⟨fun _ => by simp [none], fun _ _ _ => none⟩, fun answer after performed => ?_⟩
  -- the journal has one entry now, or still none
  have few : after.store.snapshot.length ≤ 1 := by
    rcases performed_calls performed with ⟨event, called, same⟩ | same
    · have empty : before.store.state.inFlight = [] := none
      rw [same]
      unfold StateStore.snapshot
      cases event with
      | record swap result =>
          have := StateStore.record_eq before.store swap result
          simp only [StoreEvent.apply]
          rw [this]
          split
          · simp [empty]
          · cases result <;> simp [empty]
      | markFunded | remove => cases called
      | quarantine => cases called.2
      | load => cases called
    · rw [same, none]
      simp
  cases answer with
  | error e => exact few
  | ok =>
      have calm := @afterRecord_calm client config [] matched fuel
        (Hex.encode matched.hashlock.toList) guards
        (.accepted (Hex.encode matched.hashlock.toList) (display matched.swapId))
      exact calm_guarded calm (Nat.le_refl 1) few

/-- Waiting for a lock writes nothing down. -/
theorem awaitLocks_calm : CalmFlow
    (Program.iterate (awaitLock client config (some guards) none) fuel [])
    [⟨.report .WaitingForEthLock, ()⟩] := by
  apply Follows.iterate (fun later rejected => rejected = rejectedIn later) _ fuel [] rfl
  rintro later rejected rfl
  apply (awaitLock_rests Op.Quiet.calm).weaken
  intro last result ends
  match result with
  | .error _ => trivial
  | .ok (.inl _) => exact ends
  | .ok (.inr _) => trivial

/-- `run_maker` in loop mode. -/
theorem runMaker_inTurn (none : world.store.snapshot = []) :
    Guarded (environment setting) InTurn (fun later _ => later.store.snapshot.length ≤ 1)
      (runMaker client config (some guards) fuel .none).run world := by
  have connecting : CalmFlow (do
      report .WaitingForEthLock
      Program.returned (← request .ethConnect)) [] := by
    refine .request_bind trivial fun _ => .request_bind trivial fun connected => ?_
    cases connected <;> trivial
  have empty : ∀ later : World setting, later.store.snapshot.length ≤ 0 →
      later.store.snapshot = [] := fun later few => List.length_eq_zero_iff.mp (Nat.le_zero.mp few)
  apply calm_bind connecting (Nat.zero_le 1) (by simp [none])
  · intro later _ few
    apply calm_bind awaitLocks_calm (Nat.zero_le 1) few
    · intro later matched few
      cases matched with
      | none => exact Nat.le_succ_of_le few
      | some matched => exact serve_inTurn (empty later few)
    · exact fun later _ few => Nat.le_succ_of_le few
  · exact fun later _ few => Nat.le_succ_of_le few

/-- What an iteration ends with: nothing in flight if the loop goes on. -/
def TurnEnds (later : World setting) :
    Except SwapError (LoopCounters ⊕ LoopCounters) → Prop
  | .ok (.inl _) => later.store.snapshot.length ≤ 0
  | .ok (.inr _) | .error _ => later.store.snapshot.length ≤ 1

/-- Stop or go on after an iteration. -/
theorem afterIteration_inTurn {counters : LoopCounters} (few : world.store.snapshot.length ≤ 1) :
    Guarded (environment setting) InTurn TurnEnds (afterIteration counters).run world := by
  intro before drifted
  rw [← drifts_store drifted] at few
  refine ⟨⟨fun _ => few, by simp⟩, ?_⟩
  rintro inFlight after ⟨_, ⟨rfl, rfl⟩, onward⟩
  rw [← drifts_store onward] at few ⊢
  cases stuck : after.store.hasInFlight with
  | true =>
      have calm : CalmFlow (report (.AutoAcceptSwapFailed counters.iteration
          ("in-flight journal entry unresolved after swap — stopping loop for " ++
            "supervised restart"))) [] := ⟨trivial, fun _ => trivial⟩
      exact calm_bind calm (Nat.le_refl 1) few (fun _ _ few => few) fun _ _ few => few
  | false =>
      have empty : after.store.state.inFlight = [] := by
        simpa [StateStore.hasInFlight] using stuck
      exact Nat.le_of_eq (congrArg List.length empty)

/-- Reporting how a swap ended, and then stopping or going on. -/
theorem reported_inTurn {progress : SwapProgress} {counters : LoopCounters}
    (few : world.store.snapshot.length ≤ 1) :
    Guarded (environment setting) InTurn TurnEnds (do
      report progress
      afterIteration counters : Flow (LoopCounters ⊕ LoopCounters)).run world := by
  have calm : CalmFlow (report progress) [] := ⟨trivial, fun _ => trivial⟩
  exact calm_bind calm (Nat.le_refl 1) few (fun _ _ few => afterIteration_inTurn few)
    fun _ _ few => few

/-- Reporting what went wrong, and then the next iteration after a pause. -/
theorem paused_inTurn {progress : SwapProgress} {counters : LoopCounters}
    (none : world.store.snapshot.length ≤ 0) :
    Guarded (environment setting) InTurn TurnEnds (do
      report progress
      request .sleep
      return .inl counters : Flow (LoopCounters ⊕ LoopCounters)).run world := by
  have calm : CalmFlow (do
      report progress
      request .sleep
      return .inl counters : Flow (LoopCounters ⊕ LoopCounters)) [] :=
    ⟨trivial, fun _ => ⟨trivial, fun _ => trivial⟩⟩
  apply (calm_guarded calm (Nat.zero_le 1) none).weaken
  intro later result few
  match result with
  | .ok (.inl _) => exact few
  | .ok (.inr _) | .error _ => exact Nat.le_succ_of_le few

/-- The swap of an iteration. -/
theorem iterationSwap_inTurn {lezMinutes marginSecs : U64} {counters : LoopCounters}
    (none : world.store.snapshot.length ≤ 0) :
    Guarded (environment setting) InTurn TurnEnds
      (iterationSwap client lezMinutes marginSecs fuel config counters).run world := by
  have announced : CalmFlow (report (.AutoAcceptIteration counters.iteration)) [] :=
    ⟨trivial, fun _ => trivial⟩
  apply calm_bind announced (Nat.zero_le 1) none _ fun _ _ few => Nat.le_succ_of_le few
  intro later _ none
  have connects : CalmFlow (request .ethConnect) [] := ⟨trivial, fun _ => trivial⟩
  apply calm_bind connects (Nat.zero_le 1) none _ fun _ _ few => Nat.le_succ_of_le few
  intro later connected none
  cases connected with
  | error e => exact paused_inTurn none
  | ok =>
      apply Guarded.run_bind_iff.mpr
      apply Guarded.run_attempt_iff.mpr
      apply (runMaker_inTurn (List.length_eq_zero_iff.mp (Nat.le_zero.mp none))).weaken
      intro last result few
      match result with
      | .ok (.Completed ..) => exact reported_inTurn few
      | .ok (.Refunded ..) => exact reported_inTurn few
      | .error .Cancelled =>
          have calm : CalmFlow (report .AutoAcceptCancelled) [] := ⟨trivial, fun _ => trivial⟩
          exact calm_bind calm (Nat.le_refl 1) few (fun _ _ few => few) fun _ _ few => few
      | .error (.EthRpc _) | .error (.EthReverted _) | .error (.EthAbiMismatch _)
      | .error (.EthLogsUncorroborated _)
      | .error (.LezSequencer _) | .error (.LezTransaction _) | .error (.EscrowStateUnknown _)
      | .error (.EthClaimUnresolved _) | .error (.InvalidState ..) | .error (.Timeout _)
      | .error (.TimelockNotExpired _) | .error (.InvalidConfig _) => exact reported_inTurn few

/-- What an iteration does before its swap. -/
theorem balanceWithRetry_calm {onTransient : SwapError → Flow Unit} {accountId : AccountId}
    {left : Nat} {lastErr : Option SwapError}
    (calm : ∀ later e, CalmFlow (onTransient e) later) :
    CalmFlow (balanceWithRetry onTransient accountId left lastErr) [] :=
  balanceWithRetry_rests Op.Quiet.calm (fun _ _ => trivial) calm left _ _

/-- One iteration of the loop. -/
theorem loopIteration_inTurn {lezMinutes ethMinutes marginSecs : U64} {counters : LoopCounters}
    (none : world.store.snapshot.length ≤ 0) :
    Guarded (environment setting) InTurn TurnEnds
      (loopIteration client config lezMinutes ethMinutes marginSecs fuel counters).run world := by
  have more : ∀ {later : World setting}, later.store.snapshot.length ≤ 0 →
      later.store.snapshot.length ≤ 1 := Nat.le_succ_of_le
  have one : ∀ op : Op, Op.Calm op → CalmFlow (request op) [] :=
    fun op calm => ⟨calm, fun _ => trivial⟩
  apply calm_bind (one .cancelRequested trivial) (Nat.zero_le 1) none _ fun _ _ few => more few
  intro later cancelled none
  cases cancelled with
  | true =>
      exact calm_bind (one (.report .AutoAcceptCancelled) trivial) (Nat.zero_le 1) none
        (fun _ _ few => more few) fun _ _ few => more few
  | false =>
      apply calm_bind (one .nowUnix trivial) (Nat.zero_le 1) none _ fun _ _ few => more few
      intro later now none
      apply calm_bind (one .lezConnect trivial) (Nat.zero_le 1) none _ fun _ _ few => more few
      intro later connected none
      cases connected with
      | error e => exact paused_inTurn none
      | ok =>
          have reads := @balanceWithRetry_calm (fun e => report (.AutoAcceptTransientError
            (counters.iteration + 1) s!"balance check: {e.toString}")) client.accountId
            balanceRetryAttempts .none fun _ _ => ⟨trivial, fun _ => trivial⟩
          apply Guarded.run_bind_iff.mpr
          apply Guarded.run_attempt_iff.mpr
          apply (calm_guarded reads (Nat.zero_le 1) none).weaken
          intro later result none
          cases result with
          | error e =>
              exact calm_bind (one .sleep trivial) (Nat.zero_le 1) none (fun _ _ few => few)
                fun _ _ few => more few
          | ok read =>
              simp only
              split
              · exact paused_inTurn none
              · exact iterationSwap_inTurn none

/-- `run_maker_loop`. -/
theorem runMakerLoop_inTurn {lezMinutes ethMinutes marginSecs : U64}
    (none : world.store.snapshot.length ≤ 0) :
    Guarded (environment setting) InTurn (fun _ _ => True)
      (runMakerLoop client config lezMinutes ethMinutes marginSecs fuel).run world := by
  have started : CalmFlow (report .AutoAcceptStarted) [] := ⟨trivial, fun _ => trivial⟩
  apply calm_bind started (Nat.zero_le 1) none _ fun _ _ _ => trivial
  intro later _ none
  apply Guarded.run_bind_iff.mpr
  have looping : Guarded (environment setting) InTurn
      (fun later _ => later.store.snapshot.length ≤ 1)
      (Program.iterate (loopIteration client config lezMinutes ethMinutes marginSecs fuel) fuel
        ⟨0, 0, 0, 0⟩).run later := by
    apply Guarded.iterate (fun later _ => later.store.snapshot.length ≤ 0) _ none
    intro start counters none
    apply (loopIteration_inTurn none).weaken
    intro last result ends
    match result with
    | .ok (.inl _) => exact ends
    | .ok (.inr _) | .error _ => exact ends
  apply looping.weaken
  intro last result few
  cases result with
  | error e => trivial
  | ok counters =>
      have stopped : CalmFlow (report (.AutoAcceptStopped counters.completed counters.failed
        counters.transientErrors)) [] := ⟨trivial, fun _ => trivial⟩
      exact calm_bind stopped (Nat.le_refl 1) few (fun _ _ _ => trivial) fun _ _ _ => trivial

/-- The loop behind its gate, whatever it finds there. -/
theorem acceptSwaps_inTurn {lezMinutes ethMinutes : U64} {args : MakerArgs} :
    Guarded (environment setting) InTurn (fun _ _ => True)
      (acceptSwaps client config lezMinutes ethMinutes args fuel).run world := by
  intro before drifted
  refine ⟨⟨fun other => absurd rfl other, by simp⟩, ?_⟩
  rintro entries after ⟨_, ⟨rfl, rfl⟩, onward⟩
  rw [← drifts_store onward]
  cases gate : after.store.snapshot with
  | cons first rest => trivial
  | nil =>
      have none : after.store.snapshot.length ≤ 0 := by simp [gate]
      have reads := @balanceWithRetry_calm (fun _ => pure ()) client.accountId
        balanceRetryAttempts .none fun _ _ => trivial
      apply calm_bind reads (Nat.zero_le 1) none _ fun _ _ _ => trivial
      intro later read none
      simp only
      split
      · trivial
      · apply Guarded.run_bind_iff.mpr
        apply (runMakerLoop_inTurn none).weaken
        intro last result _
        cases result <;> trivial

end Turns

/-! ## The maker's process -/

section Maker

variable {setting : Setting} {configured : SwapConfig → MakerArgs → Prop}

/-- From its wait on the maker writes swaps down in turn. -/
theorem maker_onwards {task : MakerTask} (main : (makerSystem setting configured).main task) :
    (makerSystem setting configured).GuardedOnwards InTurn
      ((makerSystem setting configured).body task) := by
  obtain ⟨config, args, fuel, -, rfl⟩ := main
  have returned : ∀ result, Follows (fun (_ : Trace) (op : Op) => op ≠ .joinResumed)
      (fun _ _ => True) (Program.returned result : Flow Unit).run [] := fun _ => trivial
  have asked : ∀ op : Op, op ≠ .joinResumed → Follows (fun (_ : Trace) (op : Op) =>
      op ≠ .joinResumed) (fun _ _ => True) (request op).run [] :=
    fun op other => ⟨other, fun _ => trivial⟩
  have others : ∀ (_ : Trace) (op : Op), op ≠ .joinResumed →
      ¬ (makerSystem setting configured).waits op := fun _ _ other => other
  apply Until.run_bind (returned _) others
  intro _
  apply Until.run_bind (asked .lezConnect (by simp)) others
  intro connected
  apply Until.run_bind (returned connected) others
  intro _
  apply Until.run_bind (asked .load (by simp)) others
  intro loaded
  apply Until.run_bind (returned loaded) others
  intro _
  apply Until.run_bind (@reconcile_rests _ [] _) fun _ _ => Recovers.not_join
  intro _
  exact ⟨fun _ _ _ => acceptSwaps_inTurn, fun other => absurd rfl other⟩

/-- What the maker spawns never waits. -/
theorem maker_spawned_onwards {task child : MakerTask} {history : Trace} {op : Op}
    (allowed : makerRule setting.lezClient task history op)
    (spawns : (makerSystem setting configured).spawns op (some child)) :
    (makerSystem setting configured).GuardedOnwards InTurn
      ((makerSystem setting configured).body child) := by
  obtain ⟨entry, hashlock, timelockMs, fuel, rfl, rfl, -, journaled, parsed, -⟩ :=
    spawns_recovers allowed spawns
  exact Until.of_follows (resumeSwap_rests journaled parsed) fun _ _ => Recovers.not_join

variable {start : World setting}
  {pool : Pool interface (World setting) MakerTask (Except SwapError Unit)}
  {thread : Thread interface (World setting) MakerTask (Except SwapError Unit)}

/-- Every thread that has waited goes on in turn. -/
theorem maker_inTurn (reached : (makerSystem setting configured).Reaches start pool)
    (member : thread ∈ pool.threads) :
    (makerSystem setting configured).WaitsGuarded InTurn pool.world thread := by
  apply System.waits_guarded maker_ruled maker_monotone _ _ _ reached thread member
  · intro task history op child allowed spawns
    obtain ⟨entry, hashlock, timelockMs, fuel, rfl, -, unjoined, -⟩ :=
      spawns_recovers allowed spawns
    exact ⟨by simp [makerSystem], fun exchange member => unjoined exchange member⟩
  · exact fun task main => maker_onwards main
  · exact fun task history op child allowed spawns => maker_spawned_onwards allowed spawns

/-- An operation leaves a hashlock in flight on disk that memory does not have: it took it out of
memory, or gave up writing it down. -/
structure Orphans (entry : Entry interface (World setting)) (key : String) : Prop where
  disk : entry.after.store.file.InFlight key
  memory : ¬ entry.after.store.state.InFlight key
  cause : entry.op = .remove key ∨ (∃ reason, entry.op = .quarantine key reason) ∨
    ∃ text error, entry.exchange = ⟨.record key text, .error error⟩

/-- What a process has in flight on disk it has in memory, or it left it behind. -/
def Accounted (happened : List (Happening interface (World setting))) (world : World setting) :
    Prop :=
  ∀ key, world.store.file.InFlight key → world.store.state.InFlight key ∨
    ∃ entry ∈ sinceRestart happened, Orphans entry key

/-- What goes missing from memory was taken out of it. -/
theorem target_cause {event : StoreEvent} {before : World setting} {exchange : Exchange interface}
    {key : String} (called : Calls before exchange event)
    (others : ∀ swap result, event ≠ .record swap result)
    (held : before.store.state.InFlight key)
    (gone : ¬ (event.target before.store.state).InFlight key) :
    exchange.op = .remove key ∨ ∃ reason, exchange.op = .quarantine key reason := by
  have drops : event.Drops key := by
    by_contra kept
    exact gone (StoreEvent.inFlight_target held kept)
  cases event with
  | record swap result => exact absurd rfl (others swap result)
  | markFunded | load => exact drops.elim
  | remove hashlock result =>
      obtain rfl : hashlock = key := drops
      exact .inl called
  | quarantine hashlock reason now result =>
      obtain rfl : hashlock = key := drops
      exact .inr ⟨reason, called.2⟩

/-- One operation keeps the account. -/
theorem accounted_perform {happened : List (Happening interface (World setting))}
    {before after : World setting} {op : Op} {answer : Answer op}
    (accounted : Accounted happened before)
    (performed : (environment setting).perform op before answer after) :
    Accounted (happened ++ [.performed ⟨op, answer, before, after⟩]) after := by
  intro key disk
  rw [sinceRestart_performed]
  by_cases memory : after.store.state.InFlight key
  · exact .inl memory
  refine .inr ?_
  -- what was left behind before, or else by this operation
  have earlier : before.store.file.InFlight key → ¬ before.store.state.InFlight key →
      ∃ entry ∈ sinceRestart happened ++ [⟨op, answer, before, after⟩], Orphans entry key := by
    intro disk memory
    obtain ⟨entry, there, orphans⟩ := (accounted key disk).resolve_left memory
    exact ⟨entry, List.mem_append_left _ there, orphans⟩
  have here : (op = .remove key ∨ (∃ reason, op = .quarantine key reason) ∨
      ∃ text error, (⟨op, answer⟩ : Exchange interface) = ⟨.record key text, .error error⟩) →
      ∃ entry ∈ sinceRestart happened ++ [⟨op, answer, before, after⟩], Orphans entry key :=
    fun cause => ⟨_, List.mem_concat_self, disk, memory, cause⟩
  rcases performed_calls performed with ⟨event, called, same⟩ | same
  · rw [same] at disk memory
    cases before.store.apply_outcome event with
    | saved state file fresh =>
        rw [file] at disk
        rw [state] at memory
        exact (memory disk).elim
    | unsaved logged state file =>
        rw [file] at disk
        rw [state] at memory
        by_cases held : before.store.state.InFlight key
        · rcases target_cause called logged held memory with removed | quarantined
          · exact here (.inl removed)
          · exact here (.inr (.inl quarantined))
        · exact earlier disk held
    | kept state file =>
        rw [file] at disk
        rw [state] at memory
        exact earlier disk memory
    | @strayed swap result recorded fresh renamed state file =>
        subst recorded
        rw [file] at disk
        rw [state] at memory
        obtain ⟨-, -, answered⟩ := called
        have added : key = swap.hashlock := by
          simp only [StoreEvent.target, BotState.InFlight, List.map_append, List.mem_append,
            List.map_cons, List.map_nil, List.mem_singleton] at disk
          exact disk.resolve_left memory
        subst added
        have eq := StateStore.record_eq before.store swap result
        rw [if_neg fresh] at eq
        cases result with
        | ok =>
            have grown := congrArg (·.inFlight.length) state
            simp [StoreEvent.apply, eq] at grown
        | beforeRename error => exact absurd rfl (renamed error)
        | afterRename error =>
            rw [eq] at answered
            exact here (.inr (.inr ⟨_, _, answered⟩))
    | loaded load state file =>
        rw [file] at disk
        rw [state] at memory
        exact (memory disk).elim
  · rw [same] at disk memory
    exact earlier disk memory

/-- Every process accounts for what it has in flight on disk. -/
theorem maker_accounted {happened : List (Happening interface (World setting))}
    (unfolds : (makerSystem setting configured).Unfolds start happened pool) :
    pool.threads = [] ∨ Accounted happened pool.world := by
  induction unfolds with
  | begun => exact .inl rfl
  | drift earlier drifted ih =>
      refine ih.imp_right fun accounted => ?_
      unfold Accounted
      rw [drifts_store (.single drifted)]
      exact accounted
  | perform earlier running performed waited spawns ih =>
      refine .inr (accounted_perform (ih.resolve_left ?_) performed)
      simp
  | restart earlier restarted main ih =>
      obtain rfl := restarted
      exact .inr fun key disk => .inl disk

/-- A thread that has not waited is not joined with its watchers yet. -/
theorem waited_of_joined (joined : ¬ Unjoined thread.history) :
    ∃ entry ∈ thread.entries, (makerSystem setting configured).waits entry.op := by
  by_contra never
  refine joined fun exchange member waits => never ?_
  obtain ⟨entry, there, rfl⟩ := List.mem_map.mp member
  exact ⟨entry, there, waits⟩

/-- Only a thread that has waited writes anything down. -/
theorem record_joined {task : MakerTask} {history : Trace} {key text : String}
    (allowed : makerRule setting.lezClient task history (.record key text)) :
    ¬ Unjoined history := by
  cases task with
  | resume entry hashlock timelockMs fuel => exact allowed.2.elim
  | main config args fuel =>
      rcases allowed with ⟨-, impossible | impossible | impossible⟩ | ⟨joined, -⟩
      · cases impossible
      · cases impossible
      · exact impossible.elim
      · exact joined

/-- Swaps are written down one at a time, in a pool reached by what happened. -/
structure ExposedInTurn (happened : List (Happening interface (World setting)))
    (pool : Pool interface (World setting) MakerTask (Except SwapError Unit)) : Prop where
  /-- A swap is written down with nothing in flight in memory, and nothing on disk but what this
  process left behind there. -/
  records : ∀ thread ∈ pool.threads, ∀ key text next, thread.rest = .call (.record key text) next →
    pool.world.store.snapshot = [] ∧ ∀ swap ∈ pool.world.store.file.inFlight,
      ∃ entry ∈ sinceRestart happened, Orphans entry swap.hashlock
  /-- Past its gate the maker has at most one swap in flight. -/
  single : ∀ thread ∈ pool.threads, ∀ op next, thread.rest = .call op next →
    ¬ Unjoined thread.history → op ≠ .snapshot → pool.world.store.snapshot.length ≤ 1

/-- Whatever happens to the maker, it is exposed to one swap at a time. -/
theorem exposed_in_turn {happened : List (Happening interface (World setting))}
    (unfolds : (makerSystem setting configured).Unfolds start happened pool) :
    ExposedInTurn happened pool := by
  have reached := unfolds.reaches
  constructor
  · intro thread member key text next running
    have joined := record_joined ((maker_justified reached member).allowed running)
    have turn := (maker_inTurn reached member).admits (waited_of_joined joined) running
    have none := turn.2 key text rfl
    refine ⟨none, fun swap there => ?_⟩
    have accounted := (maker_accounted unfolds).resolve_left (List.ne_nil_of_mem member)
    rcases accounted swap.hashlock (List.mem_map_of_mem there) with memory | left
    · have empty : pool.world.store.state.inFlight = [] := none
      simp [BotState.InFlight, empty] at memory
    · exact left
  · intro thread member op next running joined other
    exact ((maker_inTurn reached member).admits (waited_of_joined joined) running).1 other

end Maker

/-- The maker is exposed to its test swap. -/
theorem exposed_in_turn_test : ∃ happened rest,
    (makerSystem testMakerSetting fun _ _ => True).Unfolds testOffered happened
      (testFunded rest) ∧ ExposedInTurn happened (testFunded rest) := by
  obtain ⟨rest, reached⟩ := test_reaches
  obtain ⟨happened, unfolds⟩ := reached.unfolds
  exact ⟨happened, rest, unfolds, exposed_in_turn unfolds⟩

end AtomicSwaps.Cli
