import AtomicSwaps.Swap.TakerReveal
import AtomicSwaps.Swap.World

/-!
# What the taker's outcome says

`run_taker` concludes from having submitted: it returns `Completed` once its claim is
accepted by the sequencer, and reports its refund complete once it has asked for it,
whatever came of that. Where the transactions it asks for are executed, what it concludes
is the state of the chains.
-/

namespace AtomicSwaps.Swap

open Semantics Relation
open Lez (AccountId HTLCEscrow LezClient EscrowMoves)
open Eth

/-- The swap an exchange created, with its hashlock. -/
def lockedBy : Exchange interface → Option (Bytes32 × Bytes32)
  | ⟨.sendEth (.lock hashlock ..), .ok receipt⟩ =>
      (receipt.logs.findSome? Eth.lockedSwapId).map (hashlock, ·)
  | _ => none

/-- The swaps a history created. -/
def swapsLocked (history : Trace) : List (Bytes32 × Bytes32) := history.filterMap lockedBy

@[simp] theorem swapsLocked_append (first second : Trace) :
    swapsLocked (first ++ second) = swapsLocked first ++ swapsLocked second :=
  List.filterMap_append

@[simp] theorem swapsLocked_nil : swapsLocked [] = [] := rfl

@[simp] theorem swapsLocked_cons {op : Op} {answer : Answer op} {later : Trace}
    (other : ∀ hashlock timelock recipient takerLezAccount value,
      op ≠ .sendEth (.lock hashlock timelock recipient takerLezAccount value)) :
    swapsLocked (⟨op, answer⟩ :: later) = swapsLocked later := by
  have quiet : lockedBy ⟨op, answer⟩ = none := by
    unfold lockedBy
    split
    · rename_i same
      cases same
      exact absurd rfl (other _ _ _ _ _)
    · rfl
  simp [swapsLocked, quiet]

/-- A lock that returned created the swap it returned. -/
theorem swapsLocked_of_lockResult {hashlock takerLezAccount : Bytes32} {timelock value : U256}
    {recipient : Eth.Address} {answer : Except String Receipt} {receipt : EthLockReceipt}
    (result : EthClient.lockResult answer = .ok receipt) :
    swapsLocked [⟨.sendEth (.lock hashlock timelock recipient takerLezAccount value), answer⟩] =
      [(hashlock, receipt.swapId)] := by
  cases answer with
  | error e => cases result
  | ok mined =>
      simp only [EthClient.lockResult] at result
      split at result
      · cases result
      · rename_i swapId found
        cases result
        simp [swapsLocked, lockedBy, found]

/-- The refund of the only swap was asked for. -/
def RefundAsked (history : Trace) : Prop :=
  ∃ hashlock swapId, swapsLocked history = [(hashlock, swapId)] ∧
    ∃ answer, ⟨.sendEth (.refund swapId), answer⟩ ∈ history

/-- The claim with the preimage of the only swap was accepted by the sequencer. -/
def ClaimAccepted (sha256 : List UInt8 → Bytes32) (client : LezClient) (preimage : Bytes32)
    (history : Trace) : Prop :=
  (∃ swapId, swapsLocked history = [(sha256 preimage.toList, swapId)]) ∧
    ∃ nonces txHash, ⟨.sendTransaction (.htlc (client.escrowPda (sha256 preimage.toList)) nonces
      (.Claim preimage.toList)), .ok txHash⟩ ∈ history

/-- What a result rests on. -/
def Rests (sha256 : List UInt8 → Bytes32) (client : LezClient) (history : Trace) :
    Except SwapError SwapOutcome → Prop
  | .ok (.Completed preimage _ _) => ClaimAccepted sha256 client preimage history
  | .ok (.Refunded ..) => RefundAsked history
  | .error _ => True

/-- The refund is reported complete only after it was asked for. -/
def ReportsAsked (history : Trace) (op : Op) : Prop :=
  op = .report .RefundComplete → RefundAsked history

section Flow

variable {sha256 : List UInt8 → Bytes32} {client : LezClient} {config : SwapConfig}
  {history : Trace} {hashlock swapId : Bytes32}

theorem reportsAsked_of_ne {op : Op} (other : op ≠ .report .RefundComplete) :
    ReportsAsked history op := fun same => absurd same other

/-- Giving up asks for the refund and reports it complete. -/
theorem refundEth_asks (locked : swapsLocked history = [(hashlock, swapId)]) :
    Follows ReportsAsked (fun later result => ∃ ethTx, result = .ok (.Refunded ethTx none) ∧
        RefundAsked later)
      (refundEth swapId).run history := by
  refine .request_bind (reportsAsked_of_ne (by simp)) fun _ => ?_
  refine Follows.run_bind_iff.mpr (Follows.run_attempt_iff.mpr
    (EthClient.refund_follows (reportsAsked_of_ne (by simp)) fun answer => ?_))
  refine .request_bind (fun _ => ?_) fun _ => ⟨_, rfl, ?_⟩
  · exact ⟨hashlock, swapId, by simp [locked], answer, by simp⟩
  · exact ⟨hashlock, swapId, by simp [locked], answer, by simp⟩

/-- One wait leaves the swap alone, or ends the flow with its refund. -/
theorem awaitEscrow_asks (round : Unit)
    (locked : swapsLocked history = [(hashlock, swapId)]) :
    Follows ReportsAsked (fun later result =>
        match result with
        | .error _ => False
        | .ok (.inr (some outcome)) => (∃ ethTx, outcome = .Refunded ethTx none) ∧ RefundAsked later
        | .ok _ => swapsLocked later = [(hashlock, swapId)])
      (awaitEscrow config hashlock swapId round).run history := by
  refine .request_bind (reportsAsked_of_ne (by simp)) fun now => ?_
  refine .request_bind (reportsAsked_of_ne (by simp)) fun answer => ?_
  have gaveUp : ∀ later : Trace, swapsLocked later = [(hashlock, swapId)] →
      Follows ReportsAsked (fun later result =>
        match result with
        | .error _ => False
        | .ok (.inr (some outcome)) => (∃ ethTx, outcome = .Refunded ethTx none) ∧ RefundAsked later
        | .ok _ => swapsLocked later = [(hashlock, swapId)])
      (do
        let outcome ← refundEth swapId
        return .inr (some outcome) : Flow (Unit ⊕ Option SwapOutcome)).run later := by
    intro later locked
    refine Follows.run_bind_iff.mpr ((refundEth_asks locked).weaken fun _ result kept => ?_)
    obtain ⟨ethTx, rfl, asked⟩ := kept
    exact ⟨⟨ethTx, rfl⟩, asked⟩
  cases answer with
  | timer =>
      exact .request_bind (reportsAsked_of_ne (by simp)) fun _ => gaveUp _ (by simp [locked])
  | event event =>
      cases event with
      | Locked escrowPda =>
          refine .request_bind (reportsAsked_of_ne (by simp)) fun _ => ?_
          exact Follows.run_pure_iff.mpr (by simp [locked])
      | Refunded escrowPda => exact gaveUp _ (by simp [locked])
      | Claimed escrowPda shown => exact Follows.run_pure_iff.mpr (by simp [locked])

/-- Claiming either fails or had its claim accepted. -/
theorem claimEscrow_accepted {preimage : Bytes32}
    (locked : swapsLocked history = [(sha256 preimage.toList, swapId)]) :
    Follows ReportsAsked (Rests sha256 client)
      (claimEscrow client config (sha256 preimage.toList) swapId preimage).run history := by
  refine .request_bind (reportsAsked_of_ne (by simp)) fun _ => ?_
  refine Follows.run_bind_iff.mpr (LezClient.getEscrow_follows (reportsAsked_of_ne (by simp))
    (fun data result decoded => ?_) fun _ => trivial)
  cases result with
  | none => trivial
  | some escrow =>
      refine Follows.run_bind_iff.mpr (Follows.run_returned_iff.mpr ?_)
      cases checkEscrow config escrow with
      | error e => trivial
      | ok =>
      refine Follows.run_bind_iff.mpr (LezClient.getBalance_follows
        (reportsAsked_of_ne (by simp)) (fun pdaBalance => ?_) fun _ => trivial)
      refine Follows.run_bind_iff.mpr (Follows.run_returned_iff.mpr ?_)
      cases checkPdaBalance config pdaBalance with
      | error e => trivial
      | ok =>
      refine .request_bind (reportsAsked_of_ne (by simp)) fun now => ?_
      refine Follows.run_bind_iff.mpr (Follows.run_returned_iff.mpr ?_)
      cases verifyEscrowBinding escrow client.accountId (sha256 preimage.toList)
        config.ethTimelock now with
      | error e => trivial
      | ok =>
      refine .request_bind (reportsAsked_of_ne (by simp)) fun _ => ?_
      refine .request_bind (reportsAsked_of_ne (by simp)) fun _ => ?_
      refine Follows.run_bind_iff.mpr (LezClient.sendHtlcInstruction_follows
        (reportsAsked_of_ne (by simp)) (fun nonces => reportsAsked_of_ne (by simp))
        (fun _ => trivial) fun nonces answer => ?_)
      cases answer with
      | error e => trivial
      | ok txHash =>
          refine .request_bind (reportsAsked_of_ne (by simp)) fun _ => ?_
          exact ⟨⟨swapId, by simp [locked]⟩, nonces, txHash, by simp⟩

/-- Whatever is answered, the taker's result rests on an accepted claim or on a refund
that was asked for, and so does its report of a complete refund. -/
theorem runTaker_rests (fuel : Nat) (overridePreimage : Option Bytes32) :
    Follows ReportsAsked (Rests sha256 client)
      (runTaker sha256 client fuel config overridePreimage).run [] := by
  have body : ∀ (preimage : Bytes32) (later : Trace), swapsLocked later = [] →
      Follows ReportsAsked (Rests sha256 client)
        (runTakerWith client fuel config preimage (sha256 preimage.toList)).run later := by
    intro preimage later fresh
    refine .request_bind (reportsAsked_of_ne (by simp)) fun _ => ?_
    refine .request_bind (reportsAsked_of_ne (by simp)) fun _ => ?_
    refine Follows.run_bind_iff.mpr (EthClient.lock_follows (reportsAsked_of_ne (by simp))
      fun answer => ?_)
    cases result : EthClient.lockResult answer with
    | error e => trivial
    | ok receipt =>
    refine .request_bind (reportsAsked_of_ne (by simp)) fun _ => ?_
    refine .request_bind (reportsAsked_of_ne (by simp)) fun _ => ?_
    refine .request_bind (reportsAsked_of_ne (by simp)) fun connected => ?_
    refine Follows.run_bind_iff.mpr (Follows.run_returned_iff.mpr ?_)
    cases connected with
    | error e => trivial
    | ok =>
    refine Follows.run_bind_iff.mpr (Follows.iterate
      (fun later _ => swapsLocked later = [(sha256 preimage.toList, receipt.swapId)])
      (fun _ round locked => (awaitEscrow_asks round locked).weaken fun _ result kept => ?_)
      fuel () ?_)
    · match result with
      | .error _ => exact kept.elim
      | .ok (.inl _) => exact kept
      | .ok (.inr (some _)) =>
          obtain ⟨⟨ethTx, rfl⟩, asked⟩ := kept
          exact asked
      | .ok (.inr none) => exact claimEscrow_accepted kept
    · have created : swapsLocked [⟨.sendEth (.lock (sha256 preimage.toList)
          (config.ethTimelock.setWidth 256) config.ethRecipientAddress client.accountId
          (config.ethAmount.setWidth 256)), answer⟩] =
            [(sha256 preimage.toList, receipt.swapId)] :=
        swapsLocked_of_lockResult result
      simp only [swapsLocked_append, fresh, created, swapsLocked_cons, swapsLocked_nil, ne_eq,
        reduceCtorEq, not_false_eq_true, implies_true, List.nil_append, List.append_nil]
  cases overridePreimage with
  | some preimage => exact body preimage [] rfl
  | none => exact .request_bind (reportsAsked_of_ne (by simp)) fun preimage => body preimage _ (by simp)

end Flow

section Chain

variable {setting : Setting} {start final : World setting}
  {log : List (Entry interface (World setting))} {result : Except SwapError SwapOutcome}

/-- Every claim that was accepted is executed by the end of the run, and every refund is
mined and does not revert. -/
structure AllExecuted (log : List (Entry interface (World setting)))
    (final : World setting) : Prop where
  claims : ∀ entry ∈ log, ∀ escrowPda nonces shown txHash,
    entry.exchange = ⟨.sendTransaction (.htlc escrowPda nonces (.Claim shown)), .ok txHash⟩ →
      (LezTransaction.htlc escrowPda nonces (.Claim shown)).ExecutedBetween
        entry.before final
  refunds : ∀ entry ∈ log, ∀ swapId answer,
    entry.exchange = ⟨.sendEth (.refund swapId), answer⟩ →
      ∃ receipt, answer = .ok receipt ∧ receipt.status = true

/-- The escrow of a hashlock is claimed with this preimage. -/
def World.ClaimedWith (world : World setting) (hashlock preimage : Bytes32) : Prop :=
  ∃ escrow, world.escrow hashlock = some escrow ∧ escrow.state = .Claimed ∧
    escrow.preimage = some preimage.toList

/-- What the result and the reports of a run say is so on the chains. -/
structure Truthful (log : List (Entry interface (World setting)))
    (result : Except SwapError SwapOutcome) (final : World setting) : Prop where
  completed : ∀ preimage ethTx lezTx, result = .ok (.Completed preimage ethTx lezTx) →
    ∃ swapId, swapsLocked (historyOf log) = [(setting.runtime.sha256 preimage.toList, swapId)] ∧
      final.ClaimedWith (setting.runtime.sha256 preimage.toList) preimage
  refunded : ∀ ethTx lezTx, result = .ok (.Refunded ethTx lezTx) →
    ∃ hashlock swapId, swapsLocked (historyOf log) = [(hashlock, swapId)] ∧
      (final.htlc swapId).state = .REFUNDED
  reported : ∀ earlier entry later, log = earlier ++ entry :: later →
    entry.op = .report .RefundComplete →
    ∃ hashlock swapId, swapsLocked (historyOf earlier) = [(hashlock, swapId)] ∧
      (entry.before.htlc swapId).state = .REFUNDED
  unsettled : ∀ hashlock swapId, (hashlock, swapId) ∈ swapsLocked (historyOf log) →
    (final.htlc swapId).state = .OPEN → (∀ preimage, ¬ final.ClaimedWith hashlock preimage) →
    ∃ error, result = .error error

/-- An exchange of a history is that of an entry which was performed. -/
theorem performed_of_mem {program : Program interface (Except SwapError SwapOutcome)}
    (execution : Execution (environment setting) program start log result final)
    {part : List (Entry interface (World setting))} (within : ∀ entry ∈ part, entry ∈ log)
    {op : Op} {answer : Answer op} (member : ⟨op, answer⟩ ∈ historyOf part) :
    ∃ before after, ⟨op, answer, before, after⟩ ∈ part ∧
      (environment setting).perform op before answer after := by
  obtain ⟨⟨op, answer, before, after⟩, there, same⟩ := List.mem_map.mp member
  cases same
  exact ⟨before, after, there, execution.performed (within _ there)⟩

/-- A refund that was asked for among entries that all executed is done after them. -/
theorem refunded_of_asked {program : Program interface (Except SwapError SwapOutcome)}
    (execution : Execution (environment setting) program start log result final)
    (executed : AllExecuted log final) {part : List (Entry interface (World setting))}
    (within : ∀ entry ∈ part, entry ∈ log) {world : World setting}
    (reaches : ∀ entry ∈ part, Grows entry.after world)
    (asked : RefundAsked (historyOf part)) :
    ∃ hashlock swapId, swapsLocked (historyOf part) = [(hashlock, swapId)] ∧
      (world.htlc swapId).state = .REFUNDED := by
  obtain ⟨hashlock, swapId, locked, answer, member⟩ := asked
  obtain ⟨before, after, there, performed⟩ := performed_of_mem execution within member
  obtain ⟨receipt, rfl, mined⟩ := executed.refunds _ (within _ there) swapId answer rfl
  have refunded := refund_settles performed mined
  have kept := (reaches _ there).settled_htlc (.inr refunded)
  exact ⟨hashlock, swapId, locked, kept ▸ refunded⟩

/-- Where what the taker submits is executed, its outcome is the truth: it completes only
with its escrow claimed, reports and returns a refund only with its swap refunded, and
fails while neither happened. -/
theorem runTaker_truthful {fuel : Nat} {config : SwapConfig} {overridePreimage : Option Bytes32}
    (execution : Execution (environment setting)
      (runTaker setting.runtime.sha256 setting.lezClient fuel config overridePreimage).run
      start log result final)
    (executed : AllExecuted log final) : Truthful log result final := by
  have rests : Follows ReportsAsked (Rests setting.runtime.sha256 setting.lezClient)
      (runTaker setting.runtime.sha256 setting.lezClient fuel config overridePreimage).run [] :=
    runTaker_rests fuel overridePreimage
  have resultRests := execution.returns rests
  rw [List.nil_append] at resultRests
  have ordered := (execution.ordered Grows.refl Grows.trans Drift.grows performed_grows).2
  have reaches : ∀ entry ∈ log, Grows entry.after final :=
    fun entry member => (ordered entry member).2
  have completed : ∀ preimage ethTx lezTx, result = .ok (.Completed preimage ethTx lezTx) →
      ∃ swapId, swapsLocked (historyOf log) =
          [(setting.runtime.sha256 preimage.toList, swapId)] ∧
        final.ClaimedWith (setting.runtime.sha256 preimage.toList) preimage := by
    rintro preimage ethTx lezTx rfl
    obtain ⟨⟨swapId, locked⟩, nonces, txHash, member⟩ := resultRests
    obtain ⟨before, after, there, -⟩ := performed_of_mem execution (fun _ m => m) member
    exact ⟨swapId, locked, claim_settles (executed.claims _ there _ _ _ _ rfl)⟩
  have refunded : ∀ ethTx lezTx, result = .ok (.Refunded ethTx lezTx) →
      ∃ hashlock swapId, swapsLocked (historyOf log) = [(hashlock, swapId)] ∧
        (final.htlc swapId).state = .REFUNDED := by
    rintro ethTx lezTx rfl
    exact refunded_of_asked execution executed (fun _ m => m) reaches resultRests
  refine ⟨completed, refunded, ?_, ?_⟩
  · intro earlier entry later split same
    have within : ∀ entry ∈ earlier, entry ∈ log := fun _ m => by simp [split, m]
    have asked := execution.obeys rests split same
    rw [List.nil_append] at asked
    exact refunded_of_asked execution executed within (fun first member =>
      execution.sequential Grows.refl Grows.trans Drift.grows performed_grows split member) asked
  · intro hashlock swapId member opened unclaimed
    cases result with
    | error error => exact ⟨error, rfl⟩
    | ok outcome =>
        cases outcome with
        | Completed preimage ethTx lezTx =>
            obtain ⟨_, only, claimed⟩ := completed preimage ethTx lezTx rfl
            rw [only, List.mem_singleton] at member
            cases member
            exact absurd claimed (unclaimed preimage)
        | Refunded ethTx lezTx =>
            obtain ⟨_, _, only, settled⟩ := refunded ethTx lezTx rfl
            rw [only, List.mem_singleton] at member
            cases member
            rw [settled] at opened
            cases opened

/-- The setting of the test taker, with clocks that keep no relation. -/
def testTakerSetting : Setting where
  runtime := Lez.testRuntime
  hashes := Eth.testHashes
  account := Lez.testTerms.takerId
  signer := Eth.testTaker
  clocks _ _ _ := True

/-- Both chains before the test swap. -/
def testWorld : World testTakerSetting where
  lez := ⟨Lez.testGenesis, 1699999000000, [], Lez.Lawful.unused Lez.testGenesis_unused⟩
  eth := .deploy 300 0 1699999000
  now := 1699999000
  store := ⟨"maker-state.json", ⟨[], []⟩, ⟨[], []⟩⟩
  synced := trivial

/-- The taker's ETH lock. -/
def testLockCall : EthCall :=
  .lock testHashlock 1700000600 testMaker Lez.testTerms.takerId 1000000000000000000

/-- The log of the taker's ETH lock. -/
def testLockLog : Log :=
  .Locked testSwapId testTaker testMaker 1000000000000000000 testHashlock 1700000600
    Lez.testTerms.takerId

/-- The contract after the taker's ETH lock. -/
def testTakerLocked : Store where
  contract := (((Contract.deploy 300 0).receive 1000000000000000000).setHTLC testSwapId
    (lockedHTLC ⟨testTaker, 1000000000000000000⟩ testHashlock 1700000600 testMaker
      Lez.testTerms.takerId)).emit testLockLog
  payouts := []
  received := 1000000000000000000

theorem test_lock_executes :
    Eth.Executes testHashes 1699999000 (testLockCall.call testTakerSetting) (Store.deploy 300 0)
      testTakerLocked :=
  .inl ⟨_, lock_ok.mpr ⟨by decide, by decide, by decide, by decide, by decide, by decide, rfl,
    rfl⟩, rfl⟩

/-- The test world with the taker's ETH locked. -/
def testEthLocked : World testTakerSetting :=
  { testWorld with eth := testWorld.eth.act test_lock_executes.transaction }

theorem test_lock_performed :
    (environment testTakerSetting).perform (.sendEth testLockCall) testWorld
      (.ok ⟨Bytes.zero 32, true, [testLockLog]⟩) testEthLocked :=
  ⟨_, ⟨_, test_lock_executes, rfl, rfl⟩, .refl⟩

/-- What every run of the test taker does first. -/
def testPrologue : List (Entry interface (World testTakerSetting)) :=
  [.quiet testWorld (.report (.PreimageGenerated (Hex.encode testHashlock.toList))) (),
   .quiet testWorld (.report .LockingEth) (),
   ⟨.sendEth testLockCall, .ok ⟨Bytes.zero 32, true, [testLockLog]⟩, testWorld, testEthLocked⟩,
   .quiet testEthLocked (.report (.EthLocked (display testSwapId) (display (Bytes.zero 32)))) (),
   .quiet testEthLocked (.report .WaitingForLezLock) (),
   .quiet testEthLocked .lezConnect (.ok ()),
   .quiet testEthLocked .nowUnix 1699999000]

/-- Later, when the taker's clock reaches its timelock a few seconds before any block does. -/
def testExpired : World testTakerSetting :=
  { testEthLocked with
    now := 1700000600
    lez := { testEthLocked.lez with time := 1700000595000 }
    eth := testEthLocked.eth.wait 1700000595 (by decide) }

/-- The taker gives up, and its refund reverts. -/
def testRefusedLog : List (Entry interface (World testTakerSetting)) :=
  testPrologue ++
  [⟨.selectLez testHashlock 1600, .timer, testEthLocked, testExpired⟩,
   .quiet testExpired (.report .TimelockExpired) (),
   .quiet testExpired (.report .Refunding) (),
   .quiet testExpired (.sendEth (.refund testSwapId)) (.error "execution reverted"),
   .quiet testExpired (.report .RefundComplete) ()]

/-- The taker's clock says that its timelock has passed while no block is that late: its
refund is refused, and it returns `Refunded` with its ETH still locked. -/
theorem refused_refund_reported :
    Execution (environment testTakerSetting)
      (runTaker testTakerSetting.runtime.sha256 testTakerSetting.lezClient 1 testConfig
        (some testPreimage)).run testWorld testRefusedLog (.ok (.Refunded none none))
        testExpired ∧
    ¬ Truthful testRefusedLog (.ok (.Refunded none none)) testExpired := by
  constructor
  · refine .step .refl ⟨_, rfl, .refl⟩ ?_
    refine .step .refl ⟨_, rfl, .refl⟩ ?_
    refine .step .refl test_lock_performed ?_
    refine .step .refl ⟨_, rfl, .refl⟩ ?_
    refine .step .refl ⟨_, rfl, .refl⟩ ?_
    refine .step .refl ⟨_, rfl, .refl⟩ ?_
    refine .step .refl ⟨_, ⟨rfl, rfl⟩, .refl⟩ ?_
    refine .step .refl ⟨_, ⟨rfl, trivial⟩, .single (.tick (by decide) trivial)⟩ ?_
    refine .step .refl ⟨_, rfl, .refl⟩ ?_
    refine .step .refl ⟨_, rfl, .refl⟩ ?_
    refine .step .refl ⟨_, rfl, .refl⟩ ?_
    exact .step .refl ⟨_, rfl, .refl⟩ .done
  · intro truthful
    have member : (testHashlock, testSwapId) ∈ swapsLocked (historyOf testRefusedLog) := by decide
    obtain ⟨error, same⟩ := truthful.unsettled testHashlock testSwapId member (by decide)
      (by
        rintro preimage ⟨escrow, found, -⟩
        have none : testExpired.escrow testHashlock = none := by decide
        rw [none] at found
        cases found)
    cases same

theorem test_maker_lock :
    Lez.Executes Lez.testRuntime 1699999000000
      (Lez.signedBy Lez.testTerms.makerId Lez.testPda
        (.Lock testHashlock Lez.testTerms.takerId Lez.testTerms.amount Lez.testTerms.timelock))
      Lez.testGenesis Lez.testLocked :=
  Lez.executes_lock testHashlock
    (fun _ _ => (by decide : Lez.testTerms.makerId ≠ Bytes.fill 32 9)) rfl (by decide) rfl

/-- The test world with the maker's escrow locked. -/
def testEscrowLocked : World testTakerSetting :=
  { testEthLocked with
    lez := ⟨Lez.testLocked, 1699999000000, _,
      (Lez.Lawful.unused Lez.testGenesis_unused).step (.execute test_maker_lock)⟩ }

/-- The test world with the maker's escrow funded as well. -/
def testEscrowFunded : World testTakerSetting :=
  { testEthLocked with
    lez := ⟨Lez.testFunded, 1699999000000, _,
      ((Lez.Lawful.unused Lez.testGenesis_unused).step (.execute test_maker_lock)).step
        (.foreign Lez.test_fund)⟩ }

theorem test_escrow_drifts : ReflTransGen Drift testEthLocked testEscrowFunded := by
  have lock : Drift testEthLocked testEscrowLocked :=
    @Drift.lez _ testEthLocked testEscrowLocked.lez _ (.execute test_maker_lock)
      (by rintro _ _ ⟨⟩; rfl) rfl
  have fund : Drift testEscrowLocked testEscrowFunded :=
    @Drift.lez _ testEscrowLocked testEscrowFunded.lez _ (.foreign Lez.test_fund) (by rintro _ _ ⟨⟩) rfl
  exact .tail (.single lock) fund

theorem test_not_pda : Lez.testPda ≠ Lez.testTerms.takerId := by decide

theorem test_funded_covers :
    Lez.testTerms.amount ≤ (Lez.testFunded.account Lez.testPda).balance := by
  decide

/-- The test escrow claimed by its taker. -/
def testClaimed : Lez.Ledger :=
  (Lez.testFunded.payout_transfer (Lez.testTerms.escrow testHashlock .Claimed
    (some testPreimage.toList)).toBytes test_not_pda test_funded_covers).ledger

theorem test_escrow_claim :
    Lez.Executes Lez.testRuntime 1699999000000
      (Lez.signedBy Lez.testTerms.takerId Lez.testPda (.Claim testPreimage.toList))
      Lez.testFunded testClaimed := by
  have read : HTLCEscrow.fromBytes (Lez.testFunded.account Lez.testPda).data =
      .ok (Lez.testTerms.escrow testHashlock .Locked none) :=
    HTLCEscrow.fromBytes_toBytes (Lez.encodable_none .Locked)
  have returned := Lez.main_claim Lez.testRuntime read rfl testPreimage.2 rfl test_funded_covers
  have notPda : ∀ seed ∈ Lez.testRuntime.seeds,
      Lez.testTerms.takerId ≠ Lez.testRuntime.pda seed := fun _ _ => test_not_pda.symm
  have owned : (Lez.testFunded.account Lez.testPda).programOwner = Lez.testRuntime.programId := by
    decide
  exact Lez.executes_settlement notPda rfl owned test_funded_covers returned (by simp) (by simp)

/-- The test world with the maker's escrow claimed. -/
def testEscrowClaimed : World testTakerSetting :=
  { testEscrowFunded with
    lez := ⟨testClaimed, 1699999000000, _,
      testEscrowFunded.lez.lawful.choose_spec.step (.execute test_escrow_claim)⟩ }

theorem test_claimed_encodable :
    (Lez.testTerms.escrow testHashlock .Claimed (some testPreimage.toList)).Encodable :=
  @Lez.encodable_claimed (Lez.testTerms.escrow testHashlock .Locked none) _ testPreimage.2

theorem test_escrow_claimed : testEscrowClaimed.escrow testHashlock =
    some (Lez.testTerms.escrow testHashlock .Claimed (some testPreimage.toList)) := by
  have written : (testClaimed.account Lez.testPda).data =
      (Lez.testTerms.escrow testHashlock .Claimed (some testPreimage.toList)).toBytes := by
    simp [testClaimed, Lez.Transfer.ledger, Lez.Ledger.payout]
  exact Lez.escrowAt_of_written test_claimed_encodable rfl written

/-- A swap that goes through: the taker ends with `Completed`, and its escrow claimed. -/
theorem runTaker_truthful_test : ∃ log final,
    Execution (environment testTakerSetting)
      (runTaker testTakerSetting.runtime.sha256 testTakerSetting.lezClient 1 testConfig
        (some testPreimage)).run testWorld log (.ok (.Completed testPreimage testSwapId "tx"))
        final ∧
    Truthful log (.ok (.Completed testPreimage testSwapId "tx")) final := by
  have read : HTLCEscrow.fromBytes (Lez.testFunded.account Lez.testPda).data =
      .ok (Lez.testTerms.escrow testHashlock .Locked none) :=
    HTLCEscrow.fromBytes_toBytes (Lez.encodable_none .Locked)
  obtain ⟨claimed, claim⟩ : ∃ after : Lez.Ledger,
      Lez.Executes Lez.testRuntime 1699999000000 _ Lez.testFunded after :=
    Lez.executes_claim (fun _ _ => (by decide : Lez.testTerms.takerId ≠ Bytes.fill 32 9)) rfl
      (by decide) read rfl testPreimage.2 rfl (by decide)
  obtain ⟨events, lawful⟩ := testEscrowFunded.lez.lawful
  let final : World testTakerSetting :=
    { testEscrowFunded with lez := ⟨claimed, 1699999000000, _, lawful.step (.execute claim)⟩ }
  have drifts : Drift testEscrowFunded final :=
    @Drift.lez _ testEscrowFunded final.lez _ (.execute claim) (by rintro _ _ ⟨⟩; rfl) rfl
  have found : testEscrowFunded.escrow testHashlock =
      some (Lez.testTerms.escrow testHashlock .Locked none) :=
    Lez.escrowAt_eq_some.mpr ⟨rfl, read⟩
  have reads : Lez.escrowIn (testTakerSetting.runtime.sha256 testPreimage.toList)
      (Lez.testFunded.account Lez.testPda).data =
      .ok (some (Lez.testTerms.escrow testHashlock .Locked none)) := test_reads rfl
  have moved : EscrowMoves Lez.testRuntime testHashlock
      (some (Lez.testTerms.escrow testHashlock .Locked none))
      (testEscrowFunded.escrow testHashlock) := by rw [found]
  have execution : Execution (environment testTakerSetting)
      (runTaker testTakerSetting.runtime.sha256 testTakerSetting.lezClient 1 testConfig
        (some testPreimage)).run testWorld
      (testPrologue ++
        [⟨.selectLez testHashlock 1600, .event (.Locked Lez.testPda), testEscrowFunded,
            testEscrowFunded⟩,
         .quiet testEscrowFunded (.report .LezLockDetected) (),
         .quiet testEscrowFunded (.report .VerifyingLezEscrow) (),
         .quiet testEscrowFunded (.getAccount Lez.testPda)
           (.ok (Lez.testFunded.account Lez.testPda).data),
         .quiet testEscrowFunded (.getAccountBalance Lez.testPda) (.ok 1000),
         .quiet testEscrowFunded .nowUnix 1699999000,
         .quiet testEscrowFunded (.report .LezEscrowVerified) (),
         .quiet testEscrowFunded (.report .ClaimingLez) (),
         .quiet testEscrowFunded (.getAccountsNonces Lez.testTerms.takerId) (.ok [0]),
         ⟨.sendTransaction (.htlc Lez.testPda [0] (.Claim testPreimage.toList)), .ok "tx",
           testEscrowFunded, final⟩,
         .quiet final (.report (.LezClaimed "tx")) ()])
      (.ok (.Completed testPreimage testSwapId "tx")) final := by
    refine .step .refl ⟨_, rfl, .refl⟩ ?_
    refine .step .refl ⟨_, rfl, .refl⟩ ?_
    refine .step .refl test_lock_performed ?_
    refine .step .refl ⟨_, rfl, .refl⟩ ?_
    refine .step .refl ⟨_, rfl, .refl⟩ ?_
    refine .step .refl ⟨_, rfl, .refl⟩ ?_
    refine .step .refl ⟨_, ⟨rfl, rfl⟩, .refl⟩ ?_
    refine .step test_escrow_drifts ⟨_, ⟨rfl, ?_⟩, .refl⟩ ?_
    · exact ⟨_, 1000, none, rfl, fun _ => moved⟩
    refine .step .refl ⟨_, rfl, .refl⟩ ?_
    refine .step .refl ⟨_, rfl, .refl⟩ ?_
    refine .step .refl ⟨_, ⟨rfl, ?_⟩, .refl⟩ ?_
    · rintro hashlock rfl - data escrow ⟨⟩ decoded
      exact Lez.escrowAt_eq_some.mpr ⟨rfl, (Lez.escrowIn_hashlock decoded).1⟩
    simp only [Program.bind, ExceptT.bindCont, Function.comp, reads]
    refine .step .refl ⟨_, rfl, .refl⟩ ?_
    refine .step .refl ⟨_, ⟨rfl, rfl⟩, .refl⟩ ?_
    refine .step .refl ⟨_, rfl, .refl⟩ ?_
    refine .step .refl ⟨_, rfl, .refl⟩ ?_
    refine .step .refl ⟨_, rfl, .refl⟩ ?_
    refine .step .refl ⟨_, rfl, .single drifts⟩ ?_
    exact .step .refl ⟨_, rfl, .refl⟩ .done
  refine ⟨_, final, execution, runTaker_truthful execution ⟨?_, ?_⟩⟩
  · intro entry member escrowPda nonces shown txHash same
    simp only [testPrologue, List.cons_append, List.nil_append, List.mem_cons, List.not_mem_nil,
      or_false] at member
    rcases member with rfl | rfl | rfl | rfl | rfl | rfl | rfl | rfl | rfl | rfl | rfl | rfl |
      rfl | rfl | rfl | rfl | rfl | rfl <;> cases same
    exact ⟨testEscrowFunded, final, .refl _, claim, .refl _⟩
  · intro entry member swapId answer same
    simp only [testPrologue, List.cons_append, List.nil_append, List.mem_cons, List.not_mem_nil,
      or_false] at member
    rcases member with rfl | rfl | rfl | rfl | rfl | rfl | rfl | rfl | rfl | rfl | rfl | rfl |
      rfl | rfl | rfl | rfl | rfl | rfl <;> cases same

end Chain

end AtomicSwaps.Swap
