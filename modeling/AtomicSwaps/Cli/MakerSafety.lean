import AtomicSwaps.Cli.MakerProcess
import AtomicSwaps.Swap.MatchTime

/-!
# What the maker's LEZ is worth

Whenever the maker funds an escrow, an ETH swap stands behind it: for the maker, for the same
hashlock, for enough, and open past the escrow's expiry by the margin. Whatever anybody does on
either chain afterwards, and wherever the maker is killed, until that swap expires the maker has
its LEZ back, can take it back once the escrow has expired, or the preimage that took it is on the
chain and collects the ETH.
-/

namespace AtomicSwaps.Cli

open Semantics Swap
open Lez (AccountId HTLCEscrow LezClient EscrowMoves escrowAt escrowConfirmsOurLock signedBy)
open Eth (HTLC Payout PaidOnce testSwapId testTaker testMaker)

/-! ## The law -/

section Law

variable {setting : Setting} (world : World setting)

/-- The maker's refund of an escrow is accepted, and pays its amount to the maker. -/
def Refundable (hashlock : Bytes32) (escrow : HTLCEscrow) : Prop :=
  ∃ after : Lez.Ledger,
    Lez.Executes setting.runtime world.lez.time
      (signedBy setting.account (setting.runtime.pda hashlock) .Refund) world.lez.ledger after ∧
    (after.account setting.account).balance.toNat =
      (world.lez.ledger.account setting.account).balance.toNat + escrow.amount.toNat

/-- The maker's claim of a swap is accepted, and the amount of the swap leaves the contract. -/
def Collectable (swapId preimage : Bytes32) : Prop :=
  ∃ contract, Eth.claim setting.hashes setting.signer swapId preimage
      world.eth.store.contract >>= Eth.ExternalCall.accepted = .ok contract ∧
    contract.balance + (world.htlc swapId).amount.toNat = world.eth.store.contract.balance

/-- The maker was paid the amount of a swap. -/
def WasPaid (swapId : Bytes32) : Prop :=
  ∃ payout ∈ world.eth.store.payouts, payout.swapId = swapId ∧ payout.payee = setting.signer ∧
    payout.amount = (world.htlc swapId).amount

/-- What the maker has of an escrow that it funded, until the swap behind it expires. -/
inductive Secured (hashlock swapId : Bytes32) (escrow : HTLCEscrow) : Prop where
  | waiting (locked : escrow.state = .Locked)
      (refundable : escrow.timelock ≤ world.lez.time →
        escrow.amount ≤ world.pdaBalance hashlock → Refundable world hashlock escrow)
  | refunded (refunded : escrow.state = .Refunded)
  | revealed (preimage : Bytes32) (claimed : escrow.state = .Claimed)
      (stored : escrow.preimage = some preimage.toList)
      (collected : Collectable world swapId preimage ∨ WasPaid world swapId)

/-- An ETH swap stands behind an escrow of the maker. -/
structure StandsBehind (config : SwapConfig) (args : MakerArgs) (hashlock swapId : Bytes32)
    (lezExpirySecs : U64) : Prop where
  recipient : (world.htlc swapId).recipient = setting.signer
  matching : (world.htlc swapId).hashlock = hashlock
  enough : config.ethAmount.toNat ≤ (world.htlc swapId).amount.toNat
  late : (U64.saturatingAdd lezExpirySecs args.guards.timelockMarginSecs).toNat ≤
    (world.htlc swapId).timelock.toNat
  funded : ∃ escrow, world.escrow hashlock = some escrow ∧
    escrow.makerId = setting.account ∧ escrow.amount = config.lezAmount ∧
    escrow.timelock = secsToMillis lezExpirySecs ∧
    (world.eth.time < (world.htlc swapId).timelock → Secured world hashlock swapId escrow)

end Law

/-- An escrow that is still locked is covered. -/
def Covered {setting : Setting} (world : World setting) (hashlock : Bytes32) : Prop :=
  ∀ escrow, world.escrow hashlock = some escrow → escrow.state = .Locked →
    escrow.amount ≤ world.pdaBalance hashlock

/-- Every transfer the maker ever submitted funds an escrow that an ETH swap stands behind, and
covers it once it has landed. -/
def FundsBacked {setting : Setting}
    (pool : Pool interface (World setting) MakerTask (Except SwapError Unit)) : Prop :=
  ∀ thread ∈ pool.threads, ∀ entry ∈ thread.log, ∀ recipient nonces amount,
    entry.op = .sendTransaction (.transfer recipient nonces amount) →
      ∃ config args fuel hashlock swapId lezExpirySecs,
        thread.task = .main config args fuel ∧ recipient = setting.runtime.pda hashlock ∧
        amount = config.lezAmount ∧
        (hashlock ∈ setting.runtime.seeds → config.ethRecipientAddress = setting.signer →
          StandsBehind pool.world config args hashlock swapId lezExpirySecs ∧
          ((LezTransaction.transfer recipient nonces amount).ExecutedBetween entry.after
            pool.world → Covered pool.world hashlock))

/-- What the parties rely on: both chains hash alike, and the maker's account is not a PDA. -/
structure Sensible (setting : Setting) : Prop where
  hashes : setting.runtime.sha256 = setting.hashes.sha256
  notPda : ∀ seed ∈ setting.runtime.seeds, setting.account ≠ setting.runtime.pda seed

/-! ## The swap -/

/-- A swap that was locked keeps everything but its state. -/
theorem moves_fields {before after : HTLC} (moves : Eth.Moves before after)
    (locked : before.state ≠ .EMPTY) :
    after.state ≠ .EMPTY ∧ after = { before with state := after.state } := by
  induction moves with
  | none => exact ⟨locked, rfl⟩
  | more _ last ih =>
      obtain ⟨there, same⟩ := ih
      cases last with
      | stay => exact ⟨there, same⟩
      | lock empty => exact absurd empty there
      | claim => exact ⟨by simp, by rw [same]⟩
      | refund => exact ⟨by simp, by rw [same]⟩

section Swap

variable {setting : Setting} {world : World setting} {swapId : Bytes32}
  {entries : List (Entry interface (World setting))}

/-- A lock that was seen is there, with the fields that were announced. -/
theorem locked_there (witnessed : Witnessed entries world) {seconds : U64} {event : LockedEvent}
    (seen : ⟨.selectEth seconds, .event (.Locked event)⟩ ∈ historyOf entries) :
    (world.htlc event.swapId).state ≠ .EMPTY ∧
      (world.htlc event.swapId).recipient = event.recipient ∧
      (world.htlc event.swapId).hashlock = event.hashlock ∧
      (world.htlc event.swapId).amount = event.amount ∧
      (world.htlc event.swapId).timelock = event.timelock := by
  obtain ⟨before, middle, ⟨rfl, logged⟩, grown⟩ := witnessed.act seen
  obtain ⟨state, set, same⟩ := middle.eth.logged _ _ _ _ _ _ _ logged
  have locked : (middle.htlc event.swapId).state ≠ .EMPTY := by
    rw [World.htlc, same]
    exact set
  obtain ⟨there, fields⟩ := moves_fields (grown.eth.moves event.swapId) locked
  have now : world.htlc event.swapId =
      { middle.htlc event.swapId with state := (world.htlc event.swapId).state } := fields
  have announced : middle.htlc event.swapId = Eth.announced event.sender event.recipient
      event.amount event.hashlock event.timelock event.takerLezAccount state := same
  rw [announced] at now
  exact ⟨there, by rw [now, Eth.announced], by rw [now, Eth.announced], by rw [now, Eth.announced],
    by rw [now, Eth.announced]⟩

/-- An open swap for the maker can be collected with its preimage. -/
theorem collectable_of_open {preimage : Bytes32} (opened : (world.htlc swapId).state = .OPEN)
    (recipient : (world.htlc swapId).recipient = setting.signer)
    (matching : setting.hashes.sha256 preimage.toList = (world.htlc swapId).hashlock) :
    Collectable world swapId preimage := by
  have covered : (world.htlc swapId).amount.toNat ≤ world.eth.store.contract.balance := by
    have one := Total.le_total (Eth.openAmount world.eth.store.contract) swapId
    have open' : Eth.openAmount world.eth.store.contract swapId =
        (world.htlc swapId).amount.toNat := by
      have state : (world.eth.store.contract.htlcs swapId).state = .OPEN := opened
      simp only [Eth.openAmount, state]
      rfl
    rw [open'] at one
    exact one.trans world.eth.sound.solvent
  refine ⟨_, Eth.claim_accepted.mpr ⟨⟨opened, covered, rfl⟩, recipient.symm, matching⟩, ?_⟩
  exact Nat.sub_add_cancel covered

/-- Before it expires, a swap for the maker can be collected with its preimage, or the maker was
paid for it. -/
theorem collected_before {preimage : Bytes32}
    (locked : (world.htlc swapId).state ≠ .EMPTY)
    (recipient : (world.htlc swapId).recipient = setting.signer)
    (matching : setting.hashes.sha256 preimage.toList = (world.htlc swapId).hashlock)
    (early : world.eth.time < (world.htlc swapId).timelock) :
    Collectable world swapId preimage ∨ WasPaid world swapId := by
  have paid : PaidOnce setting.hashes swapId (world.htlc swapId)
      (world.eth.store.paidFor swapId) := world.eth.sound.accounted swapId
  cases state : (world.htlc swapId).state with
  | EMPTY => exact absurd state locked
  | OPEN => exact .inl (collectable_of_open state recipient matching)
  | CLAIMED =>
      simp only [PaidOnce, state] at paid
      obtain ⟨shown, -, payouts⟩ := paid
      have there : (⟨swapId, (world.htlc swapId).recipient, (world.htlc swapId).amount,
          (world.htlc swapId).recipient, .preimage shown⟩ : Payout) ∈
            world.eth.store.paidFor swapId := payouts ▸ List.mem_singleton_self _
      exact .inr ⟨_, (List.mem_filter.mp there).1, rfl, recipient, rfl⟩
  | REFUNDED =>
      -- a refund is executed at the timelock or later, and that has not come
      simp only [PaidOnce, state] at paid
      obtain ⟨timestamp, expired, payouts⟩ := paid
      have there : (⟨swapId, (world.htlc swapId).sender, (world.htlc swapId).amount,
          (world.htlc swapId).sender, .expiry timestamp⟩ : Payout) ∈
            world.eth.store.paidFor swapId := payouts ▸ List.mem_singleton_self _
      have come := world.eth.past _ (List.mem_filter.mp there).1 timestamp rfl
      exact absurd (BitVec.le_trans expired come) (BitVec.not_le.mpr early)

end Swap

/-! ## The escrow -/

section Escrow

variable {setting : Setting} {world : World setting} {hashlock swapId : Bytes32}
  {escrow : HTLCEscrow}

/-- A locked escrow of the maker is refunded once it has expired. -/
theorem refundable_of_locked (sensible : Sensible setting)
    (seeded : hashlock ∈ setting.runtime.seeds) (there : world.escrow hashlock = some escrow)
    (ours : escrow.makerId = setting.account) (locked : escrow.state = .Locked)
    (expired : escrow.timelock ≤ world.lez.time)
    (covered : escrow.amount ≤ world.pdaBalance hashlock) : Refundable world hashlock escrow := by
  obtain ⟨owned, read⟩ := Lez.escrowAt_eq_some.mp there
  obtain ⟨events, lawful⟩ := world.lez.lawful
  obtain ⟨terms, lockTime, lockSigners, written, -⟩ :=
    (lawful.lives hashlock seeded).locked_of_read owned read locked
  have unset : escrow.preimage = none := by rw [written]; rfl
  have returned := Lez.main_refund setting.runtime read locked unset covered
  rw [ours] at returned
  refine ⟨_, Lez.executes_settlement sensible.notPda seeded owned covered returned (by simp) ?_, ?_⟩
  · rintro start same
    cases same
    exact expired
  · exact (world.lez.ledger.payout_transfer _ (sensible.notPda hashlock seeded).symm covered).credit

/-- What has become of an escrow that was read as the one asked for. -/
theorem confirmed_there {entries : List (Entry interface (World setting))}
    (witnessed : Witnessed entries world) {takerId : AccountId} {amount : U128}
    {timelockSecs : U64}
    (confirmed : Confirmed setting.lezClient (historyOf entries) hashlock takerId amount
      timelockSecs escrow) (seeded : hashlock ∈ setting.runtime.seeds) :
    ∃ now, world.escrow hashlock = some now ∧ now.makerId = setting.account ∧
      now.amount = amount ∧ now.timelock = secsToMillis timelockSecs ∧
      (now.state = .Locked ∨ now.state = .Refunded ∨ now.state = .Claimed ∧
        ∃ preimage, now.preimage = some preimage ∧ preimage.length = 32 ∧
          setting.runtime.sha256 preimage = hashlock) := by
  obtain ⟨read, ours⟩ := confirmed
  simp only [escrowConfirmsOurLock, Bool.and_eq_true, decide_eq_true_eq] at ours
  obtain ⟨⟨⟨⟨locked, maker⟩, -⟩, paid⟩, expiry⟩ := ours
  rcases (read.moves witnessed seeded).some_cases with same | ⟨-, settled, same, terms, -, state⟩
  · exact ⟨escrow, same, maker, paid, expiry, .inl locked⟩
  · have kept := terms
    simp only [HTLCEscrow.terms, Lez.Terms.mk.injEq] at kept
    obtain ⟨sameMaker, -, sameAmount, sameExpiry⟩ := kept
    exact ⟨settled, same, sameMaker.trans maker, sameAmount.trans paid, sameExpiry.trans expiry,
      .inr state⟩

/-- A transfer to an escrow that was read as the one asked for covers it, once it has landed. -/
theorem landed_covers {entries : List (Entry interface (World setting))} {before : World setting}
    (witnessed : Witnessed entries before) {takerId : AccountId} {amount : U128}
    {timelockSecs : U64} {nonces : List U128}
    (confirmed : Confirmed setting.lezClient (historyOf entries) hashlock takerId amount
      timelockSecs escrow) (seeded : hashlock ∈ setting.runtime.seeds)
    (landed : (LezTransaction.transfer (setting.runtime.pda hashlock) nonces
      amount).ExecutedBetween before world) : Covered world hashlock := by
  intro now there locked
  obtain ⟨reached, next, grown, ⟨foreign, transfer⟩, onward⟩ := landed
  have seen : Witnessed entries reached := fun entry member =>
    ⟨(witnessed entry member).1, (witnessed entry member).2.trans grown⟩
  obtain ⟨earlier, held, -, worth, -⟩ := confirmed_there seen confirmed seeded
  obtain ⟨owned, read⟩ := Lez.escrowAt_eq_some.mp held
  have kept := foreign (setting.runtime.pda hashlock)
  rw [if_pos owned] at kept
  have still : next.escrow hashlock = some earlier :=
    (Lez.escrowAt_congr (kept.1.trans owned.symm) kept.2.1).trans held
  have moves := onward.lez.moves hashlock seeded
  have same : earlier = now := by
    have moves : EscrowMoves setting.runtime hashlock (next.escrow hashlock)
        (world.escrow hashlock) := moves
    rw [still, there] at moves
    rcases moves.locked_cases locked with impossible | same
    · cases impossible
    · exact Option.some.inj same
  subst same
  have paid : amount ≤ next.pdaBalance hashlock := by
    have credit := transfer.credit
    show amount.toNat ≤ (next.lez.ledger.account (setting.runtime.pda hashlock)).balance.toNat
    omega
  rw [worth]
  exact BitVec.le_trans paid (onward.lez.balances hashlock seeded _ there locked still)

end Escrow

/-! ## The runs -/

section Runs

variable {setting : Setting} {configured : SwapConfig → MakerArgs → Prop} {start : World setting}
  {pool : Pool interface (World setting) MakerTask (Except SwapError Unit)}

/-- Recovery transfers nothing. -/
theorem recovers_no_transfer {client : LezClient} {history : Trace} {recipient : AccountId}
    {nonces : List U128} {amount : U128}
    (recovers : Recovers client history (.sendTransaction (.transfer recipient nonces amount))) :
    False := recovers

/-- A match that was taken on: its lock was seen and passed every check. -/
theorem Served.seen {client : LezClient} {config : SwapConfig} {guards : LoopGuards}
    {history : Trace} {found : Match} (served : Served client config guards history found) :
    ⟨.selectEth found.seconds, .event (.Locked found.event)⟩ ∈ history ∧
      found.event.recipient = config.ethRecipientAddress ∧
      config.ethAmount.setWidth 256 ≤ found.event.amount ∧
      ethTimelockCoversLez found.event.timelock.saturatingTo64 (found.lezExpirySecs guards)
        guards.timelockMarginSecs = true := by
  obtain ⟨earlier, later, rfl, ⟨before, rfl, recipient, amount, accepted, -⟩, -⟩ := served
  have covers := classifyCandidate_covers accepted
  simp only [loopPolicy, Option.getD_some] at covers
  exact ⟨by simp [Match.exchanges], recipient, amount, covers⟩

/-- Whatever happens on both chains, and wherever the maker is killed: every transfer it ever
submitted is for an escrow that an ETH swap stands behind. -/
theorem funds_backed (sensible : Sensible setting)
    (reached : (makerSystem setting configured).Reaches start pool) : FundsBacked pool := by
  intro thread member entry performed recipient nonces amount transfer
  obtain ⟨earlier, later, split⟩ := List.append_of_mem performed
  have rests := maker_rests reached member split
  have witnessed : Witnessed (thread.past ++ earlier) pool.world :=
    (maker_witnessed reached member).subset fun old there => by
      rcases List.mem_append.mp there with before | own
      · exact List.mem_append_left _ before
      · exact List.mem_append_right _ (split ▸ List.mem_append_left _ own)
  rw [transfer] at rests
  cases task : thread.task with
  | resume entry hashlock timelockMs fuel =>
      rw [task] at rests
      exact (recovers_no_transfer rests.2).elim
  | main config args fuel =>
      rw [task] at rests
      rcases rests with ⟨-, impossible | impossible | recovers⟩ | ⟨-, serves⟩
      · cases impossible
      · cases impossible
      · exact (recovers_no_transfer recovers).elim
      · obtain ⟨found, escrow, served, -, confirmed, rfl, rfl⟩ := serves
        obtain ⟨seen, recipient, enough, covers⟩ := Served.seen served
        refine ⟨config, args, fuel, found.event.hashlock, found.event.swapId,
          found.lezExpirySecs args.guards, rfl, rfl, rfl, fun seeded payee => ⟨?_, ?_⟩⟩
        rotate_left
        · have sent : (environment setting).perform entry.op entry.before entry.answer
              entry.after := (maker_witnessed reached member entry
                (List.mem_append_right _ performed)).1
          have known := maker_witnessed_before reached member split
          exact landed_covers (fun old there => ⟨(known old there).1,
            (known old there).2.trans (performed_grows sent)⟩) confirmed seeded
        obtain ⟨locked, toUs, secret, value, expiry⟩ := locked_there witnessed seen
        obtain ⟨now, there, ours, worth, expires, state⟩ :=
          confirmed_there witnessed confirmed seeded
        have signer : (pool.world.htlc found.event.swapId).recipient = setting.signer :=
          (toUs.trans recipient).trans payee
        refine ⟨signer, secret, ?_, ?_, now, there, ours, worth, expires, fun early => ?_⟩
        · rw [value]
          have enough : (config.ethAmount.setWidth 256).toNat ≤ found.event.amount.toNat := enough
          rwa [BitVec.toNat_setWidth_of_le (by decide)] at enough
        · rw [expiry]
          have order : (U64.saturatingAdd (found.lezExpirySecs args.guards)
              args.guards.timelockMarginSecs).toNat ≤
                found.event.timelock.saturatingTo64.toNat := by
            simpa [ethTimelockCoversLez, BitVec.le_def] using covers
          rw [U256.toNat_saturatingTo64] at order
          omega
        · rcases state with locked | refunded | ⟨claimed, preimage, stored, length, matching⟩
          · exact .waiting locked fun expired covered =>
              refundable_of_locked sensible seeded there ours locked expired covered
          · exact .refunded refunded
          · refine .revealed ⟨preimage, length⟩ claimed stored ?_
            refine collected_before locked signer ?_ early
            rw [← sensible.hashes, secret]
            exact matching

end Runs

/-! ## A funded test swap -/

section Matching

variable {World : Type} {environment : Environment interface World} {client : LezClient}
  {config : SwapConfig} {guards : LoopGuards} {rejected : List Bytes32} {event : LockedEvent}
  {start heard final : World} {now : U64}

/-- A lock for this maker that is forwarded is considered. -/
theorem awaitLock_considers {guards : Option LoopGuards} {hashlock : Option Bytes32}
    {log : List (Entry interface World)} {result : Except SwapError (List Bytes32 ⊕ Option Matched)}
    (wanted : (∀ want ∈ hashlock, event.hashlock = want) ∧
      event.recipient = config.ethRecipientAddress ∧
      config.ethAmount.setWidth 256 ≤ event.amount)
    (clock : environment.perform .nowUnix start now start)
    (selected : environment.perform (.selectEth (U64.saturatingSub config.ethTimelock now)) start
      (.event (.Locked event)) heard)
    (considered : Execution environment (considerLock client config guards rejected event).run heard
      log result final) :
    Execution environment (awaitLock client config guards hashlock rejected).run start
      (.quiet start .nowUnix now ::
        ⟨.selectEth (U64.saturatingSub config.ethTimelock now), .event (.Locked event), start,
          heard⟩ :: log) result final := by
  refine .step .refl clock (.step .refl selected ?_)
  simp only [Program.bind, Function.comp, ExceptT.bindCont, if_pos wanted]
  exact considered

/-- A lock that is considered, accepted and still open is matched. -/
theorem considerLock_matches {lezClaimant : AccountId} {htlc : Eth.HTLC}
    (accepts : classifyCandidate
      ⟨event.hashlock, event.takerLezAccount, event.timelock.saturatingTo64⟩
      ⟨client.accountId, config.lezTakerAccountId,
        freshLezExpirySecs now guards.lezTimelockSecs, some guards.timelockMarginSecs⟩
      rejected false = .Accept)
    (usable : designatedLezClaimant event.takerLezAccount client.accountId = some lezClaimant)
    (unclaimed : htlc.state = .OPEN)
    (clock : environment.perform .nowUnix start now start)
    (journal : environment.perform (.contains (Hex.encode event.hashlock.toList)) start false start)
    (read : environment.perform (.getHTLC event.swapId) start (.ok htlc) start)
    (told : environment.perform (.report (.EthLockDetected (display event.swapId)
      (Hex.encode event.hashlock.toList) (Hex.encode event.takerLezAccount.toList)
      (display event.txHash))) start () start) :
    Execution environment (considerLock client config (some guards) rejected event).run start
      [.quiet start .nowUnix now,
       .quiet start (.contains (Hex.encode event.hashlock.toList)) false,
       .quiet start (.getHTLC event.swapId) (.ok htlc),
       .quiet start (.report (.EthLockDetected (display event.swapId)
         (Hex.encode event.hashlock.toList) (Hex.encode event.takerLezAccount.toList)
         (display event.txHash))) ()]
      (.ok (.inr (some ⟨event.swapId, event.hashlock,
        freshLezExpirySecs now guards.lezTimelockSecs, lezClaimant⟩))) start := by
  refine .step .refl clock (.step .refl journal ?_)
  simp only [Program.bind, Function.comp, ExceptT.bindCont, Option.map_some, accepts, usable]
  refine .step .refl read ?_
  simp only [Program.bind, Function.comp, ExceptT.bindCont, pure, ExceptT.pure, ExceptT.mk,
    unclaimed, ne_eq, not_true_eq_false, if_false]
  exact .step .refl told .done

end Matching

/-- The test maker's configuration, for the terms of the test escrow. -/
def testOffer : SwapConfig := { testConfig with lezAmount := Lez.testTerms.amount }

/-- The taker's ETH is locked, half an hour before the test escrow's expiry. -/
def testOffered : World testMakerSetting :=
  { testMakerWorld testEthLocked [] with now := 1699998200, synced := trivial }

/-- The taker's lock as the maker's watcher forwards it. -/
def testSeenLock : LockedEvent :=
  ⟨testSwapId, testTaker, testMaker, 1000000000000000000, testHashlock, 1700000600,
    Lez.testTerms.takerId, Bytes.zero 32⟩

/-- The same with the swap in the journal. -/
def testRecorded : World testMakerSetting :=
  testOffered.withStore (testOffered.store.recordPreLock (Hex.encode testHashlock.toList)
    (display testSwapId) 1699998200 .ok).2

/-- The same with the maker's escrow locked. -/
def testOwnLocked : World testMakerSetting :=
  { testRecorded with lez := testEscrowLocked.lez, synced := trivial }

/-- The configuration the maker's first iteration runs with. -/
def testFresh : SwapConfig := testOffer.withFreshTimelocks 30 50 1699998200

/-- The maker matches the lock under an expiry half an hour ahead. -/
def testMatched : Matched := ⟨testSwapId, testHashlock, 1700000000, Lez.testTerms.takerId⟩

/-- The maker starts with an empty journal. -/
def testStartup : List (Entry interface (World testMakerSetting)) :=
  [.quiet testOffered .lezConnect (.ok ()), .quiet testOffered .load (.ok ()),
   .quiet testOffered .snapshot [], .quiet testOffered .joinResumed (),
   .quiet testOffered .snapshot [],
   .quiet testOffered (.getAccountBalance Lez.testTerms.makerId) (.ok Lez.testTerms.amount),
   .quiet testOffered (.report .AutoAcceptStarted) (),
   .quiet testOffered .cancelRequested false, .quiet testOffered .nowUnix 1699998200,
   .quiet testOffered .lezConnect (.ok ()),
   .quiet testOffered (.getAccountBalance Lez.testTerms.makerId) (.ok Lez.testTerms.amount),
   .quiet testOffered (.report (.AutoAcceptIteration 1)) (),
   .quiet testOffered .ethConnect (.ok ())]

/-- It waits for a lock. -/
def testWaiting : List (Entry interface (World testMakerSetting)) :=
  [.quiet testOffered (.report .WaitingForEthLock) (), .quiet testOffered .ethConnect (.ok ())]

/-- It matches the lock. -/
def testMatching : List (Entry interface (World testMakerSetting)) :=
  [.quiet testOffered .nowUnix 1699998200,
   .quiet testOffered (.selectEth 3000) (.event (.Locked testSeenLock)),
   .quiet testOffered .nowUnix 1699998200,
   .quiet testOffered (.contains (Hex.encode testHashlock.toList)) false,
   .quiet testOffered (.getHTLC testSwapId) (.ok (testOffered.htlc testSwapId)),
   .quiet testOffered (.report (.EthLockDetected (display testSwapId)
     (Hex.encode testHashlock.toList) (Hex.encode Lez.testTerms.takerId.toList)
     (display (Bytes.zero 32)))) ()]

/-- It writes the swap down. -/
def testRecording : List (Entry interface (World testMakerSetting)) :=
  [⟨.record (Hex.encode testHashlock.toList) (display testSwapId), .ok (), testOffered,
     testRecorded⟩,
   .quiet testRecorded (.ops (.accepted (Hex.encode testHashlock.toList) (display testSwapId))) (),
   .quiet testRecorded (.report .LezLocking) ()]

/-- It locks the escrow, reads it back and funds it. -/
def testLocking : List (Entry interface (World testMakerSetting)) :=
  [.quiet testRecorded (.getAccount Lez.testPda) (.ok []),
   .quiet testRecorded (.getAccountsNonces Lez.testTerms.makerId) (.ok []),
   ⟨.sendTransaction (.htlc Lez.testPda []
     (Lez.buildLockInstruction testHashlock Lez.testTerms.takerId Lez.testTerms.amount
       1700000000)), .ok "", testRecorded, testOwnLocked⟩,
   .quiet testOwnLocked (.getAccount Lez.testPda)
     (.ok (Lez.testTerms.escrow testHashlock .Locked none).toBytes),
   .quiet testOwnLocked (.getAccountsNonces Lez.testTerms.makerId) (.ok []),
   .quiet testOwnLocked (.sendTransaction (.transfer Lez.testPda [] Lez.testTerms.amount))
     (.ok "")]

theorem test_own_lock : Drift testRecorded testOwnLocked :=
  @Drift.lez _ testRecorded testOwnLocked.lez _ (.execute test_maker_lock)
    (by rintro _ _ ⟨⟩; rfl) rfl

theorem test_wanted : (∀ want ∈ (none : Option Bytes32), testSeenLock.hashlock = want) ∧
    testSeenLock.recipient = testFresh.ethRecipientAddress ∧
    testFresh.ethAmount.setWidth 256 ≤ testSeenLock.amount := by
  refine ⟨by simp, rfl, ?_⟩
  show BitVec.setWidth 256 (1000000000000000000 : U128) ≤ 1000000000000000000
  simp

theorem test_lock_accepted : classifyCandidate
    ⟨testHashlock, Lez.testTerms.takerId, testSeenLock.timelock.saturatingTo64⟩
    ⟨Lez.testTerms.makerId, none, freshLezExpirySecs 1699998200 1800, some 300⟩ [] false =
    .Accept := by decide

theorem test_read (htlc : Eth.HTLC)
    (shown : Except.ok (testOffered.htlc testSwapId) = (.ok htlc : Except String Eth.HTLC)) :
    Eth.Moves htlc (testOffered.htlc testSwapId) := by
  cases shown
  exact .none

/-- The maker matches the lock. -/
theorem test_matching : Execution (environment testMakerSetting)
    (awaitLock testMakerSetting.lezClient testFresh (some (loopGuards 30 300)) none []).run
    testOffered testMatching (.ok (.inr (some testMatched))) testOffered := by
  have considered := @considerLock_matches _ (environment testMakerSetting)
    testMakerSetting.lezClient testFresh (loopGuards 30 300) [] testSeenLock testOffered 1699998200
    Lez.testTerms.takerId (testOffered.htlc testSwapId) test_lock_accepted rfl rfl
    ⟨_, ⟨rfl, rfl⟩, .refl⟩ ⟨_, ⟨rfl, rfl⟩, .refl⟩ ⟨_, ⟨rfl, test_read⟩, .refl⟩ ⟨_, rfl, .refl⟩
  exact awaitLock_considers test_wanted ⟨_, ⟨rfl, rfl⟩, .refl⟩
    ⟨_, ⟨rfl, List.mem_singleton_self _⟩, .refl⟩ considered

/-- The maker locks its test escrow and funds it. -/
theorem test_locking : ∃ rest, Advances (environment testMakerSetting)
    (testMakerSetting.lezClient.lock 1 testHashlock Lez.testTerms.takerId Lez.testTerms.amount
      1700000000).run testRecorded testLocking rest testOwnLocked := by
  have reads : Lez.escrowIn testHashlock (Lez.testTerms.escrow testHashlock .Locked none).toBytes =
      .ok (some (Lez.testTerms.escrow testHashlock .Locked none)) :=
    Lez.escrowIn_toBytes (Lez.encodable_none .Locked)
  refine Advances.more .refl ⟨_, ⟨rfl, ?_⟩, .refl⟩ ?_
  · rintro hashlock - - data escrow ⟨⟩ decoded
    cases decoded
  refine Advances.more .refl ⟨_, rfl, .refl⟩ ?_
  refine Advances.more .refl ⟨_, rfl, .single test_own_lock⟩ ?_
  refine Advances.more .refl ⟨_, ⟨rfl, ?_⟩, .refl⟩ ?_
  · rintro hashlock rfl - data escrow ⟨⟩ decoded
    rw [reads] at decoded
    cases decoded
    exact Lez.escrowAt_of_written (Lez.encodable_none .Locked) rfl rfl
  simp only [Program.bind, ExceptT.bindCont, Function.comp, reads]
  refine Advances.more .refl ⟨_, rfl, .refl⟩ ?_
  refine Advances.more .refl ⟨_, rfl, .refl⟩ ?_
  exact ⟨_, .none⟩

/-- The maker serves its match. -/
theorem test_serving : ∃ rest, Advances (environment testMakerSetting)
    (serve testMakerSetting.lezClient testFresh (some (loopGuards 30 300)) 1 testMatched).run
    testOffered (testRecording ++ testLocking) rest testOwnLocked := by
  refine Advances.more .refl ⟨_, ⟨.ok, rfl⟩, .refl⟩ ?_
  refine Advances.more .refl ⟨_, rfl, .refl⟩ ?_
  refine Advances.more .refl ⟨_, rfl, .refl⟩ ?_
  simp only [Program.bind, ExceptT.bindCont, Function.comp]
  exact Advances.within test_locking

/-- The maker makes its test swap. -/
theorem test_making : ∃ rest, Advances (environment testMakerSetting)
    (runMaker testMakerSetting.lezClient testFresh (some (loopGuards 30 300)) 1 none).run
    testOffered (testWaiting ++ (testMatching ++ (testRecording ++ testLocking))) rest
    testOwnLocked := by
  refine Advances.more .refl ⟨_, rfl, .refl⟩ ?_
  refine Advances.more .refl ⟨_, rfl, .refl⟩ ?_
  simp only [Program.bind, ExceptT.bindCont, Function.comp]
  refine Advances.after .done ?_
  exact Advances.after (Execution.iterate_last test_matching) test_serving

/-- The maker funds its test escrow. -/
theorem test_funds : ∃ rest, Advances (environment testMakerSetting)
    (cmdMakerLoop testMakerSetting.lezClient testOffer testArgs 1).run
    (testOffered.withStore testOffered.store.load)
    (testStartup ++ (testWaiting ++ (testMatching ++ (testRecording ++ testLocking)))) rest
    testOwnLocked := by
  refine Advances.more .refl ⟨_, rfl, .refl⟩ ?_
  refine Advances.more .refl ⟨_, rfl, .refl⟩ ?_
  refine Advances.more .refl ⟨_, ⟨rfl, rfl⟩, .refl⟩ ?_
  refine Advances.more .refl ⟨_, rfl, .refl⟩ ?_
  refine Advances.more .refl ⟨_, ⟨rfl, rfl⟩, .refl⟩ ?_
  refine Advances.more .refl ⟨_, rfl, .refl⟩ ?_
  refine Advances.more .refl ⟨_, rfl, .refl⟩ ?_
  refine Advances.more .refl ⟨_, rfl, .refl⟩ ?_
  refine Advances.more .refl ⟨_, ⟨rfl, rfl⟩, .refl⟩ ?_
  refine Advances.more .refl ⟨_, rfl, .refl⟩ ?_
  refine Advances.more .refl ⟨_, rfl, .refl⟩ ?_
  refine Advances.more .refl ⟨_, rfl, .refl⟩ ?_
  refine Advances.more .refl ⟨_, rfl, .refl⟩ ?_
  simp only [Program.bind, ExceptT.bindCont, Function.comp]
  refine Advances.within (Advances.within (Advances.within (Advances.within (Advances.within ?_))))
  exact test_making

theorem test_sensible : Sensible testMakerSetting where
  hashes := rfl
  notPda := by
    rintro seed rfl
    decide

/-- The maker with its test escrow funded. -/
def testFunded (rest : Program interface (Except SwapError Unit)) :
    Pool interface (World testMakerSetting) MakerTask (Except SwapError Unit) :=
  ⟨testOwnLocked, [⟨.main testOffer testArgs 1, [], testStartup ++ (testWaiting ++
    (testMatching ++ (testRecording ++ testLocking))), rest⟩]⟩

theorem test_reaches : ∃ rest, (makerSystem testMakerSetting fun _ _ => True).Reaches testOffered
    (testFunded rest) := by
  apply maker_starts trivial test_funds
  simp [testStartup, testWaiting, testMatching, testRecording, testLocking, makerSystem,
    Entry.quiet]

/-- The maker's test swap is backed. -/
theorem funds_backed_test : ∃ rest,
    (makerSystem testMakerSetting fun _ _ => True).Reaches testOffered (testFunded rest) ∧
    FundsBacked (testFunded rest) := by
  obtain ⟨rest, reached⟩ := test_reaches
  exact ⟨rest, reached, funds_backed test_sensible reached⟩

end AtomicSwaps.Cli
