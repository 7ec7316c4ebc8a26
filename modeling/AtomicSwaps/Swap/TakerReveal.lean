import AtomicSwaps.Lez.Lifecycle
import AtomicSwaps.Swap.Taker

/-!
# Revealing the preimage

The taker submits its `Claim`, and with it the preimage, only after reads that passed
every check. What these checks imply on the chain: no refund for the claim margin, and
a claim that pays as long as the escrow account covers the escrow's own amount, which
no check compares.
-/

namespace AtomicSwaps.Swap

open Semantics Lez Eth

/-- The reads in a history that passed the checks before the claim of `hashlock`. -/
structure Checked (client : LezClient) (config : SwapConfig) (hashlock : Bytes32)
    (history : Trace) (escrow : HTLCEscrow) (pdaBalance : U128) (now : U64) : Prop where
  escrowRead : ∃ data, escrowIn hashlock data = .ok (some escrow) ∧
    ⟨.getAccount (client.escrowPda hashlock), .ok data⟩ ∈ history
  balanceRead : ⟨.getAccountBalance (client.escrowPda hashlock), .ok pdaBalance⟩ ∈ history
  clockRead : ⟨.nowUnix, now⟩ ∈ history
  stateAndAmount : checkEscrow config escrow = .ok ()
  balance : checkPdaBalance config pdaBalance = .ok ()
  binding : verifyEscrowBinding escrow client.accountId hashlock config.ethTimelock now = .ok ()

/-- A submitted claim shows a preimage whose hash passed the checks. -/
def RevealsChecked (sha256 : List UInt8 → Bytes32) (client : LezClient) (config : SwapConfig)
    (history : Trace) (op : Op) : Prop :=
  ∀ escrowPda nonces shown,
    op = .sendTransaction (.htlc escrowPda nonces (.Claim shown)) →
      ∃ (preimage : Bytes32) (escrow : HTLCEscrow) (pdaBalance : U128) (now : U64),
        escrowPda = client.escrowPda (sha256 preimage.toList) ∧ shown = preimage.toList ∧
        Checked client config (sha256 preimage.toList) history escrow pdaBalance now

/-- The escrow account of a ledger as an instruction sees it. -/
def escrowPre (ledger : Ledger) (escrowPda : AccountId) : AccountWithMetadata :=
  ⟨ledger.account escrowPda, false, escrowPda⟩

/-- `execute_claim` by the authorized taker succeeds and credits it with `amount` or more. -/
def ClaimPays (host : Host) (ledger : Ledger) (taker escrowPda : AccountId) (preimage : Bytes32)
    (amount : U128) : Prop :=
  ∃ takerPost escrowPost,
    executeClaim host [⟨ledger.account taker, true, taker⟩, escrowPre ledger escrowPda]
      preimage.toList = .ok [takerPost, escrowPost] ∧
    (ledger.account taker).balance.toNat + amount.toNat ≤ takerPost.account.balance.toNat

/-- `execute_refund` of the escrow is valid from this many seconds on at the earliest. -/
def RefundsFrom (host : Host) (ledger : Ledger) (escrowPda : AccountId) (seconds : Nat) : Prop :=
  ∀ maker posts window,
    executeRefund host [maker, escrowPre ledger escrowPda] = .ok (posts, window) →
      seconds * 1000 ≤ window.toNat

variable {config : SwapConfig} {escrow : HTLCEscrow} {account : AccountId} {hashlock : Bytes32}
  {now ethTimelock : U64} {pdaBalance : U128}

theorem checkEscrow_ok :
    checkEscrow config escrow = .ok () ↔
      escrow.state = .Locked ∧ config.lezAmount ≤ escrow.amount := by
  constructor
  · intro passed
    simp only [checkEscrow] at passed
    split at passed; · cases passed
    split at passed; · cases passed
    rename_i locked enough
    exact ⟨not_not.mp locked, BitVec.not_lt.mp enough⟩
  · rintro ⟨locked, enough⟩
    simp only [checkEscrow, locked, BitVec.not_lt.mpr enough, ne_eq, not_true_eq_false, if_false]

theorem verifyEscrowBinding_ok :
    verifyEscrowBinding escrow account hashlock ethTimelock now = .ok () ↔
      escrow.takerId = account ∧ escrow.hashlock = hashlock ∧
        U64.saturatingAdd now lezClaimMarginSecs ≤ escrow.timelock / 1000 ∧
        escrow.timelock / 1000 < ethTimelock := by
  constructor
  · intro passed
    simp only [verifyEscrowBinding] at passed
    split at passed; · cases passed
    split at passed; · cases passed
    split at passed; · cases passed
    split at passed; · cases passed
    rename_i ours bound headroom ordered
    exact ⟨not_not.mp ours, not_not.mp bound, BitVec.not_lt.mp headroom,
      BitVec.not_le.mp ordered⟩
  · rintro ⟨ours, bound, headroom, ordered⟩
    simp only [verifyEscrowBinding, ours, bound, BitVec.not_lt.mpr headroom,
      BitVec.not_le.mpr ordered, ne_eq, not_true_eq_false, if_false]

/-- The margin check in milliseconds: it fails where the addition saturates, as no
millisecond timelock lies that far ahead. -/
theorem refund_window_of_margin {timelock : U64}
    (headroom : U64.saturatingAdd now lezClaimMarginSecs ≤ timelock / 1000) :
    (now.toNat + 300) * 1000 ≤ timelock.toNat := by
  have headroom : (U64.saturatingAdd now lezClaimMarginSecs).toNat ≤ (timelock / 1000).toNat :=
    headroom
  have margin : lezClaimMarginSecs.toNat = 300 := rfl
  have thousand : (1000 : U64).toNat = 1000 := rfl
  have bound := timelock.isLt
  rw [U64.toNat_saturatingAdd, margin, BitVec.toNat_udiv, thousand] at headroom
  omega

section Chain

variable {host : Host} {ledger : Ledger} {escrowPda : AccountId} {preimage : Bytes32}

/-- A claim goes through only when the account covers the escrow's amount. -/
theorem ClaimPays.covered {amount : U128}
    (pays : ClaimPays host ledger account escrowPda preimage amount)
    (read : HTLCEscrow.fromBytes (ledger.account escrowPda).data = .ok escrow) :
    escrow.amount ≤ (ledger.account escrowPda).balance := by
  obtain ⟨takerPost, escrowPost, returned, -⟩ := pays
  obtain ⟨decoded, same, -, -, -, -, -, covered, -⟩ := executeClaim_ok.mp returned
  have same : HTLCEscrow.fromBytes (ledger.account escrowPda).data = .ok decoded := same
  rw [read] at same
  cases same
  exact covered

/-- A covered escrow that passed the checks pays its amount. -/
theorem claimPays_of_covered (fits : 157 ≤ host.dataMax) (distinct : escrowPda ≠ account)
    (read : HTLCEscrow.fromBytes (ledger.account escrowPda).data = .ok escrow)
    (checked : checkEscrow config escrow = .ok ())
    (bound : verifyEscrowBinding escrow account (host.sha256 preimage.toList) ethTimelock now =
      .ok ())
    (covered : escrow.amount ≤ (ledger.account escrowPda).balance) :
    ClaimPays host ledger account escrowPda preimage config.lezAmount := by
  obtain ⟨locked, enough⟩ := checkEscrow_ok.mp checked
  obtain ⟨ours, matching, -, -⟩ := verifyEscrowBinding_ok.mp bound
  have short : { escrow with
      state := .Claimed, preimage := some preimage.toList }.toBytes.length ≤ host.dataMax := by
    rw [HTLCEscrow.length_toBytes]
    simp only [Option.getD_some, List.Vector.toList_length]
    omega
  refine ⟨_, _, executeClaim_ok.mpr ⟨escrow, read, preimage.2, rfl, locked, ours.symm,
    matching.symm, covered, short, rfl⟩, ?_⟩
  have noOverflow := ledger.credit_fits distinct covered
  have enough : config.lezAmount.toNat ≤ escrow.amount.toNat := enough
  simp only [AccountPostState.new, BitVec.toNat_add, Nat.mod_eq_of_lt noOverflow]
  omega

/-- The margin check keeps refunds out for the claim margin. -/
theorem refundsFrom_of_binding
    (read : HTLCEscrow.fromBytes (ledger.account escrowPda).data = .ok escrow)
    (bound : verifyEscrowBinding escrow account hashlock ethTimelock now = .ok ()) :
    RefundsFrom host ledger escrowPda (now.toNat + 300) := by
  intro maker posts window returned
  obtain ⟨decoded, same, -, -, -, -, -, rfl, -⟩ := executeRefund_ok.mp returned
  have same : HTLCEscrow.fromBytes (ledger.account escrowPda).data = .ok decoded := same
  rw [read] at same
  cases same
  exact refund_window_of_margin (verifyEscrowBinding_ok.mp bound).2.2.1

end Chain

section Flow

variable {sha256 : List UInt8 → Bytes32} {client : LezClient} {history : Trace}

/-- Every operation but a claim reveals nothing. -/
theorem revealsChecked_of_ne {op : Op}
    (other : ∀ escrowPda nonces shown,
      op ≠ .sendTransaction (.htlc escrowPda nonces (.Claim shown))) :
    RevealsChecked sha256 client config history op :=
  fun escrowPda nonces shown same => absurd same (other escrowPda nonces shown)

/-- What the taker submits after its checks. -/
theorem claimEscrow_follows {swapId preimage : Bytes32} :
    Follows (RevealsChecked sha256 client config) (fun _ _ => True)
      (claimEscrow client config (sha256 preimage.toList) swapId preimage).run history := by
  refine .request_bind (revealsChecked_of_ne (by simp)) fun _ => ?_
  refine Follows.run_bind_iff.mpr (LezClient.getEscrow_follows (revealsChecked_of_ne (by simp))
    (fun data result decoded => ?_) fun _ => trivial)
  cases result with
  | none => trivial
  | some escrow =>
      refine Follows.run_bind_iff.mpr (Follows.run_returned_iff.mpr ?_)
      cases escrowChecked : checkEscrow config escrow with
      | error e => trivial
      | ok =>
      refine Follows.run_bind_iff.mpr (LezClient.getBalance_follows
        (revealsChecked_of_ne (by simp)) (fun pdaBalance => ?_) fun _ => trivial)
      refine Follows.run_bind_iff.mpr (Follows.run_returned_iff.mpr ?_)
      cases balanceChecked : checkPdaBalance config pdaBalance with
      | error e => trivial
      | ok =>
      refine .request_bind (revealsChecked_of_ne (by simp)) fun now => ?_
      refine Follows.run_bind_iff.mpr (Follows.run_returned_iff.mpr ?_)
      cases bound : verifyEscrowBinding escrow client.accountId (sha256 preimage.toList)
        config.ethTimelock now with
      | error e => trivial
      | ok =>
      refine .request_bind (revealsChecked_of_ne (by simp)) fun _ => ?_
      refine .request_bind (revealsChecked_of_ne (by simp)) fun _ => ?_
      refine Follows.run_bind_iff.mpr (LezClient.sendHtlcInstruction_follows
        (revealsChecked_of_ne (by simp)) (fun nonces escrowPda nonces shown same => ?_)
        (fun _ => trivial) fun nonces answer => ?_)
      · cases same
        exact ⟨preimage, escrow, pdaBalance, now, rfl, rfl, ⟨data, decoded, by simp⟩, by simp,
          by simp, escrowChecked, balanceChecked, bound⟩
      · cases answer with
        | error e => trivial
        | ok txHash => exact .request_bind (revealsChecked_of_ne (by simp)) fun _ => trivial

theorem refundEth_follows {swapId : Bytes32} :
    Follows (RevealsChecked sha256 client config) (fun _ _ => True)
      (refundEth swapId).run history := by
  refine .request_bind (revealsChecked_of_ne (by simp)) fun _ => ?_
  refine Follows.run_bind_iff.mpr (Follows.run_attempt_iff.mpr
    (EthClient.refund_follows (revealsChecked_of_ne (by simp)) fun answer => ?_))
  exact .request_bind (revealsChecked_of_ne (by simp)) fun _ => trivial

theorem awaitEscrow_follows {hashlock swapId : Bytes32} (round : Unit) :
    Follows (RevealsChecked sha256 client config) (fun _ _ => True)
      (awaitEscrow config hashlock swapId round).run history := by
  refine .request_bind (revealsChecked_of_ne (by simp)) fun now => ?_
  refine .request_bind (revealsChecked_of_ne (by simp)) fun answer => ?_
  have gaveUp : ∀ later : Trace, Follows (RevealsChecked sha256 client config)
      (fun _ _ => True)
      (do
        let outcome ← refundEth swapId
        return .inr (some outcome) : Flow (Unit ⊕ Option SwapOutcome)).run later := by
    intro later
    refine Follows.run_bind_iff.mpr (refundEth_follows.weaken fun _ result _ => ?_)
    cases result <;> trivial
  cases answer with
  | timer => exact .request_bind (revealsChecked_of_ne (by simp)) fun _ => gaveUp _
  | event event =>
      cases event with
      | Locked escrowPda => exact .request_bind (revealsChecked_of_ne (by simp)) fun _ => trivial
      | Refunded escrowPda => exact gaveUp _
      | Claimed escrowPda shown => trivial

/-- Whatever the chains, the maker and the clocks answer, the taker reveals its preimage
only after checks that passed. -/
theorem runTaker_reveals_checked (fuel : Nat) (overridePreimage : Option Bytes32) :
    Follows (RevealsChecked sha256 client config) (fun _ _ => True)
      (runTaker sha256 client fuel config overridePreimage).run history := by
  have body : ∀ (preimage : Bytes32) (later : Trace),
      Follows (RevealsChecked sha256 client config) (fun _ _ => True)
        (runTakerWith client fuel config preimage (sha256 preimage.toList)).run later := by
    intro preimage later
    refine .request_bind (revealsChecked_of_ne (by simp)) fun _ => ?_
    refine .request_bind (revealsChecked_of_ne (by simp)) fun _ => ?_
    refine Follows.run_bind_iff.mpr (EthClient.lock_follows (revealsChecked_of_ne (by simp))
      fun answer => ?_)
    cases EthClient.lockResult answer with
    | error e => trivial
    | ok receipt =>
    refine .request_bind (revealsChecked_of_ne (by simp)) fun _ => ?_
    refine .request_bind (revealsChecked_of_ne (by simp)) fun _ => ?_
    refine .request_bind (revealsChecked_of_ne (by simp)) fun connected => ?_
    refine Follows.run_bind_iff.mpr (Follows.run_returned_iff.mpr ?_)
    cases connected with
    | error e => trivial
    | ok =>
    refine Follows.run_bind_iff.mpr (Follows.iterate (fun _ _ => True)
      (fun _ round _ => (awaitEscrow_follows round).weaken fun _ result _ => ?_) fuel () trivial)
    match result with
    | .error _ | .ok (.inl _) | .ok (.inr (some _)) => trivial
    | .ok (.inr none) => exact claimEscrow_follows
  cases overridePreimage with
  | some preimage => exact body preimage history
  | none => exact .request_bind (revealsChecked_of_ne (by simp)) fun preimage => body preimage _

end Flow

/-- The reveal is safe as far as the checks go. The preimage leaves the taker only after
reads that passed every check; and on a chain that is as the reads say, the claim pays
the configured amount if and only if the escrow account covers the escrow's own amount,
while no refund is valid before the claim margin has passed. -/
theorem reveal_pays_iff_covered (runtime : Runtime) (account : AccountId) (config : SwapConfig)
    (ledger : Ledger) (preimage : Bytes32) (escrow : HTLCEscrow) (now : U64)
    (distinct : runtime.pda (runtime.sha256 preimage.toList) ≠ account)
    (read : escrowIn (runtime.sha256 preimage.toList)
      (ledger.account (runtime.pda (runtime.sha256 preimage.toList))).data = .ok (some escrow))
    (stateAndAmount : checkEscrow config escrow = .ok ())
    (_balance : checkPdaBalance config
      (ledger.account (runtime.pda (runtime.sha256 preimage.toList))).balance = .ok ())
    (binding : verifyEscrowBinding escrow account (runtime.sha256 preimage.toList)
      config.ethTimelock now = .ok ()) :
    (∀ fuel history, Follows (RevealsChecked runtime.sha256 ⟨account, runtime.pda⟩ config)
      (fun _ _ => True)
      (runTaker runtime.sha256 ⟨account, runtime.pda⟩ fuel config (some preimage)).run history) ∧
    (ClaimPays runtime.toHost ledger account (runtime.pda (runtime.sha256 preimage.toList))
        preimage config.lezAmount ∧
      RefundsFrom runtime.toHost ledger (runtime.pda (runtime.sha256 preimage.toList))
        (now.toNat + 300) ↔
      escrow.amount ≤
        (ledger.account (runtime.pda (runtime.sha256 preimage.toList))).balance) := by
  have decoded := (escrowIn_hashlock read).1
  refine ⟨fun fuel history => runTaker_reveals_checked fuel _, ?_, ?_⟩
  · rintro ⟨pays, -⟩
    exact pays.covered decoded
  · intro covered
    exact ⟨claimPays_of_covered runtime.dataFits distinct decoded stateAndAmount binding covered,
      refundsFrom_of_binding decoded binding⟩

/-- The taker of the test escrow, who wants 400 λ. -/
def testConfig : SwapConfig where
  lezAmount := 400
  ethAmount := 1000000000000000000
  lezTimelock := 1700000000
  ethTimelock := 1700000600
  ethRecipientAddress := Bytes.fill 20 2
  lezTakerAccountId := none

theorem test_reads {data : List UInt8}
    (stored : data = (testTerms.escrow testHashlock .Locked none).toBytes) :
    escrowIn testHashlock data = .ok (some (testTerms.escrow testHashlock .Locked none)) :=
  stored ▸ escrowIn_toBytes (encodable_none .Locked)

theorem test_binding :
    verifyEscrowBinding (testTerms.escrow testHashlock .Locked none) testTerms.takerId
      testHashlock testConfig.ethTimelock 1699999000 = .ok () := by
  decide

theorem test_half_covered : (500 : U128) ≤ (testLocked.account testTerms.makerId).balance := by
  decide

/-- The test escrow of 1000 λ holding only 500 of them. -/
def testUnderfunded : Ledger :=
  (testLocked.payout_transfer [] test_distinct test_half_covered).ledger

/-- The fully funded test escrow pays the taker. -/
theorem reveal_pays_iff_covered_test :
    ClaimPays testRuntime.toHost testFunded testTerms.takerId testPda testPreimage
        testConfig.lezAmount ∧
      RefundsFrom testRuntime.toHost testFunded testPda (1699999000 + 300) :=
  (reveal_pays_iff_covered testRuntime testTerms.takerId testConfig testFunded testPreimage
    (testTerms.escrow testHashlock .Locked none) 1699999000 (by decide) (test_reads rfl)
    (by decide) (by decide) test_binding).2.mpr (by decide)

/-- The taker accepts the underfunded escrow and reveals, and its claim fails. -/
theorem underfunded_reveal_fails :
    escrowIn testHashlock (testUnderfunded.account testPda).data =
      .ok (some (testTerms.escrow testHashlock .Locked none)) ∧
    checkEscrow testConfig (testTerms.escrow testHashlock .Locked none) = .ok () ∧
    checkPdaBalance testConfig (testUnderfunded.account testPda).balance = .ok () ∧
    verifyEscrowBinding (testTerms.escrow testHashlock .Locked none) testTerms.takerId
      testHashlock testConfig.ethTimelock 1699999000 = .ok () ∧
    executeClaim testRuntime.toHost
      [⟨testUnderfunded.account testTerms.takerId, true, testTerms.takerId⟩,
        escrowPre testUnderfunded testPda] testPreimage.toList =
      .error "escrow balance insufficient for claim" := by
  refine ⟨test_reads rfl, by decide, by decide, test_binding, ?_⟩
  · have read : HTLCEscrow.fromBytes (testUnderfunded.account testPda).data =
        .ok (testTerms.escrow testHashlock .Locked none) :=
      HTLCEscrow.fromBytes_toBytes (encodable_none .Locked)
    simp only [executeClaim, escrowPre, read]
    rfl

end AtomicSwaps.Swap
