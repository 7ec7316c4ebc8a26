import AtomicSwaps.Cli.MakerProcess

/-!
# What the end of the ETH leg means

A receipt is taken for a claim whether the transaction reverted or not, and a read of an
HTLC that is not there yet for one that is settled. Where neither happens, the maker's
ETH leg has ended when it says so: no journal entry is cleared after a revealed preimage
before its swap is settled, and none is recorded as completed before it is claimed.
-/

namespace AtomicSwaps.Cli

open Semantics Swap
open Lez (HTLCEscrow LezClient)
open Eth

/-- The states in which nothing is left to be claimed. -/
def Settled (state : SwapState) : Prop := state = .CLAIMED ∨ state = .REFUNDED

theorem settled_final : Final Settled := ⟨.inl rfl, fun _ settled => settled⟩

theorem claimed_final : Final (· = .CLAIMED) := ⟨rfl, fun _ claimed => .inl claimed⟩

section Functions

variable {setting : Setting} {start final : World setting}
  {log : List (Entry interface (World setting))}

/-- Where the answers are right, `claim_eth_after_reveal` returns once the swap is settled. -/
theorem claimEthAfterReveal_settles {swapId preimage tx : Bytes32}
    (execution : Execution (environment setting) (claimEthAfterReveal swapId preimage).run start log
      (.ok tx) final)
    (honest : EthHonest Settled log) : Settled (final.htlc swapId).state := by
  have walk : Follows (fun _ _ => True)
      (fun later (result : Except SwapError Bytes32) => ∀ tx, result = .ok tx →
        Collected later swapId) (claimEthAfterReveal swapId preimage).run [] := by
    apply claimEthAfterReveal_rests (fun _ _ _ => trivial)
    · exact fun _ _ => trivial
    · exact fun _ _ _ collected _ _ => collected
    · intro later e _ tx impossible
      cases impossible
  have collected := execution.returns walk tx rfl
  exact collected.done settled_final (.of_execution execution) honest

/-- Where the answers are right, `claim_eth` says that nothing is left to be claimed only
of a settled swap. -/
theorem claimEth_settles {text : String} {preimage : Bytes32} {outcome : EthClaimOutcome}
    (execution : Execution (environment setting) (claimEth text preimage).run start log
      (.ok outcome) final)
    (ended : outcome ≠ .Failed) (readable : parseSwapId text ≠ none)
    (honest : EthHonest Settled log) :
    ∃ swapId, parseSwapId text = some swapId ∧ Settled (final.htlc swapId).state := by
  have walk : Follows (fun _ _ => True)
      (fun later (result : Except SwapError EthClaimOutcome) => ∀ outcome, result = .ok outcome →
        outcome ≠ .Failed → EthDone later text) (claimEth text preimage).run [] := by
    apply claimEth_rests (fun _ _ _ => trivial)
    · exact fun _ _ _ => trivial
    · intro later outcome _ done other same
      cases same
      exact done
  rcases execution.returns walk outcome rfl ended with unreadable | ⟨swapId, parsed, collected⟩
  · exact absurd unreadable readable
  · exact ⟨swapId, parsed, collected.done settled_final (.of_execution execution) honest⟩

end Functions

section Process

variable {setting : Setting} {configured : SwapConfig → MakerArgs → Prop}
  {start : World setting}
  {pool : Pool interface (World setting) MakerTask (Except SwapError Unit)}
  {thread : Thread interface (World setting) MakerTask (Except SwapError Unit)}
  {earlier later : List (Entry interface (World setting))}
  {entry : Entry interface (World setting)} {key : String}

/-- The journal entry of a key names a swap in a state that counts as done. -/
def NamesDone (done : SwapState → Prop) (history : Trace) (world : World setting)
    (key : String) : Prop :=
  ∃ text swapId, Journaled history key text ∧ parseSwapId text = some swapId ∧
    done (world.htlc swapId).state

/-- Every swap id in the journal can be read. -/
def Readable (pool : Pool interface (World setting) MakerTask (Except SwapError Unit)) : Prop :=
  ∀ thread ∈ pool.threads, ∀ key text, Journaled thread.history key text →
    parseSwapId text ≠ none

/-- Journal entries that a thread had seen before an operation it has seen after it. -/
theorem Readable.before (readable : Readable pool) (member : thread ∈ pool.threads)
    (split : thread.log = earlier ++ entry :: later) {text : String}
    (journaled : Journaled (historyOf (thread.past ++ earlier)) key text) :
    parseSwapId text ≠ none := by
  apply readable thread member key text
  apply journaled.mono
  refine ⟨historyOf (entry :: later), ?_⟩
  rw [← historyOf_append]
  simp [Thread.history, Thread.entries, split]

/-- Recovered where the answers are right: the swap is done. -/
theorem recovered_done {done : SwapState → Prop} (final : Final done)
    (reached : (makerSystem setting configured).Reaches start pool)
    (member : thread ∈ pool.threads) (split : thread.log = earlier ++ entry :: later)
    (readable : Readable pool) (honest : EthHonest done thread.entries)
    (recovered : Recovered setting.lezClient (historyOf (thread.past ++ earlier)) key) :
    NamesDone done (historyOf (thread.past ++ earlier)) entry.before key := by
  cases recovered with
  | unreadable parsed revealed journaled unreadable =>
      exact absurd unreadable (readable.before member split journaled)
  | @collected hashlock preimage swapId text parsed revealed journaled parsed' collected =>
      refine ⟨text, swapId, journaled, parsed', ?_⟩
      apply collected.done final (maker_witnessed_before reached member split)
      apply honest.of_prefix
      exact ⟨entry :: later, by simp [Thread.entries, split]⟩

/-- In a run, no entry is cleared after a revealed preimage unless its swap is settled. -/
def ClearsTruthfully
    (pool : Pool interface (World setting) MakerTask (Except SwapError Unit)) : Prop :=
  ∀ thread ∈ pool.threads, ∀ earlier entry later, thread.log = earlier ++ entry :: later →
    ∀ key hashlock preimage, entry.op = .remove key → parseHashlockHex key = some hashlock →
      hashlock ∈ setting.runtime.seeds →
      Revealed setting.lezClient (historyOf (thread.past ++ earlier)) hashlock preimage →
      NamesDone Settled (historyOf (thread.past ++ earlier)) entry.before key

/-- In a run, no swap is recorded as completed unless the maker has claimed it. -/
def CompletesTruthfully
    (pool : Pool interface (World setting) MakerTask (Except SwapError Unit)) : Prop :=
  ∀ thread ∈ pool.threads, ∀ earlier entry later, thread.log = earlier ++ entry :: later →
    ∀ key, entry.op = .ops (.completed key) →
      ∃ text swapId, Journaled (historyOf (thread.past ++ earlier)) key text ∧
        parseSwapId text = some swapId ∧ (entry.before.htlc swapId).state = .CLAIMED ∧
        (entry.before.htlc swapId).recipient = setting.signer

/-- The answers the maker takes for the end of its ETH legs are right in a run, up to a
state that counts as done, and every swap id in the journal can be read. -/
structure AnswersRight (done : SwapState → Prop)
    (pool : Pool interface (World setting) MakerTask (Except SwapError Unit)) : Prop where
  readable : Readable pool
  honest : ∀ thread ∈ pool.threads, EthHonest done thread.entries

/-- Every swap named in the journal pays the maker. -/
def PaysMaker
    (pool : Pool interface (World setting) MakerTask (Except SwapError Unit)) : Prop :=
  ∀ thread ∈ pool.threads, ∀ key text swapId, Journaled thread.history key text →
    parseSwapId text = some swapId → (pool.world.htlc swapId).recipient = setting.signer

/-- Where the answers are right, entries are cleared truthfully. -/
theorem clears_truthfully (reached : (makerSystem setting configured).Reaches start pool)
    (right : AnswersRight Settled pool) : ClearsTruthfully pool := by
  intro thread member earlier entry later split key hashlock preimage removes parsed seeded revealed
  have witnessed := maker_witnessed_before reached member split
  have rests := maker_rests reached member split
  obtain ⟨escrow, there, claimed, stored⟩ := revealed.claimed witnessed seeded
  rw [removes] at rests
  cases makerRule_remove rests with
  | corrupt unparsed =>
      rw [parsed] at unparsed
      cases unparsed
  | refunded parsed' seen =>
      rw [parsed] at parsed'
      cases parsed'
      obtain ⟨_, there', refunded⟩ := seen.refunded witnessed seeded
      rw [there] at there'
      cases there'
      rw [claimed] at refunded
      cases refunded
  | malformed parsed' read claimed' short =>
      rw [parsed] at parsed'
      cases parsed'
      have there' := (read.moves witnessed seeded).settled_eq (by simp [claimed'])
      rw [there] at there'
      cases there'
      simp [stored] at short
  | recovered recovered =>
      exact recovered_done settled_final reached member split right.readable
        (right.honest thread member) recovered

/-- Where the answers are right and journaled swaps pay the maker, swaps are recorded as
completed truthfully. -/
theorem completes_truthfully (reached : (makerSystem setting configured).Reaches start pool)
    (right : AnswersRight (· = .CLAIMED) pool) (pays : PaysMaker pool) :
    CompletesTruthfully pool := by
  intro thread member earlier entry later split key completes
  have rests := maker_rests reached member split
  rw [completes] at rests
  obtain ⟨text, swapId, journaled, parsed, claimed⟩ :=
    recovered_done claimed_final reached member split right.readable (right.honest thread member)
      (makerRule_completed rests)
  refine ⟨text, swapId, journaled, parsed, claimed, ?_⟩
  have whole : Journaled thread.history key text := by
    apply journaled.mono
    refine ⟨historyOf (entry :: later), ?_⟩
    rw [← historyOf_append]
    simp [Thread.history, Thread.entries, split]
  have onward : Grows entry.before pool.world := by
    obtain ⟨performed, grown⟩ := maker_witnessed reached member entry
      (by simp [Thread.entries, split])
    exact (performed_grows performed).trans grown
  rw [← onward.settled_htlc (.inl claimed)]
  exact pays thread member key text swapId whole parsed

end Process

/-- Where no claim of the maker is mined and reverts and the read `claim_eth` begins with
finds an open swap open, the ETH leg has ended when the maker says so: in the two
functions, and in every run of the maker. -/
theorem eth_leg_truthful (setting : Setting) :
    (∀ start log final swapId preimage tx,
      Execution (environment setting) (claimEthAfterReveal swapId preimage).run start log (.ok tx)
        final →
      EthHonest Settled log → Settled (final.htlc swapId).state) ∧
    (∀ start log final text preimage outcome,
      Execution (environment setting) (claimEth text preimage).run start log (.ok outcome) final →
      outcome ≠ .Failed → parseSwapId text ≠ none → EthHonest Settled log →
        ∃ swapId, parseSwapId text = some swapId ∧ Settled (final.htlc swapId).state) ∧
    ∀ configured start pool, (makerSystem setting configured).Reaches start pool →
      (AnswersRight Settled pool → ClearsTruthfully pool) ∧
      (AnswersRight (· = .CLAIMED) pool → PaysMaker pool → CompletesTruthfully pool) := by
  refine ⟨?_, ?_, ?_⟩
  · intro start log final swapId preimage tx execution honest
    exact claimEthAfterReveal_settles execution honest
  · intro start log final text preimage outcome execution ended readable honest
    exact claimEth_settles execution ended readable honest
  · intro configured start pool reached
    exact ⟨clears_truthfully reached, completes_truthfully reached⟩

/-- The maker's world with the taker's ETH locked. -/
def testOpenWorld : World testMakerSetting := testMakerWorld testEthLocked []

/-- A claim that is mined and reverts counts as a claim, and an HTLC that cannot be seen
yet as one that is settled, while the swap is open. -/
theorem open_swap_taken_for_settled :
    Execution (environment testMakerSetting) (claimEthAfterReveal testSwapId testPreimage).run
      testOpenWorld
      [.quiet testOpenWorld (.sendEth (.claim testSwapId testPreimage))
        (.ok ⟨Bytes.zero 32, false, []⟩)]
      (.ok (Bytes.zero 32)) testOpenWorld ∧
    Execution (environment testMakerSetting) (claimEth (display testSwapId) testPreimage).run
      testOpenWorld
      [.quiet testOpenWorld .ethConnect (.ok ()),
       .quiet testOpenWorld (.getHTLC testSwapId) (.ok HTLC.empty)]
      (.ok .AlreadyTerminal) testOpenWorld ∧
    ¬ Settled (testOpenWorld.htlc testSwapId).state := by
  refine ⟨?_, ?_, by rintro (impossible | impossible) <;> cases impossible⟩
  · exact .step .refl ⟨_, ⟨rfl, rfl⟩, .refl⟩ .done
  · simp only [claimEth, parseSwapId_display]
    refine .step .refl ⟨_, rfl, .refl⟩ ?_
    refine .step .refl ⟨_, ⟨rfl, ?_⟩, .refl⟩ .done
    rintro htlc ⟨⟩
    exact (performed_grows test_lock_performed).eth.moves testSwapId

/-- The log of the maker's ETH claim. -/
def testClaimLog : Log := .Claimed testSwapId testPreimage

/-- The contract after the maker's ETH claim. -/
def testMakerClaimed : Store where
  contract := { (testTakerLocked.contract.setHTLC testSwapId
      { testTakerLocked.contract.htlcs testSwapId with state := .CLAIMED }).emit testClaimLog with
    balance := 0 }
  payouts := [testPayout]
  received := 1000000000000000000

theorem test_claim_executes :
    Eth.Executes testHashes 1699999000 (.claim testMaker testSwapId testPreimage) testTakerLocked
      testMakerClaimed :=
  .inr ⟨_, ⟨_, _, claim_ok.mpr ⟨rfl, rfl, rfl, rfl⟩, Contract.send_some.mpr ⟨by decide, rfl⟩, rfl⟩, rfl⟩

/-- The maker after its restart, with the escrow claimed and the entry in flight. -/
def testRestarted : World testMakerSetting :=
  (testMakerWorld testEscrowClaimed [testEntry .Funded]).withStore
    (testMakerWorld testEscrowClaimed [testEntry .Funded]).store.load

/-- The same once the maker has claimed the ETH. -/
def testCollected : World testMakerSetting :=
  { testRestarted with eth := testRestarted.eth.act test_claim_executes.transaction }

/-- The same once the entry is cleared. -/
def testCleared : World testMakerSetting :=
  testCollected.withStore (testCollected.store.remove (testEntry .Funded).hashlock .ok)

/-- What the restarted maker does about its entry. -/
def testRecovery : List (Entry interface (World testMakerSetting)) :=
  [.quiet testRestarted .lezConnect (.ok ()),
   .quiet testRestarted .load (.ok ()),
   .quiet testRestarted .snapshot [testEntry .Funded],
   .quiet testRestarted .lezConnect (.ok ()),
   .quiet testRestarted (.getAccount Lez.testPda) (.ok
     (Lez.testTerms.escrow testHashlock .Claimed (some testPreimage.toList)).toBytes),
   .quiet testRestarted .ethConnect (.ok ()),
   .quiet testRestarted (.getHTLC testSwapId) (.ok (testRestarted.htlc testSwapId)),
   ⟨.sendEth (.claim testSwapId testPreimage), .ok ⟨Bytes.zero 32, true, [testClaimLog]⟩,
     testRestarted, testCollected⟩,
   ⟨.remove (testEntry .Funded).hashlock, (), testCollected, testCleared⟩,
   .quiet testCleared (.ops (.completed (testEntry .Funded).hashlock)) ()]

/-- The restarted maker recovers its entry. -/
theorem test_recovery : ∃ rest, Advances (environment testMakerSetting)
    (cmdMakerLoop testMakerSetting.lezClient testConfig testArgs 1).run testRestarted testRecovery
    rest testCleared := by
  have reads : Lez.escrowIn testHashlock (Lez.testTerms.escrow testHashlock .Claimed
      (some testPreimage.toList)).toBytes = .ok (some (Lez.testTerms.escrow testHashlock .Claimed
        (some testPreimage.toList))) := Lez.escrowIn_toBytes test_claimed_encodable
  have shown : (some testPreimage.toList).bind (Bytes.ofSlice? 32) = some testPreimage :=
    Bytes.ofSlice?_toList _
  refine Advances.more .refl ⟨_, rfl, .refl⟩ ?_
  refine Advances.more .refl ⟨_, rfl, .refl⟩ ?_
  refine Advances.more .refl ⟨_, ⟨rfl, rfl⟩, .refl⟩ ?_
  refine Advances.more .refl ⟨_, rfl, .refl⟩ ?_
  simp only [Program.bind, ExceptT.bindCont, Function.comp, reconcileEntries, reconcileEntry,
    testEntry, parseHashlockHex_encode]
  refine Advances.more .refl ⟨_, ⟨rfl, ?_⟩, .refl⟩ ?_
  · rintro hashlock rfl - data escrow ⟨⟩ decoded
    rw [reads] at decoded
    cases decoded
    exact test_escrow_claimed
  simp only [Program.bind, ExceptT.bindCont, Function.comp, reads, pure, ExceptT.pure, ExceptT.mk]
  simp only [reconcileFound, reduceCtorEq, if_false, Lez.Terms.escrow, recoverClaimedEscrow, shown,
    claimAndDrop, claimEth, parseSwapId_display]
  refine Advances.more .refl ⟨_, rfl, .refl⟩ ?_
  refine Advances.more .refl ⟨_, ⟨rfl, ?_⟩, .refl⟩ ?_
  · rintro htlc ⟨⟩
    exact .none
  refine Advances.more .refl ⟨_, ⟨_, test_claim_executes, rfl, rfl⟩, .refl⟩ ?_
  refine Advances.more .refl ⟨_, ⟨.ok, rfl⟩, .refl⟩ ?_
  exact Advances.more .refl ⟨_, rfl, .refl⟩ ⟨_, .none⟩

theorem test_recovery_names (key text : String)
    (journaled : Journaled (historyOf testRecovery) key text) : text = display testSwapId := by
  cases journaled with
  | recorded recorded => simp [testRecovery, Entry.quiet, Entry.exchange] at recorded
  | @loaded entries entry snapshot member key same =>
      simp only [testRecovery, Entry.quiet, Entry.exchange, historyOf_cons, historyOf_nil,
        List.mem_cons, List.not_mem_nil, or_false] at snapshot
      rcases snapshot with impossible | impossible | read | impossible | impossible | impossible |
        impossible | impossible | impossible | impossible
      · cases impossible
      · cases impossible
      · cases read
        obtain rfl := List.mem_singleton.mp member
        exact same.symm
      all_goals cases impossible

theorem test_recovery_honest : EthHonest (· = .CLAIMED) testRecovery := by
  constructor
  · intro entry member swapId preimage receipt same
    simp only [testRecovery, List.mem_cons, List.not_mem_nil, or_false] at member
    rcases member with rfl | rfl | rfl | rfl | rfl | rfl | rfl | rfl | rfl | rfl <;> cases same
    exact .inl rfl
  · intro earlier connect read later split swapId htlc connected answered
    have pair : [connect, read] <:+: testRecovery := ⟨earlier, later, by simp [split]⟩
    simp only [testRecovery, List.infix_cons_iff, List.cons_prefix_cons, List.nil_prefix,
      List.prefix_nil, List.infix_nil, List.cons_ne_nil, and_false, or_false, and_true] at pair
    rcases pair with ⟨rfl, -⟩ | ⟨rfl, -⟩ | ⟨rfl, -⟩ | ⟨rfl, -⟩ | ⟨rfl, -⟩ | ⟨-, rfl⟩ | ⟨rfl, -⟩ |
      ⟨rfl, -⟩ | ⟨rfl, -⟩
    case inr.inr.inr.inr.inr.inl =>
      cases answered
      exact .inl rfl
    all_goals cases connected

/-- The restarted maker recovers its entry truthfully. -/
theorem eth_leg_truthful_test : ∃ rest,
    (makerSystem testMakerSetting fun _ _ => True).Reaches
      (testMakerWorld testEscrowClaimed [testEntry .Funded])
      ⟨testCleared, [⟨.main testConfig testArgs 1, [], testRecovery, rest⟩]⟩ ∧
    ClearsTruthfully ⟨testCleared, [⟨.main testConfig testArgs 1, [], testRecovery, rest⟩]⟩ ∧
    CompletesTruthfully ⟨testCleared, [⟨.main testConfig testArgs 1, [], testRecovery, rest⟩]⟩ := by
  obtain ⟨rest, reached⟩ := @maker_starts testMakerSetting (fun _ _ => True)
    (testMakerWorld testEscrowClaimed [testEntry .Funded]) testConfig testArgs 1 _ _ trivial
    test_recovery (by simp [testRecovery, makerSystem, Entry.quiet])
  have names : ∀ thread ∈ [(⟨.main testConfig testArgs 1, [], testRecovery, rest⟩ :
      Thread interface (World testMakerSetting) MakerTask (Except SwapError Unit))],
      ∀ key text, Journaled thread.history key text → text = display testSwapId := by
    intro thread member
    obtain rfl := List.mem_singleton.mp member
    exact test_recovery_names
  have run := (eth_leg_truthful testMakerSetting).2.2 _ _ _ reached
  have readable : Readable (⟨testCleared, [⟨.main testConfig testArgs 1, [], testRecovery, rest⟩]⟩ :
      Pool interface (World testMakerSetting) MakerTask (Except SwapError Unit)) := by
    intro thread member key text journaled
    rw [names thread member key text journaled, parseSwapId_display]
    simp
  refine ⟨rest, reached, run.1 ⟨readable, ?_⟩, run.2 ⟨readable, ?_⟩ ?_⟩
  · intro thread member
    obtain rfl := List.mem_singleton.mp member
    exact test_recovery_honest.mono fun state claimed => .inl claimed
  · intro thread member
    obtain rfl := List.mem_singleton.mp member
    exact test_recovery_honest
  · intro thread member key text swapId journaled parsed
    rw [names thread member key text journaled, parseSwapId_display] at parsed
    cases parsed
    rfl

end AtomicSwaps.Cli
