import AtomicSwaps.Cli.MakerSafety
import AtomicSwaps.Swap.Watchers

/-!
# The maker and its watchers

The maker process with the watchers that its flows spawn, which poll the chains beside it and die
with it. Beside them the maker does nothing that it may not do in a world that is true to its
events, so that what holds of the one maker holds of the other. The watchers of an escrow tell the
truth about it for good, each in order, and no two of them tell of different ends.
-/

namespace AtomicSwaps.Cli

open Semantics Swap Relation
open Lez (EscrowWatch EscrowWatchOp Announced Terminal)
open Eth (testSwapId)

/-- The maker beside its watchers. -/
def watchedMaker (setting : Setting) (configured : SwapConfig → MakerArgs → Prop) :
    System interface (WatchedWorld setting) MakerTask (Except SwapError Unit) :=
  (makerSystem setting configured).within (WatchedWorld.environment setting)
    fun before after => after = .unwatched (before.world.withStore before.world.store.load)

variable {setting : Setting} {configured : SwapConfig → MakerArgs → Prop} {start : World setting}
  {pool : Pool interface (WatchedWorld setting) MakerTask (Except SwapError Unit)}

theorem watched_maker_sound (reached : (watchedMaker setting configured).Reaches
    (.unwatched start) pool) : pool.world.Sound ∧
      (makerSystem setting configured).Reaches start (pool.seen WatchedWorld.world) := by
  apply System.Reaches.seen (WatchedWorld.refines setting) _ WatchedWorld.unwatched_sound reached
  rintro before after - rfl
  exact ⟨WatchedWorld.unwatched_sound, rfl⟩

/-! ## What the watchers of an escrow have announced -/

/-- An event is the truth about an escrow: it is there, or it has come to the end that is announced,
with the preimage of its hashlock if it was claimed. -/
inductive TrueOf (hashlock : Bytes32) (world : World setting) : LezHtlcEvent → Prop where
  | locked {escrow : Lez.HTLCEscrow} (there : world.escrow hashlock = some escrow) :
      TrueOf hashlock world (.Locked (setting.runtime.pda hashlock))
  | claimed {escrow : Lez.HTLCEscrow} {preimage : List UInt8}
      (there : world.escrow hashlock = some escrow) (claimed : escrow.state = .Claimed)
      (shown : escrow.preimage = some preimage) (length : preimage.length = 32)
      (matching : setting.runtime.sha256 preimage = hashlock) :
      TrueOf hashlock world (.Claimed (setting.runtime.pda hashlock) preimage)
  | refunded {escrow : Lez.HTLCEscrow} (there : world.escrow hashlock = some escrow)
      (refunded : escrow.state = .Refunded) :
      TrueOf hashlock world (.Refunded (setting.runtime.pda hashlock))

/-- What the watchers of escrows have announced. -/
structure WatchersAgree (watched : WatchedWorld setting) : Prop where
  inOrder : ∀ feed ∈ watched.escrows,
    Announced (setting.runtime.pda feed.key) ((escrowFeeding setting).sent feed) ∧
      feed.queue <:+ (escrowFeeding setting).sent feed
  truthful : ∀ feed ∈ watched.escrows, feed.key ∈ setting.runtime.seeds →
    ∀ event ∈ (escrowFeeding setting).sent feed, TrueOf feed.key watched.world event
  sameEnd : ∀ first ∈ watched.escrows, ∀ second ∈ watched.escrows, first.key = second.key →
    first.key ∈ setting.runtime.seeds →
      ∀ one ∈ (escrowFeeding setting).sent first, ∀ other ∈ (escrowFeeding setting).sent second,
        Terminal (setting.runtime.pda first.key) one →
          Terminal (setting.runtime.pda first.key) other → one = other

variable {hashlock : Bytes32} {world : World setting} {event other : LezHtlcEvent}

/-- The preimage of an escrow that is claimed. -/
theorem claimed_preimage {escrow : Lez.HTLCEscrow} (seeded : hashlock ∈ setting.runtime.seeds)
    (there : world.escrow hashlock = some escrow) (claimed : escrow.state = .Claimed) :
    ∃ preimage, escrow.preimage = some preimage ∧ preimage.length = 32 ∧
      setting.runtime.sha256 preimage = hashlock := by
  obtain ⟨events, lawful⟩ := world.lez.lawful
  obtain ⟨owned, read⟩ := Lez.escrowAt_eq_some.mp there
  obtain ⟨decoded, same, -, state⟩ := (lawful.lives hashlock seeded).decodes owned
  rw [read] at same
  cases same
  exact state.mp claimed

/-- What a watcher was told of a seeded escrow is true of it. -/
theorem TrueOf.of_told (told : EscrowTold hashlock world event)
    (seeded : hashlock ∈ setting.runtime.seeds) : TrueOf hashlock world event := by
  obtain ⟨escrow, balance, lastState, read, moves⟩ := told
  have moves := moves seeded
  obtain ⟨-, ⟨-, rfl⟩ | ⟨claimed, rfl⟩ | ⟨refunded, rfl⟩⟩ := Lez.watchRead_cases read
  · rcases moves.some_cases with same | ⟨-, settled, same, -⟩
    · exact .locked same
    · exact .locked same
  · have there := moves.settled_eq (by simp [claimed])
    obtain ⟨preimage, stored, length, matching⟩ := claimed_preimage seeded there claimed
    rw [stored]
    exact .claimed there claimed stored length matching
  · exact .refunded (moves.settled_eq (by simp [refunded])) refunded

/-- An escrow has one end. -/
theorem TrueOf.same_end (one : TrueOf hashlock world event) (another : TrueOf hashlock world other)
    (ends : Terminal (setting.runtime.pda hashlock) event)
    (alsoEnds : Terminal (setting.runtime.pda hashlock) other) : event = other := by
  have unique : ∀ {escrow same}, world.escrow hashlock = some escrow →
      world.escrow hashlock = some same → same = escrow := by
    intro escrow same there also
    exact Option.some.inj (also.symm.trans there)
  cases ends with
  | claimed preimage =>
      cases one with
      | claimed there claimed shown =>
          cases alsoEnds with
          | claimed bytes =>
              cases another with
              | claimed also _ stored =>
                  obtain rfl := unique there also
                  obtain rfl := Option.some.inj (shown.symm.trans stored)
                  rfl
          | refunded =>
              cases another with
              | refunded also refunded =>
                  obtain rfl := unique there also
                  cases claimed.symm.trans refunded
  | refunded =>
      cases one with
      | refunded there refunded =>
          cases alsoEnds with
          | claimed bytes =>
              cases another with
              | claimed also claimed =>
                  obtain rfl := unique there also
                  cases refunded.symm.trans claimed
          | refunded => rfl

/-! ## A watcher of the claimed test escrow -/

/-- The maker's world with its test escrow claimed. -/
def testWatchedStart : World testMakerSetting := testMakerWorld testEscrowClaimed []

/-- The same once the maker has started. -/
def testWatchedWorld : World testMakerSetting :=
  testWatchedStart.withStore testWatchedStart.store.load

/-- The claimed test escrow. -/
def testWatchedEscrow : Lez.HTLCEscrow :=
  Lez.testTerms.escrow testHashlock .Claimed (some testPreimage.toList)

/-- What a watcher exchanges to tell of it. -/
def testWatching : History EscrowWatch :=
  [⟨EscrowWatchOp.client (.getAccount Lez.testPda), .ok testWatchedEscrow.toBytes⟩,
    ⟨EscrowWatchOp.send (.Claimed Lez.testPda testPreimage.toList), true⟩]

/-- The pool with a watcher that has told of it. -/
def testWatchedPool : Pool interface (WatchedWorld testMakerSetting) MakerTask
    (Except SwapError Unit) :=
  ⟨⟨testWatchedWorld, [⟨testHashlock, testWatching, [.Claimed Lez.testPda testPreimage.toList],
      .pure (.ok ())⟩], []⟩,
    [.spawned (.main testConfig testArgs 1) []
      (MakerTask.body testMakerSetting.lezClient (.main testConfig testArgs 1))]⟩

/-- A watcher of the test escrow. -/
def testWatcher : Feed EscrowWatch Bytes32 LezHtlcEvent (Except SwapError Unit) :=
  ⟨testHashlock, [], [], (testMakerSetting.lezClient.escrowFeed testHashlock 1).run⟩

theorem test_escrow_reads :
    Lez.escrowIn testHashlock testWatchedEscrow.toBytes = .ok (some testWatchedEscrow) :=
  Lez.escrowIn_toBytes test_claimed_encodable

theorem test_escrow_answer : Act (.getAccount Lez.testPda) testWatchedWorld
    (.ok testWatchedEscrow.toBytes) testWatchedWorld := by
  refine ⟨rfl, ?_⟩
  rintro hashlock rfl - data escrow ⟨⟩ decoded
  rw [test_escrow_reads] at decoded
  cases decoded
  exact test_escrow_claimed

theorem test_turns : ∃ rest,
    (escrowFeeding testMakerSetting).Step testWatchedWorld [testWatcher]
      [⟨testHashlock, testWatching.take 1, [], rest⟩] ∧
    (escrowFeeding testMakerSetting).Step testWatchedWorld
      [⟨testHashlock, testWatching.take 1, [], rest⟩]
      testWatchedPool.world.escrows := by
  refine ⟨_, @Feeding.Step.turn _ _ _ _ _ _ _ [] [] testWatcher
    (EscrowWatchOp.client (.getAccount Lez.testPda)) _
    (Except.ok testWatchedEscrow.toBytes : Except String (List UInt8)) rfl
    ⟨rfl, test_escrow_answer⟩, ?_⟩
  simp only [Program.bind, ExceptT.bindCont, Function.comp, Lez.ofClient, test_escrow_reads, pure,
    ExceptT.pure, ExceptT.mk]
  exact @Feeding.Step.turn _ _ _ _ _ _ _ [] []
    ⟨testHashlock, testWatching.take 1, [], _⟩
    (EscrowWatchOp.send (.Claimed Lez.testPda testPreimage.toList)) _ true rfl ⟨rfl, trivial⟩

theorem test_watched : (watchedMaker testMakerSetting fun _ _ => True).Reaches
    (.unwatched testWatchedStart) testWatchedPool := by
  obtain ⟨rest, first, second⟩ := test_turns
  have started : (watchedMaker testMakerSetting fun _ _ => True).Reaches
      (.unwatched testWatchedStart) ⟨.unwatched testWatchedWorld, testWatchedPool.threads⟩ :=
    .single (.restart rfl ⟨testConfig, testArgs, 1, trivial, rfl⟩)
  have watched : ReflTransGen WatchedWorld.Drift (.unwatched testWatchedWorld)
      ⟨testWatchedWorld, [testWatcher], []⟩ := .single (.escrows (.start ⟨1, rfl⟩))
  have read := watched.tail (.escrows first)
  have told := read.tail (.escrows second)
  exact started.drifts told

/-! ## A maker that hears of a lock from its watcher -/

/-- What a watcher of the contract exchanges to tell of the taker's lock. -/
def testTelling : List (Entry Eth.Watch (World testMakerSetting)) :=
  [.quiet testOffered Eth.WatchOp.getBlockNumber (.ok 2 : Except String U64),
   .quiet testOffered Eth.WatchOp.getBlockNumber (.ok 2 : Except String U64),
   .quiet testOffered (Eth.WatchOp.query .Locked 0 1)
     (.ok [⟨1, none, testLockLog⟩] : Except String (List Eth.MinedLog)),
   .quiet testOffered (Eth.WatchOp.send (.Locked testSeenLock)) true]

/-- The watcher beside the maker, with what is in its channel. -/
def testTold (queue : List EthHtlcEvent)
    (rest : Program Eth.Watch (Except SwapError Unit)) : WatchedWorld testMakerSetting :=
  ⟨testOffered, [], [⟨(), historyOf testTelling, queue, rest⟩]⟩

theorem test_tells : ∃ rest, Advances (contractFeeding testMakerSetting).environment
    (Eth.watchEvents 1).run testOffered testTelling rest testOffered := by
  refine Advances.more .refl ⟨rfl, trivial⟩ ?_
  refine Advances.more .refl ⟨rfl, trivial⟩ ?_
  refine Advances.more .refl ⟨rfl, ?_⟩ ?_
  · exact List.forall_mem_singleton.mpr (List.mem_singleton_self _)
  refine Advances.more .refl ⟨rfl, trivial⟩ ?_
  exact ⟨_, .none⟩

theorem test_told : ∃ rest, ReflTransGen WatchedWorld.Drift (.unwatched testOffered)
    (testTold [.Locked testSeenLock] rest) := by
  obtain ⟨rest, tells⟩ := test_tells
  let watcher : Feed Eth.Watch Unit EthHtlcEvent (Except SwapError Unit) :=
    ⟨(), [], [], (Eth.watchEvents 1).run⟩
  have turns := @Feeding.Step.turns _ _ _ _ _ _ testOffered _ _ [] [] watcher _ _ tells
    (by simp [testTelling, Entry.quiet])
  exact ⟨rest, WatchedWorld.Drift.contract_turns (.head (.start ⟨1, rfl⟩) turns)⟩

/-- The maker hears of the lock, and matches it. -/
def testHearing (rest : Program Eth.Watch (Except SwapError Unit)) :
    List (Entry interface (WatchedWorld testMakerSetting)) :=
  let heard := testTold [] rest
  [.quiet (testTold [.Locked testSeenLock] rest) .nowUnix 1699998200,
   ⟨.selectEth 3000, .event (.Locked testSeenLock), testTold [.Locked testSeenLock] rest, heard⟩,
   .quiet heard .nowUnix 1699998200,
   .quiet heard (.contains (Hex.encode testHashlock.toList)) false,
   .quiet heard (.getHTLC testSwapId) (.ok (testOffered.htlc testSwapId)),
   .quiet heard (.report (.EthLockDetected (display testSwapId)
     (Hex.encode testHashlock.toList) (Hex.encode Lez.testTerms.takerId.toList)
     (display (Bytes.zero 32)))) ()]

theorem test_hearing (rest : Program Eth.Watch (Except SwapError Unit)) :
    Execution (WatchedWorld.environment testMakerSetting)
      (awaitLock testMakerSetting.lezClient testFresh (some (loopGuards 30 300)) none []).run
      (testTold [.Locked testSeenLock] rest) (testHearing rest) (.ok (.inr (some testMatched)))
      (testTold [] rest) := by
  have considered := @considerLock_matches _ (WatchedWorld.environment testMakerSetting)
    testMakerSetting.lezClient testFresh (loopGuards 30 300) [] testSeenLock (testTold [] rest)
    1699998200 Lez.testTerms.takerId (testOffered.htlc testSwapId) test_lock_accepted rfl rfl
    ⟨_, ⟨_, ⟨rfl, rfl⟩, rfl⟩, .refl⟩ ⟨_, ⟨_, ⟨rfl, rfl⟩, rfl⟩, .refl⟩
    ⟨_, ⟨_, ⟨rfl, test_read⟩, rfl⟩, .refl⟩ ⟨_, ⟨_, rfl, rfl⟩, .refl⟩
  have received : @Received Eth.Watch _ _ _ () (EthHtlcEvent.Locked testSeenLock)
      (testTold [.Locked testSeenLock] rest).contract (testTold [] rest).contract :=
    @Received.first _ _ _ _ _ _ [] []
      ⟨(), historyOf testTelling, [EthHtlcEvent.Locked testSeenLock], rest⟩ [] rfl rfl
  exact awaitLock_considers test_wanted ⟨_, ⟨_, ⟨rfl, rfl⟩, rfl⟩, .refl⟩
    ⟨_, ⟨(testTold [] rest).contract, received, rfl⟩, .refl⟩ considered

/-- The maker starts with an empty journal, and its watcher polls while it connects. -/
def testSetOut (rest : Program Eth.Watch (Except SwapError Unit)) :
    List (Entry interface (WatchedWorld testMakerSetting)) :=
  let alone := WatchedWorld.unwatched testOffered
  testStartup.map (fun entry => .quiet alone entry.op entry.answer) ++
    [.quiet alone (.report .WaitingForEthLock) (),
     ⟨.ethConnect, .ok (), alone, testTold [.Locked testSeenLock] rest⟩]

theorem test_hears : ∃ watcher rest, Advances (WatchedWorld.environment testMakerSetting)
    (cmdMakerLoop testMakerSetting.lezClient testOffer testArgs 1).run
    (.unwatched (testOffered.withStore testOffered.store.load))
    (testSetOut watcher ++ testHearing watcher) rest (testTold [] watcher) := by
  obtain ⟨watcher, told⟩ := test_told
  refine ⟨watcher, ?_⟩
  refine Advances.more .refl ⟨_, ⟨_, rfl, rfl⟩, .refl⟩ ?_
  refine Advances.more .refl ⟨_, ⟨_, rfl, rfl⟩, .refl⟩ ?_
  refine Advances.more .refl ⟨_, ⟨_, ⟨rfl, rfl⟩, rfl⟩, .refl⟩ ?_
  refine Advances.more .refl ⟨_, ⟨_, rfl, rfl⟩, .refl⟩ ?_
  refine Advances.more .refl ⟨_, ⟨_, ⟨rfl, rfl⟩, rfl⟩, .refl⟩ ?_
  refine Advances.more .refl ⟨_, ⟨_, rfl, rfl⟩, .refl⟩ ?_
  refine Advances.more .refl ⟨_, ⟨_, rfl, rfl⟩, .refl⟩ ?_
  refine Advances.more .refl ⟨_, ⟨_, rfl, rfl⟩, .refl⟩ ?_
  refine Advances.more .refl ⟨_, ⟨_, ⟨rfl, rfl⟩, rfl⟩, .refl⟩ ?_
  refine Advances.more .refl ⟨_, ⟨_, rfl, rfl⟩, .refl⟩ ?_
  refine Advances.more .refl ⟨_, ⟨_, rfl, rfl⟩, .refl⟩ ?_
  refine Advances.more .refl ⟨_, ⟨_, rfl, rfl⟩, .refl⟩ ?_
  refine Advances.more .refl ⟨_, ⟨_, rfl, rfl⟩, .refl⟩ ?_
  simp only [Program.bind, ExceptT.bindCont, Function.comp]
  refine Advances.within (Advances.within (Advances.within (Advances.within (Advances.within ?_))))
  refine Advances.more .refl ⟨_, ⟨_, rfl, rfl⟩, .refl⟩ ?_
  refine Advances.more .refl ⟨_, ⟨_, rfl, rfl⟩, told⟩ ?_
  simp only [Program.bind, ExceptT.bindCont, Function.comp]
  refine Advances.after .done ?_
  exact Advances.after (Execution.iterate_last (test_hearing watcher)) ⟨_, .none⟩

/-- The maker that has heard of the taker's lock. -/
def testHeard (watcher : Program Eth.Watch (Except SwapError Unit))
    (rest : Program interface (Except SwapError Unit)) :
    Pool interface (WatchedWorld testMakerSetting) MakerTask (Except SwapError Unit) :=
  ⟨testTold [] watcher,
    [⟨.main testOffer testArgs 1, [], testSetOut watcher ++ testHearing watcher, rest⟩]⟩

theorem test_heard : ∃ watcher rest, (watchedMaker testMakerSetting fun _ _ => True).Reaches
    (.unwatched testOffered) (testHeard watcher rest) := by
  obtain ⟨watcher, rest, advances⟩ := test_hears
  have started : (watchedMaker testMakerSetting fun _ _ => True).Reaches (.unwatched testOffered)
      ⟨.unwatched (testOffered.withStore testOffered.store.load),
        [] ++ [.spawned (.main testOffer testArgs 1) []
          (MakerTask.body testMakerSetting.lezClient (.main testOffer testArgs 1))]⟩ :=
    .single (.restart rfl ⟨testOffer, testArgs, 1, trivial, rfl⟩)
  refine ⟨watcher, rest, started.run (by simp) advances ?_⟩
  simp [testHearing, watchedMaker, System.within, makerSystem, Entry.quiet]

/-! ## The maker beside its watchers -/

/-- Whatever the maker does beside its watchers, it may do in a world that is true to its
events. -/
theorem watched_maker_seen (reached : (watchedMaker setting configured).Reaches
    (.unwatched start) pool) :
    (makerSystem setting configured).Reaches start (pool.seen WatchedWorld.world) :=
  (watched_maker_sound reached).2

/-- The maker that hears of the taker's lock from its watcher, as it is seen. -/
theorem watched_maker_seen_test : ∃ watcher rest,
    (watchedMaker testMakerSetting fun _ _ => True).Reaches (.unwatched testOffered)
      (testHeard watcher rest) ∧
    (makerSystem testMakerSetting fun _ _ => True).Reaches testOffered
      ((testHeard watcher rest).seen WatchedWorld.world) := by
  obtain ⟨watcher, rest, reached⟩ := test_heard
  exact ⟨watcher, rest, reached, watched_maker_seen reached⟩

/-- In every world the maker reaches, its watchers have told the truth about their escrows, each in
order and all of them of the same end. -/
theorem watchers_agree (reached : (watchedMaker setting configured).Reaches
    (.unwatched start) pool) : WatchersAgree pool.world := by
  obtain ⟨sound, -⟩ := watched_maker_sound reached
  have truthful : ∀ feed ∈ pool.world.escrows, feed.key ∈ setting.runtime.seeds →
      ∀ event ∈ (escrowFeeding setting).sent feed, TrueOf feed.key pool.world.world event := by
    intro feed member seeded event sent
    exact .of_told ((sound.escrows feed member).held event sent) seeded
  refine ⟨fun feed member => ?_, truthful, ?_⟩
  · have mine := sound.escrows feed member
    exact ⟨mine.ordered, mine.queued⟩
  · intro first there second beside same seeded one sent other alsoSent ends alsoEnds
    have told := truthful first there seeded one sent
    have also := truthful second beside (same ▸ seeded) other alsoSent
    rw [← same] at also
    exact told.same_end also ends alsoEnds

/-- The watcher of the test escrow has told the truth. -/
theorem watchers_agree_test :
    (watchedMaker testMakerSetting fun _ _ => True).Reaches (.unwatched testWatchedStart)
      testWatchedPool ∧ WatchersAgree testWatchedPool.world :=
  ⟨test_watched, watchers_agree test_watched⟩

end AtomicSwaps.Cli
