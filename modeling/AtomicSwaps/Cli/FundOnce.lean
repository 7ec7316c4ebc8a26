import AtomicSwaps.Cli.MakerProcess

/-!
# Funding an escrow once

`LezClient::lock` called over and over for one hashlock, each call cut short anywhere, on a
chain where others lock the same hashlock, transactions land late or never and an escrow
may read as absent. A call funds only an escrow that was there as it asked for, an escrow
never changes its terms, and so calls that ask for different expiries do not both fund.
-/

namespace AtomicSwaps.Cli

open Semantics Swap
open Lez (AccountId HTLCEscrow LezClient EscrowMoves escrowIn escrowConfirmsOurLock)

/-- A transfer of LEZ: the funding of an escrow. -/
def transfers : Op → Bool
  | .sendTransaction (.transfer ..) => true
  | _ => false

/-- A call of `LezClient::lock`. -/
structure LockCall where
  takerId : AccountId
  amount : U128
  timelockSecs : U64
  fuel : Nat

/-- The expiry a call asks for. -/
def LockCall.expiry (call : LockCall) : U64 := secsToMillis call.timelockSecs

/-- One call after another for a hashlock, each of them cut short or not. -/
def lockSystem (setting : Setting) (hashlock : Bytes32) :
    System interface (World setting) LockCall (Except SwapError String) where
  environment := environment setting
  body call := (setting.lezClient.lock call.fuel hashlock call.takerId call.amount
    call.timelockSecs).run
  main _ := True
  spawns _ child := child = none
  waits _ := False
  restart before after := after = before

/-- Nothing has been funded yet. -/
def Unfunded (history : Trace) : Prop := ∀ exchange ∈ history, transfers exchange.op = false

/-- Nothing is funded. -/
def Fundless (_ : Trace) (op : Op) : Prop := transfers op = false

/-- Nothing was funded before. -/
def FundsFirst (history : Trace) (op : Op) : Prop := transfers op = true → Unfunded history

/-- An escrow is funded that was read as a call asked for. -/
def FundsConfirmed (client : LezClient) (hashlock : Bytes32) (call : LockCall) (history : Trace)
    (op : Op) : Prop :=
  transfers op = true →
    (∃ nonces, op = .sendTransaction (.transfer (client.escrowPda hashlock) nonces call.amount)) ∧
    ∃ escrow, Confirmed client history hashlock call.takerId call.amount call.timelockSecs escrow

section Call

variable {client : LezClient} {hashlock : Bytes32} {call : LockCall} {history : Trace}

theorem fundless_quiet (history : Trace) (op : Op) (quiet : op.Quiet) : Fundless history op := by
  cases op <;> first | exact quiet.elim | rfl

/-- Operations that fund nothing leave everything unfunded. -/
theorem Unfunded.keeps {α : Type} {program : Program interface α} (unfunded : Unfunded history)
    (follows : Follows Fundless (fun _ _ => True) program history) :
    Follows FundsFirst (fun later _ => Unfunded later) program history := by
  have kept : ∀ middle : Trace, (∀ exchange ∈ middle, transfers exchange.op = false) →
      Unfunded (history ++ middle) := by
    intro middle quiet exchange member
    exact (List.mem_append.mp member).elim (unfunded exchange) (quiet exchange)
  apply (follows.since fun _ _ quiet => quiet).mono
  · rintro later op ⟨quiet, -⟩ funds
    rw [Fundless, funds] at quiet
    cases quiet
  · rintro later value ⟨-, middle, rfl, quiet⟩
    exact kept middle quiet

theorem getNonces_fundless :
    Follows Fundless (fun _ _ => True) client.getNonces.run history := by
  apply Follows.request_bind rfl
  intro answer
  cases answer <;> trivial

/-- Waiting for the funds funds nothing. -/
theorem awaitFunds_fundless {pda : AccountId} {amount : U128} {lockHash : String} {fuel : Nat} :
    Follows Fundless (fun _ _ => True) (do
      Program.iterate (LezClient.confirmFunding pda amount) fuel ()
      return lockHash : Flow String).run history := by
  apply Follows.run_bind_iff.mpr
  apply Follows.iterate (fun _ _ => True) _ fuel () trivial
  intro reached _ _
  apply confirmFunding_rests fundless_quiet
  intro later result _
  rcases result with e | _ | _ <;> trivial

/-- A call of `lock` funds at most once. -/
theorem lock_once :
    Follows FundsFirst (fun _ _ => True)
      (client.lock call.fuel hashlock call.takerId call.amount call.timelockSecs).run [] := by
  have fresh : Unfunded [] := by simp [Unfunded]
  apply Follows.run_bind_iff.mpr
  apply (fresh.keeps (getEscrow_rests fundless_quiet (fun _ _ _ _ => trivial)
    (fun _ _ => trivial) fun _ _ => trivial)).weaken
  intro read result unfunded
  cases result with
  | error e => trivial
  | ok existing =>
  simp only [Follows.run_ite_iff]
  refine ⟨fun _ => ?_, fun _ => ?_⟩
  · apply Follows.run_bind_iff.mpr
    apply (unfunded.keeps (getBalanceOrZero_rests fundless_quiet fun _ _ _ => trivial)).weaken
    intro later result _
    cases result <;> trivial
  apply Follows.run_bind_iff.mpr
  apply (unfunded.keeps (Lez.LezClient.sendHtlcInstruction_follows rfl (fun _ => rfl)
    (fun _ => trivial) fun _ _ => trivial)).weaken
  intro sent result unfunded
  cases result with
  | error e => trivial
  | ok lockHash =>
  apply Follows.run_bind_iff.mpr
  have confirming : Follows Fundless (fun _ _ => True)
      (Program.iterate (client.confirmLock hashlock call.takerId call.amount
        (secsToMillis call.timelockSecs)) call.fuel ()).run sent := by
    apply Follows.iterate (fun _ _ => True) _ call.fuel () trivial
    intro reached _ _
    exact confirmLock_rests fundless_quiet (fun _ _ => trivial) (fun _ _ _ _ => trivial)
      fun _ _ _ => trivial
  apply (unfunded.keeps confirming).weaken
  intro confirmed result unfunded
  cases result with
  | error e => trivial
  | ok =>
  apply Follows.run_bind_iff.mpr
  apply Follows.run_bind_iff.mpr
  apply (unfunded.keeps (getNonces_fundless)).weaken
  intro numbered result unfunded
  cases result with
  | error e => trivial
  | ok nonces =>
  apply Follows.request_bind fun _ => unfunded
  intro answer
  cases answer with
  | error e => trivial
  | ok txHash =>
      apply awaitFunds_fundless.mono
      · intro later op quiet funds
        rw [Fundless, funds] at quiet
        cases quiet
      · exact fun _ _ _ => trivial

/-- A call of `lock` funds an escrow that was read as it asked for. -/
theorem lock_confirmed :
    Follows (FundsConfirmed client hashlock call) (fun _ _ => True)
      (client.lock call.fuel hashlock call.takerId call.amount call.timelockSecs).run [] := by
  apply lock_rests
  · intro later op quiet funds
    rw [fundless_quiet later op quiet] at funds
    cases funds
  · intro later nonces _ funds
    cases funds
  · exact fun later nonces escrow _ _ confirmed _ => ⟨⟨nonces, rfl⟩, escrow, confirmed⟩
  · exact fun _ _ _ _ _ => trivial
  · exact fun _ _ _ => trivial

end Call

section Runs

variable {setting : Setting} {hashlock : Bytes32} {start : World setting}
  {pool : Pool interface (World setting) LockCall (Except SwapError String)}
  {thread : Thread interface (World setting) LockCall (Except SwapError String)}

/-- What a call does rests on its own reads, and it funds first. -/
def lockRule (client : LezClient) (hashlock : Bytes32) (call : LockCall) (history : Trace)
    (op : Op) : Prop :=
  FundsFirst history op ∧ FundsConfirmed client hashlock call history op

theorem lock_ruled : (lockSystem setting hashlock).Ruled (lockRule setting.lezClient hashlock) where
  main call _ := (lock_once.and lock_confirmed).weaken fun _ _ _ => trivial
  child _ _ _ _ _ _ spawns := by cases spawns

theorem lock_monotone : (lockSystem setting hashlock).Monotone Grows where
  refl := Grows.refl
  trans := Grows.trans
  drift := Drift.grows
  perform := performed_grows
  restart := by
    rintro before _ rfl
    exact .refl _

/-- What is known of every call of every run. -/
theorem lock_justified (reached : (lockSystem setting hashlock).Reaches start pool)
    (member : thread ∈ pool.threads) :
    (lockSystem setting hashlock).Justified (lockRule setting.lezClient hashlock) Grows pool.world
      thread :=
  System.justified lock_ruled lock_monotone reached thread member

/-- The transfers of a call that fund. -/
def fundings (thread : Thread interface (World setting) LockCall (Except SwapError String)) :
    List (Entry interface (World setting)) := thread.log.filter (transfers ·.op)

/-- A transfer of a call pays for an escrow that was there, locked, before, and that is
exactly the one the call asked for. -/
def Backed (setting : Setting) (hashlock : Bytes32) (call : LockCall)
    (entry : Entry interface (World setting)) : Prop :=
  (∃ nonces, entry.op =
    .sendTransaction (.transfer (setting.runtime.pda hashlock) nonces call.amount)) ∧
  ∃ (escrow : HTLCEscrow) (held : World setting),
    escrowConfirmsOurLock escrow setting.account call.takerId call.amount call.expiry = true ∧
    held.escrow hashlock = some escrow ∧ Grows held entry.before

/-- Every transfer of every run is backed. -/
theorem funding_backed (reached : (lockSystem setting hashlock).Reaches start pool)
    (seeded : hashlock ∈ setting.runtime.seeds) (member : thread ∈ pool.threads)
    {entry : Entry interface (World setting)} (funding : entry ∈ fundings thread) :
    Backed setting hashlock thread.task entry := by
  have justified := lock_justified reached member
  obtain ⟨there, funds⟩ := List.mem_filter.mp funding
  obtain ⟨earlier, later, split⟩ := List.append_of_mem there
  obtain ⟨-, confirmed⟩ := justified.obeys earlier entry later split
  obtain ⟨paid, escrow, ⟨data, read, decoded⟩, exact_match⟩ := confirmed funds
  obtain ⟨before, after, looked⟩ := entry_of_mem read
  have known : ∀ old ∈ thread.past ++ earlier, old ∈ thread.entries := by
    intro old there
    rcases List.mem_append.mp there with past | own
    · exact List.mem_append_left _ past
    · exact List.mem_append_right _ (split ▸ List.mem_append_left _ own)
  obtain ⟨middle, ⟨rfl, truthful⟩, drifts⟩ := justified.performed _ (known _ looked)
  refine ⟨paid, escrow, middle, exact_match, truthful hashlock seeded rfl data escrow rfl decoded,
    ?_⟩
  exact (drifts_grow drifts).trans (justified.before split _ looked)

/-- A list where whatever counts has nothing that counts before it. -/
theorem filter_short {α : Type} {counts : α → Bool} {items : List α}
    (first : ∀ earlier item later, items = earlier ++ item :: later → counts item = true →
      ∀ other ∈ earlier, counts other = false) : (items.filter counts).length ≤ 1 := by
  induction items using List.reverseRecOn with
  | nil => simp
  | append_singleton items last ih =>
      rw [List.filter_append, List.length_append]
      by_cases counted : counts last = true
      · have none : items.filter counts = [] := List.filter_eq_nil_iff.mpr fun other there => by
          simp [first items last [] rfl counted other there]
        simp [none, counted]
      · have shorter := ih fun earlier item later split =>
          first earlier item (later ++ [last]) (by simp [split])
        simpa [counted] using shorter

/-- A call funds at most once. -/
theorem fundings_short (reached : (lockSystem setting hashlock).Reaches start pool)
    (member : thread ∈ pool.threads) : (fundings thread).length ≤ 1 := by
  have justified := lock_justified reached member
  apply filter_short
  intro earlier entry later split funds other there
  have unfunded := (justified.obeys earlier entry later split).1 funds
  exact unfunded other.exchange (List.mem_map_of_mem (List.mem_append_right _ there))

/-- What an escrow has become keeps the terms of what it was. -/
theorem moves_terms {first second : HTLCEscrow} {final : Option HTLCEscrow}
    (moved : EscrowMoves setting.runtime hashlock (some first) final)
    (moves : EscrowMoves setting.runtime hashlock (some second) final) :
    first.terms = second.terms := by
  have kept : ∀ {escrow : HTLCEscrow}, EscrowMoves setting.runtime hashlock (some escrow) final →
      ∃ settled, final = some settled ∧ settled.terms = escrow.terms := by
    intro escrow moves
    rcases moves.some_cases with same | ⟨-, settled, same, terms, -⟩
    · exact ⟨escrow, same, rfl⟩
    · exact ⟨settled, same, terms⟩
  obtain ⟨settled, same, early⟩ := kept moved
  obtain ⟨again, same', late⟩ := kept moves
  rw [same] at same'
  cases same'
  rw [← early, ← late]

/-- Two calls that both fund ask for the same expiry. -/
theorem fundings_agree (reached : (lockSystem setting hashlock).Reaches start pool)
    (seeded : hashlock ∈ setting.runtime.seeds)
    {other : Thread interface (World setting) LockCall (Except SwapError String)}
    (member : thread ∈ pool.threads) (member' : other ∈ pool.threads)
    (funds : fundings thread ≠ []) (funds' : fundings other ≠ []) :
    thread.task.expiry = other.task.expiry := by
  have final : ∀ thread ∈ pool.threads, fundings thread ≠ [] → ∃ escrow : HTLCEscrow,
      escrow.timelock = thread.task.expiry ∧
      EscrowMoves setting.runtime hashlock (some escrow) (pool.world.escrow hashlock) := by
    intro thread member funds
    obtain ⟨entry, funding⟩ := List.exists_mem_of_ne_nil _ funds
    obtain ⟨-, escrow, held, confirms, there, grown⟩ := funding_backed reached seeded member funding
    have known : entry ∈ thread.entries := List.mem_append_right _ (List.mem_filter.mp funding).1
    have justified := lock_justified reached member
    have onward := (performed_grows (justified.performed entry known)).trans
      (justified.reaches entry known)
    refine ⟨escrow, ?_, ?_⟩
    · simp only [escrowConfirmsOurLock, Bool.and_eq_true, decide_eq_true_eq] at confirms
      exact confirms.2
    · rw [← there]
      exact (grown.trans onward).lez.moves hashlock seeded
  obtain ⟨first, early, moved⟩ := final thread member funds
  obtain ⟨second, late, moves⟩ := final other member' funds'
  rw [← early, ← late]
  exact congrArg Lez.Terms.timelock (moves_terms moved moves)

/-- Lists of which one at most has an item, and no more than that. -/
theorem flatMap_short {α β : Type} {part : α → List β} {items : List α}
    (apart : items.Pairwise fun first second => part first = [] ∨ part second = [])
    (short : ∀ item ∈ items, (part item).length ≤ 1) : (items.flatMap part).length ≤ 1 := by
  induction items with
  | nil => simp
  | cons first rest ih =>
      obtain ⟨others, apart⟩ := List.pairwise_cons.mp apart
      rw [List.flatMap_cons, List.length_append]
      by_cases none : part first = []
      · simpa [none] using ih apart fun item there => short item (List.mem_cons_of_mem _ there)
      · have empty : rest.flatMap part = [] := List.flatMap_eq_nil_iff.mpr fun item there =>
          (others item there).resolve_left none
        simpa [empty] using short first List.mem_cons_self

/-- Of calls with different expiries one at most funds, and it funds once. -/
theorem funded_once (reached : (lockSystem setting hashlock).Reaches start pool)
    (seeded : hashlock ∈ setting.runtime.seeds)
    (distinct : pool.threads.Pairwise fun first second =>
      first.task.expiry ≠ second.task.expiry) :
    (pool.threads.flatMap fundings).length ≤ 1 ∧
      ∀ thread ∈ pool.threads, ∀ entry ∈ fundings thread,
        Backed setting hashlock thread.task entry := by
  refine ⟨?_, fun thread member entry => funding_backed reached seeded member⟩
  apply flatMap_short _ fun thread => fundings_short reached
  apply distinct.imp_of_mem
  intro first second member member' apart
  by_contra both
  obtain ⟨funds, funds'⟩ := not_or.mp both
  exact apart (fundings_agree reached seeded member member' funds funds')

end Runs

/-- A call for an escrow of the same hashlock that was never locked. -/
def testLateCall : LockCall := ⟨Lez.testTerms.takerId, Lez.testTerms.amount, 1700000001, 1⟩

/-- The call that the test escrow was locked with. -/
def testLockCall : LockCall := ⟨Lez.testTerms.takerId, Lez.testTerms.amount, 1700000000, 1⟩

/-- The maker's world with its escrow locked. -/
def testLockedWorld : World testMakerSetting := testMakerWorld testEscrowLocked []

/-- The escrow reads as absent, its lock is sent again, and it is funded once it is read. -/
def testFunding : List (Entry interface (World testMakerSetting)) :=
  [.quiet testLockedWorld (.getAccount Lez.testPda) (.ok []),
   .quiet testLockedWorld (.getAccountsNonces Lez.testTerms.makerId) (.ok []),
   .quiet testLockedWorld (.sendTransaction (.htlc Lez.testPda []
     (Lez.buildLockInstruction testHashlock Lez.testTerms.takerId Lez.testTerms.amount
       1700000000))) (.ok ""),
   .quiet testLockedWorld (.getAccount Lez.testPda)
     (.ok (Lez.testTerms.escrow testHashlock .Locked none).toBytes),
   .quiet testLockedWorld (.getAccountsNonces Lez.testTerms.makerId) (.ok []),
   .quiet testLockedWorld (.sendTransaction (.transfer Lez.testPda [] Lez.testTerms.amount))
     (.ok "")]

theorem test_funding : ∃ rest, Advances (environment testMakerSetting)
    ((lockSystem testMakerSetting testHashlock).body testLockCall) testLockedWorld testFunding rest
    testLockedWorld := by
  have reads : escrowIn testHashlock (Lez.testTerms.escrow testHashlock .Locked none).toBytes =
      .ok (some (Lez.testTerms.escrow testHashlock .Locked none)) :=
    Lez.escrowIn_toBytes (Lez.encodable_none .Locked)
  have absent : (environment testMakerSetting).perform (.getAccount Lez.testPda) testLockedWorld
      (.ok []) testLockedWorld := by
    refine ⟨_, ⟨rfl, ?_⟩, .refl⟩
    rintro hashlock - - data escrow ⟨⟩ decoded
    cases decoded
  have answered : (environment testMakerSetting).perform (.getAccount Lez.testPda) testLockedWorld
      (.ok (Lez.testTerms.escrow testHashlock .Locked none).toBytes) testLockedWorld := by
    refine ⟨_, ⟨rfl, ?_⟩, .refl⟩
    rintro hashlock rfl - data escrow ⟨⟩ decoded
    rw [reads] at decoded
    cases decoded
    exact Lez.escrowAt_of_written (Lez.encodable_none .Locked) rfl rfl
  refine Advances.more .refl absent ?_
  refine Advances.more .refl ⟨_, rfl, .refl⟩ ?_
  refine Advances.more .refl ⟨_, rfl, .refl⟩ ?_
  refine Advances.more .refl answered ?_
  simp only [Program.bind, ExceptT.bindCont, Function.comp, reads]
  refine Advances.more .refl ⟨_, rfl, .refl⟩ ?_
  refine Advances.more .refl ⟨_, rfl, .refl⟩ ?_
  exact ⟨_, .none⟩

/-- Of the late call and the one the test escrow was locked with, the latter funds once. -/
theorem funded_once_test : ∃ pool : Pool interface (World testMakerSetting) LockCall
      (Except SwapError String),
    (lockSystem testMakerSetting testHashlock).Reaches testLockedWorld pool ∧
    (pool.threads.flatMap fundings).length = 1 ∧
    ∀ thread ∈ pool.threads, ∀ entry ∈ fundings thread,
      Backed testMakerSetting testHashlock thread.task entry := by
  obtain ⟨rest, advances⟩ := test_funding
  have started : (lockSystem testMakerSetting testHashlock).Reaches testLockedWorld
      ⟨testLockedWorld, [.spawned testLateCall [] _]⟩ := .single (.restart rfl trivial)
  have restarted : (lockSystem testMakerSetting testHashlock).Reaches testLockedWorld
      ⟨testLockedWorld, [.killed (.spawned testLateCall [] _)] ++ [.spawned testLockCall [] _]⟩ :=
    started.tail (.restart rfl trivial)
  have run := System.Reaches.run restarted (by simp) advances
    (by simp [testFunding, lockSystem, Entry.quiet])
  have apart : testLateCall.expiry ≠ testLockCall.expiry := by decide
  have once := funded_once run rfl (List.pairwise_pair.mpr apart)
  exact ⟨_, run, rfl, once.2⟩

end AtomicSwaps.Cli
