import AtomicSwaps.Cli.Exposure

/-!
# What is funded stays in the journal

From the moment the maker sends the funds of an escrow, wherever it is killed and whichever
journal write fails, the swap is in flight in the state file until some process of the maker has
cleared it for an escrow that is settled on the chain, or has put it into quarantine.
-/

namespace AtomicSwaps.Cli

open Semantics Swap
open Lez (LezClient)

/-- A key was written down, and the journal was left as it was since. -/
def Written (history : Trace) (key : String) : Prop :=
  ∃ earlier text later, history = earlier ++ ⟨.record key text, .ok ()⟩ :: later ∧
    ∀ exchange ∈ later, ¬ exchange.op.Journaling

/-- What the maker serves is written down. -/
theorem served_written {client : LezClient} {config : SwapConfig} {guards : LoopGuards}
    {history : Trace} {found : Match} (served : Served client config guards history found) :
    Written history found.key := by
  obtain ⟨earlier, later, same, -, untouched⟩ := served
  exact ⟨earlier, _, later, same, untouched⟩

section Store

variable {setting : Setting} {before after : World setting} {op : Op} {answer : Answer op}
  {key : String}

/-- A hashlock is in flight in memory and on disk. -/
def Kept (world : World setting) (key : String) : Prop :=
  world.store.state.InFlight key ∧ world.store.file.InFlight key

/-- Only the operations of the journal call the store. -/
theorem Calls.journaling {event : StoreEvent} (called : Calls before ⟨op, answer⟩ event) :
    op.Journaling := by
  cases event with
  | record swap result =>
      cases called.2.2
      trivial
  | markFunded hashlock result =>
      obtain rfl : op = _ := called
      trivial
  | remove hashlock result =>
      obtain rfl : op = _ := called
      trivial
  | quarantine hashlock reason now result =>
      obtain rfl : op = _ := called.2
      trivial
  | load =>
      cases called
      trivial

/-- The other operations leave the store alone. -/
theorem unjournaled_store (performed : (environment setting).perform op before answer after)
    (silent : ¬ op.Journaling) : after.store = before.store := by
  rcases performed_calls performed with ⟨event, called, -⟩ | same
  · exact absurd called.journaling silent
  · exact same

/-- A swap that is written down with nothing in flight is in flight in memory and on disk. -/
theorem recorded_kept {text : String} (none : before.store.snapshot = [])
    (performed : (environment setting).perform (.record key text) before (.ok ()) after) :
    Kept after key := by
  obtain ⟨middle, ⟨result, same⟩, drifted⟩ := performed
  obtain ⟨recorded, rfl⟩ := Prod.mk.inj same
  have written := StateStore.record_ok recorded.symm
  have fresh : ¬ before.store.state.InFlight key := by
    have empty : before.store.state.inFlight = [] := none
    simp [BotState.InFlight, empty]
  obtain ⟨-, memory, disk⟩ := written.resolve_left fun known => fresh known.1
  unfold Kept
  rw [drifts_store drifted]
  exact ⟨memory.inFlight, disk.inFlight⟩

/-- An operation keeps what is in flight in memory and on disk, unless it takes it out. -/
theorem performed_kept (kept : Kept before key)
    (performed : (environment setting).perform op before answer after) :
    Kept after key ∨ op = .remove key ∨ ∃ reason, op = .quarantine key reason := by
  rcases performed_calls performed with ⟨event, called, same⟩ | same
  · by_cases drops : event.Drops key
    · refine .inr ?_
      cases event with
      | record | markFunded | load => exact drops.elim
      | remove hashlock result =>
          obtain rfl : hashlock = key := drops
          exact .inl called
      | quarantine hashlock reason now result =>
          obtain rfl : hashlock = key := drops
          exact .inr ⟨reason, called.2⟩
    · refine .inl ?_
      have stays := @StateStore.kept_after before.store (fun state => state.InFlight key) [event]
        (fun other member state inFlight => by
          obtain rfl := List.mem_singleton.mp member
          exact StoreEvent.inFlight_target inFlight drops) kept
      unfold Kept
      rw [same]
      exact stays
  · unfold Kept
    rw [same]
    exact .inl kept

end Store

/-! ## The maker's process -/

section Maker

variable {setting : Setting} {configured : SwapConfig → MakerArgs → Prop} {start : World setting}
  {pool : Pool interface (World setting) MakerTask (Except SwapError Unit)}
  {thread : Thread interface (World setting) MakerTask (Except SwapError Unit)}
  {happened : List (Happening interface (World setting))}

/-- What a thread that goes on has written down is in flight, and it writes nothing down before
it has waited. -/
structure Sheltered (world : World setting)
    (thread : Thread interface (World setting) MakerTask (Except SwapError Unit)) : Prop where
  kept : ¬ thread.Finished → ∀ key, Written thread.history key → Kept world key
  unwritten : Unjoined thread.history → ∀ exchange ∈ thread.history, ∀ key text,
    exchange.op ≠ .record key text

/-- Whoever has written something down has waited. -/
theorem Sheltered.joined {world : World setting} {key : String} (sheltered : Sheltered world thread)
    (written : Written thread.history key) : ¬ Unjoined thread.history := by
  intro unjoined
  obtain ⟨earlier, text, later, same, -⟩ := written
  exact sheltered.unwritten unjoined ⟨.record key text, .ok ()⟩ (by simp [same]) key text rfl

/-- A thread stays sheltered when it performs its next operation. -/
theorem Sheltered.resumed {world next : World setting} {op : Op} {answer : Answer op}
    {rest : Answer op → Program interface (Except SwapError Unit)}
    (sheltered : Sheltered world thread) (running : thread.rest = .call op rest)
    (allowed : makerRule setting.lezClient thread.task thread.history op)
    (turn : (makerSystem setting configured).WaitsGuarded InTurn world thread)
    (performed : (environment setting).perform op world answer next) :
    Sheltered next (thread.resumed ⟨op, answer, world, next⟩ (rest answer)) := by
  have grown : (thread.resumed ⟨op, answer, world, next⟩ (rest answer)).history =
      thread.history ++ [⟨op, answer⟩] := by
    simp [Thread.history, Entry.exchange]
  constructor
  · rintro - key ⟨earlier, text, later, same, untouched⟩
    rw [grown] at same
    rcases List.eq_nil_or_concat' later with rfl | ⟨init, last, rfl⟩
    · -- it has just been written down, with nothing else in flight
      obtain ⟨-, recorded⟩ := List.append_inj' same rfl
      cases List.cons.inj recorded |>.1
      have none := (turn.admits (waited_of_joined (record_joined allowed)) running).2 key text rfl
      exact recorded_kept none performed
    · have shorter : thread.history ++ [⟨op, answer⟩] =
          (earlier ++ ⟨.record key text, .ok ()⟩ :: init) ++ [last] := by
        simpa using same
      obtain ⟨before, recorded⟩ := List.append_inj' shorter rfl
      cases List.cons.inj recorded |>.1
      have written : Written thread.history key :=
        ⟨earlier, text, init, before, fun exchange member =>
          untouched exchange (List.mem_append_left _ member)⟩
      unfold Kept
      rw [unjournaled_store performed (untouched _ List.mem_concat_self)]
      exact sheltered.kept (Thread.not_finished running) key written
  · rw [grown]
    intro unjoined exchange member key text recorded
    have before : Unjoined thread.history := fun old there =>
      unjoined old (List.mem_append_left _ there)
    rcases List.mem_append.mp member with old | last
    · exact sheltered.unwritten before exchange old key text recorded
    · obtain rfl := List.mem_singleton.mp last
      obtain rfl : op = _ := recorded
      exact record_joined allowed before

/-- Every thread of the maker is sheltered. -/
theorem maker_sheltered (reached : (makerSystem setting configured).Reaches start pool) :
    ∀ thread ∈ pool.threads, Sheltered pool.world thread := by
  induction reached with
  | refl => simp
  | tail reached step ih =>
      cases step with
      | drift drifted =>
          intro thread member
          have sheltered := ih thread member
          refine ⟨fun going key written => ?_, sheltered.unwritten⟩
          unfold Kept
          rw [drifts_store (.single drifted)]
          exact sheltered.kept going key written
      | @perform world next before after thread op rest answer child running performed waited
          spawns =>
          have mine := ih thread (by simp)
          have allowed := (maker_justified reached (show thread ∈ _ by simp)).allowed running
          obtain ⟨-, inner, outer⟩ := List.pairwise_append.mp (maker_alone reached)
          -- whoever else has written something down is finished
          have others : ∀ other ∈ before ++ after, Sheltered world other →
              Sheltered next other := by
            intro other there sheltered
            refine ⟨fun going key written => ?_, sheltered.unwritten⟩
            have waiting : (makerSystem setting configured).Waited other :=
              ⟨going, waited_of_joined (sheltered.joined written)⟩
            have finished : thread.Finished := by
              rcases List.mem_append.mp there with early | late
              · exact (outer other early thread (by simp)).1 waiting
              · exact ((List.pairwise_cons.mp inner).1 other late).2 waiting
            exact (finished op rest running).elim
          intro other member
          simp only [List.append_assoc, List.cons_append, List.mem_append, List.mem_cons,
            List.mem_map, Option.mem_toList] at member
          rcases member with there | rfl | there | ⟨task, rfl, rfl⟩
          · exact others other (by simp [there]) (ih other (by simp [there]))
          · exact mine.resumed running allowed (maker_inTurn reached (by simp)) performed
          · exact others other (by simp [there]) (ih other (by simp [there]))
          · obtain ⟨entry, hashlock, timelockMs, fuel, rfl, rfl, unjoined, -⟩ :=
              spawns_recovers allowed spawns
            have silent : ∀ exchange ∈ thread.history ++
                [⟨.spawnResume entry hashlock timelockMs, answer⟩], ∀ key text,
                exchange.op ≠ .record key text := by
              intro exchange member key text
              rcases List.mem_append.mp member with old | last
              · exact mine.unwritten unjoined exchange old key text
              · obtain rfl := List.mem_singleton.mp last
                simp
            have past : (Thread.spawned (MakerTask.resume entry hashlock timelockMs fuel)
                (thread.entries ++ [⟨.spawnResume entry hashlock timelockMs, answer, world, next⟩])
                ((makerSystem setting configured).body
                  (.resume entry hashlock timelockMs fuel))).history =
                thread.history ++ [⟨.spawnResume entry hashlock timelockMs, answer⟩] := by
              simp [Thread.history, Entry.exchange]
            constructor
            · rintro - key ⟨earlier, text, later, same, -⟩
              rw [past] at same
              exact (silent ⟨.record key text, .ok ()⟩ (by simp [same]) key text rfl).elim
            · rw [past]
              exact fun _ => silent
      | restart restarted main =>
          intro thread member
          simp only [List.mem_append, List.mem_map, List.mem_singleton] at member
          rcases member with ⟨alive, there, rfl⟩ | rfl
          · exact ⟨fun going => (going alive.killed_finished).elim, (ih alive there).unwritten⟩
          · refine ⟨?_, by simp [Thread.history]⟩
            rintro - key ⟨earlier, text, later, same, -⟩
            simp [Thread.history] at same

/-- Nothing is funded in recovery. -/
theorem recovers_unfunded {client : LezClient} {history : Trace} {recipient : Lez.AccountId}
    {nonces : List U128} {amount : U128} :
    ¬ Recovers client history (.sendTransaction (.transfer recipient nonces amount)) := id

/-- A funding transfer is for an escrow whose swap is written down. -/
theorem fund_written {task : MakerTask} {history : Trace} {recipient : Lez.AccountId}
    {nonces : List U128} {amount : U128}
    (allowed : makerRule setting.lezClient task history
      (.sendTransaction (.transfer recipient nonces amount))) :
    ∃ hashlock, recipient = setting.runtime.pda hashlock ∧
      Written history (Hex.encode hashlock.toList) := by
  cases task with
  | resume entry hashlock timelockMs fuel => exact (recovers_unfunded allowed.2).elim
  | main config args fuel =>
      rcases allowed with ⟨-, impossible | impossible | impossible⟩ | ⟨-, serves⟩
      · cases impossible
      · cases impossible
      · exact (recovers_unfunded impossible).elim
      · obtain ⟨found, escrow, served, -, -, rfl, -⟩ := serves
        exact ⟨found.event.hashlock, rfl, served_written served⟩

/-- After a funding transfer the swap is in flight, or was taken out. -/
theorem funded_kept (unfolds : (makerSystem setting configured).Unfolds start happened pool) :
    ∀ earlier entry later, happened = earlier ++ .performed entry :: later →
      ∀ recipient nonces amount, entry.op = .sendTransaction (.transfer recipient nonces amount) →
      ∃ hashlock, recipient = setting.runtime.pda hashlock ∧
        (Kept pool.world (Hex.encode hashlock.toList) ∨ ∃ drop, .performed drop ∈ later ∧
          (drop.op = .remove (Hex.encode hashlock.toList) ∨
            ∃ reason, drop.op = .quarantine (Hex.encode hashlock.toList) reason)) := by
  induction unfolds with
  | begun => simp
  | drift unfolds drifted ih =>
      intro earlier entry later split recipient nonces amount funds
      obtain ⟨hashlock, named, kept | dropped⟩ :=
        ih earlier entry later split recipient nonces amount funds
      · refine ⟨hashlock, named, .inl ?_⟩
        unfold Kept
        rw [drifts_store (.single drifted)]
        exact kept
      · exact ⟨hashlock, named, .inr dropped⟩
  | @perform happened world next before after thread op rest answer child unfolds running performed
      waited spawns ih =>
      intro earlier entry later split recipient nonces amount funds
      rcases List.eq_nil_or_concat' later with rfl | ⟨init, last, rfl⟩
      · -- the transfer is the operation that was just performed
        obtain ⟨rfl, same⟩ := List.append_inj' split rfl
        cases List.cons.inj same |>.1
        obtain rfl : op = _ := funds
        have reached := unfolds.reaches
        have allowed := (maker_justified reached (show thread ∈ _ by simp)).allowed running
        obtain ⟨hashlock, named, written⟩ := fund_written allowed
        have kept := (maker_sheltered reached thread (by simp)).kept
          (Thread.not_finished running) _ written
        refine ⟨hashlock, named, .inl ?_⟩
        unfold Kept
        rw [unjournaled_store performed id]
        exact kept
      · have shorter : happened ++ [.performed ⟨op, answer, world, next⟩] =
            (earlier ++ .performed entry :: init) ++ [last] := by
          simpa using split
        obtain ⟨before, same⟩ := List.append_inj' shorter rfl
        cases List.cons.inj same |>.1
        obtain ⟨hashlock, named, kept | ⟨drop, there, drops⟩⟩ :=
          ih earlier entry init before recipient nonces amount funds
        · rcases performed_kept kept performed with still | drops
          · exact ⟨hashlock, named, .inl still⟩
          · exact ⟨hashlock, named, .inr ⟨_, List.mem_concat_self, drops⟩⟩
        · exact ⟨hashlock, named, .inr ⟨drop, List.mem_append_left _ there, drops⟩⟩
  | @restart happened world next threads task unfolds restarted main ih =>
      intro earlier entry later split recipient nonces amount funds
      rcases List.eq_nil_or_concat' later with rfl | ⟨init, last, rfl⟩
      · obtain ⟨-, same⟩ := List.append_inj' split rfl
        cases List.cons.inj same |>.1
      · have shorter : happened ++ [.restarted] =
            (earlier ++ .performed entry :: init) ++ [last] := by
          simpa using split
        obtain ⟨before, -⟩ := List.append_inj' shorter rfl
        obtain ⟨hashlock, named, kept | ⟨drop, there, drops⟩⟩ :=
          ih earlier entry init before recipient nonces amount funds
        · obtain rfl := restarted
          exact ⟨hashlock, named, .inl ⟨kept.2, kept.2⟩⟩
        · exact ⟨hashlock, named, .inr ⟨drop, List.mem_append_left _ there, drops⟩⟩

/-- Why a thread took a hashlock out of the journal: its escrow was settled on the chain, or it
put the hashlock into quarantine for what it had read by then. -/
inductive Released (hashlock : Bytes32) (history : Trace)
    (drop : Entry interface (World setting)) : Prop where
  | settled {escrow : Lez.HTLCEscrow} (removes : drop.op = .remove (Hex.encode hashlock.toList))
      (cleared : Cleared setting.lezClient history (Hex.encode hashlock.toList))
      (there : drop.before.escrow hashlock = some escrow) (settled : escrow.state ≠ .Locked)
  | abandoned {reason : String}
      (quarantines : drop.op = .quarantine (Hex.encode hashlock.toList) reason)
      (abandoned : Abandoned setting.lezClient history (Hex.encode hashlock.toList))

/-- Whatever has been funded is in flight in the state file, unless it was taken out since, in a
pool reached by what happened. -/
def FundsJournaled (happened : List (Happening interface (World setting)))
    (pool : Pool interface (World setting) MakerTask (Except SwapError Unit)) : Prop :=
  ∀ earlier entry later, happened = earlier ++ .performed entry :: later →
    ∀ recipient nonces amount, entry.op = .sendTransaction (.transfer recipient nonces amount) →
    ∃ hashlock, recipient = setting.runtime.pda hashlock ∧ (hashlock ∈ setting.runtime.seeds →
      pool.world.store.file.InFlight (Hex.encode hashlock.toList) ∨
      ∃ thread ∈ pool.threads, ∃ before drop after, thread.log = before ++ drop :: after ∧
        .performed drop ∈ later ∧ Released hashlock (historyOf (thread.past ++ before)) drop)

/-- A journal entry is cleared once its escrow is settled on the chain. -/
theorem cleared_settled {entries : List (Entry interface (World setting))} {world : World setting}
    {hashlock : Bytes32} (witnessed : Witnessed entries world)
    (cleared : Cleared setting.lezClient (historyOf entries) (Hex.encode hashlock.toList))
    (seeded : hashlock ∈ setting.runtime.seeds) :
    ∃ escrow, world.escrow hashlock = some escrow ∧ escrow.state ≠ .Locked := by
  have parsed := parseHashlockHex_encode hashlock
  cases cleared with
  | corrupt unparsed =>
      rw [parsed] at unparsed
      cases unparsed
  | refunded same seen =>
      rw [parsed] at same
      cases same
      obtain ⟨escrow, there, refunded⟩ := seen.refunded witnessed seeded
      exact ⟨escrow, there, by simp [refunded]⟩
  | malformed same read claimed short =>
      rw [parsed] at same
      cases same
      exact ⟨_, (read.moves witnessed seeded).settled_eq (by simp [claimed]), by simp [claimed]⟩
  | recovered recovered =>
      cases recovered with
      | collected same revealed | unreadable same revealed =>
          rw [parsed] at same
          cases same
          obtain ⟨escrow, there, claimed, -⟩ := revealed.claimed witnessed seeded
          exact ⟨escrow, there, by simp [claimed]⟩

/-- Whatever is funded stays in the journal until it is settled or put into quarantine. -/
theorem funds_journaled
    (unfolds : (makerSystem setting configured).Unfolds start happened pool) :
    FundsJournaled happened pool := by
  intro earlier entry later split recipient nonces amount funds
  obtain ⟨hashlock, named, kept | ⟨drop, there, drops⟩⟩ :=
    funded_kept unfolds earlier entry later split recipient nonces amount funds
  · exact ⟨hashlock, named, fun _ => .inl kept.2⟩
  refine ⟨hashlock, named, fun seeded => .inr ?_⟩
  have reached := unfolds.reaches
  obtain ⟨thread, member, logged⟩ :=
    unfolds.logged (show .performed drop ∈ happened by simp [split, there])
  obtain ⟨before, after, logs⟩ := List.append_of_mem logged
  have rests := maker_rests reached member logs
  refine ⟨thread, member, before, drop, after, logs, there, ?_⟩
  rcases drops with removes | ⟨reason, quarantines⟩
  · rw [removes] at rests
    have cleared := makerRule_remove rests
    obtain ⟨escrow, here, settled⟩ :=
      cleared_settled (maker_witnessed_before reached member logs) cleared seeded
    exact .settled removes cleared here settled
  · rw [quarantines] at rests
    refine .abandoned quarantines ?_
    cases task : thread.task with
    | resume entry hashlock timelockMs fuel =>
        rw [task] at rests
        exact rests.2
    | main config args fuel =>
        rw [task] at rests
        rcases rests with ⟨-, impossible | impossible | abandoned⟩ | ⟨-, impossible⟩
        · cases impossible
        · cases impossible
        · exact abandoned
        · exact impossible.elim

end Maker

/-- The test swap that was funded is in the journal. -/
theorem funds_journaled_test : ∃ happened rest,
    (makerSystem testMakerSetting fun _ _ => True).Unfolds testOffered happened
      (testFunded rest) ∧ FundsJournaled happened (testFunded rest) := by
  obtain ⟨rest, reached⟩ := test_reaches
  obtain ⟨happened, unfolds⟩ := reached.unfolds
  exact ⟨happened, rest, unfolds, funds_journaled unfolds⟩

end AtomicSwaps.Cli
