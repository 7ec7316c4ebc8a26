import AtomicSwaps.Cli.RecoveryRule
import AtomicSwaps.Swap.TakerOutcome
import AtomicSwaps.Swap.Witness

/-!
# The maker as a process

The standing bot with the watchers it spawns, killed and started again at any time. What
was in memory is lost with it; what is on disk and on the chains stays. Every operation
of every process of a run rests on what its rule says, and once a process accepts new
swaps nothing of it runs beside its main thread.
-/

namespace AtomicSwaps.Cli

open Semantics Swap
open Lez (LezClient)

/-- What a thread of the maker runs. -/
inductive MakerTask where
  | main (config : SwapConfig) (args : MakerArgs) (fuel : Nat)
  | resume (entry : InFlightSwap) (hashlock : Bytes32) (timelockMs : U64) (fuel : Nat)

/-- The guards of the loop that the arguments stand for. -/
def MakerArgs.guards (args : MakerArgs) : LoopGuards :=
  loopGuards (args.lezMinutes.getD loopDefaultLezTimelockMinutes) (args.timelockMarginMinutes * 60)

/-- The program of a thread. -/
def MakerTask.body (client : LezClient) : MakerTask → Program interface (Except SwapError Unit)
  | .main config args fuel => (cmdMakerLoop client config args fuel).run
  | .resume entry hashlock timelockMs fuel =>
      (resumeSwap client fuel entry hashlock timelockMs).run

/-- The maker, started with configurations of a kind. -/
def makerSystem (setting : Setting) (configured : SwapConfig → MakerArgs → Prop) :
    System interface (World setting) MakerTask (Except SwapError Unit) where
  environment := environment setting
  body := MakerTask.body setting.lezClient
  main task := ∃ config args fuel, configured config args ∧ task = .main config args fuel
  spawns op child := match op with
    | .spawnResume entry hashlock timelockMs => ∃ fuel,
        child = some (.resume entry hashlock timelockMs fuel)
    | _ => child = none
  waits op := op = .joinResumed
  restart before after := after = before.withStore before.store.load

/-- Nothing has been waited for yet. -/
def Unjoined (history : Trace) : Prop := ∀ exchange ∈ history, exchange.op ≠ .joinResumed

/-- What every operation of the maker rests on: until it has waited for its watchers it
recovers, and from then on it serves. -/
def makerRule (client : LezClient) : MakerTask → Trace → Op → Prop
  | .main config args _, history, op =>
      Unjoined history ∧ (op = .load ∨ op = .joinResumed ∨ Recovers client history op) ∨
      ¬ Unjoined history ∧ Serves client config args.guards history op
  | .resume .., history, op => Unjoined history ∧ Recovers client history op

section Rules

variable {client : LezClient} {history : Trace}

theorem Unjoined.append {middle : Trace} (unjoined : Unjoined history)
    (others : ∀ exchange ∈ middle, exchange.op ≠ .joinResumed) : Unjoined (history ++ middle) := by
  intro exchange member
  rcases List.mem_append.mp member with earlier | later
  · exact unjoined exchange earlier
  · exact others exchange later

/-- Recovery waits for nothing. -/
theorem Recovers.not_join {op : Op} (recovers : Recovers client history op) :
    op ≠ .joinResumed := by
  rintro rfl
  exact recovers

/-- A program that recovers leaves the history without a wait. -/
theorem recovers_unjoined {α : Type} {program : Program interface α} {post : Trace → α → Prop}
    (follows : Follows (Recovers client) post program history) (unjoined : Unjoined history) :
    Follows (fun later op => Unjoined later ∧ Recovers client later op)
      (fun later value => Unjoined later ∧ post later value) program history := by
  apply (follows.since fun _ _ => Recovers.not_join).mono
  · rintro later op ⟨recovers, middle, rfl, others⟩
    exact ⟨unjoined.append others, recovers⟩
  · rintro later value ⟨done, middle, rfl, others⟩
    exact ⟨unjoined.append others, done⟩

/-- The loop behind its guards. -/
theorem acceptSwaps_rests {config : SwapConfig} {args : MakerArgs} {fuel : Nat}
    {ethMinutes : U64} :
    Follows (Serves client config args.guards) (fun _ _ => True)
      (acceptSwaps client config (args.lezMinutes.getD loopDefaultLezTimelockMinutes) ethMinutes
        args fuel).run history := by
  apply Follows.request_bind (serves_quiet _ .snapshot trivial)
  intro entries
  simp only [Follows.run_ite_iff]
  refine ⟨fun _ => trivial, fun _ => ?_⟩
  apply Follows.run_bind_iff.mpr
  apply balanceWithRetry_rests serves_quiet
  · intro later result
    cases result with
    | error e => trivial
    | ok read =>
        simp only [Follows.run_ite_iff]
        refine ⟨fun _ => trivial, fun _ => ?_⟩
        apply Follows.run_bind_iff.mpr
        apply runMakerLoop_rests.weaken
        intro next result _
        cases result <;> trivial
  · exact fun _ _ => trivial

/-- `cmd_maker_loop`: it recovers, waits, and then serves. -/
theorem cmdMakerLoop_rests {config : SwapConfig} {args : MakerArgs} {fuel : Nat} :
    Follows (makerRule client (.main config args fuel)) (fun _ _ => True)
      (cmdMakerLoop client config args fuel).run [] := by
  have recovering : ∀ {history op}, Unjoined history → Recovers client history op →
      makerRule client (.main config args fuel) history op :=
    fun unjoined recovers => .inl ⟨unjoined, .inr (.inr recovers)⟩
  apply Follows.run_bind_iff.mpr
  apply Follows.run_returned_iff.mpr
  cases startupGuards config args (args.lezMinutes.getD loopDefaultLezTimelockMinutes)
      (args.ethMinutes.getD loopDefaultEthTimelockMinutes) with
  | error e => trivial
  | ok =>
  apply Follows.request_bind (recovering (by simp [Unjoined]) (recovers_quiet _ .lezConnect trivial))
  intro connected
  apply Follows.run_bind_iff.mpr
  apply Follows.run_returned_iff.mpr
  cases connected with
  | error e => trivial
  | ok =>
  apply Follows.request_bind (.inl ⟨by simp [Unjoined], .inl rfl⟩)
  intro loaded
  apply Follows.run_bind_iff.mpr
  apply Follows.run_returned_iff.mpr
  cases loaded with
  | error e => trivial
  | ok =>
  apply Follows.run_bind_iff.mpr
  apply (recovers_unjoined reconcile_rests (by simp [Unjoined])).mono
  · exact fun later op kept => recovering kept.1 kept.2
  · intro later result kept
    cases result with
    | error e => trivial
    | ok =>
        apply Follows.request_bind (.inl ⟨kept.1, .inr (.inl rfl)⟩)
        intro _
        apply (acceptSwaps_rests.and (Follows.extends_history _ _)).mono
        · rintro next op ⟨serves, grown⟩
          refine .inr ⟨fun unjoined => ?_, serves⟩
          exact unjoined _ (grown.subset List.mem_concat_self) rfl
        · exact fun _ _ _ => trivial

/-- A journal entry is cleared for a reason, whoever clears it. -/
theorem makerRule_remove {task : MakerTask} {key : String}
    (allowed : makerRule client task history (.remove key)) : Cleared client history key := by
  cases task with
  | main config args fuel =>
      rcases allowed with ⟨-, impossible | impossible | cleared⟩ | ⟨-, cleared⟩
      · cases impossible
      · cases impossible
      · exact cleared
      · exact cleared
  | resume entry hashlock timelockMs fuel => exact allowed.2

/-- A swap is recorded as completed for a reason, whoever records it. -/
theorem makerRule_completed {task : MakerTask} {key : String}
    (allowed : makerRule client task history (.ops (.completed key))) :
    Recovered client history key := by
  cases task with
  | main config args fuel =>
      rcases allowed with ⟨-, impossible | impossible | recovered⟩ | ⟨-, recovered⟩
      · cases impossible
      · cases impossible
      · exact recovered
      · exact recovered
  | resume entry hashlock timelockMs fuel => exact allowed.2

end Rules

section System

variable {setting : Setting} {configured : SwapConfig → MakerArgs → Prop}
  {start : World setting}
  {pool : Pool interface (World setting) MakerTask (Except SwapError Unit)}
  {thread : Thread interface (World setting) MakerTask (Except SwapError Unit)}

/-- Spawning is part of recovery. -/
theorem spawns_recovers {task child : MakerTask} {history : Trace} {op : Op}
    (allowed : makerRule setting.lezClient task history op)
    (spawns : (makerSystem setting configured).spawns op (some child)) :
    ∃ entry hashlock timelockMs fuel, op = .spawnResume entry hashlock timelockMs ∧
      child = .resume entry hashlock timelockMs fuel ∧ Unjoined history ∧
      Recovers setting.lezClient history op := by
  cases op with
  | spawnResume entry hashlock timelockMs =>
      obtain ⟨fuel, same⟩ := spawns
      refine ⟨entry, hashlock, timelockMs, fuel, rfl, Option.some.inj same, ?_⟩
      cases task with
      | main config args fuel =>
          rcases allowed with ⟨unjoined, impossible | impossible | recovers⟩ | ⟨-, impossible⟩
          · cases impossible
          · cases impossible
          · exact ⟨unjoined, recovers⟩
          · exact impossible.elim
      | resume entry hashlock timelockMs fuel => exact allowed
  | _ => cases spawns

/-- Every program of the maker follows its rule. -/
theorem maker_ruled : (makerSystem setting configured).Ruled (makerRule setting.lezClient) where
  main task main := by
    obtain ⟨config, args, fuel, -, rfl⟩ := main
    exact cmdMakerLoop_rests
  child task history op answer child allowed spawns := by
    obtain ⟨entry, hashlock, timelockMs, fuel, rfl, rfl, unjoined, recovers⟩ :=
      spawns_recovers allowed spawns
    obtain ⟨journaled, parsed, -⟩ := recovers
    have unjoined' : Unjoined (history ++
        [(⟨.spawnResume entry hashlock timelockMs, answer⟩ : Exchange interface)]) :=
      unjoined.append (by simp)
    apply (recovers_unjoined (resumeSwap_rests (journaled.mono (List.prefix_append _ _)) parsed)
      unjoined').mono
    · exact fun _ _ kept => kept
    · exact fun _ _ _ => trivial

/-- Nothing the maker or anybody else does undoes anything on a chain. -/
theorem maker_monotone : (makerSystem setting configured).Monotone Grows where
  refl := Grows.refl
  trans := Grows.trans
  drift := Drift.grows
  perform := performed_grows
  restart := by
    rintro before _ rfl
    exact .withStore _ _

/-- What is known of every thread of every run of the maker. -/
theorem maker_justified (reached : (makerSystem setting configured).Reaches start pool)
    (member : thread ∈ pool.threads) :
    (makerSystem setting configured).Justified (makerRule setting.lezClient) Grows pool.world
      thread :=
  System.justified maker_ruled maker_monotone reached thread member

/-- What a thread did was performed, on the way to the world as it is. -/
theorem maker_witnessed (reached : (makerSystem setting configured).Reaches start pool)
    (member : thread ∈ pool.threads) : Witnessed thread.entries pool.world :=
  .of_justified rfl (maker_justified reached member)

/-- What a thread could look back on before one of its operations was performed by then. -/
theorem maker_witnessed_before (reached : (makerSystem setting configured).Reaches start pool)
    (member : thread ∈ pool.threads) {earlier later : List (Entry interface (World setting))}
    {entry : Entry interface (World setting)} (split : thread.log = earlier ++ entry :: later) :
    Witnessed (thread.past ++ earlier) entry.before := by
  intro old there
  have justified := maker_justified reached member
  refine ⟨justified.performed old ?_, justified.before split old there⟩
  rcases List.mem_append.mp there with past | earlier
  · exact List.mem_append_left _ past
  · exact List.mem_append_right _ (split ▸ List.mem_append_left _ earlier)

/-- An operation of the maker rests on what its thread could look back on. -/
theorem maker_rests (reached : (makerSystem setting configured).Reaches start pool)
    (member : thread ∈ pool.threads) {earlier later : List (Entry interface (World setting))}
    {entry : Entry interface (World setting)} (split : thread.log = earlier ++ entry :: later) :
    makerRule setting.lezClient thread.task (historyOf (thread.past ++ earlier)) entry.op :=
  (maker_justified reached member).obeys earlier entry later split

/-- Once it has waited for its watchers, the maker is alone. -/
theorem maker_alone (reached : (makerSystem setting configured).Reaches start pool) :
    pool.threads.Pairwise (makerSystem setting configured).Exclusive := by
  apply System.alone maker_ruled maker_monotone _ reached
  intro task history op child allowed spawns
  obtain ⟨entry, hashlock, timelockMs, fuel, rfl, -, unjoined, -⟩ := spawns_recovers allowed spawns
  exact ⟨by simp [makerSystem], fun exchange member => unjoined exchange member⟩

/-- Whatever the program of the maker can do, a process started in any world can. -/
theorem maker_starts {config : SwapConfig} {args : MakerArgs} {fuel : Nat} {final : World setting}
    {log : List (Entry interface (World setting))} (allowed : configured config args)
    (advances : ∃ rest, Advances (environment setting)
      (cmdMakerLoop setting.lezClient config args fuel).run (start.withStore start.store.load) log
      rest final)
    (childless : ∀ entry ∈ log, (makerSystem setting configured).spawns entry.op none) :
    ∃ rest, (makerSystem setting configured).Reaches start
      ⟨final, [⟨.main config args fuel, [], log, rest⟩]⟩ := by
  obtain ⟨rest, advances⟩ := advances
  have started : (makerSystem setting configured).Reaches start ⟨start.withStore start.store.load,
      [] ++ [.spawned (.main config args fuel) []
        (MakerTask.body setting.lezClient (.main config args fuel))]⟩ :=
    .single (.restart rfl ⟨config, args, fuel, allowed, rfl⟩)
  exact ⟨rest, started.run (by simp) advances childless⟩

end System

/-- The setting of the test swap, as the maker sees it. -/
def testMakerSetting : Setting :=
  { testTakerSetting with account := Lez.testTerms.makerId, signer := Eth.testMaker }

/-- A world of the test swap, with what the maker has in flight on disk. -/
def testMakerWorld (world : World testTakerSetting) (inFlight : List InFlightSwap) :
    World testMakerSetting where
  lez := world.lez
  eth := world.eth
  now := world.now
  store := ⟨"maker-state.json", ⟨[], []⟩, ⟨inFlight, []⟩⟩
  synced := trivial

/-- The journal entry of the test swap. -/
def testEntry (stage : SwapStage) : InFlightSwap :=
  ⟨Hex.encode testHashlock.toList, display Eth.testSwapId, 1699999000, stage⟩

/-- The arguments of the test maker. -/
def testArgs : MakerArgs where
  hashlock := none
  lezMinutes := none
  ethMinutes := none
  timelockMarginMinutes := 5
  restrictCounterparty := false

end AtomicSwaps.Cli
