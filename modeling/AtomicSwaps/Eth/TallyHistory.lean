import AtomicSwaps.Eth.Chain
import AtomicSwaps.Eth.SwapTally

/-!
# The tally against the contract's history

The contract's logs tell the state of every swap: a swap is claimed when a `Claimed` log
of it is there, refunded when a `Refunded` log is, and its `Locked` log comes before
both. So the counts of a window are those of the swaps locked in it, by their state.
-/

namespace AtomicSwaps.Eth

open Semantics Semantics.Nested

/-- The logs tell what has become of every swap. -/
structure Told (contract : Contract) : Prop where
  logged : Logged contract
  claimed : ∀ swapId, (∃ preimage, Log.Claimed swapId preimage ∈ contract.logs) ↔
    (contract.htlcs swapId).state = .CLAIMED
  refunded : ∀ swapId, Log.Refunded swapId ∈ contract.logs ↔
    (contract.htlcs swapId).state = .REFUNDED
  /-- A `Locked` log is the first one of its swap. -/
  first : contract.logs.Pairwise fun earlier later =>
    later.kind = .Locked → earlier.swapId ≠ later.swapId

section Invariant

variable {hashes : Hashes} {block : Block} {call : Call} {before after : Contract} {swapId : Bytes32}

/-- A swap with a log is not empty. -/
theorem Told.not_empty (told : Told before) {log : Log} (member : log ∈ before.logs) :
    (before.htlcs log.swapId).state ≠ .EMPTY := by
  cases log with
  | Locked swapId sender recipient amount hashlock timelock takerLezAccount =>
      obtain ⟨state, set, same⟩ := told.logged _ _ _ _ _ _ _ member
      rw [Log.swapId, same]
      exact set
  | Claimed swapId preimage =>
      have claimed := (told.claimed swapId).mp ⟨preimage, member⟩
      simp [Log.swapId, claimed]
  | Refunded swapId =>
      have refunded := (told.refunded swapId).mp member
      simp [Log.swapId, refunded]

theorem Told.deploy (minTimelockDelta : U256) (balance : Nat) :
    Told (Contract.deploy minTimelockDelta balance) where
  logged _ _ _ _ _ _ _ member := by simp [Contract.deploy] at member
  claimed := by simp [Contract.deploy, HTLC.empty]
  refunded := by simp [Contract.deploy, HTLC.empty]
  first := by simp [Contract.deploy]

/-- A new last log keeps the `Locked` logs first. -/
theorem Told.first_append (told : Told before) {log : Log}
    (fresh : log.kind = .Locked → (before.htlcs log.swapId).state = .EMPTY) :
    (before.logs ++ [log]).Pairwise fun earlier later =>
      later.kind = .Locked → earlier.swapId ≠ later.swapId := by
  apply List.pairwise_append.mpr
  refine ⟨told.first, List.pairwise_singleton _ _, fun earlier member last same locked apart => ?_⟩
  obtain rfl := List.mem_singleton.mp same
  exact told.not_empty member (by rw [apart]; exact fresh locked)

/-- A payout tells the new state of its swap. -/
theorem Told.payout {state : SwapState} {log : Log} (told : Told before)
    (effect : PayoutEffect swapId state log before after)
    (tells : (∃ preimage, state = .CLAIMED ∧ log = .Claimed swapId preimage) ∨
      state = .REFUNDED ∧ log = .Refunded swapId) : Told after := by
  have logs : after.logs = before.logs ++ [log] := by simp [effect.after]
  have mine : (after.htlcs swapId).state = state := by simp [effect.after]
  have others : ∀ other, other ≠ swapId → after.htlcs other = before.htlcs other := by
    intro other apart
    simp [effect.after, apart]
  have opened := effect.opened
  constructor
  · rcases tells with ⟨preimage, rfl, rfl⟩ | ⟨rfl, rfl⟩
    · exact told.logged.payout effect (by simp) (by simp)
    · exact told.logged.payout effect (by simp) (by simp)
  · intro other
    have earlier := told.claimed other
    rw [logs]
    by_cases this : other = swapId
    · subst this
      rcases tells with ⟨preimage, rfl, rfl⟩ | ⟨rfl, rfl⟩
      · simp [mine]
      · simp [mine, earlier, opened]
    · rw [others other this, ← earlier]
      rcases tells with ⟨preimage, rfl, rfl⟩ | ⟨rfl, rfl⟩
      · simp [this]
      · simp
  · intro other
    have earlier := told.refunded other
    rw [logs]
    by_cases this : other = swapId
    · subst this
      rcases tells with ⟨preimage, rfl, rfl⟩ | ⟨rfl, rfl⟩
      · simp [mine, earlier, opened]
      · simp [mine]
    · rw [others other this, ← earlier]
      rcases tells with ⟨preimage, rfl, rfl⟩ | ⟨rfl, rfl⟩
      · simp
      · simp [this]
  · rw [logs]
    apply told.first_append
    rcases tells with ⟨preimage, rfl, rfl⟩ | ⟨rfl, rfl⟩ <;> simp [Log.kind]

/-- A lock tells of a swap that had no log yet. -/
theorem Told.lock {msg : Msg} {hashlock : Bytes32} {timelock : U256} {recipient : Address}
    {takerLezAccount : Bytes32} (told : Told before) (logged : Logged after)
    (effect : LockEffect hashes block msg hashlock timelock recipient takerLezAccount before after) :
    Told after := by
  obtain ⟨-, -, -, -, -, -, fresh, rfl⟩ := effect
  generalize swapIdOf hashes msg.sender recipient msg.value hashlock timelock takerLezAccount =
    lockedId at fresh logged ⊢
  refine ⟨logged, fun other => ?_, fun other => ?_, ?_⟩
  · have earlier := told.claimed other
    by_cases this : other = lockedId
    · subst this
      simp [lockedHTLC, earlier, fresh]
    · simp [this, earlier]
  · have earlier := told.refunded other
    by_cases this : other = lockedId
    · subst this
      simp [lockedHTLC, earlier, fresh]
    · simp [this, earlier]
  · exact told.first_append fun _ => fresh

end Invariant

/-- Along every run the logs tell what has become of every swap. -/
theorem told_everywhere {hashes : Hashes} {minTimelockDelta : U256} {balance : Nat} {block : Block}
    {events : List (Event Call)} {machine : Machine Block Store}
    (run : ContractRun hashes minTimelockDelta balance block events machine) :
    Told machine.store.contract := by
  have everywhere : Everywhere (fun store : Store => Told store.contract) machine := by
    refine Machine.invariant (keeps_of (fun told effect => ?_) (fun told effect => ?_))
      (Told.deploy minTimelockDelta balance) run
    · have logged := told.logged.completes effect
      rcases completes_cases effect with ⟨value, rfl⟩ | ⟨_, _, _, _, _, locked, -⟩
      · exact ⟨told.logged, told.claimed, told.refunded, told.first⟩
      · exact told.lock logged locked
    · rename_i call _ _
      cases call with
      | lock | deposit => exact effect.elim
      | claim sender swapId preimage =>
          obtain ⟨external, paid, result, sent, rfl⟩ := effect
          obtain ⟨opened, -, -, rfl⟩ := claim_ok.mp result
          exact told.payout ((settle_sent opened).mp sent) (.inl ⟨preimage, rfl, rfl⟩)
      | refund sender swapId =>
          obtain ⟨external, paid, result, sent, rfl⟩ := effect
          obtain ⟨opened, -, -, rfl⟩ := refund_ok.mp result
          exact told.payout ((settle_sent opened).mp sent) (.inr ⟨rfl, rfl⟩)
  exact everywhere.1

/-- The contract's logs with the blocks they were emitted in. -/
structure Numbered (contract : Contract) where
  logs : List (Nat × Log)
  all : logs.map Prod.snd = contract.logs
  ordered : logs.Pairwise fun earlier later => earlier.1 ≤ later.1

/-- The swaps locked in some blocks. -/
def Numbered.lockedIn {contract : Contract} (numbered : Numbered contract) (locksFrom locksTo : Nat) :
    Finset Bytes32 :=
  ((numbered.logs.filter fun entry =>
    entry.2.kind = .Locked ∧ locksFrom ≤ entry.1 ∧ entry.1 ≤ locksTo).map (·.2.swapId)).toFinset

/-- A list of logs is what was emitted from a block on, with the locks of a window only. -/
def Numbered.Selects {contract : Contract} (numbered : Numbered contract) (locksFrom locksTo : Nat)
    (logs : List Log) : Prop :=
  ∀ log, log ∈ logs ↔ ∃ number, (number, log) ∈ numbered.logs ∧ locksFrom ≤ number ∧
    (log.kind = .Locked → number ≤ locksTo)

/-- How many swaps of a set are of a kind. -/
def tallied (contract : Contract) (locked : Finset Bytes32) (kept : HTLC → Bool) : Nat :=
  (locked.filter fun swapId => kept (contract.htlcs swapId)).card

section Windows

variable {contract : Contract} {numbered : Numbered contract} {locksFrom locksTo : Nat}
  {logs : List Log} {swapId : Bytes32} {row : LockedRow}

theorem Numbered.mem_logs {number : Nat} {log : Log} (member : (number, log) ∈ numbered.logs) :
    log ∈ contract.logs := by
  rw [← numbered.all]
  exact List.mem_map.mpr ⟨_, member, rfl⟩

theorem Numbered.mem_lockedIn : swapId ∈ numbered.lockedIn locksFrom locksTo ↔
    ∃ number log, (number, log) ∈ numbered.logs ∧ log.kind = .Locked ∧ log.swapId = swapId ∧
      locksFrom ≤ number ∧ number ≤ locksTo := by
  simp only [lockedIn, List.mem_toFinset, List.mem_map, List.mem_filter, Prod.exists,
    decide_eq_true_eq]
  constructor
  · rintro ⟨number, log, ⟨member, locked, above, below⟩, named⟩
    exact ⟨number, log, member, locked, named, above, below⟩
  · rintro ⟨number, log, member, locked, named, above, below⟩
    exact ⟨number, log, ⟨member, locked, above, below⟩, named⟩

/-- The lock a `Locked` log tells of is that of its swap. -/
theorem Told.row_eq (told : Told contract) {log : Log} (member : log ∈ contract.logs)
    (tells : log.row? = some row) : row = ⟨row.swapId, (contract.htlcs row.swapId).sender,
      (contract.htlcs row.swapId).recipient⟩ := by
  cases log with
  | Locked swapId sender recipient amount hashlock timelock takerLezAccount =>
      obtain ⟨state, -, same⟩ := told.logged _ _ _ _ _ _ _ member
      cases tells
      simp [same, announced]
  | Claimed => cases tells
  | Refunded => cases tells

/-- Selected logs of one swap tell of one lock. -/
theorem Told.consistent (told : Told contract)
    (selects : numbered.Selects locksFrom locksTo logs) : Consistent logs := by
  intro first here second there row row' tells tells' same
  obtain ⟨number, member, -⟩ := (selects first).mp here
  obtain ⟨number', member', -⟩ := (selects second).mp there
  rw [told.row_eq (numbered.mem_logs member) tells, told.row_eq (numbered.mem_logs member') tells',
    same]

/-- What became of a swap that was locked from a block on was emitted from there on. -/
theorem Told.settled_after (told : Told contract) {number number' : Nat} {lock log : Log}
    (locked : (number, lock) ∈ numbered.logs) (kind : lock.kind = .Locked)
    (settled : (number', log) ∈ numbered.logs) (other : log.kind ≠ .Locked)
    (same : log.swapId = lock.swapId) : number ≤ number' := by
  have first : numbered.logs.Pairwise fun earlier later =>
      later.2.kind = .Locked → earlier.2.swapId ≠ later.2.swapId := by
    have told := told.first
    rwa [← numbered.all, List.pairwise_map] at told
  obtain ⟨before, after, split⟩ := List.append_of_mem locked
  rw [split] at settled
  have ordered := numbered.ordered
  rw [split] at first ordered
  rcases List.mem_append.mp settled with earlier | here
  · exact ((List.pairwise_append.mp first).2.2 _ earlier _ List.mem_cons_self kind same).elim
  · rcases List.mem_cons.mp here with itself | later
    · cases itself
      exact le_rfl
    · exact (List.pairwise_cons.mp (List.pairwise_append.mp ordered).2.1).1 _ later

/-- The locks of the tally are those of the swaps locked in the window. -/
theorem rows_eq (told : Told contract) (selects : numbered.Selects locksFrom locksTo logs) :
    row ∈ (logs.foldl SwapTally.ingest .new).rows ↔
      row.swapId ∈ numbered.lockedIn locksFrom locksTo ∧
        row = ⟨row.swapId, (contract.htlcs row.swapId).sender,
          (contract.htlcs row.swapId).recipient⟩ := by
  rw [SwapTally.mem_rows, locks_eq_some (told.consistent selects), numbered.mem_lockedIn]
  constructor
  · rintro ⟨-, log, member, tells⟩
    obtain ⟨number, there, above, below⟩ := (selects log).mp member
    obtain ⟨locked, named⟩ := Log.row?_eq_some tells
    exact ⟨⟨number, log, there, locked, named, above, below locked⟩,
      told.row_eq (numbered.mem_logs there) tells⟩
  · rintro ⟨⟨number, log, there, locked, named, above, below⟩, same⟩
    obtain ⟨row', tells⟩ := Log.exists_row? locked
    have told := told.row_eq (numbered.mem_logs there) tells
    have named' := (Log.row?_eq_some tells).2
    have equal : row' = row := by
      rw [told, same]
      simp only [← named', named]
    exact ⟨rfl, log, (selects log).mpr ⟨number, there, above, fun _ => below⟩, equal ▸ tells⟩

/-- The outcome of a lock is the state of its swap. -/
theorem outcome_eq (told : Told contract) (selects : numbered.Selects locksFrom locksTo logs)
    (member : row ∈ (logs.foldl SwapTally.ingest .new).rows) :
    (logs.foldl SwapTally.ingest .new).outcome row =
      match (contract.htlcs row.swapId).state with
      | .CLAIMED => .completed
      | .REFUNDED => .refunded
      | .EMPTY | .OPEN => .stillOpen := by
  obtain ⟨number, lock, locked, kind, named, above, -⟩ :=
    numbered.mem_lockedIn.mp ((rows_eq told selects).mp member).1
  -- a terminal log of the swap is selected because its lock is in the window
  have selected : ∀ log : Log, log.kind ≠ .Locked → log.swapId = row.swapId →
      (log ∈ logs ↔ log ∈ contract.logs) := by
    intro log other same
    rw [selects log, ← numbered.all, List.mem_map]
    constructor
    · rintro ⟨number', there, -⟩
      exact ⟨_, there, rfl⟩
    · rintro ⟨⟨number', _⟩, there, rfl⟩
      have later := told.settled_after locked kind there other (same.trans named.symm)
      exact ⟨number', there, above.trans later, fun impossible => absurd impossible other⟩
  have claimed : row.swapId ∈ (logs.foldl SwapTally.ingest .new).claimed ↔
      (contract.htlcs row.swapId).state = .CLAIMED := by
    rw [mem_claimed_foldl, ← told.claimed]
    have none : row.swapId ∉ SwapTally.new.claimed := by simp [SwapTally.new]
    simp only [none, false_or]
    exact exists_congr fun preimage => selected _ (by simp [Log.kind]) rfl
  have refunded : row.swapId ∈ (logs.foldl SwapTally.ingest .new).refunded ↔
      (contract.htlcs row.swapId).state = .REFUNDED := by
    rw [mem_refunded_foldl, ← told.refunded]
    have none : row.swapId ∉ SwapTally.new.refunded := by simp [SwapTally.new]
    simp only [none, false_or]
    exact selected _ (by simp [Log.kind]) rfl
  simp only [SwapTally.outcome, claimed, refunded]
  cases (contract.htlcs row.swapId).state <;> simp

/-- Locks of the tally are counted as swaps locked in the window. -/
theorem countP_rows (told : Told contract) (selects : numbered.Selects locksFrom locksTo logs)
    (counted : LockedRow → Bool) (kept : HTLC → Bool)
    (agree : ∀ row ∈ (logs.foldl SwapTally.ingest .new).rows,
      counted row = kept (contract.htlcs row.swapId)) :
    (logs.foldl SwapTally.ingest .new).rows.countP counted =
      tallied contract (numbered.lockedIn locksFrom locksTo) kept := by
  have ids : ((logs.foldl SwapTally.ingest .new).rows.map (·.swapId)).toFinset =
      numbered.lockedIn locksFrom locksTo := by
    ext swapId
    simp only [List.mem_toFinset, List.mem_map, rows_eq told selects]
    constructor
    · rintro ⟨row, ⟨locked, -⟩, rfl⟩
      exact locked
    · intro locked
      exact ⟨⟨swapId, (contract.htlcs swapId).sender, (contract.htlcs swapId).recipient⟩,
        ⟨locked, rfl⟩, rfl⟩
  calc (logs.foldl SwapTally.ingest .new).rows.countP counted
      = (logs.foldl SwapTally.ingest .new).rows.countP fun row =>
          kept (contract.htlcs row.swapId) :=
        List.countP_congr fun row member => by rw [agree row member]
    _ = (((logs.foldl SwapTally.ingest .new).rows.map (·.swapId)).filter fun swapId =>
          kept (contract.htlcs swapId)).length := by
        rw [← List.countP_eq_length_filter, List.countP_map]
        rfl
    _ = tallied contract (numbered.lockedIn locksFrom locksTo) kept := by
        rw [tallied, ← ids, ← List.toFinset_filter,
          List.toFinset_card_of_nodup (SwapTally.nodup_rows.filter _)]

/-- Counts of swaps by the state they are in. -/
structure CountsStates (toString : Address → String) (contract : Contract) (locked : Finset Bytes32)
    (counts : SwapCounts) : Prop where
  attempted : counts.attempted = locked.card
  completed : counts.completed = tallied contract locked (·.state = .CLAIMED)
  refunded : counts.refunded = tallied contract locked (·.state = .REFUNDED)
  stillOpen : counts.stillOpen = tallied contract locked (·.state = .OPEN)
  takers : counts.distinctTakerWallets =
    (locked.image fun swapId => (contract.htlcs swapId).sender).card
  byMaker : ∃ makers : List Address,
    makers.Pairwise (fun first second => compare first second = .lt) ∧
    (∀ maker, maker ∈ makers ↔ ∃ swapId ∈ locked, (contract.htlcs swapId).recipient = maker) ∧
    counts.byMaker = makers.map fun maker => {
      recipient := toString maker
      attempted := tallied contract locked (·.recipient = maker)
      completed := tallied contract locked fun htlc => htlc.recipient = maker ∧ htlc.state = .CLAIMED
      refunded := tallied contract locked fun htlc => htlc.recipient = maker ∧ htlc.state = .REFUNDED
      stillOpen := tallied contract locked fun htlc => htlc.recipient = maker ∧ htlc.state = .OPEN }

/-- The counts of selected logs are those of the swaps locked in the window. -/
theorem counts_states (toString : Address → String) (told : Told contract)
    (selects : numbered.Selects locksFrom locksTo logs) :
    CountsStates toString contract (numbered.lockedIn locksFrom locksTo)
      ((logs.foldl SwapTally.ingest .new).counts toString) := by
  have is_locked : ∀ row ∈ (logs.foldl SwapTally.ingest .new).rows,
      row.swapId ∈ numbered.lockedIn locksFrom locksTo ∧
        row.sender = (contract.htlcs row.swapId).sender ∧
        row.recipient = (contract.htlcs row.swapId).recipient := by
    intro row member
    obtain ⟨locked, same⟩ := (rows_eq told selects).mp member
    exact ⟨locked, congrArg LockedRow.sender same, congrArg LockedRow.recipient same⟩
  have has_row : ∀ swapId ∈ numbered.lockedIn locksFrom locksTo,
      ⟨swapId, (contract.htlcs swapId).sender, (contract.htlcs swapId).recipient⟩ ∈
        (logs.foldl SwapTally.ingest .new).rows :=
    fun swapId locked => (rows_eq told selects).mpr ⟨locked, rfl⟩
  have completed : ∀ row ∈ (logs.foldl SwapTally.ingest .new).rows,
      (logs.foldl SwapTally.ingest .new).outcome row = .completed ↔
        (contract.htlcs row.swapId).state = .CLAIMED := by
    intro row member
    rw [outcome_eq told selects member]
    cases (contract.htlcs row.swapId).state <;> simp
  have refunded : ∀ row ∈ (logs.foldl SwapTally.ingest .new).rows,
      (logs.foldl SwapTally.ingest .new).outcome row = .refunded ↔
        (contract.htlcs row.swapId).state = .REFUNDED := by
    intro row member
    rw [outcome_eq told selects member]
    cases (contract.htlcs row.swapId).state <;> simp
  have stillOpen : ∀ row ∈ (logs.foldl SwapTally.ingest .new).rows,
      (logs.foldl SwapTally.ingest .new).outcome row = .stillOpen ↔
        (contract.htlcs row.swapId).state = .OPEN := by
    intro row member
    obtain ⟨number, log, there, -, named, -⟩ := numbered.mem_lockedIn.mp (is_locked row member).1
    have set := told.not_empty (numbered.mem_logs there)
    rw [named] at set
    rw [outcome_eq told selects member]
    cases state : (contract.htlcs row.swapId).state with
    | EMPTY => exact absurd state set
    | OPEN | CLAIMED | REFUNDED => simp
  constructor
  · rw [SwapTally.counts_attempted, ← List.countP_true,
      countP_rows told selects (fun _ => true) (fun _ => true) fun _ _ => rfl]
    simp [tallied]
  · rw [SwapTally.counts_completed, SwapTally.countOutcome]
    apply countP_rows told selects
    intro row member
    simp [completed row member]
  · rw [SwapTally.counts_refunded, SwapTally.countOutcome]
    apply countP_rows told selects
    intro row member
    simp [refunded row member]
  · rw [SwapTally.counts_stillOpen, SwapTally.countOutcome]
    apply countP_rows told selects
    intro row member
    simp [stillOpen row member]
  · rw [SwapTally.counts_takers]
    congr 1
    ext sender
    simp only [List.mem_toFinset, List.mem_map, Finset.mem_image]
    constructor
    · rintro ⟨row, member, rfl⟩
      obtain ⟨locked, sent, -⟩ := is_locked row member
      exact ⟨row.swapId, locked, sent.symm⟩
    · rintro ⟨swapId, locked, rfl⟩
      exact ⟨_, has_row swapId locked, rfl⟩
  · obtain ⟨makers, ordered, -, known, same⟩ :=
      (logs.foldl SwapTally.ingest .new).byMaker_eq toString
    refine ⟨makers, ordered, fun maker => ?_, ?_⟩
    · rw [known]
      constructor
      · rintro ⟨row, member, rfl⟩
        obtain ⟨locked, -, paid⟩ := is_locked row member
        exact ⟨row.swapId, locked, paid.symm⟩
      · rintro ⟨swapId, locked, rfl⟩
        exact ⟨_, has_row swapId locked, rfl⟩
    · rw [same]
      apply List.map_congr_left
      intro maker _
      have column : ∀ (outcome : Outcome) (state : SwapState),
          (∀ row ∈ (logs.foldl SwapTally.ingest .new).rows,
            (logs.foldl SwapTally.ingest .new).outcome row = outcome ↔
              (contract.htlcs row.swapId).state = state) →
          (logs.foldl SwapTally.ingest .new).countOutcome
            (SwapTally.rowsOf maker (logs.foldl SwapTally.ingest .new).rows) outcome =
          tallied contract (numbered.lockedIn locksFrom locksTo) fun htlc =>
            htlc.recipient = maker ∧ htlc.state = state := by
        intro outcome state agree
        rw [SwapTally.countOutcome, SwapTally.rowsOf, List.countP_filter]
        apply countP_rows told selects
        intro row member
        simp [agree row member, (is_locked row member).2.2, and_comm]
      have attempted : (SwapTally.rowsOf maker (logs.foldl SwapTally.ingest .new).rows).length =
          tallied contract (numbered.lockedIn locksFrom locksTo) (·.recipient = maker) := by
        rw [SwapTally.rowsOf, ← List.countP_eq_length_filter]
        apply countP_rows told selects
        intro row member
        simp [(is_locked row member).2.2]
      simp only [SwapTally.makerCounts, attempted, column _ _ completed, column _ _ refunded,
        column _ _ stillOpen]

end Windows

/-- The columns of the counts add up. -/
structure SwapCounts.Adds (counts : SwapCounts) : Prop where
  total : counts.completed + counts.refunded + counts.stillOpen = counts.attempted
  maker : ∀ entry ∈ counts.byMaker,
    entry.completed + entry.refunded + entry.stillOpen = entry.attempted
  attempted : (counts.byMaker.map (·.attempted)).sum = counts.attempted
  completed : (counts.byMaker.map (·.completed)).sum = counts.completed
  refunded : (counts.byMaker.map (·.refunded)).sum = counts.refunded
  stillOpen : (counts.byMaker.map (·.stillOpen)).sum = counts.stillOpen

theorem SwapTally.counts_adds (toString : Address → String) (tally : SwapTally) :
    (tally.counts toString).Adds := by
  have column : ∀ (outcome : Outcome) (maker : Address),
      tally.countOutcome (rowsOf maker tally.rows) outcome =
        (rowsOf maker tally.rows).countP fun row => tally.outcome row = outcome :=
    fun _ _ => rfl
  constructor
  · rw [counts_completed, counts_refunded, counts_stillOpen, counts_attempted]
    exact countOutcome_add
  · intro entry member
    obtain ⟨makers, -, -, -, same⟩ := tally.byMaker_eq toString
    rw [same] at member
    obtain ⟨maker, -, rfl⟩ := List.mem_map.mp member
    exact countOutcome_add
  · rw [counts_attempted, ← List.countP_true]
    exact sum_byMaker toString tally (·.attempted) _ fun _ => (congrFun List.countP_true _).symm
  · rw [counts_completed]
    exact sum_byMaker toString tally _ _ (column .completed)
  · rw [counts_refunded]
    exact sum_byMaker toString tally _ _ (column .refunded)
  · rw [counts_stillOpen]
    exact sum_byMaker toString tally _ _ (column .stillOpen)

/-- The logs of swaps whose `Locked` log is among them. -/
def withLock (logs : List Log) : List Log :=
  logs.filter fun log => ∃ lock ∈ logs, lock.kind = .Locked ∧ lock.swapId = log.swapId

/-- The logs of other swaps are not counted. -/
theorem counts_withLock (toString : Address → String) (logs : List Log) :
    (logs.foldl SwapTally.ingest .new).counts toString =
      ((withLock logs).foldl SwapTally.ingest .new).counts toString := by
  have kept : ∀ log ∈ logs, (∃ lock ∈ logs, lock.kind = .Locked ∧ lock.swapId = log.swapId) →
      log ∈ withLock logs :=
    fun log member lock => List.mem_filter.mpr ⟨member, by simpa using lock⟩
  have subset : ∀ log ∈ withLock logs, log ∈ logs := fun log member => List.mem_of_mem_filter member
  have rows : (withLock logs).filterMap Log.row? = logs.filterMap Log.row? := by
    rw [withLock, List.filterMap_filter]
    apply List.filterMap_congr
    intro log member
    cases tells : log.row? with
    | none => simp
    | some row =>
        have there : ∃ lock ∈ logs, lock.kind = .Locked ∧ lock.swapId = log.swapId :=
          ⟨log, member, (Log.row?_eq_some tells).1, rfl⟩
        simp [there]
  have locks : (logs.foldl SwapTally.ingest .new).locks =
      ((withLock logs).foldl SwapTally.ingest .new).locks := by
    apply Std.ExtTreeMap.ext_getElem?
    intro swapId
    rw [locks_foldl, locks_foldl, rows]
  have locked : ∀ row ∈ (logs.foldl SwapTally.ingest .new).rows,
      ∃ lock ∈ logs, lock.kind = .Locked ∧ lock.swapId = row.swapId := by
    intro row member
    rw [SwapTally.mem_rows, locks_foldl] at member
    simp only [SwapTally.new, Std.ExtTreeMap.getElem?_empty, Option.none_or] at member
    obtain ⟨log, there, tells⟩ := List.mem_filterMap.mp (List.mem_of_find?_eq_some member)
    exact ⟨log, there, Log.row?_eq_some tells⟩
  apply SwapTally.counts_congr locks
  · intro row member
    simp only [mem_claimed_foldl, SwapTally.new, Finset.notMem_empty, false_or]
    exact exists_congr fun preimage => ⟨fun there => kept _ there (locked row member), subset _⟩
  · intro row member
    simp only [mem_refunded_foldl, SwapTally.new, Finset.notMem_empty, false_or]
    exact ⟨fun there => kept _ there (locked row member), subset _⟩

/-- The counts of a report depend on what logs there are and not on their order, number or
division; they add up, terminal logs of swaps locked elsewhere do not count, and over the
contract's own logs they are the numbers of the swaps locked in the window by their state. -/
theorem tally_law (toString : Address → String) :
    (∀ first second : List (List Log), Consistent first.flatten →
      (∀ log, log ∈ first.flatten ↔ log ∈ second.flatten) →
      (SwapTally.new.ingestChunks first).counts toString =
        (SwapTally.new.ingestChunks second).counts toString) ∧
    (∀ chunks : List (List Log), ((SwapTally.new.ingestChunks chunks).counts toString).Adds) ∧
    (∀ chunks : List (List Log), (SwapTally.new.ingestChunks chunks).counts toString =
      (SwapTally.new.ingestChunks [withLock chunks.flatten]).counts toString) ∧
    ∀ (hashes : Hashes) (minTimelockDelta : U256) (balance : Nat) (block : Block)
      (events : List (Event Call)) (machine : Machine Block Store),
      ContractRun hashes minTimelockDelta balance block events machine →
      ∀ (numbered : Numbered machine.store.contract) (locksFrom locksTo : Nat)
        (chunks : List (List Log)), numbered.Selects locksFrom locksTo chunks.flatten →
      CountsStates toString machine.store.contract (numbered.lockedIn locksFrom locksTo)
        ((SwapTally.new.ingestChunks chunks).counts toString) := by
  refine ⟨fun first second consistent same => ?_, fun chunks => ?_, fun chunks => ?_, ?_⟩
  · rw [SwapTally.ingestChunks_eq, SwapTally.ingestChunks_eq,
      tally_eq_of_same_logs consistent same]
  · exact SwapTally.counts_adds toString _
  · rw [SwapTally.ingestChunks_eq, counts_withLock, SwapTally.ingestChunks_eq]
    simp
  · intro hashes minTimelockDelta balance block events machine run numbered locksFrom locksTo chunks
      selects
    rw [SwapTally.ingestChunks_eq]
    exact counts_states toString (told_everywhere run) selects

end AtomicSwaps.Eth
