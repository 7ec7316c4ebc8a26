import AtomicSwaps.Eth.CollectTally

/-!
# What a scan has read

The endpoint is a pool of backends, each with the logs of one interval of blocks, and any
of them may answer a request. An answer that is corroborated came from a backend that
holds the blocks of the canaries, and the spans of a scan cover its range without a gap.
-/

namespace AtomicSwaps.Eth

open Semantics Program

/-- A backend, by the first and the last block it holds the logs of. -/
structure Backend where
  first : Nat
  last : Nat

/-- The blocks whose logs a backend holds. -/
def Backend.Holds (backend : Backend) (block : Nat) : Prop :=
  backend.first ≤ block ∧ block ≤ backend.last

instance (backend : Backend) (block : Nat) : Decidable (backend.Holds block) :=
  inferInstanceAs (Decidable (_ ∧ _))

/-- What a backend has for a filter. -/
def Backend.logs (chain : List RpcLog) (backend : Backend) (filter : Filter) : List RpcLog :=
  chain.filter fun log => backend.Holds log.block ∧ filter.asksFor log

/-- The logs of a chain on which a contract emits each kind of event once for a swap. -/
structure Ledger (contract : Address) where
  logs : List RpcLog
  single : ∀ first ∈ logs, ∀ second ∈ logs, first.address = contract → second.address = contract →
    ∀ event event', first.event = some event → second.event = some event' →
    event.kind = event'.kind → event.swapId = event'.swapId → first = second

/-- A result is an error or what a backend has. -/
def Backend.Answers (chain : List RpcLog) (backend : Backend) (filter : Filter) (result : LogsResult) :
    Prop := ∀ logs, result = .ok logs → logs = backend.logs chain filter

/-- One backend of the pool serves a request, with all of its batch, unless it fails. -/
def Truthful (chain : List RpcLog) (pool : Set Backend) : (op : ReportOp) → Report.Answer op → Prop
  | .getLogs filter, result => ∀ logs, result = .ok logs →
      ∃ backend ∈ pool, backend.Answers chain filter (.ok logs)
  | .batch subject probes, response => ∀ answer results, response = .ok (answer, results) →
      ∃ backend ∈ pool, backend.Answers chain subject answer ∧
        List.Forall₂ (backend.Answers chain) probes results

/-- An endpoint over a pool of backends. -/
def endpoint {contract : Address} (ledger : Ledger contract) (pool : Set Backend) :
    Environment Report Unit where
  perform op _ answer _ := Truthful ledger.logs pool op answer
  drift _ _ := False

section LeastLogged

variable {logs : List RpcLog} {anchor : Address} {expected : Nat}

/-- Every address is counted. -/
theorem getElem?_perAddress (logs : List RpcLog) (address : Address) :
    (logs.foldl (fun perAddress log =>
      perAddress.alter log.address fun count => some (count.getD 0 + 1))
      (∅ : Std.ExtTreeMap Address Nat))[address]? =
      if 0 < logs.countP (·.address = address) then some (logs.countP (·.address = address))
      else none := by
  induction logs using List.reverseRecOn with
  | nil => simp
  | append_singleton logs log ih =>
      rw [List.foldl_append, List.foldl_cons, List.foldl_nil, Std.ExtTreeMap.getElem?_alter]
      simp only [Std.LawfulEqOrd.compare_eq_iff_eq, List.countP_append, List.countP_singleton]
      by_cases mine : log.address = address
      · subst mine
        simp only [if_true, decide_true, ih]
        split
        · simp
        · rename_i none
          simp only [not_lt, Nat.le_zero] at none
          simp [none]
      · simp [mine, ih]

/-- The least of some entries is one of them. -/
theorem foldl_least_mem (first : Address × Nat) (rest : List (Address × Nat)) :
    rest.foldl (fun least entry => if entry.2 < least.2 then entry else least) first ∈
      first :: rest := by
  induction rest generalizing first with
  | nil => simp
  | cons entry rest ih =>
      rw [List.foldl_cons]
      by_cases less : entry.2 < first.2
      · rw [if_pos less]
        exact List.mem_cons_of_mem _ (ih entry)
      · rw [if_neg less]
        rcases List.mem_cons.mp (ih first) with here | later
        · rw [here]
          exact List.mem_cons_self
        · exact List.mem_cons_of_mem _ (List.mem_cons_of_mem _ later)

/-- The address that logged least logged as often as expected, and at least once. -/
theorem leastLogged_counts (least : leastLogged logs = some (anchor, expected)) :
    expected = logs.countP (·.address = anchor) ∧ 0 < expected := by
  simp only [leastLogged] at least
  split at least
  · cases least
  · rename_i first rest listed
    have member := foldl_least_mem first rest
    rw [← listed, Option.some.inj least, Std.ExtTreeMap.mem_toList_iff_getElem?_eq_some,
      getElem?_perAddress] at member
    split at member
    · cases member
      exact ⟨rfl, ‹_›⟩
    · cases member

/-- Where there are logs an address logged least. -/
theorem leastLogged_isSome {log : RpcLog} : ∃ anchor expected,
    leastLogged (log :: logs) = some (anchor, expected) := by
  simp only [leastLogged]
  split
  · rename_i empty
    have counted := getElem?_perAddress (log :: logs) log.address
    have positive : 0 < (log :: logs).countP (·.address = log.address) := by simp
    rw [if_pos positive, ← Std.ExtTreeMap.mem_toList_iff_getElem?_eq_some, empty] at counted
    cases counted
  · exact ⟨_, _, rfl⟩

end LeastLogged

section Spans

variable {fromBlock toBlock chunk : Nat}

/-- The first span starts at the first block, and the others go on after it. -/
theorem blockChunks_cons {cursor finish : Nat} {spans : List (Nat × Nat)}
    (chunks : blockChunks fromBlock toBlock chunk = (cursor, finish) :: spans) :
    cursor = fromBlock ∧ cursor ≤ finish ∧ finish ≤ toBlock ∧
      spans = blockChunks (finish + 1) toBlock chunk := by
  rw [blockChunks] at chunks
  split at chunks
  · cases chunks
    exact ⟨rfl, by omega, by omega, rfl⟩
  · cases chunks

end Spans

/-- A backend holds what makes it corroborate. -/
def Backend.Corroborates (chain : List RpcLog) (canaries : List Canary) (backend : Backend) : Prop :=
  ∀ canary ∈ canaries, canary.expected ≤ (backend.logs chain canary.filter).length

/-- The scores of the canaries, by what came back for each. -/
def scores (probes : List LogsResult) (canaries : List Canary) : List (Nat × Nat) :=
  (probes.zip canaries).map fun (probe, canary) =>
    ((probe.toOption.map List.length).getD 0, canary.expected)

/-- Canaries that score are held by the backend. -/
theorem corroborates_of_scores {chain : List RpcLog} {backend : Backend} {probes : List LogsResult}
    {canaries : List Canary}
    (answers : List.Forall₂ (backend.Answers chain) (canaries.map (·.filter)) probes)
    (scored : isCorroborated (scores probes canaries) = true) :
    backend.Corroborates chain canaries := by
  induction canaries generalizing probes with
  | nil => simp [Backend.Corroborates]
  | cons canary canaries ih =>
      cases answers with
      | cons answer answers =>
          rename_i probe probes
          simp only [scores, List.zip_cons_cons, List.map_cons, isCorroborated, List.all_cons,
            Bool.and_eq_true, decide_eq_true_eq] at scored
          intro other member
          rcases List.mem_cons.mp member with rfl | later
          · cases probe with
            | error message => exact scored.1.trans (Nat.zero_le _)
            | ok logs =>
                obtain rfl := answer logs rfl
                exact scored.1
          · exact ih answers scored.2 other later

section Runs

variable {contract : Address} {ledger : Ledger contract} {pool : Set Backend}
  {canaries : List Canary} {filter : Filter} {entries : List (Entry Report Unit)} {world : Unit}

/-- A corroborated answer is what a backend has that corroborates. -/
theorem corroboratedGetLogs_some {logs : List RpcLog}
    (execution : Execution (endpoint ledger pool) (corroboratedGetLogs filter canaries).run world
      entries (.ok (some logs)) ()) :
    ∃ backend ∈ pool, backend.Corroborates ledger.logs canaries ∧
      logs = backend.logs ledger.logs filter := by
  unfold corroboratedGetLogs at execution
  by_cases bare : canaries = []
  · rw [if_pos bare] at execution
    obtain ⟨result, _, _, _, rfl, rest⟩ := execution.request_bind
    have performed := execution.performed List.mem_cons_self
    cases result with
    | error message => cases rest
    | ok found =>
        cases rest
        obtain ⟨backend, member, answers⟩ := performed logs rfl
        exact ⟨backend, member, by simp [bare, Backend.Corroborates], answers logs rfl⟩
  · rw [if_neg bare] at execution
    obtain ⟨response, _, _, _, rfl, rest⟩ := execution.request_bind
    have performed := execution.performed List.mem_cons_self
    match response, rest, performed with
    | .error message, rest, _ => cases rest
    | .ok (.error message, _), rest, _ => cases rest
    | .ok (.ok found, probes), rest, performed =>
        obtain ⟨backend, member, answers, proven⟩ := performed _ _ rfl
        simp only at rest
        split at rest
        · rename_i corroborated
          cases rest
          exact ⟨backend, member, corroborates_of_scores proven corroborated, answers logs rfl⟩
        · cases rest

theorem fetchSpan_some {attempts : Nat} {logs : List RpcLog}
    (execution : Execution (endpoint ledger pool) (fetchSpan filter canaries attempts).run world
      entries (.ok (.ok (some logs))) ()) :
    ∃ backend ∈ pool, backend.Corroborates ledger.logs canaries ∧
      logs = backend.logs ledger.logs filter := by
  induction attempts generalizing entries world with
  | zero => cases execution
  | succ attempts ih =>
      unfold fetchSpan at execution
      obtain ⟨_, _, tried, _, rfl, first, rest⟩ := execution.run_bind
      obtain ⟨outcome, rfl, asked⟩ := Execution.run_attempt_iff.mp first
      match outcome, rest, asked with
      | .ok (some found), rest, asked =>
          cases rest
          exact corroboratedGetLogs_some asked
      | .ok none, rest, _ => exact ih rest
      | .error error, rest, _ => cases rest

/-- A canary is for a block of its walk, and expects a log. -/
def Canary.At (canary : Canary) (block : Nat) : Prop :=
  (∃ anchor, canary.filter = ⟨some anchor, [], block, block⟩) ∧ 0 < canary.expected

theorem probeTurn_canary {block : Nat} {state : ProbeState} {canary : Canary}
    (execution : Execution (endpoint ledger pool) (probeTurn block state).run world entries
      (.ok (.inr (.inr canary))) ()) : canary.At block := by
  unfold probeTurn at execution
  split at execution
  · obtain ⟨result, _, _, _, rfl, rest⟩ := execution.request_bind
    match result, rest with
    | .error message, rest => cases rest
    | .ok [], rest => cases rest
    | .ok (log :: logs), rest =>
        simp only at rest
        split at rest
        · rename_i anchor expected least
          cases rest
          exact ⟨⟨anchor, rfl⟩, (leastLogged_counts least).2⟩
        · cases rest
  · cases execution

/-- What the attempts at a block come to. -/
def Probed (block : Nat) : Except SwapError (ProbeMiss ⊕ Canary) → Prop
  | .ok (.inr canary) => canary.At block
  | _ => True

theorem anchorIn_anchored {fuel : Nat} {candidates : List Nat} {miss : ProbeMiss} {canary : Canary}
    (execution : Execution (endpoint ledger pool) (anchorIn fuel candidates miss).run world entries
      (.ok (.Anchored canary)) ()) :
    ∃ block ∈ candidates, canary.At block := by
  induction candidates generalizing miss entries world with
  | nil => cases execution
  | cons block candidates ih =>
      unfold anchorIn at execution
      obtain ⟨_, _, probed, _, rfl, first, rest⟩ := execution.run_bind
      match probed, first, rest with
      | .error error, _, rest => cases rest.2
      | .ok (.inl miss), _, rest =>
          obtain ⟨other, member, at_⟩ := ih rest
          exact ⟨other, List.mem_cons_of_mem _ member, at_⟩
      | .ok (.inr found), first, rest =>
          cases rest
          refine ⟨block, List.mem_cons_self, ?_⟩
          have probed : Probed block (.ok (.inr canary)) := by
            refine first.iterate (fun _ => True) (fun {_ _ _ result _} _ turn => ?_) trivial
            match result, turn with
            | .error error, _ => trivial
            | .ok (.inl state), _ => trivial
            | .ok (.inr (.inl miss)), _ => trivial
            | .ok (.inr (.inr found)), turn => exact probeTurn_canary turn
          exact probed

theorem Filter.asksFor_iff {log : RpcLog} : filter.asksFor log = true ↔
    filter.address.all (log.address = ·) = true ∧
      (filter.topics = [] ∨ log.event.any (fun event => event.kind ∈ filter.topics) = true) ∧
      filter.fromBlock ≤ log.block ∧ log.block ≤ filter.toBlock := by
  rw [asksFor, decide_eq_true_eq]

/-- Within a range, a filter for a part of it asks for the logs of that part. -/
theorem Filter.asksFor_part {address : Option Address} {topics : List EventKind}
    {fromBlock toBlock cursor finish : Nat} {log : RpcLog} (after : fromBlock ≤ cursor)
    (before : finish ≤ toBlock) :
    Filter.asksFor ⟨address, topics, cursor, finish⟩ log = true ↔
      Filter.asksFor ⟨address, topics, fromBlock, toBlock⟩ log = true ∧
        cursor ≤ log.block ∧ log.block ≤ finish := by
  simp only [asksFor_iff]
  constructor
  · rintro ⟨mine, asked, first, last⟩
    exact ⟨⟨mine, asked, by omega, by omega⟩, first, last⟩
  · rintro ⟨⟨mine, asked, -⟩, first, last⟩
    exact ⟨mine, asked, first, last⟩

/-- The backends that corroborate agree with a view of the chain on what a filter asks for. -/
def Agree (ledger : Ledger contract) (pool : Set Backend) (canaries : List Canary) (filter : Filter)
    (view : RpcLog → Prop) : Prop :=
  ∀ backend ∈ pool, backend.Corroborates ledger.logs canaries →
    ∀ log ∈ ledger.logs, filter.asksFor log = true → (backend.Holds log.block ↔ view log)

/-- The tally has taken in what a view of the chain shows of a filter. -/
def Ingested (ledger : Ledger contract) (filter : Filter) (view : RpcLog → Prop)
    (before after : SwapTally) : Prop :=
  ∃ done : List RpcLog, after = done.foldl ingestLog before ∧
    ∀ log, log ∈ done ↔ log ∈ ledger.logs ∧ filter.asksFor log = true ∧ view log

section Range

variable {topics : List EventKind} {fromBlock toBlock : Nat} {view : RpcLog → Prop}
  {tally : SwapTally}

/-- What a scan of a range has done before the block it goes on with. -/
structure RangeState.Reached (ledger : Ledger contract) (topics : List EventKind)
    (fromBlock toBlock : Nat) (view : RpcLog → Prop) (tally : SwapTally) (state : RangeState)
    (cursor : Nat) : Prop where
  after : fromBlock ≤ cursor
  before : cursor ≤ max fromBlock (toBlock + 1)
  spans : state.spans = blockChunks cursor toBlock state.chunk
  ingested : Ingested ledger ⟨some contract, topics, fromBlock, toBlock⟩
    (fun log => log.block < cursor ∧ view log) tally state.tally

/-- What the scan of a range ends with. -/
def Scanned (ledger : Ledger contract) (topics : List EventKind) (fromBlock toBlock : Nat)
    (view : RpcLog → Prop) (before : SwapTally) : Except SwapError SwapTally → Prop
  | .ok after => Ingested ledger ⟨some contract, topics, fromBlock, toBlock⟩ view before after
  | .error _ => True

/-- What a turn of the scan of a range ends with. -/
def Turned (ledger : Ledger contract) (topics : List EventKind) (fromBlock toBlock : Nat)
    (view : RpcLog → Prop) (before : SwapTally) : Except SwapError (RangeState ⊕ SwapTally) → Prop
  | .ok (.inl next) => ∃ cursor, next.Reached ledger topics fromBlock toBlock view before cursor
  | .ok (.inr value) => Scanned ledger topics fromBlock toBlock view before (.ok value)
  | .error _ => True

/-- A turn goes on with the next span once the logs of the span are in the tally. -/
theorem rangeTurn_reaches {state : RangeState} {cursor : Nat}
    {result : Except SwapError (RangeState ⊕ SwapTally)}
    (agree : Agree ledger pool canaries ⟨some contract, topics, fromBlock, toBlock⟩ view)
    (reached : state.Reached ledger topics fromBlock toBlock view tally cursor)
    (execution : Execution (endpoint ledger pool)
      (rangeTurn contract toBlock topics canaries state).run world entries result ()) :
    Turned ledger topics fromBlock toBlock view tally result := by
  obtain ⟨size, spans, retries, counted⟩ := state
  obtain ⟨after, before, tiled, done, told, members⟩ := reached
  simp only at tiled told
  cases spans with
  | nil =>
      cases execution
      -- no span is left, so the range is behind the cursor
      have past : toBlock < cursor := by
        by_contra more
        rw [blockChunks, if_pos (by omega)] at tiled
        cases tiled
      refine ⟨done, told, fun log => ?_⟩
      rw [members]
      constructor
      · rintro ⟨there, asked, -, seen⟩
        exact ⟨there, asked, seen⟩
      · rintro ⟨there, asked, seen⟩
        have within : log.block ≤ toBlock := by
          exact (Filter.asksFor_iff.mp asked).2.2.2
        exact ⟨there, asked, by omega, seen⟩
  | cons span spans =>
      obtain ⟨start, finish⟩ := span
      obtain ⟨rfl, forward, within, rest⟩ := blockChunks_cons tiled.symm
      obtain ⟨_, _, fetched, _, rfl, first, onward⟩ := execution.run_bind
      match fetched, first, onward with
      | .error error, _, onward => 
          obtain ⟨-, rfl⟩ := onward
          trivial
      | .ok (.error message), _, onward =>
          simp only at onward
          split at onward
          · cases onward
            exact ⟨start, after, before, tiled, done, told, members⟩
          · split at onward
            · cases onward
              exact ⟨start, after, before, rfl, done, told, members⟩
            · cases onward
              trivial
      | .ok (.ok none), _, onward =>
          cases onward
          trivial
      | .ok (.ok (some logs)), first, onward =>
          cases onward
          obtain ⟨backend, member, corroborates, rfl⟩ := fetchSpan_some first
          refine ⟨finish + 1, by omega, by omega, rest,
            done ++ backend.logs ledger.logs ⟨some contract, topics, start, finish⟩, ?_, ?_⟩
          · rw [List.foldl_append, ← told]
          · intro log
            simp only [List.mem_append, members, Backend.logs, List.mem_filter, decide_eq_true_eq,
              Filter.asksFor_part after within]
            constructor
            · rintro (⟨there, asked, earlier, seen⟩ | ⟨there, holds, asked, first, last⟩)
              · exact ⟨there, asked, by omega, seen⟩
              · exact ⟨there, asked, by omega,
                  (agree backend member corroborates log there asked).mp holds⟩
            · rintro ⟨there, asked, earlier, seen⟩
              by_cases old : log.block < start
              · exact .inl ⟨there, asked, old, seen⟩
              · exact .inr ⟨there, (agree backend member corroborates log there asked).mpr seen, asked,
                  by omega, by omega⟩

/-- The scan of a range takes in what the view shows of all of the range. -/
theorem scanRange_ingests {fuel chunk : Nat} {after : SwapTally}
    (agree : Agree ledger pool canaries ⟨some contract, topics, fromBlock, toBlock⟩ view)
    (execution : Execution (endpoint ledger pool)
      (scanRange fuel contract fromBlock toBlock topics chunk canaries tally).run world entries
      (.ok after) ()) :
    Ingested ledger ⟨some contract, topics, fromBlock, toBlock⟩ view tally after := by
  have scanned : Scanned ledger topics fromBlock toBlock view tally (.ok after) := by
    refine execution.iterate (fun state => ∃ cursor,
      state.Reached ledger topics fromBlock toBlock view tally cursor)
      (fun {_ _ _ result _} reached turn => ?_) ⟨fromBlock, le_rfl, by omega, rfl, [], rfl, fun log => ?_⟩
    · obtain ⟨cursor, reached⟩ := reached
      have turned := rangeTurn_reaches agree reached turn
      match result, turned with
      | .ok (.inl next), turned => exact turned
      | .ok (.inr value), turned => exact turned
      | .error error, _ => trivial
    · simp only [List.not_mem_nil, Filter.asksFor_iff, false_iff]
      rintro ⟨-, ⟨-, -, first, -⟩, before, -⟩
      omega
  exact scanned

end Range

end Runs

end AtomicSwaps.Eth
