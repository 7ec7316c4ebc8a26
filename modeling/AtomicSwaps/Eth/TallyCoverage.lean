import AtomicSwaps.Eth.ScanRange

/-!
# Coverage of a corroborated report

A corroborated report is complete exactly when every backend that holds logs in a probed
block at each end of the span holds all that the scans are about. The anchors move away
from the ends over blocks where the endpoint shows no logs, so a backend may pass that
does not hold the blocks outside of them.
-/

namespace AtomicSwaps.Eth

open Semantics Program

/-- The last block a report of a window is about. -/
def ReportWindow.spanEnd (window : ReportWindow) : Nat := max window.outcomesTo window.locksTo

/-- The logs of a contract that a report of a window is about. -/
def ReportWindow.counts (contract : Address) (window : ReportWindow) (log : RpcLog) : Bool :=
  log.address = contract ∧ window.locksFrom ≤ log.block ∧ log.event.any fun event =>
    if event.kind = .Locked then log.block ≤ window.locksTo else log.block ≤ window.spanEnd

/-- The filter of the scan over the attempt window. -/
def ReportWindow.attempts (contract : Address) (window : ReportWindow) : Filter :=
  ⟨some contract, [.Locked, .Claimed, .Refunded], window.locksFrom, window.locksTo⟩

/-- The filter of the scan for later outcomes. -/
def ReportWindow.outcomes (contract : Address) (window : ReportWindow) : Filter :=
  ⟨some contract, [.Claimed, .Refunded], window.locksTo + 1, window.outcomesTo⟩

/-- The logs that the scans of a window ask for. -/
def ReportWindow.asksFor (contract : Address) (window : ReportWindow) (log : RpcLog) : Bool :=
  (window.attempts contract).asksFor log ∨ (window.outcomes contract).asksFor log

/-- A backend holds logs in one of some blocks. -/
def Backend.AnchoredIn (chain : List RpcLog) (blocks : List Nat) (backend : Backend) : Prop :=
  ∃ block ∈ blocks, backend.Holds block ∧ ∃ log ∈ chain, log.block = block

/-- A backend holds logs in a probed block at each end of a window. -/
def Backend.Anchored (chain : List RpcLog) (window : ReportWindow) (backend : Backend) : Prop :=
  backend.AnchoredIn chain (forwardWalk window.locksFrom window.spanEnd) ∧
    backend.AnchoredIn chain (backwardWalk window.locksFrom window.spanEnd)

variable {contract : Address} {ledger : Ledger contract} {pool : Set Backend}
  {window : ReportWindow} {entries : List (Entry Report Unit)} {world : Unit}

/-- A report that is corroborated counts all logs that it is about, and no others. -/
def Complete (ledger : Ledger contract) (pool : Set Backend) (window : ReportWindow) (chunk : Nat)
    (allowUncorroborated : Bool) : Prop :=
  ∀ (fuel : Nat) (entries : List (Entry Report Unit)) (tally : SwapTally),
    Execution (endpoint ledger pool)
      (collectTally fuel contract window chunk allowUncorroborated).run () entries
      (.ok ⟨tally, true⟩) () →
    tally = (ledger.logs.filter (window.counts contract)).foldl ingestLog .new

/-- Every backend that is anchored at both ends holds the logs that the scans ask for from
the start of the window on, and none from before it. -/
def Covered (ledger : Ledger contract) (pool : Set Backend) (window : ReportWindow) : Prop :=
  ∀ backend ∈ pool, backend.Anchored ledger.logs window → ∀ log ∈ ledger.logs,
    window.asksFor contract log = true → (backend.Holds log.block ↔ window.locksFrom ≤ log.block)

section Counting

/-- What a report is about is what the scans ask for from the start of the window on. -/
theorem ReportWindow.counts_iff {log : RpcLog} : window.counts contract log = true ↔
    window.asksFor contract log = true ∧ window.locksFrom ≤ log.block := by
  cases tells : log.event with
  | none =>
      simp [counts, asksFor, attempts, outcomes, Filter.asksFor, tells]
  | some event =>
      simp only [counts, asksFor, attempts, outcomes, spanEnd, Filter.asksFor, tells,
        decide_eq_true_eq, Option.all_some, Option.any_some]
      by_cases mine : log.address = contract
      · cases kind : event.kind with
        | Locked =>
            simp [mine]
            omega
        | Claimed =>
            simp [mine]
            omega
        | Refunded =>
            simp [mine]
            omega
      · simp [mine]

/-- The scans ask for events of the contract. -/
theorem ReportWindow.asksFor_event {log : RpcLog} (asked : window.asksFor contract log = true) :
    log.address = contract ∧ ∃ event, log.event = some event := by
  simp only [asksFor, attempts, outcomes, Filter.asksFor_iff, decide_eq_true_eq, Option.all_some] at asked
  cases tells : log.event with
  | none => simp [tells] at asked
  | some event =>
      rcases asked with ⟨mine, -⟩ | ⟨mine, -⟩ <;> exact ⟨mine, event, rfl⟩

theorem foldl_ingestLog (logs : List RpcLog) (tally : SwapTally) :
    logs.foldl ingestLog tally = (logs.filterMap (·.event)).foldl SwapTally.ingest tally := by
  induction logs generalizing tally with
  | nil => rfl
  | cons log rest ih =>
      rw [List.foldl_cons, ih, List.filterMap_cons]
      cases event : log.event <;> simp [ingestLog, event]

/-- The tally has taken in an event of the kind and the swap of another. -/
def SwapTally.Knows (tally : SwapTally) : Log → Prop
  | .Locked swapId .. => swapId ∈ tally.locks
  | .Claimed swapId _ => swapId ∈ tally.claimed
  | .Refunded swapId => swapId ∈ tally.refunded

theorem knows_foldl {logs : List Log} {event : Log} :
    (logs.foldl SwapTally.ingest .new).Knows event ↔
      ∃ log ∈ logs, log.kind = event.kind ∧ log.swapId = event.swapId := by
  cases event with
  | Locked swapId =>
      simp only [SwapTally.Knows, Std.ExtTreeMap.mem_iff_isSome_getElem?, locks_foldl, SwapTally.new,
        Std.ExtTreeMap.getElem?_empty, Option.none_or, List.find?_isSome, List.mem_filterMap,
        decide_eq_true_eq]
      constructor
      · rintro ⟨row, ⟨log, member, tells⟩, same⟩
        obtain ⟨kind, named⟩ := Log.row?_eq_some tells
        exact ⟨log, member, kind, named.trans same⟩
      · rintro ⟨log, member, kind, same⟩
        obtain ⟨row, tells⟩ := Log.exists_row? kind
        exact ⟨row, ⟨log, member, tells⟩, (Log.row?_eq_some tells).2.symm.trans same⟩
  | Claimed swapId =>
      simp only [SwapTally.Knows, mem_claimed_foldl]
      constructor
      · rintro (none | ⟨preimage, member⟩)
        · simp [SwapTally.new] at none
        · exact ⟨_, member, rfl, rfl⟩
      · rintro ⟨log, member, kind, same⟩
        cases log with
        | Claimed other preimage =>
            obtain rfl := same
            exact .inr ⟨preimage, member⟩
        | Locked | Refunded => cases kind
  | Refunded swapId =>
      simp only [SwapTally.Knows, mem_refunded_foldl]
      constructor
      · rintro (none | member)
        · simp [SwapTally.new] at none
        · exact ⟨_, member, rfl, rfl⟩
      · rintro ⟨log, member, kind, same⟩
        cases log with
        | Refunded other =>
            obtain rfl := same
            exact .inr member
        | Locked | Claimed => cases kind

/-- A list of logs of the contract. -/
def Ledger.Lists (ledger : Ledger contract) (logs : List RpcLog) : Prop :=
  ∀ log ∈ logs, log ∈ ledger.logs ∧ log.address = contract

/-- The tally of some logs of the contract tells which logs they are. -/
theorem Ledger.knows_iff {done : List RpcLog} {log : RpcLog} {event : Log} (lists : ledger.Lists done)
    (there : log ∈ ledger.logs) (mine : log.address = contract) (tells : log.event = some event) :
    (done.foldl ingestLog .new).Knows event ↔ log ∈ done := by
  rw [foldl_ingestLog, knows_foldl]
  constructor
  · rintro ⟨event', member, kind, same⟩
    obtain ⟨log', member', tells'⟩ := List.mem_filterMap.mp member
    obtain ⟨there', mine'⟩ := lists log' member'
    have equal := ledger.single log' there' log there mine' mine event' event tells' tells kind same
    exact equal ▸ member'
  · exact fun member => ⟨event, List.mem_filterMap.mpr ⟨log, member, tells⟩, rfl, rfl⟩

theorem Ledger.consistent {done : List RpcLog} (lists : ledger.Lists done) :
    Consistent (done.filterMap (·.event)) := by
  intro first here second there row row' tells tells' same
  obtain ⟨log, member, event⟩ := List.mem_filterMap.mp here
  obtain ⟨log', member', event'⟩ := List.mem_filterMap.mp there
  obtain ⟨listed, mine⟩ := lists log member
  obtain ⟨listed', mine'⟩ := lists log' member'
  obtain ⟨kind, named⟩ := Log.row?_eq_some tells
  obtain ⟨kind', named'⟩ := Log.row?_eq_some tells'
  obtain rfl := ledger.single log listed log' listed' mine mine' first second event event'
    (kind.trans kind'.symm) (by rw [named, named', same])
  obtain rfl := Option.some.inj (event.symm.trans event')
  exact Option.some.inj (tells.symm.trans tells')

end Counting

section Sound

theorem Canary.At.anchored {chain : List RpcLog} {canary : Canary} {block : Nat} {backend : Backend}
    (at_ : canary.At block) (scores : canary.expected ≤ (backend.logs chain canary.filter).length) :
    backend.Holds block ∧ ∃ log ∈ chain, log.block = block := by
  obtain ⟨⟨anchor, filter⟩, positive⟩ := at_
  rw [filter] at scores
  obtain ⟨log, member⟩ := List.exists_mem_of_length_pos (positive.trans_le scores)
  simp only [Backend.logs, Filter.asksFor_iff, List.mem_filter, decide_eq_true_eq] at member
  obtain ⟨there, holds, -, -, first, last⟩ := member
  obtain rfl : log.block = block := by omega
  exact ⟨holds, log, there, rfl⟩

/-- A backend that corroborates anchored probes is anchored at both ends. -/
theorem probeCanaries_anchored {fuel fromBlock toBlock : Nat} {canaries : List Canary}
    (execution : Execution (endpoint ledger pool) (probeCanaries fuel fromBlock toBlock).run world
      entries (.ok (.Anchored canaries)) ()) {backend : Backend}
    (corroborates : backend.Corroborates ledger.logs canaries) :
    backend.AnchoredIn ledger.logs (forwardWalk fromBlock toBlock) ∧
      backend.AnchoredIn ledger.logs (backwardWalk fromBlock toBlock) := by
  unfold probeCanaries at execution
  obtain ⟨_, _, oldest, _, rfl, first, rest⟩ := execution.run_bind
  match oldest, first, rest with
  | .error error, _, rest => cases rest.2
  | .ok oldest, first, rest =>
      obtain ⟨_, _, newest, _, rfl, second, final⟩ := rest.run_bind
      match newest, second, final with
      | .error error, _, final => cases final.2
      | .ok newest, second, final =>
          have joined := Except.ok.inj final.run_pure.2.1.symm
          match oldest, newest, first, second, joined with
          | .Anchored a, .Anchored b, first, second, joined =>
              obtain ⟨start, ahead, at_⟩ := anchorIn_anchored first
              obtain ⟨finish, behind, at'⟩ := anchorIn_anchored second
              obtain rfl := Anchoring.Anchored.inj joined
              have both : a.expected ≤ (backend.logs ledger.logs a.filter).length ∧
                  (b.expected ≤ (backend.logs ledger.logs b.filter).length ∨ a.filter = b.filter) := by
                by_cases same : a.filter = b.filter
                · simp only [List.any_cons, same, decide_true, Bool.true_or, if_true] at corroborates
                  exact ⟨corroborates a List.mem_cons_self, .inr same⟩
                · simp only [List.any_cons, List.any_nil, same, decide_false, Bool.or_false,
                    Bool.false_eq_true, if_false] at corroborates
                  exact ⟨corroborates a List.mem_cons_self, .inl (corroborates b (by simp))⟩
              refine ⟨⟨start, ahead, at_.anchored both.1⟩, finish, behind, ?_⟩
              rcases both.2 with scores | same
              · exact at'.anchored scores
              · -- one canary stands for both ends, at the block where the walks have met
                have shared : a.At finish := ⟨same ▸ at'.1, at_.2⟩
                exact shared.anchored both.1

/-- Only anchors at both ends corroborate. -/
theorem scanDecision_corroborated {anchoring : Anchoring} {allowUncorroborated : Bool}
    (corroborated : scanDecision anchoring allowUncorroborated = .Corroborated) :
    ∃ canaries, anchoring = .Anchored canaries := by
  cases anchoring with
  | Anchored canaries => exact ⟨canaries, rfl⟩
  | PartiallyAnchored | Unanchored =>
      simp only [scanDecision] at corroborated
      split at corroborated
      · cases corroborated
      · split at corroborated <;> cases corroborated

section Views

variable {view : RpcLog → Prop}

/-- The backends that corroborate a scan agree with the view on what the scan asks for. -/
theorem agree_anchored {fuel : Nat} {anchoring : Anchoring} {allowUncorroborated : Bool}
    (agree : ∀ backend ∈ pool, backend.Anchored ledger.logs window → ∀ log ∈ ledger.logs,
      window.asksFor contract log = true → (backend.Holds log.block ↔ view log))
    (probing : Execution (endpoint ledger pool)
      (probeCanaries fuel window.locksFrom window.spanEnd).run world entries (.ok anchoring) ())
    (corroborated : scanDecision anchoring allowUncorroborated = .Corroborated) (filter : Filter)
    (asked : ∀ log, filter.asksFor log = true →
      (window.attempts contract).asksFor log = true ∨ (window.outcomes contract).asksFor log = true) :
    Agree ledger pool anchoring.canaries filter view := by
  obtain ⟨canaries, rfl⟩ := scanDecision_corroborated corroborated
  intro backend member corroborates log there asks
  exact agree backend member (probeCanaries_anchored probing corroborates) log there
    (by simpa [ReportWindow.asksFor] using asked log asks)

/-- Without outcomes after the attempt window there is nothing more to take in. -/
theorem ingested_nothing {tally : SwapTally} (none : window.outcomesTo ≤ window.locksTo) :
    Ingested ledger (window.outcomes contract) view tally tally := by
  refine ⟨[], rfl, fun log => ?_⟩
  constructor
  · simp
  · rintro ⟨-, asked, -⟩
    rw [Filter.asksFor_iff] at asked
    obtain ⟨-, -, first, last⟩ := asked
    simp only [ReportWindow.outcomes] at first last
    omega

theorem ingested_both {middle tally : SwapTally}
    (first : Ingested ledger (window.attempts contract) view .new middle)
    (second : Ingested ledger (window.outcomes contract) view middle tally) :
    ∃ done : List RpcLog, tally = done.foldl ingestLog .new ∧
      ∀ log, log ∈ done ↔
        log ∈ ledger.logs ∧ window.asksFor contract log = true ∧ view log := by
  obtain ⟨attempts, rfl, members⟩ := first
  obtain ⟨outcomes, rfl, members'⟩ := second
  refine ⟨attempts ++ outcomes, List.foldl_append.symm, fun log => ?_⟩
  simp only [List.mem_append, members, members', ReportWindow.asksFor, decide_eq_true_eq]
  constructor
  · rintro (⟨there, asked, seen⟩ | ⟨there, asked, seen⟩)
    · exact ⟨there, .inl asked, seen⟩
    · exact ⟨there, .inr asked, seen⟩
  · rintro ⟨there, asked | asked, seen⟩
    · exact .inl ⟨there, asked, seen⟩
    · exact .inr ⟨there, asked, seen⟩

end Views

/-- What the scans take in, where all anchored backends show the same of what they ask for. -/
theorem collectTally_ingests {fuel chunk : Nat} {allowUncorroborated : Bool} {tally : SwapTally}
    {view : RpcLog → Prop} (filled : window.locksFrom ≤ window.spanEnd)
    (agree : ∀ backend ∈ pool, backend.Anchored ledger.logs window → ∀ log ∈ ledger.logs,
      window.asksFor contract log = true → (backend.Holds log.block ↔ view log))
    (execution : Execution (endpoint ledger pool)
      (collectTally fuel contract window chunk allowUncorroborated).run world entries
      (.ok ⟨tally, true⟩) ()) :
    ∃ done : List RpcLog, tally = done.foldl ingestLog .new ∧
      ∀ log, log ∈ done ↔
        log ∈ ledger.logs ∧ window.asksFor contract log = true ∧ view log := by
  unfold collectTally at execution
  have entered : ¬ max window.outcomesTo window.locksTo < window.locksFrom := not_lt.mpr filled
  simp only [entered, if_false] at execution
  obtain ⟨_, _, anchoring, _, rfl, probing, rest⟩ := execution.run_bind
  match anchoring, probing, rest with
  | .error error, _, rest => cases rest.2
  | .ok anchoring, probing, rest =>
      simp only at rest
      split at rest
      · cases rest
      · obtain ⟨_, _, attempts, _, rfl, first, rest⟩ := rest.run_bind
        match attempts, first, rest with
        | .error error, _, rest => cases rest.2
        | .ok attempts, first, rest =>
            simp only at rest
            split at rest
            · rename_i later
              obtain ⟨_, _, outcomes, _, rfl, second, final⟩ := rest.run_bind
              match outcomes, second, final with
              | .error error, _, final => cases final.2
              | .ok outcomes, second, final =>
                  obtain ⟨rfl, corroborated⟩ := Scan.mk.inj (Except.ok.inj final.run_pure.2.1)
                  have agreeing := agree_anchored agree probing (by simpa using corroborated.symm)
                  exact ingested_both (scanRange_ingests (agreeing _ fun _ => .inl) first)
                    (scanRange_ingests (agreeing _ fun _ => .inr) second)
            · rename_i none
              obtain ⟨_, _, outcomes, _, rfl, second, final⟩ := rest.run_bind
              obtain ⟨-, rfl, -⟩ := second.run_pure
              obtain ⟨rfl, corroborated⟩ := Scan.mk.inj (Except.ok.inj final.run_pure.2.1)
              have agreeing := agree_anchored agree probing (by simpa using corroborated.symm)
              exact ingested_both (scanRange_ingests (agreeing _ fun _ => .inl) first)
                (ingested_nothing (not_lt.mp none))

/-- Lists of the same logs of the contract have the same tally. -/
theorem Ledger.tally_eq {done other : List RpcLog} (lists : ledger.Lists done)
    (same : ∀ log, log ∈ done ↔ log ∈ other) :
    done.foldl ingestLog .new = other.foldl ingestLog .new := by
  rw [foldl_ingestLog, foldl_ingestLog]
  apply tally_eq_of_same_logs (ledger.consistent lists)
  intro event
  simp only [List.mem_filterMap, same]

/-- The logs that a report is about are of the contract. -/
theorem ReportWindow.lists_counts : ledger.Lists (ledger.logs.filter (window.counts contract)) := by
  intro log member
  obtain ⟨there, counted⟩ := List.mem_filter.mp member
  simp only [counts, decide_eq_true_eq] at counted
  exact ⟨there, counted.1⟩

theorem complete_of_covered {chunk : Nat} {allowUncorroborated : Bool}
    (covered : Covered ledger pool window) : Complete ledger pool window chunk allowUncorroborated := by
  intro fuel entries tally execution
  by_cases filled : window.locksFrom ≤ window.spanEnd
  · obtain ⟨done, rfl, members⟩ := collectTally_ingests filled covered execution
    have same : ∀ log, log ∈ ledger.logs.filter (window.counts contract) ↔ log ∈ done := by
      intro log
      rw [List.mem_filter, members, ReportWindow.counts_iff]
    exact (ledger.tally_eq ReportWindow.lists_counts same).symm
  · have empty : max window.outcomesTo window.locksTo < window.locksFrom := not_le.mp filled
    unfold collectTally at execution
    simp only [empty, if_true] at execution
    obtain ⟨rfl, -⟩ := Scan.mk.inj (Except.ok.inj execution.run_pure.2.1)
    have none : ledger.logs.filter (window.counts contract) = [] := by
      apply List.filter_eq_nil_iff.mpr
      intro log _ counted
      obtain ⟨asked, after⟩ := ReportWindow.counts_iff.mp counted
      simp only [ReportWindow.asksFor, ReportWindow.attempts, ReportWindow.outcomes,
        Filter.asksFor_iff, decide_eq_true_eq] at asked
      omega
    rw [none]
    rfl

end Sound

/-- The endpoint of one backend. -/
abbrev alone (ledger : Ledger contract) (backend : Backend) : Environment Report Unit :=
  endpoint ledger {backend}

section Run

variable {backend : Backend} {canaries : List Canary} {filter : Filter}

/-- A backend on its own answers with what it has. -/
theorem alone_answers : (alone ledger backend).perform (.getLogs filter) ()
    (.ok (backend.logs ledger.logs filter)) () := by
  intro logs answer
  exact ⟨backend, rfl, fun _ same => (Except.ok.inj (answer.trans same)).symm⟩

/-- The probe of a block. -/
def probe (block : Nat) : Filter := ⟨none, [], block, block⟩

/-- The attempts at a block that shows no logs come to an end. -/
theorem probe_misses {block left : Nat} (state : ProbeState)
    (some : state.attempt + left = CANARY_PROBE_ATTEMPTS)
    (empty : backend.logs ledger.logs (probe block) = []) (fuel : Nat) :
    ∃ entries miss, Execution (alone ledger backend)
      (iterate (probeTurn block) (left + 1 + fuel) state).run () entries (.ok (.inl miss)) () := by
  induction left generalizing state with
  | zero =>
      have past : Execution (alone ledger backend) (probeTurn block state).run () []
          (.ok (.inr (.inl state.miss))) () := by
        unfold probeTurn
        rw [if_neg (by omega)]
        exact .done
      rw [show 0 + 1 + fuel = fuel + 1 by omega]
      exact ⟨_, _, Execution.iterate_last past⟩
  | succ left ih =>
      have turn : ∃ entries, Execution (alone ledger backend) (probeTurn block state).run () entries
          (.ok (.inl state.empty)) () := by
        unfold probeTurn
        rw [if_pos (by omega)]
        have answer : (alone ledger backend).perform (.getLogs (probe block)) () _ () := alone_answers
        rw [empty] at answer
        exact ⟨_, .step .refl answer .done⟩
      obtain ⟨_, turn⟩ := turn
      obtain ⟨_, miss, rest⟩ := ih state.empty (by simp only [ProbeState.empty]; omega)
      rw [show left + 1 + 1 + fuel = (left + 1 + fuel) + 1 by omega]
      exact ⟨_, miss, Execution.iterate_next turn rest⟩

/-- A block that shows logs is anchored on. -/
theorem probe_hits {block : Nat} (state : ProbeState) (more : state.attempt < CANARY_PROBE_ATTEMPTS)
    (found : backend.logs ledger.logs (probe block) ≠ []) (fuel : Nat) :
    ∃ entries canary, Execution (alone ledger backend)
      (iterate (probeTurn block) (fuel + 1) state).run () entries (.ok (.inr canary)) () ∧
      canary.expected ≤ (backend.logs ledger.logs canary.filter).length := by
  obtain ⟨log, logs, shown⟩ := List.exists_cons_of_ne_nil found
  obtain ⟨anchor, expected, least⟩ := @leastLogged_isSome logs log
  have turn : ∃ entries, Execution (alone ledger backend) (probeTurn block state).run () entries
      (.ok (.inr (.inr ⟨⟨some anchor, [], block, block⟩, expected⟩))) () := by
    unfold probeTurn
    rw [if_pos more]
    have answer : (alone ledger backend).perform (.getLogs (probe block)) () _ () := alone_answers
    rw [shown] at answer
    have asked : Execution (alone ledger backend)
        (request (I := Report) (ReportOp.getLogs (probe block)) : ReportM _).run () [_]
        (.ok (.ok (log :: logs))) () := .step .refl answer .done
    refine ⟨[_] ++ [], Execution.run_and_then asked ?_⟩
    simp only [least]
    exact .done
  obtain ⟨_, turn⟩ := turn
  refine ⟨_, _, Execution.iterate_last turn, ?_⟩
  rw [(leastLogged_counts least).1, ← shown, List.countP_eq_length_filter]
  simp only [Backend.logs, List.filter_filter]
  refine (List.monotone_filter_right _ fun log kept => ?_).length_le
  simp only [Bool.and_eq_true, decide_eq_true_eq, Filter.asksFor_iff, probe] at kept ⊢
  obtain ⟨mine, holds, -, -, first, last⟩ := kept
  exact ⟨holds, by simp [mine], .inl trivial, first, last⟩

/-- A walk over blocks one of which shows logs ends at an anchor. -/
theorem anchorIn_runs {block : Nat} {candidates : List Nat} (miss : ProbeMiss)
    (member : block ∈ candidates) (found : backend.logs ledger.logs (probe block) ≠ []) (fuel : Nat) :
    ∃ entries canary, Execution (alone ledger backend) (anchorIn (6 + fuel) candidates miss).run ()
      entries (.ok (.Anchored canary)) () ∧
      canary.expected ≤ (backend.logs ledger.logs canary.filter).length := by
  induction candidates generalizing miss with
  | nil => cases member
  | cons candidate candidates ih =>
      by_cases empty : backend.logs ledger.logs (probe candidate) = []
      · have later : block ∈ candidates := by
          rcases List.mem_cons.mp member with rfl | later
          · exact absurd empty found
          · exact later
        obtain ⟨_, miss', missed⟩ := probe_misses ⟨0, 0, miss⟩ (Nat.zero_add 5) empty fuel
        obtain ⟨_, canary, rest, scores⟩ := ih miss' later
        exact ⟨_, canary, Execution.run_and_then missed rest, scores⟩
      · obtain ⟨_, canary, hit, scores⟩ :=
          probe_hits ⟨0, 0, miss⟩ (Nat.zero_lt_succ 4) empty (5 + fuel)
        rw [show 5 + fuel + 1 = 6 + fuel by omega] at hit
        exact ⟨_, canary, Execution.run_and_then hit .done, scores⟩

/-- What the backend has for the canaries. -/
def Backend.results (chain : List RpcLog) (canaries : List Canary) (backend : Backend) :
    List LogsResult := canaries.map fun canary => .ok (backend.logs chain canary.filter)

theorem answers_results (chain : List RpcLog) (canaries : List Canary) (backend : Backend) :
    List.Forall₂ (backend.Answers chain) (canaries.map (·.filter)) (backend.results chain canaries) := by
  induction canaries with
  | nil => exact .nil
  | cons canary canaries ih => exact .cons (fun _ same => (Except.ok.inj same).symm) ih

theorem scores_results {chain : List RpcLog} (corroborates : backend.Corroborates chain canaries) :
    isCorroborated (scores (backend.results chain canaries) canaries) = true := by
  induction canaries with
  | nil => rfl
  | cons canary canaries ih =>
      simp only [Backend.results, scores, isCorroborated, List.map_cons, List.zip_cons_cons,
        List.all_cons, Bool.and_eq_true, decide_eq_true_eq]
      exact ⟨corroborates canary List.mem_cons_self,
        ih fun other member => corroborates other (List.mem_cons_of_mem _ member)⟩

/-- The backend corroborates what it has by canaries that it holds. -/
theorem corroboratedGetLogs_runs (corroborates : backend.Corroborates ledger.logs canaries) :
    ∃ entries, Execution (alone ledger backend) (corroboratedGetLogs filter canaries).run () entries
      (.ok (some (backend.logs ledger.logs filter))) () := by
  unfold corroboratedGetLogs
  by_cases bare : canaries = []
  · rw [if_pos bare]
    exact ⟨_, .step .refl alone_answers .done⟩
  · rw [if_neg bare]
    have answer : (alone ledger backend).perform (.batch filter (canaries.map (·.filter))) ()
        (.ok (.ok (backend.logs ledger.logs filter), backend.results ledger.logs canaries)) () := by
      intro result results same
      obtain ⟨rfl, rfl⟩ := Prod.mk.inj (Except.ok.inj same)
      exact ⟨backend, rfl, fun _ same => (Except.ok.inj same).symm, answers_results _ _ _⟩
    have rest : Execution (alone ledger backend)
        (pure (if isCorroborated (scores (backend.results ledger.logs canaries) canaries) then
          some (backend.logs ledger.logs filter) else none) : ReportM (Option (List RpcLog))).run ()
        [] (.ok (some (backend.logs ledger.logs filter))) () := by
      rw [scores_results corroborates]
      exact .done
    exact ⟨_, .step .refl answer rest⟩

theorem fetchSpan_runs (corroborates : backend.Corroborates ledger.logs canaries) (attempts : Nat) :
    ∃ entries, Execution (alone ledger backend) (fetchSpan filter canaries (attempts + 1)).run ()
      entries (.ok (.ok (some (backend.logs ledger.logs filter)))) () := by
  obtain ⟨_, answered⟩ := @corroboratedGetLogs_runs _ ledger backend canaries filter corroborates
  have tried := Execution.run_attempt_iff.mpr ⟨_, rfl, answered⟩
  exact ⟨_, Execution.run_and_then tried .done⟩

/-- A scan of a range runs to its end. -/
theorem range_runs {address : Address} {toBlock : Nat} {topics : List EventKind}
    (corroborates : backend.Corroborates ledger.logs canaries) {state : RangeState} {fuel : Nat}
    (enough : state.spans.length < fuel) :
    ∃ entries after, Execution (alone ledger backend)
      (iterate (rangeTurn address toBlock topics canaries) fuel state).run () entries (.ok after) () := by
  obtain ⟨chunk, spans, retries, tally⟩ := state
  induction spans generalizing retries tally fuel with
  | nil =>
      obtain ⟨fuel, rfl⟩ := Nat.exists_eq_add_one.mpr (Nat.zero_lt_of_lt enough)
      exact ⟨_, tally, Execution.iterate_last .done⟩
  | cons span spans ih =>
      obtain ⟨fuel, rfl⟩ := Nat.exists_eq_add_one.mpr (Nat.zero_lt_of_lt enough)
      obtain ⟨cursor, finish⟩ := span
      have turn : ∃ entries, Execution (alone ledger backend)
          (rangeTurn address toBlock topics canaries ⟨chunk, (cursor, finish) :: spans, retries, tally⟩).run
          () entries (.ok (.inl ⟨chunk, spans, 0,
            (backend.logs ledger.logs ⟨some address, topics, cursor, finish⟩).foldl ingestLog tally⟩))
          () := by
        obtain ⟨_, fetched⟩ := fetchSpan_runs corroborates 5
        exact ⟨_, Execution.run_and_then fetched .done⟩
      obtain ⟨_, turn⟩ := turn
      obtain ⟨_, after, rest⟩ := ih 0 _ (by simpa using enough)
      exact ⟨_, after, Execution.iterate_next turn rest⟩

/-- A block in which a backend is anchored shows logs. -/
theorem shows_logs {block : Nat} (holds : backend.Holds block)
    (some : ∃ log ∈ ledger.logs, log.block = block) :
    backend.logs ledger.logs (probe block) ≠ [] := by
  obtain ⟨log, there, rfl⟩ := some
  apply List.ne_nil_of_mem (a := log)
  simp [Backend.logs, Filter.asksFor_iff, probe, there, holds]

theorem probeCanaries_runs {fromBlock toBlock : Nat}
    (oldest : backend.AnchoredIn ledger.logs (forwardWalk fromBlock toBlock))
    (newest : backend.AnchoredIn ledger.logs (backwardWalk fromBlock toBlock)) (fuel : Nat) :
    ∃ entries canaries, Execution (alone ledger backend)
      (probeCanaries (6 + fuel) fromBlock toBlock).run () entries (.ok (.Anchored canaries)) () ∧
      backend.Corroborates ledger.logs canaries := by
  obtain ⟨block, member, holds, some⟩ := oldest
  obtain ⟨block', member', holds', some'⟩ := newest
  obtain ⟨_, a, first, scores⟩ := anchorIn_runs .default member (shows_logs holds some) fuel
  obtain ⟨_, b, second, scores'⟩ := anchorIn_runs .default member' (shows_logs holds' some') fuel
  refine ⟨_, _, Execution.run_and_then first (Execution.run_and_then second .done), ?_⟩
  intro canary canaries
  split at canaries
  · obtain rfl := List.mem_singleton.mp canaries
    exact scores
  · rcases List.mem_pair.mp canaries with rfl | rfl
    · exact scores
    · exact scores'

/-- A backend that is anchored at both ends can serve a corroborated report by itself. -/
theorem collectTally_runs {chunk : Nat} {allowUncorroborated : Bool}
    (anchored : backend.Anchored ledger.logs window) :
    window.locksFrom ≤ window.spanEnd ∧ ∃ fuel entries tally, Execution (alone ledger backend)
      (collectTally fuel contract window chunk allowUncorroborated).run () entries
      (.ok ⟨tally, true⟩) () := by
  have filled : window.locksFrom ≤ window.spanEnd := by
    obtain ⟨block, member, -⟩ := anchored.1
    have within := List.mem_range'_1.mp (List.mem_of_mem_take member)
    omega
  refine ⟨filled, ?_⟩
  have entered : ¬ max window.outcomesTo window.locksTo < window.locksFrom := not_lt.mpr filled
  let spans := (blockChunks window.locksFrom window.locksTo (max chunk 1)).length +
    (blockChunks (window.locksTo + 1) window.outcomesTo (max chunk 1)).length
  obtain ⟨_, canaries, probing, corroborates⟩ :=
    probeCanaries_runs anchored.1 anchored.2 (spans + 1)
  obtain ⟨_, attempts, first⟩ : ∃ entries after, Execution (alone ledger backend)
      (scanRange (6 + (spans + 1)) contract window.locksFrom window.locksTo
        [.Locked, .Claimed, .Refunded] chunk canaries .new).run () entries (.ok after) () :=
    range_runs corroborates (by simp only; omega)
  -- what is left after the first scan
  obtain ⟨_, outcomes, rest⟩ : ∃ entries tally, Execution (alone ledger backend)
      (if window.locksTo < window.outcomesTo then do
        let tally ← scanRange (6 + (spans + 1)) contract (window.locksTo + 1) window.outcomesTo
          [.Claimed, .Refunded] chunk canaries attempts
        return ⟨tally, true⟩
      else do
        let tally ← pure attempts
        return ⟨tally, true⟩ : ReportM Scan).run () entries (.ok ⟨tally, true⟩) () := by
    split
    · obtain ⟨_, outcomes, second⟩ : ∃ entries after, Execution (alone ledger backend)
          (scanRange (6 + (spans + 1)) contract (window.locksTo + 1) window.outcomesTo
            [.Claimed, .Refunded] chunk canaries attempts).run () entries (.ok after) () :=
        range_runs corroborates (by simp only; omega)
      exact ⟨_, outcomes, Execution.run_and_then second .done⟩
    · exact ⟨_, attempts, .done⟩
  have whole : ∃ entries, Execution (alone ledger backend)
      (collectTally (6 + (spans + 1)) contract window chunk allowUncorroborated).run () entries
      (.ok ⟨outcomes, true⟩) () := by
    unfold collectTally
    simp only [entered, if_false]
    exact ⟨_, Execution.run_and_then probing (Execution.run_and_then first rest)⟩
  obtain ⟨_, whole⟩ := whole
  exact ⟨_, _, outcomes, whole⟩

end Run

/-- A run over some of the backends is a run over the pool. -/
theorem endpoint_mono {α : Type} {program : Program Report α} {result : α} {some : Set Backend}
    (subset : some ⊆ pool)
    (execution : Execution (endpoint ledger some) program world entries result ()) :
    Execution (endpoint ledger pool) program world entries result () := by
  refine execution.mono (fun (drifted : False) => drifted.elim) (fun {op _ answer _} answers => ?_)
  cases op with
  | getLogs filter =>
      intro logs same
      obtain ⟨backend, member, answered⟩ := answers logs same
      exact ⟨backend, subset member, answered⟩
  | batch subject probes =>
      intro result results same
      obtain ⟨backend, member, answered⟩ := answers result results same
      exact ⟨backend, subset member, answered⟩

/-- Without coverage some corroborated report is wrong. -/
theorem covered_of_complete {chunk : Nat} {allowUncorroborated : Bool}
    (complete : Complete ledger pool window chunk allowUncorroborated) : Covered ledger pool window := by
  intro backend member anchored log there asked
  obtain ⟨filled, fuel, entries, tally, execution⟩ :=
    @collectTally_runs _ ledger window backend chunk allowUncorroborated anchored
  have counted := complete fuel entries tally
    (endpoint_mono (Set.singleton_subset_iff.mpr member) execution)
  obtain ⟨done, rfl, members⟩ := collectTally_ingests filled
    (fun other only _ _ _ _ => by obtain rfl := Set.mem_singleton_iff.mp only; exact Iff.rfl) execution
  obtain ⟨mine, event, tells⟩ := ReportWindow.asksFor_event asked
  have lists : ledger.Lists done := by
    intro other taken
    obtain ⟨listed, asked, -⟩ := (members other).mp taken
    exact ⟨listed, (ReportWindow.asksFor_event asked).1⟩
  have known := ledger.knows_iff lists there mine tells
  rw [counted, ledger.knows_iff ReportWindow.lists_counts there mine tells, members, List.mem_filter,
    ReportWindow.counts_iff] at known
  simpa [there, asked] using known.symm

/-- Corroborated reports are complete exactly under coverage. -/
theorem complete_iff_covered {contract : Address} (ledger : Ledger contract) (pool : Set Backend)
    (window : ReportWindow) (chunk : Nat) (allowUncorroborated : Bool) :
    Complete ledger pool window chunk allowUncorroborated ↔ Covered ledger pool window :=
  ⟨covered_of_complete, complete_of_covered⟩

/-- A lock at block 100. -/
def testRpcLock : RpcLog :=
  ⟨Bytes.fill 20 3, 100, some (.Locked testHashlock (Bytes.fill 20 1) (Bytes.fill 20 2) 1
    testHashlock 601 testHashlock)⟩

/-- The lock, and logs of another contract at blocks 101 and 199. -/
def testLedger : Ledger (Bytes.fill 20 3) where
  logs := [testRpcLock, ⟨Bytes.fill 20 4, 101, none⟩, ⟨Bytes.fill 20 4, 199, none⟩]
  single := by
    have only : ∀ log ∈ [testRpcLock, ⟨Bytes.fill 20 4, 101, none⟩, ⟨Bytes.fill 20 4, 199, none⟩],
        log.address = Bytes.fill 20 3 → log = testRpcLock := by decide
    intro first member second member' mine mine' _ _ _ _ _ _
    rw [only first member mine, only second member' mine']

/-- A pool with a backend that has pruned the first block of the window: its probes of that
block come back empty, the oldest anchor moves on to the next block as the newest one moves back
to block 199, and a corroborated report may miss the lock. -/
theorem pruned_backend_incomplete :
    ¬ Complete testLedger {⟨0, 300⟩, ⟨101, 300⟩} ⟨100, 200, 200⟩ 10000 false := by
  intro complete
  have anchored : Backend.Anchored testLedger.logs ⟨100, 200, 200⟩ ⟨101, 300⟩ :=
    ⟨⟨101, by decide, by decide, _, List.mem_cons_of_mem _ List.mem_cons_self, rfl⟩, 199, by decide,
      by decide, _, List.mem_cons_of_mem _ (List.mem_cons_of_mem _ List.mem_cons_self), rfl⟩
  have covered := covered_of_complete complete ⟨101, 300⟩ (by simp) anchored _ List.mem_cons_self
    (by decide)
  exact absurd covered (by decide)

end AtomicSwaps.Eth
