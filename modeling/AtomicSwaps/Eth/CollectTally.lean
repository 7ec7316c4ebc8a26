import AtomicSwaps.Eth.SwapTally
import AtomicSwaps.Semantics.Interaction
import AtomicSwaps.Swap.Types

/-!
# The scan of a chain report

`collect_tally` of `src/eth/report.rs`: both ends of the window are probed for blocks
with logs, and every chunk of the scan goes out in one batch with a canary for each
anchor found, so that an endpoint that does not hold those blocks is told apart. The
waiting between requests is left out.
-/

namespace AtomicSwaps.Eth

open Semantics Program

/-- `MIN_CHUNK_BLOCKS`. -/
def MIN_CHUNK_BLOCKS : Nat := 1000

/-- `MAX_RATE_LIMIT_RETRIES`. -/
def MAX_RATE_LIMIT_RETRIES : Nat := 6

/-- `CANARY_PROBE_BLOCKS`. -/
def CANARY_PROBE_BLOCKS : Nat := 16

/-- `CANARY_PROBE_ATTEMPTS`. -/
def CANARY_PROBE_ATTEMPTS : Nat := 5

/-- `CANARY_RATE_LIMIT_RETRIES`. -/
def CANARY_RATE_LIMIT_RETRIES : Nat := 3

/-- `MAX_CORROBORATION_ATTEMPTS`. -/
def MAX_CORROBORATION_ATTEMPTS : Nat := 6

/-- `RpcFailure`. -/
inductive RpcFailure where
  | RateLimited
  | RangeTooWide
  | Other
deriving DecidableEq

/-- The maximal alphanumeric runs of a text, each with the character before it. -/
def alphanumericRuns (before : Option Char) (run : List Char) :
    List Char → List (Option Char × List Char)
  | [] => if run = [] then [] else [(before, run)]
  | char :: rest =>
      if char.isAlphanum then alphanumericRuns before (run ++ [char]) rest
      else (if run = [] then [] else [(before, run)]) ++ alphanumericRuns (some char) [] rest

/-- `mentions_number`. -/
def mentionsNumber (text token : String) : Bool :=
  let (signed, digits) := match token.toList with
    | '-' :: rest => (true, rest)
    | digits => (false, digits)
  (alphanumericRuns none [] text.toList).any fun (before, run) =>
    ((before = some '-') = signed) ∧ run = digits

/-- `str::contains`. -/
def containsText (text part : String) : Bool := text.toList.tails.any (part.toList.isPrefixOf ·)

/-- `classify_rpc_failure`. -/
def classifyRpcFailure (message : String) : RpcFailure :=
  let m := message.toLower
  if containsText m "rate limit" ∨ containsText m "ratelimit" ∨
      containsText m "too many requests" ∨ mentionsNumber m "429" ∨ mentionsNumber m "-32005" then
    .RateLimited
  else if containsText m "block range" ∨ containsText m "range too" ∨
      containsText m "query returned more than" ∨ containsText m "too many results" ∨
      containsText m "log response size" ∨ containsText m "exceed maximum block range" then
    .RangeTooWide
  else .Other

/-- `block_chunks`; the last block is a `u64`, so that no sum is past it. -/
def blockChunks (fromBlock toBlock chunk : Nat) : List (Nat × Nat) :=
  if fromBlock ≤ toBlock then
    let finish := min (fromBlock + (max chunk 1 - 1)) toBlock
    (fromBlock, finish) :: blockChunks (finish + 1) toBlock chunk
  else []
termination_by toBlock + 1 - fromBlock

/-- `ReportWindow`. -/
structure ReportWindow where
  locksFrom : Nat
  locksTo : Nat
  outcomesTo : Nat

/-- A log as the endpoint returns it, with the contract's event that it encodes. -/
structure RpcLog where
  address : Address
  block : Nat
  event : Option Log
deriving DecidableEq

/-- `Filter`: without an address or topics it asks for all. -/
structure Filter where
  address : Option Address
  topics : List EventKind
  fromBlock : Nat
  toBlock : Nat
deriving DecidableEq

/-- The logs a filter asks for. -/
def Filter.asksFor (filter : Filter) (log : RpcLog) : Bool :=
  filter.address.all (log.address = ·) ∧
    (filter.topics = [] ∨ log.event.any fun event => event.kind ∈ filter.topics) ∧
    filter.fromBlock ≤ log.block ∧ log.block ≤ filter.toBlock

/-- `Canary`. -/
structure Canary where
  filter : Filter
  expected : Nat
deriving DecidableEq

/-- `is_corroborated`. -/
def isCorroborated (canaries : List (Nat × Nat)) : Bool :=
  canaries.all fun (observed, expected) => expected ≤ observed

/-- `ScanEnd`. -/
inductive ScanEnd where
  | Oldest
  | Newest
deriving DecidableEq

/-- `ScanEnd::label`. -/
def ScanEnd.label : ScanEnd → String
  | .Oldest => "oldest"
  | .Newest => "newest"

/-- `ScanEnd::opposite`. -/
def ScanEnd.opposite : ScanEnd → ScanEnd
  | .Oldest => .Newest
  | .Newest => .Oldest

/-- `ProbeMiss`. -/
structure ProbeMiss where
  emptyResponses : Nat
  rateLimited : Nat
  failedRequests : Nat
  lastError : Option String
deriving DecidableEq

/-- `ProbeMiss::default`. -/
def ProbeMiss.default : ProbeMiss := ⟨0, 0, 0, none⟩

/-- `ProbeMiss::answered_successfully`. -/
def ProbeMiss.answeredSuccessfully (miss : ProbeMiss) : Bool := 0 < miss.emptyResponses

/-- `ProbeMiss::never_answered`. -/
def ProbeMiss.neverAnswered (miss : ProbeMiss) : Bool := ¬ miss.answeredSuccessfully

/-- `ProbeMiss::describe`. -/
def ProbeMiss.describe (miss : ProbeMiss) : String :=
  let empties := if 0 < miss.emptyResponses then
    [s!"{miss.emptyResponses} probe requests came back with an empty log list"] else []
  let limited := if 0 < miss.rateLimited then [s!"{miss.rateLimited} were rate-limited"] else []
  let last := miss.lastError.getD "unknown"
  let failed := if 0 < miss.failedRequests then
    if empties ++ limited = [] then
      [s!"all {miss.failedRequests} probe requests failed (last error: {last})"]
    else [s!"{miss.failedRequests} failed (last error: {last})"]
    else []
  match empties ++ limited ++ failed with
  | [] => "no probe request was made"
  | [part] => part
  | parts =>
      let listed := ", ".intercalate parts.dropLast
      let tail := parts.getLastD ""
      s!"{listed} and {tail}"

/-- `ProbeOutcome`. -/
inductive ProbeOutcome where
  | Anchored (canary : Canary)
  | Missed (miss : ProbeMiss)
deriving DecidableEq

/-- `Anchoring`. -/
inductive Anchoring where
  | Anchored (canaries : List Canary)
  | PartiallyAnchored (anchored : Canary) (missing : ScanEnd) (miss : ProbeMiss)
  | Unanchored (oldest newest : ProbeMiss)
deriving DecidableEq

/-- `Anchoring::canaries`. -/
def Anchoring.canaries : Anchoring → List Canary
  | .Anchored canaries => canaries
  | .PartiallyAnchored anchored _ _ => [anchored]
  | .Unanchored _ _ => []

/-- `Anchoring::unanswered_ends`. -/
def Anchoring.unansweredEnds (anchoring : Anchoring) : List (ScanEnd × ProbeMiss) :=
  let ends := match anchoring with
    | .Anchored _ => []
    | .PartiallyAnchored _ missing miss => [(missing, miss)]
    | .Unanchored oldest newest => [(ScanEnd.Oldest, oldest), (ScanEnd.Newest, newest)]
  ends.filter fun (_, miss) => miss.neverAnswered

/-- `ScanDecision`. -/
inductive ScanDecision where
  | Corroborated
  | ProceedUnproven
  | Refuse
deriving DecidableEq

/-- `scan_decision`. -/
def scanDecision (anchoring : Anchoring) (allowUncorroborated : Bool) : ScanDecision :=
  match anchoring with
  | .Anchored _ => .Corroborated
  | _ =>
      if anchoring.unansweredEnds ≠ [] then .Refuse
      else if allowUncorroborated then .ProceedUnproven
      else .Refuse

/-- `refusal_message`. -/
def refusalMessage (fromBlock toBlock : Nat) (anchoring : Anchoring) : Option String :=
  let unanswered := anchoring.unansweredEnds
  if unanswered ≠ [] then
    let ends := " and ".intercalate (unanswered.map fun (scanEnd, _) => scanEnd.label)
    let detail := ", ".intercalate (unanswered.map fun (scanEnd, miss) =>
      "at the " ++ scanEnd.label ++ " end " ++ miss.describe)
    if unanswered.all fun (_, miss) => miss.failedRequests = 0 then
      some (s!"blocks {fromBlock}-{toBlock}: the RPC endpoint never answered an anchor probe at " ++
        s!"the {ends} end of this scan — it asked for fewer requests instead ({detail}). " ++
        "Nothing about the chain was established: not one probe came back with a log " ++
        "list, empty or otherwise, so there is nothing for --allow-uncorroborated to " ++
        "vouch for and it does not apply here. Wait for the throttle to clear and " ++
        "re-run, or narrow the window with --from-block/--since so the scan needs fewer " ++
        "probes.")
    else
      some (s!"blocks {fromBlock}-{toBlock}: the RPC endpoint did not answer a single anchor " ++
        s!"probe at the {ends} end of this scan — {detail}. Not one of those requests came back " ++
        "with a log list, so they produced no evidence in either direction, and this " ++
        "scan cannot be proven against a backend that would not reply. Reconnecting " ++
        "draws a different backend from the pool; if it keeps happening, point " ++
        "--eth-rpc-url at an endpoint that serves historical logs reliably, or narrow " ++
        "the window. --allow-uncorroborated cannot cover this: it asserts that a range " ++
        "of blocks holds no logs, which says nothing about an endpoint that failed to " ++
        "respond.")
  else match anchoring with
    | .Anchored _ => none
    | .PartiallyAnchored _ missing miss =>
        let missingEnd := missing.label
        let anchoredEnd := missing.opposite.label
        let detail := miss.describe
        some (s!"blocks {fromBlock}-{toBlock}: the {anchoredEnd} end of this scan anchored, but " ++
          s!"the {missingEnd} end did not — {detail}. That is ambiguous, and deliberately " ++
          "reported as such: those blocks may genuinely hold no logs, or this backend may " ++
          "not hold them, and an empty log list looks the same either way. Without an " ++
          "anchor at both ends nothing shows that its log index covers the whole scanned " ++
          "range, so no count is published by default. Reconnecting draws a different " ++
          s!"backend from the pool. If you know the {missingEnd} end of this range is " ++
          "genuinely log-free, pass --allow-uncorroborated to accept a count proven only " ++
          s!"at the {anchoredEnd} end.")
    | .Unanchored oldest newest =>
        let o := oldest.describe
        let n := newest.describe
        some (s!"blocks {fromBlock}-{toBlock}: neither end of this scan could be anchored — at " ++
          s!"the oldest end {o}, at the newest end {n} — so nothing shows that the RPC backend " ++
          "serving this connection holds these blocks' logs at all. That is ambiguous: a backend " ++
          "whose log index does not cover them answers with an empty list rather than an " ++
          "error, exactly as a genuinely log-free range does, so a count taken here could " ++
          "read zero on a busy venue. Point --eth-rpc-url at a full-history endpoint, or " ++
          "narrow the window to blocks it still retains. If this really is a chain with no " ++
          "logs to anchor on (a quiet localnet), pass --allow-uncorroborated to accept an " ++
          "unproven count.")

/-- What the provider is asked: one request, or a request batched with the canaries. -/
inductive ReportOp where
  | getLogs (filter : Filter)
  | batch (subject : Filter) (probes : List Filter)

/-- What a request returns. -/
abbrev LogsResult := Except String (List RpcLog)

/-- The provider. -/
def Report : Interface where
  Op := ReportOp
  Answer
    | .getLogs _ => LogsResult
    | .batch _ _ => Except String (LogsResult × List LogsResult)

/-- A fallible program over the provider. -/
abbrev ReportM := ExceptT SwapError (Program Report)

/-- The address that logged least, and how often. -/
def leastLogged (logs : List RpcLog) : Option (Address × Nat) :=
  let perAddress := logs.foldl (fun perAddress log =>
    perAddress.alter log.address fun count => some (count.getD 0 + 1))
    (∅ : Std.ExtTreeMap Address Nat)
  match perAddress.toList with
  | [] => none
  | first :: rest => some (rest.foldl (fun least entry =>
      if entry.2 < least.2 then entry else least) first)

/-- The variables of the probes of one block. -/
structure ProbeState where
  attempt : Nat
  rateLimitRetries : Nat
  miss : ProbeMiss

/-- A probe request failed. -/
def ProbeState.failed (state : ProbeState) (message : String) : ProbeState :=
  if classifyRpcFailure message = .RateLimited then
    let miss := { state.miss with rateLimited := state.miss.rateLimited + 1 }
    if state.rateLimitRetries < CANARY_RATE_LIMIT_RETRIES then
      { state with rateLimitRetries := state.rateLimitRetries + 1, miss }
    else { state with attempt := state.attempt + 1, miss }
  else
    { state with
      attempt := state.attempt + 1
      miss := { state.miss with
        failedRequests := state.miss.failedRequests + 1, lastError := some message } }

/-- A probe request came back empty. -/
def ProbeState.empty (state : ProbeState) : ProbeState :=
  { state with
    attempt := state.attempt + 1
    miss := { state.miss with emptyResponses := state.miss.emptyResponses + 1 } }

/-- One turn of the loop over the attempts at a block. -/
def probeTurn (block : Nat) (state : ProbeState) : ReportM (ProbeState ⊕ (ProbeMiss ⊕ Canary)) :=
  if state.attempt < CANARY_PROBE_ATTEMPTS then do
    match ← request (I := Report) (ReportOp.getLogs ⟨none, [], block, block⟩) with
    | .error message => return .inl (state.failed message)
    | .ok [] => return .inl state.empty
    | .ok (log :: logs) =>
        match leastLogged (log :: logs) with
        | some (anchor, expected) => return .inr (.inr ⟨⟨some anchor, [], block, block⟩, expected⟩)
        -- `expect` panics
        | none => ExceptT.mk .hang
  else return .inr (.inl state.miss)

variable (fuel : Nat)

/-- `anchor_in`, with what the probes before have met. -/
def anchorIn : List Nat → ProbeMiss → ReportM ProbeOutcome
  | [], miss => return .Missed miss
  | block :: candidates, miss => do
      match ← iterate (probeTurn block) fuel ⟨0, 0, miss⟩ with
      | .inl miss => anchorIn candidates miss
      | .inr canary => return .Anchored canary

/-- The blocks that are probed from the oldest end on. -/
def forwardWalk (fromBlock toBlock : Nat) : List Nat :=
  (List.range' fromBlock (toBlock + 1 - fromBlock)).take CANARY_PROBE_BLOCKS

/-- The blocks that are probed from the newest end on. -/
def backwardWalk (fromBlock toBlock : Nat) : List Nat :=
  (List.range' fromBlock (toBlock + 1 - fromBlock)).reverse.take CANARY_PROBE_BLOCKS

/-- What the outcomes at both ends make of the scan. -/
def anchoringOf : ProbeOutcome → ProbeOutcome → Anchoring
  | .Anchored a, .Anchored b => .Anchored (if [a].any (·.filter = b.filter) then [a] else [a, b])
  | .Anchored anchored, .Missed miss => .PartiallyAnchored anchored .Newest miss
  | .Missed miss, .Anchored anchored => .PartiallyAnchored anchored .Oldest miss
  | .Missed oldest, .Missed newest => .Unanchored oldest newest

/-- `probe_canaries`. -/
def probeCanaries (fromBlock toBlock : Nat) : ReportM Anchoring := do
  let oldest ← anchorIn fuel (forwardWalk fromBlock toBlock) .default
  let newest ← anchorIn fuel (backwardWalk fromBlock toBlock) .default
  return anchoringOf oldest newest

/-- `corroborated_get_logs`. -/
def corroboratedGetLogs (filter : Filter) (canaries : List Canary) :
    ReportM (Option (List RpcLog)) := do
  if canaries = [] then
    match ← request (I := Report) (ReportOp.getLogs filter) with
    | .error message => throw (.EthRpc message)
    | .ok logs => return some logs
  else
    match ← request (I := Report) (ReportOp.batch filter (canaries.map (·.filter))) with
    | .error message => throw (.EthRpc message)
    | .ok (.error message, _) => throw (.EthRpc message)
    | .ok (.ok logs, probes) =>
        let observed := (probes.zip canaries).map fun (probe, canary) =>
          ((probe.toOption.map List.length).getD 0, canary.expected)
        return if isCorroborated observed then some logs else none

/-- The attempts at one span: the logs, no logs that can be counted, or an error. -/
def fetchSpan (filter : Filter) (canaries : List Canary) :
    Nat → ReportM (Except String (Option (List RpcLog)))
  | 0 => return .ok none
  | attempts + 1 => do
      match ← attempt (corroboratedGetLogs filter canaries) with
      | .ok (some logs) => return .ok (some logs)
      | .ok none => fetchSpan filter canaries attempts
      | .error error => return .error error.toString

/-- `ingest_log`, where a log of the contract that has the topic of an event decodes. -/
def ingestLog (tally : SwapTally) (log : RpcLog) : SwapTally :=
  match log.event with
  | some event => tally.ingest event
  | none => tally

/-- The variables of `scan_range`. -/
structure RangeState where
  chunk : Nat
  spans : List (Nat × Nat)
  rateLimitRetries : Nat
  tally : SwapTally

/-- One turn of the loop of `scan_range`. -/
def rangeTurn (address : Address) (toBlock : Nat) (topics : List EventKind)
    (canaries : List Canary) (state : RangeState) : ReportM (RangeState ⊕ SwapTally) :=
  match state.spans with
  | [] => return .inr state.tally
  | (cursor, finish) :: spans => do
      match ← fetchSpan ⟨some address, topics, cursor, finish⟩ canaries
          MAX_CORROBORATION_ATTEMPTS with
      | .error message =>
          let chunk := state.chunk
          if classifyRpcFailure message = .RateLimited ∧
              state.rateLimitRetries < MAX_RATE_LIMIT_RETRIES then
            return .inl { state with rateLimitRetries := state.rateLimitRetries + 1 }
          else if classifyRpcFailure message = .RangeTooWide ∧ MIN_CHUNK_BLOCKS < chunk then
            let chunk := max (chunk / 2) MIN_CHUNK_BLOCKS
            return .inl { state with chunk, spans := blockChunks cursor toBlock chunk }
          else
            throw (.EthRpc
              s!"eth_getLogs failed for blocks {cursor}-{finish} (span {chunk}): {message}")
      | .ok none =>
          throw (.EthLogsUncorroborated
            (s!"blocks {cursor}-{finish}: the backend serving this connection could not be shown " ++
              s!"to hold the log data for the scanned range, in {MAX_CORROBORATION_ATTEMPTS} " ++
              "attempts. Public endpoints load-balance across nodes with different log " ++
              "retention, and a node without the index answers with an empty list rather than " ++
              "an error, so counting it would silently under-report."))
      | .ok (some logs) =>
          return .inl { state with
            spans, rateLimitRetries := 0, tally := logs.foldl ingestLog state.tally }

/-- `scan_range`. -/
def scanRange (address : Address) (fromBlock toBlock : Nat) (topics : List EventKind)
    (chunk : Nat) (canaries : List Canary) (tally : SwapTally) : ReportM SwapTally :=
  let chunk := max chunk 1
  iterate (rangeTurn address toBlock topics canaries) fuel
    ⟨chunk, blockChunks fromBlock toBlock chunk, 0, tally⟩

/-- `Scan`. -/
structure Scan where
  tally : SwapTally
  corroborated : Bool

/-- `collect_tally`. -/
def collectTally (address : Address) (window : ReportWindow) (chunk : Nat)
    (allowUncorroborated : Bool) : ReportM Scan := do
  let spanEnd := max window.outcomesTo window.locksTo
  if spanEnd < window.locksFrom then
    return ⟨.new, true⟩
  else
    let anchoring ← probeCanaries fuel window.locksFrom spanEnd
    let decision := scanDecision anchoring allowUncorroborated
    if decision = .Refuse then
      throw (.EthLogsUncorroborated
        ((refusalMessage window.locksFrom spanEnd anchoring).getD ""))
    else
      let canaries := anchoring.canaries
      let tally ← scanRange fuel address window.locksFrom window.locksTo
        [.Locked, .Claimed, .Refunded] chunk canaries .new
      let tally ← if window.locksTo < window.outcomesTo then
          scanRange fuel address (window.locksTo + 1) window.outcomesTo [.Claimed, .Refunded] chunk
            canaries tally
        else pure tally
      return ⟨tally, decision = .Corroborated⟩

end AtomicSwaps.Eth
