import AtomicSwaps.Data.Tiling
import AtomicSwaps.Eth.ScanRange
import AtomicSwaps.Semantics.Returns

/-!
# The spans of a scan

`block_chunks` on the machine's integers, the responses that `scan_range` of `src/eth/report.rs`
accepts, and its end.
-/

namespace AtomicSwaps.Eth

open Semantics Program Tiling

/-- The last block of a chunk. -/
def chunkEnd (start toBlock chunk : U64) : U64 :=
  let finish := U64.saturatingAdd start (chunk - 1)
  if finish ≤ toBlock then finish else toBlock

theorem toNat_chunkEnd {start toBlock chunk : U64} (some : 0 < chunk.toNat) :
    (chunkEnd start toBlock chunk).toNat = min (start.toNat + (chunk.toNat - 1)) toBlock.toNat := by
  have one : (1 : U64).toNat = 1 := rfl
  have small := chunk.isLt
  have less : (chunk - 1).toNat = chunk.toNat - 1 := by
    rw [BitVec.toNat_sub, one]
    omega
  have bound := toBlock.isLt
  rw [chunkEnd]
  simp only [BitVec.le_def, U64.toNat_saturatingAdd, less]
  split
  · rw [U64.toNat_saturatingAdd, less]
    omega
  · omega

theorem le_chunkEnd {start toBlock chunk : U64} (more : start ≤ toBlock) : start ≤ chunkEnd start toBlock chunk := by
  have bound := start.isLt
  rw [chunkEnd]
  split
  · rw [BitVec.le_def, U64.toNat_saturatingAdd]
    omega
  · exact more

/-- The next block, after one that is not the last there is. -/
theorem toNat_next {block : U64} (more : block ≠ BitVec.allOnes 64) :
    (block + 1).toNat = block.toNat + 1 := by
  have one : (1 : U64).toNat = 1 := rfl
  have bound := block.isLt
  have inner : block.toNat ≠ 2 ^ 64 - 1 := by
    intro same
    apply more
    rw [← BitVec.toNat_inj, BitVec.toNat_allOnes]
    exact same
  rw [BitVec.toNat_add, one]
  omega

/-- The loop of `block_chunks`. -/
def chunksFrom (toBlock chunk start : U64) : List (U64 × U64) :=
  if more : start ≤ toBlock then
    let finish := chunkEnd start toBlock chunk
    (start, finish) ::
      if inner : finish ≠ BitVec.allOnes 64 then chunksFrom toBlock chunk (finish + 1) else []
  else []
termination_by 2 ^ 64 - start.toNat
decreasing_by
  have forward := BitVec.le_def.mp (@le_chunkEnd start toBlock chunk more)
  have next : (chunkEnd start toBlock chunk + 1).toNat = _ := toNat_next inner
  omega

/-- `block_chunks`, as it is computed. -/
def machineChunks (fromBlock toBlock chunk : U64) : List (U64 × U64) :=
  chunksFrom toBlock (if chunk = 0 then 1 else chunk) fromBlock

/-- The numbers of a span of blocks. -/
def natSpan (span : U64 × U64) : Nat × Nat := (span.1.toNat, span.2.toNat)

/-- The machine's chunks are the chunks. -/
theorem chunksFrom_eq {toBlock chunk start : U64} (some : 0 < chunk.toNat) :
    (chunksFrom toBlock chunk start).map natSpan =
      blockChunks start.toNat toBlock.toNat chunk.toNat := by
  have size : max chunk.toNat 1 = chunk.toNat := by omega
  induction start using chunksFrom.induct toBlock chunk with
  | case1 start more finish ih =>
      have last : finish.toNat = _ := toNat_chunkEnd some
      rw [chunksFrom, dif_pos more, blockChunks, if_pos (BitVec.le_def.mp more), size, ← last]
      have tail : ((if inner : finish ≠ BitVec.allOnes 64 then
          chunksFrom toBlock chunk (finish + 1) else []).map natSpan) =
          blockChunks (finish.toNat + 1) toBlock.toNat chunk.toNat := by
        by_cases inner : finish ≠ BitVec.allOnes 64
        · rw [dif_pos inner, ih inner, toNat_next inner]
        · have bound := toBlock.isLt
          have top : finish.toNat = 2 ^ 64 - 1 := by
            rw [not_not.mp inner]
            exact BitVec.toNat_allOnes
          rw [dif_neg inner, blockChunks, if_neg (by omega)]
          rfl
      exact congrArg (_ :: ·) tail
  | case2 start past =>
      rw [chunksFrom, dif_neg past, blockChunks, if_neg]
      · rfl
      · rwa [BitVec.le_def] at past

/-- A chunk is never empty. -/
theorem blockChunks_max {fromBlock toBlock chunk : Nat} :
    blockChunks fromBlock toBlock (max chunk 1) = blockChunks fromBlock toBlock chunk := by
  induction fromBlock using blockChunks.induct toBlock chunk with
  | case1 fromBlock more finish ih =>
      rw [blockChunks, if_pos more, blockChunks, if_pos more]
      simp only [max_assoc, max_self]
      rw [ih]
  | case2 fromBlock past =>
      rw [blockChunks, if_neg past, blockChunks, if_neg past]

theorem machineChunks_eq (fromBlock toBlock chunk : U64) :
    (machineChunks fromBlock toBlock chunk).map natSpan =
      blockChunks fromBlock.toNat toBlock.toNat chunk.toNat := by
  rw [machineChunks]
  split
  · rename_i zero
    rw [chunksFrom_eq (by decide), zero]
    exact @blockChunks_max fromBlock.toNat toBlock.toNat 0
  · rename_i some
    apply chunksFrom_eq
    have other : chunk.toNat ≠ 0 := fun same => some (BitVec.eq_of_toNat_eq same)
    omega

/-- The chunks are one behind the other, from the first block to the last. -/
theorem blockChunks_tiles {fromBlock toBlock chunk : Nat} :
    Tiles fromBlock (blockChunks fromBlock toBlock chunk) (max fromBlock (toBlock + 1)) := by
  induction fromBlock using blockChunks.induct toBlock chunk with
  | case1 fromBlock more finish ih =>
      rw [blockChunks, if_pos more]
      have within : finish ≤ toBlock := Nat.min_le_right _ _
      have forward : fromBlock ≤ finish := le_min (by omega) more
      have whole : max (finish + 1) (toBlock + 1) = max fromBlock (toBlock + 1) := by omega
      exact ⟨rfl, forward, whole ▸ ih⟩
  | case2 fromBlock past =>
      rw [blockChunks, if_neg past]
      exact (Nat.max_eq_left (by omega)).symm

section Accepting

/-- The span and the logs of a response that is accepted. -/
def accepted (canaries : List Canary) : Exchange Report → Option ((Nat × Nat) × List RpcLog)
  | ⟨.getLogs filter, answer⟩ =>
      match (answer : LogsResult) with
      | .ok logs => some ((filter.fromBlock, filter.toBlock), logs)
      | .error _ => none
  | ⟨.batch filter _, answer⟩ =>
      match (answer : Except String (LogsResult × List LogsResult)) with
      | .ok (.ok logs, probes) =>
          if isCorroborated (scores probes canaries) then
            some ((filter.fromBlock, filter.toBlock), logs)
          else none
      | _ => none

/-- The responses that are accepted, in order. -/
def responses (canaries : List Canary) (history : History Report) :
    List ((Nat × Nat) × List RpcLog) := history.filterMap (accepted canaries)

variable {canaries : List Canary} {filter : Filter} {history : History Report}

@[simp] theorem responses_append (earlier later : History Report) :
    responses canaries (earlier ++ later) = responses canaries earlier ++ responses canaries later :=
  List.filterMap_append

@[simp] theorem responses_nil : responses canaries [] = [] := rfl

/-- What a request for a span adds to the accepted responses. -/
def Answered (canaries : List Canary) (filter : Filter) (history later : History Report) :
    Option (List RpcLog) → Prop
  | some logs => responses canaries later =
      responses canaries history ++ [((filter.fromBlock, filter.toBlock), logs)]
  | none => responses canaries later = responses canaries history

theorem corroboratedGetLogs_follows :
    Follows (fun _ _ => True) (fun later result =>
      Answered canaries filter history later (result.toOption.getD none))
      (corroboratedGetLogs filter canaries).run history := by
  rw [corroboratedGetLogs]
  split
  · refine .request_bind trivial fun answer => ?_
    cases answer with
    | error message => exact (responses_append _ _).trans (List.append_nil _)
    | ok logs => exact responses_append _ _
  · refine .request_bind trivial fun answer => ?_
    match answer with
    | .error message => exact (responses_append _ _).trans (List.append_nil _)
    | .ok (.error message, probes) => exact (responses_append _ _).trans (List.append_nil _)
    | .ok (.ok logs, probes) =>
        change Answered canaries filter history _
          (if isCorroborated (scores probes canaries) then some logs else none)
        have taken : accepted canaries ⟨.batch filter (canaries.map (·.filter)),
            (.ok (.ok logs, probes) : Except String (LogsResult × List LogsResult))⟩ =
            if isCorroborated (scores probes canaries) then
              some ((filter.fromBlock, filter.toBlock), logs) else none := rfl
        split
        · rename_i corroborated
          rw [if_pos corroborated] at taken
          exact (responses_append _ _).trans
            (congrArg _ (List.filterMap_cons_some taken))
        · rename_i unproven
          rw [if_neg unproven] at taken
          exact (responses_append _ _).trans ((congrArg _ (List.filterMap_cons_none taken)).trans
            (List.append_nil _))

theorem fetchSpan_follows {attempts : Nat} :
    Follows (fun _ _ => True) (fun later result => ∃ fetched, result = .ok fetched ∧
      Answered canaries filter history later (fetched.toOption.getD none))
      (fetchSpan filter canaries attempts).run history := by
  suffices whole : ∀ before, responses canaries before = responses canaries history →
      Follows (fun _ _ => True) (fun later result => ∃ fetched, result = .ok fetched ∧
        Answered canaries filter history later (fetched.toOption.getD none))
        (fetchSpan filter canaries attempts).run before from whole history rfl
  induction attempts with
  | zero => exact fun before same => ⟨_, rfl, same⟩
  | succ attempts ih =>
      intro before same
      rw [fetchSpan, Follows.run_bind_iff, Follows.run_attempt_iff]
      refine corroboratedGetLogs_follows.weaken fun later result answered => ?_
      match result with
      | .ok (some logs) => exact ⟨_, rfl, Eq.trans answered (by rw [same])⟩
      | .ok none => exact ih later (Eq.trans answered same)
      | .error error => exact ⟨_, rfl, Eq.trans answered same⟩

end Accepting

section Scanning

variable {canaries : List Canary} {contract : Address} {topics : List EventKind}
  {fromBlock toBlock : Nat} {tally : SwapTally}

/-- The accepted responses of a scan, up to a block: their spans tile the range before it, and
their logs are what has been counted. -/
structure Scans (canaries : List Canary) (fromBlock stop : Nat) (before after : SwapTally)
    (history : History Report) : Prop where
  tiles : Tiles fromBlock ((responses canaries history).map Prod.fst) stop
  counted : after = ((responses canaries history).flatMap Prod.snd).foldl ingestLog before

/-- A turn of the scan is at the block that its spans start from. -/
def AtBlock (canaries : List Canary) (fromBlock toBlock : Nat) (tally : SwapTally)
    (history : History Report) (state : RangeState) : Prop :=
  ∃ cursor, Scans canaries fromBlock cursor tally state.tally history ∧
    cursor ≤ max fromBlock (toBlock + 1) ∧ state.spans = blockChunks cursor toBlock state.chunk

/-- A turn accepts the next span, or accepts nothing and stays at its block. -/
theorem rangeTurn_scans {state : RangeState} {history : History Report}
    (reached : AtBlock canaries fromBlock toBlock tally history state) :
    Follows (fun _ _ => True) (fun later result =>
      match result with
      | .ok (.inl next) => AtBlock canaries fromBlock toBlock tally later next
      | .ok (.inr after) =>
          Scans canaries fromBlock (max fromBlock (toBlock + 1)) tally after later
      | .error _ => True)
      (rangeTurn contract toBlock topics canaries state).run history := by
  obtain ⟨chunk, spans, retries, counted⟩ := state
  obtain ⟨cursor, scans, before, tiled⟩ := reached
  simp only at tiled scans
  cases spans with
  | nil =>
      have past : toBlock < cursor := by
        by_contra more
        rw [blockChunks, if_pos (by omega)] at tiled
        cases tiled
      have last : cursor = max fromBlock (toBlock + 1) := by
        have first := scans.tiles.le
        omega
      exact last ▸ scans
  | cons span spans =>
      obtain ⟨start, finish⟩ := span
      obtain ⟨rfl, forward, within, rest⟩ := blockChunks_cons tiled.symm
      rw [rangeTurn, Follows.run_bind_iff]
      refine fetchSpan_follows.weaken fun later result answered => ?_
      obtain ⟨fetched, rfl, answered⟩ := answered
      -- nothing accepted: what was scanned stays so
      have still : ∀ {next : RangeState}, responses canaries later = responses canaries history →
          next.tally = counted → next.spans = blockChunks start toBlock next.chunk →
          AtBlock canaries fromBlock toBlock tally later next := by
        intro next same tallied tiled
        refine ⟨start, ⟨?_, ?_⟩, before, tiled⟩
        · rw [same]
          exact scans.tiles
        · rw [same, tallied]
          exact scans.counted
      rcases fetched with message | _ | logs
      · dsimp only
        split
        · exact still answered rfl tiled
        · split
          · exact still answered rfl rfl
          · trivial
      · trivial
      · have taken : responses canaries later =
            responses canaries history ++ [((start, finish), logs)] := answered
        refine ⟨finish + 1, ⟨?_, ?_⟩, by omega, rest⟩
        · rw [taken, List.map_append]
          exact scans.tiles.concat forward
        · rw [taken, List.flatMap_append, List.foldl_append, ← scans.counted]
          simp

/-- A scan that returns has accepted one response for every block of its range. -/
theorem scanRange_scans (fuel chunk : Nat) :
    Follows (fun _ _ => True) (fun later result => ∀ after, result = .ok after →
        Scans canaries fromBlock (max fromBlock (toBlock + 1)) tally after later)
      (scanRange fuel contract fromBlock toBlock topics chunk canaries tally).run [] := by
  apply Follows.iterate (AtBlock canaries fromBlock toBlock tally)
  · intro history state reached
    refine (rangeTurn_scans reached).weaken fun later result turned => ?_
    match result, turned with
    | .ok (.inl next), turned => exact turned
    | .ok (.inr after), turned =>
        rintro _ ⟨⟩
        exact turned
    | .error error, _ =>
        rintro _ ⟨⟩
  · refine ⟨fromBlock, ⟨rfl, rfl⟩, le_max_left _ _, ?_⟩
    exact blockChunks_max.symm ▸ rfl

/-- A provider that answers anything. -/
def answering : Environment Report Unit where
  perform _ _ _ _ := True
  drift _ _ := False

theorem corroboratedGetLogs_completes {filter : Filter} {world : Unit} :
    Completes answering (fun _ _ => True) (corroboratedGetLogs filter canaries).run world := by
  rw [corroboratedGetLogs]
  split
  · refine Completes.request_bind_iff.mpr fun _ answer _ _ _ => ?_
    cases answer <;> trivial
  · refine Completes.request_bind_iff.mpr fun _ answer _ _ _ => ?_
    match answer with
    | .error message => trivial
    | .ok (.error message, probes) => trivial
    | .ok (.ok logs, probes) => trivial

theorem fetchSpan_completes {filter : Filter} {attempts : Nat} {world : Unit} :
    Completes answering (fun _ _ => True) (fetchSpan filter canaries attempts).run world := by
  induction attempts with
  | zero => trivial
  | succ attempts ih =>
      rw [fetchSpan, Completes.run_bind_iff, Completes.run_attempt_iff]
      refine corroboratedGetLogs_completes.weaken fun _ result _ => ?_
      match result with
      | .ok (some logs) => trivial
      | .ok none => exact ih
      | .error error => trivial

/-- The turns that a state may still take: one more than what an accepted span, a smaller chunk
or a retry uses up. -/
def Needs (toBlock fuel : Nat) (_ : Unit) (state : RangeState) : Prop :=
  ∃ cursor, state.spans = blockChunks cursor toBlock state.chunk ∧
    state.rateLimitRetries ≤ MAX_RATE_LIMIT_RETRIES ∧
    7 * (toBlock + 1 - cursor) + 7 * state.chunk + (6 - state.rateLimitRetries) < fuel

theorem rangeTurn_completes {fuel : Nat} {world : Unit} {state : RangeState}
    (needs : Needs toBlock (fuel + 1) world state) :
    Completes answering (fun later result =>
      match result with
      | .ok (.inl next) => Needs toBlock fuel later next
      | .ok (.inr _) => True
      | .error _ => True) (rangeTurn contract toBlock topics canaries state).run world := by
  obtain ⟨chunk, spans, retries, counted⟩ := state
  obtain ⟨cursor, tiled, few, enough⟩ := needs
  have most : MAX_RATE_LIMIT_RETRIES = 6 := rfl
  simp only [most] at tiled few enough
  cases spans with
  | nil => trivial
  | cons span spans =>
      obtain ⟨start, finish⟩ := span
      obtain ⟨rfl, forward, within, rest⟩ := blockChunks_cons tiled.symm
      rw [rangeTurn, Completes.run_bind_iff]
      refine fetchSpan_completes.weaken fun later result _ => ?_
      match result with
      | .error error => trivial
      | .ok (.error message) =>
          dsimp only
          split
          · rename_i limited
            have left := limited.2
            rw [most] at left
            exact ⟨start, tiled, by simp only [most]; omega, by simp only; omega⟩
          · split
            · rename_i wide
              have least : MIN_CHUNK_BLOCKS = 1000 := rfl
              have larger := wide.2
              rw [least] at larger
              exact ⟨start, rfl, few, by simp only [least]; omega⟩
            · trivial
      | .ok (.ok none) => trivial
      | .ok (.ok (some logs)) =>
          exact ⟨finish + 1, rest, Nat.zero_le _, by simp only; omega⟩

/-- A scan ends, whatever it is answered. -/
theorem scanRange_completes {fuel chunk : Nat}
    (enough : 7 * (toBlock + 1 - fromBlock) + 7 * max chunk 1 + 6 < fuel) :
    Completes answering (fun _ _ => True)
      (scanRange fuel contract fromBlock toBlock topics chunk canaries tally).run () := by
  apply Completes.iterate (Needs toBlock)
  · rintro _ state ⟨_, _, _, none⟩
    exact absurd none (Nat.not_lt_zero _)
  · intro left world state needs
    refine (rangeTurn_completes needs).weaken fun later result kept => ?_
    match result, kept with
    | .ok (.inl next), kept => exact kept
    | .ok (.inr after), _ => trivial
    | .error error, _ => trivial
  · exact ⟨fromBlock, rfl, Nat.zero_le _, enough⟩

end Scanning

/-- Spans that cover a range of blocks: one behind the other, each block in exactly one. -/
structure Covering (fromBlock toBlock : U64) (spans : List (Nat × Nat)) : Prop where
  tiles : Tiles fromBlock.toNat spans (max fromBlock.toNat (toBlock.toNat + 1))
  once : ∀ block : U64, fromBlock ≤ block → block ≤ toBlock →
    spans.countP (covers block.toNat) = 1

theorem Covering.of_tiles {fromBlock toBlock : U64} {spans : List (Nat × Nat)}
    (tiles : Tiles fromBlock.toNat spans (max fromBlock.toNat (toBlock.toNat + 1))) :
    Covering fromBlock toBlock spans := by
  refine ⟨tiles, fun block first last => ?_⟩
  rw [BitVec.le_def] at first last
  rw [tiles.countP, if_pos (by omega)]

/-- The chunks of a range cover it, and so do the accepted responses of a scan that returns,
whose logs are counted once each; a scan always ends. -/
theorem scan_covers (fromBlock toBlock chunk : U64) (contract : Address) (topics : List EventKind)
    (canaries : List Canary) (tally : SwapTally) :
    Covering fromBlock toBlock ((machineChunks fromBlock toBlock chunk).map natSpan) ∧
    (machineChunks fromBlock toBlock chunk).map natSpan =
      blockChunks fromBlock.toNat toBlock.toNat chunk.toNat ∧
    (∀ fuel, Follows (fun _ _ => True) (fun history result => ∀ after, result = .ok after →
        Covering fromBlock toBlock ((responses canaries history).map Prod.fst) ∧
        after = ((responses canaries history).flatMap Prod.snd).foldl ingestLog tally)
      (scanRange fuel contract fromBlock.toNat toBlock.toNat topics chunk.toNat canaries tally).run
      []) ∧
    ∃ turns, ∀ fuel, turns ≤ fuel → Completes answering (fun _ _ => True)
      (scanRange fuel contract fromBlock.toNat toBlock.toNat topics chunk.toNat canaries tally).run
      () := by
  have same := machineChunks_eq fromBlock toBlock chunk
  refine ⟨same ▸ .of_tiles blockChunks_tiles, same, fun fuel => ?_, _, fun fuel enough =>
    scanRange_completes (Nat.lt_of_succ_le enough)⟩
  refine (scanRange_scans fuel chunk.toNat).weaken fun history result scans after returned => ?_
  have scans := scans after returned
  exact ⟨.of_tiles scans.tiles, scans.counted⟩

end AtomicSwaps.Eth
