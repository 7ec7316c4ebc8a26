import AtomicSwaps.Basic
import AtomicSwaps.Semantics.Run

/-!
# The scan cache of the MCP server

`run_scan` of `lez-mcp/src/eth.rs`: a pass over the cache reads the chain head and the
`Locked` events from a rewound resume point on, in chunks, until the head or the budget
is reached.
-/

namespace AtomicSwaps.Mcp

open Semantics

/-- `LOG_SCAN_CHUNK`. -/
def LOG_SCAN_CHUNK : U64 := 40000

/-- `MAX_CHUNKS_PER_CALL`. -/
def MAX_CHUNKS_PER_CALL : Nat := 16

/-- `REORG_SAFETY_WINDOW`. -/
def REORG_SAFETY_WINDOW : U64 := 64

/-- `SeenLock`. -/
structure SeenLock where
  swapId : Bytes32
  hashlock : Bytes32
  block : U64
  txHash : Bytes32
  logIndex : U64
deriving DecidableEq

/-- `ScanCache`. -/
structure ScanCache where
  nextBlock : U64
  locked : List SeenLock
deriving DecidableEq

/-- `rewind_start`. -/
def rewindStart (nextBlock fromBlock window : U64) : U64 :=
  U64.max (U64.saturatingSub nextBlock window) fromBlock

/-- Two events that `reconcile_range` takes for one. -/
def SeenLock.dup (left right : SeenLock) : Bool :=
  left.txHash = right.txHash ∧ left.logIndex = right.logIndex

/-- The body of the loop over the fresh events. -/
def pushFresh (locked : List SeenLock) (fresh : SeenLock) : List SeenLock :=
  if locked.any (·.dup fresh) then locked else locked ++ [fresh]

/-- `reconcile_range`. -/
def reconcileRange (locked : List SeenLock) (start finish : U64) (fresh : List SeenLock) :
    List SeenLock :=
  fresh.foldl pushFresh (locked.filter fun lock => lock.block < start ∨ finish < lock.block)

/-- `prune_head_regression`. -/
def pruneHeadRegression (cache : ScanCache) (latest fromBlock : U64) : ScanCache :=
  let highWater := U64.saturatingSub cache.nextBlock 1
  if latest < highWater then
    { locked := cache.locked.filter fun lock => lock.block ≤ latest
      nextBlock := U64.max (U64.saturatingAdd latest 1) fromBlock }
  else cache

/-- `ScanPass`. -/
structure ScanPass where
  matched : List Bytes32
  coverageTo : U64
  reachedHead : Bool
deriving DecidableEq

/-- `Locked` events of a range of blocks. -/
abbrev Fetch := U64 → U64 → Except String (List SeenLock)

/-- The loop of `run_scan`, by the chunks that are left of the budget. -/
def scanChunks (latest : U64) (fetch : Fetch) :
    Nat → U64 → ScanCache → Except String Unit × ScanCache
  | 0, _, cache => (.ok (), cache)
  | chunks + 1, start, cache =>
      if start ≤ latest then
        let finish := U64.min (start + LOG_SCAN_CHUNK - 1) latest
        match fetch start finish with
        | .error error => (.error error, cache)
        | .ok fresh =>
            scanChunks latest fetch chunks (finish + 1) {
              locked := reconcileRange cache.locked start finish fresh
              nextBlock := if cache.nextBlock < finish + 1 then finish + 1 else cache.nextBlock }
      else (.ok (), cache)

/-- The body of the loop that collects the matches. -/
def pushMatch (hashlock : Bytes32) (matched : List Bytes32) (lock : SeenLock) : List Bytes32 :=
  if lock.hashlock = hashlock ∧ ¬ matched.contains lock.swapId then matched ++ [lock.swapId]
  else matched

/-- What `run_scan` returns from the cache. -/
def scanPass (latest : U64) (hashlock : Bytes32) (cache : ScanCache) : ScanPass :=
  let coverageTo := U64.saturatingSub cache.nextBlock 1
  { matched := cache.locked.foldl (pushMatch hashlock) []
    coverageTo
    reachedHead := latest ≤ coverageTo }

/-- `run_scan`: what it returns and the cache it leaves. -/
def runScan (cache : ScanCache) (fromBlock : U64) (readHead : Except String U64)
    (hashlock : Bytes32) (fetch : Fetch) : Except String ScanPass × ScanCache :=
  match readHead with
  | .error error => (.error error, cache)
  | .ok latest =>
      let cache := pruneHeadRegression cache latest fromBlock
      let start := rewindStart cache.nextBlock fromBlock REORG_SAFETY_WINDOW
      match scanChunks latest fetch MAX_CHUNKS_PER_CALL start cache with
      | (.error error, cache) => (.error error, cache)
      | (.ok _, cache) => (.ok (scanPass latest hashlock cache), cache)

end AtomicSwaps.Mcp
