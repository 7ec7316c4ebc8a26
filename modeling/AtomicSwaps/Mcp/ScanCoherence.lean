import AtomicSwaps.Mcp.ScanCache
import Mathlib.Tactic.Linarith

/-!
# Coherence of the scan cache

After every pass that succeeds the cache is the canonical events up to its coverage. A
pass may fail or run out of budget in the middle, the head may go back, and the chain may
change between passes in the blocks that the next pass reads again: below those the
cache is exact at all times.
-/

namespace AtomicSwaps.Mcp

open Semantics

/-- The `Locked` events of a chain. -/
structure LockedChain where
  logs : List SeenLock
  /-- The transaction and the log index tell the events apart. -/
  distinct : ∀ left ∈ logs, ∀ right ∈ logs, left.dup right = true → left = right

/-- The answers are what the chain has in the range asked for. -/
def LockedChain.Serves (chain : LockedChain) (fetch : Fetch) : Prop :=
  ∀ start finish fresh, fetch start finish = .ok fresh →
    ∀ log, log ∈ fresh ↔ log ∈ chain.logs ∧ start ≤ log.block ∧ log.block ≤ finish

/-- A cache that is exact below a block. -/
structure Kept (chain : LockedChain) (fromBlock : U64) (upTo : Nat) (cache : ScanCache) : Prop where
  distinct : cache.locked.Pairwise fun left right => ¬ left.dup right
  below : ∀ lock ∈ cache.locked, lock.block.toNat < cache.nextBlock.toNat
  above : ∀ lock ∈ cache.locked, fromBlock.toNat ≤ lock.block.toNat
  floor : fromBlock.toNat ≤ cache.nextBlock.toNat
  exact_below : ∀ lock : SeenLock, lock.block.toNat < upTo →
    (lock ∈ cache.locked ↔ lock ∈ chain.logs ∧ fromBlock.toNat ≤ lock.block.toNat)

section Reconciling

variable {locked fresh : List SeenLock} {lock : SeenLock}

theorem distinct_pushFresh (distinct : locked.Pairwise fun left right => ¬ left.dup right) :
    (pushFresh locked lock).Pairwise fun left right => ¬ left.dup right := by
  unfold pushFresh
  split
  · exact distinct
  · rename_i fresh
    apply List.pairwise_append.mpr
    refine ⟨distinct, List.pairwise_singleton _ _, fun left member right last same => fresh ?_⟩
    obtain rfl := List.mem_singleton.mp last
    exact List.any_eq_true.mpr ⟨left, member, same⟩

theorem distinct_foldl_pushFresh (distinct : locked.Pairwise fun left right => ¬ left.dup right) :
    (fresh.foldl pushFresh locked).Pairwise fun left right => ¬ left.dup right := by
  induction fresh generalizing locked with
  | nil => exact distinct
  | cons head rest ih => exact ih (distinct_pushFresh distinct)

/-- Fresh events are added where no other event is taken for them. -/
theorem mem_foldl_pushFresh
    (apart : ∀ left ∈ locked ++ fresh, ∀ right ∈ fresh, left.dup right = true → left = right) :
    lock ∈ fresh.foldl pushFresh locked ↔ lock ∈ locked ∨ lock ∈ fresh := by
  induction fresh generalizing locked with
  | nil => simp
  | cons head rest ih =>
      have pushed : ∀ other, other ∈ pushFresh locked head ↔ other ∈ locked ∨ other = head := by
        intro other
        unfold pushFresh
        split
        · rename_i known
          obtain ⟨same, member, dup⟩ := List.any_eq_true.mp known
          obtain rfl := apart same (List.mem_append_left _ member) head List.mem_cons_self dup
          constructor
          · exact fun there => .inl there
          · rintro (there | rfl)
            · exact there
            · exact member
        · simp
      have apart' : ∀ left ∈ pushFresh locked head ++ rest, ∀ right ∈ rest,
          left.dup right = true → left = right := by
        intro left there right member
        apply apart left _ right (List.mem_cons_of_mem _ member)
        rcases List.mem_append.mp there with earlier | later
        · rcases (pushed left).mp earlier with earlier | rfl
          · exact List.mem_append_left _ earlier
          · exact List.mem_append_right _ List.mem_cons_self
        · exact List.mem_append_right _ (List.mem_cons_of_mem _ later)
      rw [List.foldl_cons, ih apart', pushed, List.mem_cons, or_assoc]

end Reconciling

section Passes

variable {chain : LockedChain} {fromBlock latest : U64} {fetch : Fetch} {cache : ScanCache}

theorem Kept.mono {upTo lower : Nat} (kept : Kept chain fromBlock upTo cache) (fewer : lower ≤ upTo) :
    Kept chain fromBlock lower cache :=
  { kept with exact_below := fun lock below => kept.exact_below lock (below.trans_le fewer) }

/-- A chunk that covers what lies between the exact part and the resume point makes the
cache exact up to its end. -/
theorem Kept.reconcile {start finish : U64} {fresh : List SeenLock}
    (kept : Kept chain fromBlock start.toNat cache) (serves : chain.Serves fetch)
    (fetched : fetch start finish = .ok fresh) (floor : fromBlock.toNat ≤ start.toNat)
    (forward : start.toNat ≤ finish.toNat) (covers : cache.nextBlock.toNat ≤ finish.toNat + 1)
    (fits : finish.toNat + 1 < 2 ^ 64) :
    Kept chain fromBlock (finish.toNat + 1) ⟨finish + 1, reconcileRange cache.locked start finish fresh⟩ := by
  have successor : (finish + 1).toNat = finish.toNat + 1 := by
    rw [BitVec.toNat_add]
    exact Nat.mod_eq_of_lt fits
  have answered := serves start finish fresh fetched
  simp only [BitVec.le_def] at answered
  have survivors : ∀ lock, lock ∈ cache.locked.filter (fun lock => lock.block < start ∨ finish < lock.block) ↔
      lock ∈ cache.locked ∧ lock.block.toNat < start.toNat := by
    intro lock
    simp only [List.mem_filter, decide_eq_true_eq, BitVec.lt_def]
    constructor
    · rintro ⟨member, before | after⟩
      · exact ⟨member, before⟩
      · have below := kept.below lock member
        omega
    · rintro ⟨member, before⟩
      exact ⟨member, .inl before⟩
  -- survivors are below the chunk, where the cache is exact, so all are events of the chain
  have canonical : ∀ lock ∈ cache.locked.filter (fun lock => lock.block < start ∨ finish < lock.block) ++ fresh,
      lock ∈ chain.logs := by
    intro lock member
    rcases List.mem_append.mp member with survivor | fresh
    · obtain ⟨there, before⟩ := (survivors lock).mp survivor
      exact ((kept.exact_below lock before).mp there).1
    · exact ((answered lock).mp fresh).1
  have members : ∀ lock, lock ∈ reconcileRange cache.locked start finish fresh ↔
      (lock ∈ cache.locked ∧ lock.block.toNat < start.toNat) ∨ lock ∈ fresh := by
    intro lock
    rw [reconcileRange, mem_foldl_pushFresh, survivors]
    intro left there right member same
    exact chain.distinct left (canonical left there) right
      (canonical right (List.mem_append_right _ member)) same
  constructor
  · exact distinct_foldl_pushFresh (kept.distinct.filter _)
  · intro lock member
    rw [successor]
    rcases (members lock).mp member with ⟨-, before⟩ | fresh
    · omega
    · have range := (answered lock).mp fresh
      omega
  · intro lock member
    rcases (members lock).mp member with ⟨there, -⟩ | fresh
    · exact kept.above lock there
    · have range := (answered lock).mp fresh
      omega
  · show fromBlock.toNat ≤ (finish + 1).toNat
    omega
  · intro lock below
    rw [members, answered]
    by_cases before : lock.block.toNat < start.toNat
    · rw [← kept.exact_below lock before]
      constructor
      · rintro (⟨there, -⟩ | ⟨-, after, -⟩)
        · exact there
        · omega
      · exact fun there => .inl ⟨there, before⟩
    · constructor
      · rintro (⟨-, impossible⟩ | ⟨there, -⟩)
        · exact absurd impossible before
        · exact ⟨there, by omega⟩
      · rintro ⟨there, -⟩
        exact .inr ⟨there, by omega, by omega⟩

/-- No chunk from a block on ends at a number that overflows. -/
def Fits (latest : U64) (chunks start : Nat) : Prop :=
  ∀ chunk < chunks, start + 40000 * chunk ≤ latest.toNat →
    start + 40000 * chunk + 39999 < 2 ^ 64 ∧
      min (start + 40000 * chunk + 39999) latest.toNat + 1 < 2 ^ 64

/-- It is enough that the head is not within a chunk of the end of the block numbers. -/
theorem Fits.of_head {chunks start : Nat} (room : latest.toNat + 40000 < 2 ^ 64) :
    Fits latest chunks start := by
  intro chunk _ reached
  omega

theorem Fits.next {chunks start : Nat} (fits : Fits latest (chunks + 1) start) :
    Fits latest chunks (min (start + 39999) latest.toNat + 1) := by
  intro chunk within reached
  have later := fits (chunk + 1) (by omega) (by omega)
  omega

/-- The last block of a chunk. -/
theorem toNat_finish {start : U64} (fits : start.toNat + 39999 < 2 ^ 64) :
    (U64.min (start + LOG_SCAN_CHUNK - 1) latest).toNat =
      min (start.toNat + 39999) latest.toNat := by
  have chunk : (start + LOG_SCAN_CHUNK - 1).toNat = start.toNat + 39999 := by
    rw [LOG_SCAN_CHUNK]
    bv_omega
  rw [U64.toNat_min, chunk]

theorem scanChunks_nextBlock {chunks : Nat} {start : U64} :
    cache.nextBlock.toNat ≤ (scanChunks latest fetch chunks start cache).2.nextBlock.toNat := by
  induction chunks generalizing start cache with
  | zero => exact le_rfl
  | succ chunks ih =>
      unfold scanChunks
      split
      · simp only
        split
        · exact le_rfl
        · refine le_trans ?_ ih
          simp only
          split
          · rename_i ahead
            exact (BitVec.lt_def.mp ahead).le
          · exact le_rfl
      · exact le_rfl

/-- A chunk moves the resume point past its start. -/
theorem scanChunks_advances {chunks : Nat} {start : U64} (within : start ≤ latest)
    (positive : 0 < chunks) (fits : Fits latest chunks start.toNat)
    (ok : (scanChunks latest fetch chunks start cache).1 = .ok ()) :
    start.toNat < (scanChunks latest fetch chunks start cache).2.nextBlock.toNat := by
  cases chunks with
  | zero => omega
  | succ chunks =>
      have order : start.toNat ≤ latest.toNat := BitVec.le_def.mp within
      obtain ⟨fit, last⟩ := fits 0 (by omega) (by omega)
      have finish : (U64.min (start + LOG_SCAN_CHUNK - 1) latest).toNat = _ := toNat_finish fit
      have successor : (U64.min (start + LOG_SCAN_CHUNK - 1) latest + 1).toNat =
          min (start.toNat + 39999) latest.toNat + 1 := by
        rw [BitVec.toNat_add, finish]
        exact Nat.mod_eq_of_lt last
      simp only [scanChunks, within, if_true] at ok ⊢
      cases fetched : fetch start (U64.min (start + LOG_SCAN_CHUNK - 1) latest) with
      | error error =>
          rw [fetched] at ok
          cases ok
      | ok fresh =>
          simp only
          refine lt_of_lt_of_le ?_ scanChunks_nextBlock
          simp only [BitVec.lt_def]
          split
          · omega
          · omega

/-- A pass that starts above the head reads nothing. -/
theorem scanChunks_beyond {chunks : Nat} {start : U64} (beyond : ¬ start ≤ latest) :
    scanChunks latest fetch chunks start cache = (.ok (), cache) := by
  cases chunks with
  | zero => rfl
  | succ chunks => simp [scanChunks, beyond]

/-- The loop of a pass stops with a cache that is exact up to where it stopped. -/
theorem scanChunks_kept (serves : chain.Serves fetch) {chunks : Nat} {start : U64}
    (kept : Kept chain fromBlock start.toNat cache) (floor : fromBlock.toNat ≤ start.toNat)
    (behind : start.toNat ≤ cache.nextBlock.toNat) (near : cache.nextBlock.toNat ≤ start.toNat + 64)
    (covers : start ≤ latest → cache.nextBlock.toNat ≤ latest.toNat + 1)
    (fits : Fits latest chunks start.toNat) :
    Kept chain fromBlock ((scanChunks latest fetch chunks start cache).2.nextBlock.toNat - 64)
      (scanChunks latest fetch chunks start cache).2 ∧
    ((scanChunks latest fetch chunks start cache).1 = .ok () →
      start = cache.nextBlock ∨ start ≤ latest ∧ 0 < chunks →
      Kept chain fromBlock (scanChunks latest fetch chunks start cache).2.nextBlock.toNat
        (scanChunks latest fetch chunks start cache).2) ∧
    (cache.nextBlock.toNat ≤ latest.toNat + 1 →
      (scanChunks latest fetch chunks start cache).2.nextBlock.toNat ≤ latest.toNat + 1) := by
  induction chunks generalizing start cache with
  | zero =>
      refine ⟨kept.mono (by simp only [scanChunks]; omega), ?_, id⟩
      rintro - (same | ⟨-, impossible⟩)
      · exact same ▸ kept
      · omega
  | succ chunks ih =>
      by_cases within : start ≤ latest
      swap
      · simp only [scanChunks, within, if_false]
        refine ⟨kept.mono (by omega), ?_, id⟩
        rintro - (same | ⟨impossible, -⟩)
        · exact same ▸ kept
        · exact impossible.elim
      have order : start.toNat ≤ latest.toNat := BitVec.le_def.mp within
      have reach := covers within
      obtain ⟨fit, last⟩ := fits 0 (by omega) (by omega)
      obtain ⟨finish, ends⟩ : ∃ finish, finish = U64.min (start + LOG_SCAN_CHUNK - 1) latest := ⟨_, rfl⟩
      have finish_eq : finish.toNat = min (start.toNat + 39999) latest.toNat := by
        rw [ends, toNat_finish fit]
      have successor : (finish + 1).toNat = finish.toNat + 1 := by
        rw [BitVec.toNat_add]
        exact Nat.mod_eq_of_lt (by simp only [finish_eq]; exact last)
      cases fetched : fetch start finish with
      | error error =>
          simp only [scanChunks, within, if_true, ← ends, fetched]
          exact ⟨kept.mono (by omega), by simp, id⟩
      | ok fresh =>
          have advanced : (if cache.nextBlock < finish + 1 then finish + 1 else cache.nextBlock) =
              finish + 1 := by
            split
            · rfl
            · rename_i ahead
              apply BitVec.eq_of_toNat_eq
              rw [BitVec.lt_def] at ahead
              omega
          have reconciled := kept.reconcile serves fetched floor (by omega) (by omega) (by omega)
          rw [← successor] at reconciled
          simp only [scanChunks, within, if_true, ← ends, fetched, advanced]
          have fits' : Fits latest chunks (finish + 1).toNat := by
            rw [successor, finish_eq]
            exact fits.next
          have later := ih reconciled (by omega) le_rfl (Nat.le_add_right _ _)
            (fun _ => by simp only; omega) fits'
          exact ⟨later.1, fun ok _ => later.2.1 ok (.inl rfl), fun _ => later.2.2 (by simp only; omega)⟩

/-- A head that went back takes the resume point and the events above it along. -/
theorem Kept.pruned (kept : Kept chain fromBlock (cache.nextBlock.toNat - 64) cache) :
    Kept chain fromBlock ((pruneHeadRegression cache latest fromBlock).nextBlock.toNat - 64)
      (pruneHeadRegression cache latest fromBlock) ∧
    ((pruneHeadRegression cache latest fromBlock).nextBlock.toNat ≤ latest.toNat + 1 ∨
      (pruneHeadRegression cache latest fromBlock).nextBlock = fromBlock) := by
  have one : (1 : U64).toNat = 1 := rfl
  simp only [pruneHeadRegression]
  split
  · rename_i regressed
    rw [BitVec.lt_def, U64.toNat_saturatingSub, one] at regressed
    have resume : (U64.max (U64.saturatingAdd latest 1) fromBlock).toNat =
        max (latest.toNat + 1) fromBlock.toNat := by
      have bound := cache.nextBlock.isLt
      rw [U64.toNat_max, U64.toNat_saturatingAdd, one]
      omega
    have floor := kept.floor
    refine ⟨⟨kept.distinct.filter _, ?_, ?_, ?_, ?_⟩, ?_⟩
    · intro lock member
      have within := (List.mem_filter.mp member).2
      rw [decide_eq_true_eq, BitVec.le_def] at within
      show lock.block.toNat < (U64.max (U64.saturatingAdd latest 1) fromBlock).toNat
      omega
    · exact fun lock member => kept.above lock (List.mem_of_mem_filter member)
    · show fromBlock.toNat ≤ (U64.max (U64.saturatingAdd latest 1) fromBlock).toNat
      omega
    · intro lock below
      have below : lock.block.toNat <
          (U64.max (U64.saturatingAdd latest 1) fromBlock).toNat - 64 := below
      have earlier := kept.exact_below lock (by omega)
      rw [List.mem_filter, decide_eq_true_eq, BitVec.le_def, earlier]
      constructor
      · exact fun there => there.1
      · exact fun there => ⟨there, by omega⟩
    · by_cases clamped : latest.toNat + 1 ≤ fromBlock.toNat
      · right
        apply BitVec.eq_of_toNat_eq
        show (U64.max (U64.saturatingAdd latest 1) fromBlock).toNat = fromBlock.toNat
        omega
      · left
        show (U64.max (U64.saturatingAdd latest 1) fromBlock).toNat ≤ latest.toNat + 1
        omega
  · rename_i same
    simp only [BitVec.lt_def, U64.toNat_saturatingSub, one] at same
    exact ⟨kept, .inl (by omega)⟩

/-- Where the chunks of a pass start. -/
def passStart (cache : ScanCache) (latest fromBlock : U64) : U64 :=
  rewindStart (pruneHeadRegression cache latest fromBlock).nextBlock fromBlock REORG_SAFETY_WINDOW

theorem toNat_passStart : (passStart cache latest fromBlock).toNat =
    max ((pruneHeadRegression cache latest fromBlock).nextBlock.toNat - 64) fromBlock.toNat := by
  have window : REORG_SAFETY_WINDOW.toNat = 64 := rfl
  rw [passStart, rewindStart, U64.toNat_max, U64.toNat_saturatingSub, window]

/-- A cache that is exact up to its resume point, under a head that is not below it. -/
structure Exact (chain : LockedChain) (fromBlock latest : U64) (cache : ScanCache) : Prop where
  kept : Kept chain fromBlock cache.nextBlock.toNat cache
  head : cache.nextBlock.toNat ≤ latest.toNat + 1 ∨ cache.nextBlock = fromBlock
  /-- Block zero is read before the resume point can stand at it. -/
  started : 0 < cache.nextBlock.toNat

theorem runScan_ok {hashlock : Bytes32} : runScan cache fromBlock (.ok latest) hashlock fetch =
    match scanChunks latest fetch MAX_CHUNKS_PER_CALL (passStart cache latest fromBlock)
      (pruneHeadRegression cache latest fromBlock) with
    | (.error error, cache) => (.error error, cache)
    | (.ok _, cache) => (.ok (scanPass latest hashlock cache), cache) := by
  unfold runScan
  rfl

/-- A pass keeps the cache, and leaves it exact when it succeeds. -/
theorem runScan_kept {hashlock : Bytes32} {readHead : Except String U64} (serves : chain.Serves fetch)
    (kept : Kept chain fromBlock (cache.nextBlock.toNat - 64) cache)
    (fits : ∀ latest, readHead = .ok latest →
      Fits latest MAX_CHUNKS_PER_CALL (passStart cache latest fromBlock).toNat) :
    Kept chain fromBlock ((runScan cache fromBlock readHead hashlock fetch).2.nextBlock.toNat - 64)
      (runScan cache fromBlock readHead hashlock fetch).2 ∧
    ∀ pass, (runScan cache fromBlock readHead hashlock fetch).1 = .ok pass →
      ∃ latest, readHead = .ok latest ∧
        Exact chain fromBlock latest (runScan cache fromBlock readHead hashlock fetch).2 ∧
        pass = scanPass latest hashlock (runScan cache fromBlock readHead hashlock fetch).2 := by
  cases readHead with
  | error error => exact ⟨kept, by simp [runScan]⟩
  | ok latest =>
      obtain ⟨pruned, reached⟩ := @Kept.pruned chain fromBlock latest cache kept
      have fits := fits latest rfl
      have position := @toNat_passStart fromBlock latest cache
      have floor := pruned.floor
      rw [runScan_ok]
      generalize pruneHeadRegression cache latest fromBlock = rewound at *
      generalize passStart cache latest fromBlock = start at *
      have below : Kept chain fromBlock start.toNat rewound := by
        refine { pruned with exact_below := fun lock before => ?_ }
        by_cases settled : lock.block.toNat < rewound.nextBlock.toNat - 64
        · exact pruned.exact_below lock settled
        · constructor
          · intro member
            have above := pruned.above lock member
            omega
          · rintro ⟨-, above⟩
            omega
      have reach : start ≤ latest → rewound.nextBlock.toNat ≤ latest.toNat + 1 := by
        intro within
        rw [BitVec.le_def] at within
        rcases reached with reached | rfl
        · exact reached
        · omega
      by_cases within : start ≤ latest
      · obtain ⟨kept', full, capped⟩ :=
          scanChunks_kept serves below (by omega) (by omega) (by omega) reach fits
        have advances := @scanChunks_advances latest fetch rewound _ start within (by decide) fits
        generalize scanChunks latest fetch MAX_CHUNKS_PER_CALL start rewound = scanned at *
        obtain ⟨result, after⟩ := scanned
        cases result with
        | error error => exact ⟨kept', by simp⟩
        | ok _ =>
            refine ⟨kept', fun pass returned => ⟨latest, rfl, ?_, (Except.ok.inj returned).symm⟩⟩
            exact ⟨full rfl (.inr ⟨within, by decide⟩), .inl (capped (reach within)),
              (Nat.zero_le _).trans_lt (advances rfl)⟩
      · rw [scanChunks_beyond within]
        refine ⟨pruned, fun pass returned => ⟨latest, rfl, ?_, (Except.ok.inj returned).symm⟩⟩
        rw [BitVec.le_def, not_le] at within
        -- nothing is left to read only where the head is below the first block
        have same : start.toNat = rewound.nextBlock.toNat := by
          rcases reached with reached | rfl
          · omega
          · omega
        have started : 0 < rewound.nextBlock.toNat := by omega
        exact ⟨same ▸ below, reached, started⟩

end Passes

section Matches

variable {hashlock : Bytes32} {locked : List SeenLock} {matched : List Bytes32}

theorem nodup_foldl_pushMatch (distinct : matched.Nodup) :
    (locked.foldl (pushMatch hashlock) matched).Nodup := by
  induction locked generalizing matched with
  | nil => exact distinct
  | cons lock rest ih =>
      apply ih
      unfold pushMatch
      split
      · rename_i fresh
        have absent : lock.swapId ∉ matched := by simpa using fresh.2
        apply List.nodup_append.mpr
        refine ⟨distinct, List.nodup_singleton _, fun left member right last same => ?_⟩
        obtain rfl := List.mem_singleton.mp last
        exact absent (same ▸ member)
      · exact distinct

theorem mem_foldl_pushMatch {swapId : Bytes32} :
    swapId ∈ locked.foldl (pushMatch hashlock) matched ↔
      swapId ∈ matched ∨ ∃ lock ∈ locked, lock.hashlock = hashlock ∧ lock.swapId = swapId := by
  induction locked generalizing matched with
  | nil => simp
  | cons lock rest ih =>
      have pushed : swapId ∈ pushMatch hashlock matched lock ↔
          swapId ∈ matched ∨ lock.hashlock = hashlock ∧ lock.swapId = swapId := by
        unfold pushMatch
        by_cases mine : lock.hashlock = hashlock
        · by_cases known : lock.swapId ∈ matched
          · simp only [mine, List.contains_eq_mem, known, decide_true, not_true, and_false, if_false]
            constructor
            · exact .inl
            · rintro (there | ⟨-, rfl⟩)
              · exact there
              · exact known
          · simp [mine, known, eq_comm]
        · simp [mine]
      rw [List.foldl_cons, ih, pushed, or_assoc]
      simp

end Matches

/-- The chain and the cache over it. -/
structure ScanWorld where
  chain : LockedChain
  cache : ScanCache

/-- What happens to the chain and the cache. -/
inductive ScanEvent where
  | reorg
  | pass (readHead : Except String U64) (hashlock : Bytes32) (result : Except String ScanPass)

/-- The chain grows or is reorganised no deeper than the rewind, or a pass runs. -/
inductive ScanStep (fromBlock : U64) (world : ScanWorld) : ScanEvent → ScanWorld → Prop where
  | reorg {chain : LockedChain}
      (shallow : ∀ lock : SeenLock, fromBlock.toNat ≤ lock.block.toNat →
        lock.block.toNat + 64 < world.cache.nextBlock.toNat →
        (lock ∈ chain.logs ↔ lock ∈ world.chain.logs)) :
      ScanStep fromBlock world .reorg { world with chain }
  | pass {readHead : Except String U64} {hashlock : Bytes32} {fetch : Fetch}
      (serves : world.chain.Serves fetch) :
      ScanStep fromBlock world
        (.pass readHead hashlock (runScan world.cache fromBlock readHead hashlock fetch).1)
        { world with cache := (runScan world.cache fromBlock readHead hashlock fetch).2 }

/-- No chunk of the pass ends at a block number that overflows. -/
def ScanWorld.Fits (fromBlock : U64) (world : ScanWorld) : ScanEvent → Prop
  | .reorg => True
  | .pass readHead _ _ => ∀ latest, readHead = .ok latest →
      Mcp.Fits latest MAX_CHUNKS_PER_CALL (passStart world.cache latest fromBlock).toNat

/-- Runs in which no block number overflows. -/
def ScanRun (fromBlock : U64) (chain : LockedChain) (events : List ScanEvent) (world : ScanWorld) :
    Prop :=
  Steps (fun world event next => ScanStep fromBlock world event next ∧ world.Fits fromBlock event)
    ⟨chain, ⟨fromBlock, []⟩⟩ events world

/-- What a pass that succeeded leaves and returns. -/
structure Coherent (fromBlock : U64) (world : ScanWorld) (latest : U64) (hashlock : Bytes32)
    (pass : ScanPass) : Prop where
  distinct : world.cache.locked.Pairwise fun left right =>
    ¬ (left.txHash = right.txHash ∧ left.logIndex = right.logIndex)
  canonical : ∀ lock, lock ∈ world.cache.locked ↔
    lock ∈ world.chain.logs ∧ fromBlock ≤ lock.block ∧ lock.block ≤ pass.coverageTo
  nodup : pass.matched.Nodup
  matched : ∀ swapId, swapId ∈ pass.matched ↔
    ∃ lock ∈ world.cache.locked, lock.hashlock = hashlock ∧ lock.swapId = swapId
  head : ∀ lock ∈ world.cache.locked, lock.block ≤ latest
  reachedHead : pass.reachedHead = true ↔ latest ≤ pass.coverageTo

theorem Exact.coherent {fromBlock latest : U64} {world : ScanWorld} {hashlock : Bytes32}
    (exact_ : Exact world.chain fromBlock latest world.cache) :
    Coherent fromBlock world latest hashlock (scanPass latest hashlock world.cache) := by
  obtain ⟨kept, head, started⟩ := exact_
  have one : (1 : U64).toNat = 1 := rfl
  constructor
  · exact kept.distinct.imp fun apart => by simpa [SeenLock.dup] using apart
  · intro lock
    simp only [scanPass, BitVec.le_def, U64.toNat_saturatingSub, one]
    constructor
    · intro member
      have below := kept.below lock member
      obtain ⟨there, above⟩ := (kept.exact_below lock below).mp member
      exact ⟨there, above, by omega⟩
    · rintro ⟨there, above, below⟩
      exact (kept.exact_below lock (by omega)).mpr ⟨there, above⟩
  · exact nodup_foldl_pushMatch List.nodup_nil
  · intro swapId
    simp [scanPass, mem_foldl_pushMatch]
  · intro lock member
    have below := kept.below lock member
    have above := kept.above lock member
    rw [BitVec.le_def]
    rcases head with head | head
    · omega
    · rw [head] at below
      omega
  · simp [scanPass]

/-- The invariant of every run. -/
theorem kept_everywhere {fromBlock : U64} {chain : LockedChain} {events : List ScanEvent}
    {world : ScanWorld} (run : ScanRun fromBlock chain events world) :
    Kept world.chain fromBlock (world.cache.nextBlock.toNat - 64) world.cache := by
  refine Steps.invariant (fun world : ScanWorld =>
    Kept world.chain fromBlock (world.cache.nextBlock.toNat - 64) world.cache)
    (fun {before _ _} kept step => ?_) ?_ run
  · obtain ⟨step, fits⟩ := step
    cases step with
    | reorg shallow =>
        refine { kept with exact_below := fun lock below => ?_ }
        have below : lock.block.toNat < before.cache.nextBlock.toNat - 64 := below
        rw [kept.exact_below lock below]
        constructor
        · rintro ⟨there, above⟩
          exact ⟨(shallow lock above (by omega)).mpr there, above⟩
        · rintro ⟨there, above⟩
          exact ⟨(shallow lock above (by omega)).mp there, above⟩
    | pass serves => exact (runScan_kept serves kept fits).1
  · constructor
    · exact .nil
    · simp
    · simp
    · exact le_rfl
    · intro lock below
      have below : lock.block.toNat < fromBlock.toNat - 64 := below
      constructor
      · simp
      · rintro ⟨-, above⟩
        omega

/-- After every pass that succeeds the cache is the canonical events from the first block
to the coverage, the matches are those of the hashlock among them, and the pass tells
whether it has reached the head. -/
theorem scan_coherent {fromBlock : U64} {chain : LockedChain} {events : List ScanEvent}
    {latest : U64} {hashlock : Bytes32} {pass : ScanPass} {world : ScanWorld}
    (run : ScanRun fromBlock chain (events ++ [.pass (.ok latest) hashlock (.ok pass)]) world) :
    Coherent fromBlock world latest hashlock pass := by
  obtain ⟨before, earlier, step, fits⟩ := Steps.last run
  have kept := kept_everywhere earlier
  generalize happened : ScanEvent.pass (.ok latest) hashlock (.ok pass) = event at step fits
  cases step with
  | reorg => cases happened
  | pass serves =>
      injection happened with head same returned
      subst head same
      obtain ⟨latest', read, exact_, rfl⟩ := (runScan_kept serves kept fits).2 pass returned.symm
      obtain rfl := Except.ok.inj read
      generalize (runScan _ _ _ _ _).2 = cache at exact_ ⊢
      exact exact_.coherent

/-- The answers of an endpoint that has the chain. -/
def LockedChain.fetch (chain : LockedChain) : Fetch := fun start finish =>
  .ok (chain.logs.filter fun lock => start ≤ lock.block ∧ lock.block ≤ finish)

theorem LockedChain.fetch_serves (chain : LockedChain) : chain.Serves chain.fetch := by
  rintro start finish fresh fetched lock
  obtain rfl := Except.ok.inj fetched
  simp

/-- A lock of the test hashlock. -/
def testLockAt (block : U64) (swapId : UInt8) : SeenLock :=
  ⟨Bytes.fill 32 swapId, testHashlock, block, Bytes.fill 32 swapId, 0⟩

/-- A final lock, and one near the head. -/
def testForked : LockedChain where
  logs := [testLockAt 40000 0, testLockAt 40090 1]
  distinct := by decide

/-- The chain after a reorganisation near the head. -/
def testReorganised : LockedChain where
  logs := [testLockAt 40000 0, testLockAt 40095 2]
  distinct := by decide

/-- A pass, a reorganisation, a pass that times out, and a pass that succeeds. -/
def testScanEvents : List ScanEvent :=
  [.pass (.ok 40100) testHashlock (.ok ⟨[Bytes.fill 32 0, Bytes.fill 32 1], 40100, true⟩), .reorg,
    .pass (.ok 40150) testHashlock (.error "timeout")]

theorem test_scans : ScanRun 39000 testForked (testScanEvents ++
    [.pass (.ok 40200) testHashlock (.ok ⟨[Bytes.fill 32 0, Bytes.fill 32 2], 40200, true⟩)])
    ⟨testReorganised, ⟨40201, testReorganised.logs⟩⟩ := by
  have fits : ∀ {latest : U64} {world : ScanWorld} {result}, latest.toNat + 40000 < 2 ^ 64 →
      world.Fits 39000 (.pass (.ok latest) testHashlock result) := by
    rintro latest world result room head ⟨⟩
    exact Fits.of_head room
  have first := @ScanStep.pass 39000 ⟨testForked, ⟨39000, []⟩⟩ (.ok 40100) testHashlock _
    testForked.fetch_serves
  have failed := @ScanStep.pass 39000 ⟨testReorganised, ⟨40101, testForked.logs⟩⟩ (.ok 40150)
    testHashlock (fun _ _ => .error "timeout") (by rintro _ _ _ ⟨⟩)
  have second := @ScanStep.pass 39000 ⟨testReorganised, ⟨40101, testForked.logs⟩⟩ (.ok 40200)
    testHashlock _ testReorganised.fetch_serves
  rw [show runScan ⟨39000, []⟩ 39000 (.ok 40100) testHashlock testForked.fetch =
    (.ok ⟨[Bytes.fill 32 0, Bytes.fill 32 1], 40100, true⟩, ⟨40101, testForked.logs⟩) by decide]
    at first
  rw [show runScan ⟨40101, testForked.logs⟩ 39000 (.ok 40200) testHashlock testReorganised.fetch =
    (.ok ⟨[Bytes.fill 32 0, Bytes.fill 32 2], 40200, true⟩, ⟨40201, testReorganised.logs⟩) by
      decide] at second
  have reorganised : ScanStep 39000 ⟨testForked, ⟨40101, testForked.logs⟩⟩ .reorg
      ⟨testReorganised, ⟨40101, testForked.logs⟩⟩ := by
    refine .reorg fun lock above below => ?_
    have new : lock ≠ testLockAt 40095 2 := by
      rintro rfl
      exact absurd below (by decide)
    have old : lock ≠ testLockAt 40090 1 := by
      rintro rfl
      exact absurd below (by decide)
    simp only [testReorganised, testForked, List.mem_cons, List.not_mem_nil, new, old]
  exact .snoc (.snoc (.snoc (.single ⟨first, fits (by decide)⟩) ⟨reorganised, trivial⟩)
    ⟨failed, fits (by decide)⟩) ⟨second, fits (by decide)⟩

/-- The pass that succeeds forgets the lock that the reorganisation took away. -/
theorem scan_coherent_test :
    Coherent 39000 ⟨testReorganised, ⟨40201, testReorganised.logs⟩⟩ 40200 testHashlock
      ⟨[Bytes.fill 32 0, Bytes.fill 32 2], 40200, true⟩ :=
  scan_coherent test_scans

/-- One lock at block 40000. -/
def testChain : LockedChain where
  logs := [⟨Bytes.zero 32, testHashlock, 40000, Bytes.zero 32, 0⟩]
  distinct := by simp

/-- A first block 40000 below the end of the block numbers makes the next chunk start at
block zero, and the pass collects an event that lies below the first block. -/
theorem scan_incoherent : ¬ ∀ (fromBlock : U64) (chain : LockedChain) (events : List ScanEvent)
    (latest : U64) (hashlock : Bytes32) (pass : ScanPass) (world : ScanWorld),
    Steps (ScanStep fromBlock) ⟨chain, ⟨fromBlock, []⟩⟩
      (events ++ [.pass (.ok latest) hashlock (.ok pass)]) world →
    Coherent fromBlock world latest hashlock pass := by
  intro coherent
  have scans : runScan ⟨18446744073709511616, []⟩ 18446744073709511616 (.ok (BitVec.allOnes 64))
      testHashlock testChain.fetch =
      (.ok ⟨[Bytes.zero 32], 18446744073709511615, false⟩,
        ⟨18446744073709511616, testChain.logs⟩) := by
    decide
  have step := @ScanStep.pass 18446744073709511616 ⟨testChain, ⟨18446744073709511616, []⟩⟩
    (.ok (BitVec.allOnes 64)) testHashlock _ testChain.fetch_serves
  rw [scans] at step
  have canonical := (coherent _ _ [] _ _ _ _ (Steps.single step)).canonical
    ⟨Bytes.zero 32, testHashlock, 40000, Bytes.zero 32, 0⟩
  simp [testChain] at canonical

end AtomicSwaps.Mcp
