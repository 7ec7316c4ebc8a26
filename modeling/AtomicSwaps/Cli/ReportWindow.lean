import AtomicSwaps.Data.Assert
import AtomicSwaps.Eth.BlockSearch

/-!
# The window of a chain report

How `cmd_chain_report` of `src/cli/report.rs` comes from times to the blocks whose locks it
counts.
-/

namespace AtomicSwaps.Cli

open Eth

/-- `PINNED_DEPLOY_BLOCK`. -/
def PINNED_DEPLOY_BLOCK : U64 := 11417462

/-- `search_floor`. -/
def searchFloor (isPinnedVenue : Bool) (fromBlock : Option U64) : U64 :=
  match fromBlock with
  | some explicit => explicit
  | none => if isPinnedVenue then PINNED_DEPLOY_BLOCK else 0

/-- The arguments of `chain-report` that bound its window, besides `--from-block`. -/
structure WindowArgs where
  toBlock : Option U64
  since : Option U64
  until_ : Option U64

/-- The first block of the window. -/
def windowFrom (defaultFrom head : U64) (args : WindowArgs) (blockTimestamp : Lookup) :
    Except SwapError U64 :=
  match args.since with
  | some ts => do
      match ← firstBlockAtOrAfter defaultFrom head ts blockTimestamp with
      | some block => .ok block
      | none => .ok (U64.saturatingAdd head 1)
  | none => .ok defaultFrom

/-- `u64::min`. -/
def lesser (left right : U64) : U64 := if left ≤ right then left else right

/-- The last block of the window. -/
def windowTo (fromBlock head : U64) (args : WindowArgs) (blockTimestamp : Lookup) :
    Except SwapError U64 :=
  match args.until_ with
  | some ts => do
      match ← lastBlockAtOrBefore (lesser fromBlock head) head ts blockTimestamp with
      | some block => .ok block
      | none => .ok (U64.saturatingSub fromBlock 1)
  | none => .ok (lesser (args.toBlock.getD head) head)

/-- The blocks whose locks a report counts; each search has its own lookups. -/
def reportWindow (defaultFrom head : U64) (args : WindowArgs)
    (sinceTimestamp untilTimestamp : Lookup) : Except SwapError (U64 × U64) := do
  let fromBlock ← windowFrom defaultFrom head args sinceTimestamp
  let toBlock ← windowTo fromBlock head args untilTimestamp
  return (fromBlock, toBlock)

/-- A block is not past the end of the window. -/
def WindowArgs.Ends (args : WindowArgs) (times : BlockTimes) (block : U64) : Prop :=
  match args.until_ with
  | some ts => times.time block ≤ ts
  | none => ∀ last ∈ args.toBlock, block ≤ last

/-- The blocks that the arguments select. -/
def Selects (times : BlockTimes) (floor : U64) (args : WindowArgs) (block : U64) : Prop :=
  (floor ≤ block ∧ ∀ ts ∈ args.since, ts ≤ times.time block) ∧ block ≤ times.head ∧
    args.Ends times block

/-- What the resolution of a window promises: the searches find what they search for with
midpoints that do not wrap, and the window has exactly the selected blocks. -/
structure Resolves (times : BlockTimes) (floor : U64) (args : WindowArgs) : Prop where
  first : ∀ {blockTimestamp lo hi target}, times.Looks blockTimestamp → hi ≤ times.head →
    Finds IsLeast (times.since lo hi target) (firstBlockAtOrAfter lo hi target blockTimestamp)
  last : ∀ {blockTimestamp lo hi target}, times.Looks blockTimestamp → hi ≤ times.head →
    Finds IsGreatest (times.until_ lo hi target)
      (lastBlockAtOrBefore lo hi target blockTimestamp)
  unwrapped : ∀ {lo hi : U64}, lo < hi →
    (firstMid lo hi).toNat = lo.toNat + (hi.toNat - lo.toNat) / 2 ∧
    (firstMid lo hi + 1).toNat = (firstMid lo hi).toNat + 1 ∧
    (lastMid lo hi).toNat = hi.toNat - (hi.toNat - lo.toNat) / 2 ∧
    0 < (lastMid lo hi).toNat ∧ (lastMid lo hi - 1).toNat = (lastMid lo hi).toNat - 1
  window : ∀ {sinceTimestamp untilTimestamp fromBlock toBlock}, times.Looks sinceTimestamp →
    times.Looks untilTimestamp →
    reportWindow floor times.head args sinceTimestamp untilTimestamp = .ok (fromBlock, toBlock) →
    ∀ block, fromBlock ≤ block ∧ block ≤ toBlock ↔ Selects times floor args block

/-- The window starts at the first block of all, and its end is before that. -/
def BeforeGenesis (times : BlockTimes) (floor : U64) (args : WindowArgs) : Prop :=
  floor = 0 ∧ (∀ ts ∈ args.since, ts ≤ times.time 0) ∧ ∃ ts ∈ args.until_, ts < times.time 0

/-- The window starts after a head that no block can follow, and does not end before it. -/
def AfterEverything (times : BlockTimes) (args : WindowArgs) : Prop :=
  times.head = BitVec.allOnes 64 ∧ (∃ ts ∈ args.since, times.time times.head < ts) ∧
    args.Ends times times.head

variable {times : BlockTimes} {floor fromBlock toBlock block : U64} {args : WindowArgs}
  {blockTimestamp : Lookup}

theorem lesser_le_left (left right : U64) : lesser left right ≤ left := by
  rw [lesser]
  split
  · exact BitVec.le_refl _
  · rename_i greater
    exact BitVec.le_of_lt (BitVec.not_le.mp greater)

theorem le_lesser {left right : U64} : block ≤ lesser left right ↔ block ≤ left ∧ block ≤ right := by
  rw [lesser]
  simp only [BitVec.le_def]
  split <;> omega

theorem first_le (block : U64) : 0 ≤ block := BitVec.le_def.mpr (Nat.zero_le _)

theorem le_last (block : U64) : block ≤ BitVec.allOnes 64 := by
  have bound := block.isLt
  rw [BitVec.le_def, BitVec.toNat_allOnes]
  omega

/-- A report starts at the selected blocks, unless its head is the last block there can be and
it is too old. -/
theorem windowFrom_le_iff (looks : times.Looks blockTimestamp)
    (ends : times.head = BitVec.allOnes 64 → ∀ ts ∈ args.since, ts ≤ times.time times.head)
    (resolved : windowFrom floor times.head args blockTimestamp = .ok fromBlock)
    (within : block ≤ times.head) :
    fromBlock ≤ block ↔ floor ≤ block ∧ ∀ ts ∈ args.since, ts ≤ times.time block := by
  rw [windowFrom] at resolved
  cases since : args.since with
  | none =>
      rw [since] at resolved
      cases resolved
      simp
  | some ts =>
      rw [since] at resolved
      obtain ⟨found, search, resolved⟩ := Assert.bind_eq_ok.mp resolved
      have finds := @firstBlockAtOrAfter_finds _ _ floor _ ts looks (BitVec.le_refl times.head)
      rw [search] at finds
      simp only [Option.mem_def, Option.some.injEq, forall_eq']
      cases found with
      | some first =>
          cases resolved
          obtain ⟨⟨above, below, recent⟩, least⟩ := finds
          constructor
          · intro after
            exact ⟨BitVec.le_trans above after, BitVec.le_trans recent (times.sorted after within)⟩
          · rintro ⟨above, recent⟩
            exact least ⟨above, within, recent⟩
      | none =>
          cases resolved
          have none : ∀ other, floor ≤ other → other ≤ times.head → ¬ ts ≤ times.time other :=
            fun other above below recent =>
              (Set.eq_empty_iff_forall_notMem.mp finds) other ⟨above, below, recent⟩
          constructor
          · intro after
            exfalso
            by_cases top : times.head = BitVec.allOnes 64
            · exact none times.head (top ▸ le_last floor) (BitVec.le_refl _) (ends top ts since)
            · have inner : times.head.toNat ≠ 2 ^ 64 - 1 := by
                intro same
                apply top
                rw [← BitVec.toNat_inj, BitVec.toNat_allOnes]
                exact same
              have bound := times.head.isLt
              have one : (1 : U64).toNat = 1 := rfl
              rw [BitVec.le_def, U64.toNat_saturatingAdd, one] at after
              rw [BitVec.le_def] at within
              omega
          · rintro ⟨above, recent⟩
            exact absurd recent (none block above within)

/-- A report ends with the selected blocks, unless it starts at the first block of all and ends
before it. -/
theorem le_windowTo_iff (looks : times.Looks blockTimestamp)
    (starts : fromBlock = 0 → ∀ ts ∈ args.until_, times.time 0 ≤ ts)
    (resolved : windowTo fromBlock times.head args blockTimestamp = .ok toBlock)
    (after : fromBlock ≤ block) : block ≤ toBlock ↔ block ≤ times.head ∧ args.Ends times block := by
  rw [windowTo] at resolved
  rw [WindowArgs.Ends]
  cases until_ : args.until_ with
  | none =>
      rw [until_] at resolved
      cases resolved
      rw [le_lesser]
      cases args.toBlock with
      | none => simp
      | some last => simp [and_comm]
  | some ts =>
      rw [until_] at resolved
      obtain ⟨found, search, resolved⟩ := Assert.bind_eq_ok.mp resolved
      have finds := @lastBlockAtOrBefore_finds _ _ (lesser fromBlock times.head) _ ts looks
        (BitVec.le_refl times.head)
      rw [search] at finds
      have low := BitVec.le_trans (lesser_le_left fromBlock times.head) after
      cases found with
      | some last =>
          cases resolved
          obtain ⟨⟨above, below, early⟩, greatest⟩ := finds
          constructor
          · intro before
            exact ⟨BitVec.le_trans before below, BitVec.le_trans (times.sorted before below) early⟩
          · rintro ⟨within, early⟩
            exact greatest ⟨low, within, early⟩
      | none =>
          cases resolved
          have none : ∀ other, lesser fromBlock times.head ≤ other → other ≤ times.head →
              ¬ times.time other ≤ ts :=
            fun other above below early =>
              (Set.eq_empty_iff_forall_notMem.mp finds) other ⟨above, below, early⟩
          constructor
          · intro before
            exfalso
            by_cases genesis : fromBlock = 0
            · have zero : (0 : U64) ≤ times.head := first_le _
              have first : lesser fromBlock times.head ≤ 0 := genesis ▸ lesser_le_left _ _
              exact none 0 first zero (starts genesis ts until_)
            · have positive : fromBlock.toNat ≠ 0 := fun same => genesis (BitVec.eq_of_toNat_eq same)
              have one : (1 : U64).toNat = 1 := rfl
              rw [BitVec.le_def, U64.toNat_saturatingSub, one] at before
              rw [BitVec.le_def] at after
              omega
          · rintro ⟨within, early⟩
            exact absurd early (none block low within)

/-- A window that starts before everything that is too new starts at the first block. -/
theorem windowFrom_eq_zero (looks : times.Looks blockTimestamp)
    (resolved : windowFrom floor times.head args blockTimestamp = .ok 0)
    (ends : times.head = BitVec.allOnes 64 → ∀ ts ∈ args.since, ts ≤ times.time times.head) :
    floor = 0 ∧ ∀ ts ∈ args.since, ts ≤ times.time 0 := by
  obtain ⟨first, recent⟩ := (windowFrom_le_iff looks ends resolved (first_le _)).mp
    (BitVec.le_refl 0)
  exact ⟨BitVec.le_antisymm first (first_le _), recent⟩

/-- After everything, the window starts at the last block there can be. -/
theorem windowFrom_after (looks : times.Looks blockTimestamp)
    (top : times.head = BitVec.allOnes 64) {ts : U64} (since : args.since = some ts)
    (old : times.time times.head < ts)
    (resolved : windowFrom floor times.head args blockTimestamp = .ok fromBlock) :
    fromBlock = BitVec.allOnes 64 := by
  rw [windowFrom, since] at resolved
  obtain ⟨found, search, resolved⟩ := Assert.bind_eq_ok.mp resolved
  have finds := @firstBlockAtOrAfter_finds _ _ floor _ ts looks (BitVec.le_refl times.head)
  rw [search] at finds
  cases found with
  | some first =>
      obtain ⟨⟨-, below, recent⟩, -⟩ := finds
      exact absurd (BitVec.le_trans recent (times.sorted below (BitVec.le_refl _)))
        (BitVec.not_le.mpr old)
  | none =>
      cases resolved
      rw [top]
      decide

/-- What a window without defect has: the selected blocks. -/
theorem reportWindow_selects (genesis : ¬ BeforeGenesis times floor args)
    (everything : ¬ AfterEverything times args) {sinceTimestamp untilTimestamp : Lookup}
    (sinceLooks : times.Looks sinceTimestamp) (untilLooks : times.Looks untilTimestamp)
    (resolved : reportWindow floor times.head args sinceTimestamp untilTimestamp =
      .ok (fromBlock, toBlock)) (block : U64) :
    fromBlock ≤ block ∧ block ≤ toBlock ↔ Selects times floor args block := by
  obtain ⟨start, first, resolved⟩ := Assert.bind_eq_ok.mp resolved
  obtain ⟨stop, last, resolved⟩ := Assert.bind_eq_ok.mp resolved
  obtain ⟨rfl, rfl⟩ := Prod.mk.inj (Except.ok.inj resolved)
  rw [Selects]
  by_cases ends : times.head = BitVec.allOnes 64 → ∀ ts ∈ args.since, ts ≤ times.time times.head
  · -- the start is right, and so is the end
    have starts : start = 0 → ∀ ts ∈ args.until_, times.time 0 ≤ ts := by
      rintro rfl ts given
      obtain ⟨zero, recent⟩ := windowFrom_eq_zero sinceLooks first ends
      by_contra early
      exact genesis ⟨zero, recent, ts, given, BitVec.not_le.mp early⟩
    constructor
    · rintro ⟨after, before⟩
      obtain ⟨within, early⟩ := (le_windowTo_iff untilLooks starts last after).mp before
      exact ⟨(windowFrom_le_iff sinceLooks ends first within).mp after, within, early⟩
    · rintro ⟨selected, within, early⟩
      have after := (windowFrom_le_iff sinceLooks ends first within).mpr selected
      exact ⟨after, (le_windowTo_iff untilLooks starts last after).mpr ⟨within, early⟩⟩
  · -- nothing is new enough, and the window ends before the head
    simp only [Classical.not_imp, not_forall] at ends
    obtain ⟨top, ts, since, old⟩ := ends
    rw [BitVec.not_le] at old
    obtain rfl := windowFrom_after sinceLooks top since old first
    have starts : BitVec.allOnes 64 = 0 → ∀ ts ∈ args.until_, times.time 0 ≤ ts := by
      intro same
      exact absurd same (by decide)
    constructor
    · rintro ⟨after, before⟩
      obtain ⟨within, early⟩ := (le_windowTo_iff untilLooks starts last after).mp before
      have whole : block = times.head := BitVec.le_antisymm within (top ▸ after)
      exact absurd ⟨top, ⟨ts, since, old⟩, whole ▸ early⟩ everything
    · rintro ⟨⟨-, recent⟩, within, -⟩
      exact absurd (BitVec.le_trans (recent ts since) (times.sorted within (BitVec.le_refl _)))
        (BitVec.not_le.mpr old)

theorem reportWindow_told (times : BlockTimes) (floor : U64) (args : WindowArgs) :
    ∃ fromBlock toBlock, windowFrom floor times.head args times.told = .ok fromBlock ∧
      windowTo fromBlock times.head args times.told = .ok toBlock ∧
      reportWindow floor times.head args times.told times.told = .ok (fromBlock, toBlock) := by
  obtain ⟨fromBlock, first⟩ : ∃ fromBlock,
      windowFrom floor times.head args times.told = .ok fromBlock := by
    rw [windowFrom]
    split
    · rename_i ts _
      obtain ⟨found, search⟩ := @firstBlockAtOrAfter_told times floor times.head ts
      rw [search]
      cases found <;> exact ⟨_, rfl⟩
    · exact ⟨_, rfl⟩
  obtain ⟨toBlock, last⟩ : ∃ toBlock,
      windowTo fromBlock times.head args times.told = .ok toBlock := by
    rw [windowTo]
    split
    · rename_i ts _
      obtain ⟨found, search⟩ :=
        @lastBlockAtOrBefore_told times (lesser fromBlock times.head) times.head ts
      rw [search]
      cases found <;> exact ⟨_, rfl⟩
    · exact ⟨_, rfl⟩
  refine ⟨fromBlock, toBlock, first, last, ?_⟩
  exact Assert.bind_eq_ok.mpr ⟨fromBlock, first, Assert.bind_eq_ok.mpr ⟨toBlock, last, rfl⟩⟩

/-- A report's window is resolved right unless it starts at the first block of all and ends
before it, or starts after a head that is the last block there can be. -/
theorem window_resolves_iff (times : BlockTimes) (isPinnedVenue : Bool) (fromBlock : Option U64)
    (args : WindowArgs) : Resolves times (searchFloor isPinnedVenue fromBlock) args ↔
      ¬ BeforeGenesis times (searchFloor isPinnedVenue fromBlock) args ∧
        ¬ AfterEverything times args := by
  constructor
  · intro resolves
    obtain ⟨start, stop, first, last, resolved⟩ := reportWindow_told times
      (searchFloor isPinnedVenue fromBlock) args
    have window := resolves.window times.told_looks times.told_looks resolved
    constructor
    · rintro ⟨zero, recent, ts, given, early⟩
      have ends : times.head = BitVec.allOnes 64 → ∀ ts ∈ args.since, ts ≤ times.time times.head :=
        fun _ ts given => BitVec.le_trans (recent ts given)
          (times.sorted (first_le _) (BitVec.le_refl _))
      have starts := (windowFrom_le_iff times.told_looks ends first (first_le _)).mpr
        ⟨zero ▸ BitVec.le_refl 0, recent⟩
      obtain ⟨-, -, selected⟩ := (window 0).mp ⟨starts, first_le stop⟩
      rw [WindowArgs.Ends, Option.mem_def.mp given] at selected
      exact BitVec.not_le.mpr early selected
    · rintro ⟨top, ⟨ts, since, old⟩, ends⟩
      obtain rfl := windowFrom_after times.told_looks top since old first
      have starts : BitVec.allOnes 64 = 0 → ∀ ts ∈ args.until_, times.time 0 ≤ ts := by
        intro same
        exact absurd same (by decide)
      have after : BitVec.allOnes 64 ≤ times.head := top ▸ BitVec.le_refl _
      have before := (le_windowTo_iff times.told_looks starts last after).mpr
        ⟨BitVec.le_refl _, ends⟩
      obtain ⟨⟨-, recent⟩, -⟩ := (window times.head).mp ⟨after, before⟩
      exact BitVec.not_le.mpr old (recent ts since)
  · rintro ⟨genesis, everything⟩
    exact ⟨firstBlockAtOrAfter_finds, lastBlockAtOrBefore_finds, fun more =>
      ⟨toNat_firstMid more, toNat_firstMid_next more, toNat_lastMid more,
        toNat_lastMid_previous more⟩, reportWindow_selects genesis everything⟩

/-- A chain of one block, of the second 100. -/
def localnet : BlockTimes := ⟨0, fun _ => 100, fun _ _ => BitVec.le_refl _⟩

/-- A report on a chain from its first block until a time before it counts the locks of that
block. -/
theorem until_before_genesis :
    reportWindow (searchFloor false (some 0)) localnet.head ⟨none, none, some 99⟩ localnet.told
      localnet.told = .ok (0, 0) ∧
    ¬ Resolves localnet (searchFloor false (some 0)) ⟨none, none, some 99⟩ := by
  constructor
  · rfl
  · intro resolves
    have early := (window_resolves_iff localnet false (some 0) ⟨none, none, some 99⟩).mp resolves
    exact early.1 ⟨rfl, nofun, 99, rfl, by decide⟩

end AtomicSwaps.Cli
