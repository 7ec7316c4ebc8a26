import AtomicSwaps.Swap.Types
import Mathlib.Order.Bounds.Basic

/-!
# From a time to a block

`first_block_at_or_after` and `last_block_at_or_before` of `src/eth/report.rs`. The lookup of a
block's timestamp may fail; no search asks for a block twice, so it is a function of the block.
-/

namespace AtomicSwaps.Eth

/-- The lookup of a block's timestamp. -/
abbrev Lookup := U64 → Except SwapError U64

/-- The block that the search for the first one tries. -/
def firstMid (lo hi : U64) : U64 := lo + (hi - lo) / 2

/-- The block that the search for the last one tries. -/
def lastMid (lo hi : U64) : U64 := hi - (hi - lo) / 2

section Midpoints

variable {lo hi : U64}

theorem toNat_half (more : lo < hi) : ((hi - lo) / 2).toNat = (hi.toNat - lo.toNat) / 2 := by
  have two : (2 : U64).toNat = 2 := rfl
  have bound := hi.isLt
  rw [BitVec.lt_def] at more
  rw [BitVec.toNat_udiv, BitVec.toNat_sub, two]
  omega

theorem toNat_firstMid (more : lo < hi) :
    (firstMid lo hi).toNat = lo.toNat + (hi.toNat - lo.toNat) / 2 := by
  have half := toNat_half more
  have bound := hi.isLt
  rw [BitVec.lt_def] at more
  rw [firstMid, BitVec.toNat_add, half]
  omega

theorem toNat_lastMid (more : lo < hi) :
    (lastMid lo hi).toNat = hi.toNat - (hi.toNat - lo.toNat) / 2 := by
  have half := toNat_half more
  have bound := hi.isLt
  rw [BitVec.lt_def] at more
  rw [lastMid, BitVec.toNat_sub, half]
  omega

/-- The block after the one tried does not wrap. -/
theorem toNat_firstMid_next (more : lo < hi) :
    (firstMid lo hi + 1).toNat = (firstMid lo hi).toNat + 1 := by
  have one : (1 : U64).toNat = 1 := rfl
  have middle := toNat_firstMid more
  have bound := hi.isLt
  rw [BitVec.lt_def] at more
  rw [BitVec.toNat_add, one]
  omega

/-- There is a block before the one tried. -/
theorem toNat_lastMid_previous (more : lo < hi) :
    0 < (lastMid lo hi).toNat ∧ (lastMid lo hi - 1).toNat = (lastMid lo hi).toNat - 1 := by
  have one : (1 : U64).toNat = 1 := rfl
  have middle := toNat_lastMid more
  have bound := hi.isLt
  rw [BitVec.lt_def] at more
  refine ⟨by omega, ?_⟩
  rw [BitVec.toNat_sub, one]
  omega

end Midpoints

/-- The loop of `first_block_at_or_after`. -/
def searchFirst (target : U64) (blockTimestamp : Lookup) (lo hi : U64) : Except SwapError U64 :=
  if _more : lo < hi then
    match blockTimestamp (firstMid lo hi) with
    | .error e => .error e
    | .ok timestamp =>
        if target ≤ timestamp then searchFirst target blockTimestamp lo (firstMid lo hi)
        else searchFirst target blockTimestamp (firstMid lo hi + 1) hi
  else .ok lo
termination_by hi.toNat - lo.toNat
decreasing_by
  all_goals
    have middle := toNat_firstMid _more
    have next := toNat_firstMid_next _more
    rw [BitVec.lt_def] at _more
    omega

/-- `first_block_at_or_after`. -/
def firstBlockAtOrAfter (lo hi target : U64) (blockTimestamp : Lookup) :
    Except SwapError (Option U64) :=
  if hi < lo then .ok none
  else match blockTimestamp hi with
    | .error e => .error e
    | .ok timestamp =>
        if timestamp < target then .ok none
        else (searchFirst target blockTimestamp lo hi).map some

/-- The loop of `last_block_at_or_before`. -/
def searchLast (target : U64) (blockTimestamp : Lookup) (lo hi : U64) : Except SwapError U64 :=
  if _more : lo < hi then
    match blockTimestamp (lastMid lo hi) with
    | .error e => .error e
    | .ok timestamp =>
        if timestamp ≤ target then searchLast target blockTimestamp (lastMid lo hi) hi
        else searchLast target blockTimestamp lo (lastMid lo hi - 1)
  else .ok lo
termination_by hi.toNat - lo.toNat
decreasing_by
  all_goals
    have middle := toNat_lastMid _more
    have previous := toNat_lastMid_previous _more
    rw [BitVec.lt_def] at _more
    omega

/-- `last_block_at_or_before`. -/
def lastBlockAtOrBefore (lo hi target : U64) (blockTimestamp : Lookup) :
    Except SwapError (Option U64) :=
  if hi < lo then .ok none
  else match blockTimestamp lo with
    | .error e => .error e
    | .ok timestamp =>
        if target < timestamp then .ok none
        else (searchLast target blockTimestamp lo hi).map some

/-- A chain up to its head, whose timestamps do not decrease. -/
structure BlockTimes where
  head : U64
  time : U64 → U64
  sorted : ∀ {earlier later}, earlier ≤ later → later ≤ head → time earlier ≤ time later

/-- A lookup that fails or tells the timestamp. -/
def BlockTimes.Looks (times : BlockTimes) (blockTimestamp : Lookup) : Prop :=
  ∀ block, block ≤ times.head →
    blockTimestamp block = .ok (times.time block) ∨ ∃ e, blockTimestamp block = .error e

/-- The blocks of a range that are not older than a time. -/
def BlockTimes.since (times : BlockTimes) (lo hi target : U64) : Set U64 :=
  {block | lo ≤ block ∧ block ≤ hi ∧ target ≤ times.time block}

/-- The blocks of a range that are not newer than a time. -/
def BlockTimes.until_ (times : BlockTimes) (lo hi target : U64) : Set U64 :=
  {block | lo ≤ block ∧ block ≤ hi ∧ times.time block ≤ target}

/-- A search found the block that is extreme among some, or that there are none. -/
def Finds (extreme : Set U64 → U64 → Prop) (blocks : Set U64) :
    Except SwapError (Option U64) → Prop
  | .ok (some block) => extreme blocks block
  | .ok none => blocks = ∅
  | .error _ => True

section Searches

variable {times : BlockTimes} {blockTimestamp : Lookup} {lo hi target block : U64}

theorem BlockTimes.Looks.told (looks : times.Looks blockTimestamp) (within : block ≤ times.head)
    {timestamp : U64} (told : blockTimestamp block = .ok timestamp) :
    timestamp = times.time block := by
  rcases looks block within with same | ⟨e, failed⟩
  · exact Except.ok.inj (told.symm.trans same)
  · rw [failed] at told
    cases told

/-- The search for the first block ends at it: the blocks it leaves behind are too old. -/
theorem searchFirst_least (looks : times.Looks blockTimestamp) (order : lo ≤ hi)
    (within : hi ≤ times.head) (new : target ≤ times.time hi)
    (found : searchFirst target blockTimestamp lo hi = .ok block) :
    IsLeast (times.since lo hi target) block := by
  induction lo, hi using searchFirst.induct target blockTimestamp with
  | case1 lo hi more e failed =>
      rw [searchFirst, dif_pos more, failed] at found
      cases found
  | case2 lo hi more timestamp told recent ih =>
      have middle := toNat_firstMid more
      have below : firstMid lo hi ≤ hi := by
        rw [BitVec.lt_def] at more
        rw [BitVec.le_def]
        omega
      have above : lo ≤ firstMid lo hi := by
        rw [BitVec.le_def]
        omega
      have inside := BitVec.le_trans below within
      rw [searchFirst, dif_pos more, told] at found
      simp only [recent, if_true] at found
      have same := looks.told inside told
      obtain ⟨⟨first, last, enough⟩, least⟩ := ih above inside (same ▸ recent) found
      refine ⟨⟨first, BitVec.le_trans last below, enough⟩, fun other ⟨above, _, since⟩ => ?_⟩
      by_cases left : other ≤ firstMid lo hi
      · exact least ⟨above, left, since⟩
      · exact BitVec.le_trans last (BitVec.le_of_lt (BitVec.not_le.mp left))
  | case3 lo hi more timestamp told old ih =>
      have middle := toNat_firstMid more
      have next := toNat_firstMid_next more
      have bounds := more
      rw [BitVec.lt_def] at bounds
      have below : firstMid lo hi + 1 ≤ hi := by
        rw [BitVec.le_def]
        omega
      have inside : firstMid lo hi ≤ times.head := by
        rw [BitVec.le_def] at within ⊢
        omega
      rw [searchFirst, dif_pos more, told] at found
      simp only [old, if_false] at found
      obtain ⟨⟨first, last, enough⟩, least⟩ := ih below within new found
      refine ⟨⟨?_, last, enough⟩, fun other ⟨above, below, since⟩ => ?_⟩
      · rw [BitVec.le_def] at first ⊢
        omega
      · apply least
        refine ⟨?_, below, since⟩
        -- a block up to the one tried is as old as that one
        by_contra early
        have before : other ≤ firstMid lo hi := by
          rw [BitVec.le_def] at early ⊢
          omega
        rw [looks.told inside told] at old
        exact old (BitVec.le_trans since (times.sorted before inside))
  | case4 lo hi done =>
      rw [searchFirst, dif_neg done] at found
      cases found
      obtain rfl := BitVec.le_antisymm order (BitVec.not_lt.mp done)
      exact ⟨⟨BitVec.le_refl _, BitVec.le_refl _, new⟩, fun other ⟨above, _, _⟩ => above⟩

/-- The first block is found, if there is one. -/
theorem firstBlockAtOrAfter_finds (looks : times.Looks blockTimestamp)
    (within : hi ≤ times.head) :
    Finds IsLeast (times.since lo hi target) (firstBlockAtOrAfter lo hi target blockTimestamp) := by
  rw [firstBlockAtOrAfter]
  split
  · rename_i inverted
    refine Set.eq_empty_of_forall_notMem fun other ⟨above, below, _⟩ => ?_
    exact BitVec.not_le.mpr inverted (BitVec.le_trans above below)
  · rename_i order
    rw [BitVec.not_lt] at order
    split
    · trivial
    · rename_i timestamp told
      have same := looks.told within told
      split
      · rename_i old
        refine Set.eq_empty_of_forall_notMem fun other ⟨_, below, since⟩ => ?_
        rw [same] at old
        exact BitVec.not_le.mpr old (BitVec.le_trans since (times.sorted below within))
      · rename_i recent
        rw [BitVec.not_lt, same] at recent
        cases found : searchFirst target blockTimestamp lo hi with
        | error e => trivial
        | ok block => exact searchFirst_least looks order within recent found

/-- The search for the last block ends at it. -/
theorem searchLast_greatest (looks : times.Looks blockTimestamp) (order : lo ≤ hi)
    (within : hi ≤ times.head) (old : times.time lo ≤ target)
    (found : searchLast target blockTimestamp lo hi = .ok block) :
    IsGreatest (times.until_ lo hi target) block := by
  induction lo, hi using searchLast.induct target blockTimestamp with
  | case1 lo hi more e failed =>
      rw [searchLast, dif_pos more, failed] at found
      cases found
  | case2 lo hi more timestamp told early ih =>
      have middle := toNat_lastMid more
      have bounds := more
      rw [BitVec.lt_def] at bounds
      have below : lastMid lo hi ≤ hi := by
        rw [BitVec.le_def]
        omega
      have above : lo ≤ lastMid lo hi := by
        rw [BitVec.le_def]
        omega
      rw [searchLast, dif_pos more, told] at found
      simp only [early, if_true] at found
      have same := looks.told (BitVec.le_trans below within) told
      obtain ⟨⟨first, last, enough⟩, greatest⟩ := ih below within (same ▸ early) found
      refine ⟨⟨BitVec.le_trans above first, last, enough⟩, fun other ⟨_, below, until_⟩ => ?_⟩
      by_cases right : lastMid lo hi ≤ other
      · exact greatest ⟨right, below, until_⟩
      · exact BitVec.le_trans (BitVec.le_of_lt (BitVec.not_le.mp right)) first
  | case3 lo hi more timestamp told late ih =>
      have middle := toNat_lastMid more
      obtain ⟨positive, previous⟩ := toNat_lastMid_previous more
      have bounds := more
      rw [BitVec.lt_def] at bounds
      have above : lo ≤ lastMid lo hi - 1 := by
        rw [BitVec.le_def]
        omega
      have inside : lastMid lo hi - 1 ≤ times.head := by
        rw [BitVec.le_def] at within ⊢
        omega
      have tried : lastMid lo hi ≤ times.head := by
        rw [BitVec.le_def] at within ⊢
        omega
      rw [searchLast, dif_pos more, told] at found
      simp only [late, if_false] at found
      obtain ⟨⟨first, last, enough⟩, greatest⟩ := ih above inside old found
      refine ⟨⟨first, ?_, enough⟩, fun other ⟨above, below, until_⟩ => ?_⟩
      · rw [BitVec.le_def] at last ⊢
        omega
      · apply greatest
        refine ⟨above, ?_, until_⟩
        by_contra beyond
        have after : lastMid lo hi ≤ other := by
          rw [BitVec.le_def] at beyond ⊢
          omega
        rw [looks.told tried told] at late
        exact late (BitVec.le_trans (times.sorted after (BitVec.le_trans below within)) until_)
  | case4 lo hi done =>
      rw [searchLast, dif_neg done] at found
      cases found
      exact ⟨⟨BitVec.le_refl _, order, old⟩, fun other ⟨_, below, _⟩ =>
        BitVec.le_trans below (BitVec.not_lt.mp done)⟩

/-- The last block is found, if there is one. -/
theorem lastBlockAtOrBefore_finds (looks : times.Looks blockTimestamp)
    (within : hi ≤ times.head) :
    Finds IsGreatest (times.until_ lo hi target)
      (lastBlockAtOrBefore lo hi target blockTimestamp) := by
  rw [lastBlockAtOrBefore]
  split
  · rename_i inverted
    refine Set.eq_empty_of_forall_notMem fun other ⟨above, below, _⟩ => ?_
    exact BitVec.not_le.mpr inverted (BitVec.le_trans above below)
  · rename_i order
    rw [BitVec.not_lt] at order
    split
    · trivial
    · rename_i timestamp told
      have same := looks.told (BitVec.le_trans order within) told
      split
      · rename_i late
        refine Set.eq_empty_of_forall_notMem fun other ⟨above, below, until_⟩ => ?_
        rw [same] at late
        exact BitVec.not_le.mpr late
          (BitVec.le_trans (times.sorted above (BitVec.le_trans below within)) until_)
      · rename_i early
        rw [BitVec.not_lt, same] at early
        cases found : searchLast target blockTimestamp lo hi with
        | error e => trivial
        | ok block => exact searchLast_greatest looks order within early found

/-- A lookup that never fails. -/
def BlockTimes.told (times : BlockTimes) : Lookup := fun block => .ok (times.time block)

theorem BlockTimes.told_looks (times : BlockTimes) : times.Looks times.told :=
  fun _ _ => .inl rfl

theorem searchFirst_told : ∃ block, searchFirst target times.told lo hi = .ok block := by
  induction lo, hi using searchFirst.induct target times.told with
  | case1 lo hi more e failed => cases failed
  | case2 lo hi more timestamp told recent ih =>
      rw [searchFirst, dif_pos more, told]
      simpa only [recent, if_true] using ih
  | case3 lo hi more timestamp told old ih =>
      rw [searchFirst, dif_pos more, told]
      simpa only [old, if_false] using ih
  | case4 lo hi done => exact ⟨lo, by rw [searchFirst, dif_neg done]⟩

theorem searchLast_told : ∃ block, searchLast target times.told lo hi = .ok block := by
  induction lo, hi using searchLast.induct target times.told with
  | case1 lo hi more e failed => cases failed
  | case2 lo hi more timestamp told early ih =>
      rw [searchLast, dif_pos more, told]
      simpa only [early, if_true] using ih
  | case3 lo hi more timestamp told late ih =>
      rw [searchLast, dif_pos more, told]
      simpa only [late, if_false] using ih
  | case4 lo hi done => exact ⟨lo, by rw [searchLast, dif_neg done]⟩

theorem firstBlockAtOrAfter_told :
    ∃ found, firstBlockAtOrAfter lo hi target times.told = .ok found := by
  rw [firstBlockAtOrAfter]
  split
  · exact ⟨none, rfl⟩
  · dsimp only [BlockTimes.told]
    split
    · exact ⟨none, rfl⟩
    · obtain ⟨block, found⟩ := @searchFirst_told times lo hi target
      exact ⟨some block, congrArg (Except.map some) found⟩

theorem lastBlockAtOrBefore_told :
    ∃ found, lastBlockAtOrBefore lo hi target times.told = .ok found := by
  rw [lastBlockAtOrBefore]
  split
  · exact ⟨none, rfl⟩
  · dsimp only [BlockTimes.told]
    split
    · exact ⟨none, rfl⟩
    · obtain ⟨block, found⟩ := @searchLast_told times lo hi target
      exact ⟨some block, congrArg (Except.map some) found⟩

end Searches

end AtomicSwaps.Eth
