import AtomicSwaps.Eth.HTLC
import Mathlib.Algebra.BigOperators.Group.Finset.Piecewise
import Mathlib.Data.Finset.Sort

/-!
# The tally of a chain report

`SwapTally` of `src/eth/report.rs`: locks, claims and refunds are collected apart, in
any order and any number of times, and joined into counts at the end.
-/

namespace AtomicSwaps.Eth

/-- Byte arrays in their lexicographic order. -/
instance {length : Nat} : Ord (Bytes length) := ⟨compareOn List.Vector.toList⟩

instance {length : Nat} : Std.TransOrd (Bytes length) :=
  inferInstanceAs (Std.TransCmp (compareOn (List.Vector.toList (n := length))))

instance : Std.TransOrd Bytes32 := inferInstance

instance : Std.TransOrd Address := inferInstance

instance {length : Nat} : Std.LawfulEqOrd (Bytes length) where
  eq_of_compare {left right} same :=
    List.Vector.eq left right (Std.LawfulEqOrd.eq_of_compare (α := List UInt8) same)

/-- `LockedRow`. -/
structure LockedRow where
  swapId : Bytes32
  sender : Address
  recipient : Address
deriving DecidableEq

/-- `SwapTally`. -/
structure SwapTally where
  locks : Std.ExtTreeMap Bytes32 LockedRow
  claimed : Finset Bytes32
  refunded : Finset Bytes32
  /-- Locks stand under their own swap ids. -/
  keyed : ∀ (swapId : Bytes32) (row : LockedRow), locks[swapId]? = some row → row.swapId = swapId

namespace SwapTally

/-- `SwapTally::new`. -/
def new : SwapTally where
  locks := ∅
  claimed := ∅
  refunded := ∅
  keyed _ _ found := by simp at found

/-- `SwapTally::record_lock`. -/
def recordLock (tally : SwapTally) (row : LockedRow) : SwapTally :=
  { tally with
    locks := tally.locks.insertIfNew row.swapId row
    keyed := by
      intro swapId found member
      rw [Std.ExtTreeMap.getElem?_insertIfNew] at member
      split at member
      · rename_i fresh
        cases member
        exact Std.LawfulEqOrd.eq_of_compare fresh.1
      · exact tally.keyed swapId found member }

/-- `SwapTally::record_claim`. -/
def recordClaim (tally : SwapTally) (swapId : Bytes32) : SwapTally :=
  { tally with claimed := insert swapId tally.claimed }

/-- `SwapTally::record_refund`. -/
def recordRefund (tally : SwapTally) (swapId : Bytes32) : SwapTally :=
  { tally with refunded := insert swapId tally.refunded }

/-- The tally of a decoded log. -/
def ingest (tally : SwapTally) : Log → SwapTally
  | .Locked swapId sender recipient .. => tally.recordLock ⟨swapId, sender, recipient⟩
  | .Claimed swapId _ => tally.recordClaim swapId
  | .Refunded swapId => tally.recordRefund swapId

end SwapTally

/-- `MakerCounts`. -/
structure MakerCounts where
  recipient : String
  attempted : Nat
  completed : Nat
  refunded : Nat
  stillOpen : Nat
deriving DecidableEq

/-- `MakerCounts::empty`. -/
def MakerCounts.empty (recipient : String) : MakerCounts := ⟨recipient, 0, 0, 0, 0⟩

/-- `SwapCounts`. -/
structure SwapCounts where
  attempted : Nat
  completed : Nat
  refunded : Nat
  stillOpen : Nat
  distinctTakerWallets : Nat
  byMaker : List MakerCounts
deriving DecidableEq

/-- What `counts` keeps while it goes through the locks. -/
structure CountState where
  perMaker : Std.ExtTreeMap Address MakerCounts
  takers : Finset Address
  completed : Nat
  refunded : Nat

namespace SwapTally

variable (toString : Address → String) (tally : SwapTally)

/-- One more lock of a maker, by its outcome. -/
def countMaker (row : LockedRow) (entry : MakerCounts) : MakerCounts :=
  let entry := { entry with attempted := entry.attempted + 1 }
  if row.swapId ∈ tally.claimed then { entry with completed := entry.completed + 1 }
  else if row.swapId ∈ tally.refunded then { entry with refunded := entry.refunded + 1 }
  else { entry with stillOpen := entry.stillOpen + 1 }

/-- The body of the loop over the locks. -/
def countRow (state : CountState) (row : LockedRow) : CountState where
  takers := insert row.sender state.takers
  perMaker := state.perMaker.alter row.recipient fun entry =>
    some (tally.countMaker row (entry.getD (.empty (toString row.recipient))))
  completed := if row.swapId ∈ tally.claimed then state.completed + 1 else state.completed
  refunded :=
    if row.swapId ∈ tally.claimed then state.refunded
    else if row.swapId ∈ tally.refunded then state.refunded + 1
    else state.refunded

/-- The locks in the order of their swap ids. -/
def rows : List LockedRow := tally.locks.toList.map Prod.snd

/-- `SwapTally::counts`. -/
def counts : SwapCounts :=
  let state := tally.rows.foldl (tally.countRow toString) ⟨∅, ∅, 0, 0⟩
  let attempted := tally.locks.size
  { attempted
    completed := state.completed
    refunded := state.refunded
    stillOpen := attempted - state.completed - state.refunded
    distinctTakerWallets := state.takers.card
    byMaker := state.perMaker.toList.map Prod.snd }

end SwapTally

/-- The contract's events, by the signature hash in the first topic. -/
inductive EventKind where
  | Locked
  | Claimed
  | Refunded
deriving DecidableEq

/-- The kind of a log. -/
def Log.kind : Log → EventKind
  | .Locked .. => .Locked
  | .Claimed .. => .Claimed
  | .Refunded .. => .Refunded

/-- The swap a log is about. -/
def Log.swapId : Log → Bytes32
  | .Locked swapId .. | .Claimed swapId _ | .Refunded swapId => swapId

/-- The lock a log tells of, if it tells of one. -/
def Log.row? : Log → Option LockedRow
  | .Locked swapId sender recipient .. => some ⟨swapId, sender, recipient⟩
  | .Claimed .. | .Refunded _ => none

theorem Log.row?_eq_some {log : Log} {row : LockedRow} (tells : log.row? = some row) :
    log.kind = .Locked ∧ log.swapId = row.swapId := by
  cases log with
  | Locked =>
      cases tells
      exact ⟨rfl, rfl⟩
  | Claimed => cases tells
  | Refunded => cases tells

theorem Log.exists_row? {log : Log} (locked : log.kind = .Locked) :
    ∃ row, log.row? = some row := by
  cases log with
  | Locked => exact ⟨_, rfl⟩
  | Claimed => cases locked
  | Refunded => cases locked

/-- Logs of one swap id tell of one lock. -/
def Consistent (logs : List Log) : Prop :=
  ∀ first ∈ logs, ∀ second ∈ logs, ∀ row row', first.row? = some row → second.row? = some row' →
    row.swapId = row'.swapId → row = row'

/-- Chunks of logs, one after the other. -/
def SwapTally.ingestChunks (tally : SwapTally) (chunks : List (List Log)) : SwapTally :=
  chunks.foldl (fun tally chunk => chunk.foldl ingest tally) tally

section Ingesting

variable {tally : SwapTally} {logs : List Log}

theorem SwapTally.ext_lookup {first second : SwapTally}
    (locks : ∀ swapId : Bytes32, first.locks[swapId]? = second.locks[swapId]?)
    (claimed : first.claimed = second.claimed) (refunded : first.refunded = second.refunded) :
    first = second := by
  obtain ⟨_, _, _, _⟩ := first
  obtain ⟨_, _, _, _⟩ := second
  obtain rfl := Std.ExtTreeMap.ext_getElem? locks
  obtain rfl := claimed
  obtain rfl := refunded
  rfl

/-- Chunks do not matter. -/
theorem SwapTally.ingestChunks_eq (tally : SwapTally) (chunks : List (List Log)) :
    tally.ingestChunks chunks = chunks.flatten.foldl ingest tally := by
  induction chunks generalizing tally with
  | nil => rfl
  | cons chunk rest ih => simp [ingestChunks, List.foldl_append, ← ih]

theorem mem_claimed_foldl {swapId : Bytes32} :
    swapId ∈ (logs.foldl SwapTally.ingest tally).claimed ↔
      swapId ∈ tally.claimed ∨ ∃ preimage, Log.Claimed swapId preimage ∈ logs := by
  induction logs generalizing tally with
  | nil => simp
  | cons log rest ih =>
      rw [List.foldl_cons, ih]
      cases log with
      | Claimed claimedId preimage =>
          simp only [SwapTally.ingest, SwapTally.recordClaim, Finset.mem_insert, List.mem_cons,
            Log.Claimed.injEq]
          constructor
          · rintro ((rfl | before) | ⟨preimage', later⟩)
            · exact .inr ⟨preimage, .inl ⟨rfl, rfl⟩⟩
            · exact .inl before
            · exact .inr ⟨preimage', .inr later⟩
          · rintro (before | ⟨preimage', ⟨rfl, -⟩ | later⟩)
            · exact .inl (.inr before)
            · exact .inl (.inl rfl)
            · exact .inr ⟨preimage', later⟩
      | Locked => simp [SwapTally.ingest, SwapTally.recordLock]
      | Refunded => simp [SwapTally.ingest, SwapTally.recordRefund]

theorem mem_refunded_foldl {swapId : Bytes32} :
    swapId ∈ (logs.foldl SwapTally.ingest tally).refunded ↔
      swapId ∈ tally.refunded ∨ Log.Refunded swapId ∈ logs := by
  induction logs generalizing tally with
  | nil => simp
  | cons log rest ih =>
      rw [List.foldl_cons, ih]
      cases log with
      | Refunded refundedId =>
          simp only [SwapTally.ingest, SwapTally.recordRefund, Finset.mem_insert, List.mem_cons,
            Log.Refunded.injEq]
          constructor
          · rintro ((rfl | before) | later)
            · exact .inr (.inl rfl)
            · exact .inl before
            · exact .inr (.inr later)
          · rintro (before | rfl | later)
            · exact .inl (.inr before)
            · exact .inl (.inl rfl)
            · exact .inr later
      | Locked => simp [SwapTally.ingest, SwapTally.recordLock]
      | Claimed => simp [SwapTally.ingest, SwapTally.recordClaim]

/-- The first lock of a swap id stays. -/
theorem locks_foldl {swapId : Bytes32} : (logs.foldl SwapTally.ingest tally).locks[swapId]? =
    tally.locks[swapId]?.or (logs.filterMap Log.row? |>.find? (·.swapId = swapId)) := by
  induction logs generalizing tally with
  | nil => simp
  | cons log rest ih =>
      rw [List.foldl_cons, ih]
      cases log with
      | Locked lockedId sender recipient =>
          simp only [SwapTally.ingest, SwapTally.recordLock, List.filterMap_cons, Log.row?,
            Std.ExtTreeMap.getElem?_insertIfNew, Std.LawfulEqOrd.compare_eq_iff_eq]
          by_cases same : lockedId = swapId
          · subst same
            cases found : tally.locks[lockedId]? with
            | none =>
                have fresh : lockedId ∉ tally.locks := by
                  simp [Std.ExtTreeMap.mem_iff_isSome_getElem?, found]
                simp [fresh]
            | some row =>
                have there : lockedId ∈ tally.locks := by
                  simp [Std.ExtTreeMap.mem_iff_isSome_getElem?, found]
                simp [there]
          · simp [same]
      | Claimed => simp [SwapTally.ingest, SwapTally.recordClaim, Log.row?]
      | Refunded => simp [SwapTally.ingest, SwapTally.recordRefund, Log.row?]

/-- A swap is in the tally as its lock tells. -/
theorem locks_eq_some (consistent : Consistent logs) {swapId : Bytes32} {row : LockedRow} :
    (logs.foldl SwapTally.ingest .new).locks[swapId]? = some row ↔
      row.swapId = swapId ∧ ∃ log ∈ logs, log.row? = some row := by
  have start : (SwapTally.new.locks)[swapId]? = none := by simp [SwapTally.new]
  rw [locks_foldl, start, Option.none_or]
  constructor
  · intro found
    have named := List.find?_some found
    obtain ⟨log, member, tells⟩ := List.mem_filterMap.mp (List.mem_of_find?_eq_some found)
    exact ⟨by simpa using named, log, member, tells⟩
  · rintro ⟨rfl, log, member, tells⟩
    have there : row ∈ logs.filterMap Log.row? := List.mem_filterMap.mpr ⟨log, member, tells⟩
    cases found : (logs.filterMap Log.row?).find? (·.swapId = row.swapId) with
    | none =>
        have absent := List.find?_eq_none.mp found row there
        simp at absent
    | some other =>
        have named := List.find?_some found
        obtain ⟨log', member', tells'⟩ := List.mem_filterMap.mp (List.mem_of_find?_eq_some found)
        rw [consistent log' member' log member other row tells' tells (by simpa using named)]

/-- The tally depends on what logs there are only. -/
theorem tally_eq_of_same_logs {logs other : List Log} (consistent : Consistent logs)
    (same : ∀ log, log ∈ logs ↔ log ∈ other) :
    logs.foldl SwapTally.ingest .new = other.foldl SwapTally.ingest .new := by
  have consistent' : Consistent other := fun first here second there =>
    consistent first ((same first).mpr here) second ((same second).mpr there)
  apply SwapTally.ext_lookup
  · intro swapId
    ext row
    rw [locks_eq_some consistent, locks_eq_some consistent']
    simp only [same]
  · ext swapId
    simp only [mem_claimed_foldl, same]
  · ext swapId
    simp only [mem_refunded_foldl, same]

end Ingesting

/-- What has become of a lock. -/
inductive Outcome where
  | completed
  | refunded
  | stillOpen
deriving DecidableEq

namespace SwapTally

variable (toString : Address → String) (tally : SwapTally)

/-- What the tally knows of a lock: a claim counts before a refund. -/
def outcome (row : LockedRow) : Outcome :=
  if row.swapId ∈ tally.claimed then .completed
  else if row.swapId ∈ tally.refunded then .refunded
  else .stillOpen

/-- How many locks of a list have come to an outcome. -/
def countOutcome (rows : List LockedRow) (outcome : Outcome) : Nat :=
  rows.countP fun row => tally.outcome row = outcome

/-- The locks of one maker. -/
def rowsOf (maker : Address) (rows : List LockedRow) : List LockedRow :=
  rows.filter (·.recipient = maker)

/-- The counts of one maker's locks. -/
def makerCounts (maker : Address) (rows : List LockedRow) : MakerCounts where
  recipient := toString maker
  attempted := (rowsOf maker rows).length
  completed := tally.countOutcome (rowsOf maker rows) .completed
  refunded := tally.countOutcome (rowsOf maker rows) .refunded
  stillOpen := tally.countOutcome (rowsOf maker rows) .stillOpen

variable {tally} {rows : List LockedRow}

/-- Every lock has one outcome. -/
theorem countOutcome_add : tally.countOutcome rows .completed + tally.countOutcome rows .refunded +
    tally.countOutcome rows .stillOpen = rows.length := by
  induction rows with
  | nil => rfl
  | cons row rest ih =>
      simp only [countOutcome, List.countP_cons, List.length_cons] at ih ⊢
      cases tally.outcome row with
      | completed => simp; omega
      | refunded => simp; omega
      | stillOpen => simp; omega

theorem countMaker_makerCounts (row : LockedRow) :
    tally.countMaker row (tally.makerCounts toString row.recipient rows) =
      tally.makerCounts toString row.recipient (rows ++ [row]) := by
  have mine : rowsOf row.recipient (rows ++ [row]) = rowsOf row.recipient rows ++ [row] := by
    simp [rowsOf]
  simp only [makerCounts, mine, countOutcome, List.countP_append, List.length_append,
    List.countP_singleton, List.length_singleton, countMaker, outcome]
  by_cases claimed : row.swapId ∈ tally.claimed
  · simp [claimed]
  · by_cases refunded : row.swapId ∈ tally.refunded
    · simp [claimed, refunded]
    · simp [claimed, refunded]

theorem makerCounts_other {maker : Address} {row : LockedRow} (other : row.recipient ≠ maker) :
    tally.makerCounts toString maker (rows ++ [row]) = tally.makerCounts toString maker rows := by
  have mine : rowsOf maker (rows ++ [row]) = rowsOf maker rows := by simp [rowsOf, other]
  simp only [makerCounts, mine]

variable (tally) in
/-- What the loop has counted after some locks. -/
structure Counted (rows : List LockedRow) (state : CountState) : Prop where
  completed : state.completed = tally.countOutcome rows .completed
  refunded : state.refunded = tally.countOutcome rows .refunded
  takers : state.takers = (rows.map (·.sender)).toFinset
  makers : ∀ maker : Address, state.perMaker[maker]? =
    if maker ∈ rows.map (·.recipient) then some (tally.makerCounts toString maker rows) else none

variable {toString}

/-- One more lock is counted by its outcome. -/
theorem Counted.step {state : CountState} (counted : tally.Counted toString rows state)
    (row : LockedRow) :
    tally.Counted toString (rows ++ [row]) (tally.countRow toString state row) where
  completed := by
    simp only [countRow, countOutcome, List.countP_append, List.countP_singleton, counted.completed,
      outcome]
    by_cases claimed : row.swapId ∈ tally.claimed
    · simp [claimed]
    · by_cases refunded : row.swapId ∈ tally.refunded <;> simp [claimed, refunded]
  refunded := by
    simp only [countRow, countOutcome, List.countP_append, List.countP_singleton, counted.refunded,
      outcome]
    by_cases claimed : row.swapId ∈ tally.claimed
    · simp [claimed]
    · by_cases refunded : row.swapId ∈ tally.refunded <;> simp [claimed, refunded]
  takers := by
    ext sender
    simp [countRow, counted.takers]
  makers maker := by
    simp only [countRow, Std.ExtTreeMap.getElem?_alter, Std.LawfulEqOrd.compare_eq_iff_eq,
      counted.makers, List.map_append, List.map_singleton, List.mem_append, List.mem_singleton]
    by_cases mine : row.recipient = maker
    · subst mine
      rw [if_pos rfl, ← countMaker_makerCounts]
      by_cases known : row.recipient ∈ rows.map (·.recipient)
      · simp [known]
      · have none : rowsOf row.recipient rows = [] := by
          apply List.filter_eq_nil_iff.mpr
          intro other member same
          exact known (List.mem_map.mpr ⟨other, member, by simpa using same⟩)
        have start : tally.makerCounts toString row.recipient rows =
            .empty (toString row.recipient) := by
          rw [makerCounts, none]
          rfl
        simp [known, start]
    · have other : maker ≠ row.recipient := fun same => mine same.symm
      simp [mine, other, makerCounts_other toString mine]

/-- The loop counts every lock by its outcome. -/
theorem counted_foldl (rows : List LockedRow) :
    tally.Counted toString rows (rows.foldl (tally.countRow toString) ⟨∅, ∅, 0, 0⟩) := by
  induction rows using List.reverseRecOn with
  | nil => exact ⟨rfl, rfl, rfl, by simp⟩
  | append_singleton rows row ih =>
      rw [List.foldl_append]
      exact ih.step row

theorem length_rows : tally.rows.length = tally.locks.size := by
  simp [rows]

/-- The locks of the tally. -/
theorem mem_rows {row : LockedRow} : row ∈ tally.rows ↔ tally.locks[row.swapId]? = some row := by
  simp only [rows, List.mem_map, Prod.exists, exists_eq_right,
    Std.ExtTreeMap.mem_toList_iff_getElem?_eq_some]
  constructor
  · rintro ⟨swapId, found⟩
    obtain rfl := tally.keyed swapId row found
    exact found
  · exact fun found => ⟨row.swapId, found⟩

/-- No two locks of the tally are of one swap. -/
theorem nodup_rows : (tally.rows.map (·.swapId)).Nodup := by
  have keys : tally.rows.map (·.swapId) = tally.locks.keys := by
    rw [← Std.ExtTreeMap.map_fst_toList_eq_keys, rows, List.map_map]
    apply List.map_congr_left
    rintro ⟨swapId, row⟩ member
    exact tally.keyed swapId row (Std.ExtTreeMap.mem_toList_iff_getElem?_eq_some.mp member)
  rw [keys]
  exact Std.ExtTreeMap.nodup_keys

/-- The locks of all makers are all locks. -/
theorem sum_rowsOf {makers : List Address} (distinct : makers.Nodup)
    (all : ∀ row ∈ rows, row.recipient ∈ makers) (counted : LockedRow → Bool) :
    (makers.map fun maker => (rowsOf maker rows).countP counted).sum = rows.countP counted := by
  rw [← List.sum_toFinset _ distinct]
  induction rows with
  | nil => simp [rowsOf]
  | cons row rest ih =>
      have head : ∀ maker, (rowsOf maker (row :: rest)).countP counted =
          (rowsOf maker rest).countP counted +
            if row.recipient = maker then (if counted row then 1 else 0) else 0 := by
        intro maker
        by_cases mine : row.recipient = maker
        · simp [rowsOf, mine, List.countP_cons]
        · simp [rowsOf, mine]
      have there : row.recipient ∈ makers.toFinset := by
        simpa using all row List.mem_cons_self
      simp only [head, Finset.sum_add_distrib, Finset.sum_ite_eq, there, if_true, List.countP_cons]
      rw [ih fun other member => all other (List.mem_cons_of_mem _ member)]

variable (tally toString) in
/-- The makers are those of the locks, in the order of their addresses. -/
theorem byMaker_eq : ∃ makers : List Address, makers.Pairwise (fun first second => compare first second = .lt) ∧
    makers.Nodup ∧ (∀ maker, maker ∈ makers ↔ ∃ row ∈ tally.rows, row.recipient = maker) ∧
    (tally.counts toString).byMaker =
      makers.map fun maker => tally.makerCounts toString maker tally.rows := by
  have counted : tally.Counted toString tally.rows _ := counted_foldl tally.rows
  refine ⟨(tally.rows.foldl (tally.countRow toString) ⟨∅, ∅, 0, 0⟩).perMaker.keys,
    Std.ExtTreeMap.ordered_keys, Std.ExtTreeMap.nodup_keys, fun maker => ?_, ?_⟩
  · rw [Std.ExtTreeMap.mem_keys, Std.ExtTreeMap.mem_iff_isSome_getElem?, counted.makers]
    by_cases known : ∃ row ∈ tally.rows, row.recipient = maker
    · simp [known]
    · simp [known]
  · rw [← Std.ExtTreeMap.map_fst_toList_eq_keys, counts, List.map_map]
    apply List.map_congr_left
    rintro ⟨maker, entry⟩ member
    have found := Std.ExtTreeMap.mem_toList_iff_getElem?_eq_some.mp member
    rw [counted.makers] at found
    split at found
    · exact (Option.some.inj found).symm
    · cases found

section Counts

variable (toString tally)

theorem counts_attempted : (tally.counts toString).attempted = tally.rows.length := length_rows.symm

theorem counts_completed :
    (tally.counts toString).completed = tally.countOutcome tally.rows .completed :=
  (counted_foldl tally.rows).completed

theorem counts_refunded :
    (tally.counts toString).refunded = tally.countOutcome tally.rows .refunded :=
  (counted_foldl tally.rows).refunded

theorem counts_stillOpen :
    (tally.counts toString).stillOpen = tally.countOutcome tally.rows .stillOpen := by
  have total := @countOutcome_add tally tally.rows
  have open_ : (tally.counts toString).stillOpen = (tally.counts toString).attempted -
      (tally.counts toString).completed - (tally.counts toString).refunded := rfl
  rw [open_, counts_attempted, counts_completed, counts_refunded]
  omega

theorem counts_takers : (tally.counts toString).distinctTakerWallets =
    (tally.rows.map (·.sender)).toFinset.card :=
  congrArg Finset.card (counted_foldl tally.rows).takers

/-- Every column of the makers adds up to what all makers have. -/
theorem sum_byMaker (column : MakerCounts → Nat) (counted : LockedRow → Bool)
    (column_eq : ∀ maker, column (tally.makerCounts toString maker tally.rows) =
      (rowsOf maker tally.rows).countP counted) :
    ((tally.counts toString).byMaker.map column).sum = tally.rows.countP counted := by
  obtain ⟨makers, -, distinct, known, same⟩ := byMaker_eq toString tally
  rw [same, List.map_map]
  simp only [Function.comp_def, column_eq]
  exact sum_rowsOf distinct (fun row member => (known _).mpr ⟨row, member, rfl⟩) counted

end Counts

/-- The counts depend on the locks and on what became of them only. -/
theorem counts_congr {first second : SwapTally} (locks : first.locks = second.locks)
    (claimed : ∀ row ∈ first.rows, row.swapId ∈ first.claimed ↔ row.swapId ∈ second.claimed)
    (refunded : ∀ row ∈ first.rows, row.swapId ∈ first.refunded ↔ row.swapId ∈ second.refunded) :
    first.counts toString = second.counts toString := by
  have rows : second.rows = first.rows := by simp only [SwapTally.rows, locks]
  have same : first.rows.foldl (first.countRow toString) ⟨∅, ∅, 0, 0⟩ =
      first.rows.foldl (second.countRow toString) ⟨∅, ∅, 0, 0⟩ := by
    apply List.foldl_ext
    intro state row member
    simp only [countRow, countMaker, claimed row member, refunded row member]
  simp only [counts, rows, same, locks]

end SwapTally

end AtomicSwaps.Eth
