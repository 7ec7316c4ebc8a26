import AtomicSwaps.Data.Hex
import AtomicSwaps.Data.LineLog
import AtomicSwaps.Swap.Interface

/-!
# The operations ledger

`OpsLedger` of `src/ops.rs`: one line for each event, replayed into a map when the
ledger is loaded. The texts of the events are those of `serde_json`, of which only the
laws in `LedgerText` are used. How an append ends is an argument of the calls.
-/

namespace AtomicSwaps.Cli

open Swap (FailureCode OpsCall)

/-- `RecordState`. -/
inductive RecordState where
  | Accepted
  | Completed
  | Refunded
  | Failed (code : FailureCode)
deriving DecidableEq

/-- `OpsRecord`. -/
structure OpsRecord where
  version : String
  hashlock : String
  swapId : String
  release : String
  acceptedAt : U64
  finalAt : Option U64
  state : RecordState
deriving DecidableEq

/-- `LedgerEvent`. -/
inductive LedgerEvent where
  | Accepted (hashlock swapId release : String) (ts : U64)
  | Terminal (hashlock : String) (state : RecordState) (ts : U64)
deriving DecidableEq

/-- `SCHEMA_VERSION`. -/
def SCHEMA_VERSION : String := "trial-ops/1"

/-- `CARGO_PKG_VERSION`. -/
def CARGO_PKG_VERSION : String := "0.1.0"

/-- `looks_like_hex_id`. -/
def looksLikeHexId (text : String) (expectedBytes : Nat) : Bool :=
  let digits := Hex.trimPrefix text.toList
  digits.length = expectedBytes * 2 && digits.all fun char => (Hex.value? char).isSome

/-- The materialized view: one record for each hashlock. -/
structure Records where
  entries : List OpsRecord
  distinct : (entries.map (·.hashlock)).Nodup

namespace Records

/-- `HashMap::new()`. -/
def empty : Records := ⟨[], .nil⟩

/-- `HashMap::get`. -/
def get (records : Records) (hashlock : String) : Option OpsRecord :=
  records.entries.find? (·.hashlock = hashlock)

/-- The record of an event of kind `Accepted`. -/
def accepted (hashlock swapId release : String) (ts : U64) : OpsRecord where
  version := SCHEMA_VERSION
  hashlock
  swapId
  release
  acceptedAt := ts
  finalAt := none
  state := .Accepted

/-- A record that is not terminal yet takes a state. -/
def finalized (hashlock : String) (state : RecordState) (ts : U64) (record : OpsRecord) :
    OpsRecord :=
  if record.hashlock = hashlock ∧ record.state = .Accepted then
    { record with state, finalAt := some ts }
  else record

@[simp] theorem finalized_hashlock (hashlock : String) (state : RecordState) (ts : U64)
    (record : OpsRecord) : (finalized hashlock state ts record).hashlock = record.hashlock := by
  unfold finalized
  split <;> rfl

/-- `apply`. -/
def apply (records : Records) : LedgerEvent → Records
  | .Accepted hashlock swapId release ts =>
      if fresh : hashlock ∉ records.entries.map (·.hashlock) then
        { entries := records.entries ++ [accepted hashlock swapId release ts]
          distinct := by
            rw [List.map_append, List.map_singleton, ← List.concat_eq_append]
            exact records.distinct.concat fresh }
      else records
  | .Terminal hashlock state ts =>
      { entries := records.entries.map (finalized hashlock state ts)
        distinct := by
          have same : (·.hashlock) ∘ finalized hashlock state ts = (·.hashlock) :=
            funext (finalized_hashlock hashlock state ts)
          rw [List.map_map, same]
          exact records.distinct }

end Records

/-- How events are written and read. -/
structure LedgerText where
  /-- `serde_json::to_string`. -/
  toString : LedgerEvent → List Char
  /-- `serde_json::from_str`. -/
  fromStr : List Char → Option LedgerEvent

/-- What an append leaves on disk: the line, or what was written of it when it failed, or
when the process died. -/
inductive AppendResult where
  | ok
  | failed (written : Nat)
  | crashed (written : Nat)
deriving DecidableEq

/-- What is left of a line. -/
def AppendResult.kept (line : List Char) : AppendResult → List Char
  | .ok => line
  | .failed written | .crashed written => line.take written

/-- The ledger: its records in memory and, under `path`, its file. -/
structure OpsLedger where
  path : String
  release : String
  records : Records
  file : List Char

namespace OpsLedger

variable (text : LedgerText)

/-- The records a file stands for. -/
def replay (file : List Char) : Records :=
  LineLog.replay text.fromStr Records.apply .empty file

/-- `OpsLedger::load` of the file as it is. -/
def load (ledger : OpsLedger) : OpsLedger :=
  { ledger with release := CARGO_PKG_VERSION, records := replay text ledger.file }

/-- `OpsLedger::append`. -/
def append (ledger : OpsLedger) (event : LedgerEvent) (result : AppendResult) : OpsLedger :=
  { ledger with file := ledger.file ++ result.kept (text.toString event ++ ['\n']) }

/-- Append an event and apply it, unless the append fails. When the process dies, the
next one loads the file. -/
def record (ledger : OpsLedger) (event : LedgerEvent) (result : AppendResult) : OpsLedger :=
  let appended := ledger.append text event result
  match result with
  | .ok => { appended with records := appended.records.apply event }
  | .failed _ => appended
  | .crashed _ => appended.load text

/-- The event `record_terminal` appends, if it appends one. -/
def terminalEvent (ledger : OpsLedger) (hashlock : String) (state : RecordState) (now : U64) :
    Option LedgerEvent :=
  if !looksLikeHexId hashlock 32 then none
  else match ledger.records.get hashlock with
    | some record =>
        if record.state = .Accepted then some (.Terminal hashlock state now) else none
    | none => none

/-- The event `accepted` appends, if it appends one. -/
def acceptedEvent (ledger : OpsLedger) (hashlock swapId : String) (now : U64) :
    Option LedgerEvent :=
  if !looksLikeHexId hashlock 32 || !looksLikeHexId swapId 32 then none
  else if (ledger.records.get hashlock).isSome then none
  else some (.Accepted hashlock swapId ledger.release now)

/-- The event a call appends, if it appends one. -/
def eventOf (ledger : OpsLedger) (now : U64) : OpsCall → Option LedgerEvent
  | .accepted hashlock swapId => ledger.acceptedEvent hashlock swapId now
  | .completed hashlock => ledger.terminalEvent hashlock .Completed now
  | .refunded hashlock => ledger.terminalEvent hashlock .Refunded now
  | .failed hashlock code => ledger.terminalEvent hashlock (.Failed code) now

/-- A call of the ledger. -/
def call (ledger : OpsLedger) (call : OpsCall) (now : U64) (result : AppendResult) : OpsLedger :=
  match ledger.eventOf now call with
  | some event => ledger.record text event result
  | none => ledger

end OpsLedger

/-- `OpsReport`. -/
structure OpsReport where
  acceptedTotal : Nat
  completed : Nat
  refunded : Nat
  failed : Nat
  failedByCode : List (FailureCode × Nat)
  inFlight : Nat
deriving DecidableEq

/-- The failure codes in their order. -/
def failureCodes : List FailureCode :=
  [.EthClaimUnresolved, .LezRefundUnresolved, .PartialLockWedge, .PreLockAbandoned,
    .CorruptEntry, .Other]

/-- Whether a state is that of a failure. -/
def RecordState.isFailed : RecordState → Bool
  | .Failed _ => true
  | .Accepted | .Completed | .Refunded => false

@[simp] theorem RecordState.isFailed_failed (code : FailureCode) :
    (RecordState.Failed code).isFailed = true := rfl

@[simp] theorem RecordState.isFailed_accepted : RecordState.Accepted.isFailed = false := rfl

@[simp] theorem RecordState.isFailed_completed : RecordState.Completed.isFailed = false := rfl

@[simp] theorem RecordState.isFailed_refunded : RecordState.Refunded.isFailed = false := rfl

namespace OpsLedger

/-- How many records have a state. -/
def count (ledger : OpsLedger) (counted : RecordState → Bool) : Nat :=
  ledger.records.entries.countP fun record => counted record.state

/-- `OpsLedger::report`. -/
def report (ledger : OpsLedger) : OpsReport :=
  let completed := ledger.count (· = .Completed)
  let refunded := ledger.count (· = .Refunded)
  let failed := ledger.count RecordState.isFailed
  let acceptedTotal := ledger.records.entries.length
  { acceptedTotal
    completed
    refunded
    failed
    failedByCode := failureCodes.filterMap fun code =>
      let failures := ledger.count (· = .Failed code)
      if failures = 0 then none else some (code, failures)
    inFlight := acceptedTotal - (completed + refunded + failed) }

end OpsLedger

end AtomicSwaps.Cli
