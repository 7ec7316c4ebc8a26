import AtomicSwaps.Basic

/-!
# The in-flight journal

`StateStore` of `src/cli/bot.rs`: the state held in memory, the state file, and the
operations that change both. How a `persist` ends is an argument of the operations.
-/

namespace AtomicSwaps.Cli

/-- Lifecycle stage of a journaled in-flight swap. -/
inductive SwapStage where
  | PreLock
  | Funded
deriving DecidableEq, Repr

/-- One journaled in-flight swap. -/
structure InFlightSwap where
  /-- 64 lowercase hex digits, no `0x` prefix. -/
  hashlock : String
  /-- `0x`-prefixed 32-byte hex. -/
  swapId : String
  recordedAt : U64
  stage : SwapStage
deriving DecidableEq, Repr

/-- A swap moved out of the active journal because it can never terminalize. -/
structure QuarantinedSwap where
  hashlock : String
  swapId : String
  reason : String
  quarantinedAt : U64
deriving DecidableEq, Repr

structure BotState where
  inFlight : List InFlightSwap
  quarantined : List QuarantinedSwap
deriving DecidableEq, Repr

/-- The store: its state and, under `path`, the state file. -/
structure StateStore where
  path : String
  state : BotState
  file : BotState
deriving DecidableEq, Repr

/-- How a `persist` ends: with the file replaced, with an error before the rename, or
with an error after it, at the directory. -/
inductive PersistResult where
  | ok
  | beforeRename (error : String)
  | afterRename (error : String)
deriving DecidableEq, Repr

/-- The error of a `persist`, if it returned one. -/
def PersistResult.error? : PersistResult → Option String
  | .ok => none
  | .beforeRename error | .afterRename error => some error

namespace BotState

/-- Whether a hashlock has an in-flight entry. -/
def contains (state : BotState) (hashlock : String) : Bool :=
  state.inFlight.any (·.hashlock = hashlock)

/-- `in_flight.retain(|s| s.hashlock != hashlock)`. -/
def retainOthers (state : BotState) (hashlock : String) : BotState :=
  { state with inFlight := state.inFlight.filter (·.hashlock ≠ hashlock) }

/-- An entry of the hashlock becomes `Funded`. -/
def funded (state : BotState) (hashlock : String) : BotState :=
  { state with inFlight := state.inFlight.map fun swap =>
      if swap.hashlock = hashlock then { swap with stage := .Funded } else swap }

end BotState

namespace StateStore

/-- `StateStore::load` of the file as it is. -/
def load (store : StateStore) : StateStore := { store with state := store.file }

/-- `StateStore::persist` of the current state. -/
def persist (store : StateStore) : PersistResult → StateStore
  | .ok | .afterRename _ => { store with file := store.state }
  | .beforeRename _ => store

/-- `StateStore::record`. -/
def record (store : StateStore) (swap : InFlightSwap) (result : PersistResult) :
    Except String Unit × StateStore :=
  if store.state.contains swap.hashlock then (.ok (), store)
  else
    let pushed := { store with
      state := { store.state with inFlight := store.state.inFlight ++ [swap] } }.persist result
    match result.error? with
    | none => (.ok (), pushed)
    | some error =>
        -- the in-memory add is rolled back, whatever became of the file
        (.error s!"failed to durably journal in-flight swap to {store.path}: {error}",
          { pushed with state := store.state })

/-- `SwapJournal::record`. -/
def recordPreLock (store : StateStore) (hashlock swapId : String) (now : U64)
    (result : PersistResult) : Except String Unit × StateStore :=
  store.record { hashlock, swapId, recordedAt := now, stage := .PreLock } result

/-- `StateStore::mark_funded`. -/
def markFunded (store : StateStore) (hashlock : String) (result : PersistResult) : StateStore :=
  if store.state.inFlight.any fun swap => swap.hashlock = hashlock ∧ swap.stage ≠ .Funded then
    { store with state := store.state.funded hashlock }.persist result
  else store

/-- `StateStore::remove`. -/
def remove (store : StateStore) (hashlock : String) (result : PersistResult) : StateStore :=
  if (store.state.retainOthers hashlock).inFlight.length ≠ store.state.inFlight.length then
    { store with state := store.state.retainOthers hashlock }.persist result
  else store

/-- `StateStore::snapshot`. -/
def snapshot (store : StateStore) : List InFlightSwap := store.state.inFlight

/-- `StateStore::quarantine`. -/
def quarantine (store : StateStore) (hashlock reason : String) (now : U64)
    (result : PersistResult) : StateStore :=
  let swapId := ((store.state.inFlight.find? (·.hashlock = hashlock)).map (·.swapId)).getD ""
  let retained := store.state.retainOthers hashlock
  let state :=
    if retained.quarantined.any (·.hashlock = hashlock) then retained
    else { retained with
      quarantined := retained.quarantined ++ [{ hashlock, swapId, reason, quarantinedAt := now }] }
  { store with state }.persist result

/-- `StateStore::contains`. -/
def contains (store : StateStore) (hashlock : String) : Bool := store.state.contains hashlock

/-- `StateStore::has_in_flight`. -/
def hasInFlight (store : StateStore) : Bool := !store.state.inFlight.isEmpty

end StateStore

end AtomicSwaps.Cli
