import AtomicSwaps.Mcp.WriteRule
import AtomicSwaps.Semantics.Authored

/-!
# The write gate

The gate of `lez-mcp/src/server.rs` under any number of calls of the write tools and of
`lez_fingerprint`. A check of the sequencer takes its time, and a request that is dropped
where it awaits something drops its guard of `refresh_lock`. Every check has a number, which
the program does not have, in the order in which they start; its verdict keeps the number.
-/

namespace AtomicSwaps.Mcp

open Semantics

/-- `FingerprintReport`: its verdict, and the rest as it is serialized. -/
structure FingerprintReport where
  matched : Bool
  json : String
deriving DecidableEq

/-- `Gate`. -/
inductive Gate where
  | Verified (report : FingerprintReport)
  | Mismatch (report : FingerprintReport)
  | Unverified (error : String)
deriving DecidableEq

/-- `Gate::writes_enabled`. -/
def Gate.writesEnabled : Gate → Bool
  | .Verified _ => true
  | _ => false

/-- `Gate::to_json`. -/
def Gate.toJson : Gate → String
  | .Verified report => s!"\x7b\"status\":\"verified\",\"report\":{report.json}\x7d"
  | .Mismatch report => s!"\x7b\"status\":\"mismatch\",\"report\":{report.json}\x7d"
  | .Unverified error => s!"\x7b\"status\":\"unverified\",\"error\":\"{error}\"\x7d"

/-- `GateState`. -/
structure GateState where
  gate : Gate
  checkedAt : Instant

/-- `FINGERPRINT_TTL`. -/
def FINGERPRINT_TTL : Nat := 60 * 1000000000

/-- `gate_is_fresh`. -/
def gateIsFresh (state : GateState) (ttl : Nat) (now : Instant) : Bool :=
  state.gate.writesEnabled && now - state.checkedAt < ttl

/-- The verdict of a check. -/
def gateOf : Except String FingerprintReport → Gate
  | .ok report => if report.matched then .Verified report else .Mismatch report
  | .error e => .Unverified e

/-- What the server asks of its environment: the operations of the write tools, and those
on the gate. -/
inductive GateOp where
  | write (op : WriteOp)
  /-- The gate under its read lock, with `Instant::now()`. -/
  | readGate
  | lockRefresh
  | dropRefresh
  /-- Whether the request has been dropped where it awaits something. -/
  | dropped
  /-- `run_fingerprint` against the configured sequencer sets out. -/
  | startCheck
  | finishCheck (check : Nat)
  /-- The verdict of a check is stored, with `Instant::now()`. -/
  | storeGate (check : Nat) (gate : Gate)
  /-- `run_fingerprint` against another sequencer. -/
  | checkOther (url : String)
  /-- The result of `lez_fingerprint` goes back to the caller. -/
  | report (outcome : Except String FingerprintReport) (writesEnabled : Bool)
  /-- `lez_fingerprint` fails before it checks anything. -/
  | fail (error : String)

/-- The type of the answer to an operation. -/
@[reducible] def GateAnswer : GateOp → Type
  | .write op => WriteAnswer op
  | .readGate => GateState × Instant
  | .dropped => Bool
  | .startCheck => Nat
  | .finishCheck _ | .checkOther _ => Except String FingerprintReport
  | .lockRefresh | .dropRefresh | .storeGate .. | .report .. | .fail _ => Unit

/-- The interface of the server. -/
abbrev gates : Interface := ⟨GateOp, GateAnswer⟩

/-- Perform an operation. -/
abbrev ask (op : GateOp) : Program gates (GateAnswer op) := Program.perform (I := gates) op

/-- A request that holds `refresh_lock` awaits something. -/
def awaits : Program gates Unit := do
  if ← ask .dropped then
    let _ ← ask .dropRefresh
    .hang

/-- `run_fingerprint` against the configured sequencer, and the number of the check. -/
def runFingerprint : Program gates (Nat × Except String FingerprintReport) := do
  let check ← ask .startCheck
  let _ ← awaits
  return (check, ← ask (.finishCheck check))

/-- `refresh_gate_single_flight` with the refresh of `ensure_fresh_write_gate`. -/
def refreshGateSingleFlight (ttl : Nat) : Program gates Gate := do
  let _ ← ask .lockRefresh
  let _ ← awaits
  let (state, now) ← ask .readGate
  if gateIsFresh state ttl now then
    let _ ← ask .dropRefresh
    return state.gate
  else
    let (check, outcome) ← runFingerprint
    let newGate := gateOf outcome
    let _ ← awaits
    let _ ← ask (.storeGate check newGate)
    let _ ← ask .dropRefresh
    return newGate

/-- `Ctx::ensure_fresh_write_gate`. -/
def ensureFresh : Program gates (Except String Unit) := do
  let (state, now) ← ask .readGate
  if gateIsFresh state FINGERPRINT_TTL now then
    return .ok ()
  else
    let gate ← refreshGateSingleFlight FINGERPRINT_TTL
    if gate.writesEnabled then return .ok () else return .error gate.toJson

/-- The operations of the write tools, carried out. -/
def carryGate (state : Unit) : (op : WriteOp) → Program gates (WriteAnswer op × Unit)
  | .tool .ensureFreshWriteGate => do return (← ensureFresh, state)
  | op => do return (← ask (.write op), state)

/-- `url.trim_end_matches('/')`. -/
def trimSlashes (url : String) : String :=
  String.ofList (url.toList.reverse.dropWhile (· = '/')).reverse

/-- `LezMcp::lez_fingerprint`: a check of another sequencer leaves the gate alone. `build` parses
a URL and builds a client for it. -/
def lezFingerprint (configured : String) (build : String → Except String Unit)
    (sequencerUrl : Option String) : Program gates Unit := do
  match sequencerUrl.map build with
  | some (.error e) => ask (.fail e)
  | _ =>
      let updatesGate : Bool := match sequencerUrl with
        | some url => trimSlashes url = trimSlashes configured
        | none => true
      let outcome ←
        if updatesGate then do
          let _ ← ask .lockRefresh
          let (check, outcome) ← runFingerprint
          let _ ← awaits
          let _ ← ask (.storeGate check (gateOf outcome))
          let _ ← ask .dropRefresh
          pure outcome
        else ask (.checkOther (sequencerUrl.getD configured))
      let (state, _) ← ask .readGate
      ask (.report outcome state.gate.writesEnabled)

/-- The gate; the time; when each check started, and the one whose verdict is stored; the checks
whose verdicts were stored, in order; and what the guard of `refresh_lock` covers, if there is
one: the check that was started last and whose verdict is not stored yet. -/
structure GateWorld where
  now : Instant
  state : GateState
  startedAt : Instant
  starts : List Instant
  stored : List Nat
  flight : Option (Option Nat)

/-- Before the server is started for the first time. -/
def GateWorld.boot : GateWorld where
  now := 0
  state := ⟨.Unverified "", 0⟩
  startedAt := 0
  starts := []
  stored := []
  flight := none

/-- What an operation answers and does. -/
def GatePerforms (before : GateWorld) : (op : GateOp) → GateAnswer op → GateWorld → Prop
  | .readGate, answer, after => answer = (before.state, before.now) ∧ after = before
  | .lockRefresh, _, after => before.flight = none ∧ after = { before with flight := some none }
  | .dropRefresh, _, after => after = { before with flight := none }
  | .startCheck, check, after => check = before.starts.length ∧ after = { before with
      starts := before.starts ++ [before.now]
      flight := before.flight.map fun _ => some check }
  | .storeGate check gate, _, after => after = { before with
      state := ⟨gate, before.now⟩
      startedAt := before.starts.getD check 0
      stored := before.stored ++ [check]
      flight := before.flight.map fun _ => none }
  | _, _, after => after = before

/-- Time passes. -/
inductive GateDrift : GateWorld → GateWorld → Prop where
  | later {world : GateWorld} {now : Instant} (later : world.now ≤ now) :
      GateDrift world { world with now }

/-- What a thread of the server runs. -/
inductive GateTask where
  | serve (calls : Nat)
  | transfer (params : TransferParams)
  | faucet (params : FaucetParams)
  | fingerprint (sequencerUrl : Option String)

/-- The configuration: that of the tools, the sequencer's URL, and how clients are built. -/
structure McpConfig where
  ctx : Ctx
  sequencerUrl : String
  build : String → Except String Unit

/-- The server: it takes calls, any number of them. -/
def serveCalls : Nat → Program gates Unit
  | 0 => .hang
  | calls + 1 => do
      let _ ← ask (.write (.tool .accept))
      serveCalls calls

/-- The program of a thread. -/
def GateTask.body (config : McpConfig) : GateTask → Program gates Unit
  | .serve calls => serveCalls calls
  | .transfer params => do let _ ← (transferCall config.ctx params).expand carryGate ()
  | .faucet params => do let _ ← (faucetCall config.ctx params).expand carryGate ()
  | .fingerprint url => lezFingerprint config.sequencerUrl config.build url

/-- The server with its gate. A server that is started anew has checked the sequencer before. -/
def gateSystem (config : McpConfig) : System gates GateWorld GateTask Unit where
  environment := ⟨fun op before answer after => GatePerforms before op answer after, GateDrift⟩
  body := GateTask.body config
  main task := ∃ calls, task = .serve calls
  spawns op child := match op with
    | .write (.tool .accept) => ∃ task, child = some task ∧ ∀ calls, task ≠ .serve calls
    | _ => child = none
  waits _ := False
  restart before after := ∃ gate startedAt now, before.now ≤ startedAt ∧ startedAt ≤ now ∧
    after = { before with
      now
      state := ⟨gate, now⟩
      startedAt
      starts := before.starts ++ [startedAt]
      stored := before.stored ++ [before.starts.length]
      flight := none }

end AtomicSwaps.Mcp
