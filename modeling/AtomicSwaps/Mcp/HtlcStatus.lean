import AtomicSwaps.Eth.Reentrancy
import AtomicSwaps.Mcp.ScanCache
import AtomicSwaps.Semantics.Returns
import AtomicSwaps.Swap.EthAmount
import AtomicSwaps.Swap.MakerRule
import Mathlib.Data.BitVec

/-!
# The status tool of the MCP server

`sepolia_htlc_status` of `lez-mcp/src/server.rs`, and how it and `run_maker` narrow what a swap of
the contract holds in 256 bits. A conversion that does not fit panics, and `none` is returned.
-/

namespace AtomicSwaps.Mcp

open Semantics Swap
open Trimming (isWhitespace strTrim)
open Eth (Address HTLC SwapState Contract Block Msg)

/-- `Uint::to::<u128>`, which panics above. -/
def to128? (value : U256) : Option U128 :=
  if value.toNat < 2 ^ 128 then some (value.setWidth 128) else none

/-- `state_str`. -/
def stateStr : SwapState → String
  | .EMPTY => "EMPTY"
  | .OPEN => "OPEN"
  | .CLAIMED => "CLAIMED"
  | .REFUNDED => "REFUNDED"

/-- A swap in the result of the tool. -/
structure HtlcJson where
  swapId : String
  state : String
  sender : Address
  recipient : Address
  amountWei : String
  amountEth : String
  hashlock : String
  timelock : U64
  refundableInSecs : U64
deriving DecidableEq

/-- `htlc_json`. -/
def htlcJson (now : U64) (swapId : Bytes32) (htlc : HTLC) : Option HtlcJson := do
  let timelock := (← to128? htlc.timelock).setWidth 64
  let amount ← to128? htlc.amount
  return {
    swapId := display swapId
    state := stateStr htlc.state
    sender := htlc.sender
    recipient := htlc.recipient
    amountWei := String.ofList (Decimal.numeral htlc.amount.toNat)
    amountEth := weiToEthString amount
    hashlock := display htlc.hashlock
    timelock
    refundableInSecs := U64.saturatingSub timelock now }

/-- `ScanOutcome`. -/
structure ScanOutcome where
  found : List (Bytes32 × HTLC)
  coverageFrom : U64
  coverageTo : U64
  reachedHead : Bool

/-- What the tool finds, besides the swaps. -/
structure StatusReport where
  found : Bool
  resolvedAs : String
  contract : Address
  scannedBlocks : Option (U64 × U64 × Bool)
  htlcs : List HtlcJson
  note : Option String

/-- `CallToolResult` of `sepolia_htlc_status`. -/
inductive StatusAnswer where
  | report (report : StatusReport)
  /-- `tool_fail`. -/
  | failed (error : String)

/-- What the tool reads: the clock, and the contract through its node. -/
structure StatusReader where
  now : U64
  /-- `Ctx::eth`: the address of the contract, once it is connected. -/
  connect : Except String Address
  htlcBySwapId : Bytes32 → Except String HTLC
  findByHashlock : Bytes32 → Except String ScanOutcome
  /-- The text of an error of the `hex` crate. -/
  hexError : List Char → String

/-- `strip_prefix("0x")`, or the text itself. -/
def stripPrefix : List Char → List Char
  | '0' :: 'x' :: rest => rest
  | text => text

/-- `parse_bytes32`. -/
def StatusReader.parseBytes32 (reader : StatusReader) (text : String) : Except String Bytes32 :=
  let hexStr := stripPrefix (strTrim text.toList)
  match Hex.bytes? hexStr with
  | none => .error s!"invalid hex: {reader.hexError hexStr}"
  | some bytes =>
      match Bytes.ofSlice? 32 bytes with
      | none => .error "expected exactly 32 bytes (64 hex chars)"
      | some input => .ok input

/-- The swaps with a hashlock, as the tool reports them. -/
def reportScan (now : U64) (contract : Address) (scan : ScanOutcome) : Option StatusAnswer := do
  let htlcs ← scan.found.mapM fun (swapId, htlc) => htlcJson now swapId htlc
  return .report {
    found := !htlcs.isEmpty
    resolvedAs :=
      if !htlcs.isEmpty then "hashlock"
      else if scan.reachedHead then "not_found"
      else "not_found_within_budget"
    contract
    scannedBlocks := some (scan.coverageFrom, scan.coverageTo, scan.reachedHead)
    htlcs
    note :=
      if htlcs.isEmpty && !scan.reachedHead then
        some ("not found within the " ++
          s!"{(U64.saturatingSub scan.coverageTo scan.coverageFrom).toNat} blocks scanned so far (up to block {scan.coverageTo.toNat}); the scan budget was " ++
          "reached before chain head — call again to continue from there")
      else none }

/-- `sepolia_htlc_status`; `none` where it panics. -/
def sepoliaHtlcStatus (reader : StatusReader) (swapIdOrHashlock : String) : Option StatusAnswer :=
  match reader.parseBytes32 swapIdOrHashlock with
  | .error e => some (.failed s!"invalid swap_id_or_hashlock: {e}")
  | .ok input =>
      match reader.connect with
      | .error e => some (.failed e)
      | .ok contract =>
          match reader.htlcBySwapId input with
          | .error e => some (.failed e)
          | .ok htlc =>
              if stateStr htlc.state ≠ "EMPTY" then do
                let found ← htlcJson reader.now input htlc
                return .report ⟨true, "swap_id", contract, none, [found], none⟩
              else
                match reader.findByHashlock input with
                | .error e => some (.failed e)
                | .ok scan => reportScan reader.now contract scan

/-- A timelock is reported as it is, or as the highest number where it does not fit. -/
def Reported (timelock : U256) (reported : U64) : Prop :=
  reported.toNat = timelock.toNat ∨ 2 ^ 64 ≤ timelock.toNat ∧ reported.toNat = 2 ^ 64 - 1

/-- A swap in the result tells the timelock as `Reported`, and whether it is refundable as the
maker's reading of the timelock has it. -/
def HtlcJson.Agrees (json : HtlcJson) (timelock : U256) (now : U64) : Prop :=
  Reported timelock json.timelock ∧ (json.refundableInSecs = 0 ↔ timelock.saturatingTo64 ≤ now)

/-- A scan has found swaps of the contract with the hashlock, each once. -/
structure Finds (contract : Contract) (hashlock : Bytes32) (scan : ScanOutcome) : Prop where
  once : (scan.found.map Prod.fst).Nodup
  read : ∀ found ∈ scan.found, found.2 = Eth.getHTLC found.1 contract
  matching : ∀ found ∈ scan.found, found.2.hashlock = hashlock

/-- Any time at which it is asked for a swap of the contract, by its id or by its hashlock, the
tool shows the swap. A hashlock that is the id of a swap itself is taken for that. -/
structure ShownByTool (contract : Contract) (swapId hashlock : Bytes32) (timelock : U256) : Prop where
  byId : ∀ (reader : StatusReader) (address : Address), reader.connect = .ok address →
    reader.htlcBySwapId swapId = .ok (Eth.getHTLC swapId contract) →
      ∃ json, sepoliaHtlcStatus reader (display swapId) =
          some (.report ⟨true, "swap_id", address, none, [json], none⟩) ∧
        json.Agrees timelock reader.now
  byHashlock : (Eth.getHTLC hashlock contract).state = .EMPTY →
    ∀ (reader : StatusReader) (address : Address) (scan : ScanOutcome),
      reader.connect = .ok address →
      reader.htlcBySwapId hashlock = .ok (Eth.getHTLC hashlock contract) →
      reader.findByHashlock hashlock = .ok scan → Finds contract hashlock scan →
      swapId ∈ scan.found.map Prod.fst →
        ∃ report, sepoliaHtlcStatus reader (display hashlock) = some (.report report) ∧
          report.found = true ∧ report.resolvedAs = "hashlock" ∧
          ∃ json ∈ report.htlcs, json.swapId = display swapId ∧ json.Agrees timelock reader.now

/-- An operation that tells the timelock of a lock tells it as `Reported`. -/
def TellsTimelock (timelock : U256) : Swap.Op → Prop
  | .report (.EthLockRejected _ ethExpirySecs _) => Reported timelock ethExpirySecs
  | _ => True

/-- A part of the maker that always returns, and only tells the timelock as `Reported`. -/
structure Takes {α : Type} (timelock : U256) (program : Flow α) : Prop where
  returns : Semantics.Returns (fun _ _ => True) (fun _ => True) program.run
  tells : ∀ history, Follows (fun _ => TellsTimelock timelock) (fun _ _ => True) program.run history

/-- The maker can take up a lock with the timelock, whatever it knows and is answered. -/
def TakenByMaker (event : LockedEvent) : Prop :=
  ∀ (client : Lez.LezClient) (config : SwapConfig) (guards : Option LoopGuards)
    (rejected : List Bytes32),
    Takes event.timelock (considerLock client config guards rejected event)

theorem saturated_reported (timelock : U256) : Reported timelock timelock.saturatingTo64 := by
  rw [Reported, U256.toNat_saturatingTo64]
  omega

namespace Takes

variable {α β : Type} {timelock : U256}

theorem done {program : Flow α} {result : Except SwapError α} (same : program.run = .pure result) :
    Takes timelock program :=
  ⟨by rw [same]; trivial, fun _ => by rw [same]; trivial⟩

theorem request {op : Swap.Op} {rest : Swap.Answer op → Flow α} (tells : TellsTimelock timelock op)
    (onward : ∀ answer, Takes timelock (rest answer)) :
    Takes timelock (Swap.request op >>= rest) where
  returns := Semantics.Returns.request_bind_iff.mpr fun answer _ => (onward answer).returns
  tells _ := Follows.request_bind tells fun answer => (onward answer).tells _

theorem attempt {program : Flow α} {rest : Except SwapError α → Flow β}
    (first : Takes timelock program) (onward : ∀ result, Takes timelock (rest result)) :
    Takes timelock (Program.attempt program >>= rest) where
  returns := by
    apply Semantics.Returns.run_bind_iff.mpr
    apply Semantics.Returns.run_attempt_iff.mpr
    exact first.returns.weaken fun result _ => (onward result).returns
  tells history := by
    apply Follows.run_bind_iff.mpr
    apply Follows.run_attempt_iff.mpr
    exact (first.tells history).weaken fun later result _ => (onward result).tells later

theorem value {rest : α → Flow β} {value : α} (onward : Takes timelock (rest value)) :
    Takes timelock (pure value >>= rest) := onward

end Takes

/-- A lock is matched, turned away or passed over without a panic, whatever its numbers are. -/
theorem taken_by_maker (event : LockedEvent) : TakenByMaker event := by
  intro client config guards rejected
  have reads : Takes event.timelock (Eth.EthClient.getHtlc event.swapId) := by
    unfold Eth.EthClient.getHtlc
    refine Takes.request trivial fun answer => ?_
    cases answer <;> exact .done rfl
  have matched : ∀ lezExpirySecs lezClaimant,
      Takes event.timelock (matchCandidate event lezExpirySecs lezClaimant) :=
    fun _ _ => Takes.request trivial fun _ => .done rfl
  have rejects : ∀ (lezExpirySecs : U64) (reason : RejectReason),
      Takes event.timelock (do
        report (rejection event event.timelock.saturatingTo64 lezExpirySecs
          (guards.map (·.timelockMarginSecs)) reason)
        return .inl (remember rejected event.hashlock) : Flow (List Bytes32 ⊕ Option Matched)) := by
    intro lezExpirySecs reason
    refine Takes.request ?_ fun _ => .done rfl
    cases reason with
    | TimelockTooTight => exact saturated_reported _
    | UnusableTakerLezAccount => trivial
    | NotDesignatedTaker => trivial
  unfold considerLock
  rcases guards with _ | guards
  on_goal 1 => refine Takes.value (Takes.value ?_)
  on_goal 2 =>
    refine Takes.request trivial fun now => ?_
    refine Takes.request trivial fun inJournal => ?_
  all_goals
    dsimp only
    split
    · exact .done rfl
    · exact rejects _ _
    · split
      · exact .done rfl
      · refine Takes.attempt reads fun result => ?_
        cases result with
        | error error => exact matched _ _
        | ok htlc =>
            dsimp only
            split
            · exact .done rfl
            · exact matched _ _

theorem digits_dark (bytes : List UInt8) :
    ∀ char ∈ Hex.digits bytes, isWhitespace char = false := by
  have all : ∀ value : Fin 16, isWhitespace (Hex.digit value) = false := by decide +kernel
  induction bytes with
  | nil => exact nofun
  | cons byte rest ih =>
      have small := byte.toNat_lt
      intro char member
      rcases List.mem_cons.mp member with rfl | member
      · exact all ⟨byte.toNat / 16, by omega⟩
      rcases List.mem_cons.mp member with rfl | member
      · exact all ⟨byte.toNat % 16, by omega⟩
      · exact ih char member

/-- The tool reads back what it displays. -/
theorem parseBytes32_display (reader : StatusReader) (input : Bytes32) :
    reader.parseBytes32 (display input) = .ok input := by
  have shown : (display input).toList = '0' :: 'x' :: Hex.digits input.toList := by
    simp [display, Hex.encode]
  have dark : ∀ char ∈ '0' :: 'x' :: Hex.digits input.toList, isWhitespace char = false := by
    intro char member
    rcases List.mem_cons.mp member with rfl | member
    · rfl
    rcases List.mem_cons.mp member with rfl | member
    · rfl
    · exact digits_dark _ char member
  simp only [StatusReader.parseBytes32, shown, strTrim, Trimming.trim_solid dark, stripPrefix, Hex.bytes?_digits,
    Bytes.ofSlice?_toList]

/-- What the tool answers for a swap that is there. -/
theorem sepoliaHtlcStatus_of_found {reader : StatusReader} {address : Address} {swapId : Bytes32}
    {htlc : HTLC} (connected : reader.connect = .ok address)
    (read : reader.htlcBySwapId swapId = .ok htlc) (there : htlc.state ≠ .EMPTY) :
    sepoliaHtlcStatus reader (display swapId) = (htlcJson reader.now swapId htlc).map fun found =>
      .report ⟨true, "swap_id", address, none, [found], none⟩ := by
  have some : stateStr htlc.state ≠ "EMPTY" := by
    cases state : htlc.state with
    | EMPTY => exact absurd state there
    | OPEN | CLAIMED | REFUNDED => decide
  simp only [sepoliaHtlcStatus, parseBytes32_display, connected, read, if_pos some]
  cases htlcJson reader.now swapId htlc <;> rfl

/-- What the tool answers for a hashlock. -/
theorem sepoliaHtlcStatus_of_scan {reader : StatusReader} {address : Address} {hashlock : Bytes32}
    {htlc : HTLC} {scan : ScanOutcome} (connected : reader.connect = .ok address)
    (read : reader.htlcBySwapId hashlock = .ok htlc) (none : htlc.state = .EMPTY)
    (scanned : reader.findByHashlock hashlock = .ok scan) :
    sepoliaHtlcStatus reader (display hashlock) = reportScan reader.now address scan := by
  simp [sepoliaHtlcStatus, parseBytes32_display, connected, read, none, stateStr, scanned]

/-- The numbers that the tool renders. -/
def HTLC.Narrow (htlc : HTLC) : Prop := htlc.amount.toNat < 2 ^ 128 ∧ htlc.timelock.toNat < 2 ^ 128

/-- The timelocks that the tool renders as `Reported`. -/
def Fitting (timelock : U256) : Prop :=
  timelock.toNat < 2 ^ 64 ∨ timelock.toNat < 2 ^ 128 ∧ timelock.toNat % 2 ^ 64 = 2 ^ 64 - 1

section Narrowing

variable {now : U64} {timelock : U256} {htlc : HTLC} {json : HtlcJson} {contract : Contract}
  {swapId hashlock : Bytes32} {scan : ScanOutcome}

/-- A timelock that passes through 128 bits loses what is above 64. -/
theorem toNat_narrowed (fits : timelock.toNat < 2 ^ 128) :
    ((timelock.setWidth 128).setWidth 64).toNat = timelock.toNat % 2 ^ 64 := by
  rw [BitVec.toNat_setWidth, BitVec.toNat_setWidth, Nat.mod_eq_of_lt fits]

theorem refundable_iff {reported now : U64} :
    U64.saturatingSub reported now = 0 ↔ reported ≤ now := by
  rw [← BitVec.toNat_inj, U64.toNat_saturatingSub, BitVec.le_def]
  exact Nat.sub_eq_zero_iff_le

/-- What is rendered is narrow, and its timelock is cut off. -/
theorem htlcJson_some (rendered : htlcJson now swapId htlc = some json) :
    HTLC.Narrow htlc ∧ json.swapId = display swapId ∧
      json.timelock = (htlc.timelock.setWidth 128).setWidth 64 := by
  simp only [htlcJson, to128?] at rendered
  split at rendered
  · rename_i late
    split at rendered
    · rename_i payable
      cases rendered
      exact ⟨⟨payable, late⟩, rfl, rfl⟩
    · cases rendered
  · cases rendered

/-- What is narrow is rendered; what fits besides agrees with the maker. -/
theorem htlcJson_of_narrow (now : U64) (swapId : Bytes32) (narrow : HTLC.Narrow htlc) : ∃ json,
    htlcJson now swapId htlc = some json ∧ json.swapId = display swapId ∧
      (Fitting htlc.timelock → json.Agrees htlc.timelock now) := by
  obtain ⟨payable, late⟩ := narrow
  simp only [htlcJson, to128?, if_pos late, if_pos payable, Option.bind_eq_bind, Option.bind_some]
  refine ⟨_, rfl, rfl, fun fitting => ?_⟩
  have same : (htlc.timelock.setWidth 128).setWidth 64 = htlc.timelock.saturatingTo64 := by
    unfold Fitting at fitting
    rw [← BitVec.toNat_inj, toNat_narrowed late, U256.toNat_saturatingTo64]
    omega
  simp only [HtlcJson.Agrees, same]
  exact ⟨saturated_reported _, refundable_iff⟩

/-- A timelock that is told as it is, or as the highest number, fits. -/
theorem fitting_of_agrees (rendered : htlcJson now swapId htlc = some json)
    (agrees : json.Agrees htlc.timelock now) : Fitting htlc.timelock := by
  obtain ⟨⟨-, late⟩, -, cut⟩ := htlcJson_some rendered
  have reported := agrees.1
  rw [cut] at reported
  simp only [Reported, toNat_narrowed late] at reported
  unfold Fitting
  omega

/-- A list is mapped when every element is. -/
theorem mapM_some_iff {α β : Type} {f : α → Option β} {xs : List α} {ys : List β} :
    xs.mapM f = some ys ↔ List.Forall₂ (fun x y => f x = some y) xs ys := by
  induction xs generalizing ys with
  | nil => simp [List.forall₂_nil_left_iff, eq_comm]
  | cons x xs ih =>
      simp only [List.mapM_cons, Option.bind_eq_bind, Option.bind_eq_some_iff, ih,
        List.forall₂_cons_left_iff, pure, Option.some.injEq]
      constructor
      · rintro ⟨y, first, ys, rest, rfl⟩
        exact ⟨y, ys, first, rest, rfl⟩
      · rintro ⟨y, ys, first, rest, rfl⟩
        exact ⟨y, first, ys, rest, rfl⟩

/-- What a scan has found is rendered when all of it is narrow. -/
theorem rendered_of_narrow (now : U64) (found : List (Bytes32 × HTLC))
    (narrow : ∀ lock ∈ found, HTLC.Narrow lock.2) :
    ∃ htlcs, List.Forall₂ (fun lock json => htlcJson now lock.1 lock.2 = some json) found htlcs := by
  induction found with
  | nil => exact ⟨[], .nil⟩
  | cons first rest ih =>
      obtain ⟨here, below⟩ := List.forall_mem_cons.mp narrow
      obtain ⟨json, rendered, -⟩ := htlcJson_of_narrow now first.1 here
      obtain ⟨htlcs, others⟩ := ih below
      exact ⟨json :: htlcs, .cons rendered others⟩

/-- A scan that has found something is reported when all of it is rendered. -/
theorem reportScan_of_rendered (address : Address) {htlcs : List HtlcJson} (found : scan.found ≠ [])
    (rendered : List.Forall₂ (fun lock json => htlcJson now lock.1 lock.2 = some json) scan.found htlcs) :
    ∃ report, reportScan now address scan = some (.report report) ∧ report.found = true ∧
      report.resolvedAs = "hashlock" ∧ report.htlcs = htlcs := by
  have some : htlcs ≠ [] := by
    rintro rfl
    exact found (List.forall₂_nil_right_iff.mp rendered)
  have mapped := mapM_some_iff.mpr rendered
  change scan.found.mapM (fun (swapId, htlc) => htlcJson now swapId htlc) = _ at mapped
  simp only [reportScan, mapped, Option.bind_eq_bind, Option.bind_some]
  exact ⟨_, rfl, by simp [some], by simp [some], rfl⟩

/-- What is reported of a scan has been rendered. -/
theorem rendered_of_reportScan {address : Address} {report : StatusReport}
    (reported : reportScan now address scan = some (.report report)) :
    List.Forall₂ (fun lock json => htlcJson now lock.1 lock.2 = some json) scan.found report.htlcs := by
  obtain ⟨htlcs, mapped, same⟩ := Option.bind_eq_some_iff.mp reported
  cases same
  exact mapM_some_iff.mp mapped

/-- Something of the other list goes with every element of one. -/
theorem exists_of_forall₂ {α β : Type} {relation : α → β → Prop} {xs : List α} {ys : List β} {x : α}
    (related : List.Forall₂ relation xs ys) (member : x ∈ xs) : ∃ y ∈ ys, relation x y := by
  induction related with
  | nil => cases member
  | cons first _ ih =>
      rcases List.mem_cons.mp member with rfl | below
      · exact ⟨_, List.mem_cons_self, first⟩
      · obtain ⟨y, there, related⟩ := ih below
        exact ⟨y, List.mem_cons_of_mem _ there, related⟩

/-- A swap is shown when it is narrow and its timelock fits, and everything else with its hashlock
is narrow as well. -/
theorem shown_of_narrow (there : (Eth.getHTLC swapId contract).state ≠ .EMPTY)
    (locked : (Eth.getHTLC swapId contract).timelock = timelock)
    (narrow : HTLC.Narrow (Eth.getHTLC swapId contract)) (fitting : Fitting timelock)
    (others : (Eth.getHTLC hashlock contract).state = .EMPTY → ∀ other,
      (Eth.getHTLC other contract).hashlock = hashlock → HTLC.Narrow (Eth.getHTLC other contract)) :
    ShownByTool contract swapId hashlock timelock where
  byId reader address connected read := by
    obtain ⟨json, rendered, -, agrees⟩ := htlcJson_of_narrow reader.now swapId narrow
    rw [sepoliaHtlcStatus_of_found connected read there, rendered]
    exact ⟨json, rfl, locked ▸ agrees (locked ▸ fitting)⟩
  byHashlock none reader address scan connected read scanned finds mine := by
    obtain ⟨lock, member, rfl⟩ := List.mem_map.mp mine
    obtain ⟨htlcs, rendered⟩ := rendered_of_narrow reader.now scan.found fun found inside => by
      rw [finds.read found inside]
      exact others none found.1 (finds.read found inside ▸ finds.matching found inside)
    obtain ⟨report, reported, found, resolved, same⟩ :=
      reportScan_of_rendered address (List.ne_nil_of_mem member) rendered
    obtain ⟨json, shown, mine⟩ := exists_of_forall₂ rendered member
    rw [finds.read lock member] at mine
    obtain ⟨again, rendered', named, agrees⟩ := htlcJson_of_narrow reader.now lock.1 narrow
    obtain rfl := Option.some.inj (rendered'.symm.trans mine)
    rw [sepoliaHtlcStatus_of_scan connected read none scanned]
    exact ⟨report, reported, found, resolved, again, same ▸ shown, named, locked ▸ agrees (locked ▸ fitting)⟩

/-- A reader that sees the contract as it is, and finds swaps of it. -/
def readerOf (contract : Contract) (found : List Bytes32) : StatusReader where
  now := 0
  connect := .ok (Bytes.zero 20)
  htlcBySwapId swapId := .ok (Eth.getHTLC swapId contract)
  findByHashlock _ := .ok ⟨found.map fun swapId => (swapId, Eth.getHTLC swapId contract), 0, 0, true⟩
  hexError _ := ""

/-- What is shown is narrow and fits, and so is everything with its hashlock. -/
theorem narrow_of_shown (shown : ShownByTool contract swapId hashlock timelock)
    (there : (Eth.getHTLC swapId contract).state ≠ .EMPTY)
    (locked : (Eth.getHTLC swapId contract).timelock = timelock)
    (mine : (Eth.getHTLC swapId contract).hashlock = hashlock) :
    HTLC.Narrow (Eth.getHTLC swapId contract) ∧ Fitting timelock ∧
      ((Eth.getHTLC hashlock contract).state = .EMPTY → ∀ other,
        (Eth.getHTLC other contract).hashlock = hashlock → HTLC.Narrow (Eth.getHTLC other contract)) := by
  obtain ⟨json, answer, agrees⟩ := shown.byId (readerOf contract []) (Bytes.zero 20) rfl rfl
  rw [sepoliaHtlcStatus_of_found rfl rfl there] at answer
  obtain ⟨found, rendered, same⟩ := Option.map_eq_some_iff.mp answer
  cases same
  refine ⟨(htlcJson_some rendered).1, ?_, fun none other matching => ?_⟩
  · subst locked
    exact fitting_of_agrees rendered agrees
  · by_cases same : other = swapId
    · subst same
      exact (htlcJson_some rendered).1
    -- a scan that finds the two of them
    have finds : Finds contract hashlock ⟨[swapId, other].map fun swapId =>
        (swapId, Eth.getHTLC swapId contract), 0, 0, true⟩ := by
      refine ⟨by simpa using Ne.symm same, ?_, ?_⟩
      · simp
      · simp [mine, matching]
    obtain ⟨report, reported, -⟩ := shown.byHashlock none (readerOf contract [swapId, other])
      (Bytes.zero 20) _ rfl rfl rfl finds (by simp)
    rw [sepoliaHtlcStatus_of_scan rfl rfl none rfl] at reported
    obtain ⟨json, -, rendered⟩ := exists_of_forall₂ (rendered_of_reportScan reported)
      (show (other, Eth.getHTLC other contract) ∈ _ by simp)
    exact (htlcJson_some rendered).1

end Narrowing

/-- From its lock on, a swap is there with what it was locked with. -/
theorem locked_stays {hashes : Eth.Hashes} {block : Block} {before : Eth.Store} {htlc : HTLC}
    {swapId : Bytes32} {events : List (Nested.Event Eth.Call)} {machine : Nested.Machine Block Eth.Store}
    (stored : Eth.getHTLC swapId before.contract = htlc) (opened : htlc.state = .OPEN)
    (run : Steps (Nested.Step (Eth.protocol hashes fun _ _ => True)) ⟨block, before, []⟩ events machine) :
    ∃ state, state ≠ .EMPTY ∧ Eth.getHTLC swapId machine.store.contract = { htlc with state } := by
  subst stored
  have moves := ((Eth.growth hashes fun _ _ => True).from_start run).moves swapId
  rcases moves.open_cases opened with same | claimed | refunded
  · refine ⟨.OPEN, by simp, same.trans ?_⟩
    rw [← opened]
    rfl
  · exact ⟨.CLAIMED, by simp, claimed⟩
  · exact ⟨.REFUNDED, by simp, refunded⟩

/-- Whatever becomes of the contract after a lock that it has admitted: the status tool shows the
swap, by its id and by its hashlock, and the maker takes it up with the same reading of its
timelock, exactly when its numbers fit and those of all swaps with its hashlock are rendered. -/
theorem hostile_width_iff {hashes : Eth.Hashes} {block : Block} {msg : Msg} {hashlock : Bytes32}
    {timelock : U256} {recipient : Address} {takerLezAccount : Bytes32} {before after : Contract}
    (admitted : Eth.lock hashes block msg hashlock timelock recipient takerLezAccount before =
      .ok after) (txHash : Bytes32) {payouts : List Eth.Payout} {received : Nat}
    {events : List (Nested.Event Eth.Call)} {machine : Nested.Machine Block Eth.Store}
    (run : Steps (Nested.Step (Eth.protocol hashes fun _ _ => True))
      ⟨block, ⟨after, payouts, received⟩, []⟩ events machine) :
    (ShownByTool machine.store.contract
        (Eth.swapIdOf hashes msg.sender recipient msg.value hashlock timelock takerLezAccount)
        hashlock timelock ∧
      TakenByMaker ⟨Eth.swapIdOf hashes msg.sender recipient msg.value hashlock timelock
        takerLezAccount, msg.sender, recipient, msg.value, hashlock, timelock, takerLezAccount,
        txHash⟩) ↔
      msg.value.toNat < 2 ^ 128 ∧ (timelock.toNat < 2 ^ 64 ∨
        timelock.toNat < 2 ^ 128 ∧ timelock.toNat % 2 ^ 64 = 2 ^ 64 - 1) ∧
      ((Eth.getHTLC hashlock machine.store.contract).state = .EMPTY → ∀ other,
        (Eth.getHTLC other machine.store.contract).hashlock = hashlock →
          (Eth.getHTLC other machine.store.contract).amount.toNat < 2 ^ 128 ∧
          (Eth.getHTLC other machine.store.contract).timelock.toNat < 2 ^ 128) := by
  have stored : Eth.getHTLC
      (Eth.swapIdOf hashes msg.sender recipient msg.value hashlock timelock takerLezAccount) after =
        Eth.lockedHTLC msg hashlock timelock recipient takerLezAccount := by
    rw [(Eth.lock_ok.mp admitted).after]
    simp [Eth.getHTLC]
  obtain ⟨state, set, now⟩ := locked_stays stored rfl run
  have there := (congrArg HTLC.state now).trans_ne set
  have amount := congrArg HTLC.amount now
  have locked := congrArg HTLC.timelock now
  have mine := congrArg HTLC.hashlock now
  constructor
  · rintro ⟨shown, -⟩
    obtain ⟨⟨payable, -⟩, fitting, others⟩ := narrow_of_shown shown there locked mine
    rw [amount] at payable
    exact ⟨payable, fitting, others⟩
  · rintro ⟨payable, fitting, others⟩
    have late : timelock.toNat < 2 ^ 128 := by omega
    refine ⟨shown_of_narrow there locked ?_ fitting others, taken_by_maker _⟩
    exact ⟨by rw [amount]; exact payable, by rw [locked]; exact late⟩

/-- A lock that is shown and taken up. -/
theorem hostile_width_iff_test : ShownByTool Eth.testLocked Eth.testSwapId testHashlock 601 := by
  have run : Steps (Nested.Step (Eth.protocol Eth.testHashes fun _ _ => True))
      ⟨⟨1⟩, ⟨Eth.testLocked, [], 0⟩, []⟩ [] ⟨⟨1⟩, ⟨Eth.testLocked, [], 0⟩, []⟩ := .refl
  refine ((hostile_width_iff Eth.test_lock (Bytes.zero 32) run).mpr
    ⟨by decide, .inl (by decide), fun _ other matching => ?_⟩).1
  by_cases same : other = Eth.testSwapId
  · subst same
    simp only [Eth.getHTLC, Eth.testLocked, Contract.htlcs_emit, Contract.htlcs_setHTLC,
      Function.update_self]
    decide
  · have unset : Eth.getHTLC other Eth.testLocked = HTLC.empty := by
      simp [Eth.getHTLC, Eth.testLocked, same, Contract.deploy]
    rw [unset] at matching
    exact absurd matching (by decide)

/-- A swap just locked is found. -/
theorem lockedHTLC_there {msg : Msg} {hashlock : Bytes32} {timelock : U256} {recipient : Address}
    {takerLezAccount : Bytes32} :
    (Eth.lockedHTLC msg hashlock timelock recipient takerLezAccount).state ≠ .EMPTY := by
  simp [Eth.lockedHTLC]

/-- Hashes under which the last byte of its timelock is the id of a swap. -/
def testWideHashes : Eth.Hashes where
  keccak256 bytes := Bytes.fill 32 (bytes.getD 135 0)
  sha256 _ := testHashlock

/-- A lock of one wei until `timelock`. -/
def testWideLock (timelock : U256) (before : Contract) : Except Eth.Revert Contract :=
  Eth.lock testWideHashes ⟨1⟩ ⟨Eth.testTaker, 1⟩ testHashlock timelock Eth.testMaker
    (Bytes.fill 32 7) before

/-- The id of the swap. -/
def testWideId (timelock : U256) : Bytes32 :=
  Eth.swapIdOf testWideHashes Eth.testTaker Eth.testMaker 1 testHashlock timelock (Bytes.fill 32 7)

theorem test_wide (timelock : U256) (before : Contract) (delta : before.minTimelockDelta = 300)
    (late : (301 : U256) < timelock) (fresh : (before.htlcs (testWideId timelock)).state = .EMPTY) :
    ∃ after, testWideLock timelock before = .ok after ∧ after.minTimelockDelta = 300 ∧
      ∀ swapId, Eth.getHTLC swapId after = if swapId = testWideId timelock then
        Eth.lockedHTLC ⟨Eth.testTaker, 1⟩ testHashlock timelock Eth.testMaker (Bytes.fill 32 7)
      else Eth.getHTLC swapId before := by
  refine ⟨_, Eth.lock_ok.mpr ⟨by decide, ?_, ?_, by decide, by decide, by decide, fresh, rfl⟩, delta,
    fun swapId => ?_⟩
  · rw [delta]
    decide
  · rw [delta]
    exact late
  · simp only [Eth.getHTLC, Contract.htlcs_emit, Contract.htlcs_setHTLC]
    exact Function.update_apply ..

/-- The contract admits a timelock at which the tool panics, one that it shows cut off, and, after
a lock that fits, one with the same hashlock with which that one is not shown either. -/
theorem hostile_timelock_misread :
    (∃ after, testWideLock (2 ^ 128) (Contract.deploy 300 0) = .ok after ∧
      sepoliaHtlcStatus (readerOf after []) (display (testWideId (2 ^ 128))) = none) ∧
    (∃ after, testWideLock (2 ^ 64) (Contract.deploy 300 0) = .ok after ∧
      ¬ ShownByTool after (testWideId (2 ^ 64)) testHashlock (2 ^ 64)) ∧
    ∃ between after, testWideLock 601 (Contract.deploy 300 0) = .ok between ∧
      testWideLock (2 ^ 128) between = .ok after ∧
        ¬ ShownByTool after (testWideId 601) testHashlock 601 := by
  have tight : testWideId 601 = Bytes.fill 32 89 := by decide +kernel
  have huge : testWideId (2 ^ 128) = Bytes.fill 32 0 := by decide +kernel
  have elsewhere : Bytes.fill 32 89 ≠ Bytes.fill 32 0 := by decide
  have hashed : testHashlock ≠ Bytes.fill 32 0 ∧ testHashlock ≠ Bytes.fill 32 89 := by decide
  refine ⟨?_, ?_, ?_⟩
  · obtain ⟨after, locked, -, stored⟩ :=
      test_wide (2 ^ 128) (Contract.deploy 300 0) rfl (by decide +kernel) rfl
    have mine := (stored (testWideId (2 ^ 128))).trans (if_pos rfl)
    refine ⟨after, locked, ?_⟩
    rw [sepoliaHtlcStatus_of_found rfl rfl (by rw [mine]; exact lockedHTLC_there), mine]
    have wide : to128? (2 ^ 128) = none := if_neg (by decide +kernel)
    simp only [htlcJson, Eth.lockedHTLC, wide]
    rfl
  · obtain ⟨after, locked, -, stored⟩ :=
      test_wide (2 ^ 64) (Contract.deploy 300 0) rfl (by decide +kernel) rfl
    have mine := (stored (testWideId (2 ^ 64))).trans (if_pos rfl)
    refine ⟨after, locked, fun shown => ?_⟩
    have fitting := (narrow_of_shown shown (by rw [mine]; exact lockedHTLC_there) (by rw [mine]; rfl)
      (by rw [mine]; rfl)).2.1
    exact absurd fitting (by unfold Fitting; decide +kernel)
  · obtain ⟨between, first, delta, stored⟩ :=
      test_wide 601 (Contract.deploy 300 0) rfl (by decide +kernel) rfl
    rw [tight] at stored
    obtain ⟨after, second, -, restored⟩ := test_wide (2 ^ 128) between delta (by decide +kernel) (by
      rw [huge]
      exact congrArg HTLC.state ((stored (Bytes.fill 32 0)).trans (if_neg elsewhere.symm)))
    rw [huge] at restored
    have mine : Eth.getHTLC (Bytes.fill 32 89) after = _ :=
      (restored _).trans ((if_neg elsewhere).trans ((stored _).trans (if_pos rfl)))
    have theirs : Eth.getHTLC (Bytes.fill 32 0) after = _ := (restored _).trans (if_pos rfl)
    have neither : Eth.getHTLC testHashlock after = _ :=
      (restored _).trans ((if_neg hashed.1).trans ((stored _).trans (if_neg hashed.2)))
    refine ⟨between, after, first, second, fun shown => ?_⟩
    rw [tight] at shown
    have others := (narrow_of_shown shown (by rw [mine]; exact lockedHTLC_there) (by rw [mine]; rfl)
      (by rw [mine]; rfl)).2.2
    have narrow := others (by rw [neither]; rfl) (Bytes.fill 32 0) (by rw [theirs]; rfl)
    rw [theirs] at narrow
    exact absurd narrow.2 (by decide +kernel)

end AtomicSwaps.Mcp
