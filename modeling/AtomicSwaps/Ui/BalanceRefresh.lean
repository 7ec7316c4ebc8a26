import AtomicSwaps.Ui.PinnedVenue

/-!
# Refreshing the balances

Every read of the balances is automatic: of a timer, of a swap that has finished, of a config that
was loaded. A request that comes while a read is in flight is kept for one more read, a finished
swap polls until both balances have moved or its window has closed, and what a failed read says is
held back until the same side has failed twice running.
-/

namespace AtomicSwaps.Ui

open Trimming (trim)

/-! ## The coordinator -/

/-- `BalanceRefreshSources`. -/
structure BalanceRefreshSources where
  env : Bool
  config : Bool

/-- `any`. -/
def BalanceRefreshSources.any (sources : BalanceRefreshSources) : Bool :=
  sources.env || sources.config

/-- `BalanceSnapshot`. -/
structure BalanceSnapshot where
  eth : String
  lez : String
deriving DecidableEq

/-- `Decision`. -/
inductive Decision where
  | startFromEnv
  | startFromConfig
  | coalesced
  | unavailable
deriving DecidableEq

/-- `BalanceRefreshCoordinator`. -/
structure BalanceRefreshCoordinator where
  pendingAutomatic : Bool
  settling : Bool
  ethMoved : Bool
  lezMoved : Bool
  settleDeadlineMs : Int
  settleSnapshot : BalanceSnapshot

namespace BalanceRefreshCoordinator

/-- A coordinator as it is constructed. -/
def initial : BalanceRefreshCoordinator where
  pendingAutomatic := false
  settling := false
  ethMoved := false
  lezMoved := false
  settleDeadlineMs := 0
  settleSnapshot := ⟨"", ""⟩

/-- `route`. -/
def route (sources : BalanceRefreshSources) : Decision :=
  if sources.env then .startFromEnv
  else if sources.config then .startFromConfig
  else .unavailable

variable (coordinator : BalanceRefreshCoordinator)

/-- `requestAutomatic`. -/
def requestAutomatic (sources : BalanceRefreshSources) (refreshInFlight : Bool) :
    Decision × BalanceRefreshCoordinator :=
  if !sources.any then (.unavailable, coordinator)
  else if refreshInFlight then (.coalesced, { coordinator with pendingAutomatic := true })
  else (route sources, coordinator)

/-- `finish`. -/
def finish (sources : BalanceRefreshSources) : Decision × BalanceRefreshCoordinator :=
  if !coordinator.pendingAutomatic then (.unavailable, coordinator)
  else (route sources, { coordinator with pendingAutomatic := false })

/-- `beginSettle`. -/
def beginSettle (snapshot : BalanceSnapshot) (nowMs windowMs : Int) : BalanceRefreshCoordinator :=
  { coordinator with
    settleSnapshot := snapshot
    settleDeadlineMs := nowMs + windowMs
    ethMoved := false
    lezMoved := false
    settling := 0 < windowMs }

/-- `observeSettle`. -/
def observeSettle (current : BalanceSnapshot) (nowMs : Int) : Bool × BalanceRefreshCoordinator :=
  if !coordinator.settling then (false, coordinator)
  else
    let coordinator := { coordinator with
      ethMoved := coordinator.ethMoved || current.eth ≠ coordinator.settleSnapshot.eth
      lezMoved := coordinator.lezMoved || current.lez ≠ coordinator.settleSnapshot.lez }
    if coordinator.ethMoved && coordinator.lezMoved then
      (false, { coordinator with settling := false })
    else if coordinator.settleDeadlineMs ≤ nowMs then
      (false, { coordinator with settling := false })
    else (true, coordinator)

end BalanceRefreshCoordinator

/-! ## What can be read -/

/-- `BalanceReadGate`. -/
structure BalanceReadGate where
  ethReady : Bool
  lezReady : Bool

/-- `anyReady`. -/
def BalanceReadGate.anyReady (gate : BalanceReadGate) : Bool := gate.ethReady || gate.lezReady

/-- `present`. -/
def present (value : String) : Bool := trim cSpace value.toList ≠ []

/-- `balanceReadGate`. -/
def balanceReadGate (config : AppConfig) : BalanceReadGate where
  ethReady := present config.ethRpcUrl && isHexBytes cSpace config.ethPrivateKey 32 &&
    isHexBytes cSpace config.ethHtlcAddress 20
  lezReady := present config.lezSequencerUrl && (isHexBytes cSpace config.lezSigningKey 32 ||
    (present config.lezWalletHome && present config.lezAccountId))

/-- `kBalanceReadInputs`. -/
def balanceReadInputs : List String :=
  ["eth_rpc_url", "eth_private_key", "eth_htlc_address", "lez_sequencer_url", "lez_signing_key",
    "lez_wallet_home", "lez_account_id"]

/-! ## What a failed read says -/

/-- `sideNotSetUp`. -/
def sideNotSetUp (sideError : String) : Bool :=
  sideError.toList.tails.any ("not set up yet".toList.isPrefixOf ·)

/-- `BalanceSide`. -/
inductive BalanceSide where
  | eth
  | lez
deriving DecidableEq

/-- `kFailuresBeforeVisible`. -/
def failuresBeforeVisible : Nat := 2

/-- `balanceErrorCopy`. -/
def balanceErrorCopy : BalanceSide → String
  | .eth => "Can't reach Ethereum right now, so the ETH balance may be out of " ++
      "date. The app keeps trying."
  | .lez => "Can't reach the LEZ network right now, so the LEZ balance may be " ++
      "out of date. The app keeps trying."

/-- `BalanceSideErrors`. -/
structure BalanceSideErrors where
  consecutiveFailures : Nat
  message : String

namespace BalanceSideErrors

/-- `recordSuccess`, which `reset` is too. -/
def recordSuccess (_ : BalanceSideErrors) : BalanceSideErrors := ⟨0, ""⟩

/-- `recordFailure`. -/
def recordFailure (errors : BalanceSideErrors) (side : BalanceSide) (rawError : String) :
    BalanceSideErrors :=
  if sideNotSetUp rawError then errors.recordSuccess
  else
    let failures :=
      if errors.consecutiveFailures < failuresBeforeVisible then errors.consecutiveFailures + 1
      else errors.consecutiveFailures
    ⟨failures, if failuresBeforeVisible ≤ failures then balanceErrorCopy side else ""⟩

end BalanceSideErrors

/-- `BalanceErrors`, by side. -/
abbrev BalanceErrors := BalanceSide → BalanceSideErrors

namespace BalanceErrors

/-- `reset`. -/
def reset (errors : BalanceErrors) : BalanceErrors := fun side => (errors side).recordSuccess

/-- `recordCallFailure`. -/
def recordCallFailure (errors : BalanceErrors) (rawError : String) : BalanceErrors :=
  fun side => (errors side).recordFailure side rawError

end BalanceErrors

/-! ## The panel -/

/-- What is under way: the flag the views see, the settle poll, and the reads not yet answered.
`started` counts the reads of the whole run. -/
structure Refreshing where
  balancesLoading : Bool
  coordinator : BalanceRefreshCoordinator
  settleTimer : Bool
  reads : List Decision
  started : Nat

/-- The balances, with the app whose accounts they belong to. -/
structure BalancePanel where
  app : App
  loadedEnvPath : String
  ethAddress : String
  lezAccount : String
  lezBalance : String
  errors : BalanceErrors
  ethBalanceError : String
  lezBalanceError : String
  refreshing : Refreshing

namespace BalancePanel

/-- The panel once the client is there. -/
def initial (env : Surroundings) : BalancePanel where
  app := .initial env
  loadedEnvPath := ""
  ethAddress := ""
  lezAccount := ""
  lezBalance := ""
  errors := fun _ => ⟨0, ""⟩
  ethBalanceError := ""
  lezBalanceError := ""
  refreshing := ⟨false, .initial, false, [], 0⟩

variable (panel : BalancePanel)

/-- Another status line. -/
def setStatus (status : String) : BalancePanel :=
  { panel with app := { panel.app with status := status } }

/-- `balanceRefreshSources`. -/
def balanceRefreshSources : BalanceRefreshSources where
  env := panel.loadedEnvPath ≠ ""
  config := (balanceReadGate panel.app.config).anyReady

/-- `balanceSnapshot`. -/
def balanceSnapshot : BalanceSnapshot := ⟨panel.app.ethBalance, panel.lezBalance⟩

/-- `startBalanceRefreshRequest`: one more read, by the file or by the config. -/
def startBalanceRefreshRequest (route : Decision) : BalancePanel :=
  { panel with refreshing :=
      { panel.refreshing with
        reads := panel.refreshing.reads ++ [route]
        started := panel.refreshing.started + 1 } }

/-- The start of a read while none is in flight. -/
def startLoading (route : Decision) : BalancePanel :=
  let panel := { panel with refreshing := { panel.refreshing with balancesLoading := true } }
  (panel.setStatus "Fetching balances...").startBalanceRefreshRequest route

/-- `fetchBalances`. -/
def fetchBalances : BalancePanel :=
  if panel.refreshing.balancesLoading then panel
  else if !(balanceReadGate panel.app.config).anyReady then
    panel.setStatus "Balances unavailable until an account is set up"
  else panel.startLoading .startFromConfig

/-- `fetchBalancesFromLoadedEnv`. -/
def fetchBalancesFromLoadedEnv : BalancePanel :=
  if panel.loadedEnvPath = "" || panel.refreshing.balancesLoading then panel
  else panel.startLoading .startFromEnv

/-- Another coordinator. -/
def withCoordinator (coordinator : BalanceRefreshCoordinator) : BalancePanel :=
  { panel with refreshing := { panel.refreshing with coordinator := coordinator } }

/-- Other reads in flight. -/
def withReads (reads : List Decision) : BalancePanel :=
  { panel with refreshing := { panel.refreshing with reads := reads } }

/-- What a decision starts. -/
def serve : Decision → BalancePanel
  | .startFromEnv => panel.fetchBalancesFromLoadedEnv
  | .startFromConfig => panel.fetchBalances
  | .coalesced | .unavailable => panel

/-- `requestAutomaticBalanceRefresh`. -/
def requestAutomaticBalanceRefresh : BalancePanel :=
  let (decision, coordinator) := panel.refreshing.coordinator.requestAutomatic
    panel.balanceRefreshSources panel.refreshing.balancesLoading
  (panel.withCoordinator coordinator).serve decision

/-- `kBalanceSettleWindowMs`. -/
def balanceSettleWindowMs : Int := 300000

/-- `beginBalanceSettle`. -/
def beginBalanceSettle (nowMs : Int) : BalancePanel :=
  let coordinator :=
    panel.refreshing.coordinator.beginSettle panel.balanceSnapshot nowMs balanceSettleWindowMs
  { panel with refreshing :=
      { panel.refreshing with settleTimer := false, coordinator := coordinator } }
    |>.requestAutomaticBalanceRefresh

/-- `publishBalanceErrors`. -/
def publishBalanceErrors : BalancePanel :=
  { panel with
    ethBalanceError := (panel.errors .eth).message
    lezBalanceError := (panel.errors .lez).message }

/-- `jsonError`, of what the text parses to. -/
def jsonError (obj : QJsonObject) : String :=
  match obj.lookup "error" with
  | some (.string text) => text
  | _ => ""

/-- A prop that is set where a field is present. -/
def present? (obj : QJsonObject) (key current : String) : String :=
  if (obj.lookup key).isSome then valueString obj key else current

/-- The record of one side, from its own error of a result. -/
def recordSide (errors : BalanceErrors) (side : BalanceSide) (error : String) :
    BalanceSideErrors :=
  if error = "" then (errors side).recordSuccess else (errors side).recordFailure side error

/-- The error of a side. -/
def sideError (obj : QJsonObject) : BalanceSide → String
  | .eth => valueString obj "eth_error"
  | .lez => valueString obj "lez_error"

/-- `applyBalancesResult`. -/
def applyBalancesResult (obj : QJsonObject) : BalancePanel :=
  let error := jsonError obj
  if error ≠ "" then
    { panel with errors := panel.errors.recordCallFailure error }
      |>.publishBalanceErrors |>.setStatus ("Balance fetch failed: " ++ error)
  else
    let anyRealFailure := [BalanceSide.eth, .lez].any fun side =>
      sideError obj side ≠ "" && !sideNotSetUp (sideError obj side)
    { panel with
      app := { panel.app with ethBalance := present? obj "eth_balance" panel.app.ethBalance }
      ethAddress := present? obj "eth_address" panel.ethAddress
      lezAccount := present? obj "lez_account" panel.lezAccount
      lezBalance := present? obj "lez_balance" panel.lezBalance
      errors := fun side => recordSide panel.errors side (sideError obj side) }
      |>.publishBalanceErrors
      |>.setStatus (if anyRealFailure then "Balances fetched with warnings" else "Balances fetched")

/-- The settle poll after a read that no other follows. -/
def observe (nowMs : Int) : BalancePanel :=
  let (again, coordinator) :=
    panel.refreshing.coordinator.observeSettle panel.balanceSnapshot nowMs
  { panel with refreshing :=
      { panel.refreshing with
        balancesLoading := false
        coordinator := coordinator
        settleTimer := panel.refreshing.settleTimer || again } }

/-- `completeBalanceRefresh`. -/
def completeBalanceRefresh (obj : QJsonObject) (nowMs : Int) : BalancePanel :=
  let panel := panel.applyBalancesResult obj
  let (followUp, coordinator) := panel.refreshing.coordinator.finish panel.balanceRefreshSources
  let panel := panel.withCoordinator coordinator
  if followUp = .startFromEnv || followUp = .startFromConfig then
    (panel.setStatus "Fetching balances...").startBalanceRefreshRequest followUp
  else panel.observe nowMs

/-- `m_balanceErrors.reset`, published. -/
def resetErrors : BalancePanel := { panel with errors := panel.errors.reset }.publishBalanceErrors

/-- What happens to the panel. -/
inductive Event where
  | app (event : App.Event)
  | envLoaded (path role error : String) (obj : QJsonObject)
  | fetchBalances
  | requestAutomatic
  | swapFinished (nowMs : Int)
  | settleTimeout
  | answered (obj : QJsonObject) (nowMs : Int)

/-- The callback of `loadEnvAsync`, with the read that follows it. -/
def envLoaded (path role error : String) (obj : QJsonObject) : BalancePanel :=
  let panel := { panel with app := panel.app.envLoaded role error obj }
  if error ≠ "" then panel
  else
    let panel := { panel with loadedEnvPath := path }
    if panel.app.validateConfig.1 then panel.fetchBalancesFromLoadedEnv else panel

/-- What an event of the app does here. -/
def appStep (env : Surroundings) (event : App.Event) : BalancePanel :=
  let next := { panel with app := panel.app.step env event }
  match event with
  | .setConfigValue key _ => if key ∈ balanceReadInputs then next.resetErrors else next
  | .resetConfig => next.resetErrors
  | _ => next

/-- The panel after an event. A timer that does not run does not fire, and nothing is answered
where no read is in flight. -/
def step (env : Surroundings) : Event → BalancePanel
  | .app event => panel.appStep env event
  | .envLoaded path role error obj => panel.envLoaded path role error obj
  | .fetchBalances => panel.fetchBalances
  | .requestAutomatic => panel.requestAutomaticBalanceRefresh
  | .swapFinished nowMs => panel.beginBalanceSettle nowMs
  | .settleTimeout =>
      if panel.refreshing.settleTimer then
        { panel with refreshing := { panel.refreshing with settleTimer := false } }
          |>.requestAutomaticBalanceRefresh
      else panel
  | .answered obj nowMs =>
      match panel.refreshing.reads with
      | [] => panel
      | _ :: reads => (panel.withReads reads).completeBalanceRefresh obj nowMs

/-- The panel after a sequence of events, from a state of its own. -/
def run (env : Surroundings) (events : List Event) : BalancePanel :=
  events.foldl (fun panel event => panel.step env event) panel

/-- The panel after a sequence of events. -/
def after (env : Surroundings) (events : List Event) : BalancePanel := (initial env).run env events

end BalancePanel

/-! ## The laws -/

namespace BalancePanel

/-- What an automatic request starts from, where an event makes one. -/
def asked (panel : BalancePanel) : Event → Option Refreshing
  | .requestAutomatic => some panel.refreshing
  | .swapFinished nowMs =>
      some { panel.refreshing with
        settleTimer := false
        coordinator := panel.refreshing.coordinator.beginSettle panel.balanceSnapshot nowMs
          balanceSettleWindowMs }
  | .settleTimeout =>
      if panel.refreshing.settleTimer then some { panel.refreshing with settleTimer := false }
      else none
  | _ => none

/-- No read is in flight and nothing can be read. -/
def Starved (panel : BalancePanel) : Prop :=
  panel.refreshing.balancesLoading = false ∧ panel.balanceRefreshSources.any = false

/-- A read is in flight exactly while the balances show as loading, and never a second one. A
request for which something can be read is answered by a read that starts after it, unless
nothing can be read any more once the read in flight is answered. -/
structure ReadsInTurn (env : Surroundings) (events : List Event) : Prop where
  single : (after env events).refreshing.reads.length =
    if (after env events).refreshing.balancesLoading then 1 else 0
  served : ∀ front ask rest, events = front ++ ask :: rest →
    ((after env front).asked ask).isSome → (after env front).balanceRefreshSources.any →
    (after env events).refreshing.balancesLoading = false →
      (after env front).refreshing.started < (after env events).refreshing.started ∨
        ∃ mid obj nowMs, front ++ ask :: mid ++ [.answered obj nowMs] <+: events ∧
          (after env (front ++ ask :: mid ++ [.answered obj nowMs])).Starved

/-- What the settle poll looks at in an event: the balances after a read that no other follows. -/
def observation (env : Surroundings) (panel : BalancePanel) (event : Event) :
    Option (BalanceSnapshot × Int) :=
  match event with
  | .answered _ nowMs =>
      let next := panel.step env event
      if panel.refreshing.reads = [] || next.refreshing.balancesLoading then none
      else some (next.balanceSnapshot, nowMs)
  | _ => none

/-- What it looks at in a run. -/
def observations (env : Surroundings) (panel : BalancePanel) : List Event →
    List (BalanceSnapshot × Int)
  | [] => []
  | event :: rest =>
      (panel.observation env event).toList ++ observations env (panel.step env event) rest

/-- A swap has finished. -/
def Event.Finishes : Event → Prop
  | .swapFinished _ => True
  | _ => False

/-- Both balances have moved away from what they were, each in one look or another. -/
def BothMoved (before : BalanceSnapshot) (looks : List (BalanceSnapshot × Int)) : Prop :=
  (∃ look ∈ looks, look.1.eth ≠ before.eth) ∧ ∃ look ∈ looks, look.1.lez ≠ before.lez

/-- The poll is on, but neither a read nor its timer will go on with it. -/
def Stalled (panel : BalancePanel) : Prop :=
  panel.refreshing.coordinator.settling = true ∧ panel.refreshing.balancesLoading = false ∧
    panel.refreshing.settleTimer = false

/-- After a swap the poll is on until both balances have moved, or a look comes at the end of
the window. It stalls exactly when its last request found nothing to read while no read was in
flight, and no read has been started since. -/
structure PollsUntilMoved (env : Surroundings) (events : List Event) : Prop where
  settles : ∀ front finished rest, events = front ++ .swapFinished finished :: rest →
    (∀ event ∈ rest, ¬ event.Finishes) →
      let looks := ((after env front).step env (.swapFinished finished)).observations env rest
      ((after env events).refreshing.coordinator.settling = true ↔
        (∀ look ∈ looks, look.2 < finished + balanceSettleWindowMs) ∧
          ¬ BothMoved (after env front).balanceSnapshot looks)
  stalls : (after env events).Stalled ↔
    (after env events).refreshing.coordinator.settling = true ∧
      ∃ front ask rest, events = front ++ ask :: rest ∧ ask ≠ .requestAutomatic ∧
        ((after env front).asked ask).isSome ∧ (after env front).Starved ∧
        (after env events).refreshing.started = (after env front).refreshing.started

/-- A result says that the read of a side failed, by an error of the whole call or of that side. -/
def readFailed (obj : QJsonObject) (side : BalanceSide) : Bool :=
  let error := if jsonError obj ≠ "" then jsonError obj else sideError obj side
  error ≠ "" && !sideNotSetUp error

/-- What an event says about a side: whether its read failed, or that its record starts anew. -/
def verdict (panel : BalancePanel) (side : BalanceSide) : Event → Option Bool
  | .answered obj _ =>
      if panel.refreshing.reads = [] then none else some (readFailed obj side)
  | .app (.setConfigValue key _) => if key ∈ balanceReadInputs then some false else none
  | .app .resetConfig => some false
  | _ => none

/-- What a run says about a side. -/
def verdicts (env : Surroundings) (side : BalanceSide) (panel : BalancePanel) : List Event →
    List Bool
  | [] => []
  | event :: rest =>
      (panel.verdict side event).toList ++ verdicts env side (panel.step env event) rest

/-- The error that the views show for a side. -/
def shown (panel : BalancePanel) : BalanceSide → String
  | .eth => panel.ethBalanceError
  | .lez => panel.lezBalanceError

end BalancePanel

/-! ## What an event does -/

namespace Refreshing

/-- A read is started where none is in flight. -/
def Starts (before next : Refreshing) : Prop :=
  before.balancesLoading = false ∧ ∃ route,
    next = { before with
      balancesLoading := true
      reads := before.reads ++ [route]
      started := before.started + 1 }

/-- A request is kept for the read in flight. -/
def keep (before : Refreshing) : Refreshing :=
  { before with coordinator := { before.coordinator with pendingAutomatic := true } }

/-- No request is kept any more. -/
def release (before : Refreshing) : BalanceRefreshCoordinator :=
  { before.coordinator with pendingAutomatic := false }

end Refreshing

namespace BalancePanel

variable {env : Surroundings} {panel : BalancePanel} {events : List BalancePanel.Event}

/-- What an event does to what is under way. -/
inductive Turn (env : Surroundings) (panel : BalancePanel) : Event → Refreshing → Prop where
  | quiet {event} (none : panel.asked event = none)
      (unanswered : ∀ obj nowMs, event = .answered obj nowMs → panel.refreshing.reads = []) :
      Turn env panel event panel.refreshing
  | starts {event next} (none : panel.asked event = none)
      (unanswered : ∀ obj nowMs, event ≠ .answered obj nowMs)
      (starts : panel.refreshing.Starts next) :
      Turn env panel event next
  | starved {event base} (asked : panel.asked event = some base)
      (unreadable : panel.balanceRefreshSources.any = false) : Turn env panel event base
  | kept {event base} (asked : panel.asked event = some base)
      (readable : panel.balanceRefreshSources.any = true)
      (loading : base.balancesLoading = true) : Turn env panel event base.keep
  | served {event base next} (asked : panel.asked event = some base)
      (readable : panel.balanceRefreshSources.any = true) (starts : base.Starts next) :
      Turn env panel event next
  | follows {obj nowMs first rest route} (reads : panel.refreshing.reads = first :: rest)
      (pending : panel.refreshing.coordinator.pendingAutomatic = true)
      (readable : panel.balanceRefreshSources.any = true) :
      Turn env panel (.answered obj nowMs)
        { panel.refreshing with
          reads := rest ++ [route]
          coordinator := panel.refreshing.release
          started := panel.refreshing.started + 1 }
  | settles {obj nowMs first rest} (reads : panel.refreshing.reads = first :: rest)
      (done : panel.refreshing.coordinator.pendingAutomatic = true →
        panel.balanceRefreshSources.any = false)
      (sources : (panel.step env (.answered obj nowMs)).balanceRefreshSources =
        panel.balanceRefreshSources) :
      Turn env panel (.answered obj nowMs)
        (let look := panel.refreshing.release.observeSettle
          (panel.step env (.answered obj nowMs)).balanceSnapshot nowMs
        { panel.refreshing with
          reads := rest
          balancesLoading := false
          coordinator := look.2
          settleTimer := panel.refreshing.settleTimer || look.1 })

theorem route_of_any {sources : BalanceRefreshSources} (any : sources.any = true) :
    BalanceRefreshCoordinator.route sources = .startFromEnv ∧ sources.env = true ∨
      BalanceRefreshCoordinator.route sources = .startFromConfig ∧ sources.config = true := by
  unfold BalanceRefreshCoordinator.route
  cases file : sources.env
  · have field : sources.config = true := by simpa [BalanceRefreshSources.any, file] using any
    exact .inr ⟨by simp [field], field⟩
  · exact .inl ⟨by simp, rfl⟩

theorem route_of_none {sources : BalanceRefreshSources} (none : sources.any = false) :
    BalanceRefreshCoordinator.route sources = .unavailable := by
  simp only [BalanceRefreshSources.any, Bool.or_eq_false_iff] at none
  simp [BalanceRefreshCoordinator.route, none.1, none.2]

theorem startLoading_starts (route : Decision)
    (idle : panel.refreshing.balancesLoading = false) :
    panel.refreshing.Starts (panel.startLoading route).refreshing :=
  ⟨idle, route, rfl⟩

theorem fetchBalances_cases :
    panel.fetchBalances.refreshing = panel.refreshing ∨
      panel.refreshing.Starts panel.fetchBalances.refreshing := by
  unfold fetchBalances
  split
  · exact .inl rfl
  split
  · exact .inl rfl
  · rename_i idle _
    exact .inr (startLoading_starts _ (by simpa using idle))

theorem fetchBalancesFromLoadedEnv_cases :
    panel.fetchBalancesFromLoadedEnv.refreshing = panel.refreshing ∨
      panel.refreshing.Starts panel.fetchBalancesFromLoadedEnv.refreshing := by
  unfold fetchBalancesFromLoadedEnv
  split
  · exact .inl rfl
  · rename_i open'
    simp only [Bool.or_eq_true, decide_eq_true_eq, not_or, Bool.not_eq_true] at open'
    exact .inr (startLoading_starts _ open'.2)

theorem request_eq {decision : Decision} {coordinator : BalanceRefreshCoordinator}
    (decides : panel.refreshing.coordinator.requestAutomatic panel.balanceRefreshSources
      panel.refreshing.balancesLoading = (decision, coordinator)) :
    panel.requestAutomaticBalanceRefresh = (panel.withCoordinator coordinator).serve decision := by
  unfold requestAutomaticBalanceRefresh
  rw [decides]

/-- What an automatic request does: nothing, keep itself for later, or start a read. -/
theorem requestAutomatic_cases :
    (panel.balanceRefreshSources.any = false ∧
        panel.requestAutomaticBalanceRefresh.refreshing = panel.refreshing) ∨
      (panel.balanceRefreshSources.any = true ∧ panel.refreshing.balancesLoading = true ∧
        panel.requestAutomaticBalanceRefresh.refreshing = panel.refreshing.keep) ∨
      (panel.balanceRefreshSources.any = true ∧
        panel.refreshing.Starts panel.requestAutomaticBalanceRefresh.refreshing) := by
  cases any : panel.balanceRefreshSources.any
  · have decides : panel.refreshing.coordinator.requestAutomatic panel.balanceRefreshSources
        panel.refreshing.balancesLoading = (.unavailable, panel.refreshing.coordinator) := by
      simp [BalanceRefreshCoordinator.requestAutomatic, any]
    exact .inl ⟨rfl, by rw [request_eq decides]; rfl⟩
  cases loading : panel.refreshing.balancesLoading
  · have decides : panel.refreshing.coordinator.requestAutomatic panel.balanceRefreshSources
        panel.refreshing.balancesLoading =
          (BalanceRefreshCoordinator.route panel.balanceRefreshSources,
            panel.refreshing.coordinator) := by
      simp [BalanceRefreshCoordinator.requestAutomatic, any, loading]
    have same : panel.withCoordinator panel.refreshing.coordinator = panel := rfl
    rw [request_eq decides, same]
    refine .inr (.inr ⟨rfl, ?_⟩)
    rcases route_of_any any with ⟨route, source⟩ | ⟨route, source⟩
    · have path : panel.loadedEnvPath ≠ "" := by simpa [balanceRefreshSources] using source
      simpa [route, serve, fetchBalancesFromLoadedEnv, path, loading]
        using startLoading_starts .startFromEnv loading
    · have ready : (balanceReadGate panel.app.config).anyReady = true := source
      simpa [route, serve, fetchBalances, ready, loading]
        using startLoading_starts .startFromConfig loading
  · have decides : panel.refreshing.coordinator.requestAutomatic panel.balanceRefreshSources
        panel.refreshing.balancesLoading = (.coalesced, panel.refreshing.keep.coordinator) := by
      simp [BalanceRefreshCoordinator.requestAutomatic, any, loading, Refreshing.keep]
    exact .inr (.inl ⟨rfl, rfl, by rw [request_eq decides]; rfl⟩)

theorem applyBalancesResult_kept (obj : QJsonObject) :
    (panel.applyBalancesResult obj).refreshing = panel.refreshing ∧
      (panel.applyBalancesResult obj).balanceRefreshSources = panel.balanceRefreshSources := by
  unfold applyBalancesResult
  dsimp only
  split <;> exact ⟨rfl, rfl⟩

theorem appStep_refreshing (event : App.Event) :
    (panel.appStep env event).refreshing = panel.refreshing := by
  unfold appStep
  split
  · split <;> rfl
  · rfl
  · rfl

theorem envLoaded_cases (path role error : String) (obj : QJsonObject) :
    (panel.envLoaded path role error obj).refreshing = panel.refreshing ∨
      panel.refreshing.Starts (panel.envLoaded path role error obj).refreshing := by
  unfold envLoaded
  dsimp only
  split
  · exact .inl rfl
  split
  · exact fetchBalancesFromLoadedEnv_cases
  · exact .inl rfl

/-- A request of an event, from what it starts from. -/
theorem turn_of_request {event : Event} {base : Refreshing}
    (asked : panel.asked event = some base)
    (step : panel.step env event =
      { panel with refreshing := base }.requestAutomaticBalanceRefresh) :
    Turn env panel event (panel.step env event).refreshing := by
  rw [step]
  rcases @requestAutomatic_cases { panel with refreshing := base } with
    ⟨none, same⟩ | ⟨any, loading, kept⟩ | ⟨any, starts⟩
  · rw [same]
    exact .starved asked none
  · rw [kept]
    exact .kept asked any loading
  · exact .served asked any starts

theorem turn_of_reads {event : Event} (none : panel.asked event = none)
    (unanswered : ∀ obj nowMs, event ≠ .answered obj nowMs)
    (cases : (panel.step env event).refreshing = panel.refreshing ∨
      panel.refreshing.Starts (panel.step env event).refreshing) :
    Turn env panel event (panel.step env event).refreshing := by
  rcases cases with same | starts
  · rw [same]
    exact .quiet none fun obj nowMs answered => absurd answered (unanswered obj nowMs)
  · exact .starts none unanswered starts

theorem complete_eq {obj : QJsonObject} {nowMs : Int} {decision : Decision}
    {coordinator : BalanceRefreshCoordinator}
    (decides : (panel.applyBalancesResult obj).refreshing.coordinator.finish
      (panel.applyBalancesResult obj).balanceRefreshSources = (decision, coordinator)) :
    panel.completeBalanceRefresh obj nowMs =
      if decision = .startFromEnv || decision = .startFromConfig then
        (((panel.applyBalancesResult obj).withCoordinator coordinator).setStatus
          "Fetching balances...").startBalanceRefreshRequest decision
      else ((panel.applyBalancesResult obj).withCoordinator coordinator).observe nowMs := by
  unfold completeBalanceRefresh
  dsimp only
  rw [decides]

/-- What an answer does: another read follows for a request that was kept, or the settle poll
looks at the balances. -/
theorem complete_cases (obj : QJsonObject) (nowMs : Int) :
    (panel.refreshing.coordinator.pendingAutomatic = true ∧
        panel.balanceRefreshSources.any = true ∧ ∃ route,
        (panel.completeBalanceRefresh obj nowMs).refreshing =
          { panel.refreshing with
            reads := panel.refreshing.reads ++ [route]
            coordinator := panel.refreshing.release
            started := panel.refreshing.started + 1 }) ∨
      ((panel.refreshing.coordinator.pendingAutomatic = true →
          panel.balanceRefreshSources.any = false) ∧
        panel.completeBalanceRefresh obj nowMs =
          ((panel.applyBalancesResult obj).withCoordinator panel.refreshing.release).observe
            nowMs) := by
  obtain ⟨under, sources⟩ := @applyBalancesResult_kept panel obj
  cases pending : panel.refreshing.coordinator.pendingAutomatic
  · have release : panel.refreshing.release = panel.refreshing.coordinator := by
      simp [Refreshing.release, ← pending]
    refine .inr ⟨by simp, ?_⟩
    have decides : (panel.applyBalancesResult obj).refreshing.coordinator.finish
        (panel.applyBalancesResult obj).balanceRefreshSources =
          (.unavailable, panel.refreshing.coordinator) := by
      simp [BalanceRefreshCoordinator.finish, under, pending]
    rw [complete_eq decides, release]
    rfl
  have decides : (panel.applyBalancesResult obj).refreshing.coordinator.finish
      (panel.applyBalancesResult obj).balanceRefreshSources =
        (BalanceRefreshCoordinator.route panel.balanceRefreshSources,
          panel.refreshing.release) := by
    simp [BalanceRefreshCoordinator.finish, under, sources, pending, Refreshing.release]
  cases any : panel.balanceRefreshSources.any
  · refine .inr ⟨fun _ => rfl, ?_⟩
    rw [complete_eq decides, route_of_none any]
    rfl
  · refine .inl ⟨rfl, rfl, BalanceRefreshCoordinator.route panel.balanceRefreshSources, ?_⟩
    rw [complete_eq decides, if_pos]
    · simp [startBalanceRefreshRequest, setStatus, withCoordinator, under]
    · rcases route_of_any any with ⟨route, -⟩ | ⟨route, -⟩ <;> simp [route]

theorem observe_refreshing (coordinator : BalanceRefreshCoordinator) (nowMs : Int) :
    ((panel.withCoordinator coordinator).observe nowMs).refreshing =
      let look := coordinator.observeSettle panel.balanceSnapshot nowMs
      { panel.refreshing with
        balancesLoading := false
        coordinator := look.2
        settleTimer := panel.refreshing.settleTimer || look.1 } := rfl

theorem turn_answered (obj : QJsonObject) (nowMs : Int) :
    Turn env panel (.answered obj nowMs) (panel.step env (.answered obj nowMs)).refreshing := by
  cases reads : panel.refreshing.reads with
  | nil =>
      have same : panel.step env (.answered obj nowMs) = panel := by simp [step, reads]
      rw [same]
      exact .quiet rfl fun _ _ _ => reads
  | cons first rest =>
      have next : panel.step env (.answered obj nowMs) =
          (panel.withReads rest).completeBalanceRefresh obj nowMs := by
        simp [step, reads]
      have cases := @complete_cases (panel.withReads rest) obj nowMs
      rw [← next] at cases
      rcases cases with ⟨pending, any, route, follows⟩ | ⟨done, observes⟩
      · rw [follows]
        exact .follows reads pending any
      · obtain ⟨under, sources⟩ := @applyBalancesResult_kept (panel.withReads rest) obj
        have looks := @Turn.settles env panel obj nowMs first rest reads done
          (by rw [observes]; exact sources)
        have snapshot : (panel.step env (.answered obj nowMs)).balanceSnapshot =
            ((panel.withReads rest).applyBalancesResult obj).balanceSnapshot := by
          rw [observes]
          rfl
        rw [snapshot] at looks
        rw [observes, observe_refreshing, under]
        exact looks

/-- What an event does to what is under way. -/
theorem turn (event : Event) : Turn env panel event (panel.step env event).refreshing := by
  cases event with
  | app event => exact turn_of_reads rfl (by simp) (.inl (appStep_refreshing event))
  | envLoaded path role error obj =>
      exact turn_of_reads rfl (by simp) (envLoaded_cases path role error obj)
  | fetchBalances => exact turn_of_reads rfl (by simp) fetchBalances_cases
  | requestAutomatic => exact turn_of_request rfl rfl
  | swapFinished nowMs => exact turn_of_request rfl rfl
  | settleTimeout =>
      cases timer : panel.refreshing.settleTimer
      · have same : panel.step env .settleTimeout = panel := by simp [step, timer]
        rw [same]
        exact .quiet (by simp [asked, timer]) (by simp)
      · exact turn_of_request (by simp only [asked, timer]; rfl) (by simp [step, timer])
  | answered obj nowMs => exact turn_answered obj nowMs

/-! ## Reads in turn -/

theorem after_append (front rest : List Event) :
    after env (front ++ rest) = (after env front).run env rest := by
  simp [after, run]

theorem after_concat (front : List Event) (event : Event) :
    after env (front ++ [event]) = (after env front).step env event := by
  simp [after, run]

theorem asked_kept {event : Event} {base : Refreshing} (asked : panel.asked event = some base) :
    base.balancesLoading = panel.refreshing.balancesLoading ∧
      base.reads = panel.refreshing.reads ∧ base.started = panel.refreshing.started ∧
      base.coordinator.pendingAutomatic = panel.refreshing.coordinator.pendingAutomatic := by
  cases event with
  | requestAutomatic | swapFinished =>
      obtain rfl := Option.some_inj.mp asked
      exact ⟨rfl, rfl, rfl, rfl⟩
  | settleTimeout =>
      simp only [BalancePanel.asked] at asked
      split at asked
      · obtain rfl := Option.some_inj.mp asked
        exact ⟨rfl, rfl, rfl, rfl⟩
      · simp at asked
  | app | envLoaded | fetchBalances | answered => simp [BalancePanel.asked] at asked

theorem observeSettle_pending (coordinator : BalanceRefreshCoordinator)
    (current : BalanceSnapshot) (nowMs : Int) :
    (coordinator.observeSettle current nowMs).2.pendingAutomatic =
      coordinator.pendingAutomatic := by
  unfold BalanceRefreshCoordinator.observeSettle
  dsimp only
  split
  · rfl
  split
  · rfl
  split <;> rfl

/-- One read at most, and a request is kept only while there is one. -/
structure Tidy (state : Refreshing) : Prop where
  single : state.reads.length = if state.balancesLoading then 1 else 0
  pending : state.coordinator.pendingAutomatic = true → state.balancesLoading = true

namespace Tidy

variable {state next : Refreshing}

theorem loading (tidy : Tidy state) {first : Decision} {rest : List Decision}
    (reads : state.reads = first :: rest) : state.balancesLoading = true ∧ rest = [] := by
  have single := tidy.single
  rw [reads] at single
  cases flag : state.balancesLoading <;> simp_all

theorem starts (tidy : Tidy state) (starts : state.Starts next) : Tidy next := by
  obtain ⟨idle, route, rfl⟩ := starts
  have none : state.reads = [] := by simpa [idle] using tidy.single
  exact ⟨by simp [none], fun _ => rfl⟩

theorem of_asked {event : Event} {base : Refreshing} (tidy : Tidy panel.refreshing)
    (asked : panel.asked event = some base) : Tidy base := by
  obtain ⟨loading, reads, -, pending⟩ := asked_kept asked
  exact ⟨by rw [reads, loading]; exact tidy.single, by rw [pending, loading]; exact tidy.pending⟩

end Tidy

theorem Turn.tidy {event : Event} {next : Refreshing} (turn : Turn env panel event next)
    (tidy : Tidy panel.refreshing) : Tidy next := by
  cases turn with
  | quiet => exact tidy
  | starts _ _ starts => exact tidy.starts starts
  | starved asked => exact tidy.of_asked asked
  | kept asked _ loading =>
      have base := tidy.of_asked asked
      exact ⟨base.single, fun _ => loading⟩
  | served asked _ starts => exact (tidy.of_asked asked).starts starts
  | follows reads _ _ =>
      obtain ⟨loading, rfl⟩ := tidy.loading reads
      exact ⟨by simp [loading], by simp [Refreshing.release]⟩
  | settles reads _ _ =>
      obtain ⟨-, rfl⟩ := tidy.loading reads
      exact ⟨rfl, by simp [observeSettle_pending, Refreshing.release]⟩

theorem after_tidy (env : Surroundings) (events : List Event) :
    Tidy (after env events).refreshing := by
  induction events using List.reverseRecOn with
  | nil => exact ⟨rfl, by simp [after, run, initial, BalanceRefreshCoordinator.initial]⟩
  | append_singleton front event ih =>
      rw [after_concat]
      exact (turn event).tidy ih

theorem Turn.started_le {event : Event} {next : Refreshing} (turn : Turn env panel event next) :
    panel.refreshing.started ≤ next.started := by
  cases turn with
  | quiet => exact le_rfl
  | starts _ _ starts =>
      obtain ⟨-, -, rfl⟩ := starts
      exact Nat.le_succ _
  | starved asked => exact (asked_kept asked).2.2.1.ge
  | kept asked => exact (asked_kept asked).2.2.1.ge
  | served asked _ starts =>
      obtain ⟨-, -, rfl⟩ := starts
      exact ((asked_kept asked).2.2.1.ge).trans (Nat.le_succ _)
  | follows => exact Nat.le_succ _
  | settles => exact le_rfl

/-- A request made when so many reads had been started: a later read has been started, or the
request is kept. -/
def Answers (earlier : Nat) (state : Refreshing) : Prop :=
  earlier < state.started ∨ earlier = state.started ∧ state.balancesLoading = true ∧
    state.coordinator.pendingAutomatic = true

theorem Turn.asks {event : Event} {next : Refreshing} (turn : Turn env panel event next)
    (asks : (panel.asked event).isSome) (readable : panel.balanceRefreshSources.any = true) :
    Answers panel.refreshing.started next := by
  cases turn with
  | quiet none => simp [none] at asks
  | starts none => simp [none] at asks
  | starved _ unreadable => simp [unreadable] at readable
  | kept asked _ loading => exact .inr ⟨(asked_kept asked).2.2.1.symm, loading, rfl⟩
  | served asked _ starts =>
      obtain ⟨-, -, rfl⟩ := starts
      exact .inl (Nat.lt_succ_of_le (asked_kept asked).2.2.1.ge)
  | follows => simp [asked] at asks
  | settles => simp [asked] at asks

/-- A request stays, until its read is started or nothing can be read once the read in flight
is answered. -/
theorem Turn.answers {event : Event} {next : Refreshing} {earlier : Nat}
    (turn : Turn env panel event next) (same : next = (panel.step env event).refreshing)
    (answers : Answers earlier panel.refreshing) :
    Answers earlier next ∨
      (∃ obj nowMs, event = .answered obj nowMs) ∧ (panel.step env event).Starved := by
  rcases answers with later | ⟨rfl, loading, pending⟩
  · exact .inl (.inl (later.trans_le turn.started_le))
  cases turn with
  | quiet => exact .inl (.inr ⟨rfl, loading, pending⟩)
  | starts _ _ starts => simp [starts.1] at loading
  | starved asked =>
      obtain ⟨flag, -, started, kept⟩ := asked_kept asked
      exact .inl (.inr ⟨started.symm, flag.trans loading, kept.trans pending⟩)
  | kept asked _ flag => exact .inl (.inr ⟨(asked_kept asked).2.2.1.symm, flag, rfl⟩)
  | served asked _ starts =>
      have idle := (asked_kept asked).1.symm.trans starts.1
      simp [loading] at idle
  | follows => exact .inl (.inl (Nat.lt_succ_self _))
  | @settles obj nowMs _ _ _ done sources =>
      refine .inr ⟨⟨obj, nowMs, rfl⟩, by rw [← same], ?_⟩
      rw [sources]
      exact done pending

/-- Over a whole run, requests are answered in turn. -/
theorem reads_in_turn (env : Surroundings) (events : List Event) : ReadsInTurn env events := by
  constructor
  · exact (after_tidy env events).single
  · intro front ask rest all asks readable idle
    subst all
    have served : Answers (after env front).refreshing.started
          (after env (front ++ ask :: rest)).refreshing ∨
        ∃ mid obj nowMs, front ++ ask :: mid ++ [.answered obj nowMs] <+: front ++ ask :: rest ∧
          (after env (front ++ ask :: mid ++ [.answered obj nowMs])).Starved := by
      clear idle
      induction rest using List.reverseRecOn with
      | nil =>
          rw [after_concat]
          exact .inl ((turn ask).asks asks readable)
      | append_singleton rest event ih =>
          have longer : front ++ ask :: (rest ++ [event]) = front ++ ask :: rest ++ [event] := by
            simp
          rw [longer, after_concat]
          rcases ih with answers | ⟨mid, obj, nowMs, before, starved⟩
          · rcases (turn event).answers rfl answers with still | ⟨⟨obj, nowMs, rfl⟩, starved⟩
            · exact .inl still
            · exact .inr ⟨rest, obj, nowMs, List.prefix_rfl, by rwa [after_concat]⟩
          · exact .inr ⟨mid, obj, nowMs, before.trans (List.prefix_append _ _), starved⟩
    rcases served with (later | ⟨-, loading, -⟩) | lost
    · exact .inl later
    · simp [loading] at idle
    · exact .inr lost

/-! ## The settle poll -/

/-- The coordinator of a poll that ends at a deadline, after some looks at the balances. -/
structure Watches (deadline : Int) (before : BalanceSnapshot)
    (looks : List (BalanceSnapshot × Int)) (coordinator : BalanceRefreshCoordinator) : Prop where
  ends : coordinator.settleDeadlineMs = deadline
  snapshot : coordinator.settleSnapshot = before
  settling : coordinator.settling = true ↔
    (∀ look ∈ looks, look.2 < deadline) ∧ ¬ BothMoved before looks
  moved : coordinator.settling = true →
    (coordinator.ethMoved = true ↔ ∃ look ∈ looks, look.1.eth ≠ before.eth) ∧
      (coordinator.lezMoved = true ↔ ∃ look ∈ looks, look.1.lez ≠ before.lez)

namespace Watches

variable {deadline : Int} {before : BalanceSnapshot} {looks : List (BalanceSnapshot × Int)}
  {coordinator : BalanceRefreshCoordinator}

/-- What the pending flag is does not matter to the poll. -/
theorem pending (watches : Watches deadline before looks coordinator) (flag : Bool) :
    Watches deadline before looks { coordinator with pendingAutomatic := flag } :=
  ⟨watches.ends, watches.snapshot, watches.settling, watches.moved⟩

theorem bothMoved_append {look : BalanceSnapshot × Int} (moved : BothMoved before looks) :
    BothMoved before (looks ++ [look]) := by
  obtain ⟨⟨e, inE, eth⟩, l, inL, lez⟩ := moved
  exact ⟨⟨e, by simp [inE], eth⟩, l, by simp [inL], lez⟩

/-- The poll after one more look. -/
theorem observe (watches : Watches deadline before looks coordinator)
    (look : BalanceSnapshot × Int) :
    Watches deadline before (looks ++ [look])
      (coordinator.observeSettle look.1 look.2).2 := by
  obtain ⟨rfl, rfl, settling, moved⟩ := watches
  unfold BalanceRefreshCoordinator.observeSettle
  cases on : coordinator.settling
  · -- a poll that has stopped stays so, whatever is seen
    have stopped : ¬ ((∀ seen ∈ looks ++ [look], seen.2 < coordinator.settleDeadlineMs) ∧
        ¬ BothMoved coordinator.settleSnapshot (looks ++ [look])) := by
      rintro ⟨early, still⟩
      have off := settling.mpr ⟨fun seen member => early seen (by simp [member]),
        fun both => still (bothMoved_append both)⟩
      simp [on] at off
    have off : ¬ coordinator.settling = true := by simp [on]
    exact ⟨rfl, rfl, iff_of_false off stopped, fun flag => absurd flag off⟩
  · obtain ⟨early, still⟩ := settling.mp on
    obtain ⟨eth, lez⟩ := moved on
    have ethNow : (coordinator.ethMoved ||
          decide (look.1.eth ≠ coordinator.settleSnapshot.eth)) = true ↔
        ∃ seen ∈ looks ++ [look], seen.1.eth ≠ coordinator.settleSnapshot.eth := by
      simp only [Bool.or_eq_true, eth, decide_eq_true_eq, List.mem_append, List.mem_singleton]
      constructor
      · rintro (⟨seen, member, other⟩ | other)
        · exact ⟨seen, .inl member, other⟩
        · exact ⟨look, .inr rfl, other⟩
      · rintro ⟨seen, member | rfl, other⟩
        · exact .inl ⟨seen, member, other⟩
        · exact .inr other
    have lezNow : (coordinator.lezMoved ||
          decide (look.1.lez ≠ coordinator.settleSnapshot.lez)) = true ↔
        ∃ seen ∈ looks ++ [look], seen.1.lez ≠ coordinator.settleSnapshot.lez := by
      simp only [Bool.or_eq_true, lez, decide_eq_true_eq, List.mem_append, List.mem_singleton]
      constructor
      · rintro (⟨seen, member, other⟩ | other)
        · exact ⟨seen, .inl member, other⟩
        · exact ⟨look, .inr rfl, other⟩
      · rintro ⟨seen, member | rfl, other⟩
        · exact .inl ⟨seen, member, other⟩
        · exact .inr other
    simp only [Bool.not_true, Bool.false_eq_true, if_false]
    split
    · rename_i both
      rw [Bool.and_eq_true, ethNow, lezNow] at both
      exact ⟨rfl, rfl, iff_of_false (by simp) fun moving => moving.2 both, by simp⟩
    · rename_i one
      rw [Bool.and_eq_true, ethNow, lezNow] at one
      split
      · rename_i late
        have closed : ¬ ∀ seen ∈ looks ++ [look], seen.2 < coordinator.settleDeadlineMs :=
          fun inTime => absurd (inTime look (by simp)) (not_lt.mpr late)
        exact ⟨rfl, rfl, iff_of_false (by simp) fun moving => closed moving.1, by simp⟩
      · rename_i inTime
        refine ⟨rfl, rfl, iff_of_true rfl ⟨fun seen member => ?_, one⟩,
          fun _ => ⟨ethNow, lezNow⟩⟩
        rcases List.mem_append.mp member with old | new
        · exact early seen old
        · rw [List.mem_singleton.mp new]
          exact not_le.mp inTime

end Watches

/-- The poll after one event. -/
theorem Turn.watches {event : Event} {next : Refreshing} {deadline : Int}
    {before : BalanceSnapshot} {looks : List (BalanceSnapshot × Int)}
    (turn : Turn env panel event next) (same : next = (panel.step env event).refreshing)
    (tidy : Tidy panel.refreshing) (goesOn : ¬ event.Finishes)
    (watches : Watches deadline before looks panel.refreshing.coordinator) :
    Watches deadline before (looks ++ (panel.observation env event).toList) next.coordinator := by
  have unseen : (∀ obj nowMs, event ≠ .answered obj nowMs) →
      panel.observation env event = none := by
    intro other
    cases event <;> first | rfl | exact absurd rfl (other _ _)
  have request : ∀ {base}, panel.asked event = some base →
      panel.observation env event = none ∧ base.coordinator = panel.refreshing.coordinator := by
    intro base asked
    cases event with
    | requestAutomatic =>
        obtain rfl := Option.some_inj.mp asked
        exact ⟨rfl, rfl⟩
    | swapFinished nowMs => exact absurd trivial goesOn
    | settleTimeout =>
        simp only [BalancePanel.asked] at asked
        split at asked
        · obtain rfl := Option.some_inj.mp asked
          exact ⟨rfl, rfl⟩
        · simp at asked
    | app | envLoaded | fetchBalances | answered => simp [BalancePanel.asked] at asked
  cases turn with
  | quiet none unanswered =>
      have nothing : panel.observation env event = Option.none := by
        cases event with
        | answered obj nowMs => simp [observation, unanswered obj nowMs rfl]
        | _ => rfl
      simpa [nothing] using watches
  | starts none unanswered starts =>
      obtain ⟨-, -, rfl⟩ := starts
      simpa [unseen unanswered] using watches
  | starved asked =>
      obtain ⟨nothing, unchanged⟩ := request asked
      simpa [nothing, unchanged] using watches
  | kept asked =>
      obtain ⟨nothing, unchanged⟩ := request asked
      simpa [nothing, unchanged, Refreshing.keep] using watches.pending true
  | served asked _ starts =>
      obtain ⟨nothing, unchanged⟩ := request asked
      obtain ⟨-, -, rfl⟩ := starts
      simpa [nothing, unchanged] using watches
  | @follows obj nowMs _ _ _ reads =>
      obtain ⟨loading, -⟩ := tidy.loading reads
      have nothing : panel.observation env (.answered obj nowMs) = none := by
        simp [observation, ← same, loading]
      rw [nothing]
      simpa [Refreshing.release] using watches.pending false
  | @settles obj nowMs _ _ reads =>
      have seen := (watches.pending false).observe
        ((panel.step env (.answered obj nowMs)).balanceSnapshot, nowMs)
      simpa [observation, ← same, reads, Refreshing.release] using seen

theorem watches_run {deadline : Int} {before : BalanceSnapshot} (rest : List Event)
    {looks : List (BalanceSnapshot × Int)} (tidy : Tidy panel.refreshing)
    (goesOn : ∀ event ∈ rest, ¬ event.Finishes)
    (watches : Watches deadline before looks panel.refreshing.coordinator) :
    Watches deadline before (looks ++ panel.observations env rest)
      (panel.run env rest).refreshing.coordinator := by
  induction rest generalizing panel looks with
  | nil => simpa [observations, run] using watches
  | cons event rest ih =>
      have first : Turn env panel event (panel.step env event).refreshing := turn event
      have one := first.watches rfl tidy (goesOn event (by simp)) watches
      have more := ih (first.tidy tidy) (fun later member => goesOn later (by simp [member])) one
      simpa [observations, run, List.append_assoc] using more

/-- The poll as it begins. -/
theorem Turn.begins {nowMs : Int} {next : Refreshing}
    (turn : Turn env panel (.swapFinished nowMs) next) :
    Watches (nowMs + balanceSettleWindowMs) panel.balanceSnapshot [] next.coordinator := by
  have base : Watches (nowMs + balanceSettleWindowMs) panel.balanceSnapshot []
      (panel.refreshing.coordinator.beginSettle panel.balanceSnapshot nowMs
        balanceSettleWindowMs) :=
    ⟨rfl, rfl, by simp [BalanceRefreshCoordinator.beginSettle, balanceSettleWindowMs, BothMoved],
      by simp [BalanceRefreshCoordinator.beginSettle]⟩
  cases turn with
  | quiet none => simp [asked] at none
  | starts none => simp [asked] at none
  | starved asked =>
      obtain rfl := Option.some_inj.mp asked
      exact base
  | kept asked =>
      obtain rfl := Option.some_inj.mp asked
      exact base.pending true
  | served asked _ starts =>
      obtain rfl := Option.some_inj.mp asked
      obtain ⟨-, -, rfl⟩ := starts
      exact base

theorem observeSettle_again {coordinator : BalanceRefreshCoordinator}
    {current : BalanceSnapshot} {nowMs : Int}
    (settling : (coordinator.observeSettle current nowMs).2.settling = true) :
    (coordinator.observeSettle current nowMs).1 = true := by
  revert settling
  unfold BalanceRefreshCoordinator.observeSettle
  dsimp only
  split
  · rename_i off
    intro on
    have flag : coordinator.settling = true := on
    simp [flag] at off
  split
  · simp
  split <;> simp

/-- A poll that will not go on stays so while no read is started. -/
def Halted (started : Nat) (state : Refreshing) : Prop :=
  state.started = started → state.balancesLoading = false ∧ state.settleTimer = false

theorem starts_halted {before next : Refreshing} {started : Nat}
    (starts : before.Starts next) (earlier : started ≤ before.started) : Halted started next := by
  obtain ⟨-, -, rfl⟩ := starts
  intro same
  have later : before.started + 1 = started := same
  omega

theorem Turn.halted {event : Event} {next : Refreshing} {started : Nat}
    (turn : Turn env panel event next) (tidy : Tidy panel.refreshing)
    (earlier : started ≤ panel.refreshing.started)
    (halted : Halted started panel.refreshing) : Halted started next := by
  have base : ∀ {base}, panel.asked event = some base → Halted started base := by
    intro request asked
    have kept := asked_kept asked
    intro same
    obtain ⟨idle, timer⟩ := halted (kept.2.2.1.symm.trans same)
    refine ⟨kept.1.trans idle, ?_⟩
    cases event with
    | requestAutomatic =>
        obtain rfl := Option.some_inj.mp asked
        exact timer
    | swapFinished nowMs =>
        obtain rfl := Option.some_inj.mp asked
        rfl
    | settleTimeout => simp [BalancePanel.asked, timer] at asked
    | app | envLoaded | fetchBalances | answered => simp [BalancePanel.asked] at asked
  cases turn with
  | quiet => exact halted
  | starts _ _ starts => exact starts_halted starts earlier
  | starved asked => exact base asked
  | @kept _ request asked =>
      have still : Halted started request := base asked
      exact still
  | served asked _ starts => exact starts_halted starts (earlier.trans (asked_kept asked).2.2.1.ge)
  | follows reads =>
      intro same
      have later : panel.refreshing.started + 1 = started := same
      omega
  | settles reads =>
      obtain ⟨loading, -⟩ := tidy.loading reads
      intro same
      simp [(halted same).1] at loading

theorem halted_run {started : Nat} (rest : List Event) (tidy : Tidy panel.refreshing)
    (earlier : started ≤ panel.refreshing.started) (halted : Halted started panel.refreshing) :
    Halted started (panel.run env rest).refreshing := by
  induction rest generalizing panel with
  | nil => exact halted
  | cons event rest ih =>
      have first : Turn env panel event (panel.step env event).refreshing := turn event
      exact ih (first.tidy tidy) (earlier.trans first.started_le)
        (first.halted tidy earlier halted)

/-- A request that ends a poll: it found nothing to read, and no read is in flight. -/
theorem Turn.halts {event : Event} {next : Refreshing} (turn : Turn env panel event next)
    (asks : (panel.asked event).isSome) (other : event ≠ .requestAutomatic)
    (starved : panel.Starved) :
    next.started = panel.refreshing.started ∧ next.balancesLoading = false ∧
      next.settleTimer = false := by
  obtain ⟨idle, unreadable⟩ := starved
  cases turn with
  | quiet none => simp [none] at asks
  | starts none => simp [none] at asks
  | starved asked =>
      obtain ⟨loading, -, started, -⟩ := asked_kept asked
      refine ⟨started, loading.trans idle, ?_⟩
      cases event with
      | requestAutomatic => exact absurd rfl other
      | swapFinished nowMs =>
          obtain rfl := Option.some_inj.mp asked
          rfl
      | settleTimeout =>
          simp only [BalancePanel.asked] at asked
          split at asked
          · obtain rfl := Option.some_inj.mp asked
            rfl
          · simp at asked
      | app | envLoaded | fetchBalances | answered => simp [BalancePanel.asked] at asked
  | kept _ readable => simp [unreadable] at readable
  | served _ readable => simp [unreadable] at readable
  | follows => simp [asked] at asks
  | settles => simp [asked] at asks

/-- A poll that stalls with an event had stalled before it, or this request found nothing to
read. -/
theorem Turn.stalled {event : Event} {next : Refreshing} (turn : Turn env panel event next)
    (tidy : Tidy panel.refreshing) (settling : next.coordinator.settling = true)
    (idle : next.balancesLoading = false) (timer : next.settleTimer = false) :
    next.started = panel.refreshing.started ∧
      (panel.Stalled ∨ event ≠ .requestAutomatic ∧ (panel.asked event).isSome ∧
        panel.Starved) := by
  cases turn with
  | quiet => exact ⟨rfl, .inl ⟨settling, idle, timer⟩⟩
  | starts _ _ starts =>
      obtain ⟨-, _, rfl⟩ := starts
      simp at idle
  | starved asked unreadable =>
      obtain ⟨loading, -, started, -⟩ := asked_kept asked
      refine ⟨started, ?_⟩
      by_cases request : event = .requestAutomatic
      · subst request
        obtain rfl := Option.some_inj.mp asked
        exact .inl ⟨settling, idle, timer⟩
      · exact .inr ⟨request, by simp [asked], loading.symm.trans idle, unreadable⟩
  | kept _ _ loading =>
      have flag : Refreshing.balancesLoading _ = true := loading
      simp [Refreshing.keep, flag] at idle
  | served _ _ starts =>
      obtain ⟨-, _, rfl⟩ := starts
      simp at idle
  | follows reads =>
      obtain ⟨loading, -⟩ := tidy.loading reads
      simp [loading] at idle
  | settles =>
      have again := observeSettle_again settling
      simp [again] at timer

theorem stalled_iff (env : Surroundings) (events : List Event) :
    (after env events).Stalled ↔
      (after env events).refreshing.coordinator.settling = true ∧
        ∃ front ask rest, events = front ++ ask :: rest ∧ ask ≠ .requestAutomatic ∧
          ((after env front).asked ask).isSome ∧ (after env front).Starved ∧
          (after env events).refreshing.started = (after env front).refreshing.started := by
  constructor
  · intro stalled
    refine ⟨stalled.1, ?_⟩
    induction events using List.reverseRecOn with
    | nil => simp [Stalled, after, run, initial, BalanceRefreshCoordinator.initial] at stalled
    | append_singleton front event ih =>
        rw [after_concat] at stalled ⊢
        have last : Turn env (after env front) event _ := turn event
        obtain ⟨settling, idle, timer⟩ := stalled
        obtain ⟨started, earlier | ⟨other, asks, starved⟩⟩ :=
          last.stalled (after_tidy env front) settling idle timer
        · obtain ⟨before, ask, rest, rfl, other, asks, starved, same⟩ := ih earlier
          exact ⟨before, ask, rest ++ [event], by simp, other, asks, starved, started.trans same⟩
        · exact ⟨front, event, [], by simp, other, asks, starved, started⟩
  · rintro ⟨settling, front, ask, rest, rfl, other, asks, starved, same⟩
    have first : Turn env (after env front) ask _ := turn ask
    obtain ⟨started, idle, timer⟩ := first.halts asks other starved
    have whole : after env (front ++ ask :: rest) =
        ((after env front).step env ask).run env rest := by
      rw [after_append]
      rfl
    rw [whole] at settling same ⊢
    have halted : Halted (after env front).refreshing.started
        ((after env front).step env ask).refreshing := fun _ => ⟨idle, timer⟩
    obtain ⟨still, never⟩ :=
      halted_run rest (first.tidy (after_tidy env front)) started.ge halted same
    exact ⟨settling, still, never⟩

/-- Over a whole run, the settle poll goes on until both balances have moved. -/
theorem polls_until_moved (env : Surroundings) (events : List Event) :
    PollsUntilMoved env events := by
  constructor
  · intro front finished rest all goesOn
    have whole : after env events =
        ((after env front).step env (.swapFinished finished)).run env rest := by
      rw [all, after_append]
      rfl
    have first : Turn env (after env front) (.swapFinished finished) _ := turn _
    have poll := @watches_run env _ _ _ rest _ (first.tidy (after_tidy env front)) goesOn
      first.begins
    rw [← whole] at poll
    simpa using poll.settling
  · exact stalled_iff env events

/-! ## What is said of a side -/

/-- A record after one more verdict. -/
def nextRecord (side : BalanceSide) (errors : BalanceSideErrors) (failed : Bool) :
    BalanceSideErrors :=
  if failed then
    let failures := min failuresBeforeVisible (errors.consecutiveFailures + 1)
    ⟨failures, if failures = failuresBeforeVisible then balanceErrorCopy side else ""⟩
  else ⟨0, ""⟩

theorem recordFailure_eq (errors : BalanceSideErrors) (side : BalanceSide) (error : String)
    (few : errors.consecutiveFailures ≤ failuresBeforeVisible) :
    errors.recordFailure side error = nextRecord side errors (!sideNotSetUp error) := by
  cases away : sideNotSetUp error
  · have count : (if errors.consecutiveFailures < failuresBeforeVisible then
        errors.consecutiveFailures + 1 else errors.consecutiveFailures) =
          min failuresBeforeVisible (errors.consecutiveFailures + 1) := by
      split <;> omega
    have visible : ∀ n, failuresBeforeVisible ≤ min failuresBeforeVisible n ↔
        min failuresBeforeVisible n = failuresBeforeVisible := by
      intro n
      omega
    simp only [BalanceSideErrors.recordFailure, away, nextRecord, count, visible, if_true,
      Bool.false_eq_true, if_false, Bool.not_false]
  · simp [BalanceSideErrors.recordFailure, away, nextRecord, BalanceSideErrors.recordSuccess]

theorem nextRecord_few (side : BalanceSide) (errors : BalanceSideErrors) (failed : Bool) :
    (nextRecord side errors failed).consecutiveFailures ≤ failuresBeforeVisible := by
  unfold nextRecord
  split
  · exact min_le_left _ _
  · exact Nat.zero_le _

/-- The records of the panel follow what was said of each side so far, and the views show them. -/
structure Records (panel : BalancePanel) (history : BalanceSide → List Bool) : Prop where
  follow : ∀ side,
    panel.errors side = (history side).foldl (nextRecord side) ⟨0, ""⟩
  shows : ∀ side, panel.shown side = (panel.errors side).message

theorem record_few (side : BalanceSide) (history : List Bool) :
    (history.foldl (nextRecord side) ⟨0, ""⟩).consecutiveFailures ≤ failuresBeforeVisible := by
  induction history using List.reverseRecOn with
  | nil => exact Nat.zero_le _
  | append_singleton front failed _ =>
      rw [List.foldl_append]
      exact nextRecord_few side _ failed

/-- The records and what is shown of them. -/
def said (panel : BalancePanel) : BalanceErrors × String × String :=
  (panel.errors, panel.ethBalanceError, panel.lezBalanceError)

theorem Records.of_said {next : BalancePanel} {history : BalanceSide → List Bool}
    (records : Records panel history) (same : next.said = panel.said) : Records next history := by
  simp only [said, Prod.mk.injEq] at same
  obtain ⟨errors, eth, lez⟩ := same
  refine ⟨fun side => by rw [errors]; exact records.follow side, fun side => ?_⟩
  cases side
  · exact (eth.trans (records.shows .eth)).trans (by rw [errors])
  · exact (lez.trans (records.shows .lez)).trans (by rw [errors])

/-- Records that are published after a verdict about each side. -/
theorem Records.publish {next : BalancePanel} {history : BalanceSide → List Bool}
    {verdicts : BalanceSide → Bool} (records : Records panel history)
    (recorded : ∀ side, next.errors side = nextRecord side (panel.errors side) (verdicts side))
    (eth : next.ethBalanceError = (next.errors .eth).message)
    (lez : next.lezBalanceError = (next.errors .lez).message) :
    Records next fun side => history side ++ [verdicts side] := by
  refine ⟨fun side => ?_, fun side => by cases side <;> assumption⟩
  rw [recorded, records.follow, List.foldl_append]
  rfl

theorem fetchBalances_said : panel.fetchBalances.said = panel.said := by
  unfold fetchBalances
  split
  · rfl
  split <;> rfl

theorem fetchBalancesFromLoadedEnv_said :
    panel.fetchBalancesFromLoadedEnv.said = panel.said := by
  unfold fetchBalancesFromLoadedEnv
  split <;> rfl

theorem requestAutomatic_said : panel.requestAutomaticBalanceRefresh.said = panel.said := by
  unfold requestAutomaticBalanceRefresh
  dsimp only
  cases (panel.refreshing.coordinator.requestAutomatic panel.balanceRefreshSources
    panel.refreshing.balancesLoading).1 with
  | startFromEnv => exact fetchBalancesFromLoadedEnv_said
  | startFromConfig => exact fetchBalances_said
  | coalesced | unavailable => rfl

theorem envLoaded_said (path role error : String) (obj : QJsonObject) :
    (panel.envLoaded path role error obj).said = panel.said := by
  unfold envLoaded
  dsimp only
  split
  · rfl
  split
  · exact fetchBalancesFromLoadedEnv_said
  · rfl

theorem complete_said (obj : QJsonObject) (nowMs : Int) :
    (panel.completeBalanceRefresh obj nowMs).said = (panel.applyBalancesResult obj).said := by
  unfold completeBalanceRefresh
  dsimp only
  split <;> rfl

theorem applied_records {history : BalanceSide → List Bool} (records : Records panel history)
    (obj : QJsonObject) :
    Records (panel.applyBalancesResult obj) fun side => history side ++ [readFailed obj side] := by
  have few : ∀ side, (panel.errors side).consecutiveFailures ≤ failuresBeforeVisible := by
    intro side
    rw [records.follow]
    exact record_few side _
  refine records.publish (fun side => ?_) ?_ ?_
  · by_cases failed : jsonError obj ≠ ""
    · simp [applyBalancesResult, readFailed, failed, publishBalanceErrors, setStatus,
        BalanceErrors.recordCallFailure, recordFailure_eq _ _ _ (few side)]
    · simp only [applyBalancesResult, readFailed, failed, publishBalanceErrors, setStatus,
        recordSide, if_false]
      by_cases quiet : sideError obj side = ""
      · simp [quiet, nextRecord, BalanceSideErrors.recordSuccess]
      · simp [quiet, recordFailure_eq _ _ _ (few side)]
  · unfold applyBalancesResult
    dsimp only
    split <;> rfl
  · unfold applyBalancesResult
    dsimp only
    split <;> rfl

theorem reset_records {history : BalanceSide → List Bool} (records : Records panel history) :
    Records panel.resetErrors fun side => history side ++ [false] :=
  records.publish (fun _ => rfl) rfl rfl

/-- The records after one event. -/
theorem step_records {history : BalanceSide → List Bool} (records : Records panel history)
    (event : Event) :
    Records (panel.step env event) fun side =>
      history side ++ (panel.verdict side event).toList := by
  cases event with
  | app event =>
      have plain : Records { panel with app := panel.app.step env event } history :=
        records.of_said rfl
      cases event with
      | setConfigValue key value =>
          simp only [step, appStep, verdict]
          by_cases read : key ∈ balanceReadInputs
          · simpa [read] using reset_records plain
          · simpa [read] using plain
      | resetConfig => simpa [step, appStep, verdict] using reset_records plain
      | _ => simpa [step, appStep, verdict] using plain
  | envLoaded path role error obj =>
      simpa [step, verdict] using records.of_said (envLoaded_said path role error obj)
  | fetchBalances => simpa [step, verdict] using records.of_said fetchBalances_said
  | requestAutomatic => simpa [step, verdict] using records.of_said requestAutomatic_said
  | swapFinished nowMs =>
      have said : (panel.beginBalanceSettle nowMs).said = panel.said := requestAutomatic_said
      simpa [step, verdict] using records.of_said said
  | settleTimeout =>
      simp only [step, verdict, Option.toList_none, List.append_nil]
      split
      · exact records.of_said requestAutomatic_said
      · exact records
  | answered obj nowMs =>
      cases reads : panel.refreshing.reads with
      | nil => simpa [step, verdict, reads] using records
      | cons first rest =>
          have fewer : Records (panel.withReads rest) history := records.of_said rfl
          have next := (applied_records fewer obj).of_said (complete_said obj nowMs)
          simpa [step, verdict, reads] using next

theorem records_run {history : BalanceSide → List Bool} (records : Records panel history)
    (events : List Event) :
    Records (panel.run env events) fun side =>
      history side ++ verdicts env side panel events := by
  induction events generalizing panel history with
  | nil => simpa [verdicts, run] using records
  | cons event rest ih =>
      have next : Records (panel.step env event) _ := step_records records event
      simpa [verdicts, run, List.append_assoc] using ih next

/-- A record speaks after two failures in a row. -/
theorem record_message (side : BalanceSide) (history : List Bool) :
    (history.foldl (nextRecord side) ⟨0, ""⟩).message =
        (if [true, true] <:+ history then balanceErrorCopy side else "") ∧
      ((history.foldl (nextRecord side) ⟨0, ""⟩).consecutiveFailures = 0 ↔
        ¬ [true] <:+ history) := by
  induction history using List.reverseRecOn with
  | nil => simp
  | append_singleton front failed ih =>
      obtain ⟨-, fresh⟩ := ih
      rw [List.foldl_append]
      generalize front.foldl (nextRecord side) ⟨0, ""⟩ = record at fresh
      have two : [true, true] <:+ front ++ [failed] ↔ failed = true ∧ [true] <:+ front := by
        constructor
        · rintro ⟨before, all⟩
          have parts : (before ++ [true]) ++ [true] = front ++ [failed] := by simpa using all
          obtain ⟨rfl, same⟩ := List.append_inj' parts rfl
          exact ⟨(List.singleton_inj.mp same).symm, List.suffix_append _ _⟩
        · rintro ⟨rfl, before, rfl⟩
          exact ⟨before, by simp⟩
      have one : [true] <:+ front ++ [failed] ↔ failed = true := by
        constructor
        · rintro ⟨before, all⟩
          obtain ⟨-, same⟩ := List.append_inj' all rfl
          exact (List.singleton_inj.mp same).symm
        · rintro rfl
          exact List.suffix_append _ _
      cases failed
      · simp [nextRecord, two, one]
      · have streak : min failuresBeforeVisible (record.consecutiveFailures + 1) =
            failuresBeforeVisible ↔ [true] <:+ front := by
          rw [← not_iff_not, ← fresh]
          unfold failuresBeforeVisible
          omega
        simp only [List.foldl_cons, List.foldl_nil, nextRecord, if_true, streak, two, true_and,
          one, not_true, iff_false]
        simp [failuresBeforeVisible]

/-- The sentence about a side stands exactly while the last two things said about that side are
that its read failed. -/
theorem shown_eq (env : Surroundings) (events : List Event) (side : BalanceSide) :
    (after env events).shown side =
      if [true, true] <:+ verdicts env side (initial env) events then balanceErrorCopy side
      else "" := by
  have start : Records (initial env) fun _ => [] :=
    ⟨fun _ => rfl, fun side => by cases side <;> rfl⟩
  have records : Records (after env events) _ := records_run start events
  rw [records.shows, records.follow]
  exact (record_message side _).1

end BalancePanel

end AtomicSwaps.Ui
