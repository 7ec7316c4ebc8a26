import AtomicSwaps.Module.OfferAmounts
import AtomicSwaps.Publisher.OfferAge
import AtomicSwaps.Ui.EthFundsGuard
import AtomicSwaps.Ui.OfferGates

/-!
# The venue of a taker

The config of the app, what changes it, and the checks before a taker job is started. The contract
of Ethereum is held against a constant of the app. The program of LEZ is held against an answer
of the library, which comes when it comes; until then the config's own field stands in for it.
-/

namespace AtomicSwaps.Ui

open Trimming (trim)
open Module (weiToEthValue)
open Publisher (minutesUntilExpiry)

/-! ## The objects of Qt -/

/-- A `QJsonValue`. -/
inductive QJsonValue where
  | string (text : String)
  | double (value : ℚ)
  | bool (value : Bool)
  | other

/-- A `QJsonObject`, as a list of its fields. -/
abbrev QJsonObject := List (String × QJsonValue)

/-- `QString::number(value, 'f', 0)`: halves go away from zero. -/
def fixedText (value : ℚ) : String :=
  String.ofList ((if value < 0 then ['-'] else []) ++ Decimal.numeral ⌊|value| + 1 / 2⌋₊)

/-- `valueString`. -/
def valueString (obj : QJsonObject) (key : String) : String :=
  match obj.lookup key with
  | some (.string text) => text
  | some (.double value) => fixedText value
  | some (.bool value) => if value then "true" else "false"
  | some .other | none => ""

/-! ## The config -/

/-- What the app finds around it: the overrides of the environment, empty where a variable is not
set, and what a double is cast to that is no `qint64`, which the language leaves open. -/
structure Surroundings where
  ethRpcUrl : String
  ethHtlcAddress : String
  lezSequencerUrl : String
  castBeyond : ℚ → Int

/-- `static_cast<qint64>(value.toDouble(0))`. -/
def wholeSeconds (env : Surroundings) (obj : QJsonObject) (key : String) : Int :=
  match obj.lookup key with
  | some (.double value) =>
      let whole := if value < 0 then ⌈value⌉ else ⌊value⌋
      if -2 ^ 63 ≤ whole ∧ whole < 2 ^ 63 then whole else env.castBeyond value
  | _ => 0

/-- `defaultEthRpcUrl`. -/
def defaultEthRpcUrl (env : Surroundings) : String :=
  if env.ethRpcUrl = "" then "wss://ethereum-sepolia-rpc.publicnode.com" else env.ethRpcUrl

/-- `defaultLezSequencerUrl`. -/
def defaultLezSequencerUrl (env : Surroundings) : String :=
  if env.lezSequencerUrl = "" then "https://testnet.lez.logos.co" else env.lezSequencerUrl

/-- `defaultEthHtlcAddress`, the built-in contract. -/
def defaultEthHtlcAddress (env : Surroundings) : String :=
  if env.ethHtlcAddress = "" then "0x351B0EA07739FA9F6769213927D7836a790A5FAF"
  else env.ethHtlcAddress

/-- `LEZ_HTLC_PROGRAM_ID_HEX`, the program id of the library. -/
def lezHtlcProgramIdHex : String :=
  "9eb88f51aae87a58fb74b8d2dc7327b39333585e63280e3f9cf8d86dac0ed702"

/-- `kEthGasHeadroomWei`. -/
def ethGasHeadroomWei : String := "500000000000000"

/-- The config props. -/
structure AppConfig where
  ethRpcUrl : String
  ethPrivateKey : String
  ethHtlcAddress : String
  lezSequencerUrl : String
  lezSigningKey : String
  lezWalletHome : String
  lezAccountId : String
  lezHtlcProgramId : String
  lezAmount : String
  ethAmount : String
  lezTimelockMinutes : String
  ethTimelockMinutes : String
  ethRecipientAddress : String
  lezTakerAccountId : String
  pollIntervalMs : String
deriving DecidableEq

namespace AppConfig

/-- `applyDefaultConfig`. -/
def default (env : Surroundings) : AppConfig where
  ethRpcUrl := defaultEthRpcUrl env
  ethPrivateKey := ""
  ethHtlcAddress := defaultEthHtlcAddress env
  lezSequencerUrl := defaultLezSequencerUrl env
  lezSigningKey := ""
  lezWalletHome := ""
  lezAccountId := ""
  lezHtlcProgramId := ""
  lezAmount := "150"
  ethAmount := "0.0002"
  lezTimelockMinutes := "15"
  ethTimelockMinutes := "25"
  ethRecipientAddress := ""
  lezTakerAccountId := ""
  pollIntervalMs := "2000"

/-- The setters of the props, by key. -/
def setters : List (String × (AppConfig → String → AppConfig)) :=
  [("eth_rpc_url", fun config value => { config with ethRpcUrl := value }),
    ("eth_private_key", fun config value => { config with ethPrivateKey := value }),
    ("eth_htlc_address", fun config value => { config with ethHtlcAddress := value }),
    ("lez_sequencer_url", fun config value => { config with lezSequencerUrl := value }),
    ("lez_signing_key", fun config value => { config with lezSigningKey := value }),
    ("lez_wallet_home", fun config value => { config with lezWalletHome := value }),
    ("lez_account_id", fun config value => { config with lezAccountId := value }),
    ("lez_htlc_program_id", fun config value => { config with lezHtlcProgramId := value }),
    ("lez_amount", fun config value => { config with lezAmount := value }),
    ("eth_amount", fun config value => { config with ethAmount := value }),
    ("lez_timelock_minutes", fun config value => { config with lezTimelockMinutes := value }),
    ("eth_timelock_minutes", fun config value => { config with ethTimelockMinutes := value }),
    ("eth_recipient_address", fun config value => { config with ethRecipientAddress := value }),
    ("lez_taker_account_id", fun config value => { config with lezTakerAccountId := value }),
    ("poll_interval_ms", fun config value => { config with pollIntervalMs := value })]

/-- The setters of `applyConfigObject`, each for a key that is present. -/
def apply (config : AppConfig) (obj : QJsonObject) : AppConfig :=
  setters.foldl (fun config (key, set) =>
    if (obj.lookup key).isSome then set config (valueString obj key) else config) config

/-- The terms that `applyOfferObject` adopts. -/
def adopt (config : AppConfig) (env : Surroundings) (offer : QJsonObject) (nowSecs : Int) :
    AppConfig :=
  let ethExpirySecs := wholeSeconds env offer "eth_timelock"
  let lezExpirySecs := wholeSeconds env offer "lez_timelock"
  { config with
    ethRecipientAddress := valueString offer "maker_eth_address"
    lezAmount := valueString offer "lez_amount"
    ethAmount := weiToEthValue (valueString offer "eth_amount")
    ethTimelockMinutes :=
      if 0 < ethExpirySecs then toString (minutesUntilExpiry ethExpirySecs nowSecs)
      else config.ethTimelockMinutes
    lezTimelockMinutes :=
      if 0 < lezExpirySecs then toString (minutesUntilExpiry lezExpirySecs nowSecs)
      else config.lezTimelockMinutes }

end AppConfig

/-! ## Its validation -/

/-- The messages of a validation, by key. -/
abbrev ValidationErrors := List (String × String)

/-- `addValidationError`: a message replaces the one before it. -/
def addValidationError (errors : ValidationErrors) (finding : String × String) :
    ValidationErrors :=
  errors.filter (·.1 ≠ finding.1) ++ [finding]

/-- Whether a text is empty but for white space. -/
def blank (value : String) : Bool := trim qtSpace value.toList = []

/-- A message, where a check fails. -/
def finding (fails : Bool) (key message : String) : ValidationErrors :=
  if fails then [(key, message)] else []

/-- `require`. -/
def require (key value : String) : ValidationErrors := finding (blank value) key "Required"

/-- Hexadecimal text of a length, where there is any. -/
def optionalHex (key value : String) (bytes : Nat) (message : String) : ValidationErrors :=
  finding (!blank value && !isHexBytes qtSpace value bytes) key message

/-- `looksLikeBase58`. -/
def looksLikeBase58 (value : String) : Bool :=
  !blank value && (trim qtSpace value.toList).all fun char =>
    ('1' ≤ char ∧ char ≤ '9') ∨ ('A' ≤ char ∧ char ≤ 'H') ∨ ('J' ≤ char ∧ char ≤ 'N') ∨
      ('P' ≤ char ∧ char ≤ 'Z') ∨ ('a' ≤ char ∧ char ≤ 'k') ∨ ('m' ≤ char ∧ char ≤ 'z')

/-- `QString::toLongLong`, zero where it fails. -/
def toLongLong (value : String) : Int := (toLongLong? value).getD 0

/-- What `validateConfig` finds. -/
@[irreducible]
def AppConfig.findings (config : AppConfig) : ValidationErrors :=
  let hasRawKey := !blank config.lezSigningKey
  let hasWalletHome := !blank config.lezWalletHome
  let hasAccountId := !blank config.lezAccountId
  require "eth_rpc_url" config.ethRpcUrl ++
  require "eth_private_key" config.ethPrivateKey ++
  require "eth_htlc_address" config.ethHtlcAddress ++
  require "lez_sequencer_url" config.lezSequencerUrl ++
  require "lez_htlc_program_id" config.lezHtlcProgramId ++
  require "lez_amount" config.lezAmount ++
  require "eth_amount" config.ethAmount ++
  require "eth_recipient_address" config.ethRecipientAddress ++
  require "poll_interval_ms" config.pollIntervalMs ++
  require "lez_timelock_minutes" config.lezTimelockMinutes ++
  require "eth_timelock_minutes" config.ethTimelockMinutes ++
  optionalHex "eth_private_key" config.ethPrivateKey 32 "Must be a 32-byte hex key" ++
  optionalHex "eth_htlc_address" config.ethHtlcAddress 20 "Must be a 20-byte ETH address" ++
  optionalHex "eth_recipient_address" config.ethRecipientAddress 20
    "Must be a 20-byte ETH address" ++
  optionalHex "lez_htlc_program_id" config.lezHtlcProgramId 32
    "Must be a 32-byte hex program ID" ++
  optionalHex "lez_signing_key" config.lezSigningKey 32 "Must be a 32-byte hex key" ++
  (if !hasRawKey && !(hasWalletHome && hasAccountId) then
    [("lez_signing_key", "Set a signing key or wallet home plus account ID")] ++
    finding (!hasWalletHome) "lez_wallet_home" "Required with wallet auth" ++
    finding (!hasAccountId) "lez_account_id" "Required with wallet auth"
  else []) ++
  finding (hasWalletHome && !hasAccountId) "lez_account_id" "Required with wallet home" ++
  finding (!hasWalletHome && hasAccountId && !hasRawKey) "lez_wallet_home"
    "Required with account ID" ++
  finding (hasAccountId && !looksLikeBase58 config.lezAccountId) "lez_account_id"
    "Must be base58" ++
  finding (!blank config.lezTakerAccountId && !looksLikeBase58 config.lezTakerAccountId)
    "lez_taker_account_id" "Must be base58" ++
  finding (!isPositiveInteger config.lezAmount) "lez_amount" "Must be a positive integer" ++
  finding (!isPositiveDecimal config.ethAmount) "eth_amount" "Must be a positive decimal" ++
  finding (!isPositiveInteger config.lezTimelockMinutes) "lez_timelock_minutes"
    "Must be positive minutes" ++
  finding (!isPositiveInteger config.ethTimelockMinutes) "eth_timelock_minutes"
    "Must be positive minutes" ++
  finding (isPositiveInteger config.lezTimelockMinutes &&
      isPositiveInteger config.ethTimelockMinutes &&
      toLongLong config.ethTimelockMinutes ≤ toLongLong config.lezTimelockMinutes)
    "eth_timelock_minutes" "Must be greater than LEZ timelock" ++
  finding (!isPositiveInteger config.pollIntervalMs) "poll_interval_ms"
    "Must be a positive interval"

/-- What `validateConfigForAction` finds of the text that comes with an action. -/
def actionFindings (action hexValue hexKey : String) : ValidationErrors :=
  if hexKey = "" then []
  else if "refund".toList.isPrefixOf action.toList && blank hexValue then [(hexKey, "Required")]
  else optionalHex hexKey hexValue 32 "Must be 32 bytes of hex"

/-- What it finds of the venue, for a taker. -/
def venueFindings (action : String) (config : AppConfig) (canonicalEth canonicalLez : String) :
    ValidationErrors :=
  if action = "taker" then
    finding (!hexEquals config.ethHtlcAddress canonicalEth) "eth_htlc_address"
      "This app only trades on its built-in swap contract." ++
    finding (!hexEquals config.lezHtlcProgramId canonicalLez) "lez_htlc_program_id"
      "This app only trades on its built-in swap program."
  else []

/-! ## The app -/

/-- A taker job as it is started. -/
structure TakerJob where
  config : AppConfig
  preimageHex : String
deriving DecidableEq

/-- The app, as far as starting a taker reads and writes it. `lezProgramId` is its
`m_canonicalLezHtlcProgramId`. -/
structure App where
  config : AppConfig
  lezProgramId : String
  swapRole : String
  ethBalance : String
  takerRunning : Bool
  makerRunning : Bool
  autoAcceptRunning : Bool
  validationErrors : ValidationErrors
  errorMessage : String
  status : String
  jobs : List TakerJob

namespace App

/-- The app once its client is there, before anything is loaded. -/
def initial (env : Surroundings) : App where
  config := .default env
  lezProgramId := ""
  swapRole := ""
  ethBalance := ""
  takerRunning := false
  makerRunning := false
  autoAcceptRunning := false
  validationErrors := []
  errorMessage := ""
  status := "Please choose a configuration."
  jobs := []

/-- An error message, which is the status too. -/
def fail (app : App) (message : String) : App :=
  { app with errorMessage := message, status := message }

/-- `canonicalLezHtlcProgramId`: the config's own field until the library has answered. -/
def canonicalLezHtlcProgramId (app : App) : String :=
  if app.lezProgramId = "" then app.config.lezHtlcProgramId else app.lezProgramId

/-- The callback of `defaultLezHtlcProgramIdAsync`. -/
def programIdAnswered (app : App) (programId : String) : App :=
  if programId = "" then app
  else
    { app with
      lezProgramId := programId
      config :=
        if app.config.lezHtlcProgramId = "" then { app.config with lezHtlcProgramId := programId }
        else app.config }

/-- `setRole`. -/
def setRole (app : App) (role : String) : App :=
  if role ≠ "maker" ∧ role ≠ "taker" then app.fail ("Invalid role: " ++ role)
  else { app with swapRole := role, errorMessage := "", status := "Role: " ++ role }

/-- `validateConfig`. -/
def validateConfig (app : App) : Bool × App :=
  let errors := app.config.findings.foldl addValidationError []
  (errors.isEmpty, { app with validationErrors := errors })

/-- `validateConfigForAction`. -/
def validateConfigForAction (app : App) (env : Surroundings) (action hexValue hexKey : String) :
    Bool × App :=
  let (ok, app) := app.validateConfig
  let found := actionFindings action hexValue hexKey ++
    venueFindings action app.config (defaultEthHtlcAddress env) app.canonicalLezHtlcProgramId
  let app := { app with validationErrors := found.foldl addValidationError app.validationErrors }
  if ok && found.isEmpty then (true, app)
  else (false, app.fail "Fix validation errors before continuing")

/-- `applyConfigObject`. -/
def applyConfigObject (app : App) (obj : QJsonObject) : App :=
  let app := { app with config := app.config.apply obj }
  if (obj.lookup "swap_role").isSome then app.setRole (valueString obj "swap_role") else app

/-- `loadConfigFromDisk`, with what the file holds. -/
def loadConfigFromDisk (app : App) (obj : QJsonObject) : App :=
  if obj.isEmpty then app else app.applyConfigObject obj

/-- `loadConfig`, with what the text parses to. -/
def loadConfig (app : App) (configJson : String) (obj : QJsonObject) : App :=
  if obj.isEmpty && !blank configJson then app.fail "Invalid config JSON"
  else
    let app := app.applyConfigObject obj
    ({ app with errorMessage := "", status := "Config loaded" }).validateConfig.2

/-- The callback of `loadEnvAsync`. -/
def envLoaded (app : App) (role error : String) (obj : QJsonObject) : App :=
  if error ≠ "" then { app with errorMessage := error, status := "Env load failed: " ++ error }
  else
    let app := app.applyConfigObject obj
    let app := if role ≠ "" then app.setRole role else app
    { app.validateConfig.2 with status := "Config loaded from env" }

/-- `setConfigValue`. -/
def setConfigValue (app : App) (key value : String) : App :=
  match AppConfig.setters.lookup key with
  | some set => ({ app with config := set app.config value }).validateConfig.2
  | none => app.fail ("Unknown config key: " ++ key)

/-- `resetConfig`, which asks the library again. -/
def resetConfig (app : App) (env : Surroundings) : App :=
  { ({ app with config := .default env }).validateConfig.2 with
    errorMessage := ""
    status := "App data reset to defaults" }

/-- `startTaker`. -/
def startTaker (app : App) (env : Surroundings) (preimageHex : String) (subscribed : Bool) : App :=
  if app.takerRunning || app.makerRunning || app.autoAcceptRunning then app
  else
    match app.validateConfigForAction env "taker" preimageHex "preimage_hex" with
    | (false, app) => app
    | (true, app) =>
        if !subscribed then
          app.fail "Cannot start taker: swap event subscription unavailable"
        else
          { app with
            takerRunning := true
            errorMessage := ""
            status := "Starting taker swap..."
            jobs := app.jobs ++ [⟨app.config, preimageHex⟩] }

/-- `offerNamesCanonicalVenue`. -/
def offerNamesCanonicalVenue (app : App) (env : Surroundings) (offer : QJsonObject) : VenueCheck :=
  checkOfferVenue (valueString offer "eth_htlc_address") (defaultEthHtlcAddress env)
    (valueString offer "lez_htlc_program_id") app.canonicalLezHtlcProgramId

/-- The reason for which an offer of another venue is refused. -/
def venueReason : VenueField → String
  | .EthContract => "Blocked for your safety — this offer uses a swap contract this " ++
      "app doesn't recognize, so no funds were locked. Only accept " ++
      "offers using the standard contract."
  | .LezProgram | .None => "Blocked for your safety — this offer routes through a swap " ++
      "program this app doesn't recognize, so no funds were locked. " ++
      "Only accept offers using the standard program."

/-- `applyOfferObject`. -/
def applyOfferObject (app : App) (env : Surroundings) (offer : QJsonObject) (nowSecs : Int) :
    Bool × App :=
  let check := app.offerNamesCanonicalVenue env offer
  if !check.ok then (false, app.fail (venueReason check.mismatch))
  else (true, { app with config := app.config.adopt env offer nowSecs })

/-- The guard of `acceptOfferAndStartTaker` for a balance that is known to be too small. -/
def cannotAfford (app : App) (offer : QJsonObject) : Bool :=
  insufficientEthForOffer (Utf8.encode app.ethBalance.toList)
    (Utf8.encode (valueString offer "eth_amount").toList) (Utf8.encode ethGasHeadroomWei.toList)

/-- `acceptOfferAndStartTaker`. -/
def acceptOfferAndStartTaker (app : App) (env : Surroundings) (offer : QJsonObject) (nowSecs : Int)
    (subscribed : Bool) : App :=
  if offer.isEmpty then app.fail "Invalid offer JSON"
  else if app.cannotAfford offer then
    app.fail ("You don't have enough ETH for this swap. You need at least " ++
      weiToEthValue (valueString offer "eth_amount") ++
      " ETH plus a little for gas — get free test ETH on the Setup tab.")
  else
    match app.applyOfferObject env offer nowSecs with
    | (false, app) => app
    | (true, app) => app.startTaker env "" subscribed

/-- What happens to the app. A request to the library that fails is answered with an empty text. -/
inductive Event where
  | programIdAnswered (answered : Bool)
  | loadConfigFromDisk (obj : QJsonObject)
  | loadConfig (configJson : String) (obj : QJsonObject)
  | envLoaded (role error : String) (obj : QJsonObject)
  | setRole (role : String)
  | setConfigValue (key value : String)
  | ethKeyGenerated (privateKey address : String)
  | lezAccountGenerated (signingKey : String)
  | resetConfig
  | balanceRead (ethBalance : String)
  | runningChanged (taker maker autoAccept : Bool)
  | startTaker (preimageHex : String) (subscribed : Bool)
  | acceptOfferAndStartTaker (offer : QJsonObject) (nowSecs : Int) (subscribed : Bool)

/-- The app after an event. -/
def step (env : Surroundings) (app : App) : Event → App
  | .programIdAnswered answered =>
      app.programIdAnswered (if answered then lezHtlcProgramIdHex else "")
  | .loadConfigFromDisk obj => app.loadConfigFromDisk obj
  | .loadConfig configJson obj => app.loadConfig configJson obj
  | .envLoaded role error obj => app.envLoaded role error obj
  | .setRole role => app.setRole role
  | .setConfigValue key value => app.setConfigValue key value
  | .ethKeyGenerated privateKey address =>
      { app with config :=
          { app.config with ethPrivateKey := privateKey, ethRecipientAddress := address } }
        |>.validateConfig.2
  | .lezAccountGenerated signingKey =>
      { app with config := { app.config with lezSigningKey := signingKey } } |>.validateConfig.2
  | .resetConfig => app.resetConfig env
  | .balanceRead ethBalance => { app with ethBalance := ethBalance }
  | .runningChanged taker maker autoAccept =>
      { app with takerRunning := taker, makerRunning := maker, autoAcceptRunning := autoAccept }
  | .startTaker preimageHex subscribed => app.startTaker env preimageHex subscribed
  | .acceptOfferAndStartTaker offer nowSecs subscribed =>
      app.acceptOfferAndStartTaker env offer nowSecs subscribed

/-- The app after a sequence of events. -/
def after (env : Surroundings) (events : List Event) : App := events.foldl (step env) (initial env)

end App

/-! ## The law -/

/-- A config names the built-in contract and the library's program. -/
def AppConfig.Pinned (env : Surroundings) (config : AppConfig) : Prop :=
  hexEquals config.ethHtlcAddress (defaultEthHtlcAddress env) = true ∧
    hexEquals config.lezHtlcProgramId lezHtlcProgramIdHex = true

/-- An offer names another value in a field of its venue. -/
def NamesOther (offer : QJsonObject) (key canonical : String) : Prop :=
  normalizeHex (valueString offer key) ≠ [] ∧ hexEquals (valueString offer key) canonical = false

/-- An offer names another venue than the built-in contract and the library's program. -/
def Foreign (env : Surroundings) (offer : QJsonObject) : Prop :=
  NamesOther offer "eth_htlc_address" (defaultEthHtlcAddress env) ∨
    NamesOther offer "lez_htlc_program_id" lezHtlcProgramIdHex

namespace App

/-- Every taker job of a run is for the pinned venue, and no offer of another venue changes the
config or starts a job. -/
structure KeepsVenue (env : Surroundings) (events : List Event) : Prop where
  started : ∀ job ∈ (after env events).jobs, job.config.Pinned env
  refused : ∀ front offer nowSecs subscribed,
    front ++ [.acceptOfferAndStartTaker offer nowSecs subscribed] <+: events → Foreign env offer →
    let before := after env front
    let next := before.acceptOfferAndStartTaker env offer nowSecs subscribed
    next.config = before.config ∧ next.jobs = before.jobs

/-- The library has not answered, and the program that stands in for its own is another. -/
structure Unchecked (app : App) : Prop where
  unanswered : app.lezProgramId = ""
  other : hexEquals app.config.lezHtlcProgramId lezHtlcProgramIdHex = false

/-- A taker can be started with a config, but for its program of LEZ. -/
structure Startable (env : Surroundings) (app : App) (config : AppConfig) (preimageHex : String)
    (subscribed : Bool) : Prop where
  idle : app.takerRunning = false ∧ app.makerRunning = false ∧ app.autoAcceptRunning = false
  valid : config.findings = []
  preimage : actionFindings "taker" preimageHex "preimage_hex" = []
  contract : hexEquals config.ethHtlcAddress (defaultEthHtlcAddress env) = true
  subscribed : subscribed = true

/-- A start, or an accepted offer, for which the program of LEZ is held against itself. -/
def Escapes (env : Surroundings) (app : App) : Event → Prop
  | .startTaker preimageHex subscribed =>
      app.Unchecked ∧ app.Startable env app.config preimageHex subscribed
  | .acceptOfferAndStartTaker offer nowSecs subscribed =>
      app.Unchecked ∧ offer ≠ [] ∧ app.cannotAfford offer = false ∧
        ¬ NamesOther offer "eth_htlc_address" (defaultEthHtlcAddress env) ∧
        ¬ NamesOther offer "lez_htlc_program_id" app.config.lezHtlcProgramId ∧
        (app.Startable env (app.config.adopt env offer nowSecs) "" subscribed ∨
          normalizeHex (valueString offer "lez_htlc_program_id") ≠ [] ∧
            app.config.adopt env offer nowSecs ≠ app.config)
  | _ => False

end App

theorem foldl_addValidationError_isEmpty (found errors : ValidationErrors) :
    (found.foldl addValidationError errors).isEmpty = (errors.isEmpty && found.isEmpty) := by
  induction found generalizing errors with
  | nil => simp
  | cons first rest ih => simp [ih, addValidationError]

theorem finding_eq_nil {fails : Bool} {key message : String} :
    finding fails key message = [] ↔ fails = false := by
  cases fails <;> simp [finding]

theorem venueFindings_taker {config : AppConfig} {canonicalEth canonicalLez : String} :
    venueFindings "taker" config canonicalEth canonicalLez = [] ↔
      hexEquals config.ethHtlcAddress canonicalEth = true ∧
        hexEquals config.lezHtlcProgramId canonicalLez = true := by
  simp [venueFindings, finding_eq_nil]

theorem hexEquals_iff {a b : String} : hexEquals a b = true ↔ normalizeHex a = normalizeHex b := by
  simp [hexEquals]

theorem hexEquals_eq_false {a b : String} :
    hexEquals a b = false ↔ normalizeHex a ≠ normalizeHex b := by
  simp [hexEquals]

theorem not_namesOther {offer : QJsonObject} {key canonical : String} :
    ¬ NamesOther offer key canonical ↔
      normalizeHex (valueString offer key) = [] ∨
        normalizeHex (valueString offer key) = normalizeHex canonical := by
  simp only [NamesOther, hexEquals_eq_false, ne_eq]
  tauto

namespace App

variable {env : Surroundings} {app : App}

/-- What the changes of the config leave as it is: the library's answer, and the jobs. -/
def Kept (app next : App) : Prop :=
  next.lezProgramId = app.lezProgramId ∧ next.jobs = app.jobs

theorem setRole_kept (role : String) : app.Kept (app.setRole role) := by
  unfold setRole
  split <;> exact ⟨rfl, rfl⟩

theorem applyConfigObject_kept (obj : QJsonObject) : app.Kept (app.applyConfigObject obj) := by
  unfold applyConfigObject
  dsimp only
  split
  · exact setRole_kept _
  · exact ⟨rfl, rfl⟩

theorem loadConfigFromDisk_kept (obj : QJsonObject) : app.Kept (app.loadConfigFromDisk obj) := by
  unfold loadConfigFromDisk
  split
  · exact ⟨rfl, rfl⟩
  · exact applyConfigObject_kept obj

theorem loadConfig_kept (configJson : String) (obj : QJsonObject) :
    app.Kept (app.loadConfig configJson obj) := by
  obtain ⟨answer, jobs⟩ := @applyConfigObject_kept app obj
  unfold loadConfig
  split
  · exact ⟨rfl, rfl⟩
  · exact ⟨answer, jobs⟩

theorem envLoaded_kept (role error : String) (obj : QJsonObject) :
    app.Kept (app.envLoaded role error obj) := by
  obtain ⟨answer, jobs⟩ := @applyConfigObject_kept app obj
  obtain ⟨named, started⟩ := @setRole_kept (app.applyConfigObject obj) role
  unfold envLoaded
  split
  · exact ⟨rfl, rfl⟩
  dsimp only
  split
  · exact ⟨named.trans answer, started.trans jobs⟩
  · exact ⟨answer, jobs⟩

theorem setConfigValue_kept (key value : String) : app.Kept (app.setConfigValue key value) := by
  unfold setConfigValue
  split <;> exact ⟨rfl, rfl⟩

/-- The check for a taker: what it finds, and that it changes no more than the messages. -/
theorem validateConfigForAction_taker (preimageHex : String) :
    let (ok, next) := app.validateConfigForAction env "taker" preimageHex "preimage_hex"
    (ok = true ↔ app.config.findings = [] ∧
        actionFindings "taker" preimageHex "preimage_hex" = [] ∧
        hexEquals app.config.ethHtlcAddress (defaultEthHtlcAddress env) = true ∧
        hexEquals app.config.lezHtlcProgramId app.canonicalLezHtlcProgramId = true) ∧
      next.config = app.config ∧ app.Kept next := by
  unfold validateConfigForAction validateConfig
  dsimp only
  split
  · rename_i passes
    simp only [foldl_addValidationError_isEmpty, Bool.and_eq_true, List.isEmpty_iff,
      List.append_eq_nil_iff, venueFindings_taker] at passes
    obtain ⟨⟨-, valid⟩, action, venue⟩ := passes
    exact ⟨⟨fun _ => ⟨valid, action, venue⟩, fun _ => rfl⟩, rfl, rfl, rfl⟩
  · rename_i refused
    refine ⟨⟨by simp, fun passes => absurd ?_ refused⟩, rfl, rfl, rfl⟩
    obtain ⟨valid, action, venue⟩ := passes
    simp only [foldl_addValidationError_isEmpty, Bool.and_eq_true, List.isEmpty_iff,
      List.append_eq_nil_iff, venueFindings_taker]
    exact ⟨⟨trivial, valid⟩, action, venue⟩

theorem Startable.withConfig {config other : AppConfig} {preimageHex : String}
    {subscribed : Bool} :
    ({ app with config := other } : App).Startable env config preimageHex subscribed ↔
      app.Startable env config preimageHex subscribed := by
  constructor <;> exact fun ⟨idle, valid, preimage, contract, subscribed⟩ =>
    ⟨idle, valid, preimage, contract, subscribed⟩

/-- A taker is started with the config as it is. -/
def Starts (env : Surroundings) (app : App) (preimageHex : String) (subscribed : Bool) : Prop :=
  app.Startable env app.config preimageHex subscribed ∧
    hexEquals app.config.lezHtlcProgramId app.canonicalLezHtlcProgramId = true

theorem startTaker_cases (preimageHex : String) (subscribed : Bool) :
    let next := app.startTaker env preimageHex subscribed
    (next.config = app.config ∧ next.lezProgramId = app.lezProgramId) ∧
      ((app.Starts env preimageHex subscribed ∧
          next.jobs = app.jobs ++ [⟨app.config, preimageHex⟩]) ∨
        (¬ app.Starts env preimageHex subscribed ∧ next.jobs = app.jobs)) := by
  have checked := @validateConfigForAction_taker env app preimageHex
  unfold startTaker
  split
  · rename_i busy
    refine ⟨⟨rfl, rfl⟩, .inr ⟨fun starts => ?_, rfl⟩⟩
    obtain ⟨taker, maker, autoAccept⟩ := starts.1.idle
    simp [taker, maker, autoAccept] at busy
  rename_i idle
  simp only [Bool.or_eq_true, not_or, Bool.not_eq_true] at idle
  split
  · rename_i next refused
    rw [refused] at checked
    obtain ⟨ok, config, answer, jobs⟩ := checked
    refine ⟨⟨config, answer⟩, .inr ⟨fun starts => ?_, jobs⟩⟩
    exact absurd (ok.mpr ⟨starts.1.valid, starts.1.preimage, starts.1.contract, starts.2⟩) (by simp)
  · rename_i next passed
    rw [passed] at checked
    obtain ⟨ok, config, answer, jobs⟩ := checked
    obtain ⟨valid, preimage, contract, program⟩ := ok.mp rfl
    cases subscribed with
    | false => exact ⟨⟨config, answer⟩, .inr ⟨fun starts => by simpa using starts.1.subscribed, jobs⟩⟩
    | true =>
        refine ⟨⟨config, answer⟩, .inl ⟨⟨⟨⟨idle.1.1, idle.1.2, idle.2⟩, valid, preimage, contract,
          rfl⟩, program⟩, ?_⟩⟩
        simp [config, jobs]

/-- An offer is taken over. -/
def Adopts (env : Surroundings) (app : App) (offer : QJsonObject) : Prop :=
  offer ≠ [] ∧ app.cannotAfford offer = false ∧
    ¬ NamesOther offer "eth_htlc_address" (defaultEthHtlcAddress env) ∧
    ¬ NamesOther offer "lez_htlc_program_id" app.canonicalLezHtlcProgramId

theorem offerNamesCanonicalVenue_ok (offer : QJsonObject) :
    (app.offerNamesCanonicalVenue env offer).ok = true ↔
      ¬ NamesOther offer "eth_htlc_address" (defaultEthHtlcAddress env) ∧
        ¬ NamesOther offer "lez_htlc_program_id" app.canonicalLezHtlcProgramId := by
  rw [not_namesOther, not_namesOther]
  exact checkOfferVenue_ok _ _ _ _

theorem acceptOfferAndStartTaker_cases (offer : QJsonObject) (nowSecs : Int) (subscribed : Bool) :
    let next := app.acceptOfferAndStartTaker env offer nowSecs subscribed
    let config := app.config.adopt env offer nowSecs
    (app.Adopts env offer ∧ next.config = config ∧ next.lezProgramId = app.lezProgramId ∧
        ((({ app with config := config } : App).Starts env "" subscribed ∧
            next.jobs = app.jobs ++ [⟨config, ""⟩]) ∨
          (¬ ({ app with config := config } : App).Starts env "" subscribed ∧
            next.jobs = app.jobs))) ∨
      (¬ app.Adopts env offer ∧ next.config = app.config ∧ app.Kept next) := by
  have venue := @offerNamesCanonicalVenue_ok env app offer
  unfold acceptOfferAndStartTaker
  split
  · rename_i empty
    exact .inr ⟨fun adopts => adopts.1 (List.isEmpty_iff.mp empty), rfl, rfl, rfl⟩
  rename_i present
  split
  · rename_i short
    exact .inr ⟨fun adopts => by simp [adopts.2.1] at short, rfl, rfl, rfl⟩
  rename_i enough
  unfold applyOfferObject
  dsimp only
  split
  · rename_i refused
    split at refused
    · obtain ⟨-, rfl⟩ := Prod.mk.inj refused
      rename_i other
      refine .inr ⟨fun adopts => ?_, rfl, rfl, rfl⟩
      simp [venue.mpr adopts.2.2] at other
    · simp at refused
  · rename_i adopted
    split at adopted
    · simp at adopted
    · rename_i canonical
      obtain ⟨-, rfl⟩ := Prod.mk.inj adopted
      obtain ⟨⟨config, answer⟩, jobs⟩ := @startTaker_cases env
        { app with config := app.config.adopt env offer nowSecs } "" subscribed
      have adopts : app.Adopts env offer :=
        ⟨by simpa using present, by simpa using enough, venue.mp (by simpa using canonical)⟩
      exact .inl ⟨adopts, config, answer, jobs⟩

/-! ## Runs -/

/-- The library has given its program id, or nothing yet. -/
def Answered (app : App) : Prop := app.lezProgramId = "" ∨ app.lezProgramId = lezHtlcProgramIdHex

theorem Kept.answered {next : App} (kept : app.Kept next) (answered : app.Answered) :
    next.Answered := by
  unfold Answered
  rw [kept.1]
  exact answered

/-- But for a config that is unchecked, the program that is canonical is the library's. -/
theorem canonical_of_checked (answered : app.Answered) (checked : ¬ app.Unchecked) :
    normalizeHex app.canonicalLezHtlcProgramId = normalizeHex lezHtlcProgramIdHex := by
  rcases answered with none | some
  · have same : hexEquals app.config.lezHtlcProgramId lezHtlcProgramIdHex = true := by
      by_contra other
      exact checked ⟨none, by simpa using other⟩
    simpa [canonicalLezHtlcProgramId, none, hexEquals_iff] using same
  · have named : lezHtlcProgramIdHex ≠ "" := by decide
    simp [canonicalLezHtlcProgramId, some, named]

theorem Unchecked.program (unchecked : app.Unchecked) :
    app.canonicalLezHtlcProgramId = app.config.lezHtlcProgramId := by
  simp [canonicalLezHtlcProgramId, unchecked.unanswered]

/-- An event that starts no taker leaves the jobs as they are. -/
theorem step_quiet {event : Event} (start : ∀ preimageHex subscribed,
      event ≠ .startTaker preimageHex subscribed)
    (accept : ∀ offer nowSecs subscribed,
      event ≠ .acceptOfferAndStartTaker offer nowSecs subscribed) :
    (step env app event).jobs = app.jobs := by
  cases event with
  | programIdAnswered told => cases told <;> rfl
  | loadConfigFromDisk obj => exact (loadConfigFromDisk_kept obj).2
  | loadConfig configJson obj => exact (loadConfig_kept configJson obj).2
  | envLoaded role error obj => exact (envLoaded_kept role error obj).2
  | setRole role => exact (setRole_kept role).2
  | setConfigValue key value => exact (setConfigValue_kept key value).2
  | ethKeyGenerated privateKey address => rfl
  | lezAccountGenerated signingKey => rfl
  | resetConfig => rfl
  | balanceRead ethBalance => rfl
  | runningChanged taker maker autoAccept => rfl
  | startTaker preimageHex subscribed => exact absurd rfl (start preimageHex subscribed)
  | acceptOfferAndStartTaker offer nowSecs subscribed =>
      exact absurd rfl (accept offer nowSecs subscribed)

theorem step_answered (answered : app.Answered) (event : Event) :
    (step env app event).Answered := by
  have kept {next : App} (same : next.lezProgramId = app.lezProgramId) : next.Answered := by
    unfold Answered
    rwa [same]
  cases event with
  | programIdAnswered told =>
      cases told with
      | false => exact answered
      | true => exact .inr rfl
  | loadConfigFromDisk obj => exact kept (loadConfigFromDisk_kept obj).1
  | loadConfig configJson obj => exact kept (loadConfig_kept configJson obj).1
  | envLoaded role error obj => exact kept (envLoaded_kept role error obj).1
  | setRole role => exact kept (setRole_kept role).1
  | setConfigValue key value => exact kept (setConfigValue_kept key value).1
  | ethKeyGenerated privateKey address => exact answered
  | lezAccountGenerated signingKey => exact answered
  | resetConfig => exact answered
  | balanceRead ethBalance => exact answered
  | runningChanged taker maker autoAccept => exact answered
  | startTaker preimageHex subscribed =>
      exact kept (startTaker_cases preimageHex subscribed).1.2
  | acceptOfferAndStartTaker offer nowSecs subscribed =>
      rcases @acceptOfferAndStartTaker_cases env app offer nowSecs subscribed with
        ⟨-, -, answer, -⟩ | ⟨-, -, answer, -⟩
      · exact kept answer
      · exact kept answer

/-- The jobs before an event are there after it, and a new one is for the pinned venue unless
the event escapes. -/
theorem step_jobs (answered : app.Answered) (event : Event) :
    app.jobs ⊆ (step env app event).jobs ∧
      (¬ Escapes env app event →
        ∀ job ∈ (step env app event).jobs, job ∈ app.jobs ∨ job.config.Pinned env) := by
  by_cases quiet : (∀ preimageHex subscribed, event ≠ .startTaker preimageHex subscribed) ∧
      ∀ offer nowSecs subscribed, event ≠ .acceptOfferAndStartTaker offer nowSecs subscribed
  · rw [step_quiet quiet.1 quiet.2]
    exact ⟨List.Subset.refl _, fun _ job here => .inl here⟩
  cases event with
  | startTaker preimageHex subscribed =>
      change app.jobs ⊆ (app.startTaker env preimageHex subscribed).jobs ∧
        (_ → ∀ job ∈ (app.startTaker env preimageHex subscribed).jobs, _)
      rcases (@startTaker_cases env app preimageHex subscribed).2 with
        ⟨⟨startable, program⟩, jobs⟩ | ⟨-, jobs⟩
      · rw [jobs]
        refine ⟨List.subset_append_left _ _, fun guarded job here => ?_⟩
        rcases List.mem_append.mp here with old | new
        · exact .inl old
        · obtain rfl := List.mem_singleton.mp new
          have checked : ¬ app.Unchecked := fun unchecked => guarded ⟨unchecked, startable⟩
          exact .inr ⟨startable.contract,
            hexEquals_iff.mpr ((hexEquals_iff.mp program).trans
              (canonical_of_checked answered checked))⟩
      · rw [jobs]
        exact ⟨List.Subset.refl _, fun _ job here => .inl here⟩
  | acceptOfferAndStartTaker offer nowSecs subscribed =>
      change app.jobs ⊆ (app.acceptOfferAndStartTaker env offer nowSecs subscribed).jobs ∧
        (_ → ∀ job ∈ (app.acceptOfferAndStartTaker env offer nowSecs subscribed).jobs, _)
      rcases @acceptOfferAndStartTaker_cases env app offer nowSecs subscribed with
        ⟨adopts, -, -, ⟨⟨startable, program⟩, jobs⟩ | ⟨-, jobs⟩⟩ | ⟨-, -, -, jobs⟩
      · rw [jobs]
        refine ⟨List.subset_append_left _ _, fun guarded job here => ?_⟩
        rcases List.mem_append.mp here with old | new
        · exact .inl old
        · obtain rfl := List.mem_singleton.mp new
          have checked : ¬ app.Unchecked := by
            intro unchecked
            have own := adopts.2.2.2
            rw [unchecked.program] at own
            exact guarded ⟨unchecked, adopts.1, adopts.2.1, adopts.2.2.1, own,
              .inl (Startable.withConfig.mp startable)⟩
          have canonical := canonical_of_checked answered checked
          exact .inr ⟨startable.contract,
            hexEquals_iff.mpr ((hexEquals_iff.mp program).trans canonical)⟩
      · rw [jobs]
        exact ⟨List.Subset.refl _, fun _ job here => .inl here⟩
      · rw [jobs]
        exact ⟨List.Subset.refl _, fun _ job here => .inl here⟩
  | _ => exact absurd ⟨by simp, by simp⟩ quiet

theorem after_concat (events : List Event) (event : Event) :
    after env (events ++ [event]) = step env (after env events) event := by
  simp [after]

theorem after_answered (events : List Event) : (after env events).Answered := by
  induction events using List.reverseRecOn with
  | nil => exact .inl rfl
  | append_singleton events event ih =>
      rw [after_concat]
      exact step_answered ih event

/-- The jobs of a run are there after every longer one. -/
theorem after_jobs {front events : List Event} (earlier : front <+: events) :
    (after env front).jobs ⊆ (after env events).jobs := by
  induction events using List.reverseRecOn with
  | nil =>
      rw [List.prefix_nil.mp earlier]
      exact List.Subset.refl _
  | append_singleton events event ih =>
      rcases List.prefix_concat_iff.mp earlier with same | before
      · rw [same]
        exact List.Subset.refl _
      · rw [after_concat]
        exact List.Subset.trans (ih before) (step_jobs (after_answered events) event).1

/-- An event that escapes starts a job for another program, or takes over an offer that names
one. -/
theorem KeepsVenue.guarded {events front : List Event} {event : Event}
    (keeps : KeepsVenue env events) (reached : front ++ [event] <+: events) :
    ¬ Escapes env (after env front) event := by
  intro escapes
  have pinned : ∀ job ∈ (step env (after env front) event).jobs, job.config.Pinned env := by
    intro job here
    rw [← after_concat] at here
    exact keeps.started job (after_jobs reached here)
  generalize app_eq : after env front = app at escapes pinned
  cases event with
  | startTaker preimageHex subscribed =>
      obtain ⟨unchecked, startable⟩ := escapes
      have starts : app.Starts env preimageHex subscribed :=
        ⟨startable, by rw [unchecked.program, hexEquals_iff]⟩
      rcases (@startTaker_cases env app preimageHex subscribed).2 with
        ⟨-, jobs⟩ | ⟨not, -⟩
      · have job := pinned ⟨app.config, preimageHex⟩ (by
          change _ ∈ (app.startTaker env preimageHex subscribed).jobs
          rw [jobs]
          exact List.mem_append_right _ List.mem_cons_self)
        exact absurd job.2 (by simp [unchecked.other])
      · exact not starts
  | acceptOfferAndStartTaker offer nowSecs subscribed =>
      obtain ⟨unchecked, present, enough, contract, program, follows⟩ := escapes
      have refused := keeps.refused front offer nowSecs subscribed reached
      rw [app_eq] at refused
      rcases @acceptOfferAndStartTaker_cases env app offer nowSecs subscribed with
        ⟨-, config, -, started⟩ | ⟨not, -⟩
      · rcases follows with startable | ⟨named, changed⟩
        · rcases started with ⟨-, jobs⟩ | ⟨not, -⟩
          · have job := pinned ⟨app.config.adopt env offer nowSecs, ""⟩ (by
              change _ ∈ (app.acceptOfferAndStartTaker env offer nowSecs subscribed).jobs
              rw [jobs]
              exact List.mem_append_right _ List.mem_cons_self)
            exact absurd job.2 (by
              change ¬ hexEquals app.config.lezHtlcProgramId lezHtlcProgramIdHex = true
              simp [unchecked.other])
          · refine not ⟨Startable.withConfig.mpr startable, ?_⟩
            simp [canonicalLezHtlcProgramId, unchecked.unanswered, hexEquals_iff]
        · have same := (not_namesOther.mp program).resolve_left named
          have foreign : Foreign env offer := by
            refine .inr ⟨named, ?_⟩
            rw [hexEquals_eq_false, same, ← hexEquals_eq_false]
            exact unchecked.other
          exact changed (config.symm.trans (refused foreign).1)
      · exact not ⟨present, enough, contract, by rwa [unchecked.program]⟩
  | _ => exact escapes

/-- Where no event escapes, the venue is kept. -/
theorem keepsVenue_of_guarded {events : List Event}
    (guarded : ∀ front event, front ++ [event] <+: events →
      ¬ Escapes env (after env front) event) : KeepsVenue env events where
  started := by
    induction events using List.reverseRecOn with
    | nil => simp [after, initial]
    | append_singleton events event ih =>
        intro job here
        rw [after_concat] at here
        rcases (step_jobs (after_answered events) event).2
          (guarded events event (List.prefix_refl _)) job here with old | new
        · exact ih (fun front event reached =>
            guarded front event (reached.trans (List.prefix_append _ _))) job old
        · exact new
  refused := by
    intro front offer nowSecs subscribed reached foreign
    have guarded := guarded front _ reached
    have answered := @after_answered env front
    generalize after env front = app at guarded answered
    rcases @acceptOfferAndStartTaker_cases env app offer nowSecs subscribed with
      ⟨⟨present, enough, contract, program⟩, config, -, started⟩ | ⟨-, config, -, jobs⟩
    · obtain ⟨named, other⟩ := foreign.resolve_left contract
      have same := (not_namesOther.mp program).resolve_left named
      have unchecked : app.Unchecked := by
        by_contra checked
        rw [canonical_of_checked answered checked] at same
        exact hexEquals_eq_false.mp other same
      rw [unchecked.program] at program
      have still : ¬ (app.Startable env (app.config.adopt env offer nowSecs) "" subscribed ∨
          _ ∧ app.config.adopt env offer nowSecs ≠ app.config) := fun follows =>
        guarded ⟨unchecked, present, enough, contract, program, follows⟩
      obtain ⟨idle, unchanged⟩ := not_or.mp still
      rcases started with ⟨⟨startable, -⟩, -⟩ | ⟨-, jobs⟩
      · exact absurd (Startable.withConfig.mp startable) idle
      · have adopted : app.config.adopt env offer nowSecs = app.config := by
          by_contra changed
          exact unchanged ⟨named, changed⟩
        exact ⟨config.trans adopted, jobs⟩
    · exact ⟨config, jobs⟩

end App

/-- A run keeps to the pinned venue exactly when, at every start and every accepted offer of it,
the program of LEZ is checked against the library's. -/
theorem pinned_venue_iff (env : Surroundings) (events : List App.Event) :
    App.KeepsVenue env events ↔
      ∀ front event, front ++ [event] <+: events →
        ¬ App.Escapes env (App.after env front) event :=
  ⟨fun keeps _ _ reached => keeps.guarded reached, App.keepsVenue_of_guarded⟩

/-- The surroundings of the tests, without overrides. -/
def testSurroundings : Surroundings := ⟨"", "", "", fun _ => 0⟩

/-- A saved config with a program of its own. -/
def testSaved : QJsonObject :=
  [("eth_private_key", .string (String.ofList (List.replicate 64 '1'))),
    ("eth_recipient_address", .string (String.ofList (List.replicate 40 '2'))),
    ("lez_signing_key", .string (String.ofList (List.replicate 64 '3'))),
    ("lez_htlc_program_id", .string (String.ofList (List.replicate 64 '6')))]

/-- A taker that is started before the library has answered is started with the program of a
saved config. -/
theorem saved_program_started :
    ¬ App.KeepsVenue testSurroundings [.loadConfigFromDisk testSaved, .startTaker "" true] := by
  intro keeps
  have pinned := keeps.started
    ⟨(AppConfig.default testSurroundings).apply testSaved, ""⟩ (by decide +kernel)
  exact absurd pinned.2 (by decide +kernel)

end AtomicSwaps.Ui
