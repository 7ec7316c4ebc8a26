import AtomicSwaps.Cli.Reconcile

/-!
# The standing liquidity bot

`cmd_maker_loop` of `src/cli/maker.rs`: the startup guards, recovery of what an earlier
process left in flight, and then the loop. The top-up before the start, the offer
publisher and the status file take no part in any swap and are left out.
-/

namespace AtomicSwaps.Cli

open Semantics Swap
open Lez (LezClient)

/-- The arguments of `cmd_maker_loop` that decide something. -/
structure MakerArgs where
  hashlock : Option String
  lezMinutes : Option U64
  ethMinutes : Option U64
  timelockMarginMinutes : U64
  restrictCounterparty : Bool

/-- `LOOP_DEFAULT_LEZ_TIMELOCK_MINUTES`. -/
def loopDefaultLezTimelockMinutes : U64 := 30

/-- `LOOP_DEFAULT_ETH_TIMELOCK_MINUTES`. -/
def loopDefaultEthTimelockMinutes : U64 := 50

/-- `TIMELOCK_TRANSIT_SLACK_MINUTES`. -/
def timelockTransitSlackMinutes : U64 := 2

/-- `validate_timelocks`. -/
def validateTimelocks (lezMinutes ethMinutes marginMinutes : U64) : Except SwapError Unit :=
  let required := U64.saturatingAdd (U64.saturatingAdd lezMinutes marginMinutes)
    timelockTransitSlackMinutes
  if marginMinutes < 5 then
    .error (.InvalidConfig (
      s!"timelock margin must be >= 5 minutes (got {marginMinutes.toNat}); " ++
        "EthHTLC minTimelockDelta is 300s and the maker needs claim headroom"))
  else if ethMinutes < required then
    .error (.InvalidConfig (
      s!"unsafe timelocks: ETH_TIMELOCK_MINUTES ({ethMinutes.toNat}) must be >= " ++
        s!"LEZ_TIMELOCK_MINUTES ({lezMinutes.toNat}) + margin ({marginMinutes.toNat}) + " ++
        s!"transit slack ({timelockTransitSlackMinutes.toNat}) = {required.toNat}. " ++
        "The taker locks first with the LONG timelock; the maker locks second " ++
        "with the SHORT one, and the maker's runtime gate re-anchors the LEZ " ++
        "expiry at match time — without the slack, every taker lock loses the " ++
        "transit race and is rejected. Raise ETH_TIMELOCK_MINUTES to at least " ++
        s!"{required.toNat} (or lower LEZ_TIMELOCK_MINUTES / the margin)."))
  else .ok ()

/-- The guards before anything is done. -/
def startupGuards (config : SwapConfig) (args : MakerArgs) (lezMinutes ethMinutes : U64) :
    Except SwapError Unit := do
  if args.hashlock.isSome then
    throw (.InvalidConfig
      "--hashlock cannot be combined with --loop (the loop discovers hashlocks on-chain)")
  validateTimelocks lezMinutes ethMinutes args.timelockMarginMinutes
  if args.restrictCounterparty && config.lezTakerAccountId.isNone then
    throw (.InvalidConfig
      ("--restrict-counterparty (RESTRICT_COUNTERPARTY) was set but no designated taker was " ++
        "given: pass --lez-taker-account (LEZ_TAKER_ACCOUNT_ID) with the counterparty's base58 " ++
        "LEZ account, or drop the flag to serve any taker (each taker now publishes its own " ++
        "LEZ account in its ETH lock)."))

/-- What follows recovery: nothing while anything is in flight, else the loop. -/
def acceptSwaps (client : LezClient) (config : SwapConfig) (lezMinutes ethMinutes : U64)
    (args : MakerArgs) (fuel : Nat) : Flow Unit := do
  if !(← request .snapshot).isEmpty then return ()
  let (balance, _) ← balanceWithRetry (fun _ => pure ()) client.accountId balanceRetryAttempts none
  if balance < config.lezAmount then
    throw (.InvalidConfig (
      s!"insufficient LEZ inventory: balance {balance.toNat} < offer amount " ++
        s!"{config.lezAmount.toNat}; top up with \x60swap-cli maker --fund-to <target>\x60"))
  let _ ← runMakerLoop client config lezMinutes ethMinutes (args.timelockMarginMinutes * 60) fuel

/-- `cmd_maker_loop`. -/
def cmdMakerLoop (client : LezClient) (config : SwapConfig) (args : MakerArgs) (fuel : Nat) :
    Flow Unit := do
  let lezMinutes := args.lezMinutes.getD loopDefaultLezTimelockMinutes
  let ethMinutes := args.ethMinutes.getD loopDefaultEthTimelockMinutes
  Program.returned (startupGuards config args lezMinutes ethMinutes)
  Program.returned (← request .lezConnect)
  Program.returned (← request .load)
  reconcile client fuel
  request .joinResumed
  acceptSwaps client config lezMinutes ethMinutes args fuel

end AtomicSwaps.Cli
