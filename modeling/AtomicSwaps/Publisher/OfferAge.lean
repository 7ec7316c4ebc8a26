import AtomicSwaps.Cli.Timelocks
import AtomicSwaps.Ui.OfferBoard

/-!
# The age of an offer

The publisher fixes the expiries of an offer when it builds it, the board shows them as long as
they last, and the taker turns what is left of them back into minutes. The maker anchors its own
expiry at the match. How old an offer may be when it is accepted is decided by all four: the
slack of the configuration pays for the age in whole minutes and for the way to the match.
-/

namespace AtomicSwaps.Publisher

open Swap Cli
open Ui (Offer Row Admission)

/-- `OfferPublisherConfig`: what the publisher is started with, its `cfg`. -/
structure PublisherConfig where
  lezAmount : String
  ethAmountWei : String
  makerEthAddress : String
  makerLezAccount : String
  lezTimelockMinutes : U64
  ethTimelockMinutes : U64
  lezHtlcProgramId : String
  ethHtlcAddress : String

/-- `buildOffer`, at a time in whole seconds. The minutes are numbers of JavaScript there, and the
sums exact as long as they stay below `2 ^ 53`. -/
def buildOffer (cfg : PublisherConfig) (now : Int) : Offer where
  hashlock := .string ""
  lezAmount := cfg.lezAmount
  ethAmount := cfg.ethAmountWei
  makerEthAddress := cfg.makerEthAddress
  makerLezAccount := .string cfg.makerLezAccount
  lezTimelock := now + cfg.lezTimelockMinutes.toNat * 60
  ethTimelock := now + cfg.ethTimelockMinutes.toNat * 60
  lezHtlcProgramId := cfg.lezHtlcProgramId
  ethHtlcAddress := cfg.ethHtlcAddress

/-- `remainingSec`. -/
def remainingSec (row : Row) (nowSec : Int) : Int :=
  let expiry := min row.lezTimelock row.ethTimelock
  if expiry ≤ 0 then 0 else expiry - nowSec

/-- `selExpired`. -/
def selExpired (row : Row) (nowSec : Int) : Bool := remainingSec row nowSec ≤ 0

/-- `minutesUntilExpiry`. -/
def minutesUntilExpiry (expirySecs nowSecs : Int) : Int :=
  if expirySecs ≤ nowSecs then 1
  else
    let minutes := (expirySecs - nowSecs + 59) / 60
    if 0 < minutes then minutes else 1

/-- The timelock fields of the taker's config. -/
structure TimelockMinutes where
  lezTimelockMinutes : Int
  ethTimelockMinutes : Int

/-- The timelock part of `applyOfferObject`. -/
def applyTimelocks (config : TimelockMinutes) (offer : Offer) (nowSecs : Int) : TimelockMinutes where
  ethTimelockMinutes :=
    if 0 < offer.ethTimelock then minutesUntilExpiry offer.ethTimelock nowSecs
    else config.ethTimelockMinutes
  lezTimelockMinutes :=
    if 0 < offer.lezTimelock then minutesUntilExpiry offer.lezTimelock nowSecs
    else config.lezTimelockMinutes

/-- The `eth_timelock` of `parse_config`: a number of minutes from its field, on top of the clock. -/
def ethTimelock (config : TimelockMinutes) (now : U64) : U64 :=
  now + BitVec.ofInt 64 config.ethTimelockMinutes * 60

/-- No minutes are less than one. -/
theorem minutesUntilExpiry_pos (expirySecs nowSecs : Int) :
    1 ≤ minutesUntilExpiry expirySecs nowSecs := by
  unfold minutesUntilExpiry
  split
  · exact le_refl _
  · dsimp only
    split
    · rename_i positive
      exact positive
    · exact le_refl _

/-- What is left of a number of minutes, rounded up, is that number less the whole minutes that
have passed. -/
theorem minutesUntilExpiry_age (minutes : Nat) {published accepted : Int}
    (shown : accepted < published + minutes * 60) :
    minutesUntilExpiry (published + minutes * 60) accepted =
      minutes - (accepted - published) / 60 := by
  have later : ¬ published + (minutes : Int) * 60 ≤ accepted := by omega
  have left : 0 < (published + (minutes : Int) * 60 - accepted + 59) / 60 := by omega
  simp only [minutesUntilExpiry, later, if_false, left, if_true]
  omega

/-- A row that has not expired is left with some of both timelocks. -/
theorem selExpired_false {row : Row} {nowSec : Int} (shown : selExpired row nowSec = false) :
    nowSec < row.lezTimelock ∧ nowSec < row.ethTimelock ∧ 0 < row.ethTimelock := by
  unfold selExpired remainingSec at shown
  simp only [decide_eq_false_iff_not] at shown
  split at shown <;> omega

section Match

variable {cfg : PublisherConfig} {published accepted : Int} {key : String} {blocked : Bool}
  {before : TimelockMinutes} {takerNow matchNow marginMinutes : U64} {hashlock taker maker : Bytes32}
  {designated : Option Bytes32} {rejected : List Bytes32} {inJournal : Bool}

/-- The row that an offer becomes, from a board that keeps it as it came. -/
def rowOf (cfg : PublisherConfig) (published : Int) (key : String) (blocked : Bool) : Row :=
  .ofTexts ⟨buildOffer cfg published, .string key, blocked⟩ (.string key) "" cfg.makerLezAccount

/-- The minutes that a taker locks for when it accepts the row. -/
def acceptedMinutes (before : TimelockMinutes) (row : Row) (accepted : Int) : TimelockMinutes :=
  applyTimelocks before row.wireOffer accepted

theorem acceptedMinutes_left
    (shown : selExpired (rowOf cfg published key blocked) accepted = false) :
    (acceptedMinutes before (rowOf cfg published key blocked) accepted).ethTimelockMinutes =
      minutesUntilExpiry (buildOffer cfg published).ethTimelock accepted := by
  obtain ⟨-, -, positive⟩ := selExpired_false shown
  have positive : 0 < (buildOffer cfg published).ethTimelock := positive
  exact if_pos positive

theorem acceptedMinutes_age
    (shown : selExpired (rowOf cfg published key blocked) accepted = false) :
    (acceptedMinutes before (rowOf cfg published key blocked) accepted).ethTimelockMinutes =
      cfg.ethTimelockMinutes.toNat - (accepted - published) / 60 := by
  obtain ⟨-, later, -⟩ := selExpired_false shown
  rw [acceptedMinutes_left shown]
  exact minutesUntilExpiry_age _ later

/-- The expiry that a taker locks for, where it fits. -/
theorem toNat_ethTimelock {config : TimelockMinutes} (some : 1 ≤ config.ethTimelockMinutes)
    (fits : (takerNow.toNat : Int) + config.ethTimelockMinutes * 60 < 2 ^ 64) :
    ((ethTimelock config takerNow).toNat : Int) =
      takerNow.toNat + config.ethTimelockMinutes * 60 := by
  have sixty : (60 : U64).toNat = 60 := rfl
  have read : (BitVec.ofInt 64 config.ethTimelockMinutes).toNat =
      config.ethTimelockMinutes.toNat := by
    rw [BitVec.toNat_ofInt]
    omega
  rw [ethTimelock, BitVec.toNat_add, BitVec.toNat_mul, read, sixty]
  omega

/-- The lock that follows an accept is turned away for its timelocks exactly when it is looked at,
and the age of the offer in whole minutes with the time from the lock to the match exceeds the
slack of the configuration. -/
theorem tooTight_iff
    (shown : selExpired (rowOf cfg published key blocked) accepted = false)
    (takerFits : (takerNow.toNat : Int) + (acceptedMinutes before (rowOf cfg published key blocked)
      accepted).ethTimelockMinutes * 60 < 2 ^ 64)
    (matchFits : matchNow.toNat + cfg.lezTimelockMinutes.toNat * 60 + marginMinutes.toNat * 60 <
      2 ^ 64) :
    classifyCandidate
        ⟨hashlock, taker, ethTimelock
          (acceptedMinutes before (rowOf cfg published key blocked) accepted) takerNow⟩
        ⟨maker, designated, freshLezExpirySecs matchNow (cfg.lezTimelockMinutes * 60),
          some (marginMinutes * 60)⟩ rejected inJournal ≠ .Reject .TimelockTooTight ↔
      (hashlock ∈ rejected ∨ inJournal = true) ∨
      takerLezAccountIsUsable taker maker = false ∨
      (∃ account ∈ designated, taker ≠ account) ∨
      ((matchNow.toNat : Int) - takerNow.toNat) + 60 * ((accepted - published) / 60) ≤
        60 * ((cfg.ethTimelockMinutes.toNat : Int) - cfg.lezTimelockMinutes.toNat -
          marginMinutes.toNat) := by
  have minutes := @acceptedMinutes_age _ _ _ _ _ before shown
  have some : 1 ≤ (acceptedMinutes before (rowOf cfg published key blocked)
      accepted).ethTimelockMinutes := by
    rw [acceptedMinutes_left shown]
    exact minutesUntilExpiry_pos _ _
  have expiry := toNat_ethTimelock some takerFits
  have covers : ethTimelockCoversLez
      (ethTimelock (acceptedMinutes before (rowOf cfg published key blocked) accepted) takerNow)
      (freshLezExpirySecs matchNow (cfg.lezTimelockMinutes * 60)) (marginMinutes * 60) = true ↔
      ((matchNow.toNat : Int) - takerNow.toNat) + 60 * ((accepted - published) / 60) ≤
        60 * ((cfg.ethTimelockMinutes.toNat : Int) - cfg.lezTimelockMinutes.toNat -
          marginMinutes.toNat) := by
    rw [ethTimelockCoversLez, decide_eq_true_eq, BitVec.le_def, U64.toNat_saturatingAdd,
      toNat_freshLezExpirySecs (by omega), toNat_minutes (by omega)]
    rw [minutes] at expiry
    omega
  rw [← covers]
  unfold classifyCandidate
  split
  · simp_all
  · split
    · simp_all
    · split
      · simp_all
      · split
        · simp_all
        · simp_all

/-- The publisher of the tests: the default timelocks. -/
def testConfig : PublisherConfig where
  lezAmount := "1000"
  ethAmountWei := "1000000000000000"
  makerEthAddress := "0x00000000000000000000000000000000000000aa"
  makerLezAccount := "maker"
  lezTimelockMinutes := 30
  ethTimelockMinutes := 50
  lezHtlcProgramId := "01"
  ethHtlcAddress := "0x00000000000000000000000000000000000000bb"

theorem tooTight_iff_test :
    classifyCandidate
        ⟨Bytes.fill 32 3, Bytes.fill 32 2, ethTimelock
          (acceptedMinutes ⟨0, 0⟩ (rowOf testConfig 1700000000 "key" false) 1700000899) 1700000900⟩
        ⟨Bytes.fill 32 1, none, freshLezExpirySecs 1700000900
          (testConfig.lezTimelockMinutes * 60), some (5 * 60)⟩ [] false ≠
          .Reject .TimelockTooTight ↔
      (Bytes.fill 32 3 ∈ ([] : List Bytes32) ∨ false = true) ∨
      takerLezAccountIsUsable (Bytes.fill 32 2) (Bytes.fill 32 1) = false ∨
      (∃ account ∈ (none : Option Bytes32), Bytes.fill 32 2 ≠ account) ∨
      (((1700000900 : U64).toNat : Int) - (1700000900 : U64).toNat) +
          60 * ((1700000899 - 1700000000) / 60) ≤
        60 * ((testConfig.ethTimelockMinutes.toNat : Int) -
          testConfig.lezTimelockMinutes.toNat - (5 : U64).toNat) :=
  tooTight_iff (by decide +kernel) (by decide +kernel) (by decide +kernel)

/-- With the default timelocks an offer is shown for thirty minutes, and from sixteen minutes on no
lock for it is taken. -/
theorem stale_offer_rejected :
    validateTimelocks testConfig.lezTimelockMinutes testConfig.ethTimelockMinutes 5 = .ok () ∧
    selExpired (rowOf testConfig 1700000000 "key" false) 1700001200 = false ∧
    classifyCandidate
        ⟨Bytes.fill 32 3, Bytes.fill 32 2, ethTimelock
          (acceptedMinutes ⟨0, 0⟩ (rowOf testConfig 1700000000 "key" false) 1700001200) 1700001200⟩
        ⟨Bytes.fill 32 1, none, freshLezExpirySecs 1700001200
          (testConfig.lezTimelockMinutes * 60), some (5 * 60)⟩ [] false =
      .Reject .TimelockTooTight := by
  refine ⟨?_, ?_, ?_⟩
  · decide +kernel
  · decide +kernel
  · decide +kernel

end Match

end AtomicSwaps.Publisher
